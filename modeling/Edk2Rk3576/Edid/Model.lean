import Edk2Rk3576.Edid.Modes

/-!
# EDID parsing

A read is of a byte of a block of the EDID buffer, the block that is being parsed; one beyond the
128 bytes of the block, or of a block beyond the buffer, is a fault.
-/

namespace Edk2Rk3576

open Cells

inductive EdidFault
  | outside (block offset : ℕ)

abbrev EdidRead := Except EdidFault

def edidBlockSize : ℕ := 128
def edidMaxExtensionBlocks : ℕ := 4
def edidExtensionCea861 : UInt8 := 0x02
def edidExtensionVtb : UInt8 := 0x10
def edidNumberOfEstablishedTimingsBytes : ℕ := 3
def edidNumberOfStandardTimings : ℕ := 8
def edidNumberOfDetailedTimings : ℕ := 4
def edidDetailedTimingClockResolution : UInt32 := 10
def sizeOfDetailedTiming : ℕ := 18

/-- Where the fields of an `EDID_BASE` are. -/
def establishedTimingsOffset : ℕ := 35
def standardTimingsOffset : ℕ := 38
def detailedTimingsOffset : ℕ := 54
def extensionFlagOffset : ℕ := 126

def ceaDataOffset : ℕ := 4
def ceaDataBlockVideo : UInt8 := 0x02
def ceaDataBlockVendor : UInt8 := 0x03
def ceaDataBlockExtended : UInt8 := 0x07
def ceaDataBlockExtendedVcdb : UInt8 := 0x00
def ceaDataBlockExtendedY420vdb : UInt8 := 0x0e
def ceaDataBlockExtendedHfScdb : UInt8 := 0x79
def ieeeOuiHdmi : UInt32 := 0x000c03
def ieeeOuiHdmiForum : UInt32 := 0xc45dd8

/-- The first result of a loop that returns it. -/
def firstFound {α : Type} (f : ℕ → EdidRead (Option α)) : List ℕ → EdidRead (Option α)
  | [] => pure none
  | i :: is => do
    match ← f i with
    | some a => pure (some a)
    | none => firstFound f is

section Blocks

variable (c : ConnectorState) (block : ℕ)

/-- `EDID_BLOCK (Edid, block)[offset]`. -/
def edidByte (offset : ℕ) : EdidRead UInt8 :=
  if block ≤ edidMaxExtensionBlocks ∧ offset < edidBlockSize then
    .ok (c.edid (block * edidBlockSize + offset))
  else .error (.outside block offset)

def edidGetBlockCount : EdidRead ℕ := do
  let extensionFlag ← edidByte c 0 extensionFlagOffset
  pure (1 + min edidMaxExtensionBlocks extensionFlag.toNat)

def ceaDataBlockTag (header : UInt8) : UInt8 := (header >>> 5) &&& 0x7

def ceaDataBlockPayloadLength (header : UInt8) : ℕ := (header &&& 0x1f).toNat

variable (d : ℕ)

/-! A data block is at offset `d` of its block. -/

def ceaIsVideoDataBlock : EdidRead Bool := do
  let header ← edidByte c block d
  pure (ceaDataBlockTag header == ceaDataBlockVideo)

def ceaIsVendorDataBlock (oui : UInt32) : EdidRead Bool := do
  let header ← edidByte c block d
  if ceaDataBlockTag header != ceaDataBlockVendor then pure false
  else if ceaDataBlockPayloadLength header < 3 then pure false
  else
    let b₃ ← edidByte c block (d + 3)
    let b₂ ← edidByte c block (d + 2)
    let b₁ ← edidByte c block (d + 1)
    pure ((b₃.toUInt32 <<< 16 ||| b₂.toUInt32 <<< 8 ||| b₁.toUInt32) == oui)

def ceaIsExtendedDataBlock (tag : UInt8) : EdidRead Bool := do
  let header ← edidByte c block d
  if ceaDataBlockTag header != ceaDataBlockExtended then pure false
  else if ceaDataBlockPayloadLength header < 1 then pure false
  else
    let b ← edidByte c block (d + 1)
    pure (b == tag)

/-- A kind of data block, of at least `length` bytes of payload. -/
def ceaIsOfLength (length : ℕ) (isKind : EdidRead Bool) : EdidRead Bool := do
  if ← isKind then
    let header ← edidByte c block d
    pure (decide (length ≤ ceaDataBlockPayloadLength header))
  else pure false

def ceaIsHdmiVsdbDataBlock : EdidRead Bool :=
  ceaIsOfLength c block d 5 (ceaIsVendorDataBlock c block d ieeeOuiHdmi)

def ceaIsVcdbDataBlock : EdidRead Bool :=
  ceaIsOfLength c block d 2 (ceaIsExtendedDataBlock c block d ceaDataBlockExtendedVcdb)

def ceaIsY420VdbDataBlock : EdidRead Bool :=
  ceaIsExtendedDataBlock c block d ceaDataBlockExtendedY420vdb

def ceaIsHdmiForumScdsDataBlock : EdidRead Bool :=
  ceaIsOfLength c block d 7 (do
    if ← ceaIsVendorDataBlock c block d ieeeOuiHdmiForum then pure true
    else ceaIsExtendedDataBlock c block d ceaDataBlockExtendedHfScdb)

def ceaSvdHasNativeBit (svd : UInt8) : Bool :=
  (1 ≤ svd && svd ≤ 64) || (129 ≤ svd && svd ≤ 192)

def ceaSvdToVic (svd : UInt8) : UInt8 := if ceaSvdHasNativeBit svd then svd &&& 0x7f else svd

def ceaSvdIsNative (svd : UInt8) : Bool :=
  if ceaSvdHasNativeBit svd then svd &&& 0x80 != 0 else false

end Blocks

section Walk

variable {σ : Type} (c : ConnectorState)

/-- The data blocks of a CEA block from `offset` on. `DataBlockOffset` is a `UINT8`. What is done with
a data block says whether the walk is at its end, and so does the walk. -/
def ceaDataBlocks (block : ℕ) (dataBlocksEnd : UInt8) (body : ℕ → σ → EdidRead (σ × Bool))
    (offset : ℕ) (s : σ) : EdidRead (σ × Bool) :=
  if offset < dataBlocksEnd.toNat then do
    let header ← edidByte c block offset
    let length := 1 + ceaDataBlockPayloadLength header
    if h : offset + length > dataBlocksEnd.toNat then pure (s, false)
    else
      let r ← body offset s
      if r.2 then pure r
      else ceaDataBlocks block dataBlocksEnd body ((offset + length) % 256) r.1
  else pure (s, false)
termination_by dataBlocksEnd.toNat - offset
decreasing_by
  have := dataBlocksEnd.toNat_lt
  omega

/-- The data blocks of a block, if it is a CEA block of revision 3. -/
def ceaBlock (block : ℕ) (body : ℕ → σ → EdidRead (σ × Bool)) (s : σ) : EdidRead (σ × Bool) := do
  let tag ← edidByte c block 0x00
  if tag != edidExtensionCea861 then pure (s, false)
  else
    let revision ← edidByte c block 0x01
    if revision < 3 then pure (s, false)
    else
      let dataBlocksEnd ← edidByte c block 0x02
      if dataBlocksEnd.toNat > edidBlockSize - 1 then pure (s, false)
      else ceaDataBlocks c block dataBlocksEnd body ceaDataOffset s

def ceaBlocks (body : ℕ → ℕ → σ → EdidRead (σ × Bool)) : List ℕ → σ → EdidRead σ
  | [], s => pure s
  | block :: blocks, s => do
    let r ← ceaBlock c block (body block) s
    if r.2 then pure r.1 else ceaBlocks body blocks r.1

/-- The loop over the extension blocks. -/
def ceaExtensions (body : ℕ → ℕ → σ → EdidRead (σ × Bool)) (s : σ) : EdidRead σ := do
  let blockCount ← edidGetBlockCount c
  ceaBlocks c body (List.range' 1 (blockCount - 1)) s

end Walk

section Features

variable (c : ConnectorState)

/-- The codes between 340 and 600 MHz. -/
def speedLimitedVics : List UInt8 := [91, 92, 96, 97, 101, 102, 106, 107, 114, 115, 116, 121, 122, 123]

/-- The loop over the codes of a Y420VDB. -/
def y420SpeedLimited (block svds : ℕ) : List ℕ → Bool → EdidRead Bool
  | [], limited => pure limited
  | svdIndex :: indexes, limited => do
    if limited then pure limited
    else
      let svd ← edidByte c block (svds + svdIndex)
      y420SpeedLimited block svds indexes (speedLimitedVics.contains (ceaSvdToVic svd))

def edidGetFeaturesDataBlock (block d : ℕ) (s : DisplaySinkInfo) :
    EdidRead (DisplaySinkInfo × Bool) := do
  if ← ceaIsVcdbDataBlock c block d then
    let b ← edidByte c block (d + 0x02)
    pure (if b &&& 0x40 != 0 then { s with selectableRgbRange := true } else s, false)
  else if ← ceaIsHdmiVsdbDataBlock c block d then pure ({ s with isHdmi := true }, false)
  else if ← ceaIsHdmiForumScdsDataBlock c block d then
    let b₅ ← edidByte c block (d + 0x05)
    let b₆ ← edidByte c block (d + 0x06)
    pure ({ s with hdmiInfo :=
      { hdmi20Supported := true
        hdmi20SpeedLimited := s.hdmiInfo.hdmi20SpeedLimited || decide (b₅.toNat * 5 < 594)
        scdcSupported := s.hdmiInfo.scdcSupported || b₆ &&& 0x80 != 0 } }, false)
  else if ← ceaIsY420VdbDataBlock c block d then
    let header ← edidByte c block d
    let svdsCount := ceaDataBlockPayloadLength header - 1
    let limited ← y420SpeedLimited c block (d + 2) (List.range svdsCount)
      s.hdmiInfo.hdmi20SpeedLimited
    pure ({ s with hdmiInfo := { s.hdmiInfo with hdmi20SpeedLimited := limited } }, false)
  else pure (s, false)

/-- `EdidGetFeatures`, that is `EdidGetFeaturesCea`. -/
def edidGetFeatures : EdidRead ConnectorState := do
  let sinkInfo ← ceaExtensions c (edidGetFeaturesDataBlock c) c.sinkInfo
  pure { c with sinkInfo := sinkInfo }

end Features

section Detailed

variable (c : ConnectorState)

/-- The fields of an `EDID_DETAILED_TIMING` but the sizes of the picture. -/
structure EdidDetailedTiming where
  pixelClock : UInt16
  hActiveLo : UInt8
  hBlankingLo : UInt8
  hActiveHiBlankingHi : UInt8
  vActiveLo : UInt8
  vBlankingLo : UInt8
  vActiveHiBlankingHi : UInt8
  hSyncOffsetLo : UInt8
  hSyncWidthLo : UInt8
  vSyncOffsetLoSyncWidthLo : UInt8
  hSyncOffsetHiHSyncWidthHiVSyncOffsetHiSyncWidthHi : UInt8
  features : UInt8

def edidDetailedTiming (block d : ℕ) : EdidRead EdidDetailedTiming := do
  let clockLo ← edidByte c block d
  let clockHi ← edidByte c block (d + 1)
  let hActiveLo ← edidByte c block (d + 2)
  let hBlankingLo ← edidByte c block (d + 3)
  let hActiveHiBlankingHi ← edidByte c block (d + 4)
  let vActiveLo ← edidByte c block (d + 5)
  let vBlankingLo ← edidByte c block (d + 6)
  let vActiveHiBlankingHi ← edidByte c block (d + 7)
  let hSyncOffsetLo ← edidByte c block (d + 8)
  let hSyncWidthLo ← edidByte c block (d + 9)
  let vSyncOffsetLoSyncWidthLo ← edidByte c block (d + 10)
  let syncHi ← edidByte c block (d + 11)
  let features ← edidByte c block (d + 17)
  pure ⟨clockLo.toUInt16 ||| clockHi.toUInt16 <<< 8, hActiveLo, hBlankingLo, hActiveHiBlankingHi,
    vActiveLo, vBlankingLo, vActiveHiBlankingHi, hSyncOffsetLo, hSyncWidthLo,
    vSyncOffsetLoSyncWidthLo, syncHi, features⟩

def edidDetailedTimingToDisplayMode (t : EdidDetailedTiming) : Except EfiStatus DisplayMode :=
  let syncHi := t.hSyncOffsetHiHSyncWidthHiVSyncOffsetHiSyncWidthHi.toUInt32
  let hFrontPorch := (syncHi &&& 0xc0) <<< 2 ||| t.hSyncOffsetLo.toUInt32
  let hSync := (syncHi &&& 0x30) <<< 4 ||| t.hSyncWidthLo.toUInt32
  let hBlanking := (t.hActiveHiBlankingHi.toUInt32 &&& 0x0f) <<< 8 ||| t.hBlankingLo.toUInt32
  let vFrontPorch := (syncHi &&& 0x0c) <<< 2 ||| (t.vSyncOffsetLoSyncWidthLo.toUInt32 &&& 0xf0) >>> 4
  let vSync := (syncHi &&& 0x03) <<< 4 ||| t.vSyncOffsetLoSyncWidthLo.toUInt32 &&& 0x0f
  let vBlanking := (t.vActiveHiBlankingHi.toUInt32 &&& 0x0f) <<< 8 ||| t.vBlankingLo.toUInt32
  if t.pixelClock == 0 then .error efiInvalidParameter
  else if t.features &&& 0x80 != 0 then .error efiUnsupported
  else if t.features &&& 0x60 != 0 then .error efiUnsupported
  else if hFrontPorch + hSync ≥ hBlanking then .error efiInvalidParameter
  else if vFrontPorch + vSync ≥ vBlanking then .error efiInvalidParameter
  else .ok
    { vic := 0
      oscFreq := t.pixelClock.toUInt32 * edidDetailedTimingClockResolution
      hActive := (t.hActiveHiBlankingHi.toUInt32 &&& 0xf0) <<< 4 ||| t.hActiveLo.toUInt32
      hFrontPorch := hFrontPorch
      hSync := hSync
      hBackPorch := hBlanking - (hFrontPorch + hSync)
      hSyncActive := if t.features &&& 0x02 != 0 then 1 else 0
      vActive := (t.vActiveHiBlankingHi.toUInt32 &&& 0xf0) <<< 4 ||| t.vActiveLo.toUInt32
      vFrontPorch := vFrontPorch
      vSync := vSync
      vBackPorch := vBlanking - (vFrontPorch + vSync)
      vSyncActive := if t.features &&& 0x04 != 0 then 1 else 0
      denActive := 0
      clkActive := 0 }

def edidDetailedTimingToDisplayModeMatch (t : EdidDetailedTiming) : Except EfiStatus DisplayMode := do
  let m ← edidDetailedTimingToDisplayMode t
  match matchPredefinedDisplayMode m (edidDetailedTimingClockResolution / 2) with
  | some p => pure { m with vic := p.vic, oscFreq := p.oscFreq }
  | none => pure m

/-- The sum of the bytes of a block. -/
def edidSum (block : ℕ) : List ℕ → UInt8 → EdidRead UInt8
  | [], sum => pure sum
  | i :: is, sum => do
    let b ← edidByte c block i
    edidSum block is (sum + b)

/-- Where a block has its detailed timings and how many, unless it is passed over. -/
def edidDetailedTimings (block : ℕ) : EdidRead (Option (ℕ × ℕ)) := do
  if block = 0 then
    let sum ← edidSum c block (List.range edidBlockSize) 0
    pure (if sum != 0 then none else some (detailedTimingsOffset, edidNumberOfDetailedTimings))
  else
    let tag ← edidByte c block 0x00
    if tag == edidExtensionCea861 then
      let dtdOffset ← edidByte c block 0x02
      let dtdEnd := edidBlockSize - 1
      pure (if dtdOffset.toNat < ceaDataOffset ∨ dtdOffset.toNat ≥ dtdEnd then none
        else some (dtdOffset.toNat, (dtdEnd - dtdOffset.toNat) / sizeOfDetailedTiming))
    else if tag == edidExtensionVtb then
      let version ← edidByte c block 0x01
      if version != 1 then pure none
      else
        let count ← edidByte c block 0x02
        pure (some (0x05, min count.toNat 6))
    else pure none

/-- The mode of a detailed timing, if it has one that is supported. -/
def edidDetailedTimingMode (block d : ℕ) : EdidRead (Option DisplayMode) := do
  let t ← edidDetailedTiming c block d
  match edidDetailedTimingToDisplayModeMatch t with
  | .error _ => pure none
  | .ok m => pure (if isDisplayModeSupported c m then some m else none)

def edidDetailedMode (block : ℕ) : EdidRead (Option DisplayMode) := do
  match ← edidDetailedTimings c block with
  | none => pure none
  | some (offset, count) =>
    firstFound (fun index => edidDetailedTimingMode c block (offset + index * sizeOfDetailedTiming))
      (List.range count)

def edidUpdatePreferredMode (m : DisplayMode) : ConnectorState :=
  { c with sinkInfo := { c.sinkInfo with preferredMode := m } }

/-- What each way to a preferred mode ends with. -/
def edidPreferredModeFound : Option DisplayMode → EfiStatus × ConnectorState
  | some m => (efiSuccess, edidUpdatePreferredMode c m)
  | none => (efiNotFound, c)

def edidGetPreferredModeDetailed : EdidRead (EfiStatus × ConnectorState) := do
  let blockCount ← edidGetBlockCount c
  let found ← firstFound (edidDetailedMode c) (List.range blockCount)
  pure (edidPreferredModeFound c found)

end Detailed

section Cea

variable (c : ConnectorState)

/-- The predefined mode of a code, if there is one that is supported. -/
def supportedModeByVic (vic : UInt8) : Option DisplayMode :=
  if vic == 0 then none else (getPredefinedDisplayModeByVic vic).filter (isDisplayModeSupported c)

/-- The first supported mode, and whether it is a native one. -/
def ceaVideoDataBlockGetFirstSupportedMode (block d : ℕ) : EdidRead (Option (DisplayMode × Bool)) := do
  let header ← edidByte c block d
  firstFound (fun index => do
      let svd ← edidByte c block (d + 1 + index)
      pure ((supportedModeByVic c (ceaSvdToVic svd)).map fun m => (m, ceaSvdIsNative svd)))
    (List.range (ceaDataBlockPayloadLength header))

/-- Where the codes of a vendor block are, by the flags for the latency fields before them. -/
def hdmiVicsOffset (flags : UInt8) : ℕ :=
  15 - (if flags &&& 0x80 == 0 then 2 else 0) - (if flags &&& 0x40 == 0 then 2 else 0)

def ceaHdmiVsdbDataBlockGetFirstSupportedMode (block d : ℕ) : EdidRead (Option DisplayMode) := do
  let header ← edidByte c block d
  let vsdbLength := ceaDataBlockPayloadLength header
  if vsdbLength < 8 then pure none
  else
    let flags ← edidByte c block (d + 8)
    if flags &&& 0x20 == 0 then pure none
    else if vsdbLength < hdmiVicsOffset flags then pure none
    else
      let b ← edidByte c block (d + (hdmiVicsOffset flags - 1))
      let vicsCount := (b >>> 5).toNat
      if hdmiVicsOffset flags + vicsCount > vsdbLength + 1 then pure none
      else
        firstFound (fun index => do
            let vic ← edidByte c block (d + (hdmiVicsOffset flags + index))
            pure (supportedModeByVic c (convertHdmiToCeaVic vic)))
          (List.range vicsCount)

structure CeaModes where
  ceaMode : Option (DisplayMode × Bool)
  hdmiMode : Option DisplayMode

/-- The modes found so far, and whether both are. -/
def CeaModes.both (s : CeaModes) : CeaModes × Bool := (s, s.ceaMode.isSome && s.hdmiMode.isSome)

def edidGetPreferredModeDataBlock (block d : ℕ) (s : CeaModes) : EdidRead (CeaModes × Bool) := do
  if ← ceaIsVideoDataBlock c block d then
    if s.ceaMode.isSome then pure s.both
    else
      let mode ← ceaVideoDataBlockGetFirstSupportedMode c block d
      pure { s with ceaMode := mode }.both
  else if ← ceaIsHdmiVsdbDataBlock c block d then
    if s.hdmiMode.isSome then pure s.both
    else
      let mode ← ceaHdmiVsdbDataBlockGetFirstSupportedMode c block d
      pure { s with hdmiMode := mode }.both
  else pure (s, false)

/-- The HDMI mode, if the CEA one is neither native nor larger. -/
def CeaModes.preferred (s : CeaModes) : Option DisplayMode :=
  match s.hdmiMode, s.ceaMode with
  | none, ceaMode => ceaMode.map Prod.fst
  | some hdmi, none => some hdmi
  | some hdmi, some (cea, isNative) =>
    if !isNative && (hdmi.hActive * hdmi.vActive > cea.hActive * cea.vActive
        || (hdmi.hActive * hdmi.vActive == cea.hActive * cea.vActive && hdmi.oscFreq > cea.oscFreq))
    then some hdmi
    else some cea

def edidGetPreferredModeCea : EdidRead (EfiStatus × ConnectorState) := do
  let modes ← ceaExtensions c (edidGetPreferredModeDataBlock c) ⟨none, none⟩
  pure (edidPreferredModeFound c modes.preferred)

end Cea

section Standard

variable (c : ConnectorState)

/-- The vertical resolution of an aspect ratio. -/
def standardVerticalResolution (aspectRatio : UInt8) (h : UInt32) : UInt32 :=
  match aspectRatio with
  | 0 => h * 10 / 16
  | 1 => h * 3 / 4
  | 2 => h * 4 / 5
  | _ => h * 9 / 16

/-- `EdidParseStandardTiming`: the resolution and the refresh rate. -/
def edidParseStandardTiming (horizontalActivePixels imageAspectRatioAndrefresh : UInt8) :
    Option (UInt32 × UInt32 × UInt32) :=
  let unused := fun v : UInt8 => horizontalActivePixels == v && imageAspectRatioAndrefresh == v
  if unused 0x00 || unused 0x01 || unused 0x20 then none
  else
    let h := (horizontalActivePixels.toUInt32 + 31) * 8
    let v := standardVerticalResolution ((imageAspectRatioAndrefresh >>> 6) &&& 0x3) h
    let refreshRate := (imageAspectRatioAndrefresh &&& 0x1f).toUInt32 + 60
    -- no perfect aspect ratio
    if (h == 1360 && v == 765) || (h == 1368 && v == 769) then some (1360, 768, refreshRate)
    else some (h, v, refreshRate)

def edidStandardMode (index : ℕ) : EdidRead (Option DisplayMode) := do
  let pixels ← edidByte c 0 (standardTimingsOffset + 2 * index)
  let ratio ← edidByte c 0 (standardTimingsOffset + 2 * index + 1)
  match edidParseStandardTiming pixels ratio with
  | none => pure none
  | some (h, v, refreshRate) =>
    pure ((getPredefinedDisplayModeByResolution h v refreshRate).filter (isDisplayModeSupported c))

def edidGetPreferredModeStandard : EdidRead (EfiStatus × ConnectorState) := do
  let found ← firstFound (edidStandardMode c) (List.range edidNumberOfStandardTimings)
  pure (edidPreferredModeFound c found)

/-- `mEstablishedTimings`, a row of eight for each byte. -/
def establishedTimings : List (UInt16 × UInt16 × UInt16) :=
  [ (800, 600, 60), (800, 600, 56), (640, 480, 75), (640, 480, 72), (640, 480, 67), (640, 480, 60),
    (720, 400, 88), (720, 400, 70),
    (1280, 1024, 75), (1024, 768, 75), (1024, 768, 70), (1024, 768, 60), (1024, 768, 87),
    (832, 624, 75), (800, 600, 75), (800, 600, 72),
    (1152, 870, 75), (0, 0, 0), (0, 0, 0), (0, 0, 0), (0, 0, 0), (0, 0, 0), (0, 0, 0), (0, 0, 0) ]

/-- The entry for a bit is the timing. -/
def isEstablishedTiming (estByte estBit : ℕ) (h v : UInt16) (refreshRate : UInt8) : Bool :=
  match establishedTimings[8 * estByte + estBit]? with
  | some (h', v', refreshRate') => h' == h && v' == v && refreshRate' == refreshRate.toUInt16
  | none => false

/-- `EdidIsEstablishedModeSupported`. -/
def edidIsEstablishedModeSupported (h v : UInt16) (refreshRate : UInt8) : EdidRead (Option Unit) :=
  firstFound (fun estByte => do
      let b ← edidByte c 0 (establishedTimingsOffset + estByte)
      pure (if (List.range 8).any fun estBit =>
          b.toNat.testBit estBit && isEstablishedTiming estByte estBit h v refreshRate
        then some () else none))
    (List.range edidNumberOfEstablishedTimingsBytes)

/-- The largest mode: the predefined ones from the last to the first. -/
def edidEstablishedMode (index : ℕ) : EdidRead (Option DisplayMode) :=
  match displayModes.reverse[index]? with
  | none => pure none
  | some m => do
    match ← edidIsEstablishedModeSupported c m.hActive.toUInt16 m.vActive.toUInt16
      (displayModeVRefresh m).toUInt8 with
    | none => pure none
    | some () => pure (if isDisplayModeSupported c m then some m else none)

def edidGetPreferredModeEstablished : EdidRead (EfiStatus × ConnectorState) := do
  let found ← firstFound (edidEstablishedMode c) (List.range displayModes.length)
  pure (edidPreferredModeFound c found)

end Standard

/-- `EdidGetPreferredMode`: the first of the ways that is no error. -/
def edidGetPreferredModeBy :
    List (ConnectorState → EdidRead (EfiStatus × ConnectorState)) → ConnectorState →
      EdidRead (EfiStatus × ConnectorState)
  | [], c => pure (efiNotFound, c)
  | op :: ops, c => do
    let r ← op c
    if efiError r.1 then edidGetPreferredModeBy ops r.2 else pure (efiSuccess, r.2)

/-- `mEdidGetPreferredModeOps`. -/
def edidGetPreferredModeOps : List (ConnectorState → EdidRead (EfiStatus × ConnectorState)) :=
  [ edidGetPreferredModeDetailed, edidGetPreferredModeCea, edidGetPreferredModeStandard,
    edidGetPreferredModeEstablished ]

def edidGetDisplaySinkInfo (c : ConnectorState) : EdidRead (EfiStatus × ConnectorState) := do
  let c ← edidGetFeatures c
  edidGetPreferredModeBy edidGetPreferredModeOps c

end Edk2Rk3576
