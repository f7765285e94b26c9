import Edk2Rk3576.Edid.Model
import Edk2Rk3576.Lib.Scattered
import Edk2Rk3576.Lib.Yields

/-!
# Detailed timings

Nine numbers of a mode are scattered over the first twelve bytes of a detailed timing, two of them
the blanking, which is the porches and the sync together. The mode is decoded from its descriptor
where it says the same numbers, and putting them back gives the bytes.
-/

namespace Edk2Rk3576

open Cells

/-- The numbers of a detailed timing. -/
inductive TimingField
  | pixelClock
  | hActive
  | hBlanking
  | vActive
  | vBlanking
  | hSyncOffset
  | hSyncWidth
  | vSyncOffset
  | vSyncWidth
  deriving DecidableEq

namespace TimingField

def all : List TimingField :=
  [pixelClock, hActive, hBlanking, vActive, vBlanking, hSyncOffset, hSyncWidth, vSyncOffset,
    vSyncWidth]

/-- Where each of them is. -/
def pieces : TimingField → List Piece
  | pixelClock => [⟨1, 0, 8⟩, ⟨0, 0, 8⟩]
  | hActive => [⟨4, 4, 4⟩, ⟨2, 0, 8⟩]
  | hBlanking => [⟨4, 0, 4⟩, ⟨3, 0, 8⟩]
  | vActive => [⟨7, 4, 4⟩, ⟨5, 0, 8⟩]
  | vBlanking => [⟨7, 0, 4⟩, ⟨6, 0, 8⟩]
  | hSyncOffset => [⟨11, 6, 2⟩, ⟨8, 0, 8⟩]
  | hSyncWidth => [⟨11, 4, 2⟩, ⟨9, 0, 8⟩]
  | vSyncOffset => [⟨11, 2, 2⟩, ⟨10, 4, 4⟩]
  | vSyncWidth => [⟨11, 0, 2⟩, ⟨10, 0, 4⟩]

/-- What a descriptor says. -/
def decoded (bytes : Cells UInt8) (f : TimingField) : ℕ := Piece.value bytes f.pieces

end TimingField

/-- What a mode says. -/
def DisplayMode.timing (m : DisplayMode) : TimingField → ℕ
  | .pixelClock => m.oscFreq.toNat / edidDetailedTimingClockResolution.toNat
  | .hActive => m.hActive.toNat
  | .hBlanking => m.hFrontPorch.toNat + m.hSync.toNat + m.hBackPorch.toNat
  | .vActive => m.vActive.toNat
  | .vBlanking => m.vFrontPorch.toNat + m.vSync.toNat + m.vBackPorch.toNat
  | .hSyncOffset => m.hFrontPorch.toNat
  | .hSyncWidth => m.hSync.toNat
  | .vSyncOffset => m.vFrontPorch.toNat
  | .vSyncWidth => m.vSync.toNat

/-- The mode put back in a descriptor. -/
def DisplayMode.timingByte (m : DisplayMode) (k : ℕ) : UInt8 :=
  .ofNat (Piece.record k (TimingField.all.map fun f => (m.timing f, f.pieces)))

/-- How many bytes the numbers take. -/
def timingBytes : ℕ := 12

/-- The mode is that of the descriptor. -/
structure TimingDecoded (bytes : Cells UInt8) (m : DisplayMode) : Prop where
  fields : ∀ f, m.timing f = f.decoded bytes
  clock : m.oscFreq.toNat =
    TimingField.pixelClock.decoded bytes * edidDetailedTimingClockResolution.toNat
  /-- The back porches, whose subtractions stay above zero. -/
  hBackPorch : (m.hBackPorch.toNat : ℤ) = TimingField.hBlanking.decoded bytes -
    (TimingField.hSyncOffset.decoded bytes + TimingField.hSyncWidth.decoded bytes)
  vBackPorch : (m.vBackPorch.toNat : ℤ) = TimingField.vBlanking.decoded bytes -
    (TimingField.vSyncOffset.decoded bytes + TimingField.vSyncWidth.decoded bytes)
  hSyncActive : m.hSyncActive.toNat = Piece.get bytes ⟨17, 1, 1⟩
  vSyncActive : m.vSyncActive.toNat = Piece.get bytes ⟨17, 2, 1⟩
  encoded : ∀ k < timingBytes, m.timingByte k = bytes k

section Reading

variable {c : ConnectorState} {block d offset : ℕ} {bytes : Cells UInt8}

/-- The descriptor at the start of the bytes. -/
def EdidDetailedTiming.ofBytes (bytes : Cells UInt8) : EdidDetailedTiming :=
  ⟨(bytes 0).toUInt16 ||| (bytes 1).toUInt16 <<< 8, bytes 2, bytes 3, bytes 4, bytes 5, bytes 6,
    bytes 7, bytes 8, bytes 9, bytes 10, bytes 11, bytes 17⟩

theorem edidByte_yields : Yields (fun _ => True)
    (fun b => b = c.edid (block * edidBlockSize + offset)) (edidByte c block offset) :=
  Yields.ite (fun _ => rfl) fun _ => trivial

theorem edidDetailedTiming_yields : Yields (fun _ => True)
    (fun t => t = .ofBytes fun k => c.edid (block * edidBlockSize + d + k))
    (edidDetailedTiming c block d) := by
  unfold edidDetailedTiming
  iterate 13
    refine Yields.bind edidByte_yields ?_
    rintro _ rfl
  rfl

end Reading

section Decoding

variable {bytes : Cells UInt8} {t : EdidDetailedTiming} {m : DisplayMode}

theorem ofBytes_pixelClock : (EdidDetailedTiming.ofBytes bytes).pixelClock.toNat =
    TimingField.pixelClock.decoded bytes := by
  have hlo := (bytes 0).toNat_lt
  have hhi := (bytes 1).toNat_lt
  have hshift : ((bytes 1).toUInt16 <<< 8).toNat = 2 ^ 8 * (bytes 1).toNat := by
    rw [UInt16.toNat_shiftLeft, UInt8.toNat_toUInt16]
    change (bytes 1).toNat <<< 8 % 2 ^ 16 = _
    rw [Nat.shiftLeft_eq]
    omega
  change ((bytes 0).toUInt16 ||| (bytes 1).toUInt16 <<< 8).toNat = _
  rw [UInt16.toNat_or, hshift, UInt8.toNat_toUInt16, Nat.or_comm, ← Nat.two_pow_add_eq_or_of_lt hlo]
  simp only [TimingField.decoded, TimingField.pieces, Piece.value, Piece.get, Piece.widths,
    List.map_cons, List.map_nil, List.sum_cons, List.sum_nil]
  omega

/-- A field whose pieces are the low byte and bits of another. -/
theorem lowByte_or {k j low width : ℕ} {mask s : UInt32}
    (hmask : mask.toNat = (2 ^ width - 1) <<< low) (hs : low + s.toNat = 8) (hwidth : width < 24) :
    (((bytes k).toUInt32 &&& mask) <<< s ||| (bytes j).toUInt32).toNat =
      Piece.value bytes [⟨k, low, width⟩, ⟨j, 0, 8⟩] :=
  Piece.value_or (Piece.get_shiftLeft (n := 8) hmask hs (by omega)) Piece.get_byte

theorem vSyncOffset_or : (((bytes 11).toUInt32 &&& 0x0c) <<< 2 |||
      ((bytes 10).toUInt32 &&& 0xf0) >>> 4).toNat = TimingField.vSyncOffset.decoded bytes :=
  Piece.value_or (Piece.get_shiftLeft rfl rfl (by decide))
    (Piece.get_shiftRight rfl rfl (by decide))

theorem vSyncWidth_or : (((bytes 11).toUInt32 &&& 0x03) <<< 4 |||
      (bytes 10).toUInt32 &&& 0x0f).toNat = TimingField.vSyncWidth.decoded bytes :=
  Piece.value_or (Piece.get_shiftLeft rfl rfl (by decide)) (Piece.get_lowMask rfl)

/-- The back porch is what the blanking has left. -/
theorem backPorch_sub {porch sync blanking : UInt32} {f s b : ℕ} (hf : porch.toNat = f)
    (hs : sync.toNat = s) (hb : blanking.toNat = b) (hfits : f + s < 2 ^ 32)
    (h : ¬ porch + sync ≥ blanking) :
    porch.toNat + sync.toNat + (blanking - (porch + sync)).toNat = b := by
  have hsum : (porch + sync).toNat = f + s := by
    rw [UInt32.toNat_add, hf, hs, Nat.mod_eq_of_lt hfits]
  have hlt : f + s < b := by
    have hlt := UInt32.lt_iff_toNat_lt.1 (UInt32.not_le.1 h)
    rwa [hsum, hb] at hlt
  rw [UInt32.toNat_sub_of_le _ _ (UInt32.le_iff_toNat_le.2 (by omega)), hsum, hf, hs, hb]
  omega

theorem flag_toNat {k low : ℕ} {mask : UInt8} (hmask : mask.toNat = (2 ^ 1 - 1) <<< low) :
    (if bytes k &&& mask != 0 then 1 else 0 : UInt32).toNat = Piece.get bytes ⟨k, low, 1⟩ := by
  have hand : (bytes k &&& mask).toNat = Piece.get bytes ⟨k, low, 1⟩ * 2 ^ low := by
    rw [UInt8.toNat_and, hmask, Piece.and_mask_nat]
    rfl
  have hlt : Piece.get bytes ⟨k, low, 1⟩ < 2 ^ 1 := Piece.get_lt
  have hpos := Nat.two_pow_pos low
  obtain h | h : Piece.get bytes ⟨k, low, 1⟩ = 0 ∨ Piece.get bytes ⟨k, low, 1⟩ = 1 := by omega
  · rw [h, Nat.zero_mul] at hand
    rw [h, UInt8.toNat_inj.1 (hand.trans UInt8.toNat_zero.symm), if_neg (by decide)]
    rfl
  · rw [h, Nat.one_mul] at hand
    have hne : (bytes k &&& mask) ≠ 0 := by
      intro hzero
      rw [hzero, UInt8.toNat_zero] at hand
      omega
    rw [h, if_pos (bne_iff_ne.2 hne)]
    rfl

/-- A mode says the numbers of its descriptor where each of its words does. -/
theorem timingDecoded_of_fields (hfields : ∀ f, m.timing f = f.decoded bytes)
    (hclock : m.oscFreq.toNat =
      TimingField.pixelClock.decoded bytes * edidDetailedTimingClockResolution.toNat)
    (hh : m.hSyncActive.toNat = Piece.get bytes ⟨17, 1, 1⟩)
    (hv : m.vSyncActive.toNat = Piece.get bytes ⟨17, 2, 1⟩) : TimingDecoded bytes m where
  fields := hfields
  clock := hclock
  hBackPorch := by
    have hblanking := hfields .hBlanking
    have hoffset := hfields .hSyncOffset
    have hwidth := hfields .hSyncWidth
    dsimp only [DisplayMode.timing] at hblanking hoffset hwidth
    omega
  vBackPorch := by
    have hblanking := hfields .vBlanking
    have hoffset := hfields .vSyncOffset
    have hwidth := hfields .vSyncWidth
    dsimp only [DisplayMode.timing] at hblanking hoffset hwidth
    omega
  hSyncActive := hh
  vSyncActive := hv
  encoded k hk := by
    have hrecord : TimingField.all.map (fun f => (m.timing f, f.pieces)) =
        (TimingField.all.map TimingField.pieces).map fun ps => (Piece.value bytes ps, ps) := by
      rw [List.map_map]
      exact List.map_congr_left fun f _ => by rw [hfields f]; rfl
    have hstacked : ∀ k < timingBytes, Piece.Stacked 8
        ((TimingField.all.map TimingField.pieces).flatten.filter fun p => p.byte = k) := by
      decide
    rw [DisplayMode.timingByte, hrecord, Piece.record_eq (hstacked k hk), UInt8.ofNat_toNat]

/-- A mode that is accepted. -/
theorem edidDetailedTimingToDisplayMode_yields : Yields (fun _ => True) (TimingDecoded bytes)
    (edidDetailedTimingToDisplayMode (.ofBytes bytes)) := by
  unfold edidDetailedTimingToDisplayMode
  refine Yields.ite (fun _ => trivial) fun _ => Yields.ite (fun _ => trivial) fun _ => ?_
  refine Yields.ite (fun _ => trivial) fun _ => Yields.ite (fun _ => trivial) fun hh => ?_
  refine Yields.ite (fun _ => trivial) fun hv => ?_
  have hlt : ∀ f : TimingField, f.decoded bytes < 2 ^ 16 := by
    intro f
    refine (Piece.value_lt f.pieces).trans_le ?_
    cases f <;> decide
  have hhfits := Nat.add_lt_add (hlt .hSyncOffset) (hlt .hSyncWidth)
  have hvfits := Nat.add_lt_add (hlt .vSyncOffset) (hlt .vSyncWidth)
  have hoffset := @lowByte_or bytes 11 8 6 2 0xc0 2 rfl rfl (by decide)
  have hwidth := @lowByte_or bytes 11 9 4 2 0x30 4 rfl rfl (by decide)
  have hhblanking := @lowByte_or bytes 4 3 0 4 0x0f 8 rfl rfl (by decide)
  have hvblanking := @lowByte_or bytes 7 6 0 4 0x0f 8 rfl rfl (by decide)
  have hhback := backPorch_sub hoffset hwidth hhblanking (hhfits.trans (by decide)) hh
  have hvback := backPorch_sub vSyncOffset_or vSyncWidth_or hvblanking
    (hvfits.trans (by decide)) hv
  have hclock : ((EdidDetailedTiming.ofBytes bytes).pixelClock.toUInt32 *
      edidDetailedTimingClockResolution).toNat =
      TimingField.pixelClock.decoded bytes * edidDetailedTimingClockResolution.toNat := by
    have hfits := hlt .pixelClock
    have hten : edidDetailedTimingClockResolution.toNat = 10 := rfl
    rw [UInt32.toNat_mul, UInt16.toNat_toUInt32, ofBytes_pixelClock, hten,
      Nat.mod_eq_of_lt (by omega)]
  refine timingDecoded_of_fields (fun f => ?_) hclock (flag_toNat rfl) (flag_toNat rfl)
  cases f with
  | pixelClock => exact (congrArg (· / 10) hclock).trans (Nat.mul_div_cancel _ (by decide))
  | hActive => exact @lowByte_or bytes 4 2 4 4 0xf0 4 rfl rfl (by decide)
  | hBlanking => exact hhback
  | vActive => exact @lowByte_or bytes 7 5 4 4 0xf0 4 rfl rfl (by decide)
  | vBlanking => exact hvback
  | hSyncOffset => exact hoffset
  | hSyncWidth => exact hwidth
  | vSyncOffset => exact vSyncOffset_or
  | vSyncWidth => exact vSyncWidth_or

/-- A descriptor that is read and accepted is decoded to its mode. -/
theorem edidDetailedTimingToDisplayMode_decodes {c : ConnectorState} {block d : ℕ}
    (hread : edidDetailedTiming c block d = .ok t)
    (haccepted : edidDetailedTimingToDisplayMode t = .ok m) :
    TimingDecoded (fun k => c.edid (block * edidBlockSize + d + k)) m := by
  have hbytes := @edidDetailedTiming_yields c block d
  rw [hread] at hbytes
  obtain rfl : t = _ := hbytes
  have hdecoded := @edidDetailedTimingToDisplayMode_yields
    fun k => c.edid (block * edidBlockSize + d + k)
  rwa [haccepted] at hdecoded

/-- A sink whose first detailed timing is that of 1920x1080 at 60 Hz. -/
def sink1080 : ConnectorState where
  edid := fun k => [0x02, 0x3a, 0x80, 0x18, 0x71, 0x38, 0x2d, 0x40, 0x58, 0x2c, 0x45, 0x00, 0x00,
    0x00, 0x00, 0x00, 0x00, 0x1e].getD (k - detailedTimingsOffset) 0
  type := drmModeConnectorHdmia
  sinkInfo :=
    { isHdmi := true
      hdmiInfo := ⟨false, false, false⟩
      selectableRgbRange := false
      preferredMode := ⟨0, 0, 0, 0, 0, 0, 0, 0, 0, 0, 0, 0, 0, 0⟩ }

theorem edidDetailedTimingToDisplayMode_decodes_1080 : ∃ m : DisplayMode,
    m.hActive = 1920 ∧ m.vActive = 1080 ∧ m.oscFreq = 148500 ∧ TimingDecoded
      (fun k => sink1080.edid (0 * edidBlockSize + detailedTimingsOffset + k)) m :=
  ⟨_, rfl, rfl, rfl, edidDetailedTimingToDisplayMode_decodes (c := sink1080) rfl rfl⟩

end Decoding

end Edk2Rk3576
