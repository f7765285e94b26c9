import Edk2Rk3576.Edid.Model
import Edk2Rk3576.Lib.Yields

/-!
# What parsing reads, and the mode it leaves

No parse reads beyond the block it is in: a data block is looked at only once its length has been
checked, and a kind of data block has the bytes that are read of it. Any mode found has been checked
to be supported, by features that are final by then.
-/

namespace Edk2Rk3576

open Cells

/-- A parse that reads no byte beyond its block, and has a result with `P`. -/
def Reads {α : Type} (P : α → Prop) (x : EdidRead α) : Prop := Yields (fun _ => False) P x

theorem Reads.exists_ok {α : Type} {P : α → Prop} {x : EdidRead α} (h : Reads P x) :
    ∃ a, x = .ok a ∧ P a := by
  cases x with
  | ok a => exact ⟨a, rfl, h⟩
  | error e => exact h.elim

theorem reads_none_or {α : Type} {P : α → Prop} {b : Prop} [Decidable b] {a : α} (h : ¬ b → P a) :
    Reads (fun r => ∀ t ∈ r, P t) (pure (if b then none else some a)) := by
  split_ifs with hb
  · exact nofun
  · rintro _ ⟨⟩
    exact h hb

theorem reads_some_or {α : Type} {P : α → Prop} {b : Prop} [Decidable b] {a : α} (h : b → P a) :
    Reads (fun r => ∀ t ∈ r, P t) (pure (if b then some a else none)) := by
  split_ifs with hb
  · rintro _ ⟨⟩
    exact h hb
  · exact nofun

/-- A data block that is in its block, header and payload. -/
structure DataBlockAt (c : ConnectorState) (block d : ℕ) (header : UInt8) : Prop where
  block_le : block ≤ edidMaxExtensionBlocks
  header_eq : c.edid (block * edidBlockSize + d) = header
  fits : d + ceaDataBlockPayloadLength header < edidBlockSize

section Bytes

variable {c : ConnectorState} {block d offset k : ℕ} {header : UInt8}

theorem edidByte_ok (hb : block ≤ edidMaxExtensionBlocks) (ho : offset < edidBlockSize) :
    edidByte c block offset = .ok (c.edid (block * edidBlockSize + offset)) := if_pos ⟨hb, ho⟩

theorem DataBlockAt.header_ok (h : DataBlockAt c block d header) :
    edidByte c block d = .ok header := by
  have hfits := h.fits
  rw [edidByte_ok h.block_le (by omega), h.header_eq]

/-- The bytes of the payload. -/
theorem DataBlockAt.byte_ok (h : DataBlockAt c block d header)
    (hk : k ≤ ceaDataBlockPayloadLength header) :
    edidByte c block (d + k) = .ok (c.edid (block * edidBlockSize + (d + k))) := by
  have hfits := h.fits
  exact edidByte_ok h.block_le (by omega)

theorem edidGetBlockCount_reads :
    Reads (fun n => 1 ≤ n ∧ n ≤ 1 + edidMaxExtensionBlocks) (edidGetBlockCount c) := by
  unfold edidGetBlockCount
  refine Yields.bind_ok (edidByte_ok (Nat.zero_le _) (by decide)) ?_
  exact ⟨Nat.le_add_right _ _, Nat.add_le_add_left (Nat.min_le_left _ _) 1⟩

theorem ceaIsVideoDataBlock_reads (h : DataBlockAt c block d header) :
    Reads (fun _ => True) (ceaIsVideoDataBlock c block d) :=
  Yields.bind_ok h.header_ok trivial

theorem ceaIsVendorDataBlock_reads (h : DataBlockAt c block d header) {oui : UInt32} :
    Reads (fun _ => True) (ceaIsVendorDataBlock c block d oui) := by
  unfold ceaIsVendorDataBlock
  refine Yields.bind_ok h.header_ok ?_
  refine Yields.ite (fun _ => trivial) fun _ => ?_
  refine Yields.ite (fun _ => trivial) fun hlen => ?_
  refine Yields.bind_ok (h.byte_ok (by omega)) ?_
  refine Yields.bind_ok (h.byte_ok (by omega)) ?_
  exact Yields.bind_ok (h.byte_ok (by omega)) trivial

theorem ceaIsExtendedDataBlock_reads (h : DataBlockAt c block d header) {tag : UInt8} :
    Reads (fun is => is = true → 1 ≤ ceaDataBlockPayloadLength header)
      (ceaIsExtendedDataBlock c block d tag) := by
  unfold ceaIsExtendedDataBlock
  refine Yields.bind_ok h.header_ok ?_
  refine Yields.ite (fun _ => Bool.noConfusion) fun _ => ?_
  refine Yields.ite (fun _ => Bool.noConfusion) fun hlen => ?_
  exact Yields.bind_ok (h.byte_ok (by omega)) fun _ => by omega

/-- A data block that is of a kind has the bytes the kind asks for. -/
theorem ceaIsOfLength_reads (h : DataBlockAt c block d header) {length : ℕ} {isKind : EdidRead Bool}
    {P : Bool → Prop} (hkind : Reads P isKind) :
    Reads (fun is => is = true → length ≤ ceaDataBlockPayloadLength header)
      (ceaIsOfLength c block d length isKind) := by
  refine Yields.bind hkind fun is _ => ?_
  refine Yields.ite (fun _ => ?_) fun _ => Bool.noConfusion
  exact Yields.bind_ok h.header_ok fun hlen => of_decide_eq_true hlen

theorem ceaIsHdmiForumScdsDataBlock_reads (h : DataBlockAt c block d header) :
    Reads (fun is => is = true → 7 ≤ ceaDataBlockPayloadLength header)
      (ceaIsHdmiForumScdsDataBlock c block d) := by
  refine ceaIsOfLength_reads (P := fun _ => True) h ?_
  refine Yields.bind (ceaIsVendorDataBlock_reads h) fun is _ => ?_
  refine Yields.ite (fun _ => trivial) fun _ => ?_
  exact Yields.mono (ceaIsExtendedDataBlock_reads h) fun _ _ => trivial

end Bytes

section Walks

variable {σ : Type} {c : ConnectorState} {block : ℕ} {dataBlocksEnd : UInt8}

theorem firstFound_reads {α : Type} {P : α → Prop} {f : ℕ → EdidRead (Option α)} :
    ∀ l : List ℕ, (∀ i ∈ l, Reads (fun r => ∀ a ∈ r, P a) (f i)) →
      Reads (fun r => ∀ a ∈ r, P a) (firstFound f l)
  | [], _ => nofun
  | i :: l, h => by
    refine Yields.bind (h i List.mem_cons_self) fun r hr => ?_
    cases r with
    | some a => exact hr
    | none => exact firstFound_reads l fun j hj => h j (List.mem_cons_of_mem i hj)

/-- The walk over the data blocks of a block keeps what is kept by looking at one of them. -/
theorem ceaDataBlocks_reads {Inv : σ → Prop} {body : ℕ → σ → EdidRead (σ × Bool)}
    (hb : block ≤ edidMaxExtensionBlocks) (hend : dataBlocksEnd.toNat ≤ edidBlockSize - 1)
    (hbody : ∀ d header, DataBlockAt c block d header → ∀ s, Inv s →
      Reads (fun r => Inv r.1) (body d s)) (n : ℕ) :
    ∀ offset s, dataBlocksEnd.toNat - offset ≤ n → Inv s →
      Reads (fun r => Inv r.1) (ceaDataBlocks c block dataBlocksEnd body offset s) := by
  unfold edidBlockSize at hend
  induction n with
  | zero =>
    intro offset s hn hs
    rw [ceaDataBlocks, if_neg (by omega)]
    exact hs
  | succ n ih =>
    intro offset s hn hs
    rw [ceaDataBlocks]
    refine Yields.ite (fun hlt => ?_) fun _ => hs
    refine Yields.bind_ok (edidByte_ok hb (by unfold edidBlockSize; omega)) ?_
    by_cases hlen : offset + (1 + ceaDataBlockPayloadLength
        (c.edid (block * edidBlockSize + offset))) > dataBlocksEnd.toNat
    · rw [dif_pos hlen]
      exact hs
    · rw [dif_neg hlen]
      refine Yields.bind (hbody offset _ ⟨hb, rfl, by unfold edidBlockSize at hlen ⊢; omega⟩ s hs)
        fun r hr => ?_
      refine Yields.ite (fun _ => hr) fun _ => ?_
      rw [Nat.mod_eq_of_lt (by omega)]
      exact ih _ _ (by omega) hr

theorem ceaBlock_reads {Inv : σ → Prop} {body : ℕ → σ → EdidRead (σ × Bool)}
    (hb : block ≤ edidMaxExtensionBlocks)
    (hbody : ∀ d header, DataBlockAt c block d header → ∀ s, Inv s →
      Reads (fun r => Inv r.1) (body d s)) {s : σ} (hs : Inv s) :
    Reads (fun r => Inv r.1) (ceaBlock c block body s) := by
  unfold ceaBlock
  refine Yields.bind_ok (edidByte_ok hb (by decide)) ?_
  refine Yields.ite (fun _ => hs) fun _ => ?_
  refine Yields.bind_ok (edidByte_ok hb (by decide)) ?_
  refine Yields.ite (fun _ => hs) fun _ => ?_
  refine Yields.bind_ok (edidByte_ok hb (by decide)) ?_
  refine Yields.ite (fun _ => hs) fun hend => ?_
  exact ceaDataBlocks_reads hb (by omega) hbody _ _ _ le_rfl hs

theorem ceaBlocks_reads {Inv : σ → Prop} {body : ℕ → ℕ → σ → EdidRead (σ × Bool)}
    (hbody : ∀ block d header, DataBlockAt c block d header → ∀ s, Inv s →
      Reads (fun r => Inv r.1) (body block d s)) :
    ∀ (blocks : List ℕ) (s : σ), (∀ block ∈ blocks, block ≤ edidMaxExtensionBlocks) → Inv s →
      Reads Inv (ceaBlocks c body blocks s)
  | [], _, _, hs => hs
  | block :: blocks, s, hb, hs => by
    refine Yields.bind (ceaBlock_reads (hb block List.mem_cons_self) (hbody block) hs)
      fun r hr => ?_
    refine Yields.ite (fun _ => hr) fun _ => ?_
    exact ceaBlocks_reads hbody blocks r.1 (fun b hb' => hb b (List.mem_cons_of_mem block hb')) hr

theorem ceaExtensions_reads {Inv : σ → Prop} {body : ℕ → ℕ → σ → EdidRead (σ × Bool)}
    (hbody : ∀ block d header, DataBlockAt c block d header → ∀ s, Inv s →
      Reads (fun r => Inv r.1) (body block d s)) {s : σ} (hs : Inv s) :
    Reads Inv (ceaExtensions c body s) := by
  refine Yields.bind edidGetBlockCount_reads fun n hn => ?_
  refine ceaBlocks_reads hbody _ s (fun block hblock => ?_) hs
  rw [List.mem_range'_1] at hblock
  omega

end Walks

section Features

variable {c : ConnectorState} {block d : ℕ} {header : UInt8}

theorem y420SpeedLimited_reads (h : DataBlockAt c block d header) :
    ∀ (l : List ℕ) (limited : Bool), (∀ i ∈ l, 2 + i ≤ ceaDataBlockPayloadLength header) →
      Reads (fun _ => True) (y420SpeedLimited c block (d + 2) l limited)
  | [], _, _ => trivial
  | i :: l, limited, hl => by
    unfold y420SpeedLimited
    refine Yields.ite (fun _ => trivial) fun _ => ?_
    rw [Nat.add_assoc]
    refine Yields.bind_ok (h.byte_ok (hl i List.mem_cons_self)) ?_
    exact y420SpeedLimited_reads h l _ fun j hj => hl j (List.mem_cons_of_mem i hj)

/-- The features of a data block do not touch the preferred mode. -/
theorem edidGetFeaturesDataBlock_reads (h : DataBlockAt c block d header) (s : DisplaySinkInfo)
    {m : DisplayMode} (hs : s.preferredMode = m) :
    Reads (fun r => r.1.preferredMode = m) (edidGetFeaturesDataBlock c block d s) := by
  unfold edidGetFeaturesDataBlock
  refine Yields.bind (ceaIsOfLength_reads h (ceaIsExtendedDataBlock_reads h)) fun is hlen => ?_
  refine Yields.ite (fun his => ?_) fun _ => ?_
  · refine Yields.bind_ok (h.byte_ok (hlen his)) ?_
    show (if _ then _ else s).preferredMode = m
    split_ifs <;> exact hs
  refine Yields.bind (ceaIsOfLength_reads h (ceaIsVendorDataBlock_reads h)) fun is _ => ?_
  refine Yields.ite (fun _ => hs) fun _ => ?_
  refine Yields.bind (ceaIsHdmiForumScdsDataBlock_reads h) fun is hlen => ?_
  refine Yields.ite (fun his => ?_) fun _ => ?_
  · have hlen := hlen his
    refine Yields.bind_ok (h.byte_ok (by omega)) ?_
    exact Yields.bind_ok (h.byte_ok (by omega)) hs
  refine Yields.bind (ceaIsExtendedDataBlock_reads h) fun is hlen => ?_
  refine Yields.ite (fun his => ?_) fun _ => hs
  refine Yields.bind_ok h.header_ok ?_
  refine Yields.bind (y420SpeedLimited_reads h _ _ fun i hi => ?_) fun _ _ => hs
  have hlen := hlen his
  have hi := List.mem_range.1 hi
  omega

theorem edidGetFeatures_reads (c : ConnectorState) :
    Reads (fun c' : ConnectorState => c'.sinkInfo.preferredMode = c.sinkInfo.preferredMode)
      (edidGetFeatures c) :=
  Yields.bind (ceaExtensions_reads
    (fun _ _ _ h s hs => edidGetFeaturesDataBlock_reads h s hs) rfl) fun _ h => h

end Features

/-- A mode that has been found is supported. -/
def Supported (c : ConnectorState) (r : Option DisplayMode) : Prop :=
  ∀ m ∈ r, isDisplayModeSupported c m = true

section Modes

variable {c : ConnectorState} {block d : ℕ} {header : UInt8}

theorem supported_filter (r : Option DisplayMode) :
    Supported c (r.filter (isDisplayModeSupported c)) :=
  fun _ hm => (Option.mem_filter_iff.1 hm).2

theorem supportedModeByVic_supported (vic : UInt8) : Supported c (supportedModeByVic c vic) := by
  unfold supportedModeByVic
  split_ifs
  · exact nofun
  · exact supported_filter _

theorem edidSum_reads (hb : block ≤ edidMaxExtensionBlocks) :
    ∀ (l : List ℕ) (sum : UInt8), (∀ i ∈ l, i < edidBlockSize) →
      Reads (fun _ => True) (edidSum c block l sum)
  | [], _, _ => trivial
  | i :: l, sum, hl => by
    refine Yields.bind_ok (edidByte_ok hb (hl i List.mem_cons_self)) ?_
    exact edidSum_reads hb l _ fun j hj => hl j (List.mem_cons_of_mem i hj)

/-- The detailed timings of a block are in the block. -/
theorem edidDetailedTimings_reads (hb : block ≤ edidMaxExtensionBlocks) :
    Reads (fun r => ∀ t ∈ r, t.1 + t.2 * sizeOfDetailedTiming ≤ edidBlockSize)
      (edidDetailedTimings c block) := by
  unfold edidDetailedTimings
  refine Yields.ite (fun _ => ?_) fun _ => ?_
  · refine Yields.bind (edidSum_reads hb _ _ fun i hi => List.mem_range.1 hi) fun sum _ => ?_
    exact reads_none_or fun _ => by decide
  refine Yields.bind_ok (edidByte_ok hb (by decide)) ?_
  refine Yields.ite (fun _ => ?_) fun _ => ?_
  · refine Yields.bind_ok (edidByte_ok hb (by decide)) ?_
    refine reads_none_or fun hoffset => ?_
    unfold edidBlockSize at hoffset ⊢
    unfold sizeOfDetailedTiming
    simp only []
    omega
  refine Yields.ite (fun _ => ?_) fun _ => nofun
  refine Yields.bind_ok (edidByte_ok hb (by decide)) ?_
  refine Yields.ite (fun _ => nofun) fun _ => ?_
  refine Yields.bind_ok (edidByte_ok hb (by decide)) ?_
  rintro _ ⟨⟩
  unfold edidBlockSize sizeOfDetailedTiming
  simp only []
  omega

theorem edidDetailedTiming_reads (hb : block ≤ edidMaxExtensionBlocks)
    (hd : d + sizeOfDetailedTiming ≤ edidBlockSize) :
    Reads (fun _ => True) (edidDetailedTiming c block d) := by
  have hbyte : ∀ k < sizeOfDetailedTiming, edidByte c block (d + k) = .ok _ :=
    fun k hk => edidByte_ok hb (by omega)
  unfold edidDetailedTiming
  refine Yields.bind_ok (hbyte 0 (by decide)) ?_
  refine Yields.bind_ok (hbyte 1 (by decide)) ?_
  refine Yields.bind_ok (hbyte 2 (by decide)) ?_
  refine Yields.bind_ok (hbyte 3 (by decide)) ?_
  refine Yields.bind_ok (hbyte 4 (by decide)) ?_
  refine Yields.bind_ok (hbyte 5 (by decide)) ?_
  refine Yields.bind_ok (hbyte 6 (by decide)) ?_
  refine Yields.bind_ok (hbyte 7 (by decide)) ?_
  refine Yields.bind_ok (hbyte 8 (by decide)) ?_
  refine Yields.bind_ok (hbyte 9 (by decide)) ?_
  refine Yields.bind_ok (hbyte 10 (by decide)) ?_
  refine Yields.bind_ok (hbyte 11 (by decide)) ?_
  exact Yields.bind_ok (hbyte 17 (by decide)) trivial

theorem edidDetailedMode_reads (hb : block ≤ edidMaxExtensionBlocks) :
    Reads (Supported c) (edidDetailedMode c block) := by
  refine Yields.bind (edidDetailedTimings_reads hb) fun r hr => ?_
  cases r with
  | none => exact nofun
  | some t =>
    have hfits := hr t rfl
    refine firstFound_reads _ fun i hi => ?_
    have hi := Nat.mul_le_mul_right sizeOfDetailedTiming (Nat.succ_le_of_lt (List.mem_range.1 hi))
    rw [Nat.succ_mul] at hi
    refine Yields.bind (edidDetailedTiming_reads hb (by omega)) fun timing _ => ?_
    cases edidDetailedTimingToDisplayModeMatch timing with
    | error => exact nofun
    | ok m => exact reads_some_or id

theorem ceaVideoDataBlockGetFirstSupportedMode_reads (h : DataBlockAt c block d header) :
    Reads (fun r => Supported c (r.map Prod.fst)) (ceaVideoDataBlockGetFirstSupportedMode c block d) := by
  refine Yields.bind_ok h.header_ok ?_
  refine Yields.mono (firstFound_reads (P := fun a => isDisplayModeSupported c a.1 = true) _
    fun i hi => ?_) fun r hr m hm => ?_
  · have hi := List.mem_range.1 hi
    rw [Nat.add_assoc]
    refine Yields.bind_ok (h.byte_ok (by omega)) ?_
    rintro _ ha
    obtain ⟨m, hm, rfl⟩ := Option.map_eq_some_iff.1 ha
    exact supportedModeByVic_supported _ m hm
  · obtain ⟨a, ha, rfl⟩ := Option.map_eq_some_iff.1 hm
    exact hr a ha

theorem ceaHdmiVsdbDataBlockGetFirstSupportedMode_reads (h : DataBlockAt c block d header) :
    Reads (Supported c) (ceaHdmiVsdbDataBlockGetFirstSupportedMode c block d) := by
  refine Yields.bind_ok h.header_ok ?_
  refine Yields.ite (fun _ => nofun) fun hlen => ?_
  refine Yields.bind_ok (h.byte_ok (by omega)) ?_
  refine Yields.ite (fun _ => nofun) fun _ => ?_
  refine Yields.ite (fun _ => nofun) fun hoffset => ?_
  refine Yields.bind_ok (h.byte_ok (by omega)) ?_
  refine Yields.ite (fun _ => nofun) fun hcount => ?_
  refine firstFound_reads _ fun i hi => ?_
  have hi := List.mem_range.1 hi
  exact Yields.bind_ok (h.byte_ok (by omega)) (supportedModeByVic_supported _)

/-- The modes found so far are supported. -/
structure CeaModes.Good (c : ConnectorState) (s : CeaModes) : Prop where
  cea : Supported c (s.ceaMode.map Prod.fst)
  hdmi : Supported c s.hdmiMode

theorem edidGetPreferredModeDataBlock_reads (h : DataBlockAt c block d header) (s : CeaModes)
    (hs : s.Good c) : Reads (fun r => r.1.Good c) (edidGetPreferredModeDataBlock c block d s) := by
  unfold edidGetPreferredModeDataBlock
  refine Yields.bind (ceaIsVideoDataBlock_reads h) fun is _ => ?_
  refine Yields.ite (fun _ => ?_) fun _ => ?_
  · refine Yields.ite (fun _ => hs) fun _ => ?_
    exact Yields.bind (ceaVideoDataBlockGetFirstSupportedMode_reads h) fun mode hm => ⟨hm, hs.hdmi⟩
  refine Yields.bind (ceaIsOfLength_reads h (ceaIsVendorDataBlock_reads h)) fun is _ => ?_
  refine Yields.ite (fun _ => ?_) fun _ => hs
  refine Yields.ite (fun _ => hs) fun _ => ?_
  exact Yields.bind (ceaHdmiVsdbDataBlockGetFirstSupportedMode_reads h) fun mode hm => ⟨hs.cea, hm⟩

theorem CeaModes.Good.preferred {s : CeaModes} (h : s.Good c) : Supported c s.preferred := by
  obtain ⟨hcea, hhdmi⟩ := h
  unfold CeaModes.preferred
  split
  · exact hcea
  · exact fun m hm => hhdmi m (by simp_all)
  · split_ifs
    · exact fun m hm => hhdmi m (by simp_all)
    · exact fun m hm => hcea m (by simp_all)

theorem edidStandardMode_reads {i : ℕ} (hi : i < edidNumberOfStandardTimings) :
    Reads (Supported c) (edidStandardMode c i) := by
  unfold edidNumberOfStandardTimings at hi
  have hbyte : ∀ k < 2, edidByte c 0 (standardTimingsOffset + 2 * i + k) = .ok _ := fun k hk =>
    edidByte_ok (Nat.zero_le _) (by unfold standardTimingsOffset edidBlockSize; omega)
  unfold edidStandardMode
  refine Yields.bind_ok (hbyte 0 (by decide)) (Yields.bind_ok (hbyte 1 (by decide)) ?_)
  split
  · exact nofun
  · exact supported_filter _

theorem edidIsEstablishedModeSupported_reads {h v : UInt16} {refreshRate : UInt8} :
    Reads (fun _ => True) (edidIsEstablishedModeSupported c h v refreshRate) := by
  refine Yields.mono (firstFound_reads (P := fun _ => True) _ fun i hi => ?_) fun _ _ => trivial
  have hi : i < 3 := List.mem_range.1 hi
  refine Yields.bind_ok (edidByte_ok (Nat.zero_le _) ?_) fun _ _ => trivial
  unfold establishedTimingsOffset edidBlockSize
  omega

theorem edidEstablishedMode_reads (i : ℕ) : Reads (Supported c) (edidEstablishedMode c i) := by
  unfold edidEstablishedMode
  split
  · exact nofun
  · refine Yields.bind edidIsEstablishedModeSupported_reads fun r _ => ?_
    cases r with
    | none => exact nofun
    | some => exact reads_some_or id

end Modes

/-- What parsing owes: a success leaves a preferred mode that is supported, and where nothing is
found the preferred mode is the one there was. -/
def SinkInfoLaw (c : ConnectorState) (r : EfiStatus × ConnectorState) : Prop :=
  r.1 = efiSuccess ∧ isDisplayModeSupported r.2 r.2.sinkInfo.preferredMode = true
    ∨ r.1 = efiNotFound ∧ r.2.sinkInfo.preferredMode = c.sinkInfo.preferredMode

section Preferred

variable {c : ConnectorState}

/-- A mode that is supported, or the state as it was. -/
def FoundOr (c : ConnectorState) (r : EfiStatus × ConnectorState) : Prop :=
  r.1 = efiSuccess ∧ isDisplayModeSupported r.2 r.2.sinkInfo.preferredMode = true
    ∨ r = (efiNotFound, c)

/-- A way to a preferred mode. -/
def FindsMode (op : ConnectorState → EdidRead (EfiStatus × ConnectorState)) : Prop :=
  ∀ c, Reads (FoundOr c) (op c)

theorem edidPreferredModeFound_reads {find : EdidRead (Option DisplayMode)}
    (h : Reads (Supported c) find) :
    Reads (FoundOr c) (find >>= fun r => pure (edidPreferredModeFound c r)) := by
  refine Yields.bind h fun r hr => ?_
  cases r with
  | none => exact Or.inr rfl
  | some m => exact Or.inl ⟨rfl, hr m rfl⟩

theorem edidGetPreferredModeBy_reads :
    ∀ (ops : List (ConnectorState → EdidRead (EfiStatus × ConnectorState))) (c : ConnectorState),
      (∀ op ∈ ops, FindsMode op) → Reads (SinkInfoLaw c) (edidGetPreferredModeBy ops c)
  | [], c, _ => Or.inr ⟨rfl, rfl⟩
  | op :: ops, c, hops => by
    refine Yields.bind (hops op List.mem_cons_self c) fun r hr => ?_
    rcases hr with ⟨hstatus, hsupported⟩ | rfl
    · refine Yields.ite (fun herr => ?_) fun _ => Or.inl ⟨rfl, hsupported⟩
      rw [hstatus] at herr
      exact absurd herr (by decide)
    · refine Yields.ite (fun _ => ?_) fun hno => absurd (efiError_encodeError 14) hno
      exact edidGetPreferredModeBy_reads ops c fun o ho => hops o (List.mem_cons_of_mem op ho)

theorem edidGetPreferredModeDetailed_finds : FindsMode edidGetPreferredModeDetailed := by
  refine fun c => Yields.bind edidGetBlockCount_reads fun n hn => ?_
  refine edidPreferredModeFound_reads (firstFound_reads _ fun block hblock => ?_)
  have := List.mem_range.1 hblock
  exact edidDetailedMode_reads (by omega)

theorem edidGetPreferredModeCea_finds : FindsMode edidGetPreferredModeCea := by
  refine fun c => Yields.bind (ceaExtensions_reads
    (fun _ _ _ h s hs => edidGetPreferredModeDataBlock_reads h s hs)
    (⟨nofun, nofun⟩ : CeaModes.Good c ⟨none, none⟩)) fun modes hmodes => ?_
  exact @edidPreferredModeFound_reads c (pure modes.preferred) hmodes.preferred

theorem edidGetPreferredModeStandard_finds : FindsMode edidGetPreferredModeStandard :=
  fun _ => edidPreferredModeFound_reads
    (firstFound_reads _ fun _ hi => edidStandardMode_reads (List.mem_range.1 hi))

theorem edidGetPreferredModeEstablished_finds : FindsMode edidGetPreferredModeEstablished :=
  fun _ => edidPreferredModeFound_reads (firstFound_reads _ fun i _ => edidEstablishedMode_reads i)

theorem edidGetPreferredModeOps_find : ∀ op ∈ edidGetPreferredModeOps, FindsMode op := by
  intro op hop
  simp only [edidGetPreferredModeOps, List.mem_cons, List.not_mem_nil, or_false] at hop
  rcases hop with rfl | rfl | rfl | rfl
  · exact edidGetPreferredModeDetailed_finds
  · exact edidGetPreferredModeCea_finds
  · exact edidGetPreferredModeStandard_finds
  · exact edidGetPreferredModeEstablished_finds

end Preferred

/-- For every content of the EDID buffer, parsing ends, reads no byte beyond the block it is in, and
leaves a preferred mode that is supported or the one there was. -/
theorem edidGetDisplaySinkInfo_confined (c : ConnectorState) :
    ∃ r, edidGetDisplaySinkInfo c = .ok r ∧ SinkInfoLaw c r := by
  refine Reads.exists_ok (Yields.bind (edidGetFeatures_reads c) fun c' hc' => ?_)
  refine Yields.mono (edidGetPreferredModeBy_reads _ c' edidGetPreferredModeOps_find) fun r hr => ?_
  exact hr.imp_right fun ⟨hstatus, hmode⟩ => ⟨hstatus, hmode.trans hc'⟩

end Edk2Rk3576
