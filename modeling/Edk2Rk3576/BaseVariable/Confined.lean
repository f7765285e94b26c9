import Edk2Rk3576.BaseVariable.Lookup

/-!
# Which bytes are read

Record sizes come from the flash and are not checked: a walk compares where a header starts with
the end of the store, and nothing else. So a walk ends, and looks at headers that start in the
store, whatever the flash holds; names and data are in the store when the records fit in it.

`storePosition` is where a pointer would be if no write had been interrupted.
-/

namespace Edk2Rk3576

open Cells Walk ScanEnd

/-- The bytes of the store: the part that is in place, and the part in the spare area. -/
def Inside (E : BaseVariableEnv) (si : VariableStoreInfo) (x : ℕ × ℕ) : Prop :=
  x.2 = 0
    ∨ (si.variableStoreHeader ≤ x.1 ∧ x.1 + x.2 ≤ getEndPointer E.mem si.variableStoreHeader)
    ∨ ∃ ftw ∈ si.ftwLastWriteData, ftw.spareAddress ≤ x.1
      ∧ x.1 + x.2
        ≤ ftw.spareAddress + (getEndPointer E.mem si.variableStoreHeader - ftw.targetAddress)

def storePosition (si : VariableStoreInfo) (v : ℕ) : ℕ :=
  match si.ftwLastWriteData with
  | some ftw => if v < ftw.targetAddress then v else v - ftw.spareAddress + ftw.targetAddress
  | none => v

/-- An interrupted write splits the store between two records or in one, and the spare area holds
whole blocks, above the store. -/
structure SplitInside (E : BaseVariableEnv) (si : VariableStoreInfo) : Prop where
  start_lt : ∀ ftw ∈ si.ftwLastWriteData,
    getStartPointer si.variableStoreHeader < ftw.targetAddress
  lt_end : ∀ ftw ∈ si.ftwLastWriteData,
    ftw.targetAddress < getEndPointer E.mem si.variableStoreHeader
  le_spare : ∀ ftw ∈ si.ftwLastWriteData, ftw.targetAddress ≤ ftw.spareAddress
  aligned : ∀ ftw ∈ si.ftwLastWriteData, ftw.spareAddress % 4 = ftw.targetAddress % 4

section Position

variable {E : BaseVariableEnv} {si : VariableStoreInfo} {v : ℕ} {h : Cells UInt8}

/-- Pointers that a walk can reach. -/
structure InStore (si : VariableStoreInfo) (v : ℕ) : Prop where
  le : si.variableStoreHeader ≤ v
  part : ∀ ftw ∈ si.ftwLastWriteData, v < ftw.targetAddress ∨ ftw.spareAddress ≤ v
  aligned : storePosition si v % 4 = 0

theorem getEndPointer_mod (m : Cells UInt8) (store : ℕ) : getEndPointer m store % 4 = 0 :=
  headerAlign_mod _

theorem storePosition_of_none (hf : si.ftwLastWriteData = none) : storePosition si v = v := by
  rw [storePosition, hf]

theorem storePosition_of_some {ftw : FtwLastWriteData} (hf : si.ftwLastWriteData = some ftw) :
    storePosition si v
      = if v < ftw.targetAddress then v else v - ftw.spareAddress + ftw.targetAddress := by
  rw [storePosition, hf]

theorem inStore_start (L : StoreLayout si) (S : SplitInside E si) :
    InStore si (getStartPointer si.variableStoreHeader) := by
  have hb := L.getStartPointer_eq
  have hm : getStartPointer si.variableStoreHeader % 4 = 0 := headerAlign_mod _
  refine ⟨by omega, fun ftw hf => .inl (S.start_lt ftw hf), ?_⟩
  rcases hf : si.ftwLastWriteData with _ | ftw
  · rw [storePosition_of_none hf]
    exact hm
  · rw [storePosition_of_some hf, if_pos (S.start_lt ftw hf)]
    exact hm

theorem InStore.next (L : StoreLayout si) (S : SplitInside E si) (hv : v < 2 ^ 55)
    (hin : InStore si v) : InStore si (getNextVariablePtr si v h) := by
  have hb := L.next_bounds hv h
  have hle := hin.le
  have ha := headerAlign_mod (recordEnd si v h)
  have hr := recordEnd_bounds si v h
  have hal := headerAlign_bounds (x := recordEnd si v h) (by omega)
  rcases hf : si.ftwLastWriteData with _ | ftw
  · refine ⟨by omega, fun ftw h => by simp [hf] at h, ?_⟩
    rw [storePosition_of_none hf, getNextVariablePtr_of_none (by omega) h hf]
    exact ha
  · have hpart := hin.part ftw hf
    have hspare := S.le_spare ftw hf
    have hmod := S.aligned ftw hf
    have hnext := getNextVariablePtr_of_some (show v < 2 ^ 56 by omega) h hf (L.spare ftw hf)
    have hcase : getNextVariablePtr si v h < ftw.targetAddress
        ∨ ftw.spareAddress ≤ getNextVariablePtr si v h := by
      rw [hnext]
      split_ifs <;> omega
    refine ⟨by omega, fun ftw' h' => ?_, ?_⟩
    · obtain rfl : ftw = ftw' := Option.some.inj (hf.symm.trans h')
      exact hcase
    · rw [storePosition_of_some hf]
      rw [hnext] at hcase ⊢
      split_ifs at hcase ⊢ <;> omega

theorem Walk.inStore (L : StoreLayout si) (S : SplitInside E si) {rs : List VariableRecord} {e : ℕ}
    (hw : Walk E si v rs e) (hv : v < 2 ^ 56) (hin : InStore si v) :
    ∀ x ∈ stops rs e, InStore si x := by
  induction hw with
  | stop _ => simpa [stops] using hin
  | next h _ ih =>
    have hlt := L.headerAt_lt (E := E) hv (by simp [h])
    intro x hx
    rcases List.mem_cons.1 hx with rfl | hx
    · exact hin
    · exact ih (L.next_bounds hlt.2 _).2 (hin.next L S hlt.2) x hx

/-- A header is looked for in the store only. -/
theorem InStore.position_lt (L : StoreLayout si) (S : SplitInside E si) (hin : InStore si v)
    (hv : v < 2 ^ 56) (h : headerAt E si v ≠ none) :
    storePosition si v < getEndPointer E.mem si.variableStoreHeader := by
  by_contra hc
  refine h (headerAt_eq_none.2 ?_)
  unfold getVariableHeader
  by_cases h0 : v = 0
  · simp [h0]
  rw [if_neg h0]
  rcases hf : si.ftwLastWriteData with _ | ftw
  · rw [storePosition_of_none hf] at hc
    simp only []
    rw [if_pos (by omega)]
  · have hpart := hin.part ftw hf
    have hspare := S.le_spare ftw hf
    have hend := S.lt_end ftw hf
    have hs := L.spare ftw hf
    have he := L.getEndPointer_lt E.mem
    rw [storePosition_of_some hf] at hc
    simp only []
    rw [if_pos ?_]
    split_ifs at hc with ht
    · omega
    · exact ⟨by omega, by rw [toUintn_of_lt (by omega)]; omega⟩

/-- A range that starts at a pointer of the walk and fits in the store. -/
theorem InStore.inside (hin : InStore si v) (off len : ℕ)
    (h : storePosition si v + off + len ≤ getEndPointer E.mem si.variableStoreHeader) :
    Inside E si (v + off, len) := by
  have hle := hin.le
  rcases hf : si.ftwLastWriteData with _ | ftw
  · rw [storePosition_of_none hf] at h
    exact .inr (.inl ⟨by omega, h⟩)
  · rw [storePosition_of_some hf] at h
    split_ifs at h with ht
    · exact .inr (.inl ⟨by omega, h⟩)
    · rcases hin.part ftw hf with hlt | hspare
      · omega
      · exact .inr (.inr ⟨ftw, hf, by omega, by simp only []; omega⟩)

/-- The two parts of a range that the split cuts. -/
theorem InStore.inside_cut (S : SplitInside E si) (hin : InStore si v) {ftw : FtwLastWriteData}
    (hf : si.ftwLastWriteData = some ftw) (off len : ℕ)
    (h : storePosition si v + off + len ≤ getEndPointer E.mem si.variableStoreHeader)
    (h1 : v + off < ftw.targetAddress) (h2 : ftw.targetAddress < v + off + len) :
    Inside E si (v + off, ftw.targetAddress - (v + off))
      ∧ Inside E si (ftw.spareAddress, len - (ftw.targetAddress - (v + off))) := by
  have hle := hin.le
  have hend := S.lt_end ftw hf
  rw [storePosition_of_some hf, if_pos (by omega)] at h
  exact ⟨.inr (.inl ⟨by omega, by simp only []; omega⟩),
    .inr (.inr ⟨ftw, hf, le_rfl, by simp only []; omega⟩)⟩

/-- What is read to look for a header, when a header that is there fits, and so does one that the
split cuts. -/
theorem getVariableHeader_reads (L : StoreLayout si) (S : SplitInside E si) (hin : InStore si v)
    (hv : v < 2 ^ 56)
    (hfit : headerAt E si v ≠ none → storePosition si v + getVariableHeaderSize si.authFlag
      ≤ getEndPointer E.mem si.variableStoreHeader)
    (hcut : ∀ ftw ∈ si.ftwLastWriteData, headerCut si ftw v →
      v + getVariableHeaderSize si.authFlag ≤ getEndPointer E.mem si.variableStoreHeader) :
    ∀ x ∈ (getVariableHeader E si v .boot).2.2.reads, Inside E si x := by
  have hsize := getVariableHeaderSize_bounds si.authFlag
  have halign := hin.aligned
  have hend := getEndPointer_mod E.mem si.variableStoreHeader
  have hvalid : (getVariableHeader E si v .boot).1 = true → storePosition si v
      + getVariableHeaderSize si.authFlag ≤ getEndPointer E.mem si.variableStoreHeader :=
    fun h => hfit fun hn => by simp [headerAt_eq_none.1 hn] at h
  have hread (hb : storePosition si v < getEndPointer E.mem si.variableStoreHeader)
      (hvalid : (readHeader E si v .boot).1 = true → storePosition si v
        + getVariableHeaderSize si.authFlag ≤ getEndPointer E.mem si.variableStoreHeader) :
      ∀ x ∈ (readHeader E si v .boot).2.2.reads, Inside E si x := by
    unfold readHeader at hvalid ⊢
    simp only [] at hvalid ⊢
    split_ifs at hvalid ⊢ with hc
    · intro x hx
      obtain rfl : x = (v, getVariableHeaderSize si.authFlag) := by
        simpa [BaseVariableState.read, BaseVariableState.boot] using hx
      exact hin.inside 0 _ (hvalid rfl)
    · intro x hx
      obtain rfl : x = (v, 2) := by
        simpa [BaseVariableState.read, BaseVariableState.boot] using hx
      exact hin.inside 0 2 (by omega)
  unfold getVariableHeader at hvalid ⊢
  by_cases h0 : v = 0
  · simp [h0, BaseVariableState.boot]
  simp only [if_neg h0] at hvalid ⊢
  rcases hf : si.ftwLastWriteData with _ | ftw
  · simp only [hf] at hvalid ⊢
    split_ifs at hvalid ⊢ with hb
    · simp [BaseVariableState.boot]
    · exact hread (by rw [storePosition_of_none hf]; omega) hvalid
  · have hspare := S.le_spare ftw hf
    have htarget := S.lt_end ftw hf
    have hs := L.spare ftw hf
    simp only [hf] at hvalid ⊢
    split_ifs at hvalid ⊢ with hb hc
    · simp [BaseVariableState.boot]
    · have hfit := hcut ftw hf hc
      rw [toUintn_of_lt (by omega)] at hc
      have hpos : storePosition si v = v := by rw [storePosition_of_some hf, if_pos hc.1]
      obtain ⟨h1, h2⟩ := hin.inside_cut S hf 0 _ (by rw [hpos]; exact hfit) hc.1 hc.2
      intro x hx
      simp only [mergeHeader, BaseVariableState.read, BaseVariableState.boot, Bool.false_eq_true,
        if_false, List.mem_cons, List.not_mem_nil, or_false] at hx
      rcases hx with rfl | rfl
      · exact h2
      · exact h1
    · refine hread ?_ hvalid
      rw [storePosition_of_some hf]
      split_ifs with ht
      · omega
      · by_contra hge
        have hp := (hin.part ftw hf).resolve_left ht
        exact hb ⟨by omega, by rw [toUintn_of_lt (by omega)]; omega⟩

/-- What is read of a name or of data that fits in the store. -/
theorem getVariableNameOrData_reads (S : SplitInside E si) (hin : InStore si v)
    (hv : v < 2 ^ 56) {off len : ℕ} (hlen : off + len < 2 ^ 56)
    (h : storePosition si v + off + len ≤ getEndPointer E.mem si.variableStoreHeader) :
    ∀ x ∈ (getVariableNameOrData E si (v + off) len .boot).2.reads, Inside E si x := by
  have hplain : ∀ x ∈ (BaseVariableState.boot.read (v + off) len).reads, Inside E si x := by
    simpa [BaseVariableState.read, BaseVariableState.boot] using hin.inside off len h
  unfold getVariableNameOrData
  rcases hf : si.ftwLastWriteData with _ | ftw
  · exact hplain
  · simp only []
    split_ifs with hc
    · rw [toUintn_of_lt (by omega)] at hc
      obtain ⟨h1, h2⟩ := hin.inside_cut S hf off len h hc.1 hc.2
      simpa [BaseVariableState.read, BaseVariableState.boot] using ⟨h2, h1⟩
    · exact hplain

end Position

section Reads

variable {E : BaseVariableEnv} {si : VariableStoreInfo} {P : ℕ × ℕ → Prop}

/-- A comparison reads ranges of the two names, and of the spare area behind one that the split
cuts. -/
theorem compareVariableName_reads {name1 name2 : Pointer} {n : ℕ}
    (h1 : ∀ k m, k + m ≤ n → P (name1.address + k, m))
    (h2 : ∀ k m, k + m ≤ n → P (name2.address + k, m))
    (hcut : ∀ ftw ∈ si.ftwLastWriteData, ∀ name ∈ [name1, name2],
      name.address < ftw.targetAddress → ftw.targetAddress < toUintn (name.address + n) →
      P (ftw.spareAddress, n - (ftw.targetAddress - name.address))) :
    ∀ x ∈ (compareVariableName E si name1 name2 n .boot).2.reads, P x := by
  have hall {cut other : Pointer} {ftw : FtwLastWriteData}
      (hf : si.ftwLastWriteData = some ftw) (hm : cut ∈ [name1, name2])
      (hc : ∀ k m, k + m ≤ n → P (cut.address + k, m))
      (ho : ∀ k m, k + m ≤ n → P (other.address + k, m))
      (h : cut.address < ftw.targetAddress ∧ ftw.targetAddress < toUintn (cut.address + n)) :
      ∀ x ∈ (comparePartial E ftw cut other n .boot).2.reads, P x := by
    have hle : toUintn (cut.address + n) ≤ cut.address + n := Nat.mod_le _ _
    have hs := hcut ftw hf cut hm h.1 h.2
    have hc0 := hc 0 (ftw.targetAddress - cut.address) (by omega)
    have ho0 := ho 0 (ftw.targetAddress - cut.address) (by omega)
    have ho1 := ho (ftw.targetAddress - cut.address) (n - (ftw.targetAddress - cut.address))
      (by omega)
    intro x hx
    unfold comparePartial compareMem at hx
    rcases hd : decide (∀ k < ftw.targetAddress - cut.address, cut.byte k = other.byte k)
      with _ | _ <;>
      simp only [hd, BaseVariableState.read, BaseVariableState.boot, Pointer.advance, pointer,
        List.mem_cons, List.not_mem_nil, or_false] at hx
    · rcases hx with rfl | rfl
      · exact ho0
      · exact hc0
    · rcases hx with rfl | rfl | rfl | rfl
      · exact ho1
      · exact hs
      · exact ho0
      · exact hc0
  have hmem : ∀ x ∈ (compareMem name1 name2 n .boot).2.reads, P x := by
    have h10 := h1 0 n (by omega)
    have h20 := h2 0 n (by omega)
    simpa [compareMem, BaseVariableState.read, BaseVariableState.boot] using ⟨h20, h10⟩
  unfold compareVariableName
  rcases hf : si.ftwLastWriteData with _ | ftw
  · exact hmem
  · simp only []
    split_ifs with hc1 hc2
    · exact hall hf (by simp) h1 h2 hc1
    · exact hall hf (by simp) h2 h1 hc2
    · exact hmem

theorem compareWithValidVariable_reads {v : ℕ} {h : Cells UInt8} {name : Pointer} {guid : EfiGuid}
    (h0 : P (name.address, 2))
    (hn : guid = getVendorGuid h si.authFlag →
      ∀ x ∈ (compareVariableName E si name (pointer E.mem (getVariableNamePtr v si.authFlag))
        (nameSizeOfVariable h si.authFlag) .boot).2.reads, P x) :
    ∀ x ∈ (compareWithValidVariable E si v h name guid .boot).2.reads, P x := by
  unfold compareWithValidVariable
  simp only []
  have hread : ∀ x ∈ (BaseVariableState.boot.read name.address 2).reads, P x := by
    simpa [BaseVariableState.read, BaseVariableState.boot] using h0
  split_ifs with he hg hz
  · exact hread
  · exact hread
  · rw [(compareVariableName_logs E si name _ _).eq]
    intro x hx
    rcases List.mem_append.1 hx with hx | hx
    · exact hn hg x hx
    · exact hread x hx
  · exact hread

/-- Every walked record fits in the store: its header, and if it is live its name, of a character
at least, and its data. So does each name size counted from the name of an in-transition record
of the same GUID, with which it is compared. -/
structure RecordsFit (E : BaseVariableEnv) (si : VariableStoreInfo) (all : List VariableRecord)
    (e : ℕ) : Prop where
  header : ∀ r ∈ all, storePosition si r.ptr + getVariableHeaderSize si.authFlag
    ≤ getEndPointer E.mem si.variableStoreHeader
  cutEnd : ∀ ftw ∈ si.ftwLastWriteData, headerCut si ftw e →
    e + getVariableHeaderSize si.authFlag ≤ getEndPointer E.mem si.variableStoreHeader
  named : ∀ r ∈ liveRecords all, 2 ≤ nameSizeOfVariable r.header si.authFlag
  live : ∀ r ∈ liveRecords all, recordEnd si (storePosition si r.ptr) r.header
    ≤ getEndPointer E.mem si.variableStoreHeader
  key : ∀ a ∈ liveRecords all, isOld a = true → ∀ r ∈ liveRecords all,
    recordGuid si r = recordGuid si a →
    storePosition si a.ptr + getVariableHeaderSize si.authFlag
      + nameSizeOfVariable r.header si.authFlag ≤ getEndPointer E.mem si.variableStoreHeader

/-- The size of the store, as far as names can be compared. -/
def storeSpan (E : BaseVariableEnv) (si : VariableStoreInfo) : ℕ :=
  getEndPointer E.mem si.variableStoreHeader - si.variableStoreHeader

/-- A range of a name of the caller. -/
def InBuffer (E : BaseVariableEnv) (si : VariableStoreInfo) (a : ℕ) (x : ℕ × ℕ) : Prop :=
  a ≤ x.1 ∧ x.1 + x.2 ≤ a + storeSpan E si

/-- The buffer does not lie across the split. -/
def BufferApart (E : BaseVariableEnv) (si : VariableStoreInfo) (a : ℕ) : Prop :=
  ∀ ftw ∈ si.ftwLastWriteData, a + storeSpan E si ≤ ftw.targetAddress ∨ ftw.targetAddress ≤ a

variable {all : List VariableRecord} {e : ℕ}

theorem StoreWalk.inStore (W : StoreWalk E si all e) (S : SplitInside E si) {v : ℕ}
    (hv : v ∈ stops all e) : InStore si v :=
  Walk.inStore W.layout S W.walk W.start_lt (inStore_start W.layout S) v hv

theorem headerReads_inside (W : StoreWalk E si all e) (S : SplitInside E si)
    (F : RecordsFit E si all e) : HeaderReads E si all e (Inside E si) := fun v hv => by
  refine getVariableHeader_reads W.layout S (W.inStore S hv) (W.stop_lt hv) (fun hh => ?_)
    fun ftw hf hc => ?_
  · rcases List.mem_append.1 hv with hr | he
    · obtain ⟨r, hmem, rfl⟩ := List.mem_map.1 hr
      exact F.header r hmem
    · obtain rfl : v = e := by simpa using he
      exact absurd W.walk.headerAt_end hh
  · rcases List.mem_append.1 hv with hr | he
    · obtain ⟨r, hmem, rfl⟩ := List.mem_map.1 hr
      have h := F.header r hmem
      rwa [storePosition_of_some hf, if_pos hc.1] at h
    · obtain rfl : v = e := by simpa using he
      exact F.cutEnd ftw hf hc

/-- The name of a record, from any place in it. -/
theorem recordName_inside (W : StoreWalk E si all e) (S : SplitInside E si) {r : VariableRecord}
    (hr : r ∈ all) {n : ℕ} (h : storePosition si r.ptr + getVariableHeaderSize si.authFlag + n
      ≤ getEndPointer E.mem si.variableStoreHeader) {k m : ℕ} (hkm : k + m ≤ n) :
    Inside E si ((recordName E si r).address + k, m) := by
  have hlt := W.ptr_lt hr
  have hin := W.inStore S (StoreWalk.ptr_mem_stops hr)
  have := hin.inside (E := E) (getVariableHeaderSize si.authFlag + k) m (by omega)
  rwa [← Nat.add_assoc, ← getVariableNamePtr_eq (by omega)] at this

theorem recordName_cut (W : StoreWalk E si all e) (S : SplitInside E si) {r : VariableRecord}
    (hr : r ∈ all) {n : ℕ} (h : storePosition si r.ptr + getVariableHeaderSize si.authFlag + n
      ≤ getEndPointer E.mem si.variableStoreHeader) {ftw : FtwLastWriteData}
    (hf : si.ftwLastWriteData = some ftw)
    (h1 : (recordName E si r).address < ftw.targetAddress)
    (h2 : ftw.targetAddress < toUintn ((recordName E si r).address + n)) :
    Inside E si (ftw.spareAddress, n - (ftw.targetAddress - (recordName E si r).address)) := by
  have hlt := W.ptr_lt hr
  have hin := W.inStore S (StoreWalk.ptr_mem_stops hr)
  have haddr : (recordName E si r).address = r.ptr + getVariableHeaderSize si.authFlag :=
    getVariableNamePtr_eq (by omega) _
  have hle : toUintn ((recordName E si r).address + n) ≤ (recordName E si r).address + n :=
    Nat.mod_le _ _
  rw [haddr] at h1 h2 hle ⊢
  exact (hin.inside_cut S hf _ n h h1 (by omega)).2

theorem storeReads_inside (W : StoreWalk E si all e) (S : SplitInside E si)
    (F : RecordsFit E si all e) : StoreReads E si all e (Inside E si) where
  header := headerReads_inside W S F
  name r hr := by
    have hmem := (liveRecords_mem hr).1
    have hlt := W.ptr_lt hmem
    have hsize := getVariableHeaderSize_bounds si.authFlag
    have hn := nameSizeOfVariable_lt r.header si.authFlag
    have hfit := F.live r hr
    unfold recordEnd at hfit
    rw [recordNameBytes, getVariableNamePtr_eq (by omega)]
    exact getVariableNameOrData_reads S (W.inStore S (StoreWalk.ptr_mem_stops hmem)) (by omega)
      (by omega) (by omega)
  data r hr := by
    have hmem := (liveRecords_mem hr).1
    have hlt := W.ptr_lt hmem
    have hsize := getVariableHeaderSize_bounds si.authFlag
    have hn := nameSizeOfVariable_lt r.header si.authFlag
    have hd := dataSizeOfVariable_lt r.header si.authFlag
    have hfit := F.live r hr
    unfold recordEnd at hfit
    rw [recordData, getVariableDataPtr_eq (by omega), Nat.add_assoc]
    exact getVariableNameOrData_reads S (W.inStore S (StoreWalk.ptr_mem_stops hmem)) (by omega)
      (by omega) (by omega)
  key a ha hold r hr := by
    have hmem := (liveRecords_mem ha).1
    have hfit (r' : VariableRecord) (hr' : r' ∈ liveRecords all) :
        storePosition si r'.ptr + getVariableHeaderSize si.authFlag
          + nameSizeOfVariable r'.header si.authFlag
          ≤ getEndPointer E.mem si.variableStoreHeader := by
      have h := F.live r' hr'
      unfold recordEnd at h
      omega
    refine compareWithValidVariable_reads ?_ fun hg => ?_
    · have h := recordName_inside W S hmem (hfit a ha) (k := 0) (m := 2) (by
        have := F.named a ha
        omega)
      exact h
    · have hkey := F.key a ha hold r hr hg.symm
      refine compareVariableName_reads (fun k m hkm => recordName_inside W S hmem hkey hkm)
        (fun k m hkm => recordName_inside W S (liveRecords_mem hr).1 (hfit r hr) hkm) ?_
      intro ftw hf name hname h1 h2
      rcases List.mem_cons.1 hname with rfl | hname
      · exact recordName_cut W S hmem hkey hf h1 h2
      · obtain rfl : name = recordName E si r := List.mem_singleton.1 hname
        exact recordName_cut W S (liveRecords_mem hr).1 (hfit r hr) hf h1 h2

/-- A search for a name of the caller reads its buffer besides. -/
theorem keyReads_inside (W : StoreWalk E si all e) (S : SplitInside E si)
    (F : RecordsFit E si all e) {name : Pointer} (hname : BufferApart E si name.address)
    (guid : EfiGuid) :
    KeyReads E si all (fun x => Inside E si x ∨ InBuffer E si name.address x) name guid := by
  intro r hr
  have hmem := (liveRecords_mem hr).1
  have hin := W.inStore S (StoreWalk.ptr_mem_stops (e := e) hmem)
  have hsize := getVariableHeaderSize_bounds si.authFlag
  have hnamed := F.named r hr
  have hfit := F.live r hr
  have hpos : si.variableStoreHeader ≤ storePosition si r.ptr := by
    have hle := hin.le
    have hb := W.layout.getStartPointer_eq
    rcases hf : si.ftwLastWriteData with _ | ftw
    · rw [storePosition_of_none hf]
      exact hle
    · have := S.start_lt ftw hf
      rw [storePosition_of_some hf]
      split_ifs <;> omega
  unfold recordEnd at hfit
  have hbuffer (k m : ℕ) (hkm : k + m ≤ nameSizeOfVariable r.header si.authFlag) :
      InBuffer E si name.address (name.address + k, m) := by
    unfold InBuffer storeSpan
    simp only []
    omega
  refine compareWithValidVariable_reads (.inr (hbuffer 0 2 hnamed)) fun _ => ?_
  refine compareVariableName_reads (fun k m hkm => .inr (hbuffer k m hkm))
    (fun k m hkm => .inl (recordName_inside W S hmem (by omega) hkm)) ?_
  intro ftw hf name' hname' h1 h2
  rcases List.mem_cons.1 hname' with rfl | hname'
  · have hle : toUintn (name'.address + nameSizeOfVariable r.header si.authFlag)
        ≤ name'.address + nameSizeOfVariable r.header si.authFlag := Nat.mod_le _ _
    have hapart := hname ftw hf
    unfold storeSpan at hapart
    omega
  · obtain rfl : name' = recordName E si r := List.mem_singleton.1 hname'
    exact .inl (recordName_cut W S hmem (by omega) hf h1 h2)

end Reads

/-- The status a call returns with. -/
def VariableCall.outcome (E : BaseVariableEnv) (fuel : ℕ) (s : BaseVariableState) :
    VariableCall → Except Halt EfiStatus
  | .getVariable name guid attributes dataSize data =>
    (baseGetVariable E fuel name guid attributes dataSize data s).1.map fun res => res.status
  | .getNextVariableName size name guid =>
    (baseGetNextVariableName E fuel size name guid s).1.map fun res => res.status

/-- If this does not return, an assertion has failed: some live record has no name. -/
def StopsAtAssert {α : Type} (E : BaseVariableEnv) (si : VariableStoreInfo)
    (all : List VariableRecord) (x : Except Halt α) : Prop :=
  ∀ halt, x = .error halt → halt = .assert ∧ E.debugAssertEnabled = true
    ∧ ∃ r ∈ liveRecords all, nameSizeOfVariable r.header si.authFlag = 0

section Ends

variable {E : BaseVariableEnv} {si : VariableStoreInfo} {all : List VariableRecord} {e : ℕ}
  {name : Pointer} {guid : EfiGuid}

theorem stopsAtAssert_ok {α : Type} (a : α) : StopsAtAssert E si all (.ok a) :=
  fun _ h => by cases h

theorem StopsAtAssert.map {α β : Type} {x : Except Halt α} (h : StopsAtAssert E si all x)
    (f : α → β) : StopsAtAssert E si all (x.map f) := by
  rcases x with halt | a
  · exact fun halt' h' => h halt' (by cases h'; rfl)
  · exact stopsAtAssert_ok _

theorem scan_error {cmp : VariableRecord → Except Halt Bool} {halt : Halt} :
    ∀ {rs : List VariableRecord} {d : Option VariableRecord}, scan cmp rs d = .error halt →
      ∃ r ∈ liveRecords rs, cmp r = .error halt
  | [], d, h => by cases h
  | r :: rs, d, h => by
    have lift {d : Option VariableRecord} (h : scan cmp rs d = .error halt) :
        ∃ x ∈ liveRecords (r :: rs), cmp x = .error halt := by
      obtain ⟨x, hx, hc⟩ := scan_error h
      have := liveRecords_mem hx
      exact ⟨x, List.mem_filter.2 ⟨List.mem_cons_of_mem _ this.1, this.2⟩, hc⟩
    rw [scan] at h
    by_cases hl : isLive r.header = true
    · rw [if_pos hl] at h
      rcases hc : cmp r with halt' | _ | _ <;> simp only [hc] at h
      · cases h
        exact ⟨r, List.mem_filter.2 ⟨List.mem_cons_self, hl⟩, hc⟩
      · exact lift h
      · split_ifs at h
        · exact lift h
    · rw [if_neg hl] at h
      exact lift h

theorem foundRecord_stops : StopsAtAssert E si all (foundRecord E si all name guid) := by
  refine StopsAtAssert.map (fun halt h => ?_) _
  obtain ⟨r, hr, hc⟩ := scan_error h
  unfold recordMatches compareWithValidVariable at hc
  simp only [] at hc
  split_ifs at hc with hn hg hz
  obtain rfl : Halt.assert = halt := by simpa using hc
  exact ⟨rfl, hz.2, r, hr, hz.1⟩

theorem nextResult_stops (size : ℕ) : ∀ {rs : List VariableRecord}, (∀ r ∈ rs, r ∈ all) →
    StopsAtAssert E si all (nextResult E si all size rs)
  | [], _ => stopsAtAssert_ok _
  | r :: rs, hall => by
    have ih := nextResult_stops size fun x hx => hall x (List.mem_cons_of_mem r hx)
    rw [nextResult]
    by_cases hl : isLive r.header = true
    · rw [if_pos hl]
      have hgive : StopsAtAssert E si all (recordGivesWay E si all r) := by
        unfold recordGivesWay
        split_ifs
        · exact foundRecord_stops.map _
        · exact stopsAtAssert_ok _
      rcases hg : recordGivesWay E si all r with halt | _ | _
      · intro halt' h
        cases h
        exact hgive _ hg
      · simp only [nameResult]
        split_ifs with hz
        · intro halt h
          cases h
          exact ⟨rfl, hz.2, r, List.mem_filter.2 ⟨hall r List.mem_cons_self, hl⟩, hz.1⟩
        · exact stopsAtAssert_ok _
        · exact stopsAtAssert_ok _
      · exact ih
    · rw [if_neg hl]
      exact ih

theorem VariableCall.outcome_stops {fuel : ℕ} {s : BaseVariableState} (N : NvStore E all e)
    (hf : all.length < fuel) (hs : Sound E (nvVariableStore E) all e (fun _ => True) s)
    (call : VariableCall) :
    StopsAtAssert E (nvVariableStore E) all (call.outcome E fuel s) := by
  cases call with
  | getVariable name guid attributes dataSize data =>
    refine StopsAtAssert.map ?_ _
    rcases name with _ | name
    · exact stopsAtAssert_ok _
    rcases guid with _ | guid
    · exact stopsAtAssert_ok _
    rcases dataSize with _ | dataSize
    · exact stopsAtAssert_ok _
    obtain ⟨s', h, -⟩ := baseGetVariable_eq N storeReads_true (keyReads_true name guid) hf hs
      attributes dataSize data
    rw [h]
    split_ifs
    · exact stopsAtAssert_ok _
    · exact foundRecord_stops.map _
  | getNextVariableName size name guid =>
    refine StopsAtAssert.map ?_ _
    rcases name with _ | name
    · exact stopsAtAssert_ok _
    rcases guid with _ | guid
    · exact stopsAtAssert_ok _
    rcases size with _ | size
    · exact stopsAtAssert_ok _
    obtain ⟨res, s', h, -, hmatch⟩ := baseGetNextVariableName_eq N storeReads_true
      (keyReads_true name guid) hf hs size
    rw [h]
    rcases hr : foundRecord E (nvVariableStore E) all name guid with halt | _ | r <;>
      rw [hr] at hmatch
    · subst hmatch
      intro halt' h'
      cases h'
      exact foundRecord_stops _ hr
    · subst hmatch
      exact stopsAtAssert_ok _
    · obtain ⟨pre, post, hall, rfl⟩ := hmatch
      refine nextResult_stops size fun x hx => ?_
      rw [recordsToCome] at hx
      split_ifs at hx <;> simp_all

end Ends

theorem StoreReads.mono {E : BaseVariableEnv} {si : VariableStoreInfo} {all : List VariableRecord}
    {e : ℕ} {P Q : ℕ × ℕ → Prop} (R : StoreReads E si all e P) (h : ∀ x, P x → Q x) :
    StoreReads E si all e Q where
  header v hv x hx := h x (R.header v hv x hx)
  name r hr x hx := h x (R.name r hr x hx)
  data r hr x hx := h x (R.data r hr x hx)
  key a ha hold r hr x hx := h x (R.key a ha hold r hr x hx)

/-- What the store lets the calls do, in any run from boot. `callers` are the addresses of the
names passed. -/
structure CallsConfined (E : BaseVariableEnv) (fuel : ℕ) (all : List VariableRecord) (e : ℕ) :
    Prop where
  ends : ∀ s, CallsReached E fuel s → ∀ call : VariableCall,
    StopsAtAssert E (nvVariableStore E) all (call.outcome E fuel s)
  headers : ∀ r ∈ all, Inside E (nvVariableStore E) (r.ptr, 1)
  reads : RecordsFit E (nvVariableStore E) all e →
    ∀ callers : Set ℕ, (∀ a ∈ callers, BufferApart E (nvVariableStore E) a) →
    ∀ s, Reached (fun s (call : VariableCall) => call.step E fuel s)
        (fun _ call => ∀ name ∈ call.name, name.address ∈ callers) .boot s →
      ∀ x ∈ s.reads, Inside E (nvVariableStore E) x
        ∨ ∃ a ∈ callers, InBuffer E (nvVariableStore E) a x

/-- Whatever the flash holds, every call ends, the headers it looks at start in the store, and it
reads nothing outside when the records fit. -/
theorem baseVariable_confined {E : BaseVariableEnv}
    (h : (nvVariableStore E).variableStoreHeader ≠ 0) (V : StoreValid E (nvVariableStore E))
    (S : SplitInside E (nvVariableStore E)) :
    ∃ all e, NvStore E all e ∧ ∀ fuel, all.length < fuel → CallsConfined E fuel all e := by
  obtain ⟨all, e, N⟩ := exists_nvStore h S.le_spare V
  refine ⟨all, e, N, fun fuel hf => ⟨fun s hs call => ?_, fun r hr => ?_, ?_⟩⟩
  · exact call.outcome_stops N hf (hs.sound N hf)
  · have hmem := StoreWalk.ptr_mem_stops (e := e) hr
    have hin := N.walk.inStore S hmem
    have hlt := hin.position_lt N.walk.layout S (N.walk.stop_lt hmem)
      (by simp [N.walk.walk.headerAt_ptr r hr])
    exact hin.inside 0 1 hlt
  · intro F callers hcallers s hs
    have R : StoreReads E (nvVariableStore E) all e fun x => Inside E (nvVariableStore E) x
        ∨ ∃ a ∈ callers, InBuffer E (nvVariableStore E) a x :=
      (storeReads_inside N.walk S F).mono fun _ => .inl
    refine (hs.invariant sound_boot fun s call hs hcall =>
      VariableCall.sound N R hf hs call fun name hname guid r hr x hx => ?_).reads
    rcases keyReads_inside N.walk S F (hcallers _ (hcall name hname)) guid r hr x hx with hx | hx
    · exact .inl hx
    · exact .inr ⟨_, hcall name hname, hx⟩

theorem splitInside_of_none {E : BaseVariableEnv} {si : VariableStoreInfo}
    (hf : si.ftwLastWriteData.isNone = true) : SplitInside E si := by
  rw [Option.isNone_iff_eq_none] at hf
  constructor <;> simp [hf]

theorem baseVariable_confined_updated :
    ∃ all e, NvStore updatedEnv all e
      ∧ ∀ fuel, all.length < fuel → CallsConfined updatedEnv fuel all e :=
  baseVariable_confined (by decide +kernel) ⟨by decide +kernel, by decide +kernel⟩
    (splitInside_of_none (by decide +kernel))

/-- A store with one added record, of these sizes. -/
def corruptEnv (nameSize dataSize : ℕ) : BaseVariableEnv :=
  smallEnv (leBytes variableData 2 ++ [0x3f, 0] ++ leBytes 7 4 ++ leBytes nameSize 4
    ++ leBytes dataSize 4 ++ leBytes 1 16 ++ [0x41, 0, 0, 0]) [] 0

def lookupA : VariableCall := .getVariable (some (nameAt 0x100 [0x41])) (some 1) true (some 2000) true

/-- A data size that is too large is copied from behind the store, and a name size of zero stops
the lookup. -/
theorem baseVariable_not_confined :
    StoreValid (corruptEnv 4 1000) (nvVariableStore (corruptEnv 4 1000))
      ∧ (∃ x ∈ (lookupA.step (corruptEnv 4 1000) 10 .boot).reads,
        ¬ Inside (corruptEnv 4 1000) (nvVariableStore (corruptEnv 4 1000)) x
          ∧ x.1 = getStartPointer (nvVariableStore (corruptEnv 4 1000)).variableStoreHeader + 36)
      ∧ StoreValid (corruptEnv 0 0) (nvVariableStore (corruptEnv 0 0))
      ∧ lookupA.outcome (corruptEnv 0 0) 10 .boot = .error .assert := by
  refine ⟨⟨by decide +kernel, by decide +kernel⟩, ⟨(0x1088, 1000), by decide +kernel, ?_,
    by decide +kernel⟩, ⟨by decide +kernel, by decide +kernel⟩, by decide +kernel⟩
  have hnone : (nvVariableStore (corruptEnv 4 1000)).ftwLastWriteData = none :=
    Option.isNone_iff_eq_none.1 (by decide +kernel)
  rintro (h | ⟨-, h⟩ | ⟨ftw, hf, -⟩)
  · simp at h
  · exact absurd h (by decide +kernel)
  · simp [hnone] at hf

end Edk2Rk3576
