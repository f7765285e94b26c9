import Edk2Rk3576.BaseVariable.Search
import Edk2Rk3576.Lib.Runs
import Mathlib.Data.List.Pairwise

/-!
# The statics between two reads

`Sound` statics agree with the store: the static header, if filled, is the one of the stop that
the split cuts, and the index table leads to the first live records. Reading the header of a stop
of the walk then gives what an empty static buffer would give, and the statics stay sound. `P` is
any property of the ranges read.
-/

namespace Edk2Rk3576

open Cells Walk ScanEnd

/-- The pointers that an index leads to, from `p` on. -/
def indexPtrs : ℕ → List ℕ → List ℕ
  | _, [] => []
  | p, d :: ds => (p + d) :: indexPtrs (p + d) ds

theorem indexPtrs_append (d : ℕ) : ∀ (p : ℕ) (ds : List ℕ),
    indexPtrs p (ds ++ [d]) = indexPtrs p ds ++ [(indexPtrs p ds).getLastD p + d]
  | p, [] => rfl
  | p, x :: ds => by
    simp only [List.cons_append, indexPtrs, indexPtrs_append d (p + x) ds, List.getLastD_cons]

structure StoreWalk (E : BaseVariableEnv) (si : VariableStoreInfo) (all : List VariableRecord)
    (e : ℕ) : Prop where
  layout : StoreLayout si
  walk : Walk E si (getStartPointer si.variableStoreHeader) all e

/-- The split cuts the header at `v`. -/
def headerCut (si : VariableStoreInfo) (ftw : FtwLastWriteData) (v : ℕ) : Prop :=
  v < ftw.targetAddress ∧ ftw.targetAddress < toUintn (v + getVariableHeaderSize si.authFlag)

namespace StoreWalk

variable {E : BaseVariableEnv} {si : VariableStoreInfo} {all : List VariableRecord} {e : ℕ}

theorem start_lt (W : StoreWalk E si all e) :
    getStartPointer si.variableStoreHeader < 2 ^ 56 := by
  have := W.layout.getStartPointer_eq
  have := W.layout.header
  omega

theorem stop_lt (W : StoreWalk E si all e) {v : ℕ} (hv : v ∈ stops all e) : v < 2 ^ 56 :=
  stops_lt W.layout W.start_lt W.walk v hv

theorem ptr_mem_stops {r : VariableRecord} (hr : r ∈ all) : r.ptr ∈ stops all e :=
  List.mem_append_left _ (List.mem_map_of_mem hr)

theorem ptr_lt (W : StoreWalk E si all e) {r : VariableRecord} (hr : r ∈ all) : r.ptr < 2 ^ 55 :=
  (W.layout.headerAt_lt (E := E) (W.stop_lt (ptr_mem_stops hr)) (by simp [W.walk.headerAt_ptr r hr])).2

/-- The split cuts one header at most. -/
theorem headerCut_unique (W : StoreWalk E si all e) {ftw : FtwLastWriteData} {v v' : ℕ}
    (hv : v ∈ stops all e) (hv' : v' ∈ stops all e) (hc : headerCut si ftw v)
    (hc' : headerCut si ftw v') : v = v' := by
  have hp : (stops all e).Pairwise fun x y => ¬ (headerCut si ftw x ∧ headerCut si ftw y) := by
    refine (W.walk.pairwise W.layout W.start_lt).2.imp_of_mem fun {x y} hx _ hxy => ?_
    rintro ⟨⟨-, h1⟩, ⟨h2, -⟩⟩
    have hlt := W.stop_lt hx
    have hs := getVariableHeaderSize_bounds si.authFlag
    rw [toUintn_of_lt (by omega)] at h1
    omega
  have : Std.Symm fun x y => ¬ (headerCut si ftw x ∧ headerCut si ftw y) :=
    ⟨fun _ _ h h' => h h'.symm⟩
  by_contra hne
  exact hp.forall hv hv' hne ⟨hc, hc'⟩

end StoreWalk

section Sound

variable (E : BaseVariableEnv) (si : VariableStoreInfo) (all : List VariableRecord) (e : ℕ)
  (P : ℕ × ℕ → Prop)

/-- The table leads to the first live records, and to all of them once gone through. -/
structure IndexSound (t : VariableIndexTable) : Prop where
  startPtr : t.startPtr = getStartPointer si.variableStoreHeader
  index : indexPtrs t.startPtr t.index <+: (liveRecords all).map VariableRecord.ptr
  goneThrough : t.goneThrough = true →
    indexPtrs t.startPtr t.index = (liveRecords all).map VariableRecord.ptr
  volume : t.index.length ≤ E.indexTableVolume

structure Sound (s : BaseVariableState) : Prop where
  blank : s.variableHeaderFtwMerged = false → s.variableHeaderFtw = fun _ => 0
  merged : s.variableHeaderFtwMerged = true → ∀ v ∈ stops all e, ∀ ftw ∈ si.ftwLastWriteData,
    headerCut si ftw v → s.variableHeaderFtw = (mergeHeader E si ftw v .boot).variableHeaderFtw
  table : s.variableIndexTable.startPtr = 0 ∨ IndexSound E si all s.variableIndexTable
  reads : ∀ x ∈ s.reads, P x

/-- The header reads of a walk have `P`. -/
def HeaderReads : Prop :=
  ∀ v ∈ stops all e, ∀ x ∈ (getVariableHeader E si v .boot).2.2.reads, P x

/-- So have the reads that compare a name and a GUID with the live records. -/
def KeyReads (name : Pointer) (guid : EfiGuid) : Prop :=
  ∀ r ∈ liveRecords all,
    ∀ x ∈ (compareWithValidVariable E si r.ptr r.header name guid .boot).2.reads, P x

/-- Whether a record matches a name and a GUID. -/
def recordMatches (name : Pointer) (guid : EfiGuid) (r : VariableRecord) : Except Halt Bool :=
  (compareWithValidVariable E si r.ptr r.header name guid .boot).1

variable {E si all e P} {s : BaseVariableState} {v : ℕ}

theorem sound_boot : Sound E si all e P .boot where
  blank _ := rfl
  merged h := by simp [BaseVariableState.boot] at h
  table := .inl rfl
  reads := by simp [BaseVariableState.boot]

theorem Sound.log (hs : Sound E si all e P s) {new : List (ℕ × ℕ)} (h : ∀ x ∈ new, P x) :
    Sound E si all e P { s with reads := new ++ s.reads } where
  blank := hs.blank
  merged := hs.merged
  table := hs.table
  reads x hx := (List.mem_append.1 hx).elim (h x) (hs.reads x)

theorem Sound.withTable (hs : Sound E si all e P s) {t : VariableIndexTable}
    (ht : IndexSound E si all t) : Sound E si all e P { s with variableIndexTable := t } where
  blank := hs.blank
  merged := hs.merged
  table := .inr ht
  reads := hs.reads

theorem Sound.index (hs : Sound E si all e P s) (h : s.variableIndexTable.startPtr ≠ 0) :
    IndexSound E si all s.variableIndexTable := hs.table.resolve_left h

theorem Sound.mergeHeader (W : StoreWalk E si all e) (hs : Sound E si all e P s)
    (hv : v ∈ stops all e) {ftw : FtwLastWriteData} (hf : ftw ∈ si.ftwLastWriteData)
    (hc : headerCut si ftw v) (hP : ∀ x ∈ (mergeHeader E si ftw v .boot).reads, P x) :
    (mergeHeader E si ftw v s).variableHeaderFtw
        = (mergeHeader E si ftw v .boot).variableHeaderFtw
      ∧ Sound E si all e P (mergeHeader E si ftw v s)
      ∧ (mergeHeader E si ftw v s).variableIndexTable = s.variableIndexTable := by
  by_cases hm : s.variableHeaderFtwMerged = true
  · have h : Edk2Rk3576.mergeHeader E si ftw v s = s := if_pos hm
    rw [h]
    exact ⟨hs.merged hm v hv ftw hf hc, hs, rfl⟩
  · have hb := hs.blank (by simpa using hm)
    have heq : (Edk2Rk3576.mergeHeader E si ftw v s).variableHeaderFtw
        = (Edk2Rk3576.mergeHeader E si ftw v .boot).variableHeaderFtw := by
      simp [Edk2Rk3576.mergeHeader, hm, BaseVariableState.boot, BaseVariableState.read, hb]
    have ht : (Edk2Rk3576.mergeHeader E si ftw v s).variableIndexTable
        = s.variableIndexTable := by
      simp [Edk2Rk3576.mergeHeader, hm, BaseVariableState.read]
    refine ⟨heq, ⟨fun h => ?_, fun _ v' hv' ftw' hf' hc' => ?_, ht ▸ hs.table, fun x hx => ?_⟩, ht⟩
    · simp [Edk2Rk3576.mergeHeader, hm, BaseVariableState.read] at h
    · obtain rfl : ftw = ftw' := Option.some.inj (hf.symm.trans hf')
      rw [heq, W.headerCut_unique hv hv' hc hc']
    · simp only [Edk2Rk3576.mergeHeader, hm, BaseVariableState.read, BaseVariableState.boot,
        Bool.false_eq_true, if_false, List.mem_cons, List.not_mem_nil, or_false] at hx hP
      rcases hx with h | h | h
      · exact hP x (.inl h)
      · exact hP x (.inr h)
      · exact hs.reads x h

/-- At a stop of the walk the header reads as with an empty static buffer. -/
theorem Sound.getVariableHeader (W : StoreWalk E si all e) (hh : HeaderReads E si all e P)
    (hs : Sound E si all e P s) (hv : v ∈ stops all e) :
    ∃ s', getVariableHeader E si v s = ((getVariableHeader E si v .boot).1,
        (getVariableHeader E si v .boot).2.1, s')
      ∧ Sound E si all e P s' ∧ s'.variableIndexTable = s.variableIndexTable := by
  have hP := hh v hv
  have hread : (∀ x ∈ (readHeader E si v .boot).2.2.reads, P x) →
      ∃ s', readHeader E si v s = ((readHeader E si v .boot).1, (readHeader E si v .boot).2.1, s')
        ∧ Sound E si all e P s' ∧ s'.variableIndexTable = s.variableIndexTable := fun h =>
    ⟨_, readHeader_logs E si v s, hs.log h, rfl⟩
  unfold Edk2Rk3576.getVariableHeader at hP ⊢
  by_cases h0 : v = 0
  · simp only [h0, if_true]
    exact ⟨s, rfl, hs, rfl⟩
  simp only [if_neg h0] at hP ⊢
  rcases hf : si.ftwLastWriteData with _ | ftw
  · simp only [hf] at hP ⊢
    split_ifs at hP ⊢ with h
    · exact ⟨s, rfl, hs, rfl⟩
    · exact hread hP
  · simp only [hf] at hP ⊢
    split_ifs at hP ⊢ with h hc
    · exact ⟨s, rfl, hs, rfl⟩
    · obtain ⟨heq, hs', ht⟩ := hs.mergeHeader W hv hf hc hP
      exact ⟨_, by rw [heq], hs', ht⟩
    · exact hread hP

theorem Sound.getVariableHeader_record (W : StoreWalk E si all e)
    (hh : HeaderReads E si all e P) (hs : Sound E si all e P s) {r : VariableRecord}
    (hr : r ∈ all) :
    ∃ s', Edk2Rk3576.getVariableHeader E si r.ptr s = (true, r.header, s')
      ∧ Sound E si all e P s' ∧ s'.variableIndexTable = s.variableIndexTable := by
  have h := headerAt_eq_some.1 (W.walk.headerAt_ptr r hr)
  rw [← h.1, ← h.2]
  exact hs.getVariableHeader W hh (StoreWalk.ptr_mem_stops hr)

theorem Sound.getVariableHeader_end (W : StoreWalk E si all e)
    (hh : HeaderReads E si all e P) (hs : Sound E si all e P s) :
    ∃ h s', Edk2Rk3576.getVariableHeader E si e s = (false, h, s')
      ∧ Sound E si all e P s' ∧ s'.variableIndexTable = s.variableIndexTable := by
  have h := headerAt_eq_none.1 W.walk.headerAt_end
  obtain ⟨s', hs'⟩ := hs.getVariableHeader W hh (v := e) (by simp [stops])
  exact ⟨_, s', h ▸ hs'⟩

theorem Sound.compare {name : Pointer} {guid : EfiGuid} (hk : KeyReads E si all P name guid)
    (hs : Sound E si all e P s) {r : VariableRecord} (hr : r ∈ liveRecords all) :
    ∃ s', compareWithValidVariable E si r.ptr r.header name guid s
        = (recordMatches E si name guid r, s')
      ∧ Sound E si all e P s' ∧ s'.variableIndexTable = s.variableIndexTable :=
  ⟨_, (compareWithValidVariable_logs E si r.ptr r.header name guid).eq s, hs.log (hk r hr), rfl⟩

end Sound

end Edk2Rk3576
