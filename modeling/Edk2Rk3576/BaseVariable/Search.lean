import Edk2Rk3576.BaseVariable.Walk

/-!
# A search as a scan of the records

`scan` goes through a list of records the way `FindVariableEx` goes through the store. Functions
that only read, such as the comparisons it makes, do not depend on the statics.
-/

namespace Edk2Rk3576

open Cells Walk

/-- A function of the state that only reads: its result and the ranges do not depend on it. -/
def Logs {α : Type} (f : BaseVariableState → α × BaseVariableState) : Prop :=
  ∃ a new, ∀ s, f s = (a, { s with reads := new ++ s.reads })

theorem Logs.eq {α : Type} {f : BaseVariableState → α × BaseVariableState} (h : Logs f)
    (s : BaseVariableState) :
    f s = ((f .boot).1, { s with reads := (f .boot).2.reads ++ s.reads }) := by
  obtain ⟨a, new, h⟩ := h
  rw [h s, h .boot]
  simp [BaseVariableState.boot]

section Logs

variable (E : BaseVariableEnv) (si : VariableStoreInfo)

theorem compareMem_logs (p q : Pointer) (n : ℕ) : Logs (compareMem p q n) :=
  ⟨_, [(q.address, n), (p.address, n)], fun _ => rfl⟩

theorem comparePartial_logs (ftw : FtwLastWriteData) (cut other : Pointer) (nameSize : ℕ) :
    Logs (comparePartial E ftw cut other nameSize) := by
  obtain ⟨a, new, h⟩ := compareMem_logs cut other (ftw.targetAddress - cut.address)
  obtain ⟨a', new', h'⟩ := compareMem_logs (pointer E.mem ftw.spareAddress)
    (other.advance (ftw.targetAddress - cut.address))
    (nameSize - (ftw.targetAddress - cut.address))
  cases a with
  | true => exact ⟨a', new' ++ new, fun s => by simp [comparePartial, h, h']⟩
  | false => exact ⟨false, new, fun s => by simp [comparePartial, h]⟩

theorem compareVariableName_logs (name1 name2 : Pointer) (nameSize : ℕ) :
    Logs (compareVariableName E si name1 name2 nameSize) := by
  unfold compareVariableName
  rcases si.ftwLastWriteData with _ | ftw
  · exact compareMem_logs _ _ _
  · simp only []
    split_ifs
    · exact comparePartial_logs E _ _ _ _
    · exact comparePartial_logs E _ _ _ _
    · exact compareMem_logs _ _ _

theorem compareWithValidVariable_logs (v : ℕ) (h : Cells UInt8) (name : Pointer) (guid : EfiGuid) :
    Logs (compareWithValidVariable E si v h name guid) := by
  unfold compareWithValidVariable
  simp only []
  split_ifs
  · exact ⟨.ok true, [(name.address, 2)], fun s => rfl⟩
  · exact ⟨.error .assert, [(name.address, 2)], fun s => rfl⟩
  · obtain ⟨a, new, h⟩ := compareVariableName_logs E si name
      (pointer E.mem (getVariableNamePtr v si.authFlag)) (nameSizeOfVariable h si.authFlag)
    exact ⟨.ok a, new ++ [(name.address, 2)], fun s => by simp [h, BaseVariableState.read]⟩
  · exact ⟨.ok false, [(name.address, 2)], fun s => rfl⟩

theorem getVariableNameOrData_logs (a size : ℕ) : Logs (getVariableNameOrData E si a size) := by
  unfold getVariableNameOrData
  rcases si.ftwLastWriteData with _ | ftw
  · exact ⟨_, [(a, size)], fun s => rfl⟩
  · simp only []
    split_ifs
    · exact ⟨_, [(_, _), (_, _)], fun s => rfl⟩
    · exact ⟨_, [(a, size)], fun s => rfl⟩

theorem readHeader_logs (v : ℕ) (s : BaseVariableState) :
    readHeader E si v s = ((readHeader E si v .boot).1, (readHeader E si v .boot).2.1,
      { s with reads := (readHeader E si v .boot).2.2.reads ++ s.reads }) := by
  unfold readHeader
  simp only []
  split_ifs <;> rfl

end Logs

/-- How a scan ends: at a record, or past the last one with the last in-transition match. -/
abbrev ScanEnd := VariableRecord ⊕ Option VariableRecord

namespace ScanEnd

/-- The record returned. -/
def hit : ScanEnd → Option VariableRecord := Sum.elim some id

def ptr (r : Option VariableRecord) : ℕ := r.elim 0 VariableRecord.ptr

@[simp] theorem ptr_none : ptr none = 0 := rfl

@[simp] theorem ptr_some (r : VariableRecord) : ptr (some r) = r.ptr := rfl

/-- As `FindVariableEx` holds it. -/
def search : ScanEnd → Search := Sum.elim (fun r => .found r.ptr) fun r => .passed (ptr r)

end ScanEnd

open ScanEnd

def scan (cmp : VariableRecord → Except Halt Bool) :
    List VariableRecord → Option VariableRecord → Except Halt ScanEnd
  | [], inDeleted => .ok (.inr inDeleted)
  | r :: rs, inDeleted =>
    if isLive r.header then
      match cmp r with
      | .error halt => .error halt
      | .ok true =>
        if isInDeletedTransition r.header then scan cmp rs (some r) else .ok (.inl r)
      | .ok false => scan cmp rs inDeleted
    else scan cmp rs inDeleted

def liveRecords (rs : List VariableRecord) : List VariableRecord := rs.filter fun r => isLive r.header

theorem liveRecords_cons_of_live {r : VariableRecord} (h : isLive r.header = true)
    (rs : List VariableRecord) : liveRecords (r :: rs) = r :: liveRecords rs :=
  List.filter_cons_of_pos h

theorem liveRecords_cons_of_not {r : VariableRecord} (h : ¬ isLive r.header = true)
    (rs : List VariableRecord) : liveRecords (r :: rs) = liveRecords rs :=
  List.filter_cons_of_neg h

section Scan

variable (cmp : VariableRecord → Except Halt Bool)

theorem scan_append (ys : List VariableRecord) : ∀ (xs : List VariableRecord)
    (d : Option VariableRecord), scan cmp (xs ++ ys) d =
      match scan cmp xs d with
      | .ok (.inr d') => scan cmp ys d'
      | end' => end'
  | [], d => rfl
  | x :: xs, d => by
    simp only [List.cons_append, scan, scan_append ys xs]
    by_cases hx : isLive x.header
    · rw [if_pos hx, if_pos hx]
      rcases cmp x with _ | _ | _
      · rfl
      · rfl
      · by_cases hd : isInDeletedTransition x.header
        · simp only [if_pos hd]
        · simp only [if_neg hd]
    · rw [if_neg hx, if_neg hx]

theorem scan_liveRecords : ∀ (xs : List VariableRecord) (d : Option VariableRecord),
    scan cmp (liveRecords xs) d = scan cmp xs d
  | [], d => rfl
  | x :: xs, d => by
    by_cases hx : isLive x.header
    · simp only [liveRecords_cons_of_live hx, scan, scan_liveRecords xs]
    · rw [liveRecords_cons_of_not hx, scan_liveRecords xs d, scan, if_neg hx]

/-- A scan returns a live record of the list that matches, or the one it started with. -/
theorem mem_of_scan : ∀ {xs : List VariableRecord} {d : Option VariableRecord} {x : ScanEnd}
    {r : VariableRecord}, scan cmp xs d = .ok x → hit x = some r →
      (r ∈ xs ∧ isLive r.header = true ∧ cmp r = .ok true) ∨ d = some r
  | [], d, x, r, h, hr => by
    simp only [scan, Except.ok.injEq] at h
    subst h
    exact .inr hr
  | y :: ys, d, x, r, h, hr => by
    have lift (h : scan cmp ys d = .ok x) :
        (r ∈ y :: ys ∧ isLive r.header = true ∧ cmp r = .ok true) ∨ d = some r :=
      (mem_of_scan h hr).imp_left fun h => ⟨List.mem_cons_of_mem _ h.1, h.2⟩
    rw [scan] at h
    by_cases hy : isLive y.header = true
    · rw [if_pos hy] at h
      rcases hc : cmp y with halt | _ | _ <;> simp only [hc] at h
      · cases h
      · exact lift h
      · by_cases hd : isInDeletedTransition y.header = true
        · rw [if_pos hd] at h
          rcases mem_of_scan h hr with ⟨hm, hl⟩ | hd
          · exact .inl ⟨List.mem_cons_of_mem _ hm, hl⟩
          · obtain rfl := Option.some.inj hd
            exact .inl ⟨List.mem_cons_self, hy, hc⟩
        · rw [if_neg hd, Except.ok.injEq] at h
          subst h
          obtain rfl : y = r := by simpa [hit] using hr
          exact .inl ⟨List.mem_cons_self, hy, hc⟩
    · rw [if_neg hy] at h
      exact lift h

end Scan

end Edk2Rk3576
