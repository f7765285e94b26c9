import Edk2Rk3576.BaseVariable.Calls

/-!
# The records of a store

`Walk` lists the records that a walk passes, and where it stops. Record sizes are whatever the
flash holds, but a walk always goes up, by a header at least, and stops at the end of the store.
So no two of its stops have a header that the split cuts, and the static buffer for that header,
once filled, is right for every stop.
-/

namespace Edk2Rk3576

open Cells

theorem toUintn_of_lt {x : ℕ} (h : x < 2 ^ 64) : toUintn x = x := Nat.mod_eq_of_lt h

theorem headerAlign_mod (x : ℕ) : headerAlign x % 4 = 0 := Nat.mul_mod_left _ 4

theorem headerAlign_of_lt {x : ℕ} (h : x < 2 ^ 60) :
    headerAlign (toUintn x) = (x + 3) / 4 * 4 := by
  rw [toUintn_of_lt (show x < 2 ^ 64 by omega), headerAlign, toUintn_of_lt (by omega)]

theorem headerAlign_bounds {x : ℕ} (h : x < 2 ^ 60) :
    x ≤ headerAlign x ∧ headerAlign x ≤ x + 3 := by
  rw [headerAlign, toUintn_of_lt (by omega)]
  omega

theorem getStartPointer_bounds {varStoreHeader : ℕ} (h : varStoreHeader < 2 ^ 54) :
    varStoreHeader + 28 ≤ getStartPointer varStoreHeader
      ∧ getStartPointer varStoreHeader ≤ varStoreHeader + 31 := by
  have h28 : variableStoreHeaderSize = 28 := rfl
  rw [getStartPointer, toUintn_of_lt (by omega)]
  have := headerAlign_bounds (x := varStoreHeader + variableStoreHeaderSize) (by omega)
  omega

theorem getVariableHeaderSize_bounds (authFlag : Bool) :
    32 ≤ getVariableHeaderSize authFlag ∧ getVariableHeaderSize authFlag ≤ 60 := by
  cases authFlag <;> simp [getVariableHeaderSize]

theorem nameSizeOfVariable_lt (h : Cells UInt8) (authFlag : Bool) :
    nameSizeOfVariable h authFlag < 2 ^ 32 := by
  unfold nameSizeOfVariable
  split_ifs
  · omega
  · exact le_lt 4 _

theorem dataSizeOfVariable_lt (h : Cells UInt8) (authFlag : Bool) :
    dataSizeOfVariable h authFlag < 2 ^ 32 := by
  unfold dataSizeOfVariable
  split_ifs
  · omega
  · exact le_lt 4 _

theorem getVariableNamePtr_eq {v : ℕ} (hv : v < 2 ^ 56) (authFlag : Bool) :
    getVariableNamePtr v authFlag = v + getVariableHeaderSize authFlag := by
  have := getVariableHeaderSize_bounds authFlag
  exact toUintn_of_lt (by omega)

theorem getVariableDataPtr_eq {v : ℕ} (hv : v < 2 ^ 56) (h : Cells UInt8) (authFlag : Bool) :
    getVariableDataPtr v h authFlag
      = v + getVariableHeaderSize authFlag + nameSizeOfVariable h authFlag := by
  have := getVariableHeaderSize_bounds authFlag
  have := nameSizeOfVariable_lt h authFlag
  rw [getVariableDataPtr, getVariableNamePtr_eq hv]
  exact toUintn_of_lt (by omega)

/-- Where the record at `v` ends. -/
def recordEnd (si : VariableStoreInfo) (v : ℕ) (h : Cells UInt8) : ℕ :=
  v + getVariableHeaderSize si.authFlag + nameSizeOfVariable h si.authFlag
    + dataSizeOfVariable h si.authFlag

theorem recordEnd_bounds (si : VariableStoreInfo) (v : ℕ) (h : Cells UInt8) :
    v + getVariableHeaderSize si.authFlag ≤ recordEnd si v h ∧ recordEnd si v h < v + 2 ^ 34 := by
  have := getVariableHeaderSize_bounds si.authFlag
  have := nameSizeOfVariable_lt h si.authFlag
  have := dataSizeOfVariable_lt h si.authFlag
  unfold recordEnd
  omega

/-- Where the store is, so that no pointer into it wraps: the spare area lies above the part of
the store that it stands for. -/
structure StoreLayout (si : VariableStoreInfo) : Prop where
  pos : 0 < si.variableStoreHeader
  header : si.variableStoreHeader < 2 ^ 53
  target : ∀ ftw ∈ si.ftwLastWriteData, ftw.targetAddress ≤ ftw.spareAddress
  spare : ∀ ftw ∈ si.ftwLastWriteData, ftw.spareAddress < 2 ^ 53

structure VariableRecord where
  ptr : ℕ
  header : Cells UInt8

section Walk

variable (E : BaseVariableEnv) (si : VariableStoreInfo)

/-- The header at `v` as it reads when the static buffer is still empty. -/
def headerAt (v : ℕ) : Option (Cells UInt8) :=
  match getVariableHeader E si v .boot with
  | (true, h, _) => some h
  | (false, _, _) => none

inductive Walk : ℕ → List VariableRecord → ℕ → Prop
  | stop {v : ℕ} : headerAt E si v = none → Walk v [] v
  | next {v : ℕ} {h : Cells UInt8} {rs : List VariableRecord} {e : ℕ} :
      headerAt E si v = some h → Walk (getNextVariablePtr si v h) rs e → Walk v (⟨v, h⟩ :: rs) e

/-- The walk itself, with the stop. -/
def walkRecords : (fuel v : ℕ) → Option (List VariableRecord × ℕ)
  | 0, _ => none
  | fuel + 1, v =>
    match headerAt E si v with
    | none => some ([], v)
    | some h =>
      (walkRecords fuel (getNextVariablePtr si v h)).map fun x => (⟨v, h⟩ :: x.1, x.2)

variable {E si} {v : ℕ} {h : Cells UInt8}

theorem walk_of_walkRecords : ∀ {fuel v : ℕ} {x : List VariableRecord × ℕ},
    walkRecords E si fuel v = some x → Walk E si v x.1 x.2
  | 0, v, x, hx => by simp [walkRecords] at hx
  | fuel + 1, v, x, hx => by
    unfold walkRecords at hx
    rcases hh : headerAt E si v with _ | h <;> simp only [hh] at hx
    · obtain rfl := Option.some.inj hx
      exact .stop hh
    · obtain ⟨y, hy, rfl⟩ := Option.map_eq_some_iff.1 hx
      exact .next hh (walk_of_walkRecords hy)

theorem StoreLayout.getStartPointer_eq (L : StoreLayout si) :
    si.variableStoreHeader + 28 ≤ getStartPointer si.variableStoreHeader
      ∧ getStartPointer si.variableStoreHeader ≤ si.variableStoreHeader + 31 :=
  getStartPointer_bounds (by have := L.header; omega)

theorem StoreLayout.getEndPointer_lt (L : StoreLayout si) (m : Cells UInt8) :
    getEndPointer m si.variableStoreHeader < 2 ^ 54 := by
  have hh := L.header
  have hs : m.le (si.variableStoreHeader + vshSize) 4 < 256 ^ 4 := le_lt 4 _
  rw [getEndPointer, toUintn_of_lt (by omega)]
  have := headerAlign_bounds
    (x := si.variableStoreHeader + m.le (si.variableStoreHeader + vshSize) 4) (by omega)
  omega

theorem getNextVariablePtr_of_none (hv : v < 2 ^ 56) (h : Cells UInt8)
    (hf : si.ftwLastWriteData = none) :
    getNextVariablePtr si v h = headerAlign (recordEnd si v h) := by
  have hr := recordEnd_bounds si v h
  simp only [getNextVariablePtr, hf]
  rw [getVariableDataPtr_eq hv, toUintn_of_lt (by unfold recordEnd at hr; omega)]
  rfl

theorem getNextVariablePtr_of_some (hv : v < 2 ^ 56) (h : Cells UInt8) {ftw : FtwLastWriteData}
    (hf : si.ftwLastWriteData = some ftw) (hs : ftw.spareAddress < 2 ^ 53) :
    getNextVariablePtr si v h =
      if v < ftw.targetAddress ∧ ftw.targetAddress ≤ headerAlign (recordEnd si v h) then
        ftw.spareAddress + (headerAlign (recordEnd si v h) - ftw.targetAddress)
      else headerAlign (recordEnd si v h) := by
  have hr := recordEnd_bounds si v h
  have ha := headerAlign_bounds (x := recordEnd si v h) (by omega)
  have he : toUintn (getVariableDataPtr v h si.authFlag + dataSizeOfVariable h si.authFlag)
      = recordEnd si v h := by
    rw [getVariableDataPtr_eq hv]
    exact toUintn_of_lt (by unfold recordEnd at hr; omega)
  simp only [getNextVariablePtr, hf, he]
  by_cases hc : v < ftw.targetAddress ∧ ftw.targetAddress ≤ headerAlign (recordEnd si v h)
  · rw [if_pos hc, if_pos hc, toUintn_of_lt (by omega)]
  · rw [if_neg hc, if_neg hc]

/-- A step of the walk goes up by a header at least, and stays in the address space. -/
theorem StoreLayout.next_bounds (L : StoreLayout si) (hv : v < 2 ^ 55) (h : Cells UInt8) :
    v + getVariableHeaderSize si.authFlag ≤ getNextVariablePtr si v h
      ∧ getNextVariablePtr si v h < 2 ^ 56 := by
  have hr := recordEnd_bounds si v h
  have ha := headerAlign_bounds (x := recordEnd si v h) (by omega)
  rcases hf : si.ftwLastWriteData with _ | ftw
  · rw [getNextVariablePtr_of_none (by omega) h hf]
    omega
  · have ht := L.target ftw hf
    have hs := L.spare ftw hf
    rw [getNextVariablePtr_of_some (by omega) h hf hs]
    split_ifs <;> omega

theorem headerAt_eq_some : headerAt E si v = some h ↔
    (getVariableHeader E si v .boot).1 = true ∧ (getVariableHeader E si v .boot).2.1 = h := by
  unfold headerAt
  rcases getVariableHeader E si v .boot with ⟨_ | _, hd, s⟩ <;> simp

theorem headerAt_eq_none :
    headerAt E si v = none ↔ (getVariableHeader E si v .boot).1 = false := by
  unfold headerAt
  rcases getVariableHeader E si v .boot with ⟨_ | _, hd, s⟩ <;> simp

/-- Headers are not looked for past the end of the store. -/
theorem StoreLayout.headerAt_lt (L : StoreLayout si) (hv : v < 2 ^ 56)
    (h : headerAt E si v ≠ none) : 0 < v ∧ v < 2 ^ 55 := by
  have he := L.getEndPointer_lt E.mem
  by_contra hc
  refine h (headerAt_eq_none.2 ?_)
  unfold getVariableHeader
  by_cases h0 : v = 0
  · simp [h0]
  rw [if_neg h0]
  rcases hf : si.ftwLastWriteData with _ | ftw
  · simp only []
    rw [if_pos (by omega)]
  · have ht := L.target ftw hf
    have hs := L.spare ftw hf
    simp only []
    rw [if_pos ⟨by omega, by rw [toUintn_of_lt (by omega)]; omega⟩]

/-- Every walk ends, whatever the flash holds. -/
theorem StoreLayout.exists_walk (L : StoreLayout si) (hv : v < 2 ^ 56) :
    ∃ rs e, Walk E si v rs e := by
  induction hn : 2 ^ 56 - v using Nat.strong_induction_on generalizing v with
  | _ n ih =>
    rcases hh : headerAt E si v with _ | h
    · exact ⟨[], v, .stop hh⟩
    · have hlt := L.headerAt_lt (E := E) hv (by simp [hh])
      have hb := L.next_bounds hlt.2 h
      have hsize := getVariableHeaderSize_bounds si.authFlag
      obtain ⟨rs, e, hw⟩ := ih _ (by omega) hb.2 rfl
      exact ⟨⟨v, h⟩ :: rs, e, .next hh hw⟩

namespace Walk

variable {rs : List VariableRecord} {e : ℕ}

/-- The pointers a walk looks at. -/
def stops (rs : List VariableRecord) (e : ℕ) : List ℕ := rs.map VariableRecord.ptr ++ [e]

theorem headerAt_ptr (hw : Walk E si v rs e) :
    ∀ r ∈ rs, headerAt E si r.ptr = some r.header := by
  induction hw with
  | stop h => simp
  | next h _ ih => simpa [h] using ih

theorem headerAt_end (hw : Walk E si v rs e) : headerAt E si e = none := by
  induction hw with
  | stop h => exact h
  | next _ _ ih => exact ih

theorem stops_lt (L : StoreLayout si) (hv : v < 2 ^ 56) (hw : Walk E si v rs e) :
    ∀ x ∈ stops rs e, x < 2 ^ 56 := by
  induction hw with
  | stop _ => simpa [stops] using hv
  | next h _ ih =>
    have hlt := L.headerAt_lt (E := E) hv (by simp [h])
    intro x hx
    rcases List.mem_cons.1 hx with rfl | hx
    · exact hv
    · exact ih (L.next_bounds hlt.2 _).2 x hx

theorem pairwise (L : StoreLayout si) (hv : v < 2 ^ 56) (hw : Walk E si v rs e) :
    (∀ x ∈ stops rs e, v ≤ x)
      ∧ (stops rs e).Pairwise fun x y => x + getVariableHeaderSize si.authFlag ≤ y := by
  induction hw with
  | stop _ => simp [stops]
  | next h hw ih =>
    have hlt := L.headerAt_lt (E := E) hv (by simp [h])
    have hb := L.next_bounds hlt.2 ‹_›
    obtain ⟨hle, hp⟩ := ih hb.2
    refine ⟨fun x hx => ?_, List.Pairwise.cons (fun x hx => ?_) hp⟩
    · rcases List.mem_cons.1 hx with rfl | hx
      · exact le_rfl
      · have := hle x hx
        omega
    · have := hle x hx
      exact hb.1.trans this

/-- The walk goes on from any of its records. -/
theorem tail (hw : Walk E si v rs e) : ∀ {pre post : List VariableRecord} {r : VariableRecord},
    rs = pre ++ r :: post → Walk E si (getNextVariablePtr si r.ptr r.header) post e := by
  induction hw with
  | stop _ => intro pre post r h; simp at h
  | next _ hw ih =>
    intro pre post r h
    rcases pre with _ | ⟨p, pre⟩
    · rw [List.nil_append, List.cons.injEq] at h
      obtain ⟨rfl, rfl⟩ := h
      exact hw
    · rw [List.cons_append, List.cons.injEq] at h
      exact ih h.2

theorem unique {rs' : List VariableRecord} {e' : ℕ} (hw : Walk E si v rs e)
    (hw' : Walk E si v rs' e') : rs = rs' ∧ e = e' := by
  induction hw generalizing rs' e' with
  | stop h =>
    cases hw' with
    | stop _ => exact ⟨rfl, rfl⟩
    | next h' _ => simp [h] at h'
  | next h _ ih =>
    cases hw' with
    | stop h' => simp [h] at h'
    | next h' hw' =>
      rw [h, Option.some_inj] at h'
      subst h'
      obtain ⟨rfl, rfl⟩ := ih hw'
      exact ⟨rfl, rfl⟩

end Walk

end Walk

end Edk2Rk3576
