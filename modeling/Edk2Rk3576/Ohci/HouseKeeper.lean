import Edk2Rk3576.Ohci.InterruptSpec

/-!
# The pass of the house keeper

The timer looks at the contexts one after the other. A transfer that is done is handed to its
callback and submitted again, one that failed ends the pass, and one the controller is not through
with is left alone.
-/

namespace Edk2Rk3576.Ohci

open Cells UnitPool

variable {a x : ℕ} {dev dev' dev'' : OhciDev}

section Resubmit

variable {update : ℕ → TdDescriptor → TdDescriptor} {last : TdDescriptor → TdDescriptor}
  {fuel toggle : ℕ} {l : List ℕ}

/-- A toggle that has flipped so often. -/
def toggleAt (toggle i : ℕ) : ℕ := if i % 2 = 0 then toggle else toggle ^^^ 1

theorem toggleAt_succ {i : ℕ} : toggleAt (toggle ^^^ 1) i = toggleAt toggle (i + 1) := by
  rw [toggleAt, toggleAt]
  rcases Nat.mod_two_eq_zero_or_one i with hi | hi
  · rw [if_pos hi, if_neg (by omega)]
  · rw [if_neg (by omega), if_pos (by omega), Nat.xor_assoc, Nat.xor_self, Nat.xor_zero]

/-- What the walk leaves of a list: all but the last are updated one way, the last the other. -/
structure Updated (update : ℕ → TdDescriptor → TdDescriptor) (last : TdDescriptor → TdDescriptor)
    (toggle : ℕ) (l : List ℕ) (dev dev' : OhciDev) : Prop where
  rest : dev' = { dev with td := dev'.td }
  others : ∀ x ∉ l, dev'.td x = dev.td x
  items : ∀ i x, l[i]? = some x →
    dev'.td x =
      if i + 1 < l.length then update (toggleAt toggle i) (dev.td x) else last (dev.td x)

theorem ohciUpdateTds_ok (h : Seg dev.nextTDPointer a l 0) (hnodup : l.Nodup) (hzero : 0 ∉ l)
    (hfuel : l.length < fuel) :
    ∃ dev', ohciUpdateTds update last fuel a toggle dev = .ok dev' ∧
      Updated update last toggle l dev dev' := by
  induction l generalizing a toggle dev fuel with
  | nil =>
    obtain ⟨fuel, rfl⟩ : ∃ k, fuel = k + 1 := ⟨fuel - 1, by omega⟩
    obtain rfl : a = 0 := h
    exact ⟨dev, rfl, rfl, fun _ _ => rfl, fun i x hx => absurd hx (by simp)⟩
  | cons x l ih =>
    rw [List.length_cons] at hfuel
    obtain ⟨fuel, rfl⟩ : ∃ k, fuel = k + 1 := ⟨fuel - 1, by omega⟩
    obtain ⟨rfl, hrest⟩ := h
    rw [List.nodup_cons] at hnodup
    rw [List.mem_cons, not_or] at hzero
    rw [ohciUpdateTds, if_neg (Ne.symm hzero.1)]
    cases l with
    | nil =>
      have hend : (dev.td a).nextTDPointer = 0 := hrest
      rw [if_pos hend]
      refine ⟨_, rfl, rfl, fun y hy => ?_, fun i y hy => ?_⟩
      · exact Function.update_of_ne (fun heq => hy (List.mem_singleton.2 heq)) _ _
      · obtain ⟨rfl, rfl⟩ : i = 0 ∧ y = a := by
          rcases i with _ | i
          · exact ⟨rfl, (Option.some.inj hy).symm⟩
          · simp at hy
        exact Function.update_self _ _ _
    | cons y l =>
      have hnext : (dev.td a).nextTDPointer = y := hrest.1
      have hy0 : y ≠ 0 := fun h0 => hzero.2 (h0 ▸ List.mem_cons_self)
      rw [if_neg (by rw [hnext]; exact hy0)]
      set dev₁ := dev.setTd a (update toggle (dev.td a)) with hdev₁
      have hothers : ∀ z, z ≠ a → dev₁.td z = dev.td z := fun z hz => Function.update_of_ne hz _ _
      have hseg : Seg dev₁.nextTDPointer (dev.td a).nextTDPointer (y :: l) 0 :=
        Seg.congr (fun z hz => congrArg TdDescriptor.nextTDPointer
          (hothers z fun heq => hnodup.1 (heq ▸ hz))) hrest
      obtain ⟨dev', hok, hupdated⟩ :=
        @ih (dev.td a).nextTDPointer dev₁ fuel (toggle ^^^ 1) hseg hnodup.2 hzero.2 (by omega)
      refine ⟨dev', hok, ?_, fun z hz => ?_, fun i z hz => ?_⟩
      · rw [hupdated.rest]
        rfl
      · rw [List.mem_cons, not_or] at hz
        rw [hupdated.others z hz.2, hothers z hz.1]
      · rcases i with _ | i
        · obtain rfl := (Option.some.inj hz).symm
          rw [hupdated.others z hnodup.1, if_pos (by rw [List.length_cons, List.length_cons]; omega)]
          exact Function.update_self _ _ _
        · have hmem : z ∈ y :: l := List.mem_of_getElem? hz
          rw [hupdated.items i z hz, hothers z fun heq => hnodup.1 (heq ▸ hmem), toggleAt_succ]
          have hlength : (a :: y :: l).length = (y :: l).length + 1 := rfl
          exact if_congr (by omega) rfl rfl

/-- A descriptor as it is submitted, with the toggle it is submitted with. -/
def TdDescriptor.renewed (toggle : ℕ) (td : TdDescriptor) : TdDescriptor :=
  { td.unlinked.fixed with
    dataToggle := (toggle ||| 2) % 2 ^ 2
    conditionCode := tdTobeProcessed
    currBufferPointer := td.dataBuffer }

theorem renewed_congr {td td' : TdDescriptor} (h : td.unlinked.fixed = td'.unlinked.fixed) :
    td.renewed toggle = td'.renewed toggle := by
  have hbuffer := congrArg TdDescriptor.dataBuffer h
  change td.dataBuffer = td'.dataBuffer at hbuffer
  rw [TdDescriptor.renewed, TdDescriptor.renewed, h, hbuffer]

variable {pidDir maxLen addr left : ℕ}

/-- The descriptors of a data stage are as they are submitted, with toggles that flip. -/
theorem dataTds_renewed {td : TdDescriptor} {i : ℕ}
    (h : (dataTds pidDir maxLen fuel toggle addr left)[i]? = some td) :
    td = td.renewed (toggleAt toggle i) := by
  induction fuel generalizing toggle addr left i with
  | zero => simp [dataTds] at h
  | succ fuel ih =>
    rw [dataTds] at h
    split_ifs at h
    · simp at h
    · rcases i with _ | i
      · obtain rfl := Option.some.inj h
        rfl
      · rw [List.getElem?_cons_succ] at h
        rw [← toggleAt_succ]
        exact ih h

/-- The toggle is all that the first toggle changes. -/
theorem dataTds_fixed (toggle' : ℕ) :
    (dataTds pidDir maxLen fuel toggle addr left).map TdDescriptor.fixed =
      (dataTds pidDir maxLen fuel toggle' addr left).map TdDescriptor.fixed := by
  induction fuel generalizing toggle toggle' addr left with
  | zero => rfl
  | succ fuel ih =>
    rw [dataTds, dataTds]
    split_ifs
    · rfl
    · rw [List.map_cons, List.map_cons, ih (toggle' ^^^ 1)]
      rfl

/-- A transfer that is submitted again: its descriptors are linked for the controller, and its
endpoint leads to the first. -/
structure Renewed (dev : OhciDev) (e : InterruptContextEntry) (l : List ℕ) (dev' : OhciDev) :
    Prop where
  ed : dev'.ed e.ed =
    { dev.ed e.ed with skip := 0, halted := 0, toggleCarry := 0, tdHeadPointer := e.dataTd / 2 ^ 4 }
  next : Seg dev'.nextTD e.dataTd l 0
  items : ∀ i x, l[i]? = some x → (dev'.td x).unlinked =
    if i + 1 < l.length then (dev.td x).renewed (toggleAt (dev.ed e.ed).toggleCarry i)
    else (dev.td x).unlinked.fixed

/-- What changes is only for the controller. -/
structure Keeps (dev dev' : OhciDev) : Prop where
  rest : dev' = { dev with ed := dev'.ed, td := dev'.td }
  place : ∀ x, (dev'.ed x).place = (dev.ed x).place
  fixed : ∀ x, (dev'.td x).fixed = (dev.td x).fixed

theorem Keeps.refl (dev : OhciDev) : Keeps dev dev := ⟨rfl, fun _ => rfl, fun _ => rfl⟩

theorem Keeps.trans {dev'' : OhciDev} (h : Keeps dev dev') (h' : Keeps dev' dev'') :
    Keeps dev dev'' :=
  ⟨by rw [h'.rest, h.rest], fun x => (h'.place x).trans (h.place x),
    fun x => (h'.fixed x).trans (h.fixed x)⟩

theorem ohciResubmit_ok {e : InterruptContextEntry} (h : Seg dev.nextTDPointer e.dataTd l 0)
    (hnodup : l.Nodup) (hzero : 0 ∉ l) (hfuel : l.length < chainFuel) (hne : e.dataTd ≠ 0)
    (hlt : e.dataTd < 2 ^ 32) :
    ∃ dev', ohciResubmit e dev = .ok dev' ∧ Renewed dev e l dev' ∧ Keeps dev dev' ∧
      (∀ y, y ≠ e.ed → dev'.ed y = dev.ed y) ∧ ∀ x ∉ l, dev'.td x = dev.td x := by
  set dev₁ := dev.setEd e.ed { dev.ed e.ed with skip := 1 } with hdev₁
  have hself₁ : dev₁.ed e.ed = { dev.ed e.ed with skip := 1 } := Function.update_self _ _ _
  obtain ⟨dev₂, htoggle, hupdated₂⟩ : ∃ dev₂,
      ohciToggleTds e.dataTd (dev.ed e.ed).toggleCarry dev₁ = .ok dev₂ ∧
        Updated toggleTd toggleLastTd (dev.ed e.ed).toggleCarry l dev₁ dev₂ :=
    ohciUpdateTds_ok h hnodup hzero hfuel
  have hpointer₂ : ∀ x, (dev₂.td x).nextTDPointer = (dev.td x).nextTDPointer := fun x => by
    by_cases hx : x ∈ l
    · obtain ⟨i, hi⟩ := List.mem_iff_getElem?.1 hx
      rw [hupdated₂.items i x hi]
      split_ifs <;> rfl
    · rw [hupdated₂.others x hx]
      rfl
  obtain ⟨dev₃, hrenew, hupdated₃⟩ : ∃ dev₃, ohciRenewTds e.dataTd dev₂ = .ok dev₃ ∧
      Updated renewTd renewLastTd 0 l dev₂ dev₃ :=
    ohciUpdateTds_ok (h.congr fun x _ => hpointer₂ x) hnodup hzero hfuel
  have hed₃ : dev₃.ed = dev₁.ed := by rw [hupdated₃.rest, hupdated₂.rest]
  -- what both walks have made of an item
  have hitems : ∀ i x, l[i]? = some x → dev₃.td x =
      if i + 1 < l.length then renewTd 0 (toggleTd (toggleAt (dev.ed e.ed).toggleCarry i) (dev.td x))
      else renewLastTd (toggleLastTd (dev.td x)) := fun i x hx => by
    rw [hupdated₃.items i x hx, hupdated₂.items i x hx]
    split_ifs <;> rfl
  have hothers : ∀ x ∉ l, dev₃.td x = dev.td x := fun x hx => by
    rw [hupdated₃.others x hx, hupdated₂.others x hx]
    rfl
  have hself : (dev₃.setEd e.ed (activateEd e.dataTd (dev₃.ed e.ed))).ed e.ed = { dev.ed e.ed with
      skip := 0, halted := 0, toggleCarry := 0, tdHeadPointer := e.dataTd / 2 ^ 4 } := by
    change Function.update dev₃.ed e.ed _ e.ed = _
    have hpointer : e.dataTd / 2 ^ 4 % 2 ^ 28 = e.dataTd / 2 ^ 4 := Nat.mod_eq_of_lt (by omega)
    rw [Function.update_self, hed₃, hself₁, ← hpointer]
    rfl
  have heds : ∀ y, y ≠ e.ed →
      (dev₃.setEd e.ed (activateEd e.dataTd (dev₃.ed e.ed))).ed y = dev.ed y := fun y hy => by
    change Function.update dev₃.ed e.ed _ y = _
    rw [Function.update_of_ne hy, hed₃]
    exact Function.update_of_ne hy _ _
  refine ⟨dev₃.setEd e.ed (activateEd e.dataTd (dev₃.ed e.ed)), ?_, ⟨hself, ?_, fun i x hx => ?_⟩,
    ⟨?_, fun y => ?_, fun x => ?_⟩, heds, hothers⟩
  · rw [ohciResubmit]
    simp only [if_pos hne]
    change (ohciToggleTds e.dataTd (dev₁.ed e.ed).toggleCarry dev₁ >>= _) = _
    rw [hself₁, htoggle]
    change (ohciRenewTds e.dataTd dev₂ >>= _) = _
    rw [hrenew]
    rfl
  · -- the links of the controller are those of the driver again
    refine h.congr fun x hx => ?_
    obtain ⟨i, hi⟩ := List.mem_iff_getElem?.1 hx
    change (dev₃.td x).nextTD = dev.nextTDPointer x
    obtain ⟨hlt, -⟩ := List.getElem?_eq_some_iff.1 hi
    rw [hitems i x hi]
    split_ifs
    · rfl
    · rw [h.last hi (by omega)]
      rfl
  · change (dev₃.td x).unlinked = _
    rw [hitems i x hx]
    split_ifs <;> rfl
  · rw [hupdated₃.rest, hupdated₂.rest]
    rfl
  · by_cases hy : y = e.ed
    · rw [hy, hself]
      rfl
    · rw [heds y hy]
  · change (dev₃.td x).fixed = _
    by_cases hx : x ∈ l
    · obtain ⟨i, hi⟩ := List.mem_iff_getElem?.1 hx
      rw [hitems i x hi]
      split_ifs <;> rfl
    · rw [hothers x hx]

/-- The descriptors of a transfer that is submitted again are those of a new one. -/
theorem Renewed.pieces {e : InterruptContextEntry} (h : Renewed dev e l dev')
    (hpieces : l.map (fun x => (dev.td x).unlinked.fixed) =
      (dataTds pidDir maxLen fuel toggle addr left ++ [emptyTd.unlinked]).map TdDescriptor.fixed) :
    l.map (fun x => (dev'.td x).unlinked) =
      dataTds pidDir maxLen fuel (dev.ed e.ed).toggleCarry addr left ++ [emptyTd.unlinked] := by
  set carry := (dev.ed e.ed).toggleCarry with hcarry
  rw [List.map_append, dataTds_fixed carry, ← List.map_append] at hpieces
  have hlength := congrArg List.length hpieces
  rw [List.length_map, List.length_map, List.length_append, List.length_singleton] at hlength
  refine List.ext_getElem? fun i => ?_
  rw [List.getElem?_map]
  have hfixed := congrArg (fun l => l[i]?) hpieces
  simp only [List.getElem?_map] at hfixed
  rcases hx : l[i]? with _ | x
  · rw [hx] at hfixed
    rcases htd : (dataTds pidDir maxLen fuel carry addr left ++ [emptyTd.unlinked])[i]? with _ | td
    · rfl
    · rw [htd] at hfixed
      cases hfixed
  · rw [hx] at hfixed
    rcases htd : (dataTds pidDir maxLen fuel carry addr left ++ [emptyTd.unlinked])[i]? with _ | td
    · rw [htd] at hfixed
      cases hfixed
    · rw [htd] at hfixed
      have hsame : (dev.td x).unlinked.fixed = td.fixed := Option.some.inj hfixed
      obtain ⟨hbound, -⟩ := List.getElem?_eq_some_iff.1 hx
      refine congrArg some ?_
      change (dev'.td x).unlinked = td
      rw [h.items i x hx]
      split_ifs with hlt
      · rw [List.getElem?_append_left (by omega)] at htd
        have hrenewed := dataTds_renewed htd
        have hlinks : td.fixed = td.unlinked.fixed := (congrArg TdDescriptor.fixed hrenewed).trans rfl
        exact (renewed_congr (hsame.trans hlinks)).trans hrenewed.symm
      · rw [List.getElem?_append_right (by omega),
          show i - (dataTds pidDir maxLen fuel carry addr left).length = 0 by omega] at htd
        rw [hsame, ← Option.some.inj htd]
        rfl

end Resubmit

section Pass

variable {tds : ℕ → List ℕ} {l : List ℕ} {fuel : ℕ} {e : InterruptContextEntry}
  {entries : List InterruptContextEntry}

/-- What the descriptors of a list come to. -/
def tdsResult (dev : OhciDev) (l : List ℕ) : ℕ :=
  ((l.map fun x => convertErrorCode (dev.td x).conditionCode).find? (· ≠ 0)).getD efiUsbNoError

theorem ohciCheckTDsResults_ok (h : Seg dev.nextTDPointer a l 0) (hzero : 0 ∉ l)
    (hfuel : l.length < fuel) : ohciCheckTDsResults dev fuel a = .ok (tdsResult dev l) := by
  induction l generalizing a fuel with
  | nil =>
    obtain ⟨fuel, rfl⟩ : ∃ k, fuel = k + 1 := ⟨fuel - 1, by omega⟩
    obtain rfl : a = 0 := h
    rfl
  | cons x l ih =>
    rw [List.length_cons] at hfuel
    obtain ⟨fuel, rfl⟩ : ∃ k, fuel = k + 1 := ⟨fuel - 1, by omega⟩
    obtain ⟨rfl, hrest⟩ := h
    rw [List.mem_cons, not_or] at hzero
    rw [ohciCheckTDsResults, if_neg (Ne.symm hzero.1), tdsResult, List.map_cons, List.find?_cons]
    split_ifs with hcode
    · rw [decide_eq_true hcode]
      rfl
    · rw [decide_eq_false hcode]
      exact ih hrest hzero.2 (by omega)

theorem convertErrorCode_eq_zero {code : ℕ} : convertErrorCode code = 0 ↔ code = 0 := by
  constructor
  · intro h
    unfold convertErrorCode at h
    split at h <;> first | rfl | cases h
  · rintro rfl
    rfl

/-- No error and nothing left to do is that every descriptor has ended without one. -/
theorem tdsResult_eq_zero : tdsResult dev l = 0 ↔ ∀ x ∈ l, (dev.td x).conditionCode = 0 := by
  induction l with
  | nil => simp [tdsResult, efiUsbNoError]
  | cons x l ih =>
    rw [tdsResult, List.map_cons, List.find?_cons, List.forall_mem_cons, ← ih]
    by_cases hcode : convertErrorCode (dev.td x).conditionCode = 0
    · rw [decide_eq_false (fun h => h hcode), and_iff_right (convertErrorCode_eq_zero.1 hcode)]
      rfl
    · rw [decide_eq_true hcode]
      exact iff_of_false hcode fun h => hcode (convertErrorCode_eq_zero.2 h.1)

/-- The controller is not through with the transfer, or its endpoint stalls. -/
def InterruptContextEntry.Waits (result : ℕ) : Prop :=
  result &&& efiUsbErrStall = efiUsbErrStall ∨ result &&& efiUsbErrNotExecute = efiUsbErrNotExecute

instance (result : ℕ) : Decidable (InterruptContextEntry.Waits result) :=
  inferInstanceAs (Decidable (_ ∨ _))

/-- A transfer that a pass has not touched. -/
structure Untouched (dev dev' : OhciDev) (e : InterruptContextEntry) (l : List ℕ) : Prop where
  ed : dev'.ed e.ed = dev.ed e.ed
  tds : ∀ x ∈ l, dev'.td x = dev.td x

theorem Untouched.trans (h : Untouched dev dev' e l) (h' : Untouched dev' dev'' e l) :
    Untouched dev dev'' e l :=
  ⟨h'.ed.trans h.ed, fun x hx => (h'.tds x hx).trans (h.tds x hx)⟩

theorem Untouched.result (h : Untouched dev dev' e l) : tdsResult dev' l = tdsResult dev l := by
  rw [tdsResult, tdsResult]
  congr 2
  exact List.map_congr_left fun x hx => by rw [h.tds x hx]

theorem Renewed.before (h : Renewed dev' e l dev'') (hsame : Untouched dev dev' e l) :
    Renewed dev e l dev'' where
  ed := by rw [h.ed, hsame.ed]
  next := h.next
  items := fun i x hx => by
    rw [h.items i x hx, hsame.ed, hsame.tds x (List.mem_of_getElem? hx)]

theorem Renewed.after (h : Renewed dev e l dev') (hsame : Untouched dev' dev'' e l) :
    Renewed dev e l dev'' where
  ed := by rw [hsame.ed, h.ed]
  next := h.next.congr fun x hx => by rw [OhciDev.nextTD, hsame.tds x hx, OhciDev.nextTD]
  items := fun i x hx => by
    rw [hsame.tds x (List.mem_of_getElem? hx), h.items i x hx]

/-- What a pass does: the transfers that are done come to their callbacks in order and are submitted
again, up to the first one that failed. That one comes to its callback, and with it the priority
level stays raised. -/
structure Passed (tds : ℕ → List ℕ) (entries : List InterruptContextEntry) (dev : OhciDev)
    (reports : List InterruptReport) (restored : Bool) (dev' : OhciDev)
    (served rest : List InterruptContextEntry) : Prop where
  settled : entries.filter
    (fun e => ¬ InterruptContextEntry.Waits (tdsResult dev (tds e.dataTd))) = served ++ rest
  done : ∀ e ∈ served, tdsResult dev (tds e.dataTd) = efiUsbNoError
  failed : ∀ e ∈ rest.head?, tdsResult dev (tds e.dataTd) ≠ efiUsbNoError
  reports : reports = (served ++ rest.head?.toList).map fun e =>
    ohciInvokeInterruptCallBack dev e (tdsResult dev (tds e.dataTd))
  restored : restored = rest.isEmpty
  keeps : Keeps dev dev'
  renewed : ∀ e ∈ served, Renewed dev e (tds e.dataTd) dev'
  untouched : ∀ e ∈ entries, e ∉ served → Untouched dev dev' e (tds e.dataTd)
  frame : (∀ y, (∀ e ∈ entries, y ≠ e.ed) → dev'.ed y = dev.ed y) ∧
    ∀ x, (∀ e ∈ entries, x ∉ tds e.dataTd) → dev'.td x = dev.td x

/-- A transfer whose descriptors can be walked. -/
structure Walkable (dev : OhciDev) (e : InterruptContextEntry) (l : List ℕ) : Prop where
  pointer : Seg dev.nextTDPointer e.dataTd l 0
  nodup : l.Nodup
  nonzero : 0 ∉ l
  length : l.length < chainFuel
  ed_ne_zero : e.ed ≠ 0
  dataTd_mem : e.dataTd ∈ l
  dataTd_lt : e.dataTd < 2 ^ 32

theorem Walkable.congr (h : Walkable dev e l) (hsame : Untouched dev dev' e l) :
    Walkable dev' e l :=
  ⟨h.pointer.congr fun x hx => congrArg TdDescriptor.nextTDPointer (hsame.tds x hx), h.nodup,
    h.nonzero, h.length, h.ed_ne_zero, h.dataTd_mem, h.dataTd_lt⟩

theorem Untouched.report {result : ℕ} (h : Untouched dev dev' e l) (hmem : e.dataTd ∈ l) :
    ohciInvokeInterruptCallBack dev' e result = ohciInvokeInterruptCallBack dev e result := by
  rw [ohciInvokeInterruptCallBack, ohciInvokeInterruptCallBack, h.tds _ hmem]

theorem Untouched.refl (dev : OhciDev) (e : InterruptContextEntry) (l : List ℕ) :
    Untouched dev dev e l := ⟨rfl, fun _ _ => rfl⟩

/-- The transfers have their endpoints and descriptors to themselves. -/
def ApartFrom (tds : ℕ → List ℕ) (e e' : InterruptContextEntry) : Prop :=
  e.ed ≠ e'.ed ∧ (tds e.dataTd).Disjoint (tds e'.dataTd)

variable {reports : List InterruptReport} {restored : Bool}
  {served rest : List InterruptContextEntry}

theorem Passed.mem_served (h : Passed tds entries dev reports restored dev' served rest) :
    ∀ e ∈ served, e ∈ entries := fun e he => by
  have hmem : e ∈ served ++ rest := List.mem_append_left _ he
  rw [← h.settled] at hmem
  exact (List.mem_filter.1 hmem).1

theorem Passed.mem_rest (h : Passed tds entries dev reports restored dev' served rest) :
    ∀ e ∈ rest, e ∈ entries := fun e he => by
  have hmem : e ∈ served ++ rest := List.mem_append_right _ he
  rw [← h.settled] at hmem
  exact (List.mem_filter.1 hmem).1

/-- A context that waits is passed over. -/
theorem Passed.skip (h : Passed tds entries dev reports restored dev' served rest)
    (hapart : ∀ e' ∈ entries, ApartFrom tds e e')
    (hwaits : InterruptContextEntry.Waits (tdsResult dev (tds e.dataTd))) :
    Passed tds (e :: entries) dev reports restored dev' served rest where
  settled := by
    rw [List.filter_cons_of_neg (by simpa using hwaits), h.settled]
  done := h.done
  failed := h.failed
  reports := h.reports
  restored := h.restored
  keeps := h.keeps
  renewed := h.renewed
  untouched := List.forall_mem_cons.2
    ⟨fun _ => ⟨h.frame.1 _ fun e' he' => (hapart e' he').1,
      fun x hx => h.frame.2 x fun e' he' hx' => (hapart e' he').2 hx hx'⟩, h.untouched⟩
  frame := ⟨fun y hy => h.frame.1 y fun e' he' => hy e' (List.mem_cons_of_mem _ he'),
    fun x hx => h.frame.2 x fun e' he' => hx e' (List.mem_cons_of_mem _ he')⟩

/-- A context that is done is served. -/
theorem Passed.serve (h : Passed tds entries dev' reports restored dev'' served rest)
    (hwalk : ∀ e' ∈ entries, Walkable dev e' (tds e'.dataTd))
    (hapart : ∀ e' ∈ entries, ApartFrom tds e e')
    (hresult : tdsResult dev (tds e.dataTd) = efiUsbNoError)
    (hrenewed : Renewed dev e (tds e.dataTd) dev') (hkeeps : Keeps dev dev')
    (heds : ∀ y, y ≠ e.ed → dev'.ed y = dev.ed y)
    (htds : ∀ x ∉ tds e.dataTd, dev'.td x = dev.td x) :
    Passed tds (e :: entries) dev
      (ohciInvokeInterruptCallBack dev e (tdsResult dev (tds e.dataTd)) :: reports) restored dev''
      (e :: served) rest := by
  have hsame : ∀ e' ∈ entries, Untouched dev dev' e' (tds e'.dataTd) := fun e' he' =>
    ⟨heds _ (Ne.symm (hapart e' he').1), fun x hx => htds x fun hx' => (hapart e' he').2 hx' hx⟩
  have hbehind : Untouched dev' dev'' e (tds e.dataTd) :=
    ⟨h.frame.1 _ fun e' he' => (hapart e' he').1,
      fun x hx => h.frame.2 x fun e' he' hx' => (hapart e' he').2 hx hx'⟩
  have hnotWaits : ¬ InterruptContextEntry.Waits (tdsResult dev (tds e.dataTd)) := by
    rw [hresult]
    decide
  refine ⟨?_, List.forall_mem_cons.2 ⟨hresult, fun e' he' => ?_⟩, fun e' he' => ?_, ?_, h.restored,
    hkeeps.trans h.keeps, List.forall_mem_cons.2 ⟨hrenewed.after hbehind, fun e' he' => ?_⟩,
    List.forall_mem_cons.2 ⟨fun hnot => absurd List.mem_cons_self hnot, fun e' he' hnot => ?_⟩,
    fun y hy => ?_, fun x hx => ?_⟩
  · rw [List.filter_cons_of_pos (by simpa using hnotWaits), List.cons_append, ← h.settled]
    congr 1
    exact List.filter_congr fun e' he' => by rw [(hsame e' he').result]
  · rw [← (hsame e' (h.mem_served e' he')).result]
    exact h.done e' he'
  · rw [← (hsame e' (h.mem_rest e' (List.mem_of_mem_head? he'))).result]
    exact h.failed e' he'
  · rw [List.cons_append, List.map_cons, h.reports]
    congr 1
    refine List.map_congr_left fun e' he' => ?_
    have hmem : e' ∈ entries := by
      rcases List.mem_append.1 he' with he' | he'
      · exact h.mem_served e' he'
      · exact h.mem_rest e' (List.mem_of_mem_head? (Option.mem_toList.1 he'))
    rw [(hsame e' hmem).result, (hsame e' hmem).report (hwalk e' hmem).dataTd_mem]
  · exact (h.renewed e' he').before (hsame e' (h.mem_served e' he'))
  · rw [List.mem_cons, not_or] at hnot
    exact (hsame e' he').trans (h.untouched e' he' hnot.2)
  · rw [List.forall_mem_cons] at hy
    rw [h.frame.1 y hy.2, heds y hy.1]
  · rw [List.forall_mem_cons] at hx
    rw [h.frame.2 x hx.2, htds x hx.1]

theorem ohciHouseKeep_ok (hwalk : ∀ e ∈ entries, Walkable dev e (tds e.dataTd))
    (hapart : entries.Pairwise (ApartFrom tds)) :
    ∃ reports restored dev' served rest,
      ohciHouseKeep entries dev = .ok (reports, restored, dev') ∧
        Passed tds entries dev reports restored dev' served rest := by
  induction entries generalizing dev with
  | nil =>
    exact ⟨[], true, dev, [], [], rfl, rfl, nofun, nofun, rfl, rfl, .refl dev, nofun, nofun,
      fun _ _ => rfl, fun _ _ => rfl⟩
  | cons e entries ih =>
    rw [List.forall_mem_cons] at hwalk
    obtain ⟨he, hwalk⟩ := hwalk
    rw [List.pairwise_cons] at hapart
    obtain ⟨heapart, hapart⟩ := hapart
    have hcheck := ohciCheckTDsResults_ok he.pointer he.nonzero he.length
    rw [ohciHouseKeep, hcheck]
    change ∃ reports restored dev' served rest,
      (if InterruptContextEntry.Waits (tdsResult dev (tds e.dataTd)) then _ else _) = _ ∧ _
    by_cases hwaits : InterruptContextEntry.Waits (tdsResult dev (tds e.dataTd))
    · obtain ⟨reports, restored, dev', served, rest, hok, hpassed⟩ := ih hwalk hapart
      rw [if_pos hwaits]
      exact ⟨reports, restored, dev', served, rest, hok, hpassed.skip heapart hwaits⟩
    rw [if_neg hwaits]
    by_cases hresult : tdsResult dev (tds e.dataTd) = efiUsbNoError
    · have hne : e.dataTd ≠ 0 := fun h0 => he.nonzero (h0 ▸ he.dataTd_mem)
      obtain ⟨dev₁, hresubmit, hrenewed, hkeeps, heds, htds⟩ :=
        ohciResubmit_ok he.pointer he.nodup he.nonzero he.length hne he.dataTd_lt
      have hwalk₁ : ∀ e' ∈ entries, Walkable dev₁ e' (tds e'.dataTd) := fun e' he' =>
        (hwalk e' he').congr ⟨heds _ (Ne.symm (heapart e' he').1),
          fun x hx => htds x fun hx' => (heapart e' he').2 hx' hx⟩
      obtain ⟨reports, restored, dev', served, rest, hok, hpassed⟩ := ih hwalk₁ hapart
      refine ⟨_, restored, dev', e :: served, rest, ?_,
        hpassed.serve hwalk heapart hresult hrenewed hkeeps heds htds⟩
      rw [if_pos ⟨hresult, he.ed_ne_zero⟩, hresubmit]
      change (ohciHouseKeep entries dev₁ >>= _) = _
      rw [hok]
      rfl
    · refine ⟨_, false, dev, [], e :: entries.filter
        (fun e => ¬ InterruptContextEntry.Waits (tdsResult dev (tds e.dataTd))),
        if_neg fun h => hresult h.1, ?_, nofun, ?_, rfl, rfl, .refl dev, nofun,
        fun e' _ _ => .refl dev e' _, fun _ _ => rfl, fun _ _ => rfl⟩
      · rw [List.filter_cons_of_pos (by simpa using hwaits)]
        rfl
      · intro e' he'
        obtain rfl := Option.some.inj he'
        exact hresult

end Pass

end Edk2Rk3576.Ohci
