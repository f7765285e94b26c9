import Mathlib.Data.Set.Defs
import Mathlib.Logic.Function.Basic

/-!
# Registers behind a shadow

A driver that cannot read its registers back keeps a shadow of them. A write changes the shadow and
puts the new word on the bus. Writes of a register can be deferred: they stay in the shadow until
the register is flushed.
-/

/-- A write of a register, from what its shadow holds. -/
structure RegWrite (ι α : Type*) where
  offset : ι
  value : α → α

/-- What went over the bus is kept in `bus`, the last write first. -/
structure ShadowRegs (ι α : Type*) where
  shadow : ι → α
  deferred : Option ι
  bus : List (ι × α)

namespace ShadowRegs

variable {ι α : Type*} {r r' r'' : ShadowRegs ι α} {o o' : ι} {v : α} {s : Set ι}
  {w : RegWrite ι α} {ws : List (RegWrite ι α)}

/-- A write past the shadow. -/
def direct (r : ShadowRegs ι α) (o : ι) (v : α) : ShadowRegs ι α :=
  { r with bus := (o, v) :: r.bus }

def defer (r : ShadowRegs ι α) (o : ι) : ShadowRegs ι α := { r with deferred := some o }

/-- One write for all that were deferred. -/
def flush (r : ShadowRegs ι α) (o : ι) : ShadowRegs ι α where
  shadow := r.shadow
  deferred := none
  bus := (o, r.shadow o) :: r.bus

@[simp] theorem shadow_direct : (r.direct o v).shadow = r.shadow := rfl

@[simp] theorem deferred_direct : (r.direct o v).deferred = r.deferred := rfl

@[simp] theorem shadow_defer : (r.defer o).shadow = r.shadow := rfl

@[simp] theorem deferred_defer : (r.defer o).deferred = some o := rfl

@[simp] theorem shadow_flush : (r.flush o).shadow = r.shadow := rfl

@[simp] theorem deferred_flush : (r.flush o).deferred = none := rfl

variable [DecidableEq ι]

def write (r : ShadowRegs ι α) (o : ι) (v : α) : ShadowRegs ι α where
  shadow := Function.update r.shadow o v
  deferred := r.deferred
  bus := if r.deferred = some o then r.bus else (o, v) :: r.bus

/-- The writes are done in turn. -/
def writeAll (r : ShadowRegs ι α) (ws : List (RegWrite ι α)) : ShadowRegs ι α :=
  ws.foldl (fun r w => r.write w.offset (w.value (r.shadow w.offset))) r

/-- The words that went to a register, the last one first. -/
def written (r : ShadowRegs ι α) (o : ι) : List α :=
  r.bus.filterMap fun b => if b.1 = o then some b.2 else none

@[simp] theorem shadow_write : (r.write o v).shadow o' = if o' = o then v else r.shadow o' :=
  Function.update_apply _ _ _ _

@[simp] theorem deferred_write : (r.write o v).deferred = r.deferred := rfl

@[simp] theorem written_write : (r.write o v).written o' =
    if o' = o ∧ r.deferred ≠ some o then v :: r.written o' else r.written o' := by
  unfold write written
  by_cases hd : r.deferred = some o
  · simp [hd]
  · by_cases ho : o' = o
    · simp [hd, ho]
    · simp [hd, ho, Ne.symm ho]

@[simp] theorem written_direct : (r.direct o v).written o' =
    if o' = o then v :: r.written o' else r.written o' := by
  unfold direct written
  by_cases ho : o' = o
  · simp [ho]
  · simp [ho, Ne.symm ho]

@[simp] theorem written_defer : (r.defer o).written o' = r.written o' := rfl

@[simp] theorem written_flush : (r.flush o).written o' =
    if o' = o then r.shadow o :: r.written o' else r.written o' := written_direct

/-- The registers of a set are as they were, and so is what is deferred. -/
structure Leaves (s : Set ι) (r r' : ShadowRegs ι α) : Prop where
  shadow : ∀ o ∈ s, r'.shadow o = r.shadow o
  written : ∀ o ∈ s, r'.written o = r.written o
  deferred : r'.deferred = r.deferred

theorem Leaves.refl (s : Set ι) (r : ShadowRegs ι α) : Leaves s r r :=
  ⟨fun _ _ => rfl, fun _ _ => rfl, rfl⟩

theorem Leaves.trans (h : Leaves s r r') (h' : Leaves s r' r'') : Leaves s r r'' where
  shadow o ho := (h'.shadow o ho).trans (h.shadow o ho)
  written o ho := (h'.written o ho).trans (h.written o ho)
  deferred := h'.deferred.trans h.deferred

theorem Leaves.write (h : Leaves s r r') (ho : o ∉ s) : Leaves s r (r'.write o v) where
  shadow o' ho' := by
    have hne : o' ≠ o := fun heq => ho (heq ▸ ho')
    rw [shadow_write, if_neg hne, h.shadow o' ho']
  written o' ho' := by
    have hne : o' ≠ o := fun heq => ho (heq ▸ ho')
    rw [written_write, if_neg (fun hand => hne hand.1), h.written o' ho']
  deferred := h.deferred

theorem Leaves.direct (h : Leaves s r r') (ho : o ∉ s) : Leaves s r (r'.direct o v) where
  shadow := h.shadow
  written o' ho' := by
    have hne : o' ≠ o := fun heq => ho (heq ▸ ho')
    rw [written_direct, if_neg hne, h.written o' ho']
  deferred := h.deferred

theorem writeAll_cons :
    r.writeAll (w :: ws) = (r.write w.offset (w.value (r.shadow w.offset))).writeAll ws := rfl

theorem Leaves.writeAll (h : Leaves s r r') (hws : ∀ w ∈ ws, w.offset ∉ s) :
    Leaves s r (r'.writeAll ws) := by
  induction ws generalizing r' with
  | nil => exact h
  | cons w ws ih =>
    exact ih (h.write (hws w List.mem_cons_self)) fun w' hw' => hws w' (List.mem_cons_of_mem _ hw')

@[simp] theorem deferred_writeAll : (r.writeAll ws).deferred = r.deferred := by
  induction ws generalizing r with
  | nil => rfl
  | cons w ws ih => rw [writeAll_cons, ih, deferred_write]

/-- The writes of one register. -/
def writesTo (o : ι) (ws : List (RegWrite ι α)) : List (RegWrite ι α) :=
  ws.filter fun w => decide (w.offset = o)

@[simp] theorem writesTo_nil : writesTo o ([] : List (RegWrite ι α)) = [] := rfl

@[simp] theorem writesTo_cons : writesTo o (w :: ws)
    = if w.offset = o then w :: writesTo o ws else writesTo o ws := by
  simp [writesTo, List.filter_cons]

@[simp] theorem writesTo_append (ws ws' : List (RegWrite ι α)) :
    writesTo o (ws ++ ws') = writesTo o ws ++ writesTo o ws' := List.filter_append ..

theorem shadow_writeAll : (r.writeAll ws).shadow o
    = (writesTo o ws).foldl (fun c w => w.value c) (r.shadow o) := by
  induction ws generalizing r with
  | nil => rfl
  | cons w ws ih =>
    rw [writeAll_cons, ih, shadow_write, writesTo_cons]
    by_cases hw : w.offset = o
    · rw [if_pos hw, if_pos hw.symm, List.foldl_cons, hw]
    · rw [if_neg hw, if_neg (Ne.symm hw)]

/-- What is deferred does not go over the bus. -/
theorem written_writeAll_deferred (hd : r.deferred = some o) :
    (r.writeAll ws).written o = r.written o := by
  induction ws generalizing r with
  | nil => rfl
  | cons w ws ih =>
    have hw : ¬ (o = w.offset ∧ r.deferred ≠ some w.offset) := fun h => h.2 (h.1 ▸ hd)
    rw [writeAll_cons, ih (by rw [deferred_write, hd]), written_write, if_neg hw]

theorem written_writeAll_of_notMem (ho : writesTo o ws = []) :
    (r.writeAll ws).written o = r.written o := by
  refine (Leaves.writeAll (Leaves.refl {o} r) fun w hw hmem => ?_).written o rfl
  have := List.filter_eq_nil_iff.1 ho w hw
  exact this (decide_eq_true hmem)

theorem written_writeAll_once (hd : r.deferred ≠ some o) (ho : writesTo o ws = [w]) :
    (r.writeAll ws).written o = w.value (r.shadow o) :: r.written o := by
  induction ws generalizing r with
  | nil => cases ho
  | cons w' ws ih =>
    rw [writesTo_cons] at ho
    rw [writeAll_cons]
    by_cases hw : w'.offset = o
    · rw [if_pos hw, List.cons.injEq] at ho
      obtain ⟨rfl, hrest⟩ := ho
      rw [written_writeAll_of_notMem hrest, written_write, if_pos ⟨hw.symm, hw ▸ hd⟩, hw]
    · rw [if_neg hw] at ho
      have hne : o ≠ w'.offset := Ne.symm hw
      have hd' : (r.write w'.offset (w'.value (r.shadow w'.offset))).deferred ≠ some o := hd
      rw [ih hd' ho, shadow_write, written_write, if_neg hne, if_neg fun h => hne h.1]

end ShadowRegs
