import Edk2Rk3576.Lib.ShadowRegs
import Mathlib.Data.List.Basic

/-!
# A shadow that stands for the registers

What the hardware holds in a register is the word that went to it last. With registers that can be
read back, an edit is of what the hardware holds. A driver that edits a shadow puts the same words
on the bus as long as nothing that goes past the shadow changes what an edit depends on: the two
words of a register, the shadow's and the hardware's, may differ by a relation that no edit sees.
-/

/-- What a driver does with its registers. `past` edits what the hardware holds. -/
inductive RegStep (ι α : Type*)
  | edit (w : RegWrite ι α)
  | past (w : RegWrite ι α)
  | defer (o : ι)
  | flush (o : ι)
  | load (shadow : ι → α)

/-- Registers that can be read back, with the edits of one that is deferred. -/
structure ReadBackRegs (ι α : Type*) where
  pending : Option (ι × α)
  bus : List (ι × α)

variable {ι α : Type*} [DecidableEq ι] {h : ι → α} {r : ShadowRegs ι α} {m : ReadBackRegs ι α}
  {s : RegStep ι α} {ss ts : List (RegStep ι α)} {w : RegWrite ι α} {ws : List (RegWrite ι α)}
  {o o' : ι} {v : α} {R : ι → α → α → Prop}

/-- The hardware's word, `h` where nothing went. -/
def held (h : ι → α) (bus : List (ι × α)) (o : ι) : α :=
  (bus.filterMap fun b => if b.1 = o then some b.2 else none).headD (h o)

theorem held_cons {b : ι × α} {bus : List (ι × α)} :
    held h (b :: bus) o = if b.1 = o then b.2 else held h bus o := by
  unfold held
  split_ifs with hb
  · simp [hb]
  · simp [hb]

namespace ReadBackRegs

def push (m : ReadBackRegs ι α) (o : ι) (v : α) : ReadBackRegs ι α :=
  { m with bus := (o, v) :: m.bus }

/-- An edit reads the register and writes it, unless it is deferred. -/
def step (h : ι → α) (m : ReadBackRegs ι α) : RegStep ι α → ReadBackRegs ι α
  | .edit w =>
    match m.pending with
    | some (o, c) =>
      if w.offset = o then { m with pending := some (o, w.value c) }
      else m.push w.offset (w.value (held h m.bus w.offset))
    | none => m.push w.offset (w.value (held h m.bus w.offset))
  | .past w => m.push w.offset (w.value (held h m.bus w.offset))
  | .defer o => { m with pending := some (o, held h m.bus o) }
  | .flush o =>
    match m.pending with
    | some (_, c) => ⟨none, (o, c) :: m.bus⟩
    | none => ⟨none, (o, held h m.bus o) :: m.bus⟩
  | .load _ => m

def steps (h : ι → α) (m : ReadBackRegs ι α) (ss : List (RegStep ι α)) : ReadBackRegs ι α :=
  ss.foldl (step h) m

@[simp] theorem steps_nil : m.steps h [] = m := rfl

@[simp] theorem steps_cons : m.steps h (s :: ss) = (m.step h s).steps h ss := rfl

theorem steps_append : m.steps h (ss ++ ts) = (m.steps h ss).steps h ts := List.foldl_append

end ReadBackRegs

namespace ShadowRegs

def step (h : ι → α) (r : ShadowRegs ι α) : RegStep ι α → ShadowRegs ι α
  | .edit w => r.write w.offset (w.value (r.shadow w.offset))
  | .past w => r.direct w.offset (w.value (held h r.bus w.offset))
  | .defer o => r.defer o
  | .flush o => r.flush o
  | .load shadow => { r with shadow := shadow }

def steps (h : ι → α) (r : ShadowRegs ι α) (ss : List (RegStep ι α)) : ShadowRegs ι α :=
  ss.foldl (step h) r

@[simp] theorem steps_nil : r.steps h [] = r := rfl

@[simp] theorem steps_cons : r.steps h (s :: ss) = (r.step h s).steps h ss := rfl

theorem steps_append : r.steps h (ss ++ ts) = (r.steps h ss).steps h ts := List.foldl_append

theorem steps_edits : r.steps h (ws.map RegStep.edit) = r.writeAll ws := List.foldl_map

/-- The same register is deferred. -/
def SameDeferred (r : ShadowRegs ι α) (m : ReadBackRegs ι α) : Prop :=
  r.deferred = m.pending.map Prod.fst

theorem SameDeferred.step (hd : SameDeferred r m) : SameDeferred (r.step h s) (m.step h s) := by
  unfold SameDeferred at hd ⊢
  cases s with
  | edit w =>
    rcases hm : m.pending with _ | ⟨o, c⟩ <;> rw [hm] at hd
    · simp [ShadowRegs.step, ReadBackRegs.step, ReadBackRegs.push, hm, hd]
    · by_cases hw : w.offset = o
      · simp [ShadowRegs.step, ReadBackRegs.step, hm, hw, hd]
      · simp [ShadowRegs.step, ReadBackRegs.step, ReadBackRegs.push, hm, hw, hd]
  | past w => exact hd
  | defer o => rfl
  | flush o => rcases hm : m.pending with _ | ⟨o, c⟩ <;> simp [ShadowRegs.step, ReadBackRegs.step, hm]
  | load shadow => exact hd

theorem SameDeferred.steps (hd : SameDeferred r m) :
    SameDeferred (r.steps h ss) (m.steps h ss) := by
  induction ss generalizing r m with
  | nil => exact hd
  | cons s ss ih => exact ih hd.step

/-- What went over the bus before is still to be seen on it. -/
theorem bus_eq_of_step (hd : SameDeferred r m) (hbus : (r.step h s).bus = (m.step h s).bus) :
    r.bus = m.bus := by
  unfold SameDeferred at hd
  cases s with
  | edit w =>
    rcases hm : m.pending with _ | ⟨o, c⟩ <;> rw [hm] at hd
    · simp only [ShadowRegs.step, write, hd, ReadBackRegs.step, hm, ReadBackRegs.push,
        Option.map_none, reduceCtorEq, if_false] at hbus
      exact (List.cons.inj hbus).2
    · by_cases hw : w.offset = o
      · simpa [ShadowRegs.step, write, hd, ReadBackRegs.step, hm, hw] using hbus
      · have hne : r.deferred ≠ some w.offset := by
          rw [hd]
          exact fun heq => hw (Option.some.inj heq).symm
        simp only [ShadowRegs.step, write, if_neg hne, ReadBackRegs.step, hm, if_neg hw,
          ReadBackRegs.push] at hbus
        exact (List.cons.inj hbus).2
  | past w => exact (List.cons.inj hbus).2
  | defer o => exact hbus
  | flush o =>
    rcases hm : m.pending with _ | ⟨o', c⟩
    · simp only [ShadowRegs.step, flush, ReadBackRegs.step, hm] at hbus
      exact (List.cons.inj hbus).2
    · simp only [ShadowRegs.step, flush, ReadBackRegs.step, hm] at hbus
      exact (List.cons.inj hbus).2
  | load shadow => exact hbus

theorem bus_eq_of_steps (hd : SameDeferred r m) (hbus : (r.steps h ss).bus = (m.steps h ss).bus) :
    r.bus = m.bus := by
  induction ss generalizing r m with
  | nil => exact hbus
  | cons s ss ih => exact bus_eq_of_step hd (ih hd.step hbus)

end ShadowRegs

/-- The relation is all that an edit of the shadow needs, and an edit of the hardware keeps it. -/
def RegStep.Safe (R : ι → α → α → Prop) : RegStep ι α → Prop
  | .edit w => ∀ a b, R w.offset a b → w.value a = w.value b
  | .past w => ∀ a b, R w.offset a b → R w.offset a (w.value b)
  | _ => False

/-- The same words went over the bus, and the two words of each register are related. -/
structure Coupled (R : ι → α → α → Prop) (h : ι → α) (r : ShadowRegs ι α)
    (m : ReadBackRegs ι α) : Prop where
  bus : r.bus = m.bus
  deferred : r.deferred = none
  pending : m.pending = none
  near : ∀ o, R o (r.shadow o) (held h r.bus o)

theorem Coupled.same (hc : Coupled R h r m) : r.SameDeferred m := by
  unfold ShadowRegs.SameDeferred
  rw [hc.deferred, hc.pending]
  rfl

theorem Coupled.step (hc : Coupled R h r m) (hrefl : ∀ o v, R o v v) (hs : s.Safe R) :
    Coupled R h (r.step h s) (m.step h s) := by
  cases s with
  | edit w =>
    have heq : w.value (r.shadow w.offset) = w.value (held h m.bus w.offset) := by
      rw [← hc.bus]
      exact hs _ _ (hc.near w.offset)
    have hnone : r.deferred ≠ some w.offset := by
      rw [hc.deferred]
      exact fun h => nomatch h
    refine ⟨?_, hc.deferred, ?_, fun o => ?_⟩
    · simp [ShadowRegs.step, ShadowRegs.write, if_neg hnone, ReadBackRegs.step, hc.pending,
        ReadBackRegs.push, heq, hc.bus]
    · simp [ReadBackRegs.step, hc.pending, ReadBackRegs.push]
    · simp only [ShadowRegs.step, ShadowRegs.write, if_neg hnone, Function.update_apply, held_cons]
      by_cases ho : o = w.offset
      · rw [if_pos ho, if_pos ho.symm]
        exact hrefl _ _
      · rw [if_neg ho, if_neg (Ne.symm ho)]
        exact hc.near o
  | past w =>
    refine ⟨?_, hc.deferred, hc.pending, fun o => ?_⟩
    · simp [ShadowRegs.step, ShadowRegs.direct, ReadBackRegs.step, ReadBackRegs.push, hc.bus]
    · simp only [ShadowRegs.step, ShadowRegs.direct, held_cons]
      by_cases ho : w.offset = o
      · rw [if_pos ho, ← ho]
        exact hs _ _ (hc.near w.offset)
      · rw [if_neg ho]
        exact hc.near o
  | defer o => exact hs.elim
  | flush o => exact hs.elim
  | load shadow => exact hs.elim

theorem Coupled.steps (hc : Coupled R h r m) (hrefl : ∀ o v, R o v v) (hss : ∀ s ∈ ss, s.Safe R) :
    Coupled R h (r.steps h ss) (m.steps h ss) := by
  induction ss generalizing r m with
  | nil => exact hc
  | cons s ss ih =>
    exact ih (hc.step hrefl (hss s List.mem_cons_self)) fun t ht =>
      hss t (List.mem_cons_of_mem _ ht)

/-- As `Coupled`, while `o` is deferred: `a` is in its shadow and `c` is pending. -/
structure Deferring (R : ι → α → α → Prop) (h : ι → α) (o : ι) (a c : α) (r : ShadowRegs ι α)
    (m : ReadBackRegs ι α) : Prop where
  bus : r.bus = m.bus
  deferred : r.deferred = some o
  pending : m.pending = some (o, c)
  shadow : r.shadow o = a
  near : ∀ o' ≠ o, R o' (r.shadow o') (held h r.bus o')

variable {a c : α}

theorem Coupled.defer (hc : Coupled R h r m) (o : ι) :
    Deferring R h o (r.shadow o) (held h m.bus o) (r.step h (.defer o)) (m.step h (.defer o)) :=
  ⟨hc.bus, rfl, rfl, rfl, fun o' _ => hc.near o'⟩

/-- An edit of the deferred register is of the two words, another one is as before. -/
theorem Deferring.edit (hd : Deferring R h o a c r m) (hrefl : ∀ o v, R o v v)
    (hw : w.offset ≠ o → (RegStep.edit w).Safe R) :
    Deferring R h o (if w.offset = o then w.value a else a) (if w.offset = o then w.value c else c)
      (r.step h (.edit w)) (m.step h (.edit w)) := by
  by_cases ho : w.offset = o
  · rw [if_pos ho, if_pos ho]
    have hsome : r.deferred = some w.offset := ho ▸ hd.deferred
    refine ⟨?_, hd.deferred, ?_, ?_, fun o' ho' => ?_⟩
    · simp [ShadowRegs.step, ShadowRegs.write, hsome, ReadBackRegs.step, hd.pending, ho, hd.bus]
    · simp [ReadBackRegs.step, hd.pending, ho]
    · simp [ShadowRegs.step, ho, hd.shadow]
    · have hne : o' ≠ w.offset := ho ▸ ho'
      simp only [ShadowRegs.step, ShadowRegs.write, if_pos hsome, Function.update_apply, if_neg hne]
      exact hd.near o' ho'
  · rw [if_neg ho, if_neg ho]
    have hnone : r.deferred ≠ some w.offset := by
      rw [hd.deferred]
      exact fun heq => ho (Option.some.inj heq).symm
    have heq : w.value (r.shadow w.offset) = w.value (held h m.bus w.offset) := by
      rw [← hd.bus]
      exact hw ho _ _ (hd.near _ ho)
    refine ⟨?_, hd.deferred, ?_, ?_, fun o' ho' => ?_⟩
    · simp [ShadowRegs.step, ShadowRegs.write, if_neg hnone, ReadBackRegs.step, hd.pending,
        if_neg ho, ReadBackRegs.push, heq, hd.bus]
    · simp [ReadBackRegs.step, hd.pending, if_neg ho, ReadBackRegs.push]
    · simp [ShadowRegs.step, Ne.symm ho, hd.shadow]
    · simp only [ShadowRegs.step, ShadowRegs.write, if_neg hnone, Function.update_apply, held_cons]
      by_cases hw' : o' = w.offset
      · rw [if_pos hw', if_pos hw'.symm]
        exact hrefl _ _
      · rw [if_neg hw', if_neg (Ne.symm hw')]
        exact hd.near o' ho'

theorem Deferring.edits (hd : Deferring R h o a c r m) (hrefl : ∀ o v, R o v v)
    (hws : ∀ w ∈ ws, w.offset ≠ o → (RegStep.edit w).Safe R) :
    Deferring R h o ((ShadowRegs.writesTo o ws).foldl (fun c w => w.value c) a)
      ((ShadowRegs.writesTo o ws).foldl (fun c w => w.value c) c)
      (r.steps h (ws.map RegStep.edit)) (m.steps h (ws.map RegStep.edit)) := by
  induction ws generalizing r m a c with
  | nil => exact hd
  | cons w ws ih =>
    have hnext := ih (hd.edit hrefl (hws w List.mem_cons_self)) fun t ht =>
      hws t (List.mem_cons_of_mem _ ht)
    rw [ShadowRegs.writesTo_cons]
    by_cases ho : w.offset = o
    · rw [if_pos ho, if_pos ho] at hnext
      rw [if_pos ho]
      exact hnext
    · rw [if_neg ho, if_neg ho] at hnext
      rw [if_neg ho]
      exact hnext

/-- The flush puts the same word on the bus if the two words are the same. -/
theorem Deferring.flush_bus_iff (hd : Deferring R h o a c r m) :
    (r.step h (.flush o)).bus = (m.step h (.flush o)).bus ↔ a = c := by
  simp [ShadowRegs.step, ShadowRegs.flush, ReadBackRegs.step, hd.pending, hd.shadow, hd.bus]

theorem Deferring.flush (hd : Deferring R h o a c r m) (hrefl : ∀ o v, R o v v) (hac : a = c) :
    Coupled R h (r.step h (.flush o)) (m.step h (.flush o)) := by
  refine ⟨hd.flush_bus_iff.2 hac, rfl, ?_, fun o' => ?_⟩
  · simp [ReadBackRegs.step, hd.pending]
  · simp only [ShadowRegs.step, ShadowRegs.flush, held_cons]
    by_cases ho : o = o'
    · rw [if_pos ho, ho]
      exact hrefl _ _
    · rw [if_neg ho]
      exact hd.near o' (Ne.symm ho)

/-- The edits `ws` with the register `o` deferred. -/
def deferredEdits (o : ι) (ws : List (RegWrite ι α)) : List (RegStep ι α) :=
  .defer o :: (ws.map RegStep.edit ++ [.flush o])

/-- What the edits of the deferred register make of its two words. -/
def SameFold (h : ι → α) (o : ι) (ws : List (RegWrite ι α)) (r : ShadowRegs ι α) : Prop :=
  (ShadowRegs.writesTo o ws).foldl (fun c w => w.value c) (r.shadow o)
    = (ShadowRegs.writesTo o ws).foldl (fun c w => w.value c) (held h r.bus o)

theorem Coupled.deferring (hc : Coupled R h r m) (hrefl : ∀ o v, R o v v)
    (hws : ∀ w ∈ ws, w.offset ≠ o → (RegStep.edit w).Safe R) :
    ∃ r' m' a c, Deferring R h o a c r' m' ∧ (a = c ↔ SameFold h o ws r) ∧
      r.steps h (deferredEdits o ws) = r'.step h (.flush o) ∧
      m.steps h (deferredEdits o ws) = m'.step h (.flush o) := by
  refine ⟨_, _, _, _, (hc.defer o).edits hrefl hws, ?_, ?_, ?_⟩
  · rw [SameFold, hc.bus]
  · rw [deferredEdits, ShadowRegs.steps_cons, ShadowRegs.steps_append]
    rfl
  · rw [deferredEdits, ReadBackRegs.steps_cons, ReadBackRegs.steps_append]
    rfl

theorem Coupled.deferredEdits_bus_iff (hc : Coupled R h r m) (hrefl : ∀ o v, R o v v)
    (hws : ∀ w ∈ ws, w.offset ≠ o → (RegStep.edit w).Safe R) :
    (r.steps h (deferredEdits o ws)).bus = (m.steps h (deferredEdits o ws)).bus
      ↔ SameFold h o ws r := by
  obtain ⟨r', m', a, c, hd, hiff, hr, hm⟩ := hc.deferring hrefl hws
  rw [hr, hm, hd.flush_bus_iff, hiff]

theorem Coupled.deferredEdits (hc : Coupled R h r m) (hrefl : ∀ o v, R o v v)
    (hws : ∀ w ∈ ws, w.offset ≠ o → (RegStep.edit w).Safe R) (hfold : SameFold h o ws r) :
    Coupled R h (r.steps h (deferredEdits o ws)) (m.steps h (deferredEdits o ws)) := by
  obtain ⟨r', m', a, c, hd, hiff, hr, hm⟩ := hc.deferring hrefl hws
  rw [hr, hm]
  exact hd.flush hrefl (hiff.2 hfold)

/-- What a step makes of the two words of a register while nothing is deferred. -/
def RegStep.touch (o : ι) (p : α × α) : RegStep ι α → α × α
  | .edit w => if w.offset = o then (w.value p.1, w.value p.1) else p
  | .past w => if w.offset = o then (p.1, w.value p.2) else p
  | _ => p

def RegStep.AtOnce : RegStep ι α → Prop
  | .edit _ | .past _ => True
  | _ => False

def ShadowRegs.words (h : ι → α) (r : ShadowRegs ι α) (o : ι) : α × α := (r.shadow o, held h r.bus o)

theorem ShadowRegs.words_step (hd : r.deferred = none) (hs : s.AtOnce) :
    (r.step h s).words h o = s.touch o (r.words h o) ∧ (r.step h s).deferred = none := by
  cases s with
  | edit w =>
    have hnone : r.deferred ≠ some w.offset := by
      rw [hd]
      exact fun h => nomatch h
    refine ⟨?_, hd⟩
    simp only [ShadowRegs.words, ShadowRegs.step, ShadowRegs.write, if_neg hnone, held_cons,
      Function.update_apply, RegStep.touch]
    by_cases ho : w.offset = o
    · simp [ho]
    · simp [ho, Ne.symm ho]
  | past w =>
    refine ⟨?_, hd⟩
    simp only [ShadowRegs.words, ShadowRegs.step, ShadowRegs.direct, held_cons, RegStep.touch]
    by_cases ho : w.offset = o
    · simp [ho]
    · simp [ho]
  | defer o => exact hs.elim
  | flush o => exact hs.elim
  | load shadow => exact hs.elim

theorem ShadowRegs.words_steps (hd : r.deferred = none) (hss : ∀ s ∈ ss, s.AtOnce) :
    (r.steps h ss).words h o = ss.foldl (RegStep.touch o) (r.words h o) := by
  induction ss generalizing r with
  | nil => rfl
  | cons s ss ih =>
    obtain ⟨hwords, hdeferred⟩ := words_step (o := o) (h := h) hd (hss s List.mem_cons_self)
    rw [steps_cons, ih hdeferred fun t ht => hss t (List.mem_cons_of_mem _ ht), hwords]
    rfl

theorem RegStep.touch_edits {p : α × α} : (ws.map RegStep.edit).foldl (RegStep.touch o) p
    = (ShadowRegs.writesTo o ws).foldl (fun p w => (w.value p.1, w.value p.1)) p := by
  induction ws generalizing p with
  | nil => rfl
  | cons w ws ih =>
    rw [List.map_cons, List.foldl_cons, ih, ShadowRegs.writesTo_cons, RegStep.touch]
    split_ifs <;> rfl

theorem ShadowRegs.steps_deferredEdits :
    r.steps h (deferredEdits o ws) = ((r.defer o).writeAll ws).flush o := by
  rw [deferredEdits, steps_cons, steps_append, steps_edits]
  rfl

/-- After the flush the hardware holds what is in the shadow. -/
theorem ShadowRegs.words_deferredEdits :
    (r.steps h (deferredEdits o ws)).words h o
      = ((writesTo o ws).foldl (fun c w => w.value c) (r.shadow o),
        (writesTo o ws).foldl (fun c w => w.value c) (r.shadow o)) := by
  rw [steps_deferredEdits]
  simp only [words, flush, held_cons, if_true, shadow_writeAll, shadow_defer]

theorem ShadowRegs.words_deferredEdits_other (ho : o' ≠ o) (hws : writesTo o' ws = []) :
    (r.steps h (deferredEdits o ws)).words h o' = r.words h o' := by
  have hheld : held h ((r.defer o).writeAll ws).bus o' = held h r.bus o' :=
    congrArg (fun l => List.headD l (h o')) (written_writeAll_of_notMem hws)
  rw [steps_deferredEdits]
  simp only [words, flush, held_cons, if_neg ho.symm, shadow_writeAll, hws, List.foldl_nil,
    shadow_defer, hheld]
