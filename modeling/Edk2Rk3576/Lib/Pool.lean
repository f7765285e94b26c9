import Mathlib.Tactic.Common
import Mathlib.Data.Set.Insert
import Mathlib.Logic.Function.Basic

/-!
# Pool memory

A pool of buffers behind numbered pointers, the null pointer being zero. A buffer is allocated at a
pointer never used before, so what a piece of code does to buffers it allocated itself leaves all
the others as they were: `Pool.Keeps`.

`Pool.Only` says more: no buffer outside the set is there that was not there before, which is to say
that none is left behind. `Pool.Swapped` is the account of a routine that may move a buffer.
-/

structure Pool (β : Type*) where
  used : ℕ
  buffer : ℕ → Option β

namespace Pool

variable {β : Type*}

/-- The pointer the next allocation returns. -/
def fresh (s : Pool β) : ℕ := s.used + 1

def allocate (s : Pool β) (b : β) : Pool β where
  used := s.used + 1
  buffer := Function.update s.buffer s.fresh (some b)

def store (s : Pool β) (p : ℕ) (b : β) : Pool β :=
  { s with buffer := Function.update s.buffer p (some b) }

def release (s : Pool β) (p : ℕ) : Pool β :=
  { s with buffer := Function.update s.buffer p none }

/-- An allocated buffer and what is in it. -/
structure Holds (s : Pool β) (p : ℕ) (b : β) : Prop where
  pos : 0 < p
  le : p ≤ s.used
  eq : s.buffer p = some b

/-- Of the buffers there are, at most those in `t` are changed or freed. -/
structure Keeps (t : Set ℕ) (s s' : Pool β) : Prop where
  used : s.used ≤ s'.used
  eq : ∀ p ≤ s.used, p ∉ t → s'.buffer p = s.buffer p

variable {s s' s'' : Pool β} {t t' : Set ℕ} {p q : ℕ} {b c : β}

theorem Holds.lt_fresh (h : s.Holds p b) : p < s.fresh := Nat.lt_succ_of_le h.le

theorem Holds.ne_fresh (h : s.Holds p b) : p ≠ s.fresh := h.lt_fresh.ne

theorem Holds.keeps (h : s.Holds p b) (hk : Keeps t s s') (hp : p ∉ t) : s'.Holds p b :=
  ⟨h.pos, h.le.trans hk.used, (hk.eq p h.le hp).trans h.eq⟩

theorem Keeps.refl (t : Set ℕ) (s : Pool β) : Keeps t s s := ⟨le_rfl, fun _ _ _ => rfl⟩

theorem Keeps.mono (h : Keeps t s s') (ht : t ⊆ t') : Keeps t' s s' :=
  ⟨h.used, fun p hp hpt => h.eq p hp fun h => hpt (ht h)⟩

theorem Keeps.trans (h : Keeps t s s') (h' : Keeps t' s' s'')
    (ht : ∀ p ≤ s.used, p ∈ t' → p ∈ t) : Keeps t s s'' :=
  ⟨h.used.trans h'.used, fun p hp hpt =>
    (h'.eq p (hp.trans h.used) fun hp' => hpt (ht p hp hp')).trans (h.eq p hp hpt)⟩

theorem holds_allocate : (s.allocate b).Holds s.fresh b :=
  ⟨Nat.succ_pos _, le_rfl, Function.update_self ..⟩

theorem keeps_allocate : Keeps ∅ s (s.allocate b) :=
  ⟨Nat.le_succ _, fun _ hp _ => Function.update_of_ne (Nat.lt_succ_of_le hp).ne _ _⟩

theorem holds_store (h : s.Holds p b) : (s.store p c).Holds p c :=
  ⟨h.pos, h.le, Function.update_self ..⟩

theorem keeps_store : Keeps {p} s (s.store p b) :=
  ⟨le_rfl, fun _ _ hp => Function.update_of_ne hp _ _⟩

theorem keeps_release : Keeps {p} s (s.release p) :=
  ⟨le_rfl, fun _ _ hp => Function.update_of_ne hp _ _⟩

section Accounts

/-- Nothing is where no buffer has been allocated yet. -/
def Clean (s : Pool β) : Prop := ∀ p, s.used < p → s.buffer p = none

/-- The buffers outside `t` are those there were. -/
structure Only (t : Set ℕ) (s s' : Pool β) : Prop where
  used : s.used ≤ s'.used
  clean : s'.Clean
  eq : ∀ p, p ∉ t → s'.buffer p = s.buffer p

/-- There is the buffer at `q` in place of the one at `p`, if it is another. -/
structure Swapped (p : ℕ) (s : Pool β) (q : ℕ) (s' : Pool β) : Prop where
  only : Only {p, q} s s'
  freed : q ≠ p → s'.buffer p = none
  place : q = p ∨ s.used < q

theorem Clean.fresh (h : s.Clean) : s.buffer s.fresh = none := h _ (Nat.lt_succ_self _)

theorem Only.refl (t : Set ℕ) (h : s.Clean) : Only t s s := ⟨le_rfl, h, fun _ _ => rfl⟩

theorem Only.mono (h : Only t s s') (ht : t ⊆ t') : Only t' s s' :=
  ⟨h.used, h.clean, fun p hp => h.eq p fun hpt => hp (ht hpt)⟩

theorem Only.trans (h : Only t s s') (h' : Only t s' s'') : Only t s s'' :=
  ⟨h.used.trans h'.used, h'.clean, fun p hp => (h'.eq p hp).trans (h.eq p hp)⟩

theorem Holds.only (h : s.Holds p b) (ho : Only t s s') (hp : p ∉ t) : s'.Holds p b :=
  ⟨h.pos, h.le.trans ho.used, (ho.eq p hp).trans h.eq⟩

/-- A buffer that is as it was can be left out. -/
theorem Only.drop (h : Only (insert q t) s s') (hq : s'.buffer q = s.buffer q) : Only t s s' := by
  refine ⟨h.used, h.clean, fun p hp => ?_⟩
  by_cases hpq : p = q
  · rw [hpq]
    exact hq
  · exact h.eq p fun hins => (Set.mem_insert_iff.1 hins).elim hpq hp

theorem only_allocate (h : s.Clean) : Only {s.fresh} s (s.allocate b) := by
  refine ⟨Nat.le_succ _, fun p hp => ?_, fun p hp => Function.update_of_ne hp _ _⟩
  have hp : s.used + 1 < p := hp
  exact (Function.update_of_ne hp.ne' _ _).trans (h p (by omega))

theorem only_store (h : s.Clean) (hp : p ≤ s.used) : Only {p} s (s.store p b) := by
  refine ⟨le_rfl, fun q hq => ?_, fun q hq => Function.update_of_ne hq _ _⟩
  have hq : s.used < q := hq
  exact (Function.update_of_ne (lt_of_le_of_lt hp hq).ne' _ _).trans (h q hq)

theorem only_release (h : s.Clean) : Only {p} s (s.release p) := by
  refine ⟨le_rfl, fun q hq => ?_, fun q hq => Function.update_of_ne hq _ _⟩
  by_cases hqp : q = p
  · rw [hqp]
    exact Function.update_self ..
  · exact (Function.update_of_ne hqp _ _).trans (h q hq)

theorem release_buffer : (s.release p).buffer p = none := Function.update_self ..

/-- A buffer that is allocated and freed again. -/
theorem only_allocate_release (h : s.Clean) : Only ∅ s ((s.allocate b).release s.fresh) := by
  have hrel : Only {s.fresh} (s.allocate b) ((s.allocate b).release s.fresh) :=
    only_release (only_allocate h).clean
  have hboth := (only_allocate h).trans hrel
  rw [← insert_empty_eq] at hboth
  exact hboth.drop (release_buffer.trans h.fresh.symm)

theorem Only.swapped (h : Only {p} s s') : Swapped p s p s' :=
  ⟨h.mono (Set.singleton_subset_iff.2 (Set.mem_insert _ _)), fun hno => absurd rfl hno, Or.inl rfl⟩

theorem Swapped.refl (h : s.Clean) : Swapped p s p s := (Only.refl _ h).swapped

theorem Swapped.trans {r : ℕ} (hc : s.Clean) (h : Swapped p s q s') (h' : Swapped q s' r s'') :
    Swapped p s r s'' := by
  refine ⟨⟨h.only.used.trans h'.only.used, h'.only.clean, fun x hx => ?_⟩, fun hrp => ?_, ?_⟩
  · simp only [Set.mem_insert_iff, Set.mem_singleton_iff, not_or] at hx
    by_cases hxq : x = q
    · -- it came and went
      subst hxq
      rw [h'.freed (Ne.symm hx.2), hc x (h.place.resolve_left hx.1)]
    · rw [h'.only.eq x (by simp [hxq, hx.2]), h.only.eq x (by simp [hxq, hx.1])]
  · by_cases hqp : q = p
    · exact hqp ▸ h'.freed (hqp ▸ hrp)
    · rw [h'.only.eq p (by simp [Ne.symm hqp, hrp.symm]), h.freed hqp]
  · have hu := h.only.used
    rcases h'.place with hrq | hlt
    · rw [hrq]
      exact h.place
    · exact Or.inr (lt_of_le_of_lt hu hlt)

/-- What goes on while there is one more buffer, which is freed in the end. -/
theorem Swapped.within {o : ℕ} {s₁ s₂ s₃ : Pool β} (h₁ : Only {o} s s₁) (h₂ : Swapped p s₁ q s₂)
    (h₃ : Only {q, o} s₂ s₃) (hpo : p ≠ o) (ho : s.buffer o = none) (ho' : s₃.buffer o = none) :
    Swapped p s q s₃ := by
  refine ⟨⟨h₁.used.trans (h₂.only.used.trans h₃.used), h₃.clean, fun x hx => ?_⟩, fun hqp => ?_,
    h₂.place.imp_right (lt_of_le_of_lt h₁.used)⟩
  · simp only [Set.mem_insert_iff, Set.mem_singleton_iff, not_or] at hx
    by_cases hxo : x = o
    · rw [hxo, ho', ho]
    · rw [h₃.eq x (by simp [hxo, hx.2]), h₂.only.eq x (by simp [hx.1, hx.2]), h₁.eq x hxo]
  · rw [h₃.eq p (by simp [hqp.symm, hpo]), h₂.freed hqp]

/-- A new buffer moves about. -/
theorem Swapped.of_fresh (hc : s.Clean) (h : Only {p} s s') (hp : s.used < p)
    (h' : Swapped p s' q s'') : Only {q} s s'' := by
  refine ⟨h.used.trans h'.only.used, h'.only.clean, fun x hx => ?_⟩
  have hxq : x ≠ q := hx
  by_cases hxp : x = p
  · subst hxp
    rw [h'.freed hxq.symm, hc x hp]
  · rw [h'.only.eq x (by simp [hxp, hxq]), h.eq x hxp]

/-- The buffers allocated since `s` that are there are in `t`. -/
def Extra (s : Pool β) (t : Set ℕ) (s' : Pool β) : Prop :=
  ∀ p, s.used < p → s'.buffer p ≠ none → p ∈ t

theorem Extra.only {t' : Set ℕ} (h : Extra s t s') (h' : Only t' s' s'') :
    Extra s (t' ∪ t) s'' := by
  intro p hp hlive
  by_cases hpt : p ∈ t'
  · exact Or.inl hpt
  · rw [h'.eq p hpt] at hlive
    exact Or.inr (h p hp hlive)

theorem Extra.release (h : Extra s t s') (p : ℕ) : Extra s (t \ {p}) (s'.release p) := by
  intro q hq hlive
  by_cases hqp : q = p
  · rw [hqp] at hlive
    exact absurd release_buffer hlive
  · have hsame : (s'.release p).buffer q = s'.buffer q := Function.update_of_ne hqp _ _
    rw [hsame] at hlive
    exact ⟨h q hq hlive, hqp⟩

theorem Only.extra (hc : s.Clean) (h : Only t s s') : Extra s t s' := by
  intro p hp hlive
  by_contra hpt
  rw [h.eq p hpt, hc p hp] at hlive
  exact hlive rfl

end Accounts

end Pool
