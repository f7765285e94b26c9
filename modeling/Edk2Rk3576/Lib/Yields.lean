import Mathlib.Tactic.Common

/-!
# What a computation that can halt yields

`Yields stops P x`: the computation `x` returns a value with `P`, or halts for a reason among
`stops`. It goes through the sequencing of computations as a triple does.
-/

def Yields {ε α : Type*} (stops : ε → Prop) (P : α → Prop) : Except ε α → Prop
  | .ok a => P a
  | .error e => stops e

namespace Yields

variable {ε α γ : Type} {stops : ε → Prop} {P Q : α → Prop} {R : γ → Prop} {x : Except ε α}
  {f : α → Except ε γ}

theorem of_any (x : Except ε α) : Yields (fun _ => True) (fun _ => True) x := by
  cases x <;> trivial

theorem mono (h : Yields stops P x) (hPQ : ∀ a, P a → Q a) : Yields stops Q x := by
  cases x with
  | ok a => exact hPQ a h
  | error e => exact h

theorem imp {stops' : ε → Prop} (h : Yields stops P x) (hstops : ∀ e, stops e → stops' e)
    (hPQ : ∀ a, P a → Q a) : Yields stops' Q x := by
  cases x with
  | ok a => exact hPQ a h
  | error e => exact hstops e h

theorem eq_ok (h : Yields stops P x) : Yields stops (fun a => P a ∧ x = .ok a) x := by
  cases x with
  | ok a => exact ⟨h, rfl⟩
  | error e => exact h

theorem and (h : Yields stops P x) (h' : Yields stops Q x) :
    Yields stops (fun a => P a ∧ Q a) x := by
  cases x with
  | ok a => exact ⟨h, h'⟩
  | error e => exact h

theorem bind (h : Yields stops P x) (hf : ∀ a, P a → Yields stops R (f a)) :
    Yields stops R (x >>= f) := by
  cases x with
  | ok a => exact hf a h
  | error e => exact h

theorem bind_ok {a : α} (h : x = .ok a) (hf : Yields stops R (f a)) :
    Yields stops R (x >>= f) := by
  rw [h]
  exact hf

theorem ite {c : Prop} [Decidable c] {y : Except ε α} (hx : c → Yields stops P x)
    (hy : ¬ c → Yields stops P y) : Yields stops P (if c then x else y) := by
  split_ifs with h
  · exact hx h
  · exact hy h

end Yields
