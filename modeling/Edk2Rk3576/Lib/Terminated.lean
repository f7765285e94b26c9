import Mathlib.Algebra.GroupWithZero.Nat
import Mathlib.Data.List.TakeWhile
import Mathlib.Tactic.Common

/-!
# Terminated words

Words are written one behind the other into a buffer, each with a stop symbol behind it. They are
read back up to the first word that is empty, so an empty word hides those behind it.
-/

namespace Terminated

variable {α : Type*}

/-- What is put into a buffer at a place, where there is room for it. -/
def put (buffer : List α) (place : ℕ) (xs : List α) : Option (List α) :=
  if place + xs.length ≤ buffer.length then
    some (buffer.take place ++ (xs ++ buffer.drop (place + xs.length)))
  else none

theorem put_append {pre old post xs : List α} (h : old.length = xs.length) :
    put (pre ++ (old ++ post)) pre.length xs = some (pre ++ (xs ++ post)) := by
  have hroom : pre.length + xs.length ≤ (pre ++ (old ++ post)).length := by
    rw [List.length_append, List.length_append]
    omega
  have hdrop : (pre ++ (old ++ post)).drop (pre.length + xs.length) = post := by
    rw [← h, ← List.append_assoc, ← List.length_append, List.drop_left]
  rw [put, if_pos hroom, hdrop, List.take_left]

variable (z : α)

def pack (words : List (List α)) : List α := words.flatMap (· ++ [z])

section Pack

variable {z}

theorem pack_cons (w : List α) (words : List (List α)) :
    pack z (w :: words) = w ++ z :: pack z words := by
  rw [pack, List.flatMap_cons, List.append_assoc, List.singleton_append, pack]

theorem pack_length (words : List (List α)) :
    (pack z words).length = (words.map fun w => w.length + 1).sum := by
  induction words with
  | nil => rfl
  | cons w words ih =>
    rw [pack_cons, List.length_append, List.length_cons, ih, List.map_cons, List.sum_cons]
    omega

/-- The last word's stop symbol is the last of all. -/
theorem pack_ends {words : List (List α)} (h : words ≠ []) :
    ∃ front, pack z words = front ++ [z] := by
  obtain ⟨words, w, rfl⟩ := List.eq_nil_or_concat words |>.resolve_left h
  refine ⟨pack z words ++ w, ?_⟩
  rw [pack, List.concat_eq_append, List.flatMap_append, List.flatMap_singleton, ← pack,
    List.append_assoc]

end Pack

variable [DecidableEq α]

/-- The words of a text up to an empty one. What was read of the current one is kept aside. -/
def read : (word : List α) → List α → List (List α)
  | _, [] => []
  | word, x :: xs =>
    if x = z then if word = [] then [] else word :: read [] xs
    else read (word ++ [x]) xs

variable {z}

theorem read_word : ∀ {w word rest : List α}, z ∉ w →
    read z word (w ++ z :: rest) = if word ++ w = [] then [] else (word ++ w) :: read z [] rest
  | [], word, rest, _ => by
    rw [List.nil_append, List.append_nil, read, if_pos rfl]
  | x :: w, word, rest, h => by
    have hx : x ≠ z := fun he => h (he ▸ List.mem_cons_self)
    have ih := @read_word w (word ++ [x]) rest fun hmem => h (List.mem_cons_of_mem _ hmem)
    rw [List.cons_append, read, if_neg hx, ih, List.append_assoc, List.singleton_append]

/-- What is read back of a list that a stop symbol ends. -/
theorem read_pack {rest : List α} : ∀ {words : List (List α)}, (∀ w ∈ words, z ∉ w) →
    read z [] (pack z words ++ z :: rest) = words.takeWhile fun w => decide (w ≠ [])
  | [], _ => by rw [pack, List.flatMap_nil, List.nil_append, read, if_pos rfl, if_pos rfl,
      List.takeWhile_nil]
  | w :: words, h => by
    have ih := @read_pack rest words fun v hv => h v (List.mem_cons_of_mem _ hv)
    rw [pack_cons, List.append_assoc, List.cons_append, read_word (h w List.mem_cons_self),
      List.nil_append, ih, List.takeWhile_cons]
    by_cases hw : w = []
    · rw [if_pos hw, if_neg (by simp [hw])]
    · rw [if_neg hw, if_pos (by simp [hw])]

/-- A list is read back where none of its words is empty. -/
theorem read_pack_iff {words : List (List α)} {rest : List α} (h : ∀ w ∈ words, z ∉ w) :
    read z [] (pack z words ++ z :: rest) = words ↔ ∀ w ∈ words, w ≠ [] := by
  rw [read_pack h, List.takeWhile_eq_self_iff]
  simp only [decide_eq_true_eq]

end Terminated
