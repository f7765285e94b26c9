import Mathlib.Data.List.Basic
import Mathlib.Data.List.Nodup

/-!
# Keyed lists

A list of records, each with a key, as a map: look a key up, change its record in place, remove
it, append a new one. With no key twice this is a finite map that also keeps an order, and going
from each record to the one after it, from the first on, goes through the whole list.
-/

namespace KeyedList

variable {α κ : Type*} [DecidableEq κ] (key : α → κ)

def lookup (k : κ) (l : List α) : Option α := l.find? fun x => key x = k

def remove (k : κ) (l : List α) : List α := l.eraseP fun x => key x = k

def update (k : κ) (f : α → α) : List α → List α
  | [] => []
  | x :: l => if key x = k then f x :: l else x :: update k f l

/-- The record after the one with this key. -/
def following (k : κ) : List α → Option α
  | [] => none
  | x :: l => if key x = k then l.head? else following k l

variable {key} {k k' : κ} {l : List α}

theorem lookup_cons (x : α) :
    lookup key k (x :: l) = if key x = k then some x else lookup key k l := by
  unfold lookup
  rw [List.find?_cons]
  split_ifs with h <;> simp [h]

theorem lookup_eq_none : lookup key k l = none ↔ k ∉ l.map key := by
  rw [lookup, List.find?_eq_none]
  simp [List.mem_map]

theorem key_of_lookup {x : α} (h : lookup key k l = some x) : key x = k := by
  simpa using List.find?_some h

theorem lookup_append (x : α) :
    lookup key k (l ++ [x]) = (lookup key k l).or (if key x = k then some x else none) := by
  unfold lookup
  rw [List.find?_append, List.find?_singleton]
  simp

theorem map_key_update {f : α → α} (hf : ∀ x, key (f x) = key x) :
    ∀ l : List α, (update key k f l).map key = l.map key
  | [] => rfl
  | x :: l => by
    unfold update
    split_ifs
    · simp [hf]
    · simp [map_key_update hf l]

theorem lookup_update {f : α → α} (hf : ∀ x, key (f x) = key x) : ∀ l : List α,
    lookup key k' (update key k f l)
      = if k' = k then (lookup key k l).map f else lookup key k' l
  | [] => by simp [lookup, update]
  | x :: l => by
    unfold update
    have ih := lookup_update hf l
    by_cases hx : key x = k
    · rw [if_pos hx, lookup_cons, lookup_cons, lookup_cons, hf, hx]
      by_cases hk : k' = k
      · simp [hk]
      · rw [if_neg (Ne.symm hk), if_neg hk, if_neg (Ne.symm hk)]
    · rw [if_neg hx, lookup_cons, lookup_cons, lookup_cons, ih]
      by_cases hk : k' = k
      · rw [hk, if_neg hx, if_pos rfl, if_pos rfl, if_neg hx]
      · rw [if_neg hk, if_neg hk]

theorem map_key_remove : ∀ l : List α, (remove key k l).map key = (l.map key).erase k
  | [] => rfl
  | x :: l => by
    have ih := map_key_remove l
    unfold remove at ih ⊢
    by_cases hx : key x = k
    · simp [hx]
    · rw [List.eraseP_cons_of_neg (by simpa using hx), List.map_cons, List.map_cons,
        List.erase_cons_tail (by simpa using hx), ih]

theorem lookup_remove_self (h : (l.map key).Nodup) : lookup key k (remove key k l) = none := by
  rw [lookup_eq_none, map_key_remove]
  exact fun hk => h.not_mem_erase hk

theorem lookup_remove_of_ne (h : k' ≠ k) : ∀ l : List α,
    lookup key k' (remove key k l) = lookup key k' l
  | [] => rfl
  | x :: l => by
    have ih := lookup_remove_of_ne h l
    unfold remove at ih ⊢
    by_cases hx : key x = k
    · rw [List.eraseP_cons_of_pos (by simpa using hx), lookup_cons, if_neg (by rw [hx]; exact h.symm)]
    · rw [List.eraseP_cons_of_neg (by simpa using hx), lookup_cons, lookup_cons, ih]

theorem following_append {x : α} : ∀ {l₁ : List α} {l₂ : List α},
    ((l₁ ++ x :: l₂).map key).Nodup → following key (key x) (l₁ ++ x :: l₂) = l₂.head?
  | [], l₂, _ => if_pos rfl
  | y :: l₁, l₂, h => by
    rw [List.cons_append, List.map_cons, List.nodup_cons] at h
    have hne : key y ≠ key x := fun he => h.1 (by simp [he])
    rw [List.cons_append, following, if_neg hne]
    exact following_append h.2

end KeyedList
