import Mathlib.Algebra.Group.Nat.Defs
import Mathlib.Tactic.Common
import Mathlib.Data.List.Pairwise
import Mathlib.Order.Interval.Set.Basic

/-!
# Windows

A window is a range of addresses. Windows one after the other, each starting where the one before it
ends, tile the range from the first to the last of them: they are apart, and each address of the
range is in exactly one.
-/

structure Window where
  base : ℕ
  size : ℕ
  deriving DecidableEq

namespace Window

variable {w w' : Window} {a lo hi : ℕ}

def range (w : Window) : Set ℕ := Set.Ico w.base (w.base + w.size)

instance : Decidable (a ∈ w.range) := inferInstanceAs (Decidable (_ ∧ _))

theorem mem_range : a ∈ w.range ↔ w.base ≤ a ∧ a < w.base + w.size := Iff.rfl

/-- No address is in both. -/
def Apart (w w' : Window) : Prop := ∀ a ∈ w.range, a ∉ w'.range

theorem Apart.symm (h : w.Apart w') : w'.Apart w := fun a ha ha' => h a ha' ha

theorem apart_of_le (h : w.base + w.size ≤ w'.base) : w.Apart w' := by
  intro a ha ha'
  rw [mem_range] at ha ha'
  omega

/-- The windows go from `lo` to `hi` without a gap. -/
def Tile : ℕ → List Window → ℕ → Prop
  | lo, [], hi => lo = hi
  | lo, w :: ws, hi => w.base = lo ∧ Tile (lo + w.size) ws hi

theorem Tile.le : ∀ {ws : List Window} {lo : ℕ}, Tile lo ws hi → lo ≤ hi
  | [], _, h => Nat.le_of_eq h
  | w :: ws, lo, h => by
    have := h.2.le
    omega

theorem Tile.base_ge : ∀ {ws : List Window} {lo : ℕ}, Tile lo ws hi → ∀ w ∈ ws, lo ≤ w.base
  | w :: ws, lo, h, w', hw => by
    rcases List.mem_cons.1 hw with rfl | hw
    · exact h.1.ge
    · have := h.2.base_ge w' hw
      omega

theorem Tile.last_le : ∀ {ws : List Window} {lo : ℕ}, Tile lo ws hi →
    ∀ w ∈ ws, w.base + w.size ≤ hi
  | w :: ws, lo, h, w', hw => by
    rcases List.mem_cons.1 hw with rfl | hw
    · rw [h.1]
      exact h.2.le
    · exact h.2.last_le w' hw

theorem Tile.pairwise : ∀ {ws : List Window} {lo : ℕ}, Tile lo ws hi → ws.Pairwise Apart
  | [], _, _ => List.Pairwise.nil
  | w :: ws, lo, h => by
    refine List.Pairwise.cons (fun w' hw => apart_of_le ?_) h.2.pairwise
    rw [h.1]
    exact h.2.base_ge w' hw

/-- Each address of the range is in exactly one of the windows. -/
theorem Tile.countP_eq_one : ∀ {ws : List Window} {lo : ℕ}, Tile lo ws hi → lo ≤ a → a < hi →
    ws.countP (fun w => a ∈ w.range) = 1
  | [], lo, h, hlo, hhi => by
    obtain rfl : lo = hi := h
    omega
  | w :: ws, lo, h, hlo, hhi => by
    obtain ⟨rfl, hrest⟩ := h
    by_cases hin : a < w.base + w.size
    · have hnone : ws.countP (fun w => a ∈ w.range) = 0 := by
        refine List.countP_eq_zero.2 fun w' hw => ?_
        have := hrest.base_ge w' hw
        rw [decide_eq_true_eq, mem_range]
        omega
      rw [List.countP_cons_of_pos (by rw [decide_eq_true_eq]; exact ⟨hlo, hin⟩), hnone]
    · rw [List.countP_cons_of_neg (by rw [decide_eq_true_eq]; exact fun h => hin h.2)]
      exact hrest.countP_eq_one (not_lt.1 hin) hhi

theorem Tile.eq_of_empty : ∀ {ws : List Window} {lo : ℕ}, Tile lo ws hi →
    (∀ w ∈ ws, w.size = 0) → lo = hi
  | [], _, h, _ => h
  | w :: ws, lo, h, hall => by
    have hrest := h.2
    rw [hall w List.mem_cons_self] at hrest
    exact hrest.eq_of_empty fun w' hw' => hall w' (List.mem_cons_of_mem _ hw')

/-- Windows with nothing after an empty one but empty ones still tile the range when they are cut
off at the first empty one. -/
theorem Tile.takeWhile : ∀ {ws : List Window} {lo : ℕ}, Tile lo ws hi →
    ws.Pairwise (fun w w' => w.size = 0 → w'.size = 0) →
    Tile lo (ws.takeWhile fun w => w.size ≠ 0) hi
  | [], _, h, _ => h
  | w :: ws, lo, h, hz => by
    rw [List.pairwise_cons] at hz
    by_cases hw : w.size = 0
    · rw [List.takeWhile_cons_of_neg (by simp [hw])]
      have heq := h.2.eq_of_empty fun w' hw' => hz.1 w' hw' hw
      rwa [hw] at heq
    · rw [List.takeWhile_cons_of_pos (by simp [hw])]
      exact ⟨h.1, h.2.takeWhile hz.2⟩

end Window
