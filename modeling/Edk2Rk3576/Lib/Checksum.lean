import Mathlib.Data.Nat.ModEq
import Edk2Rk3576.Lib.LittleEndian

/-!
# Checksums

The sum of the `w`-byte words of a range, in `w`-byte arithmetic. Rewriting one word changes the sum
by the difference; a word set to what the others lack makes the sum zero.
-/

namespace Cells

variable {m m' : Cells UInt8} {a b w n i : ℕ}

def sumWords (w : ℕ) (m : Cells UInt8) (a : ℕ) : ℕ → ℕ
  | 0 => 0
  | n + 1 => (m.le a w + sumWords w m (a + w) n) % 256 ^ w

theorem sumWords_lt : ∀ n a : ℕ, sumWords w m a n < 256 ^ w
  | 0, _ => Nat.pow_pos (by omega)
  | _ + 1, _ => Nat.mod_lt _ (Nat.pow_pos (by omega))

theorem sumWords_congr : ∀ {n a b : ℕ}, (∀ k < w * n, m (a + k) = m' (b + k)) →
    sumWords w m a n = sumWords w m' b n
  | 0, _, _, _ => rfl
  | n + 1, a, b, h => by
    rw [Nat.mul_succ] at h
    have hword : m.le a w = m'.le b w := le_congr fun k hk => h k (by omega)
    have hrest : sumWords w m (a + w) n = sumWords w m' (b + w) n := sumWords_congr fun k hk => by
      have := h (w + k) (by omega)
      rwa [← Nat.add_assoc, ← Nat.add_assoc] at this
    rw [sumWords, sumWords, hword, hrest]

theorem sumWords_add : ∀ {i a : ℕ}, sumWords w m a (i + n)
    ≡ sumWords w m a i + sumWords w m (a + w * i) n [MOD 256 ^ w]
  | 0, a => by
    rw [Nat.zero_add, Nat.mul_zero, Nat.add_zero, sumWords, Nat.zero_add]
  | i + 1, a => by
    have ih := sumWords_add (i := i) (a := a + w)
    rw [show i + 1 + n = i + n + 1 by omega, sumWords, sumWords,
      show a + w * (i + 1) = a + w + w * i by rw [Nat.mul_succ]; omega]
    calc (m.le a w + sumWords w m (a + w) (i + n)) % 256 ^ w
        ≡ m.le a w + sumWords w m (a + w) (i + n) [MOD 256 ^ w] := Nat.mod_modEq _ _
      _ ≡ m.le a w + (sumWords w m (a + w) i + sumWords w m (a + w + w * i) n) [MOD 256 ^ w] :=
        Nat.ModEq.add_left _ ih
      _ = m.le a w + sumWords w m (a + w) i + sumWords w m (a + w + w * i) n := by omega
      _ ≡ (m.le a w + sumWords w m (a + w) i) % 256 ^ w + sumWords w m (a + w + w * i) n
          [MOD 256 ^ w] := Nat.ModEq.add_right _ (Nat.mod_modEq _ _).symm

/-- The sum, with word `i` told apart. -/
theorem sumWords_word (hi : i < n) : sumWords w m a n
    ≡ sumWords w m a i + m.le (a + w * i) w + sumWords w m (a + w * (i + 1)) (n - (i + 1))
      [MOD 256 ^ w] := by
  obtain ⟨j, rfl⟩ : ∃ j, n = i + (j + 1) := ⟨n - (i + 1), by omega⟩
  have hsplit := sumWords_add (m := m) (w := w) (n := j + 1) (i := i) (a := a)
  rw [show i + (j + 1) - (i + 1) = j by omega,
    show a + w * (i + 1) = a + w * i + w by rw [Nat.mul_succ]; omega]
  refine hsplit.trans ?_
  rw [Nat.add_assoc, sumWords]
  exact Nat.ModEq.add_left _ (Nat.mod_modEq _ _)

/-- Two ranges that differ in word `i` alone. -/
theorem sumWords_rewrite (hi : i < n)
    (h : ∀ k < w * n, ¬ (w * i ≤ k ∧ k < w * i + w) → m' (a + k) = m (b + k)) :
    sumWords w m' a n + m.le (b + w * i) w ≡ sumWords w m b n + m'.le (a + w * i) w
      [MOD 256 ^ w] := by
  have hle : w * (i + 1) ≤ w * n := Nat.mul_le_mul_left w hi
  rw [Nat.mul_succ] at hle
  have hbefore : sumWords w m' a i = sumWords w m b i :=
    sumWords_congr fun k hk => h k (by omega) (by omega)
  have hbehind : sumWords w m' (a + w * (i + 1)) (n - (i + 1))
      = sumWords w m (b + w * (i + 1)) (n - (i + 1)) := by
    refine sumWords_congr fun k hk => ?_
    rw [Nat.mul_sub, Nat.mul_succ] at hk
    rw [Nat.mul_succ, Nat.add_assoc a, Nat.add_assoc b]
    exact h (w * i + w + k) (by omega) (by omega)
  have hsum := sumWords_word (m := m) (w := w) (a := b) hi
  have hsum' := sumWords_word (m := m') (w := w) (a := a) hi
  rw [hbefore, hbehind] at hsum'
  refine (hsum'.add_right _).trans (Nat.ModEq.trans ?_ (hsum.add_right _).symm)
  exact congrArg (· % 256 ^ w) (by omega)

/-- The checksum of a range in which the word for it is zero, put there, makes the sum zero. -/
theorem sumWords_eq_zero (hi : i < n)
    (h : ∀ k < w * n, ¬ (w * i ≤ k ∧ k < w * i + w) → m' (a + k) = m (b + k))
    (hzero : m.le (b + w * i) w = 0)
    (hsum : m'.le (a + w * i) w = (256 ^ w - sumWords w m b n) % 256 ^ w) :
    sumWords w m' a n = 0 := by
  have hlt := sumWords_lt (w := w) (m := m) n b
  have hrewrite := sumWords_rewrite hi h
  rw [hzero, hsum, Nat.add_zero] at hrewrite
  have hmod : sumWords w m' a n ≡ 0 [MOD 256 ^ w] := by
    refine hrewrite.trans (((Nat.mod_modEq _ _).add_left _).trans ?_)
    rw [Nat.add_sub_cancel' hlt.le]
    exact Nat.modEq_zero_iff_dvd.2 (dvd_refl _)
  exact Nat.eq_zero_of_dvd_of_lt ((Nat.modEq_zero_iff_dvd).1 hmod) (sumWords_lt n a)

end Cells
