import Edk2Rk3576.Lib.Cells

/-!
# Little-endian fields

A field of `n` bytes at an address, least significant byte first, the bytes that hold a number,
and strings of two-byte characters.
-/

namespace Cells

/-- The number in the `n` bytes from `a`. -/
def le (m : Cells UInt8) (a : ℕ) : ℕ → ℕ
  | 0 => 0
  | n + 1 => (m a).toNat + 256 * le m (a + 1) n

/-- The `n` bytes of `x`. -/
def leBytes (x : ℕ) : ℕ → List UInt8
  | 0 => []
  | n + 1 => UInt8.ofNat x :: leBytes (x / 256) n

variable {m m' : Cells UInt8} {a b : ℕ}

theorem le_congr : ∀ {n a b : ℕ}, (∀ k < n, m (a + k) = m' (b + k)) → m.le a n = m'.le b n
  | 0, _, _, _ => rfl
  | n + 1, a, b, h => by
    have h0 : m a = m' b := h 0 (by omega)
    have h1 : m.le (a + 1) n = m'.le (b + 1) n := le_congr fun k hk => by
      have := h (k + 1) (by omega)
      rwa [show a + 1 + k = a + (k + 1) by omega, show b + 1 + k = b + (k + 1) by omega]
    simp only [le, h0, h1]

theorem le_lt : ∀ n a : ℕ, m.le a n < 256 ^ n
  | 0, _ => by simp [le]
  | n + 1, a => by
    have h0 : (m a).toNat < 256 := (m a).toNat_lt
    have h1 := le_lt n (a + 1)
    simp only [le, Nat.pow_succ]
    omega

/-- The first `n` bytes spell `CHAR16` characters, none of them zero, and the zero behind them. -/
def IsString (m : Cells UInt8) (n : ℕ) : Prop :=
  ∃ k, n = 2 * k + 2 ∧ (∀ i < k, m.le (2 * i) 2 ≠ 0) ∧ m.le (2 * k) 2 = 0

theorem isString_iff {n : ℕ} : m.IsString n ↔
    n = 2 * (n / 2 - 1) + 2 ∧ (∀ i < n / 2 - 1, m.le (2 * i) 2 ≠ 0) ∧ m.le (2 * (n / 2 - 1)) 2 = 0 := by
  constructor
  · rintro ⟨k, rfl, hne, hz⟩
    rw [show (2 * k + 2) / 2 - 1 = k by omega]
    exact ⟨rfl, hne, hz⟩
  · intro h
    exact ⟨_, h⟩

instance {n : ℕ} : Decidable (m.IsString n) := decidable_of_iff _ isString_iff.symm

theorem le_two_congr {i n : ℕ} (h : ∀ k < n, m k = m' k) (hi : 2 * i + 2 ≤ n) :
    m.le (2 * i) 2 = m'.le (2 * i) 2 := le_congr fun k hk => h (2 * i + k) (by omega)

theorem IsString.congr {n : ℕ} (hm : m.IsString n) (h : ∀ k < n, m k = m' k) : m'.IsString n := by
  obtain ⟨k, rfl, hne, hz⟩ := hm
  refine ⟨k, rfl, fun i hi => ?_, (le_two_congr h le_rfl).symm.trans hz⟩
  rw [← le_two_congr h (by omega)]
  exact hne i hi

/-- No string is the beginning of a longer one. -/
theorem IsString.length_eq {n n' : ℕ} (hm : m.IsString n) (hm' : m'.IsString n')
    (h : ∀ k < n', m k = m' k) : n = n' := by
  obtain ⟨k, rfl, hne, hz⟩ := hm
  obtain ⟨k', rfl, hne', hz'⟩ := hm'
  rcases lt_trichotomy k k' with hlt | rfl | hlt
  · exact absurd ((le_two_congr h (by omega)).symm.trans hz) (hne' k hlt)
  · rfl
  · exact absurd ((le_two_congr h le_rfl).trans hz') (hne k' hlt)

end Cells
