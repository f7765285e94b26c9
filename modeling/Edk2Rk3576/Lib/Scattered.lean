import Edk2Rk3576.Lib.Cells
import Mathlib.Algebra.BigOperators.Group.List.Basic
import Mathlib.Tactic.Ring

/-!
# Scattered fields

A format packs a field in pieces, each of them some bits of a byte. Reading a field joins its
pieces, and writing it puts them back. Fields that between them have all the bits of a byte, written
as they were read, give back the byte.
-/

namespace Cells

/-- The `width` bits of a byte from bit `low` on. -/
structure Piece where
  byte : ℕ
  low : ℕ
  width : ℕ

namespace Piece

variable {m : Cells UInt8} {p : Piece} {ps : List Piece} {k top : ℕ}

def get (m : Cells UInt8) (p : Piece) : ℕ := (m p.byte).toNat / 2 ^ p.low % 2 ^ p.width

theorem get_lt : p.get m < 2 ^ p.width := Nat.mod_lt _ (Nat.two_pow_pos _)

/-- The bits of a field, whose pieces are listed from the top one on. -/
def widths (ps : List Piece) : ℕ := (ps.map width).sum

def value (m : Cells UInt8) : List Piece → ℕ
  | [] => 0
  | p :: ps => p.get m * 2 ^ widths ps + value m ps

/-- What a field of value `v` has in byte `k`. -/
def put (v k : ℕ) : List Piece → ℕ
  | [] => 0
  | p :: ps =>
    (if p.byte = k then v / 2 ^ widths ps % 2 ^ p.width * 2 ^ p.low else 0) + put v k ps

/-- What the pieces hold of byte `k`. -/
def held (m : Cells UInt8) (k : ℕ) (ps : List Piece) : ℕ :=
  ((ps.filter fun p => p.byte = k).map fun p => p.get m * 2 ^ p.low).sum

/-- The pieces lie one below the other, from bit `top` down to the lowest one. -/
def Stacked : ℕ → List Piece → Prop
  | top, [] => top = 0
  | top, p :: ps => p.low + p.width = top ∧ Stacked p.low ps

instance Stacked.decidable : ∀ (top : ℕ) (ps : List Piece), Decidable (Stacked top ps)
  | top, [] => inferInstanceAs (Decidable (top = 0))
  | top, p :: ps =>
    have := Stacked.decidable p.low ps
    inferInstanceAs (Decidable (p.low + p.width = top ∧ Stacked p.low ps))

theorem value_lt : ∀ ps : List Piece, value m ps < 2 ^ widths ps
  | [] => Nat.one_pos
  | p :: ps => by
    have hp : p.get m + 1 ≤ 2 ^ p.width := get_lt
    have hps := value_lt ps
    calc
      p.get m * 2 ^ widths ps + value m ps < p.get m * 2 ^ widths ps + 2 ^ widths ps := by omega
      _ = (p.get m + 1) * 2 ^ widths ps := by ring
      _ ≤ 2 ^ p.width * 2 ^ widths ps := Nat.mul_le_mul_right _ hp
      _ = 2 ^ widths (p :: ps) := by rw [← pow_add]; rfl

/-- The upper pieces of a value do not reach the lower ones. -/
theorem put_add (v k : ℕ) : ∀ (ps : List Piece) (a : ℕ),
    put (a * 2 ^ widths ps + v) k ps = put v k ps
  | [], _ => rfl
  | p :: ps, a => by
    have hsplit : a * 2 ^ widths (p :: ps) + v = v + 2 ^ widths ps * (a * 2 ^ p.width) := by
      change a * 2 ^ (p.width + widths ps) + v = _
      ring
    have hrest : a * 2 ^ widths (p :: ps) + v = (a * 2 ^ p.width) * 2 ^ widths ps + v := by
      rw [hsplit]
      ring
    rw [put, put, hrest, put_add v k ps (a * 2 ^ p.width), ← hrest, hsplit,
      Nat.add_mul_div_left _ _ (Nat.two_pow_pos _), Nat.mul_comm a, Nat.add_mul_mod_self_left]

/-- A field written as it was read. -/
theorem put_value (k : ℕ) : ∀ ps : List Piece, put (value m ps) k ps = held m k ps
  | [] => rfl
  | p :: ps => by
    have htop : value m (p :: ps) / 2 ^ widths ps % 2 ^ p.width = p.get m := by
      rw [value, Nat.mul_comm, Nat.mul_add_div (Nat.two_pow_pos _), Nat.div_eq_of_lt (value_lt ps),
        Nat.add_zero, Nat.mod_eq_of_lt get_lt]
    rw [put, htop, value, put_add, put_value k ps, held, held]
    by_cases hk : p.byte = k
    · rw [if_pos hk, List.filter_cons_of_pos (by simpa using hk), List.map_cons, List.sum_cons]
    · rw [if_neg hk, List.filter_cons_of_neg (by simpa using hk), Nat.zero_add]

theorem Stacked.sum_eq {x : ℕ} : ∀ {top : ℕ} {ps : List Piece}, Stacked top ps →
    (ps.map fun p => x / 2 ^ p.low % 2 ^ p.width * 2 ^ p.low).sum = x % 2 ^ top
  | _, [], h => by
    obtain rfl : _ = 0 := h
    exact (Nat.mod_one x).symm
  | top, p :: ps, ⟨htop, hps⟩ => by
    rw [List.map_cons, List.sum_cons, hps.sum_eq, ← htop, pow_add, Nat.mod_mul, Nat.mul_comm,
      Nat.add_comm]

/-- Pieces that make up a byte hold it. -/
theorem Stacked.held_eq (h : Stacked 8 (ps.filter fun p => p.byte = k)) :
    held m k ps = (m k).toNat := by
  have hget : ∀ p ∈ ps.filter fun p => p.byte = k, p.get m * 2 ^ p.low =
      (m k).toNat / 2 ^ p.low % 2 ^ p.width * 2 ^ p.low := by
    intro p hp
    have hk : p.byte = k := by simpa using (List.mem_filter.1 hp).2
    rw [get, hk]
  rw [held, List.map_congr_left hget, h.sum_eq, Nat.mod_eq_of_lt (m k).toNat_lt]

/-- What a record of fields, each a value and its pieces, has in byte `k`. -/
def record (k : ℕ) (fields : List (ℕ × List Piece)) : ℕ := (fields.map fun f => put f.1 k f.2).sum

/-- A record written as it was read gives back every byte its fields make up. -/
theorem record_eq {fields : List (List Piece)}
    (h : Stacked 8 (fields.flatten.filter fun p => p.byte = k)) :
    record k (fields.map fun ps => (value m ps, ps)) = (m k).toNat := by
  have hheld : ∀ fields : List (List Piece),
      record k (fields.map fun ps => (value m ps, ps)) = held m k fields.flatten := by
    intro fields
    induction fields with
    | nil => rfl
    | cons ps fields ih =>
      rw [record] at ih
      rw [record, List.map_cons, List.map_cons, List.sum_cons, ih, put_value, held, held, held,
        List.flatten_cons, List.filter_append, List.map_append, List.sum_append]
  rw [hheld, h.held_eq]

section Words

/-! A piece of a byte, as masks and shifts of a word read it. -/

variable {mask s : UInt32} {low width n : ℕ}

theorem and_mask_nat (x low width : ℕ) :
    x &&& (2 ^ width - 1) <<< low = x / 2 ^ low % 2 ^ width * 2 ^ low := by
  rw [← Nat.shiftLeft_eq, ← Nat.shiftRight_eq_div_pow]
  refine Nat.eq_of_testBit_eq fun i => ?_
  rw [Nat.testBit_and, Nat.testBit_shiftLeft, Nat.testBit_shiftLeft, Nat.testBit_two_pow_sub_one,
    Nat.testBit_mod_two_pow, Nat.testBit_shiftRight]
  by_cases hi : low ≤ i
  · rw [Nat.add_sub_cancel' hi]
    simp [hi, Bool.and_comm]
  · simp [hi]

theorem get_mask (hmask : mask.toNat = (2 ^ width - 1) <<< low) :
    ((m k).toUInt32 &&& mask).toNat = get m ⟨k, low, width⟩ * 2 ^ low := by
  rw [UInt32.toNat_and, UInt8.toNat_toUInt32, hmask, and_mask_nat]
  rfl

theorem get_lowMask (hmask : mask.toNat = 2 ^ width - 1) :
    ((m k).toUInt32 &&& mask).toNat = get m ⟨k, 0, width⟩ := by
  rw [@get_mask m k mask 0 width hmask, pow_zero, Nat.mul_one]

theorem get_shiftLeft (hmask : mask.toNat = (2 ^ width - 1) <<< low) (hs : low + s.toNat = n)
    (hfits : n + width < 32) :
    (((m k).toUInt32 &&& mask) <<< s).toNat = get m ⟨k, low, width⟩ * 2 ^ n := by
  have hget : get m ⟨k, low, width⟩ < 2 ^ width := get_lt
  have hlt : get m ⟨k, low, width⟩ * 2 ^ n < 2 ^ 32 := by
    calc
      get m ⟨k, low, width⟩ * 2 ^ n < 2 ^ width * 2 ^ n :=
        Nat.mul_lt_mul_of_pos_right hget (Nat.two_pow_pos n)
      _ = 2 ^ (width + n) := (pow_add 2 width n).symm
      _ ≤ 2 ^ 32 := Nat.pow_le_pow_right (by decide) (by omega)
  have hshift : s.toNat % 32 = s.toNat := Nat.mod_eq_of_lt (by omega)
  rw [UInt32.toNat_shiftLeft, get_mask hmask, hshift, Nat.shiftLeft_eq, Nat.mul_assoc, ← pow_add,
    hs, Nat.mod_eq_of_lt hlt]

theorem get_shiftRight (hmask : mask.toNat = (2 ^ width - 1) <<< low) (hs : s.toNat = low)
    (hlow : low < 32) :
    (((m k).toUInt32 &&& mask) >>> s).toNat = get m ⟨k, low, width⟩ := by
  rw [UInt32.toNat_shiftRight, get_mask hmask, hs, Nat.mod_eq_of_lt hlow,
    Nat.shiftRight_eq_div_pow, Nat.mul_div_cancel _ (Nat.two_pow_pos low)]

theorem get_byte : (m k).toUInt32.toNat = get m ⟨k, 0, 8⟩ := by
  rw [UInt8.toNat_toUInt32, get, pow_zero, Nat.div_one, Nat.mod_eq_of_lt (m k).toNat_lt]

/-- A field of two pieces, joined in a word. -/
theorem value_or {x y : UInt32} {p q : Piece} (hx : x.toNat = p.get m * 2 ^ q.width)
    (hy : y.toNat = q.get m) : (x ||| y).toNat = value m [p, q] := by
  have hq : q.get m < 2 ^ q.width := get_lt
  rw [UInt32.toNat_or, hx, hy, Nat.mul_comm, ← Nat.two_pow_add_eq_or_of_lt hq, Nat.mul_comm]
  simp [value, widths]

end Words

end Piece

end Cells
