import Edk2Rk3576.Ohci.MemPool
import Mathlib.Data.Nat.Bitwise
import Mathlib.Tactic.IntervalCases

/-!
# Blocks as regions of units

The byte and the bit the pool works with are the quotient and the remainder of a unit by eight, so
its loops over the array of bits are a search of the units, and the marking of a row of them.
-/

namespace Edk2Rk3576.Ohci

open Cells UnitPool

variable {bits bits' : Cells UInt8} {x : UInt8} {b c u s n units bitsLen fuel : ℕ}
  {block block' : UsbHcMemBlock}

theorem toNat_usbHcBit (hb : b < 8) : (usbHcBit b).toNat = 2 ^ b := by
  interval_cases b <;> rfl

theorem usbHcBitIsSet_eq_testBit (hb : b < 8) : usbHcBitIsSet x b = x.toNat.testBit b := by
  rw [usbHcBitIsSet, Bool.eq_iff_iff, beq_iff_eq, ← UInt8.toNat_inj, UInt8.toNat_and,
    toNat_usbHcBit hb, Nat.and_two_pow]
  have hpos : 2 ^ b ≠ 0 := by simp
  cases x.toNat.testBit b <;> simp [hpos.symm]

theorem usbHcBitIsSet_or (hb : b < 8) (hc : c < 8) :
    usbHcBitIsSet (x ||| usbHcBit b) c = (usbHcBitIsSet x c || decide (b = c)) := by
  rw [usbHcBitIsSet_eq_testBit hc, usbHcBitIsSet_eq_testBit hc, UInt8.toNat_or, Nat.testBit_or,
    toNat_usbHcBit hb, Nat.testBit_two_pow]

theorem usbHcBitIsSet_xor (hb : b < 8) (hc : c < 8) :
    usbHcBitIsSet (x ^^^ usbHcBit b) c = (usbHcBitIsSet x c ^^ decide (b = c)) := by
  rw [usbHcBitIsSet_eq_testBit hc, usbHcBitIsSet_eq_testBit hc, UInt8.toNat_xor, Nat.testBit_xor,
    toNat_usbHcBit hb, Nat.testBit_two_pow]

/-- Where the bit of a unit is. -/
def bitPos (u : ℕ) : ℕ × ℕ := (u / 8, u % 8)

def takenUnits (bits : Cells UInt8) (u : ℕ) : Bool := usbHcBitIsSet (bits (u / 8)) (u % 8)

theorem nextBit_bitPos : nextBit (bitPos u) = bitPos (u + 1) := by
  rw [nextBit, bitPos, bitPos]
  split_ifs with h
  · simp only [Prod.mk.injEq]
    omega
  · simp only [Prod.mk.injEq]
    omega

theorem takenUnits_update (hu : u / 8 = c / 8) (y : UInt8) :
    takenUnits (Function.update bits (u / 8) y) c = usbHcBitIsSet y (c % 8) := by
  rw [takenUnits, ← hu, Function.update_self]

theorem takenUnits_update_of_ne (hu : u / 8 ≠ c / 8) (y : UInt8) :
    takenUnits (Function.update bits (u / 8) y) c = takenUnits bits c := by
  rw [takenUnits, Function.update_of_ne (Ne.symm hu), takenUnits]

theorem takenUnits_mark :
    takenUnits (Function.update bits (u / 8) (bits (u / 8) ||| usbHcBit (u % 8))) =
      take (takenUnits bits) u 1 := by
  funext c
  rw [take]
  by_cases hu : u / 8 = c / 8
  · rw [takenUnits_update hu, usbHcBitIsSet_or (by omega) (by omega), takenUnits, hu]
    congr 1
    exact decide_eq_decide.2 (by omega)
  · rw [takenUnits_update_of_ne hu, decide_eq_false (by omega), Bool.or_false]

theorem takenUnits_reset (htaken : takenUnits bits u = true) :
    takenUnits (Function.update bits (u / 8) (bits (u / 8) ^^^ usbHcBit (u % 8))) =
      release (takenUnits bits) u 1 := by
  funext c
  rw [release]
  by_cases hu : u / 8 = c / 8
  · rw [takenUnits_update hu, usbHcBitIsSet_xor (by omega) (by omega)]
    by_cases hc : u = c
    · rw [← hc, decide_eq_true rfl, decide_eq_true (show u ≤ u ∧ u < u + 1 by omega)]
      rw [htaken]
      rw [takenUnits] at htaken
      rw [htaken]
      rfl
    · rw [decide_eq_false (show ¬ u % 8 = c % 8 by omega),
        decide_eq_false (show ¬ (u ≤ c ∧ c < u + 1) by omega), takenUnits, hu]
      simp
  · rw [takenUnits_update_of_ne hu, decide_eq_false (show ¬ (u ≤ c ∧ c < u + 1) by omega)]
    simp

theorem usbHcMarkBits_ok (hfree : Free (takenUnits bits) s n) :
    ∃ bits', usbHcMarkBits n (bitPos s) bits = .ok bits' ∧
      takenUnits bits' = take (takenUnits bits) s n := by
  induction n generalizing s bits with
  | zero =>
    refine ⟨bits, rfl, funext fun c => ?_⟩
    rw [take, decide_eq_false (by omega), Bool.or_false]
  | succ n ih =>
    have hs : usbHcBitIsSet (bits (bitPos s).1) (bitPos s).2 = false :=
      hfree s le_rfl (by omega)
    have hrest : Free (takenUnits
        (Function.update bits (s / 8) (bits (s / 8) ||| usbHcBit (s % 8)))) (s + 1) n := by
      intro v hv hlt
      rw [takenUnits_mark, take, hfree v (by omega) (by omega), decide_eq_false (by omega)]
      rfl
    obtain ⟨bits', hok, htaken⟩ := ih hrest
    refine ⟨bits', ?_, ?_⟩
    · rw [usbHcMarkBits, hs, nextBit_bitPos]
      exact hok
    · rw [htaken, takenUnits_mark]
      funext c
      rw [take, take, take, Bool.or_assoc, ← Bool.decide_or]
      congr 1
      exact decide_eq_decide.2 (by omega)

theorem usbHcResetBits_ok (htaken : ∀ v, s ≤ v → v < s + n → takenUnits bits v = true) :
    ∃ bits', usbHcResetBits n (bitPos s) bits = .ok bits' ∧
      takenUnits bits' = release (takenUnits bits) s n := by
  induction n generalizing s bits with
  | zero =>
    refine ⟨bits, rfl, funext fun c => ?_⟩
    rw [release, decide_eq_false (by omega)]
    simp
  | succ n ih =>
    have hs : takenUnits bits s = true := htaken s le_rfl (by omega)
    have hset : usbHcBitIsSet (bits (bitPos s).1) (bitPos s).2 = true := hs
    have hrest : ∀ v, s + 1 ≤ v → v < s + 1 + n → takenUnits
        (Function.update bits (s / 8) (bits (s / 8) ^^^ usbHcBit (s % 8))) v = true := by
      intro v hv hlt
      rw [takenUnits_reset hs, release, htaken v (by omega) (by omega),
        decide_eq_false (by omega)]
      rfl
    obtain ⟨bits', hok, hreleased⟩ := ih hrest
    refine ⟨bits', ?_, ?_⟩
    · rw [usbHcResetBits, hset, nextBit_bitPos]
      exact hok
    · rw [hreleased, takenUnits_reset hs]
      funext c
      rw [release, release, release, Bool.and_assoc, ← Bool.not_or, ← Bool.decide_or]
      congr 2
      exact decide_eq_decide.2 (by omega)

theorem usbHcSearchBits_succ {start : ℕ × ℕ} {available : ℕ} (hu : u < 8 * bitsLen) :
    usbHcSearchBits bits bitsLen units (fuel + 1) (bitPos u) start available =
      if takenUnits bits u then
        usbHcSearchBits bits bitsLen units fuel (bitPos (u + 1)) (bitPos (u + 1)) 0
      else if units ≤ available + 1 then (available + 1, start)
      else usbHcSearchBits bits bitsLen units fuel (bitPos (u + 1)) start (available + 1) := by
  have hin : (bitPos u).1 < bitsLen := by
    rw [bitPos]
    omega
  rw [usbHcSearchBits, if_pos hin, nextBit_bitPos]
  change (if !takenUnits bits u then _ else _ : ℕ × ℕ × ℕ) = _
  cases takenUnits bits u <;> rfl

/-- The search of the array ends as that of the units does. -/
theorem usbHcSearchBits_eq (bits : Cells UInt8) (hu : s ≤ u) (hshort : u < s + units) (hfuel : u + fuel = 8 * bitsLen) :
    (∀ a, search (takenUnits bits) units fuel u s = some a →
        usbHcSearchBits bits bitsLen units fuel (bitPos u) (bitPos s) (u - s) =
          (units, bitPos a)) ∧
      (search (takenUnits bits) units fuel u s = none →
        (usbHcSearchBits bits bitsLen units fuel (bitPos u) (bitPos s) (u - s)).1 < units) := by
  induction fuel generalizing u s with
  | zero =>
    refine ⟨fun a ha => (by cases ha), fun _ => ?_⟩
    rw [usbHcSearchBits]
    omega
  | succ fuel ih =>
    rw [search, usbHcSearchBits_succ (by omega)]
    by_cases htaken : takenUnits bits u
    · rw [if_pos htaken, if_pos htaken]
      have hskip := ih (u := u + 1) (s := u + 1) le_rfl (by omega) (by omega)
      rwa [Nat.sub_self] at hskip
    · rw [if_neg htaken, if_neg htaken]
      by_cases hlong : units ≤ u - s + 1
      · rw [if_pos hlong, if_pos hlong]
        refine ⟨fun a ha => ?_, fun hnone => by cases hnone⟩
        obtain rfl := Option.some.inj ha
        rw [show u - s + 1 = units by omega]
      · rw [if_neg hlong, if_neg hlong]
        have hnext := ih (u := u + 1) (s := s) (by omega) (by omega) (by omega)
        rwa [show u + 1 - s = u - s + 1 by omega] at hnext

/-- A byte is zero when none of its bits is set. -/
theorem eq_zero_iff_bits : x = 0 ↔ ∀ b < 8, usbHcBitIsSet x b = false := by
  constructor
  · rintro rfl b hb
    rw [usbHcBitIsSet_eq_testBit hb]
    exact Nat.zero_testBit b
  · intro h
    rw [← UInt8.toNat_inj]
    refine Nat.eq_of_testBit_eq fun b => ?_
    rcases Nat.lt_or_ge b 8 with hb | hb
    · rw [← usbHcBitIsSet_eq_testBit hb, h b hb]
      exact (Nat.zero_testBit b).symm
    · have hlt : x.toNat < 2 ^ b :=
        x.toNat_lt.trans_le (Nat.pow_le_pow_right (by decide) hb)
      rw [Nat.testBit_lt_two_pow hlt]
      exact (Nat.zero_testBit b).symm

/-- A block of whole pages below `top`, which has eight bytes of bits for each. -/
structure UsbHcMemBlock.Sized (block : UsbHcMemBlock) (top pages : ℕ) : Prop where
  pos : 0 < pages
  host : block.bufHost ≠ 0
  aligned : efiPageSize ∣ block.bufHost
  bufLen : block.bufLen = pages * efiPageSize
  bitsLen : block.bitsLen = 8 * pages
  fits : block.bufHost + block.bufLen ≤ top

namespace UsbHcMemBlock

/-- The units of a block. -/
def region (block : UsbHcMemBlock) : Region where
  base := block.bufHost
  units := 8 * block.bitsLen
  taken := takenUnits block.bits

theorem isMemBlockEmpty_iff :
    usbHcIsMemBlockEmpty block = true ↔ ∀ u < block.region.units, block.region.taken u = false := by
  simp only [usbHcIsMemBlockEmpty, List.all_eq_true, List.mem_range, beq_iff_eq, eq_zero_iff_bits]
  constructor
  · intro h u hu
    have hlt : u < 8 * block.bitsLen := hu
    exact h (u / 8) (by omega) (u % 8) (by omega)
  · intro h i hi b hb
    have htaken := h (8 * i + b) (show 8 * i + b < 8 * block.bitsLen by omega)
    change takenUnits block.bits (8 * i + b) = false at htaken
    rwa [takenUnits, show (8 * i + b) / 8 = i by omega, show (8 * i + b) % 8 = b by omega] at htaken

/-- The same block with other units taken. -/
structure Changed (block block' : UsbHcMemBlock) (taken : ℕ → Bool) : Prop where
  same : block' = { block with bits := block'.bits }
  taken : takenUnits block'.bits = taken

theorem Changed.region {taken : ℕ → Bool} (h : Changed block block' taken) :
    block'.region = { block.region with taken := taken } := by
  rw [UsbHcMemBlock.region, h.same, ← h.taken]
  rfl

theorem Changed.sized {taken : ℕ → Bool} {top pages : ℕ} (h : Changed block block' taken)
    (hb : block.Sized top pages) : block'.Sized top pages := by
  rw [h.same]
  exact ⟨hb.pos, hb.host, hb.aligned, hb.bufLen, hb.bitsLen, hb.fits⟩

/-- The block in which the lowest place of `n` free units is taken. -/
structure Took (n s : ℕ) (block block' : UsbHcMemBlock) : Prop where
  least : IsLeast (places block.region.taken block.region.units n) s
  changed : Changed block block' (take block.region.taken s n)

end UsbHcMemBlock

open UsbHcMemBlock

/-- An allocation takes the lowest place of a block that has one, and leaves the others alone. -/
theorem usbHcAllocMemFromBlock_ok (block : UsbHcMemBlock) (hn : 0 < n) :
    (places block.region.taken block.region.units n = ∅ ∧
        usbHcAllocMemFromBlock block n = .ok (0, block)) ∨
      ∃ s block', Took n s block block' ∧
        usbHcAllocMemFromBlock block n = .ok (block.bufHost + usbHcMemUnit * s, block') := by
  rw [usbHcAllocMemFromBlock, if_neg (by omega)]
  obtain ⟨hsome, hnone⟩ := usbHcSearchBits_eq block.bits le_rfl (by omega : 0 < 0 + n)
    (Nat.zero_add (8 * block.bitsLen))
  rcases hsearch : search (takenUnits block.bits) n (8 * block.bitsLen) 0 0 with _ | s
  · left
    have hshort := hnone hsearch
    refine ⟨search_eq_none hn hsearch, ?_⟩
    exact if_pos hshort
  · right
    have hfound : usbHcSearchBits block.bits block.bitsLen n (8 * block.bitsLen) (0, 0) (0, 0) 0 =
        (n, bitPos s) := hsome s hsearch
    have hleast := search_eq_some hn hsearch
    obtain ⟨bits', hmark, htake⟩ := usbHcMarkBits_ok hleast.1.2
    refine ⟨s, { block with bits := bits' }, ⟨hleast, rfl, htake⟩, ?_⟩
    simp only [hfound]
    rw [if_neg (by omega), hmark]
    change Except.ok (_ + (s / 8 * 8 + s % 8) * usbHcMemUnit, _) = _
    rw [show s / 8 * 8 + s % 8 = s by omega, Nat.mul_comm]

/-- The units of an allocation are free again. -/
theorem usbHcFreeInBlock_ok
    (htaken : ∀ u, s ≤ u → u < s + n → block.region.taken u = true) :
    ∃ block', Changed block block' (release block.region.taken s n) ∧
      usbHcFreeInBlock (block.bufHost + usbHcMemUnit * s) (usbHcMemUnit * n) block =
        .ok block' := by
  obtain ⟨bits', hreset, hrelease⟩ := usbHcResetBits_ok htaken
  have hunit : (block.bufHost + usbHcMemUnit * s - block.bufHost) / usbHcMemUnit = s := by
    rw [Nat.add_sub_cancel_left]
    exact Nat.mul_div_cancel_left s (by decide)
  have hcount : usbHcMemUnit * n / usbHcMemUnit = n := Nat.mul_div_cancel_left n (by decide)
  refine ⟨{ block with bits := bits' }, ⟨rfl, hrelease⟩, ?_⟩
  simp only [usbHcFreeInBlock, hunit, hcount]
  rw [bitPos] at hreset
  rw [hreset]
  rfl

end Edk2Rk3576.Ohci
