import Edk2Rk3576.Lib.CInt
import Mathlib.Algebra.BigOperators.Group.List.Basic

/-!
# The size of the DRAM

The stage that trains the DRAM leaves its geometry in pairs of registers, one pair for a bank of up
to two channels, and `SdramGetMemorySize` sums the sizes of the channels in megabytes.

A channel's second rank is sized from the first, by shifting it to the right by what the second has
less of rows and columns. Where the second has more of them the count is negative.
-/

namespace Edk2Rk3576

section Fields

/-- A field that is the channel's own: where it starts in the register is by the channel. -/
def sysRegCh (first second mask x : UInt32) (c : ℕ) : UInt32 :=
  (x >>> (if c ≠ 0 then second else first)) &&& mask

def sysRegDdrtype (x : UInt32) : UInt32 := (x >>> 13) &&& 0x7
def sysRegChannelnum (x : UInt32) : UInt32 := (x >>> 12) &&& 0x1
def sysRegRankCh : UInt32 → ℕ → UInt32 := sysRegCh 11 27 0x1
def sysRegColCh : UInt32 → ℕ → UInt32 := sysRegCh 9 25 0x3
def sysRegBkCh : UInt32 → ℕ → UInt32 := sysRegCh 8 24 0x1
def sysRegCs0RowChLo : UInt32 → ℕ → UInt32 := sysRegCh 6 22 0x3
def sysRegCs1RowChLo : UInt32 → ℕ → UInt32 := sysRegCh 4 20 0x3
def sysRegBwCh : UInt32 → ℕ → UInt32 := sysRegCh 2 18 0x3
def sysRegRow34Ch : UInt32 → ℕ → UInt32 := sysRegCh 30 31 0x1
def sysRegDbwCh : UInt32 → ℕ → UInt32 := sysRegCh 0 16 0x3

def sysReg1Version (x : UInt32) : UInt32 := (x >>> 28) &&& 0xF
def sysReg1Cs0RowChHi : UInt32 → ℕ → UInt32 := sysRegCh 5 7 0x1
def sysReg1Cs1RowChHi : UInt32 → ℕ → UInt32 := sysRegCh 4 6 0x1
def sysReg1Cs1ColCh : UInt32 → ℕ → UInt32 := sysRegCh 0 2 0x3
def sysReg1ExtendedDdrtype (x : UInt32) : UInt32 := (x >>> 12) &&& 0x3

end Fields

def sdramDdr4 : UInt32 := 0
def sdramLpddr5 : UInt32 := 9

/-- What the registers can describe of a channel. The bank bits, with those of the bank group, and
the width are exponents. -/
structure SdramChannel where
  rank : ℕ
  cs0Col : ℕ
  cs1Col : ℕ
  cs0Row : ℕ
  cs1Row : ℕ
  bk : ℕ
  bg : ℕ
  bw : ℕ
  row34 : ℕ
  col_ge : 9 ≤ cs0Col ∧ 9 ≤ cs1Col
  col_le : cs0Col ≤ 12 ∧ cs1Col ≤ 12
  row_ge : 12 ≤ cs0Row ∧ 12 ≤ cs1Row
  row_le : cs0Row ≤ 19 ∧ cs1Row ≤ 19
  bk_ge : 2 ≤ bk
  bk_le : bk + bg ≤ 5
  bw_le : bw ≤ 2

section Decode

variable (osReg osReg1 : UInt32)

/-- `DdrType`. -/
def sdramDdrType : UInt32 :=
  if 3 ≤ sysReg1Version osReg1 then sysRegDdrtype osReg ||| sysReg1ExtendedDdrtype osReg1 <<< 3
  else sysRegDdrtype osReg

def sdramChNum : ℕ := 1 + (sysRegChannelnum osReg).toNat

/-- The rows, of the field's low bits and, from version 2 on, a high bit. Seven stands for the
smallest. -/
def sdramRow (version hi lo : UInt32) : ℕ :=
  if 2 ≤ version then
    if (hi.toNat <<< 2) + lo.toNat = 7 then 12 else 13 + (hi.toNat <<< 2) + lo.toNat
  else 13 + lo.toNat

variable (ch : ℕ)

def sdramCs1Col : ℕ :=
  if 2 ≤ sysReg1Version osReg1 then 9 + (sysReg1Cs1ColCh osReg1 ch).toNat
  else 9 + (sysRegColCh osReg ch).toNat

def sdramCs0Row : ℕ :=
  sdramRow (sysReg1Version osReg1) (sysReg1Cs0RowChHi osReg1 ch) (sysRegCs0RowChLo osReg ch)

def sdramCs1Row : ℕ :=
  sdramRow (sysReg1Version osReg1) (sysReg1Cs1RowChHi osReg1 ch) (sysRegCs1RowChLo osReg ch)

def sdramBk : ℕ :=
  if sdramDdrType osReg osReg1 = sdramLpddr5 then 3 + (sysRegBkCh osReg ch).toNat
  else 3 - (sysRegBkCh osReg ch).toNat

def sdramBg : ℕ :=
  if sdramDdrType osReg osReg1 = sdramDdr4 ∧ sysReg1Version osReg1 ≠ 3 then
    if sysRegDbwCh osReg ch = 2 then 2 else 1
  else 0

theorem sysRegCh_le (first second mask x : UInt32) (c : ℕ) :
    (sysRegCh first second mask x c).toNat ≤ mask.toNat := by
  rw [sysRegCh, UInt32.toNat_and]
  exact Nat.and_le_right

theorem sdramRow_mem {version hi lo : UInt32} (hhi : hi.toNat ≤ 1) (hlo : lo.toNat ≤ 3) :
    12 ≤ sdramRow version hi lo ∧ sdramRow version hi lo ≤ 19 := by
  unfold sdramRow
  split_ifs <;> omega

theorem sdramCs0Row_mem : 12 ≤ sdramCs0Row osReg osReg1 ch ∧ sdramCs0Row osReg osReg1 ch ≤ 19 :=
  sdramRow_mem (sysRegCh_le 5 7 0x1 osReg1 ch) (sysRegCh_le 6 22 0x3 osReg ch)

theorem sdramCs1Row_mem : 12 ≤ sdramCs1Row osReg osReg1 ch ∧ sdramCs1Row osReg osReg1 ch ≤ 19 :=
  sdramRow_mem (sysRegCh_le 4 6 0x1 osReg1 ch) (sysRegCh_le 4 20 0x3 osReg ch)

theorem sdramCs1Col_mem : 9 ≤ sdramCs1Col osReg osReg1 ch ∧ sdramCs1Col osReg osReg1 ch ≤ 12 := by
  have hcs1 : (sysReg1Cs1ColCh osReg1 ch).toNat ≤ 3 := sysRegCh_le 0 2 0x3 osReg1 ch
  have hcol : (sysRegColCh osReg ch).toNat ≤ 3 := sysRegCh_le 9 25 0x3 osReg ch
  unfold sdramCs1Col
  split <;> omega

/-- Only a type without bank groups has a fourth bank bit. -/
theorem sdramBk_mem : 2 ≤ sdramBk osReg osReg1 ch ∧
    sdramBk osReg osReg1 ch + sdramBg osReg osReg1 ch ≤ 5 := by
  have hbk : (sysRegBkCh osReg ch).toNat ≤ 1 := sysRegCh_le 8 24 0x1 osReg ch
  unfold sdramBk sdramBg
  by_cases h : sdramDdrType osReg osReg1 = sdramLpddr5
  · have hddr4 : ¬ (sdramDdrType osReg osReg1 = sdramDdr4 ∧ sysReg1Version osReg1 ≠ 3) := by
      rw [h]
      exact fun h => absurd h.1 (by decide)
    rw [if_pos h, if_neg hddr4]
    omega
  · rw [if_neg h]
    split_ifs <;> omega

def sdramChannel : SdramChannel where
  rank := 1 + (sysRegRankCh osReg ch).toNat
  cs0Col := 9 + (sysRegColCh osReg ch).toNat
  cs1Col := sdramCs1Col osReg osReg1 ch
  cs0Row := sdramCs0Row osReg osReg1 ch
  cs1Row := sdramCs1Row osReg osReg1 ch
  bk := sdramBk osReg osReg1 ch
  bg := sdramBg osReg osReg1 ch
  bw := 2 >>> (sysRegBwCh osReg ch).toNat
  row34 := (sysRegRow34Ch osReg ch).toNat
  col_ge := ⟨Nat.le_add_right .., (sdramCs1Col_mem osReg osReg1 ch).1⟩
  col_le := ⟨Nat.add_le_add_left (sysRegCh_le 9 25 0x3 osReg ch) 9,
    (sdramCs1Col_mem osReg osReg1 ch).2⟩
  row_ge := ⟨(sdramCs0Row_mem osReg osReg1 ch).1, (sdramCs1Row_mem osReg osReg1 ch).1⟩
  row_le := ⟨(sdramCs0Row_mem osReg osReg1 ch).2, (sdramCs1Row_mem osReg osReg1 ch).2⟩
  bk_ge := (sdramBk_mem osReg osReg1 ch).1
  bk_le := (sdramBk_mem osReg osReg1 ch).2
  bw_le := Nat.shiftRight_le 2 _

end Decode

section Size

variable (c : SdramChannel)

/-- The exponent of a channel's size in megabytes. -/
def SdramChannel.exponent : Option ℤ := do
  let exponent ← CInt.add 32 c.cs0Row c.cs0Col
  let exponent ← CInt.add 32 exponent c.bk
  let exponent ← CInt.add 32 exponent c.bg
  let exponent ← CInt.add 32 exponent c.bw
  CInt.sub 32 exponent 20

/-- What the second rank has less of rows and columns. -/
def SdramChannel.less : Option ℤ := do
  let rows ← CInt.sub 32 c.cs0Row c.cs1Row
  let cols ← CInt.sub 32 c.cs0Col c.cs1Col
  CInt.add 32 rows cols

def SdramChannel.addSecondRank (chSizeMb : ℤ) : Option ℤ :=
  if 1 < c.rank then do CInt.add 32 chSizeMb (← CInt.shiftRight 32 chSizeMb (← c.less))
  else some chSizeMb

def SdramChannel.cutRow34 (chSizeMb : ℤ) : Option ℤ :=
  if c.row34 ≠ 0 then do CInt.div 32 (← CInt.mul 32 chSizeMb 3) 4 else some chSizeMb

/-- `ChSizeMb`. -/
def SdramChannel.chSizeMb : Option ℤ := do
  let chSizeMb ← CInt.shiftLeft 32 1 (← c.exponent)
  let chSizeMb ← c.addSecondRank chSizeMb
  c.cutRow34 chSizeMb

end Size

def pmu1GrfBase : ℕ := 0x26026000
def pmugrfOsReg (n : ℕ) : ℕ := 0x200 + n * 4
def sdramOsRegBase : ℕ := pmu1GrfBase + pmugrfOsReg 2
def sdramBankCount : ℕ := 2

/-- How a call does not return: it does what C leaves undefined, or fails its assertion. -/
inductive SdramHalt
  | undefined
  | assertion
  deriving DecidableEq

section Sum

/-- The loop over a bank's channels. -/
def addChannel (sizeMb : ℤ) (c : SdramChannel) : Option ℤ := do
  CInt.add 32 sizeMb (← c.chSizeMb)

/-- The channels that a bank's registers describe. -/
def bankChannels (osReg osReg1 : UInt32) : List SdramChannel :=
  (List.range (sdramChNum osReg)).map (sdramChannel osReg osReg1)

def addBank (mmio : ℕ → UInt32) (sizeMb : ℤ) (bank : ℕ) : Option ℤ :=
  let osReg := mmio (sdramOsRegBase + 8 * bank)
  let osReg1 := mmio (sdramOsRegBase + 8 * bank + 4)
  -- A bank whose registers are all zero was never trained.
  if osReg = 0 ∧ osReg1 = 0 then some sizeMb
  else (bankChannels osReg osReg1).foldlM addChannel sizeMb

def sdramGetMemorySize (debugAssert : Bool) (mmio : ℕ → UInt32) : Except SdramHalt ℕ :=
  match (List.range sdramBankCount).foldlM (addBank mmio) 0 with
  | none => .error .undefined
  | some sizeMb =>
    if debugAssert ∧ sizeMb = 0 then .error .assertion
    else .ok (sizeMb % 2 ^ 64 * 1024 * 1024 % 2 ^ 64).toNat

end Sum

section Spec

/-- A rank has two to the row, column and bank bits places, of the bus's width each. -/
def SdramChannel.rankBytes (c : SdramChannel) (row col : ℕ) : ℕ :=
  2 ^ row * 2 ^ col * 2 ^ (c.bk + c.bg) * 2 ^ c.bw

/-- What a channel holds, in bytes: three quarters of its ranks where only those rows are there. -/
def SdramChannel.capacity (c : SdramChannel) : ℕ :=
  let ranks := c.rankBytes c.cs0Row c.cs0Col +
    if 1 < c.rank then c.rankBytes c.cs1Row c.cs1Col else 0
  if c.row34 ≠ 0 then ranks / 4 * 3 else ranks

/-- The second rank is not larger than the first. -/
def SdramChannel.Ordered (c : SdramChannel) : Prop :=
  1 < c.rank → c.cs1Row + c.cs1Col ≤ c.cs0Row + c.cs0Col

instance : DecidablePred SdramChannel.Ordered := fun _ => inferInstanceAs (Decidable (_ → _))

/-- The channels of a bank, unless its registers are all zero. -/
def describedIn (mmio : ℕ → UInt32) (bank : ℕ) : List SdramChannel :=
  let osReg := mmio (sdramOsRegBase + 8 * bank)
  let osReg1 := mmio (sdramOsRegBase + 8 * bank + 4)
  if osReg = 0 ∧ osReg1 = 0 then [] else bankChannels osReg osReg1

def describedChannels (mmio : ℕ → UInt32) : List SdramChannel :=
  (List.range sdramBankCount).flatMap (describedIn mmio)

end Spec

namespace SdramChannel

variable {c : SdramChannel}

theorem fits_of_lt {x : ℤ} (hge : -2 ^ 21 ≤ x) (hle : x ≤ 2 ^ 21) : CInt.Fits 32 x := by
  unfold CInt.Fits
  omega

/-- A rank's exponent in megabytes. -/
def rankExponent (c : SdramChannel) (row col : ℕ) : ℕ := row + col + c.bk + c.bg + c.bw - 20

theorem rankBytes_eq {row col : ℕ} (hrow : 12 ≤ row) (hcol : 9 ≤ col) :
    c.rankBytes row col = 2 ^ c.rankExponent row col * 2 ^ 20 := by
  have hbk := c.bk_ge
  rw [rankBytes, rankExponent, ← pow_add, ← pow_add, ← pow_add, ← pow_add]
  congr 1
  omega

theorem exponent_eq (c : SdramChannel) :
    c.exponent = some (c.rankExponent c.cs0Row c.cs0Col : ℤ) := by
  have := c.col_le
  have := c.row_le
  have := c.row_ge
  have := c.col_ge
  have := c.bk_ge
  have := c.bk_le
  have := c.bw_le
  have hrow := @CInt.add_natCast 32 c.cs0Row c.cs0Col (by omega)
  have hbk := @CInt.add_natCast 32 (c.cs0Row + c.cs0Col) c.bk (by omega)
  have hbg := @CInt.add_natCast 32 (c.cs0Row + c.cs0Col + c.bk) c.bg (by omega)
  have hbw := @CInt.add_natCast 32 (c.cs0Row + c.cs0Col + c.bk + c.bg) c.bw (by omega)
  have hsub := @CInt.sub_natCast 32 (c.cs0Row + c.cs0Col + c.bk + c.bg + c.bw) 20 (by omega)
    (by omega)
  rw [Nat.cast_ofNat] at hsub
  simp only [exponent, Option.bind_eq_bind]
  rw [hrow, Option.bind_some, hbk, Option.bind_some, hbg, Option.bind_some, hbw, Option.bind_some,
    hsub, rankExponent]

theorem less_eq (c : SdramChannel) :
    c.less = some ((c.cs0Row + c.cs0Col : ℤ) - (c.cs1Row + c.cs1Col : ℤ)) := by
  have := c.col_le
  have := c.row_le
  have hrows : CInt.sub 32 (c.cs0Row : ℤ) c.cs1Row = some ((c.cs0Row : ℤ) - c.cs1Row) :=
    CInt.sub_of_fits (fits_of_lt (by omega) (by omega))
  have hcols : CInt.sub 32 (c.cs0Col : ℤ) c.cs1Col = some ((c.cs0Col : ℤ) - c.cs1Col) :=
    CInt.sub_of_fits (fits_of_lt (by omega) (by omega))
  have hadd : CInt.add 32 ((c.cs0Row : ℤ) - c.cs1Row) ((c.cs0Col : ℤ) - c.cs1Col) =
      some (((c.cs0Row : ℤ) - c.cs1Row) + ((c.cs0Col : ℤ) - c.cs1Col)) :=
    CInt.add_of_fits (fits_of_lt (by omega) (by omega))
  simp only [less, Option.bind_eq_bind]
  rw [hrows, Option.bind_some, hcols, Option.bind_some, hadd]
  congr 1
  omega

/-- A rank's exponent is in a range that leaves room for the rest of the sum, and lets a rank be cut
in four. -/
theorem rankExponent_mem {row col : ℕ} (hrow : 12 ≤ row) (hcol : 9 ≤ col) (hrow' : row ≤ 19)
    (hcol' : col ≤ 12) : 3 ≤ c.rankExponent row col ∧ c.rankExponent row col ≤ 18 := by
  have := c.bk_ge
  have := c.bk_le
  have := c.bw_le
  unfold rankExponent
  omega

/-- The ranks together, in megabytes. -/
def ranksMb (c : SdramChannel) : ℕ :=
  2 ^ c.rankExponent c.cs0Row c.cs0Col +
    if 1 < c.rank then 2 ^ c.rankExponent c.cs1Row c.cs1Col else 0

/-- A channel in megabytes. -/
def mb (c : SdramChannel) : ℕ := if c.row34 ≠ 0 then c.ranksMb * 3 / 4 else c.ranksMb

/-- A rank is of at least eight megabytes, and of whole ones. -/
theorem rankMb_mem {row col : ℕ} (hrow : 12 ≤ row) (hcol : 9 ≤ col) (hrow' : row ≤ 19)
    (hcol' : col ≤ 12) : ∃ k, 2 ^ c.rankExponent row col = 8 * k ∧ 0 < k ∧ k ≤ 2 ^ 15 := by
  obtain ⟨hge, hle⟩ := @rankExponent_mem c row col hrow hcol hrow' hcol'
  refine ⟨2 ^ (c.rankExponent row col - 3), ?_, Nat.pow_pos (by decide), ?_⟩
  · rw [show 8 = 2 ^ 3 from rfl, ← pow_add]
    congr 1
    omega
  · exact Nat.pow_le_pow_right (by decide) (by omega)

theorem ranksMb_mem (c : SdramChannel) :
    ∃ k, c.ranksMb = 4 * k ∧ 0 < k ∧ k ≤ 2 ^ 17 := by
  obtain ⟨k, hk, hpos, hle⟩ :=
    @rankMb_mem c _ _ c.row_ge.1 c.col_ge.1 c.row_le.1 c.col_le.1
  obtain ⟨k', hk', -, hle'⟩ :=
    @rankMb_mem c _ _ c.row_ge.2 c.col_ge.2 c.row_le.2 c.col_le.2
  unfold ranksMb
  rw [hk, hk']
  split_ifs
  · exact ⟨2 * k + 2 * k', by omega, by omega, by omega⟩
  · exact ⟨2 * k, by omega, by omega, by omega⟩

theorem mb_mem (c : SdramChannel) : 0 < c.mb ∧ c.mb ≤ 2 ^ 19 := by
  obtain ⟨k, hk, hpos, hle⟩ := ranksMb_mem c
  unfold mb
  split <;> omega

theorem capacity_eq (c : SdramChannel) : c.capacity = c.mb * 2 ^ 20 := by
  have hranks : (c.rankBytes c.cs0Row c.cs0Col +
      if 1 < c.rank then c.rankBytes c.cs1Row c.cs1Col else 0) = c.ranksMb * 2 ^ 20 := by
    rw [rankBytes_eq c.row_ge.1 c.col_ge.1, rankBytes_eq c.row_ge.2 c.col_ge.2, ranksMb]
    split_ifs
    · rw [Nat.add_mul]
    · rw [Nat.add_zero, Nat.add_zero]
  obtain ⟨k, hk, -, -⟩ := ranksMb_mem c
  unfold capacity mb
  simp only []
  rw [hranks]
  split <;> omega

theorem firstRank_eq (c : SdramChannel) :
    CInt.shiftLeft 32 1 (c.rankExponent c.cs0Row c.cs0Col : ℤ) =
      some ((2 ^ c.rankExponent c.cs0Row c.cs0Col : ℕ) : ℤ) := by
  obtain ⟨-, hle⟩ := @rankExponent_mem c _ _ c.row_ge.1 c.col_ge.1 c.row_le.1 c.col_le.1
  have hpow : 2 ^ c.rankExponent c.cs0Row c.cs0Col ≤ 2 ^ 18 := Nat.pow_le_pow_right (by decide) hle
  have hshift := @CInt.shiftLeft_natCast 32 1 (c.rankExponent c.cs0Row c.cs0Col) (by omega)
    (by omega)
  rwa [Nat.cast_one, one_mul] at hshift

/-- What shifts the first rank to the second. -/
theorem secondRank_eq (h : c.cs1Row + c.cs1Col ≤ c.cs0Row + c.cs0Col) :
    CInt.shiftRight 32 ((2 ^ c.rankExponent c.cs0Row c.cs0Col : ℕ) : ℤ)
        ((c.cs0Row + c.cs0Col : ℤ) - (c.cs1Row + c.cs1Col : ℤ)) =
      some ((2 ^ c.rankExponent c.cs1Row c.cs1Col : ℕ) : ℤ) := by
  have := c.row_le
  have := c.col_le
  have := c.row_ge
  have := c.col_ge
  have := c.bk_ge
  obtain ⟨d, hd⟩ := Nat.exists_eq_add_of_le h
  have hless : ((c.cs0Row + c.cs0Col : ℤ) - (c.cs1Row + c.cs1Col : ℤ)) = (d : ℤ) := by omega
  have hexp : c.rankExponent c.cs0Row c.cs0Col = c.rankExponent c.cs1Row c.cs1Col + d := by
    unfold rankExponent
    omega
  rw [hless, CInt.shiftRight_natCast (by omega), hexp, pow_add,
    Nat.mul_div_cancel _ (Nat.pow_pos (by decide))]

theorem addSecondRank_of_ordered (h : c.Ordered) :
    c.addSecondRank ((2 ^ c.rankExponent c.cs0Row c.cs0Col : ℕ) : ℤ) = some (c.ranksMb : ℤ) := by
  obtain ⟨k, hk, -, hle⟩ := ranksMb_mem c
  unfold addSecondRank
  unfold ranksMb at hk ⊢
  split_ifs at hk ⊢ with hrank
  · simp only [Option.bind_eq_bind]
    rw [less_eq, Option.bind_some, secondRank_eq (h hrank), Option.bind_some,
      CInt.add_natCast (by omega)]
  · rfl

theorem addSecondRank_of_not_ordered (h : ¬ c.Ordered) (chSizeMb : ℤ) :
    c.addSecondRank chSizeMb = none := by
  obtain ⟨hrank, hlt⟩ := Classical.not_imp.1 h
  simp only [addSecondRank, Option.bind_eq_bind]
  rw [if_pos hrank, less_eq, Option.bind_some, CInt.shiftRight_negative (by omega),
    Option.bind_none]

theorem cutRow34_ranksMb (c : SdramChannel) : c.cutRow34 (c.ranksMb : ℤ) = some (c.mb : ℤ) := by
  obtain ⟨k, hk, -, hle⟩ := ranksMb_mem c
  have hmul := @CInt.mul_natCast 32 c.ranksMb 3 (by omega)
  have hdiv := @CInt.div_natCast 32 (c.ranksMb * 3) 4 (by decide) (by omega)
  rw [Nat.cast_ofNat] at hmul hdiv
  simp only [cutRow34, mb, Option.bind_eq_bind]
  split_ifs
  · rw [hmul, Option.bind_some, hdiv]
  · rfl

/-- A channel's size is defined where its second rank is not the larger, and is what it holds. -/
theorem chSizeMb_eq (c : SdramChannel) :
    c.chSizeMb = if c.Ordered then some (c.mb : ℤ) else none := by
  simp only [chSizeMb, Option.bind_eq_bind]
  rw [exponent_eq, Option.bind_some, firstRank_eq, Option.bind_some]
  split_ifs with h
  · rw [addSecondRank_of_ordered h, Option.bind_some, cutRow34_ranksMb]
  · rw [addSecondRank_of_not_ordered h, Option.bind_none]

end SdramChannel

section Total

/-- The channels in megabytes. -/
def totalMb (cs : List SdramChannel) : ℕ := (cs.map SdramChannel.mb).sum

theorem totalMb_le : ∀ cs : List SdramChannel, totalMb cs ≤ cs.length * 2 ^ 19
  | [] => Nat.zero_le _
  | c :: cs => by
    have := totalMb_le cs
    have := (SdramChannel.mb_mem c).2
    unfold totalMb at *
    rw [List.map_cons, List.sum_cons, List.length_cons]
    omega

theorem totalMb_eq_zero {cs : List SdramChannel} : totalMb cs = 0 ↔ cs = [] := by
  cases cs with
  | nil => exact ⟨fun _ => rfl, fun _ => rfl⟩
  | cons c cs =>
    have hpos := (SdramChannel.mb_mem c).1
    have hcons : totalMb (c :: cs) = c.mb + totalMb cs := by
      rw [totalMb, List.map_cons, List.sum_cons, totalMb]
    exact ⟨fun h => absurd h (by omega), fun h => absurd h (List.cons_ne_nil c cs)⟩

theorem capacity_sum : ∀ cs : List SdramChannel,
    (cs.map SdramChannel.capacity).sum = totalMb cs * 2 ^ 20
  | [] => rfl
  | c :: cs => by
    rw [List.map_cons, List.sum_cons, capacity_sum cs, SdramChannel.capacity_eq, totalMb, totalMb,
      List.map_cons, List.sum_cons, Nat.add_mul]

theorem addChannel_natCast {c : SdramChannel} {m : ℕ} (hm : m + 2 ^ 19 < 2 ^ 31) :
    addChannel m c = if c.Ordered then some ((m + c.mb : ℕ) : ℤ) else none := by
  have hmb := (SdramChannel.mb_mem c).2
  simp only [addChannel, Option.bind_eq_bind]
  rw [SdramChannel.chSizeMb_eq]
  split_ifs
  · rw [Option.bind_some, CInt.add_natCast (by omega)]
  · rw [Option.bind_none]

/-- The sum over channels, as long as there is room for them. -/
theorem addChannels_eq : ∀ {cs : List SdramChannel} {m : ℕ}, m + cs.length * 2 ^ 19 < 2 ^ 31 →
    cs.foldlM addChannel (m : ℤ) =
      if ∀ c ∈ cs, c.Ordered then some ((m + totalMb cs : ℕ) : ℤ) else none
  | [], m, _ => by
    rw [List.foldlM_nil, if_pos fun c hc => absurd hc List.not_mem_nil]
    rfl
  | c :: cs, m, hroom => by
    rw [List.length_cons] at hroom
    have hmb := (SdramChannel.mb_mem c).2
    have hrest := @addChannels_eq cs (m + c.mb) (by omega)
    rw [List.foldlM_cons, addChannel_natCast (by omega)]
    by_cases hc : c.Ordered
    · rw [if_pos hc, Option.bind_eq_bind, Option.bind_some, hrest]
      simp only [List.forall_mem_cons, hc, true_and]
      rw [totalMb, totalMb, List.map_cons, List.sum_cons, Nat.add_assoc]
    · rw [if_neg hc, if_neg fun h => hc (h c List.mem_cons_self)]
      rfl

variable (mmio : ℕ → UInt32)

theorem bankChannels_length (osReg osReg1 : UInt32) : (bankChannels osReg osReg1).length ≤ 2 := by
  have hnum : (sysRegChannelnum osReg).toNat ≤ 1 := by
    rw [sysRegChannelnum, UInt32.toNat_and]
    exact Nat.and_le_right
  rw [bankChannels, List.length_map, List.length_range, sdramChNum]
  omega

theorem describedChannels_length : (describedChannels mmio).length ≤ 4 := by
  have hbank (bank : ℕ) : (describedIn mmio bank).length ≤ 2 := by
    unfold describedIn
    simp only []
    split
    · exact Nat.zero_le 2
    · exact bankChannels_length _ _
  have h0 := hbank 0
  have h1 := hbank 1
  have hlist : describedChannels mmio = describedIn mmio 0 ++ (describedIn mmio 1 ++ []) := rfl
  rw [hlist, List.length_append, List.length_append, List.length_nil]
  omega

theorem addBank_eq (sizeMb : ℤ) (bank : ℕ) :
    addBank mmio sizeMb bank = (describedIn mmio bank).foldlM addChannel sizeMb := by
  unfold addBank describedIn
  simp only []
  split <;> rfl

/-- The banks' loop is a loop over what they describe. -/
theorem addBanks_eq : ∀ (banks : List ℕ) (sizeMb : ℤ),
    banks.foldlM (addBank mmio) sizeMb =
      (banks.flatMap (describedIn mmio)).foldlM addChannel sizeMb
  | [], _ => rfl
  | bank :: banks, sizeMb => by
    rw [List.foldlM_cons, List.flatMap_cons, List.foldlM_append, addBank_eq]
    congr 1
    funext sizeMb'
    exact addBanks_eq banks sizeMb'

variable (debugAssert : Bool)

theorem sdramGetMemorySize_eq : sdramGetMemorySize debugAssert mmio =
    if ∀ c ∈ describedChannels mmio, c.Ordered then
      if debugAssert ∧ describedChannels mmio = [] then .error .assertion
      else .ok ((describedChannels mmio).map SdramChannel.capacity).sum
    else .error .undefined := by
  have hlength := describedChannels_length mmio
  have hle := totalMb_le (describedChannels mmio)
  have hsum := @addChannels_eq (describedChannels mmio) 0 (by omega)
  rw [Nat.zero_add, Nat.cast_zero, describedChannels, ← addBanks_eq] at hsum
  unfold sdramGetMemorySize
  rw [hsum, ← describedChannels, capacity_sum]
  by_cases hordered : ∀ c ∈ describedChannels mmio, c.Ordered
  · rw [if_pos hordered, if_pos hordered]
    have hzero : ((totalMb (describedChannels mmio) : ℤ) = 0) ↔ describedChannels mmio = [] := by
      rw [← totalMb_eq_zero]
      omega
    simp only [hzero]
    split_ifs
    · rfl
    · congr 1
      omega
  · rw [if_neg hordered, if_neg hordered]

/-- The size is what the channels hold together where no second rank is larger than the first; a
build with assertions has to have found a channel. -/
theorem sdramGetMemorySize_iff :
    sdramGetMemorySize debugAssert mmio =
        .ok ((describedChannels mmio).map SdramChannel.capacity).sum ↔
      (∀ c ∈ describedChannels mmio, c.Ordered) ∧
        (debugAssert → describedChannels mmio ≠ []) := by
  rw [sdramGetMemorySize_eq]
  by_cases hordered : ∀ c ∈ describedChannels mmio, c.Ordered
  · rw [if_pos hordered]
    by_cases hnone : debugAssert ∧ describedChannels mmio = []
    · rw [if_pos hnone]
      exact ⟨fun h => (nomatch h), fun h => absurd hnone.2 (h.2 hnone.1)⟩
    · rw [if_neg hnone]
      exact ⟨fun _ => ⟨hordered, fun ha he => hnone ⟨ha, he⟩⟩, fun _ => rfl⟩
  · rw [if_neg hordered]
    exact ⟨fun h => (nomatch h), fun h => absurd h.1 hordered⟩

/-- One channel, of two ranks, the second with a row more. -/
def largerSecondRank (a : ℕ) : UInt32 := if a = sdramOsRegBase then 0x810 else 0

theorem sdramGetMemorySize_undefined : sdramGetMemorySize false largerSecondRank ≠
    .ok ((describedChannels largerSecondRank).map SdramChannel.capacity).sum := by
  have hmem : sdramChannel 0x810 0 0 ∈ describedChannels largerSecondRank :=
    List.mem_flatMap.2 ⟨0, by decide, List.mem_map.2 ⟨0, by decide, rfl⟩⟩
  have hlarger : ¬ (sdramChannel 0x810 0 0).Ordered := by decide
  rw [sdramGetMemorySize_eq, if_neg fun h => hlarger (h _ hmem)]
  exact fun h => nomatch h

end Total

end Edk2Rk3576
