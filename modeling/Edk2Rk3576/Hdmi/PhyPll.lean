import Edk2Rk3576.Edid.Modes
import Edk2Rk3576.Hdmi.RationalApproximation
import Mathlib.Data.Rat.Lemmas
import Mathlib.Tactic.NormNum

/-!
# The PLL of the HDMI PHY

A bit rate is looked up in a table, or a configuration is computed for it: a divider that brings
half the rate into the range of the VCO, the multiple of the reference at or above that, and a
fraction for the gap. Every rate of a supported mode gets a configuration with a rate close to it,
but a gap that is too small for the bounds of the fraction makes the approximation divide by zero.
-/

namespace Edk2Rk3576.Hdmi

open BestFraction

/-- What the computation sets of `RoPllConfig`, as assigned, before it is cut to a byte. -/
structure RoPllConfig where
  bitRate : ℕ
  pmsMdiv : ℕ
  pmsMdivAfc : ℕ
  pmsPdiv : ℕ
  pmsRefdiv : ℕ
  pmsSdiv : ℕ
  sdmEn : ℕ
  sdmDeno : ℕ
  sdmNumSign : ℕ
  sdmNum : ℕ
  sdcN : ℕ
  sdcNum : ℕ
  sdcDeno : ℕ
  deriving DecidableEq

/-- The rows up to the one of rate `~0`. -/
def ropllTmdsConfig : List RoPllConfig :=
  [ ⟨5940000, 124, 124, 1, 1, 0, 1, 62, 1, 16, 5, 0, 1⟩,
    ⟨3712500, 155, 155, 1, 1, 1, 1, 62, 1, 16, 5, 0, 1⟩,
    ⟨2970000, 124, 124, 1, 1, 1, 1, 62, 1, 16, 5, 0, 1⟩,
    ⟨2415000, 101, 101, 1, 1, 1, 1, 8, 1, 3, 5, 0, 1⟩,
    ⟨1620000, 135, 135, 1, 1, 3, 0, 4, 0, 3, 5, 5, 0x10⟩,
    ⟨1856250, 155, 155, 1, 1, 3, 1, 62, 1, 16, 5, 0, 1⟩,
    ⟨1540000, 193, 193, 1, 1, 5, 1, 193, 1, 32, 2, 1, 1⟩,
    ⟨1485000, 0x7b, 0x7b, 1, 1, 3, 1, 4, 0, 3, 5, 5, 0x10⟩,
    ⟨1462500, 122, 122, 1, 1, 3, 1, 244, 1, 16, 2, 1, 1⟩,
    ⟨1190000, 149, 149, 1, 1, 5, 1, 149, 1, 16, 2, 1, 1⟩,
    ⟨1065000, 89, 89, 1, 1, 3, 1, 89, 1, 16, 1, 0, 1⟩,
    ⟨1080000, 135, 135, 1, 1, 5, 0, 0x9, 0, 0x05, 0, 0x14, 0x18⟩,
    ⟨855000, 214, 214, 1, 1, 11, 1, 214, 1, 16, 2, 1, 1⟩,
    ⟨835000, 105, 105, 1, 1, 5, 1, 42, 1, 16, 1, 0, 1⟩,
    ⟨928125, 155, 155, 1, 1, 7, 1, 62, 1, 16, 5, 0, 1⟩,
    ⟨742500, 124, 124, 1, 1, 7, 1, 62, 1, 16, 5, 0, 1⟩,
    ⟨650000, 162, 162, 1, 1, 11, 1, 54, 0, 16, 4, 1, 1⟩,
    ⟨337500, 0x70, 0x70, 1, 1, 0xf, 1, 0x2, 0, 0x01, 5, 1, 1⟩,
    ⟨400000, 100, 100, 1, 1, 11, 0, 0x9, 0, 0x05, 0, 0x14, 0x18⟩,
    ⟨270000, 0x5a, 0x5a, 1, 1, 0xf, 0, 0x9, 0, 0x05, 0, 0x14, 0x18⟩,
    ⟨251750, 84, 84, 1, 1, 0xf, 1, 168, 1, 16, 4, 1, 1⟩ ]

section Calculation

def fref : ℕ := 24000

/-- The loop over `Sdc`. Its last value is at most one step above 750000. -/
def sdcLoop (product sdc : ℕ) : Option ℕ :=
  if sdc ≤ 750000 then do
    if product < (← CUInt.mul 32 sdc 8) then some sdc else sdcLoop product (sdc + fref)
  else some sdc
termination_by 750001 - sdc
decreasing_by unfold fref; omega

/-- What the loop over `Sdiv` leaves in its variables. Without a gap no fraction is computed, and
`K` is as it was initialised. -/
structure PllSearch where
  mdiv : ℕ
  sdiv : ℕ
  fraction : Option ((ℕ × ℕ) × (ℕ × ℕ))

/-- The loop over `Sdiv`, with `none` inside where it runs out. -/
def sdivLoop (fout sdiv : ℕ) : Option (Option PllSearch) :=
  if 16 < sdiv then some none
  else if sdiv % 2 ≠ 0 ∧ sdiv ≠ 1 then sdivLoop fout (sdiv + 1)
  else do
    let fvco ← CUInt.mul 32 fout sdiv
    if fvco < 2000000 ∨ 4000000 < fvco then sdivLoop fout (sdiv + 1)
    else
      let mdiv ← CUInt.div (← CUInt.sub (← CUInt.add 32 fvco fref) 1) fref
      if mdiv < 20 ∨ 255 < mdiv then sdivLoop fout (sdiv + 1)
      else
        let product ← CUInt.mul 32 fref mdiv
        let gap ← CUInt.sub product fvco
        if gap ≠ 0 then
          let sdc ← sdcLoop product 264000
          if 750000 < sdc then sdivLoop fout (sdiv + 1)
          else
            let k ← rationalBestApproximation gap (sdc / 16) 127 255
            let sub ← CUInt.sub (← CUInt.mul 32 sdc 8) product
            let kSub ← rationalBestApproximation sub sdc 127 255
            some (some ⟨mdiv, sdiv, some (k, kSub)⟩)
        else some (some ⟨mdiv, sdiv, none⟩)
termination_by 17 - sdiv

/-- What is written to a configuration that is zero at first. The fraction is left out where it is
zero. -/
def PllSearch.config (s : PllSearch) : RoPllConfig :=
  let plain : RoPllConfig := ⟨0, s.mdiv, s.mdiv, 1, 1, s.sdiv - 1, 0, 0, 0, 0, 0, 0, 0⟩
  match s.fraction with
  | none => plain
  | some ((k, lc), (kSub, lcSub)) =>
    if 0 < k then
      { plain with
        sdmEn := 1
        sdmDeno := lc
        sdmNumSign := 1
        sdmNum := k
        sdcN := 8 - 3
        sdcNum := kSub
        sdcDeno := lcSub }
    else plain

def hdptxPhyClkPllCalc (dataRate : ℕ) : Option (Option RoPllConfig) := do
  let found ← sdivLoop (dataRate / 2) 1
  some (found.map PllSearch.config)

/-- The configuration that `HdptxRopllCmnConfig` goes on with. -/
def ropllConfig (bitRate : ℕ) : Option (Option RoPllConfig) :=
  match ropllTmdsConfig.find? fun cfg => cfg.bitRate = bitRate with
  | some cfg => some (some cfg)
  | none => hdptxPhyClkPllCalc bitRate

end Calculation

/-! ### What a configuration is good for -/

namespace RoPllConfig

variable (cfg : RoPllConfig)

/-- The spread that the second fraction stands for. -/
def sdc : ℚ := 24000 * cfg.pmsMdiv / (cfg.sdcN + 3 - cfg.sdcNum / cfg.sdcDeno)

/-- The first fraction, which the sign takes off the multiple of the reference or adds to it. -/
def fraction : ℚ :=
  if cfg.sdmEn = 0 then 0
  else if cfg.sdmNumSign = 0 then -(cfg.sdmNum / cfg.sdmDeno)
  else cfg.sdmNum / cfg.sdmDeno

def rate : ℚ := 2 * (24000 * cfg.pmsMdiv - cfg.fraction * (cfg.sdc / 16)) / (cfg.pmsSdiv + 1)

/-- The fields fit their registers, and the rate is within the tolerance of HDMI. -/
structure Synthesizes (bitRate : ℕ) : Prop where
  mdiv : cfg.pmsMdiv < 2 ^ 8 ∧ cfg.pmsMdivAfc = cfg.pmsMdiv
  sdiv : cfg.pmsSdiv < 2 ^ 4
  sdm : cfg.sdmNum < 2 ^ 7 ∧ cfg.sdmDeno < 2 ^ 8
  sdc : cfg.sdcN < 2 ^ 3 ∧ cfg.sdcNum < 2 ^ 7 ∧ cfg.sdcDeno < 2 ^ 8
  deno_pos : cfg.sdmEn ≠ 0 → 0 < cfg.sdmDeno ∧ 0 < cfg.sdcDeno
  rate : |cfg.rate - bitRate| ≤ bitRate * (5 / 1000)

end RoPllConfig

/-- The search wraps nothing and divides by nothing zero, and a configuration it yields is one for
the rate. -/
def PllOk (bitRate : ℕ) : Prop :=
  ∃ found, ropllConfig bitRate = some found ∧ ∀ cfg, found = some cfg → cfg.Synthesizes bitRate

/-- The bit rates of the modes that are supported. -/
def ModeRate (bitRate : ℕ) : Prop :=
  ∃ clock, bitRate = 10 * clock ∧ vopPixelClockMin.toNat ≤ clock ∧ clock ≤ vopPixelClockMax.toNat

theorem ropllTmdsConfig_synthesizes :
    ∀ cfg ∈ ropllTmdsConfig, cfg.Synthesizes cfg.bitRate := by
  have hfields : ∀ cfg ∈ ropllTmdsConfig,
      (cfg.pmsMdiv < 2 ^ 8 ∧ cfg.pmsMdivAfc = cfg.pmsMdiv) ∧ cfg.pmsSdiv < 2 ^ 4 ∧
      (cfg.sdmNum < 2 ^ 7 ∧ cfg.sdmDeno < 2 ^ 8) ∧
      (cfg.sdcN < 2 ^ 3 ∧ cfg.sdcNum < 2 ^ 7 ∧ cfg.sdcDeno < 2 ^ 8) ∧
      (cfg.sdmEn ≠ 0 → 0 < cfg.sdmDeno ∧ 0 < cfg.sdcDeno) := by decide
  have hrate : ∀ cfg ∈ ropllTmdsConfig,
      |cfg.rate - cfg.bitRate| ≤ cfg.bitRate * (5 / 1000) := by decide +kernel
  intro cfg hcfg
  obtain ⟨hmdiv, hsdiv, hsdm, hsdc, hdeno⟩ := hfields cfg hcfg
  exact ⟨hmdiv, hsdiv, hsdm, hsdc, hdeno, hrate cfg hcfg⟩

section Search

variable {fout : ℕ}

/-! What the loops arrive at, of half the bit rate. -/

/-- The divider: one, or the least even one that brings the rate up to the VCO's range. -/
def postDivider (fout : ℕ) : ℕ :=
  if 2000000 ≤ fout then 1 else 2 * ((1000000 + fout - 1) / fout)

/-- The multiple of the reference at or above. -/
def multiplier (fvco : ℕ) : ℕ := (fvco + 24000 - 1) / 24000

def gap (fvco : ℕ) : ℕ := 24000 * multiplier fvco - fvco

/-- A sixteenth of the least of the spreads that eight times over is above the multiple. -/
def spread (fvco : ℕ) : ℕ := 1500 * (multiplier fvco / 8 + 1)

/-- The rates that the divider is found for, and what is found. -/
structure Divides (fout s : ℕ) : Prop where
  pos : 1 ≤ s
  le : s ≤ 16
  tried : s % 2 = 0 ∨ s = 1
  below : ∀ j, 1 ≤ j → j < s → j % 2 = 0 ∨ j = 1 → fout * j < 2000000
  low : 2000000 ≤ fout * s
  high : fout * s ≤ 4000000

theorem postDivider_divides (hlow : 125875 ≤ fout) (hhigh : fout ≤ 3000000) :
    Divides fout (postDivider fout) := by
  unfold postDivider
  by_cases h : 2000000 ≤ fout
  · rw [if_pos h]
    exact ⟨by omega, by omega, .inr rfl, fun j h₁ h₂ => by omega, by omega, by omega⟩
  · rw [if_neg h]
    obtain ⟨c, hc⟩ : ∃ c, c = (1000000 + fout - 1) / fout := ⟨_, rfl⟩
    rw [← hc]
    have hfout : 0 < fout := by omega
    have hup : 1000000 ≤ fout * c := by
      have hlt := Nat.lt_mul_div_succ (1000000 + fout - 1) hfout
      rw [← hc, Nat.mul_add] at hlt
      omega
    have hdown : fout * c ≤ 1000000 + fout - 1 := hc ▸ Nat.mul_div_le _ _
    have hpos : 1 ≤ c := Nat.pos_of_ne_zero fun hzero => by rw [hzero] at hup; omega
    have hle : c ≤ 8 := by
      by_contra hgt
      have : fout * 9 ≤ fout * c := Nat.mul_le_mul_left fout (by omega)
      omega
    refine ⟨by omega, by omega, .inl (Nat.mul_mod_right 2 c), ?_, ?_, ?_⟩
    · rintro j hj₁ hj₂ (heven | hone)
      · have hj : j ≤ 2 * (c - 1) := by omega
        have hmul : fout * j ≤ fout * (2 * (c - 1)) := Nat.mul_le_mul_left fout hj
        have hsub : fout * (2 * (c - 1)) + 2 * fout = 2 * (fout * c) := by
          have : 2 * (c - 1) + 2 = 2 * c := by omega
          rw [Nat.mul_comm 2 fout, ← Nat.mul_add, this]
          ring
        omega
      · rw [hone]
        omega
    · rw [Nat.mul_left_comm]
      omega
    · rw [Nat.mul_left_comm]
      by_cases hone : c = 1
      · rw [hone]
        omega
      · have : fout * 2 ≤ fout * c := Nat.mul_le_mul_left fout (by omega)
        omega

/-- A divider that leaves the rate below the VCO's range. -/
theorem sdivLoop_next {sdiv fvco : ℕ} (hle : sdiv ≤ 16) (hmul : fout * sdiv = fvco)
    (hlow : fvco < 2000000) : sdivLoop fout sdiv = sdivLoop fout (sdiv + 1) := by
  rw [sdivLoop, if_neg (by omega)]
  split_ifs
  · rfl
  · rw [CUInt.mul_of_lt (by omega), hmul]
    exact if_pos (Or.inl hlow)

/-- The dividers below are passed over. -/
theorem sdivLoop_skip {s : ℕ} (h : Divides fout s) {j : ℕ} (hj : 1 ≤ j)
    (hjs : j ≤ s) : sdivLoop fout j = sdivLoop fout s := by
  induction hjs using Nat.decreasingInduction with
  | self => rfl
  | of_succ j hlt ih =>
    have hle := h.le
    rw [← ih (by omega)]
    by_cases htried : j % 2 ≠ 0 ∧ j ≠ 1
    · rw [sdivLoop, if_neg (by omega), if_pos htried]
    · exact sdivLoop_next (by omega) rfl (h.below j hj hlt (by omega))

theorem sdcLoop_next {product sdc : ℕ} (hle : sdc ≤ 750000) : sdcLoop product sdc =
    if product < sdc * 8 then some sdc else sdcLoop product (sdc + fref) := by
  rw [sdcLoop, if_pos hle, CUInt.mul_of_lt (by omega)]
  rfl

/-- The spreads are tried up to the first that is large enough. -/
theorem sdcLoop_eq {m j : ℕ} (hm : m ≤ 167) (hj : 11 ≤ j) (hjm : j ≤ m / 8 + 1) :
    sdcLoop (fref * m) (24000 * j) = some (24000 * (m / 8 + 1)) := by
  induction hjm using Nat.decreasingInduction with
  | self => rw [sdcLoop_next (by omega), if_pos (by unfold fref; omega)]
  | of_succ j hlt ih =>
    have hnext : 24000 * j + fref = 24000 * (j + 1) := by unfold fref; omega
    rw [sdcLoop_next (by omega), if_neg (by unfold fref; omega), hnext]
    exact ih (by omega)

/-- The multiple is not far above, and its spread is in bounds. -/
structure Multiple (fvco : ℕ) : Prop where
  low : 84 ≤ multiplier fvco
  high : multiplier fvco ≤ 167
  sum : fvco + gap fvco = 24000 * multiplier fvco
  gap_lt : gap fvco < 24000

theorem Divides.multiple {s : ℕ} (h : Divides fout s) : Multiple (fout * s) := by
  have hlow := h.low
  have hhigh := h.high
  refine ⟨?_, ?_, ?_, ?_⟩ <;> simp only [gap, multiplier] <;> omega

/-- The body of the loop, where nothing wraps and nothing is passed over. -/
theorem sdivLoop_body {sdiv fvco m g sdc sub : ℕ} (hle : sdiv ≤ 16)
    (htried : sdiv % 2 = 0 ∨ sdiv = 1) (hmul : CUInt.mul 32 fout sdiv = some fvco)
    (hfvco : ¬ (fvco < 2000000 ∨ 4000000 < fvco)) (hm : multiplier fvco = m)
    (hmdiv : ¬ (m < 20 ∨ 255 < m)) (hgap : CUInt.sub (fref * m) fvco = some g)
    (hsdc : sdcLoop (fref * m) 264000 = some sdc) (hsdcle : sdc ≤ 750000)
    (hsub : CUInt.sub (sdc * 8) (fref * m) = some sub) :
    sdivLoop fout sdiv =
      if g ≠ 0 then do
        let k ← rationalBestApproximation g (sdc / 16) 127 255
        let kSub ← rationalBestApproximation sub sdc 127 255
        some (some ⟨m, sdiv, some (k, kSub)⟩)
      else some (some ⟨m, sdiv, none⟩) := by
  have hadd : CUInt.add 32 fvco fref = some (fvco + fref) :=
    CUInt.add_of_lt (by unfold fref; omega)
  have hone : CUInt.sub (fvco + fref) 1 = some (fvco + fref - 1) :=
    CUInt.sub_of_le (by unfold fref; omega)
  have hdiv : CUInt.div (fvco + fref - 1) fref = some m := by
    rw [CUInt.div_of_ne (by decide), ← hm, multiplier, fref]
  have hproduct : CUInt.mul 32 fref m = some (fref * m) := CUInt.mul_of_lt (by unfold fref; omega)
  have htop : CUInt.mul 32 sdc 8 = some (sdc * 8) := CUInt.mul_of_lt (by omega)
  rw [sdivLoop, if_neg (by omega), if_neg (by omega)]
  simp only [hmul, Option.bind_eq_bind, Option.bind_some, if_neg hfvco, hadd, hone, hdiv,
    if_neg hmdiv, hproduct, hgap, hsdc, if_neg (not_lt.mpr hsdcle), htop, hsub]

/-- The body of the loop, at the divider that is found. -/
theorem sdivLoop_found {s f m : ℕ} (h : Divides fout s) (hf : f = fout * s)
    (hm : m = multiplier f) :
    sdivLoop fout s =
      if gap f ≠ 0 then do
        let k ← rationalBestApproximation (gap f) (spread f) 127 255
        let kSub ← rationalBestApproximation (24000 * (8 * (m / 8 + 1) - m))
          (24000 * (m / 8 + 1)) 127 255
        some (some ⟨m, s, some (k, kSub)⟩)
      else some (some ⟨m, s, none⟩) := by
  obtain ⟨hlow, hhigh, hsum, hgap⟩ := h.multiple
  have h₁ := h.low
  have h₂ := h.high
  rw [← hf] at hlow hhigh hsum hgap h₁ h₂
  rw [← hm] at hlow hhigh hsum
  have hsdc : sdcLoop (fref * m) 264000 = some (24000 * (m / 8 + 1)) :=
    sdcLoop_eq hhigh (by omega : 11 ≤ 11) (by omega)
  have hsub : CUInt.sub (24000 * (m / 8 + 1) * 8) (fref * m) =
      some (24000 * (8 * (m / 8 + 1) - m)) := by
    rw [CUInt.sub_of_le (by unfold fref; omega), fref]
    congr 1
    omega
  have hspread : 24000 * (m / 8 + 1) / 16 = spread f := by
    rw [spread, ← hm]
    omega
  have hgap' : CUInt.sub (fref * m) f = some (gap f) := by
    rw [CUInt.sub_of_le (by unfold fref; omega), gap, ← hm, fref]
  have hmul : CUInt.mul 32 fout s = some f := by rw [CUInt.mul_of_lt (by omega), ← hf]
  rw [sdivLoop_body h.le h.tried hmul (by omega) hm.symm (by omega) hgap' hsdc (by omega) hsub,
    hspread]

end Search

section Computed

variable {fout s : ℕ}

/-- A configuration of the multiple and the divider found, whose correction is close to the gap. -/
theorem rate_of_correction {cfg : RoPllConfig} {x : ℚ} (h : Divides fout s)
    (hm : cfg.pmsMdiv = multiplier (fout * s)) (hs : cfg.pmsSdiv = s - 1)
    (hx : cfg.fraction * (cfg.sdc / 16) = x) (hclose : |(gap (fout * s) : ℚ) - x| ≤ 10000) :
    |cfg.rate - (2 * fout : ℕ)| ≤ (2 * fout : ℕ) * (5 / 1000) := by
  have hpos : (0 : ℚ) < s := by exact_mod_cast h.pos
  have hsdiv : (cfg.pmsSdiv : ℚ) + 1 = s := by
    rw [hs, Nat.cast_sub h.pos]
    ring
  have hsum : (fout * s : ℚ) + gap (fout * s) = 24000 * multiplier (fout * s) := by
    exact_mod_cast h.multiple.sum
  have hlow : (2000000 : ℚ) ≤ fout * s := by exact_mod_cast h.low
  have hrate : cfg.rate - (2 * fout : ℕ) = 2 * (gap (fout * s) - x) / s := by
    rw [RoPllConfig.rate, hx, hsdiv, hm, ← hsum]
    push_cast
    field_simp
    ring
  rw [hrate, abs_div, abs_mul, abs_of_pos hpos, div_le_iff₀ hpos, abs_of_pos (by norm_num : (0 : ℚ) < 2)]
  push_cast
  linarith

/-- The second fraction is exact. -/
theorem approximates_spread {m : ℕ} (hlow : 84 ≤ m) (hhigh : m ≤ 167) : ∃ p q : ℕ,
    rationalBestApproximation (24000 * (8 * (m / 8 + 1) - m)) (24000 * (m / 8 + 1)) 127 255 =
        some (p, q) ∧ p ≤ 127 ∧ 0 < q ∧ q ≤ 255 ∧
      (p / q : ℚ) = 8 - m / (m / 8 + 1 : ℕ) := by
  have hdiv : 24000 * (8 * (m / 8 + 1) - m) / (24000 * (m / 8 + 1)) ≤ 127 := by
    refine Nat.div_le_of_le_mul ?_
    omega
  have hdiv' : 24000 * (m / 8 + 1) / (24000 * (8 * (m / 8 + 1) - m)) ≤ 255 := by
    refine Nat.div_le_of_le_mul ?_
    omega
  have happrox : Approximates (24000 * (8 * (m / 8 + 1) - m)) (24000 * (m / 8 + 1)) 127 255 :=
    rationalBestApproximation_best (by omega) (by omega) (by omega) (by decide) (by decide)
      (by decide) (by decide) hdiv hdiv'
  obtain ⟨p, q, heq, hbest⟩ := happrox
  refine ⟨p, q, heq, hbest.num_le, hbest.den_pos, hbest.den_le, ?_⟩
  have hpos : ((m / 8 + 1 : ℕ) : ℚ) ≠ 0 := by
    exact_mod_cast Nat.succ_ne_zero (m / 8)
  rw [hbest.eq_of_le (by omega) (by omega) (by omega) (by decide : 0 < 24000) rfl rfl,
    Nat.cast_sub (by omega), sub_div, Nat.cast_mul, mul_div_assoc, div_self hpos, mul_one]
  rfl

/-- The spread is read back from the second fraction. -/
theorem sdc_of_fraction {cfg : RoPllConfig} {m : ℕ} (hm0 : 0 < m) (hm : cfg.pmsMdiv = m)
    (hn : cfg.sdcN = 5) (hfrac : (cfg.sdcNum / cfg.sdcDeno : ℚ) = 8 - m / (m / 8 + 1 : ℕ)) :
    cfg.sdc = 24000 * (m / 8 + 1 : ℕ) := by
  have hpos : ((m / 8 + 1 : ℕ) : ℚ) ≠ 0 := by exact_mod_cast Nat.succ_ne_zero (m / 8)
  have hm' : (m : ℚ) ≠ 0 := by exact_mod_cast hm0.ne'
  have hden : ((5 : ℕ) : ℚ) + 3 - (8 - m / (m / 8 + 1 : ℕ)) = m / (m / 8 + 1 : ℕ) := by
    push_cast
    ring
  rw [RoPllConfig.sdc, hm, hn, hfrac, hden]
  field_simp

theorem plain_synthesizes (h : Divides fout s) (hclose : (gap (fout * s) : ℚ) ≤ 10000) :
    (⟨0, multiplier (fout * s), multiplier (fout * s), 1, 1, s - 1, 0, 0, 0, 0, 0, 0, 0⟩ :
      RoPllConfig).Synthesizes (2 * fout) := by
  obtain ⟨hlow, hhigh, -, -⟩ := h.multiple
  have hle := h.le
  refine ⟨⟨?_, rfl⟩, ?_, (by decide : 0 < 2 ^ 7 ∧ 0 < 2 ^ 8),
    (by decide : 0 < 2 ^ 3 ∧ 0 < 2 ^ 7 ∧ 0 < 2 ^ 8), fun hen => absurd rfl hen,
    rate_of_correction h rfl rfl (zero_mul _) ?_⟩
  · show multiplier (fout * s) < 2 ^ 8
    omega
  · show s - 1 < 2 ^ 4
    omega
  · rwa [sub_zero, Nat.abs_cast]

/-- What the fraction of the gap leaves over. -/
theorem fraction_close (h : Divides fout s) {k lc : ℕ}
    (hbest : Best 127 255 (gap (fout * s)) (spread (fout * s)) k lc) :
    |(gap (fout * s) : ℚ) - k / lc * spread (fout * s)| ≤ 10000 := by
  obtain ⟨hlow, hhigh, -, hgap⟩ := h.multiple
  have hspread : 16500 ≤ spread (fout * s) ∧ spread (fout * s) ≤ 31500 := by
    unfold spread
    omega
  have hpos : (0 : ℚ) < spread (fout * s) := by
    have : 0 < spread (fout * s) := by omega
    exact_mod_cast this
  have hle : (spread (fout * s) : ℚ) ≤ 31500 := by exact_mod_cast hspread.2
  have hnum : gap (fout * s) * 80 / spread (fout * s) ≤ 127 := by
    refine Nat.div_le_of_le_mul ?_
    omega
  have hwithin := hbest.abs_sub_le (by omega) (by decide : 0 < 80) (by decide) hnum
  have heq : (gap (fout * s) : ℚ) - k / lc * spread (fout * s) =
      (gap (fout * s) / spread (fout * s) - k / lc) * spread (fout * s) := by
    rw [sub_mul, div_mul_cancel₀ _ hpos.ne']
  rw [heq, abs_mul, abs_of_pos hpos]
  have hmul := mul_le_mul hwithin hle hpos.le (by norm_num : (0 : ℚ) ≤ 1 / (80 : ℕ))
  refine le_trans hmul ?_
  norm_num

/-- What is found with a fraction for the gap. -/
theorem config_synthesizes (h : Divides fout s) {k lc p q : ℕ}
    (hbest : Best 127 255 (gap (fout * s)) (spread (fout * s)) k lc) (hp : p ≤ 127) (hq : 0 < q)
    (hqle : q ≤ 255)
    (hfrac : (p / q : ℚ) = 8 - multiplier (fout * s) / (multiplier (fout * s) / 8 + 1 : ℕ)) :
    (PllSearch.config ⟨multiplier (fout * s), s, some ((k, lc), (p, q))⟩).Synthesizes
      (2 * fout) := by
  obtain ⟨hlow, hhigh, -, -⟩ := h.multiple
  have hclose := fraction_close h hbest
  by_cases hk : 0 < k
  · simp only [PllSearch.config, if_pos hk]
    have hk' := hbest.num_le
    have hlc := hbest.den_le
    have hle := h.le
    refine ⟨⟨?_, rfl⟩, ?_, ⟨?_, ?_⟩, ⟨(by decide : 5 < 2 ^ 3), ?_, ?_⟩,
      fun _ => ⟨hbest.den_pos, hq⟩, rate_of_correction h rfl rfl ?_ hclose⟩
    · show multiplier (fout * s) < 2 ^ 8
      omega
    · show s - 1 < 2 ^ 4
      omega
    · show k < 2 ^ 7
      omega
    · show lc < 2 ^ 8
      omega
    · show p < 2 ^ 7
      omega
    · show q < 2 ^ 8
      omega
    · have hspread : (spread (fout * s) : ℚ) = 24000 * (multiplier (fout * s) / 8 + 1 : ℕ) / 16 := by
        rw [spread]
        push_cast
        ring
      have hmpos : 0 < multiplier (fout * s) := by omega
      rw [hspread, sdc_of_fraction hmpos rfl rfl hfrac]
      rfl
  · simp only [PllSearch.config, if_neg hk]
    have hzero : k = 0 := Nat.eq_zero_of_not_pos hk
    rw [hzero, Nat.cast_zero, zero_div, zero_mul, sub_zero, Nat.abs_cast] at hclose
    exact plain_synthesizes h hclose

/-- The rates whose gap the bounds of the fraction leave room for. -/
def GapInBounds (fvco : ℕ) : Prop := gap fvco = 0 ∨ spread fvco < 256 * gap fvco

instance (fvco : ℕ) : Decidable (GapInBounds fvco) :=
  inferInstanceAs (Decidable (gap fvco = 0 ∨ spread fvco < 256 * gap fvco))

/-- The rate of the VCO that half a bit rate is brought up to. -/
def vcoRate (fout : ℕ) : ℕ := fout * postDivider fout

/-- Both fractions are there. -/
theorem search_some {g spread sub sdc m s : ℕ} {k kSub : ℕ × ℕ}
    (hk : rationalBestApproximation g spread 127 255 = some k)
    (hsub : rationalBestApproximation sub sdc 127 255 = some kSub) :
    (do
      let k ← rationalBestApproximation g spread 127 255
      let kSub ← rationalBestApproximation sub sdc 127 255
      some (some (⟨m, s, some (k, kSub)⟩ : PllSearch))) = some (some ⟨m, s, some (k, kSub)⟩) := by
  rw [hk, hsub]
  rfl

/-- The loop over the dividers ends with a fraction, if one is needed, or divides by zero. -/
theorem sdivLoop_cases (hlow : 125875 ≤ fout) (hhigh : fout ≤ 3000000) :
    (GapInBounds (vcoRate fout) →
      ∃ found, sdivLoop fout 1 = some (some found) ∧ found.config.Synthesizes (2 * fout)) ∧
    (¬ GapInBounds (vcoRate fout) → sdivLoop fout 1 = none) := by
  have h := postDivider_divides hlow hhigh
  obtain ⟨hmlow, hmhigh, -, hgap⟩ := h.multiple
  have hspread : 16500 ≤ spread (vcoRate fout) ∧ spread (vcoRate fout) ≤ 31500 := by
    unfold spread vcoRate
    omega
  rw [sdivLoop_skip h (le_refl 1) h.pos, sdivLoop_found h rfl rfl]
  have hvco : fout * postDivider fout = vcoRate fout := rfl
  rw [hvco] at hmlow hmhigh hgap ⊢
  by_cases hzero : gap (vcoRate fout) = 0
  · rw [if_neg (not_not_intro hzero)]
    refine ⟨fun _ => ⟨_, rfl, plain_synthesizes h ?_⟩, fun hnot => absurd (.inl hzero) hnot⟩
    rw [hvco, hzero]
    norm_num
  · rw [if_pos hzero]
    have hgap0 : 0 < gap (vcoRate fout) := Nat.pos_of_ne_zero hzero
    have hdiv : gap (vcoRate fout) / spread (vcoRate fout) ≤ 127 := by
      refine Nat.div_le_of_le_mul ?_
      omega
    constructor
    · intro hin
      have hdiv' : spread (vcoRate fout) / gap (vcoRate fout) ≤ 255 := by
        rw [← Nat.lt_add_one_iff, Nat.div_lt_iff_lt_mul hgap0]
        exact hin.resolve_left hzero
      have happrox : Approximates (gap (vcoRate fout)) (spread (vcoRate fout)) 127 255 :=
        rationalBestApproximation_best (by omega) (by omega) (by omega) (by decide) (by decide)
          (by decide) (by decide) hdiv hdiv'
      obtain ⟨k, lc, heq, hbest⟩ := happrox
      obtain ⟨p, q, heq', hp, hq, hqle, hfrac⟩ := approximates_spread hmlow hmhigh
      exact ⟨_, search_some heq heq', config_synthesizes h hbest hp hq hqle hfrac⟩
    · intro hout
      have hlt : 255 < spread (vcoRate fout) / gap (vcoRate fout) := by
        rw [Nat.lt_iff_add_one_le, Nat.le_div_iff_mul_le hgap0]
        exact not_lt.mp (not_or.mp hout).2
      rw [rationalBestApproximation_none (by omega) (by omega) (by omega) (by decide) (by decide)
        (by decide) (by decide) (.inr hlt)]
      rfl

theorem ropllConfig_of_mem {bitRate : ℕ} (h : ∃ cfg ∈ ropllTmdsConfig, cfg.bitRate = bitRate) :
    PllOk bitRate := by
  obtain ⟨cfg, hcfg, heq⟩ := h
  have hfind : (ropllTmdsConfig.find? fun cfg => cfg.bitRate = bitRate).isSome = true := by
    rw [List.find?_isSome]
    exact ⟨cfg, hcfg, decide_eq_true heq⟩
  obtain ⟨row, hrow⟩ := Option.isSome_iff_exists.mp hfind
  refine ⟨some row, by rw [ropllConfig, hrow], fun cfg' hcfg' => ?_⟩
  obtain rfl : row = cfg' := Option.some.inj hcfg'
  have hrate : row.bitRate = bitRate := by simpa using List.find?_some hrow
  rw [← hrate]
  exact ropllTmdsConfig_synthesizes row (List.mem_of_find?_eq_some hrow)

theorem ropllConfig_of_not_mem {bitRate : ℕ}
    (h : ¬ ∃ cfg ∈ ropllTmdsConfig, cfg.bitRate = bitRate) :
    ropllConfig bitRate = hdptxPhyClkPllCalc bitRate := by
  have hnone : ropllTmdsConfig.find? (fun cfg => cfg.bitRate = bitRate) = none := by
    rw [List.find?_eq_none]
    intro cfg hcfg
    simpa using fun heq => h ⟨cfg, hcfg, heq⟩
  rw [ropllConfig, hnone]

theorem ModeRate.half {bitRate : ℕ} (h : ModeRate bitRate) :
    ∃ fout, bitRate = 2 * fout ∧ 125875 ≤ fout ∧ fout ≤ 3000000 := by
  obtain ⟨clock, rfl, hlow, hhigh⟩ := h
  have hmin : vopPixelClockMin.toNat = 25175 := rfl
  have hmax : vopPixelClockMax.toNat = 600000 := rfl
  exact ⟨5 * clock, by omega, by omega, by omega⟩

/-- Every rate of a mode gets its configuration, but those whose gap is so small that the
approximation of its fraction divides by zero. -/
theorem pllOk_iff {bitRate : ℕ} (h : ModeRate bitRate) :
    PllOk bitRate ↔
      (∃ cfg ∈ ropllTmdsConfig, cfg.bitRate = bitRate) ∨ GapInBounds (vcoRate (bitRate / 2)) := by
  by_cases hmem : ∃ cfg ∈ ropllTmdsConfig, cfg.bitRate = bitRate
  · exact ⟨fun _ => .inl hmem, fun _ => ropllConfig_of_mem hmem⟩
  · obtain ⟨fout, rfl, hlow, hhigh⟩ := h.half
    have hhalf : 2 * fout / 2 = fout := by omega
    obtain ⟨hin, hout⟩ := sdivLoop_cases hlow hhigh
    rw [PllOk, ropllConfig_of_not_mem hmem, hdptxPhyClkPllCalc, hhalf]
    constructor
    · rintro ⟨found, hfound, -⟩
      refine .inr (by_contra fun hgap => ?_)
      rw [hout hgap] at hfound
      cases hfound
    · rintro (hmem' | hgap)
      · exact absurd hmem' hmem
      · obtain ⟨found, hfound, hsynth⟩ := hin hgap
        rw [hfound]
        refine ⟨some found.config, rfl, fun cfg hcfg => ?_⟩
        obtain rfl : found.config = cfg := Option.some.inj hcfg
        exact hsynth

theorem pllOk_computed : PllOk 1000000 :=
  (pllOk_iff ⟨100000, rfl, by decide, by decide⟩).mpr (.inr (by decide))

/-- A gap of 5 kHz at a pixel clock of 571199 kHz. -/
theorem smallGap_not_pllOk : ModeRate 5711990 ∧ ropllConfig 5711990 = none ∧ ¬ PllOk 5711990 := by
  have hloop : sdivLoop 2855995 1 = none :=
    (sdivLoop_cases (by decide : 125875 ≤ 2855995) (by decide)).2 (by decide)
  have hnone : ropllConfig 5711990 = none := by
    rw [ropllConfig_of_not_mem (by decide), hdptxPhyClkPllCalc,
      (by decide : 5711990 / 2 = 2855995), hloop]
    rfl
  refine ⟨⟨571199, rfl, by decide, by decide⟩, hnone, ?_⟩
  rintro ⟨found, hfound, -⟩
  rw [hnone] at hfound
  cases hfound

end Computed

end Edk2Rk3576.Hdmi
