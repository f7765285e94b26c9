import Edk2Rk3576.Lib.CInt
import Edk2Rk3576.Lib.MaximalRuns
import Edk2Rk3576.Smbios.Records

/-!
# The BIOS release of a version string

`BIOSInfoUpdateSmbiosType0` looks for two numbers with a dot between them in the version string, by
a state machine whose cases fall through. What it finds are the first two runs of digits next to
each other, both of numbers that fit a byte.

A read behind the string's terminator, and a sum that C does not define, give no result.
-/

namespace Edk2Rk3576

/-- What is set of `SMBIOS_TABLE_TYPE0`. -/
structure BiosInfoType0 where
  systemBiosMajorRelease : UInt8
  systemBiosMinorRelease : UInt8
  embeddedControllerFirmwareMajorRelease : UInt8
  embeddedControllerFirmwareMinorRelease : UInt8

/-- `SMB_IS_DIGIT`. -/
def SmbIsDigit (c : UInt8) : Prop := 48 ≤ c ∧ c ≤ 57

instance : DecidablePred SmbIsDigit := fun _ => inferInstanceAs (Decidable (_ ∧ _))

/-- `i`, `State` and `Value`. -/
structure ScanState where
  i : ℕ
  state : ℕ
  value : ℤ × ℤ

/-- `Value[State / 2]`. -/
def ScanState.accumulator (s : ScanState) : ℤ := if s.state / 2 = 0 then s.value.1 else s.value.2

def ScanState.accumulate (s : ScanState) (x : ℤ) : ScanState :=
  { s with value := if s.state / 2 = 0 then (x, s.value.2) else (s.value.1, x) }

section Model

variable (v : List UInt8)

/-- `mBiosVersion[i]`, of the string and its terminator. -/
def charAt (i : ℕ) : Option UInt8 := (v ++ [0])[i]?

/-- The loop over the rest of a run of digits. -/
def skipDigits : (fuel i : ℕ) → Option ℕ
  | 0, _ => none
  | fuel + 1, i => do
    let next ← charAt v (i + 1)
    if SmbIsDigit next then skipDigits fuel (i + 1) else some i

/-- A digit in the cases 1 and 3. -/
def scanDigit (fuel : ℕ) (s : ScanState) (c : UInt8) : Option ScanState := do
  let product ← CInt.mul 64 s.accumulator 10
  let value ← CInt.add 64 product ((c.toNat : ℤ) - 48)
  if 255 < value then
    let i ← skipDigits v fuel s.i
    some { s.accumulate value with i := i, state := 0 }
  else some (s.accumulate value)

/-- Case 2. -/
def scanDot (s : ScanState) : Option ScanState := do
  let c ← charAt v s.i
  if c = 46 then
    let next ← charAt v (s.i + 1)
    some { s with state := if SmbIsDigit next then s.state + 1 else 0 }
  else some { s with state := 0 }

/-- The cases 1 and 3, to where they break or fall through. -/
def scanToken (fuel : ℕ) (s : ScanState) : Option ScanState := do
  let c ← charAt v s.i
  if SmbIsDigit c then scanDigit v fuel s c else some { s with state := s.state + 1 }

def scanNumber (fuel : ℕ) (s : ScanState) : Option ScanState := do
  let s ← scanToken v fuel s
  if s.state ≠ 2 then some s else scanDot v s

/-- The switch. -/
def scanSwitch (fuel : ℕ) (s : ScanState) : Option ScanState :=
  match s.state with
  | 0 => do
    let c ← charAt v s.i
    if SmbIsDigit c then scanNumber v fuel { s with state := 1, value := (0, 0) } else some s
  | 1 | 3 => scanNumber v fuel s
  | 2 => scanDot v s
  | _ => some s

def scanLoop : (fuel : ℕ) → ScanState → Option ScanState
  | 0, _ => none
  | fuel + 1, s =>
    if s.i < v.length ∧ s.state < 4 then do
      let s ← scanSwitch v (fuel + 1) s
      scanLoop fuel { s with i := s.i + 1 }
    else some s

end Model

/-- `BIOSInfoUpdateSmbiosType0`, from `mBiosVersion` as it is set there. What the accumulators hold
at the start is not known. -/
def biosInfoUpdateSmbiosType0 (version : AsciiStr) (value : ℤ × ℤ) (fuel : ℕ) (t : BiosInfoType0) :
    Option BiosInfoType0 := do
  let t := { t with
    embeddedControllerFirmwareMajorRelease := 0
    embeddedControllerFirmwareMinorRelease := 0 }
  let s ← scanLoop version.chars fuel ⟨0, 0, value⟩
  if s.state = 3 ∨ s.state = 4 then
    some { t with
      systemBiosMajorRelease := UInt8.ofNat (s.value.1 % 256).toNat
      systemBiosMinorRelease := UInt8.ofNat (s.value.2 % 256).toNat }
  else some t

section Spec

variable (v : List UInt8)

def DigitAt (i : ℕ) : Prop := ∃ c, v[i]? = some c ∧ SmbIsDigit c

/-- The number that digits spell. -/
def decimal (digits : List UInt8) : ℕ := digits.foldl (fun n c => 10 * n + (c.toNat - 48)) 0

/-- The number from `p` up to `q`. -/
def number (p q : ℕ) : ℕ := decimal (v.extract p q)

/-- Two runs of digits with a dot between them, of numbers that fit a byte. -/
structure Release (p q r : ℕ) : Prop where
  major : MaximalRun (DigitAt v) p q
  dot : v[q]? = some 46
  minor : MaximalRun (DigitAt v) (q + 1) r
  major_le : number v p q ≤ 255
  minor_le : number v (q + 1) r ≤ 255

/-- All releases start at `p` or behind it. -/
def Passed (p : ℕ) : Prop := ∀ p' q' r', Release v p' q' r' → p ≤ p'

structure FirstRelease (p q r : ℕ) : Prop where
  release : Release v p q r
  first : Passed v p

end Spec

section Chars

variable {v : List UInt8} {p q q' i : ℕ}

theorem DigitAt.lt (h : DigitAt v i) : i < v.length := by
  obtain ⟨c, hc, -⟩ := h
  exact (List.getElem?_eq_some_iff.1 hc).1

/-- What is read up to the terminator tells the digits and the dots. -/
theorem charAt_of_le (h : i ≤ v.length) :
    ∃ c, charAt v i = some c ∧ (SmbIsDigit c → v[i]? = some c) ∧ (SmbIsDigit c ↔ DigitAt v i) ∧
      (c = 46 ↔ v[i]? = some 46) := by
  unfold charAt
  rcases Nat.eq_or_lt_of_le h with rfl | hlt
  · have hnone : v[v.length]? = none := List.getElem?_eq_none (Nat.le_refl _)
    refine ⟨0, List.getElem?_concat_length, fun hd => absurd hd (by decide), ?_, ?_⟩
    · exact ⟨fun hd => absurd hd (by decide), fun hd => absurd hd.lt (Nat.lt_irrefl _)⟩
    · rw [hnone]
      exact ⟨fun hc => absurd hc (by decide), fun hc => (nomatch hc)⟩
  · have hsome : v[i]? = some v[i] := List.getElem?_eq_getElem hlt
    refine ⟨v[i], ?_, fun _ => hsome, ⟨fun hd => ⟨_, hsome, hd⟩, ?_⟩, ?_⟩
    · rw [List.getElem?_append_left hlt, hsome]
    · rintro ⟨c, hc, hd⟩
      rw [hsome] at hc
      rwa [Option.some.inj hc]
    · rw [hsome]
      exact ⟨fun hc => congrArg some hc, fun hc => Option.some.inj hc⟩

theorem number_self (v : List UInt8) (p : ℕ) : number v p p = 0 := by
  rw [number, List.extract_eq_take_drop, Nat.sub_self, List.take_zero]
  rfl

theorem number_succ (hp : p ≤ q) {c : UInt8} (hc : v[q]? = some c) :
    number v p (q + 1) = 10 * number v p q + (c.toNat - 48) := by
  have hdrop : (v.drop p)[q - p]? = some c := by
    rw [List.getElem?_drop, Nat.add_sub_cancel' hp, hc]
  unfold number
  rw [List.extract_eq_take_drop, List.extract_eq_take_drop, Nat.succ_sub hp, List.take_add_one,
    hdrop]
  exact List.foldl_append

theorem number_le_succ (hp : p ≤ q) (hd : DigitAt v q) : number v p q ≤ number v p (q + 1) := by
  obtain ⟨c, hc, -⟩ := hd
  rw [number_succ hp hc]
  omega

/-- More digits do not make a number smaller. -/
theorem number_mono (hp : p ≤ q) : ∀ {q' : ℕ}, q ≤ q' → (∀ j, q ≤ j → j < q' → DigitAt v j) →
    number v p q ≤ number v p q' := by
  intro q' hq hd
  induction q' with
  | zero =>
    obtain rfl : q = 0 := Nat.le_zero.1 hq
    exact Nat.le_refl _
  | succ q' ih =>
    rcases Nat.eq_or_lt_of_le hq with rfl | hlt
    · exact Nat.le_refl _
    · have hle := ih (Nat.le_of_lt_succ hlt) fun j hj hj' => hd j hj (Nat.lt_succ_of_lt hj')
      have hstep := @number_le_succ v p q' (by omega) (hd q' (by omega) (Nat.lt_succ_self _))
      omega

theorem skipDigits_eq : ∀ {fuel i : ℕ}, i < v.length → v.length - i ≤ fuel →
    ∃ e, skipDigits v fuel i = some e ∧ i ≤ e ∧ (∀ j, i < j → j < e + 1 → DigitAt v j) ∧
      ¬ DigitAt v (e + 1)
  | 0, i, hi, hfuel => absurd hfuel (by omega)
  | fuel + 1, i, hi, hfuel => by
    obtain ⟨c, hc, -, hd, -⟩ := @charAt_of_le v (i + 1) (by omega)
    simp only [skipDigits, Option.bind_eq_bind]
    rw [hc, Option.bind_some]
    by_cases hdigit : SmbIsDigit c
    · have hlt := (hd.1 hdigit).lt
      obtain ⟨e, he, hle, hall, hend⟩ := @skipDigits_eq fuel (i + 1) hlt (by omega)
      rw [if_pos hdigit]
      refine ⟨e, he, by omega, fun j hj hj' => ?_, hend⟩
      rcases Nat.eq_or_lt_of_le (Nat.succ_le_of_lt hj) with rfl | hlt'
      · exact hd.1 hdigit
      · exact hall j hlt' hj'
    · rw [if_neg hdigit]
      exact ⟨i, rfl, Nat.le_refl i, fun j hj hj' => absurd hj (by omega), fun h => hdigit (hd.2 h)⟩

end Chars

section Passing

variable {v : List UInt8} {p q e : ℕ}

/-- No release starts with a run unless it is one of its own. -/
theorem Passed.run (h : Passed v p) (hrun : MaximalRun (DigitAt v) p e)
    (hno : ∀ r, ¬ Release v p e r) : Passed v (e + 1) := by
  intro p' q' r' hr
  rcases hrun.same_or_behind hr.major (h p' q' r' hr) with ⟨rfl, rfl⟩ | hlt
  · exact absurd hr (hno r')
  · exact hlt

theorem Passed.succ (h : Passed v p) (hp : ¬ DigitAt v p) : Passed v (p + 1) := by
  intro p' q' r' hr
  have hne : p ≠ p' := fun heq => hp (heq ▸ hr.major.start)
  have := h p' q' r' hr
  omega

end Passing

section Invariant

variable (v : List UInt8)

/-- State 0: in front of a run, or behind one that was skipped. -/
structure ScanIdle (s : ScanState) : Prop where
  state : s.state = 0
  boundary : ∀ j, j + 1 = s.i → DigitAt v j → ¬ DigitAt v s.i
  passed : Passed v s.i

/-- State 1: in the run that starts at `p`. -/
structure ScanMajor (p : ℕ) (s : ScanState) : Prop where
  state : s.state = 1
  le : p ≤ s.i
  start : DigitAt v p
  inside : ∀ j, p ≤ j → j < s.i → DigitAt v j
  left : ∀ j, j + 1 = p → ¬ DigitAt v j
  value : s.value = ((number v p s.i : ℤ), 0)
  fits : number v p s.i ≤ 255
  passed : Passed v p

/-- State 3: in the run behind the dot that ends the run from `p` to `q`. -/
structure ScanMinor (p q : ℕ) (s : ScanState) : Prop where
  state : s.state = 3
  major : MaximalRun (DigitAt v) p q
  dot : v[q]? = some 46
  le : q + 1 ≤ s.i
  start : DigitAt v (q + 1)
  inside : ∀ j, q + 1 ≤ j → j < s.i → DigitAt v j
  value : s.value = ((number v p q : ℤ), (number v (q + 1) s.i : ℤ))
  major_fits : number v p q ≤ 255
  minor_fits : number v (q + 1) s.i ≤ 255
  passed : Passed v p

structure ScanFound (p q r : ℕ) (s : ScanState) : Prop where
  state : s.state = 4
  first : FirstRelease v p q r
  value : s.value = ((number v p q : ℤ), (number v (q + 1) r : ℤ))

inductive ScanInv (s : ScanState) : Prop
  | idle (h : ScanIdle v s)
  | major (p : ℕ) (h : ScanMajor v p s)
  | minor (p q : ℕ) (h : ScanMinor v p q s)
  | found (p q r : ℕ) (h : ScanFound v p q r s)

/-- What a pass through the switch leads to, with the loop's increment. -/
def ScanStep (s : ScanState) (result : Option ScanState) : Prop :=
  ∃ s', result = some s' ∧ s.i ≤ s'.i ∧ s'.i < v.length ∧ ScanInv v { s' with i := s'.i + 1 }

end Invariant

section Steps

variable {v : List UInt8} {s : ScanState} {p q fuel : ℕ} {c : UInt8}

/-- A digit makes the number longer; one that is too large is skipped to the end of its run. -/
theorem scanDigit_eq (hi : s.i < v.length) (hfuel : v.length - s.i ≤ fuel)
    (hc : v[s.i]? = some c) (hd : SmbIsDigit c) (hp : p ≤ s.i)
    (hacc : s.accumulator = (number v p s.i : ℤ)) (hle : number v p s.i ≤ 255) :
    (number v p (s.i + 1) ≤ 255 ∧
        scanDigit v fuel s c = some (s.accumulate (number v p (s.i + 1) : ℤ))) ∨
      ∃ e x, scanDigit v fuel s c = some { s.accumulate x with i := e, state := 0 } ∧ s.i ≤ e ∧
        (∀ j, s.i ≤ j → j < e + 1 → DigitAt v j) ∧ ¬ DigitAt v (e + 1) ∧
        255 < number v p (e + 1) := by
  have hdigit : 48 ≤ c.toNat ∧ c.toNat ≤ 57 := ⟨UInt8.le_iff_toNat_le.1 hd.1,
    UInt8.le_iff_toNat_le.1 hd.2⟩
  have hmul := @CInt.mul_natCast 64 (number v p s.i) 10 (by omega)
  have hadd := @CInt.add_natCast 64 (number v p s.i * 10) (c.toNat - 48) (by omega)
  have hsub : ((c.toNat - 48 : ℕ) : ℤ) = (c.toNat : ℤ) - 48 := by omega
  have hsucc : number v p s.i * 10 + (c.toNat - 48) = number v p (s.i + 1) := by
    rw [number_succ hp hc, Nat.mul_comm]
  rw [Nat.cast_ofNat] at hmul
  rw [hsub, hsucc] at hadd
  simp only [scanDigit, Option.bind_eq_bind]
  rw [hacc, hmul, Option.bind_some, hadd, Option.bind_some]
  by_cases hlarge : 255 < number v p (s.i + 1)
  · obtain ⟨e, he, hie, hall, hend⟩ := skipDigits_eq hi hfuel
    have hlarge' : (255 : ℤ) < (number v p (s.i + 1) : ℤ) := by omega
    have hmono := @number_mono v p (s.i + 1) (by omega) (e + 1) (by omega)
      fun j hj hj' => hall j hj hj'
    rw [if_pos hlarge', he, Option.bind_some]
    refine .inr ⟨e, _, rfl, hie, fun j hj hj' => ?_, hend, by omega⟩
    rcases Nat.eq_or_lt_of_le hj with rfl | hlt
    · exact ⟨c, hc, hd⟩
    · exact hall j hlt hj'
  · have hlarge' : ¬ (255 : ℤ) < (number v p (s.i + 1) : ℤ) := by omega
    rw [if_neg hlarge']
    exact .inl ⟨by omega, rfl⟩

/-- A dot behind a run, and a digit behind it. -/
theorem scanDot_dot (hi : s.i < v.length) (hdot : v[s.i]? = some 46) (hd : DigitAt v (s.i + 1)) :
    scanDot v s = some { s with state := s.state + 1 } := by
  obtain ⟨c, hc, -, -, hdot'⟩ := @charAt_of_le v s.i (by omega)
  obtain ⟨next, hnext, -, hd', -⟩ := @charAt_of_le v (s.i + 1) (by omega)
  simp only [scanDot, Option.bind_eq_bind]
  rw [hc, Option.bind_some, if_pos (hdot'.2 hdot), hnext, Option.bind_some, if_pos (hd'.2 hd)]

theorem scanDot_other (hi : s.i < v.length) (h : v[s.i]? = some 46 → ¬ DigitAt v (s.i + 1)) :
    scanDot v s = some { s with state := 0 } := by
  obtain ⟨c, hc, -, -, hdot⟩ := @charAt_of_le v s.i (by omega)
  obtain ⟨next, hnext, -, hd, -⟩ := @charAt_of_le v (s.i + 1) (by omega)
  simp only [scanDot, Option.bind_eq_bind]
  rw [hc, Option.bind_some]
  by_cases h46 : c = 46
  · rw [if_pos h46, hnext, Option.bind_some, if_neg fun hdigit => h (hdot.1 h46) (hd.1 hdigit)]
  · rw [if_neg h46]

/-- A run that was skipped is passed, and the next one may start behind it. -/
theorem scanStep_skipped {e : ℕ} {x : ℤ} (hp : p ≤ s.i) (hie : s.i ≤ e)
    (hinside : ∀ j, p ≤ j → j < s.i → DigitAt v j) (hall : ∀ j, s.i ≤ j → j < e + 1 → DigitAt v j)
    (hend : ¬ DigitAt v (e + 1)) (hpassed : MaximalRun (DigitAt v) p (e + 1) → Passed v (e + 1))
    (hleft : ∀ j, j + 1 = p → ¬ DigitAt v j) :
    ScanStep v s (some { s.accumulate x with i := e, state := 0 }) := by
  have hrun : MaximalRun (DigitAt v) p (e + 1) := by
    refine ⟨by omega, fun j hj hj' => ?_, hleft, hend⟩
    rcases Nat.lt_or_ge j s.i with hlt | hge
    · exact hinside j hj hlt
    · exact hall j hge hj'
  refine ⟨_, rfl, hie, (hall e hie (Nat.lt_succ_self e)).lt, .idle ⟨rfl, ?_, hpassed hrun⟩⟩
  exact fun j _ _ => hend

theorem scanNumber_major (h : ScanMajor v p s) (hi : s.i < v.length)
    (hfuel : v.length - s.i ≤ fuel) : ScanStep v s (scanNumber v fuel s) := by
  obtain ⟨c, hc, hget, hd, -⟩ := @charAt_of_le v s.i (by omega)
  have hacc : s.accumulator = (number v p s.i : ℤ) := by
    rw [ScanState.accumulator, h.state, if_pos rfl, h.value]
  simp only [scanNumber, scanToken, Option.bind_eq_bind]
  rw [hc, Option.bind_some]
  by_cases hdigit : SmbIsDigit c
  · rw [if_pos hdigit]
    rcases scanDigit_eq hi hfuel (hget hdigit) hdigit h.le hacc h.fits with
      ⟨hfits, hscan⟩ | ⟨e, x, hscan, hie, hall, hend, hlarge⟩
    · rw [hscan, Option.bind_some, if_pos (by rw [ScanState.accumulate, h.state]; decide)]
      refine ⟨_, rfl, le_rfl, hi, .major p ⟨h.state, Nat.le_succ_of_le h.le, h.start,
        MaximalRun.inside_succ h.inside (hd.1 hdigit), h.left, ?_, hfits, h.passed⟩⟩
      · simp only [ScanState.accumulate, h.state, h.value]
        rfl
    · rw [hscan, Option.bind_some, if_pos (show 0 ≠ 2 by decide)]
      refine scanStep_skipped h.le hie h.inside hall hend (fun hrun => ?_) h.left
      refine fun p' q' r' hr => Nat.le_of_lt (h.passed.run hrun (fun r hr' => ?_) p' q' r' hr)
      have := hr'.major_le
      omega
  · rw [if_neg hdigit, Option.bind_some, if_neg (show ¬ s.state + 1 ≠ 2 by rw [h.state]; decide)]
    have hnot : ¬ DigitAt v s.i := fun hat => hdigit (hd.2 hat)
    have hne : p ≠ s.i := fun heq => hnot (heq ▸ h.start)
    have hle := h.le
    have hrun : MaximalRun (DigitAt v) p s.i := ⟨by omega, h.inside, h.left, hnot⟩
    by_cases hdot : v[s.i]? = some 46 ∧ DigitAt v (s.i + 1)
    · rw [@scanDot_dot v { s with state := s.state + 1 } hi hdot.1 hdot.2]
      refine ⟨_, rfl, le_rfl, hi, .minor p s.i ⟨?_, hrun, hdot.1, le_rfl, hdot.2, ?_, ?_, h.fits, ?_,
        h.passed⟩⟩
      · simp only [h.state]
      · exact fun j hj hj' => absurd hj' (Nat.not_lt.2 hj)
      · simp only [h.value, number_self]
        rfl
      · simp only [number_self]
        exact Nat.zero_le _
    · rw [@scanDot_other v { s with state := s.state + 1 } hi fun h46 hat => hdot ⟨h46, hat⟩]
      refine ⟨_, rfl, le_rfl, hi, .idle ⟨rfl, fun j hj hat => ?_, ?_⟩⟩
      · exact absurd hat (MaximalRun.left_of_not hnot j hj)
      · exact h.passed.run hrun fun r hr => hdot ⟨hr.dot, hr.minor.start⟩

theorem scanNumber_minor (h : ScanMinor v p q s) (hi : s.i < v.length)
    (hfuel : v.length - s.i ≤ fuel) : ScanStep v s (scanNumber v fuel s) := by
  obtain ⟨c, hc, hget, hd, -⟩ := @charAt_of_le v s.i (by omega)
  have hleft := MaximalRun.left_of_not h.major.right
  have hacc : s.accumulator = (number v (q + 1) s.i : ℤ) := by
    rw [ScanState.accumulator, h.state, if_neg (by decide), h.value]
  simp only [scanNumber, scanToken, Option.bind_eq_bind]
  rw [hc, Option.bind_some]
  by_cases hdigit : SmbIsDigit c
  · rw [if_pos hdigit]
    rcases scanDigit_eq hi hfuel (hget hdigit) hdigit h.le hacc h.minor_fits with
      ⟨hfits, hscan⟩ | ⟨e, x, hscan, hie, hall, hend, hlarge⟩
    · rw [hscan, Option.bind_some, if_pos (by rw [ScanState.accumulate, h.state]; decide)]
      refine ⟨_, rfl, le_rfl, hi, .minor p q ⟨h.state, h.major, h.dot, Nat.le_succ_of_le h.le,
        h.start, MaximalRun.inside_succ h.inside (hd.1 hdigit), ?_, h.major_fits, hfits,
        h.passed⟩⟩
      · simp only [ScanState.accumulate, h.state, h.value]
        rfl
    · rw [hscan, Option.bind_some, if_pos (show 0 ≠ 2 by decide)]
      refine scanStep_skipped h.le hie h.inside hall hend (fun hrun => ?_) hleft
      -- Neither of the two runs starts a release: the second is too large.
      have hbehind : Passed v (q + 1) := h.passed.run h.major fun r hr => by
        have heq : r = e + 1 := hr.minor.eq_of_start hrun
        have := hr.minor_le
        rw [heq] at this
        omega
      refine fun p' q' r' hr => Nat.le_of_lt (hbehind.run hrun (fun r hr' => ?_) p' q' r' hr)
      have := hr'.major_le
      omega
  · rw [if_neg hdigit, Option.bind_some, if_pos (show s.state + 1 ≠ 2 by rw [h.state]; decide)]
    have hnot : ¬ DigitAt v s.i := fun hat => hdigit (hd.2 hat)
    have hne : q + 1 ≠ s.i := fun heq => hnot (heq ▸ h.start)
    have hle := h.le
    have hrun : MaximalRun (DigitAt v) (q + 1) s.i := ⟨by omega, h.inside, hleft, hnot⟩
    refine ⟨_, rfl, le_rfl, hi, .found p q s.i ⟨?_, ⟨⟨h.major, h.dot, hrun, h.major_fits,
      h.minor_fits⟩, h.passed⟩, h.value⟩⟩
    simp only [h.state]

theorem scanSwitch_idle (h : ScanIdle v s) (hi : s.i < v.length)
    (hfuel : v.length - s.i ≤ fuel) : ScanStep v s (scanSwitch v fuel s) := by
  obtain ⟨c, hc, -, hd, -⟩ := @charAt_of_le v s.i (by omega)
  simp only [scanSwitch, h.state, Option.bind_eq_bind]
  rw [hc, Option.bind_some]
  by_cases hdigit : SmbIsDigit c
  · have hat := hd.1 hdigit
    rw [if_pos hdigit]
    refine @scanNumber_major v { s with state := 1, value := (0, 0) } s.i fuel ⟨rfl, le_rfl, hat,
      fun j hj hj' => absurd hj' (Nat.not_lt.2 hj), fun j hj hat' => h.boundary j hj hat' hat, ?_, ?_,
      h.passed⟩ hi hfuel
    · simp only [number_self]
      rfl
    · simp only [number_self]
      exact Nat.zero_le _
  · have hnot : ¬ DigitAt v s.i := fun hat => hdigit (hd.2 hat)
    rw [if_neg hdigit]
    refine ⟨_, rfl, le_rfl, hi, .idle ⟨h.state, fun j hj hat => ?_, h.passed.succ hnot⟩⟩
    exact absurd hat (MaximalRun.left_of_not hnot j hj)

/-- One pass through the switch keeps the invariant. -/
theorem scanSwitch_step (h : ScanInv v s) (hstate : s.state < 4) (hi : s.i < v.length)
    (hfuel : v.length - s.i ≤ fuel) : ScanStep v s (scanSwitch v fuel s) := by
  cases h with
  | idle h => exact scanSwitch_idle h hi hfuel
  | major p h =>
    simp only [scanSwitch, h.state]
    exact scanNumber_major h hi hfuel
  | minor p q h =>
    simp only [scanSwitch, h.state]
    exact scanNumber_minor h hi hfuel
  | found p q r h => exact absurd hstate (by rw [h.state]; decide)

end Steps

section Loop

variable {v : List UInt8} {p q r : ℕ}

/-- How a scan ends: at the first release, or without one. -/
inductive ScanOutcome (v : List UInt8) (s : ScanState) : Prop
  | found (p q r : ℕ) (state : s.state = 3 ∨ s.state = 4) (first : FirstRelease v p q r)
      (value : s.value = ((number v p q : ℤ), (number v (q + 1) r : ℤ)))
  | nothing (state : ¬ (s.state = 3 ∨ s.state = 4)) (absent : ∀ p q r, ¬ Release v p q r)

theorem not_digitAt_length (v : List UInt8) : ¬ DigitAt v v.length :=
  fun h => absurd h.lt (Nat.lt_irrefl _)

/-- A release starts in the string. -/
theorem Passed.nothing (h : Passed v v.length) : ∀ p q r, ¬ Release v p q r := by
  intro p q r hr
  have := h p q r hr
  have := hr.major.start.lt
  omega

/-- Where the loop ends, at the end of the string or with a release behind it. -/
theorem ScanInv.outcome {s : ScanState} (h : ScanInv v s) (hi : s.i ≤ v.length)
    (hend : ¬ (s.i < v.length ∧ s.state < 4)) : ScanOutcome v s := by
  have hat (hstate : s.state < 4) : s.i = v.length := by
    have hlt : ¬ s.i < v.length := fun hlt => hend ⟨hlt, hstate⟩
    omega
  cases h with
  | idle h =>
    have heq := hat (by rw [h.state]; decide)
    have hpassed := h.passed
    rw [heq] at hpassed
    exact .nothing (by rw [h.state]; decide) hpassed.nothing
  | major p h =>
    have heq := hat (by rw [h.state]; decide)
    have hinside := h.inside
    rw [heq] at hinside
    have hrun : MaximalRun (DigitAt v) p v.length :=
      ⟨h.start.lt, hinside, h.left, not_digitAt_length v⟩
    refine .nothing (by rw [h.state]; decide) fun p' q' r' hr => ?_
    have hpassed := h.passed.run hrun fun r hr => by
      have hdot := hr.dot
      rw [List.getElem?_eq_none (Nat.le_refl _)] at hdot
      exact nomatch hdot
    have := hpassed p' q' r' hr
    have := hr.major.start.lt
    omega
  | minor p q h =>
    have heq := hat (by rw [h.state]; decide)
    have hinside := h.inside
    have hfits := h.minor_fits
    have hvalue := h.value
    rw [heq] at hinside hfits hvalue
    have hrun : MaximalRun (DigitAt v) (q + 1) v.length :=
      ⟨h.start.lt, hinside, MaximalRun.left_of_not h.major.right, not_digitAt_length v⟩
    exact .found p q v.length (.inl h.state)
      ⟨⟨h.major, h.dot, hrun, h.major_fits, hfits⟩, h.passed⟩ hvalue
  | found p q r h => exact .found p q r (.inr h.state) h.first h.value

/-- The loop ends, and reads and sums as it should. -/
theorem scanLoop_end : ∀ {fuel : ℕ} {s : ScanState}, ScanInv v s → s.i ≤ v.length →
    v.length - s.i < fuel → ∃ s', scanLoop v fuel s = some s' ∧ ScanOutcome v s'
  | 0, _, _, _, hfuel => absurd hfuel (Nat.not_lt_zero _)
  | fuel + 1, s, h, hi, hfuel => by
    unfold scanLoop
    by_cases hgo : s.i < v.length ∧ s.state < 4
    · obtain ⟨s', hs', hle, hlt, hinv⟩ := scanSwitch_step h hgo.2 hgo.1 (Nat.le_of_lt hfuel)
      obtain ⟨s'', hs'', hend⟩ := @scanLoop_end fuel { s' with i := s'.i + 1 } hinv hlt (by
        change v.length - (s'.i + 1) < fuel
        omega)
      rw [if_pos hgo, hs', Option.bind_eq_bind, Option.bind_some]
      exact ⟨s'', hs'', hend⟩
    · rw [if_neg hgo]
      exact ⟨s, rfl, h.outcome hi hgo⟩

theorem FirstRelease.unique {p' q' r' : ℕ} (h : FirstRelease v p q r)
    (h' : FirstRelease v p' q' r') : p = p' ∧ q = q' ∧ r = r' := by
  obtain rfl : p = p' := Nat.le_antisymm (h.first _ _ _ h'.release) (h'.first _ _ _ h.release)
  obtain rfl := h.release.major.eq_of_start h'.release.major
  exact ⟨rfl, rfl, h.release.minor.eq_of_start h'.release.minor⟩

end Loop

section Update

/-- What an update makes of the fields: those of the first release, or as they were. -/
inductive Updated (v : List UInt8) (t : BiosInfoType0) : BiosInfoType0 → Prop
  | found (p q r : ℕ) (first : FirstRelease v p q r) :
    Updated v t ⟨UInt8.ofNat (number v p q), UInt8.ofNat (number v (q + 1) r), 0, 0⟩
  | nothing (absent : ∀ p q r, ¬ Release v p q r) :
    Updated v t ⟨t.systemBiosMajorRelease, t.systemBiosMinorRelease, 0, 0⟩

theorem Updated.unique {v : List UInt8} {t t' t'' : BiosInfoType0} (h : Updated v t t')
    (h' : Updated v t t'') : t' = t'' := by
  cases h with
  | found p q r first =>
    cases h' with
    | found p' q' r' first' =>
      obtain ⟨rfl, rfl, rfl⟩ := first.unique first'
      rfl
    | nothing absent => exact absurd first.release (absent p q r)
  | nothing absent =>
    cases h' with
    | found p' q' r' first' => exact absurd first'.release (absent p' q' r')
    | nothing _ => rfl

theorem biosInfoUpdateSmbiosType0_updated (version : AsciiStr) (value : ℤ × ℤ)
    (t : BiosInfoType0) {fuel : ℕ} (hfuel : version.chars.length < fuel) :
    ∃ t', biosInfoUpdateSmbiosType0 version value fuel t = some t' ∧
      Updated version.chars t t' := by
  have hstart : ScanInv version.chars ⟨0, 0, value⟩ :=
    .idle ⟨rfl, fun j hj => absurd hj (Nat.succ_ne_zero j), fun p' _ _ _ => Nat.zero_le p'⟩
  obtain ⟨s, hs, hend⟩ := @scanLoop_end version.chars fuel _ hstart (Nat.zero_le _) hfuel
  simp only [biosInfoUpdateSmbiosType0, Option.bind_eq_bind]
  rw [hs, Option.bind_some]
  cases hend with
  | found p q r state first hvalue =>
    have hmajor := first.release.major_le
    have hminor := first.release.minor_le
    have hbyte (n : ℕ) (hn : n ≤ 255) : ((n : ℤ) % 256).toNat = n := by omega
    rw [if_pos state, hvalue]
    simp only [hbyte _ hmajor, hbyte _ hminor]
    exact ⟨_, rfl, .found p q r first⟩
  | nothing state absent =>
    rw [if_neg state]
    exact ⟨_, rfl, .nothing absent⟩

/-- With as many passes as the string has characters, and one more, the update ends, and sets the
release to the first two adjacent runs of digits whose numbers fit, if there are any. -/
theorem biosInfoUpdateSmbiosType0_spec (version : AsciiStr) (value : ℤ × ℤ) (t : BiosInfoType0) :
    ∃ t', (∀ fuel > version.chars.length,
        biosInfoUpdateSmbiosType0 version value fuel t = some t') ∧
      Updated version.chars t t' := by
  obtain ⟨t', -, hup⟩ := biosInfoUpdateSmbiosType0_updated version value t (Nat.lt_succ_self _)
  refine ⟨t', fun fuel hfuel => ?_, hup⟩
  obtain ⟨t'', ht'', hup'⟩ := biosInfoUpdateSmbiosType0_updated version value t hfuel
  rw [ht'', hup.unique hup']

end Update

end Edk2Rk3576
