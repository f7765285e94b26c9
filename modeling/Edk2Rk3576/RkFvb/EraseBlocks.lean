import Edk2Rk3576.RkFvb.Effects

/-!
# Erasing a list of blocks

`FvbEraseBlocks` walks its argument list twice: once to check it, once to erase. The erase pass
is one loop over the blocks the list names, in order, that stops at the first block whose erase
fails (`fvbErasePass_eq`); what it does to the shadow is said once for that loop
(`fvbEraseEach_ram`).

The check compares against the last block of the instance template, 64 blocks, while the shadow
has `FvbSize`, and its sum wraps. So a list with a block past the shadow is turned down only when
that comparison happens to catch one of its pairs.
-/

namespace Edk2Rk3576

open Cells

/-- The pairs of the argument list, up to the terminator. -/
def fvbErasePairs (args : List (ℕ × ℕ)) : List (ℕ × ℕ) :=
  args.takeWhile fun p => p.1 ≠ efiLbaListTerminator

/-- The blocks the erase pass goes through, in order. -/
def fvbEraseLbas (args : List (ℕ × ℕ)) : List ℕ :=
  (fvbErasePairs args).flatMap fun p => List.range' p.1 (toUint32 p.2)

/-- A pair the validation pass turns down. -/
def fvbPairRejected (p : ℕ × ℕ) : Prop :=
  toUint32 p.2 = 0 ∨ fvbLastBlock < (fvbStartLba + p.1 + toUint32 p.2 - 1) % uintn

theorem fvbEraseValidate_cases : ∀ args : List (ℕ × ℕ),
    (∃ p ∈ fvbErasePairs args, fvbPairRejected p)
        ∧ fvbEraseValidate args = efiInvalidParameter
      ∨ (¬ ∃ p ∈ fvbErasePairs args, fvbPairRejected p) ∧ fvbEraseValidate args = efiSuccess
  | [] => Or.inr ⟨by simp [fvbErasePairs], rfl⟩
  | (startingLba, numOfLba) :: args => by
    by_cases hend : startingLba = efiLbaListTerminator
    · refine Or.inr ⟨by simp [fvbErasePairs, hend], ?_⟩
      unfold fvbEraseValidate
      rw [if_pos hend]
    · have hcons : fvbErasePairs ((startingLba, numOfLba) :: args)
          = (startingLba, numOfLba) :: fvbErasePairs args := by
        simp [fvbErasePairs, hend]
      rw [hcons, List.exists_mem_cons_iff]
      unfold fvbEraseValidate
      rw [if_neg hend]
      by_cases hrej : fvbPairRejected (startingLba, numOfLba)
      · exact Or.inl ⟨Or.inl hrej, if_pos hrej⟩
      · rw [if_neg (show ¬ (toUint32 numOfLba = 0 ∨ _) from hrej)]
        rcases fvbEraseValidate_cases args with ⟨h1, h2⟩ | ⟨h1, h2⟩
        · exact Or.inl ⟨Or.inr h1, h2⟩
        · exact Or.inr ⟨not_or.2 ⟨hrej, h1⟩, h2⟩

section Each

variable (g : FvbGeometry) (E : NorEnv) (nor : SpiNor)

/-- Erasing blocks one after the other, up to the first that fails. -/
def fvbEraseEach (s : FvbState) : List ℕ → EfiStatus × FvbState
  | [] => (efiSuccess, s)
  | lba :: lbas =>
    if efiError (fvbEraseBlock g E nor s lba).1 then fvbEraseBlock g E nor s lba
    else fvbEraseEach (fvbEraseBlock g E nor s lba).2 lbas

theorem fvbEraseEach_append (lbas' : List ℕ) : ∀ (lbas : List ℕ) (s : FvbState),
    fvbEraseEach g E nor s (lbas ++ lbas') =
      if efiError (fvbEraseEach g E nor s lbas).1 then fvbEraseEach g E nor s lbas
      else fvbEraseEach g E nor (fvbEraseEach g E nor s lbas).2 lbas'
  | [], s => by simp [fvbEraseEach]
  | lba :: lbas, s => by
    simp only [List.cons_append, fvbEraseEach]
    split_ifs with h h'
    · rfl
    · rw [fvbEraseEach_append lbas' lbas, if_pos h']
    · rw [fvbEraseEach_append lbas' lbas, if_neg h']

theorem fvbEraseRange_eq : ∀ (numOfLba : ℕ) (s : FvbState) (lba : ℕ),
    fvbEraseRange g E nor s lba numOfLba = fvbEraseEach g E nor s (List.range' lba numOfLba)
  | 0, _, _ => rfl
  | numOfLba + 1, s, lba => by
    simp only [fvbEraseRange, List.range'_succ, fvbEraseEach]
    split_ifs
    · rfl
    · exact fvbEraseRange_eq numOfLba _ _

theorem fvbErasePass_eq : ∀ (args : List (ℕ × ℕ)) (s : FvbState),
    fvbErasePass g E nor s args = fvbEraseEach g E nor s (fvbEraseLbas args)
  | [], _ => rfl
  | (startingLba, numOfLba) :: args, s => by
    unfold fvbErasePass
    by_cases hend : startingLba = efiLbaListTerminator
    · rw [if_pos hend]
      simp [fvbEraseLbas, fvbErasePairs, hend, fvbEraseEach]
    · have hcons : fvbEraseLbas ((startingLba, numOfLba) :: args)
          = List.range' startingLba (toUint32 numOfLba) ++ fvbEraseLbas args := by
        simp [fvbEraseLbas, fvbErasePairs, hend]
      rw [if_neg hend, hcons, fvbEraseEach_append, fvbEraseRange_eq]
      simp only []
      split_ifs
      · rfl
      · exact fvbErasePass_eq args _

/-- The addresses of the shadow that these blocks take. -/
def fvbShadowBlocks (lbas : List ℕ) : Set ℕ :=
  {i | ∃ lba ∈ lbas, g.regionBaseAddress + lba * fvbBlockSize ≤ i
    ∧ i < g.regionBaseAddress + (lba + 1) * fvbBlockSize}

def FvbBlockFits (lba : ℕ) : Prop := (lba + 1) * fvbBlockSize ≤ g.fvbSize

variable {g}

theorem FvbBlockFits.pos {lba : ℕ} (h : FvbBlockFits g lba) :
    fvbPos lba 0 = lba * fvbBlockSize := by
  have := g.region_fits
  unfold FvbBlockFits at h
  simp only [fvbBlockSize] at h
  rw [fvbPos_of_lt (by simp only [fvbBlockSize]; omega), Nat.add_zero]

theorem setMem_of_fits {lba : ℕ} (h : FvbBlockFits g lba) (ram : Cells UInt8) (v : UInt8) :
    setMem ram (fvbShadowAddr g lba 0) fvbBlockSize v
      = ram.fill (g.regionBaseAddress + lba * fvbBlockSize) fvbBlockSize v := by
  have hpos := h.pos
  unfold FvbBlockFits at h
  rw [setMem_of_pos (by decide) (by rw [hpos]; simp only [fvbBlockSize] at h ⊢; omega), hpos]

/-- The loop fills blocks from the head of its list, all of them unless it fails. -/
theorem fvbEraseEach_ram : ∀ (lbas : List ℕ) (s : FvbState), (∀ lba ∈ lbas, FvbBlockFits g lba) →
    ∃ done, done <+: lbas
      ∧ (∀ i ∈ fvbShadowBlocks g done, (fvbEraseEach g E nor s lbas).2.ram i = 0xFF)
      ∧ SameOutside s.ram (fvbEraseEach g E nor s lbas).2.ram (fvbShadowBlocks g done)
      ∧ ((fvbEraseEach g E nor s lbas).1 = efiSuccess ∧ done = lbas
        ∨ (fvbEraseEach g E nor s lbas).1 = efiDeviceError)
  | [], s, _ => ⟨[], List.prefix_rfl, by simp [fvbShadowBlocks], SameOutside.refl, Or.inl ⟨rfl, rfl⟩⟩
  | lba :: lbas, s, hfits => by
    unfold fvbEraseEach
    rcases fvbEraseBlock_cases g E nor s lba with
      ⟨hst, -, -, hs⟩ | ⟨hst, chip, hs, -⟩
    · rw [if_pos (by rw [hst]; exact efiError_deviceError), hs]
      exact ⟨[], List.nil_prefix, by simp [fvbShadowBlocks], SameOutside.refl, Or.inr hst⟩
    · rw [if_neg (by rw [hst]; simp)]
      have hfit := hfits lba List.mem_cons_self
      have hram : (fvbEraseBlock g E nor s lba).2.ram
          = s.ram.fill (g.regionBaseAddress + lba * fvbBlockSize) fvbBlockSize 0xFF := by
        rw [hs]
        exact setMem_of_fits hfit s.ram 0xFF
      obtain ⟨done, h1, h2, h3, h4⟩ := fvbEraseEach_ram lbas (fvbEraseBlock g E nor s lba).2
        fun l hl => hfits l (List.mem_cons_of_mem lba hl)
      refine ⟨lba :: done, (List.cons_prefix_cons).2 ⟨rfl, h1⟩, ?_, ?_, ?_⟩
      · intro i hi
        by_cases hid : i ∈ fvbShadowBlocks g done
        · exact h2 i hid
        · rw [h3 i hid, hram]
          refine fill_of_mem ?_
          obtain ⟨l, hl, hi1, hi2⟩ := hi
          rcases List.mem_cons.1 hl with rfl | hl
          · simp only [fvbBlockSize] at hi1 hi2 ⊢
            omega
          · exact absurd ⟨l, hl, hi1, hi2⟩ hid
      · intro i hi
        have hout : i ∉ fvbShadowBlocks g done := by
          rintro ⟨l, hl, hi'⟩
          exact hi ⟨l, List.mem_cons_of_mem lba hl, hi'⟩
        rw [h3 i hout, hram]
        refine fill_of_notMem ?_
        rintro ⟨hi1, hi2⟩
        refine hi ⟨lba, List.mem_cons_self, hi1, ?_⟩
        simp only [fvbBlockSize] at hi2 ⊢
        omega
      · rcases h4 with ⟨h5, h6⟩ | h5
        · exact Or.inl ⟨h5, by rw [h6]⟩
        · exact Or.inr h5

end Each

/-- Block `b` is one that a pair of the list names. -/
def FvbNames (args : List (ℕ × ℕ)) (b : ℕ) : Prop :=
  ∃ p ∈ fvbErasePairs args, p.1 ≤ b ∧ b < p.1 + p.2

/-- A list that names a block past the region is turned down with nothing erased, and any other
that succeeds erases the blocks it names and nothing else. -/
def FvbEraseAllOrNothing (g : FvbGeometry) (E : NorEnv) (nor : SpiNor) (s : FvbState)
    (args : List (ℕ × ℕ)) : Prop :=
  ((∃ b, FvbNames args b ∧ g.fvbSize / fvbBlockSize ≤ b) →
      fvbEraseBlocks g E nor s args = (efiInvalidParameter, s))
    ∧ ((∀ b, FvbNames args b → b < g.fvbSize / fvbBlockSize) →
      (fvbEraseBlocks g E nor s args).1 = efiSuccess →
        ∀ i, ((∃ b, FvbNames args b ∧ g.regionBaseAddress + b * fvbBlockSize ≤ i
              ∧ i < g.regionBaseAddress + (b + 1) * fvbBlockSize) →
            (fvbEraseBlocks g E nor s args).2.ram i = 0xFF)
          ∧ ((¬ ∃ b, FvbNames args b ∧ g.regionBaseAddress + b * fvbBlockSize ≤ i
              ∧ i < g.regionBaseAddress + (b + 1) * fvbBlockSize) →
            (fvbEraseBlocks g E nor s args).2.ram i = s.ram i))

section AllOrNothing

variable {g : FvbGeometry} {E : NorEnv} {nor : SpiNor} {s : FvbState} {args : List (ℕ × ℕ)}

/-- A named block of the region is one the erase pass goes through: its pair's count fits in the
`UINT32` the list is read with. -/
theorem mem_fvbEraseLbas (h : ∀ b, FvbNames args b → b < g.fvbSize / fvbBlockSize) (b : ℕ) :
    b ∈ fvbEraseLbas args ↔ FvbNames args b := by
  unfold fvbEraseLbas FvbNames
  rw [List.mem_flatMap]
  refine exists_congr fun p => and_congr_right fun hp => ?_
  have hsmall : toUint32 p.2 = p.2 := by
    refine toUint32_of_lt ?_
    by_contra hbig
    have hlast := h (p.1 + (p.2 - 1)) ⟨p, hp, by omega, by omega⟩
    have := g.medium_fits
    simp only [fvbBlockSize] at hlast
    omega
  rw [hsmall, List.mem_range'_1]

theorem fvbEraseBlocks_of_denied (h : fvbWriteDisabled g s) :
    fvbEraseBlocks g E nor s args = (efiAccessDenied, s) := if_pos h

theorem fvbEraseBlocks_of_rejected (hw : ¬ fvbWriteDisabled g s)
    (h : ∃ p ∈ fvbErasePairs args, fvbPairRejected p) :
    fvbEraseBlocks g E nor s args = (efiInvalidParameter, s) := by
  unfold fvbEraseBlocks
  rcases fvbEraseValidate_cases args with ⟨-, hv⟩ | ⟨hn, -⟩
  · rw [if_neg hw, hv, if_pos efiError_invalidParameter]
  · exact absurd h hn

theorem fvbEraseBlocks_of_valid (hw : ¬ fvbWriteDisabled g s)
    (h : ¬ ∃ p ∈ fvbErasePairs args, fvbPairRejected p) :
    fvbEraseBlocks g E nor s args = fvbEraseEach g E nor s (fvbEraseLbas args) := by
  unfold fvbEraseBlocks
  rcases fvbEraseValidate_cases args with ⟨hn, -⟩ | ⟨-, hv⟩
  · exact absurd hn h
  · rw [if_neg hw, hv, if_neg (by simp), fvbErasePass_eq]

/-- Whatever blocks it names, the erase loop never ends with `EFI_INVALID_PARAMETER`. -/
theorem fvbEraseEach_status (g : FvbGeometry) (E : NorEnv) (nor : SpiNor) :
    ∀ (lbas : List ℕ) (s : FvbState), (fvbEraseEach g E nor s lbas).1 = efiSuccess
      ∨ (fvbEraseEach g E nor s lbas).1 = efiDeviceError
  | [], _ => Or.inl rfl
  | lba :: lbas, s => by
    unfold fvbEraseEach
    rcases fvbEraseBlock_cases g E nor s lba with
      ⟨hst, -⟩ | ⟨hst, -⟩
    · rw [if_pos (by rw [hst]; exact efiError_deviceError)]
      exact Or.inr hst
    · rw [if_neg (by rw [hst]; simp)]
      exact fvbEraseEach_status g E nor lbas _

theorem fvbEraseBlocks_status (g : FvbGeometry) (E : NorEnv) (nor : SpiNor) (s : FvbState)
    (args : List (ℕ × ℕ)) :
    fvbEraseBlocks g E nor s args = (efiAccessDenied, s) ∧ fvbWriteDisabled g s
      ∨ fvbEraseBlocks g E nor s args = (efiInvalidParameter, s) ∧ ¬ fvbWriteDisabled g s
        ∧ (∃ p ∈ fvbErasePairs args, fvbPairRejected p)
      ∨ fvbEraseBlocks g E nor s args = fvbEraseEach g E nor s (fvbEraseLbas args)
        ∧ ¬ fvbWriteDisabled g s ∧ ¬ ∃ p ∈ fvbErasePairs args, fvbPairRejected p := by
  by_cases hw : fvbWriteDisabled g s
  · exact Or.inl ⟨fvbEraseBlocks_of_denied hw, hw⟩
  · by_cases h : ∃ p ∈ fvbErasePairs args, fvbPairRejected p
    · exact Or.inr (Or.inl ⟨fvbEraseBlocks_of_rejected hw h, hw, h⟩)
    · exact Or.inr (Or.inr ⟨fvbEraseBlocks_of_valid hw h, hw, h⟩)

/-- A list that names blocks of the region only erases them, when it succeeds. -/
theorem fvbEraseBlocks_exact (h : ∀ b, FvbNames args b → b < g.fvbSize / fvbBlockSize)
    (hok : (fvbEraseBlocks g E nor s args).1 = efiSuccess) :
    (∀ i ∈ fvbShadowBlocks g (fvbEraseLbas args), (fvbEraseBlocks g E nor s args).2.ram i = 0xFF)
      ∧ SameOutside s.ram (fvbEraseBlocks g E nor s args).2.ram
        (fvbShadowBlocks g (fvbEraseLbas args)) := by
  rcases fvbEraseBlocks_status g E nor s args with
    ⟨hd, -⟩ | ⟨hi, -⟩ | ⟨he, -⟩
  · rw [hd] at hok
    exact absurd hok (encodeError_ne_success 15)
  · rw [hi] at hok
    exact absurd hok (encodeError_ne_success 2)
  · rw [he] at hok ⊢
    have hfits : ∀ lba ∈ fvbEraseLbas args, FvbBlockFits g lba := by
      intro lba hl
      have := h lba ((mem_fvbEraseLbas h lba).1 hl)
      unfold FvbBlockFits
      simp only [fvbBlockSize] at this ⊢
      omega
    obtain ⟨done, -, h2, h3, ⟨-, rfl⟩ | herr⟩ := fvbEraseEach_ram E nor (fvbEraseLbas args) s hfits
    · exact ⟨h2, h3⟩
    · rw [herr] at hok
      exact absurd hok (encodeError_ne_success 7)

end AllOrNothing

/-- The check is all-or-nothing exactly on lists whose blocks are all in the region, and, the
volume not being write disabled, on those where some pair fails the comparison with the last block
of the template. -/
theorem fvbEraseBlocks_allOrNothing_iff (g : FvbGeometry) (E : NorEnv) (nor : SpiNor)
    (s : FvbState) (args : List (ℕ × ℕ)) :
    FvbEraseAllOrNothing g E nor s args ↔
      (∀ b, FvbNames args b → b < g.fvbSize / fvbBlockSize)
        ∨ ¬ fvbWriteDisabled g s ∧ ∃ p ∈ fvbErasePairs args, fvbPairRejected p := by
  constructor
  · intro h
    by_contra hno
    rw [not_or, not_and] at hno
    obtain ⟨hbad, hval⟩ := hno
    push Not at hbad
    have heq := congrArg Prod.fst (h.1 hbad)
    rcases fvbEraseBlocks_status g E nor s args with
      ⟨hd, -⟩ | ⟨-, hw, hrej⟩ | ⟨he, -⟩
    · rw [hd] at heq
      exact absurd (show efiAccessDenied = efiInvalidParameter from heq) (by decide)
    · exact hval hw hrej
    · rw [he] at heq
      rcases fvbEraseEach_status g E nor (fvbEraseLbas args) s with hs | hs
      · exact absurd (show efiSuccess = efiInvalidParameter from hs.symm.trans heq) (by decide)
      · exact absurd (show efiDeviceError = efiInvalidParameter from hs.symm.trans heq) (by decide)
  · rintro (hin | ⟨hw, hrej⟩)
    · refine ⟨fun ⟨b, hb, hout⟩ => absurd (hin b hb) (by omega), fun _ hok i => ?_⟩
      obtain ⟨h1, h2⟩ := fvbEraseBlocks_exact hin hok
      constructor
      · rintro ⟨b, hb, hi⟩
        exact h1 i ⟨b, (mem_fvbEraseLbas hin b).2 hb, hi⟩
      · intro hi
        exact h2 i fun ⟨b, hb, hi'⟩ => hi ⟨b, (mem_fvbEraseLbas hin b).1 hb, hi'⟩
    · rw [FvbEraseAllOrNothing, fvbEraseBlocks_of_rejected hw hrej]
      exact ⟨fun _ => rfl, fun _ hok => absurd hok (encodeError_ne_success 2)⟩

/-- Block 48 is the first past the shadow, and its erase succeeds. -/
theorem fvbEraseBlocks_past_region :
    ¬ FvbEraseAllOrNothing cm5ioGeometry NorEnv.healthy spiNor16M (FvbState.zeros false)
      [(48, 1)] := by
  intro h
  have h48 := h.1 ⟨48, ⟨(48, 1), by decide, by decide, by decide⟩, by decide⟩
  exact absurd (congrArg Prod.fst h48) (by decide)

end Edk2Rk3576
