import Edk2Rk3576.Acpi.Names

/-!
# Patched integers

What an integer that has been patched is read as. A patch keeps the encoding the table has for the
integer, whatever the value, and does not look where the table ends once it has found the name.
-/

namespace Edk2Rk3576

open Cells

/-- The value of an AML constant; integers are of 64 bits. -/
def amlConstant (opcode : UInt8) : Option ℕ :=
  if opcode = 0x00 then some 0
  else if opcode = 0x01 then some 1
  else if opcode = 0xFF then some (2 ^ 64 - 1)
  else none

/-- The bytes of an AML integer behind its prefix. -/
def amlPrefixWidth (opcode : UInt8) : Option ℕ :=
  if opcode = 0x0A then some 1
  else if opcode = 0x0B then some 2
  else if opcode = 0x0C then some 4
  else if opcode = 0x0E then some 8
  else none

/-- The integer at `a`, and the bytes it takes. -/
def amlInteger (m : Cells UInt8) (a : ℕ) : Option (ℕ × ℕ) :=
  match amlConstant (m a) with
  | some x => some (x, 1)
  | none => (amlPrefixWidth (m a)).map fun w => (m.le (a + 1) w, w + 1)

/-- The first place of the name in a table that a byte of the table follows. -/
structure FirstName (m : Cells UInt8) (table : ℕ) (name : List UInt8) (index : ℕ) : Prop where
  lt : index + sdtPatternLen < sdtLength m table
  isNameOp : IsNameOp m (table + index) name
  first : ∀ j < index, ¬ IsNameOp m (table + j) name

/-- The call has failed and left memory alone, or it has changed no more than the bytes of the first
integer of the name, its prefix kept, and the integer is the value now. What it does depends on the
table alone. -/
structure NameIntegerSet (m : Cells UInt8) (table : ℕ) (name : List UInt8) (value : UInt64) :
    Prop where
  kept : efiError (acpiUpdateSdtNameInteger m table name value.toNat).1 = true →
    (acpiUpdateSdtNameInteger m table name value.toNat).2 = m
  set : efiError (acpiUpdateSdtNameInteger m table name value.toNat).1 = false →
    ∃ index old size, FirstName m table name index
      ∧ amlInteger m (table + index + sdtPatternLen) = some (old, size)
      ∧ index + sdtPatternLen + size ≤ sdtLength m table
      ∧ SameOutside m (acpiUpdateSdtNameInteger m table name value.toNat).2
        {a | table + index + sdtPatternLen ≤ a ∧ a < table + index + sdtPatternLen + size
          ∧ (1 < size → a ≠ table + index + sdtPatternLen)}
      ∧ amlInteger (acpiUpdateSdtNameInteger m table name value.toNat).2
          (table + index + sdtPatternLen) = some (value.toNat, size)
  reads : ∀ m' : Cells UInt8,
    (∀ k, k < 8 ∨ k < sdtLength m table → m' (table + k) = m (table + k)) →
    (acpiUpdateSdtNameInteger m' table name value.toNat).1
        = (acpiUpdateSdtNameInteger m table name value.toNat).1
      ∧ ∀ a, (acpiUpdateSdtNameInteger m' table name value.toNat).2 a = m' a
          ∧ (acpiUpdateSdtNameInteger m table name value.toNat).2 a = m a
        ∨ (acpiUpdateSdtNameInteger m' table name value.toNat).2 a
          = (acpiUpdateSdtNameInteger m table name value.toNat).2 a

/-- The encoding of the name's integer holds the value, and the table has the bytes of it. A constant
can become another. -/
def IntegerFits (m : Cells UInt8) (table : ℕ) (name : List UInt8) (value : UInt64) : Prop :=
  ∀ index, FirstName m table name index →
    ∀ v w, sdtValue (m (table + index + sdtPatternLen)) = some (v, w) →
      if v = sdtPatternLen then value = 0 ∨ value = 1 ∨ value = 0xFFFFFFFFFFFFFFFF
      else index + v + w ≤ sdtLength m table ∧ value.toNat < 256 ^ w

section Scan

variable {m m' : Cells UInt8} {table index i : ℕ} {name : List UInt8} {value : UInt64}

theorem FirstName.unique {j : ℕ} (h : FirstName m table name index)
    (h' : FirstName m table name j) : index = j := by
  rcases lt_trichotomy index j with hlt | heq | hgt
  · exact absurd h.isNameOp (h'.first _ hlt)
  · exact heq
  · exact absurd h'.isNameOp (h.first _ hgt)

theorem findName_eq_some_iff : findName m table name = some index ↔ FirstName m table name index := by
  unfold findName
  rw [List.find?_range_eq_some]
  simp only [List.mem_range, decide_eq_true_eq, Bool.not_eq_true', decide_eq_false_iff_not]
  constructor
  · rintro ⟨hname, hlt, hfirst⟩
    exact ⟨by omega, hname, hfirst⟩
  · rintro ⟨hlt, hname, hfirst⟩
    exact ⟨hname, by omega, hfirst⟩

/-- The outcomes of a call, by what it finds. -/
theorem acpiUpdate_cases (value : ℕ) :
    (efiError (acpiUpdateSdtNameInteger m table name value).1 = true
        ∧ (acpiUpdateSdtNameInteger m table name value).2 = m
        ∧ ∀ index, FirstName m table name index →
          sdtValue (m (table + index + sdtPatternLen)) = none)
      ∨ ∃ index v w, FirstName m table name index
        ∧ sdtValue (m (table + index + sdtPatternLen)) = some (v, w)
        ∧ acpiUpdateSdtNameInteger m table name value
          = (efiSuccess, copyBytes m (table + index + v) (leBytes value w)) := by
  unfold acpiUpdateSdtNameInteger
  by_cases hshort : sdtLength m table ≤ sdtPatternLen
  · rw [if_pos hshort]
    refine Or.inl ⟨efiError_invalidParameter, rfl, fun index h => ?_⟩
    exact absurd h.lt (by omega)
  rw [if_neg hshort]
  rcases hfind : findName m table name with _ | index
  · refine Or.inl ⟨efiError_encodeError 14, rfl, fun index h => ?_⟩
    rw [findName_eq_some_iff.2 h] at hfind
    cases hfind
  have hfirst := findName_eq_some_iff.1 hfind
  simp only []
  rcases hvalue : sdtValue (m (table + index + sdtPatternLen)) with _ | ⟨v, w⟩
  · refine Or.inl ⟨efiError_encodeError 3, rfl, fun j h => ?_⟩
    rw [h.unique hfirst]
    exact hvalue
  · exact Or.inr ⟨index, v, w, hfirst, hvalue, rfl⟩

theorem length_of_header (h : ∀ k, k < 8 ∨ k < sdtLength m table → m' (table + k) = m (table + k)) :
    sdtLength m' table = sdtLength m table :=
  le_congr fun k hk => by
    rw [Nat.add_assoc]
    exact h _ (Or.inl (by omega))

/-- A scan sees the table alone. -/
theorem firstName_congr (h : ∀ k, k < 8 ∨ k < sdtLength m table → m' (table + k) = m (table + k)) :
    FirstName m' table name index ↔ FirstName m table name index := by
  have hlength := length_of_header h
  have hname : ∀ i, i + sdtPatternLen ≤ sdtLength m table →
      (IsNameOp m' (table + i) name ↔ IsNameOp m (table + i) name) := by
    intro i hi
    have hslice : m'.slice (table + i) sdtPatternLen = m.slice (table + i) sdtPatternLen :=
      slice_congr fun c hc => by
        rw [Nat.add_assoc]
        exact h _ (Or.inr (by omega))
    rw [IsNameOp, IsNameOp, hslice]
  constructor
  · rintro ⟨hlt, hat, hfirst⟩
    rw [hlength] at hlt
    exact ⟨hlt, (hname index (by omega)).1 hat, fun j hj hno =>
      hfirst j hj ((hname j (by omega)).2 hno)⟩
  · rintro ⟨hlt, hat, hfirst⟩
    refine ⟨hlength ▸ hlt, (hname index (by omega)).2 hat, fun j hj hno => ?_⟩
    exact hfirst j hj ((hname j (by omega)).1 hno)

theorem acpiUpdate_reads
    (h : ∀ k, k < 8 ∨ k < sdtLength m table → m' (table + k) = m (table + k)) (value : ℕ) :
    (acpiUpdateSdtNameInteger m' table name value).1
        = (acpiUpdateSdtNameInteger m table name value).1
      ∧ ∀ a, (acpiUpdateSdtNameInteger m' table name value).2 a = m' a
          ∧ (acpiUpdateSdtNameInteger m table name value).2 a = m a
        ∨ (acpiUpdateSdtNameInteger m' table name value).2 a
          = (acpiUpdateSdtNameInteger m table name value).2 a := by
  have hlength := length_of_header h
  have hfind : findName m' table name = findName m table name :=
    Option.ext fun index => by rw [findName_eq_some_iff, findName_eq_some_iff, firstName_congr h]
  unfold acpiUpdateSdtNameInteger
  rw [hlength, hfind]
  split_ifs with hshort
  · exact ⟨rfl, fun _ => Or.inl ⟨rfl, rfl⟩⟩
  rcases hindex : findName m table name with _ | index
  · exact ⟨rfl, fun _ => Or.inl ⟨rfl, rfl⟩⟩
  have hlt := (findName_eq_some_iff.1 hindex).lt
  have hcode : m' (table + index + sdtPatternLen) = m (table + index + sdtPatternLen) := by
    rw [Nat.add_assoc]
    exact h _ (Or.inr hlt)
  simp only [hcode]
  rcases sdtValue (m (table + index + sdtPatternLen)) with _ | ⟨v, w⟩
  · exact ⟨rfl, fun _ => Or.inl ⟨rfl, rfl⟩⟩
  refine ⟨rfl, fun a => ?_⟩
  simp only []
  by_cases hin : table + index + v ≤ a ∧ a < table + index + v + (leBytes value w).length
  · exact Or.inr (by rw [copyBytes_of_mem hin, copyBytes_of_mem hin])
  · exact Or.inl ⟨copyBytes_of_notMem hin, copyBytes_of_notMem hin⟩

end Scan

section Decode

variable {m : Cells UInt8} {a v w : ℕ} {value : UInt64}

/-- The encodings that are patched: a prefix and its operand, or the constants zero and one. -/
theorem sdtValue_cases {opcode : UInt8} (h : sdtValue opcode = some (v, w)) :
    v = 6 ∧ 0 < w ∧ amlConstant opcode = none ∧ amlPrefixWidth opcode = some w
      ∨ v = 5 ∧ w = 1 ∧ (opcode = 0 ∨ opcode = 1) := by
  unfold sdtValue at h
  split_ifs at h with h1 h2 h3 h4 h5 <;> simp only [Option.some.injEq, Prod.mk.injEq] at h <;>
    obtain ⟨rfl, rfl⟩ := h
  · exact Or.inl (by rw [h1]; decide)
  · exact Or.inl (by rw [h2]; decide)
  · exact Or.inl (by rw [h3]; decide)
  · exact Or.inr ⟨rfl, rfl, h4.symm⟩
  · exact Or.inl (by rw [h5]; decide)

theorem amlInteger_of_width (hconst : amlConstant (m a) = none)
    (hwidth : amlPrefixWidth (m a) = some w) : amlInteger m a = some (m.le (a + 1) w, w + 1) := by
  unfold amlInteger
  rw [hconst, hwidth]
  rfl

/-- An operand that has been written is read as its low bytes. -/
theorem amlInteger_copyBytes (hconst : amlConstant (m a) = none)
    (hwidth : amlPrefixWidth (m a) = some w) (x : ℕ) :
    amlInteger (copyBytes m (a + 1) (leBytes x w)) a = some (x % 256 ^ w, w + 1) := by
  have hcode : copyBytes m (a + 1) (leBytes x w) a = m a :=
    copyBytes_of_notMem fun hin => absurd hin.1 (by omega)
  rw [amlInteger_of_width (hcode ▸ hconst) (hcode ▸ hwidth), (copyBytes_holds _).le_eq]

/-- An integer of one byte is a constant. -/
theorem amlInteger_one {x : ℕ} : amlInteger m a = some (x, 1) ↔ amlConstant (m a) = some x := by
  unfold amlInteger
  rcases amlConstant (m a) with _ | y
  · simp only [Option.map_eq_some_iff, Prod.mk.injEq, Nat.add_eq_right, reduceCtorEq, iff_false]
    rintro ⟨w, hw, -, rfl⟩
    unfold amlPrefixWidth at hw
    split_ifs at hw
    all_goals exact absurd (Option.some.inj hw) (by decide)
  · simp

/-- The low byte of a number is the constant for it. -/
theorem amlConstant_low : amlConstant (UInt8.ofNat value.toNat) = some value.toNat ↔
    value = 0 ∨ value = 1 ∨ value = 0xFFFFFFFFFFFFFFFF := by
  constructor
  · intro h
    unfold amlConstant at h
    split_ifs at h
    · exact Or.inl (UInt64.toNat_inj.1 (Option.some.inj h).symm)
    · exact Or.inr (Or.inl (UInt64.toNat_inj.1 (Option.some.inj h).symm))
    · exact Or.inr (Or.inr (UInt64.toNat_inj.1 (Option.some.inj h).symm))
  · rintro (rfl | rfl | rfl) <;> rfl

theorem copyBytes_one (x : ℕ) : copyBytes m a (leBytes x 1) a = UInt8.ofNat x :=
  copyBytes_holds _ 0 (Nat.zero_lt_one)

/-- A constant that has been overwritten. -/
theorem amlInteger_copyConstant :
    amlInteger (copyBytes m a (leBytes value.toNat 1)) a = some (value.toNat, 1)
      ↔ value = 0 ∨ value = 1 ∨ value = 0xFFFFFFFFFFFFFFFF := by
  rw [amlInteger_one, copyBytes_one, amlConstant_low]

theorem amlInteger_constant (h : m a = 0 ∨ m a = 1) : ∃ old, amlInteger m a = some (old, 1) := by
  rcases h with h | h
  · exact ⟨0, amlInteger_one.2 (by rw [h]; decide)⟩
  · exact ⟨1, amlInteger_one.2 (by rw [h]; decide)⟩

end Decode

section Set

variable {m : Cells UInt8} {table : ℕ} {name : List UInt8} {value : UInt64}

theorem NameIntegerSet.fits (h : NameIntegerSet m table name value) :
    IntegerFits m table name value := by
  intro index hfirst v w hvalue
  rcases @acpiUpdate_cases m table name value.toNat with
    ⟨-, -, hnone⟩ | ⟨index', v', w', hfirst', hvalue', hrun⟩
  · rw [hnone index hfirst] at hvalue
    cases hvalue
  obtain rfl := hfirst'.unique hfirst
  obtain ⟨rfl, rfl⟩ := Prod.mk.inj (Option.some.inj (hvalue'.symm.trans hvalue))
  have hset := h.set (by rw [hrun]; rfl)
  rw [hrun] at hset
  obtain ⟨j, old, size, hj, hold, hend, -, hnew⟩ := hset
  obtain rfl := hj.unique hfirst'
  rcases sdtValue_cases hvalue with ⟨rfl, -, hconst, hwidth⟩ | ⟨rfl, rfl, hcode⟩
  · rw [amlInteger_of_width hconst hwidth] at hold
    obtain ⟨-, rfl⟩ := Prod.mk.inj (Option.some.inj hold)
    have hread := amlInteger_copyBytes hconst hwidth value.toNat
    rw [if_neg (by decide)]
    rw [sdtPatternLen] at hend hread hnew
    refine ⟨by omega, ?_⟩
    have hvalue : value.toNat % 256 ^ w' = value.toNat :=
      (Prod.mk.inj (Option.some.inj (hread.symm.trans hnew))).1
    rw [← hvalue]
    exact Nat.mod_lt _ (Nat.pow_pos (by decide))
  · obtain ⟨old', hone⟩ := amlInteger_constant hcode
    obtain ⟨-, rfl⟩ := Prod.mk.inj (Option.some.inj (hold.symm.trans hone))
    rw [if_pos (by decide)]
    exact amlInteger_copyConstant.1 hnew

theorem IntegerFits.nameIntegerSet (h : IntegerFits m table name value) :
    NameIntegerSet m table name value := by
  rcases @acpiUpdate_cases m table name value.toNat with
    ⟨herr, hsame, -⟩ | ⟨index, v, w, hfirst, hvalue, hrun⟩
  · exact ⟨fun _ => hsame, fun hok => absurd (herr.symm.trans hok) (by decide),
      fun m' hm' => acpiUpdate_reads hm' value.toNat⟩
  refine ⟨fun herr => absurd (by rw [← herr, hrun]; rfl) Bool.false_ne_true, fun _ => ?_,
    fun m' hm' => acpiUpdate_reads hm' value.toNat⟩
  have hfits := h index hfirst v w hvalue
  have hlength : (leBytes value.toNat w).length = w := length_leBytes w _
  have hlt := hfirst.lt
  rw [hrun]
  rcases sdtValue_cases hvalue with ⟨rfl, hpos, hconst, hwidth⟩ | ⟨rfl, rfl, hcode⟩
  · rw [if_neg (by decide)] at hfits
    have hread := amlInteger_copyBytes hconst hwidth value.toNat
    rw [Nat.mod_eq_of_lt hfits.2] at hread
    refine ⟨index, _, w + 1, hfirst, amlInteger_of_width hconst hwidth, ?_, ?_, hread⟩
    · rw [sdtPatternLen]
      omega
    · intro a ha
      refine copyBytes_of_notMem fun hin => ha ?_
      rw [hlength] at hin
      have hstart : sdtPatternLen = 5 := rfl
      exact ⟨by omega, by omega, fun _ => by omega⟩
  · rw [if_pos (by decide)] at hfits
    obtain ⟨old, hold⟩ := amlInteger_constant hcode
    refine ⟨index, old, 1, hfirst, hold, hlt, ?_, amlInteger_copyConstant.2 hfits⟩
    intro a ha
    refine copyBytes_of_notMem fun hin => ha ?_
    rw [hlength] at hin
    have hstart : sdtPatternLen = 5 := rfl
    exact ⟨by omega, by omega, fun hno => absurd hno (by decide)⟩

/-- A patch does what is asked exactly where the encoding holds the value and the table the
encoding. -/
theorem nameIntegerSet_iff : NameIntegerSet m table name value ↔ IntegerFits m table name value :=
  ⟨NameIntegerSet.fits, IntegerFits.nameIntegerSet⟩

/-- A table of a header and `Name (EHID, One)`. -/
def ehidTable : Cells UInt8 :=
  let bytes : List UInt8 := [0x44, 0x53, 0x44, 0x54, 42, 0, 0, 0] ++ List.replicate 28 0
    ++ [0x08, 0x45, 0x48, 0x49, 0x44, 0x01]
  fun a => bytes.getD a 0

/-- A two in place of a one is no integer, but the call has not failed. -/
theorem ehid_two : ¬ ∀ (m : Cells UInt8) (table : ℕ) (name : List UInt8) (value : UInt64),
    name.length = 4 → NameIntegerSet m table name value := by
  intro h
  obtain ⟨index, old, size, hfirst, -, -, -, hnew⟩ :=
    (h ehidTable 0 (charBytes ['E', 'H', 'I', 'D']) 2 rfl).set (by decide)
  have hfind : findName ehidTable 0 (charBytes ['E', 'H', 'I', 'D']) = some 36 := by decide
  obtain rfl := hfirst.unique (findName_eq_some_iff.1 hfind)
  have hnone : amlInteger (acpiUpdateSdtNameInteger ehidTable 0 (charBytes ['E', 'H', 'I', 'D'])
      (2 : UInt64).toNat).2 (0 + 36 + sdtPatternLen) = none := by decide
  rw [hnone] at hnew
  cases hnew

end Set

end Edk2Rk3576
