import Mathlib.Data.List.Find
import Edk2Rk3576.Acpi.Model

/-!
# Patched names

What setting the integers of a table does to it, in the table's own offsets. A patch writes nothing
that could be part of a pattern, so what a later scan finds was in the table from the start.
-/

namespace Edk2Rk3576

open Cells

section CopyBytes

variable {m : Cells UInt8} {a i k : ℕ} {l : List UInt8}

theorem copyBytes_of_notMem (h : ¬ (a ≤ i ∧ i < a + l.length)) : copyBytes m a l i = m i :=
  write_of_notMem h

theorem copyBytes_add (h : k < l.length) : copyBytes m a l (a + k) = l.getD k 0 := write_add h

theorem copyBytes_of_mem (h : a ≤ i ∧ i < a + l.length) : copyBytes m a l i = l.getD (i - a) 0 := by
  obtain ⟨k, rfl⟩ := Nat.exists_eq_add_of_le h.1
  rw [copyBytes_add (by omega), Nat.add_sub_cancel_left]

theorem copyBytes_holds (l : List UInt8) : (copyBytes m a l).Holds a l := fun _ hk => copyBytes_add hk

end CopyBytes

section Scan

variable {m t : Cells UInt8} {p i k o w v : ℕ} {name : List UInt8} {opcode : UInt8}

/-- The bytes that a patch of the name sets: the first of them, from the table's start, and how many
they are. -/
def patchRange (m : Cells UInt8) (table : ℕ) (name : List UInt8) : Option (ℕ × ℕ) :=
  (findName m table name).bind fun index =>
    (sdtValue (m (table + index + sdtPatternLen))).map fun value => (index + value.1, value.2)

theorem sdtValue_some (h : sdtValue opcode = some (v, w)) :
    (v = 5 ∨ v = 6) ∧ opcode.toNat < 16 ∧ 0 < w := by
  unfold sdtValue at h
  split_ifs at h with h1 h2 h3 h4 h5 <;> simp only [Option.some.injEq, Prod.mk.injEq] at h
  all_goals
    obtain ⟨rfl, rfl⟩ := h
    refine ⟨by omega, ?_, by omega⟩
  · rw [h1]; decide
  · rw [h2]; decide
  · rw [h3]; decide
  · rcases h4 with h4 | h4 <;> rw [h4] <;> decide
  · rw [h5]; decide

theorem findName_some (h : findName m p name = some i) :
    i + 6 ≤ sdtLength m p ∧ IsNameOp m (p + i) name := by
  have hmem := List.mem_of_find?_eq_some h
  have hname := List.find?_some h
  rw [List.mem_range, sdtPatternLen] at hmem
  exact ⟨by omega, by simpa using hname⟩

theorem patchRange_some (h : patchRange m p name = some (o, w)) :
    ∃ i v, o = i + v ∧ IsNameOp m (p + i) name ∧ sdtValue (m (p + i + 5)) = some (v, w)
      ∧ i + 6 ≤ sdtLength m p := by
  simp only [patchRange, Option.bind_eq_some_iff, Option.map_eq_some_iff, Prod.mk.injEq] at h
  obtain ⟨i, hi, ⟨v, w'⟩, hv, rfl, rfl⟩ := h
  obtain ⟨hle, hname⟩ := findName_some hi
  exact ⟨i, v, rfl, hname, hv, hle⟩

/-- What a patch does, whatever it returns. -/
theorem acpiUpdate_snd (value : ℕ) :
    (acpiUpdateSdtNameInteger m p name value).2
      = match patchRange m p name with
        | none => m
        | some (o, w) => copyBytes m (p + o) (leBytes value w) := by
  unfold acpiUpdateSdtNameInteger patchRange
  split_ifs with hshort
  · have hnone : findName m p name = none := by
      rw [findName, Nat.sub_eq_zero_of_le hshort]
      rfl
    rw [hnone]
    rfl
  · cases findName m p name with
    | none => rfl
    | some i =>
      simp only [Option.bind_some]
      cases sdtValue (m (p + i + sdtPatternLen)) with
      | none => rfl
      | some value => simp [Nat.add_assoc]

theorem sdtLength_congr (h : ∀ k < 8, m (p + k) = t k) : sdtLength m p = sdtLength t 0 := by
  refine le_congr fun k hk => ?_
  rw [Nat.add_assoc, h _ (by omega), Nat.zero_add]

theorem isNameOp_congr (h : ∀ c < sdtPatternLen, m (p + i + c) = t (i + c)) :
    IsNameOp m (p + i) name ↔ IsNameOp t i name := by
  rw [IsNameOp, IsNameOp, slice_congr h]

/-- A scan sees the table alone. -/
theorem patchRange_congr (hlen : 8 ≤ sdtLength t 0) (h : ∀ k < sdtLength t 0, m (p + k) = t k) :
    patchRange m p name = patchRange t 0 name := by
  have hlength : sdtLength m p = sdtLength t 0 := sdtLength_congr fun k hk => h k (by omega)
  have hfind : findName m p name = findName t 0 name := by
    unfold findName
    rw [hlength]
    refine List.find?_congr fun i hi => ?_
    rw [List.mem_range, sdtPatternLen] at hi
    rw [decide_eq_decide, Nat.zero_add]
    refine isNameOp_congr fun c hc => ?_
    rw [sdtPatternLen] at hc
    rw [Nat.add_assoc]
    exact h _ (by omega)
  unfold patchRange
  rw [hfind]
  cases hi : findName t 0 name with
  | none => rfl
  | some i =>
    have hle := (findName_some hi).1
    simp only [Option.bind_some, sdtPatternLen, Nat.zero_add]
    rw [Nat.add_assoc, h _ (by omega)]

end Scan

section Patched

variable {t₀ t m : Cells UInt8} {p i k o w v value : ℕ} {name : List UInt8} {b : UInt8}
  {done : List (List UInt8)}

/-- What patches write: no byte of a pattern. -/
def IsValueByte (b : UInt8) : Prop := b.toNat < 16 ∧ b ≠ amlNameOp

/-- A name's four characters, none of them a byte that patches write. -/
def IsNameSeg (name : List UInt8) : Prop := name.length = 4 ∧ ∀ b ∈ name, 16 ≤ b.toNat

def SdtPatch.Proper (patch : SdtPatch) : Prop :=
  IsNameSeg patch.name ∧ patch.value < 16 ∧ patch.value ≠ 8

/-- Byte `k` of the table belongs to the integer that a name has at `i`. -/
def NameField (t : Cells UInt8) (name : List UInt8) (k : ℕ) : Prop :=
  ∃ i v w, IsNameOp t i name ∧ sdtValue (t (i + 5)) = some (v, w) ∧ i + v ≤ k ∧ k < i + v + w

theorem IsNameOp.first (h : IsNameOp t i name) : t i = amlNameOp := by
  unfold IsNameOp slice at h
  simp only [sdtPatternLen, List.range_succ_eq_map, List.map_cons, List.cons.injEq] at h
  exact h.1

theorem IsNameOp.char (h : IsNameOp t i name) (hk : k < 4) : t (i + (k + 1)) ∈ name := by
  have htail : name = (t.slice i (4 + 1)).tail := by
    rw [show t.slice i (4 + 1) = amlNameOp :: name from h]
    rfl
  rw [htail, slice, List.range_succ_eq_map, List.map_cons, List.tail_cons, List.map_map]
  exact List.mem_map.2 ⟨k, List.mem_range.2 hk, rfl⟩

/-- Names at the same place are the same. -/
theorem IsNameOp.unique {name' : List UInt8} (h : IsNameOp t i name) (h' : IsNameOp t i name') :
    name = name' := by
  have := h.symm.trans h'
  exact (List.cons.inj this).2

theorem IsNameOp.not_isValueByte (h : IsNameOp t i name) (hname : IsNameSeg name) (hk : k < 5) :
    ¬ IsValueByte (t (i + k)) := by
  rintro ⟨hlt, hne⟩
  cases k with
  | zero => exact hne h.first
  | succ k =>
    have := hname.2 _ (h.char (by omega : k < 4))
    omega

theorem isValueByte_ofNat (hvalue : value < 16) (hne : value ≠ 8) :
    IsValueByte (UInt8.ofNat value) := by
  have hnat : (UInt8.ofNat value).toNat = value := by
    rw [UInt8.toNat_ofNat', Nat.mod_eq_of_lt (by omega)]
  refine ⟨by omega, fun h => hne ?_⟩
  rw [← hnat, h]
  rfl

theorem isValueByte_getD : ∀ {w k value : ℕ}, value < 16 → value ≠ 8 →
    IsValueByte ((leBytes value w).getD k 0)
  | 0, _, _, _, _ => by simp [leBytes, IsValueByte, amlNameOp]
  | w + 1, 0, _, hvalue, hne => isValueByte_ofNat hvalue hne
  | w + 1, k + 1, _, hvalue, _ => by
    rw [leBytes, List.getD_cons_succ, Nat.div_eq_of_lt (by omega)]
    exact isValueByte_getD (by omega) (by omega)

/-- The table is what it was before, but for integers of the names that are done, all of whose bytes
are written. -/
def Patched (t₀ t : Cells UInt8) (done : List (List UInt8)) : Prop :=
  ∀ k, t k = t₀ k ∨ ∃ name ∈ done, ∃ i v w, IsNameOp t₀ i name
    ∧ sdtValue (t₀ (i + 5)) = some (v, w) ∧ i + v ≤ k ∧ k < i + v + w
    ∧ ∀ j, i + v ≤ j → j < i + v + w → IsValueByte (t j)

theorem Patched.refl : Patched t₀ t₀ done := fun _ => Or.inl rfl

/-- A pattern that is found was there, with its opcode. -/
theorem Patched.isNameOp (h : Patched t₀ t done) (hname : IsNameSeg name) (hnot : name ∉ done)
    (hat : IsNameOp t i name) :
    IsNameOp t₀ i name ∧ t (i + 5) = t₀ (i + 5) := by
  have hsame : ∀ c < 5, t (i + c) = t₀ (i + c) := by
    intro c hc
    rcases h (i + c) with heq | ⟨n, -, j, v, w, -, -, hle, hlt, hall⟩
    · exact heq
    · exact absurd (hall _ hle hlt) (hat.not_isValueByte hname hc)
  have hwas : IsNameOp t₀ i name := (slice_congr fun c hc => (hsame c hc).symm).trans hat
  refine ⟨hwas, ?_⟩
  rcases h (i + 5) with heq | ⟨n, hn, j, v, w, hj, hv, hle, hlt, hall⟩
  · exact heq
  exfalso
  -- the integer starts at the opcode, or it would cover the last character
  have hstart : j + v = i + 5 := by
    by_contra hne
    exact hat.not_isValueByte hname (by omega : 4 < 5) (hall (i + 4) (by omega) (by omega))
  rcases (sdtValue_some hv).1 with rfl | rfl
  · obtain rfl : j = i := by omega
    exact hnot (hwas.unique hj ▸ hn)
  · have hlast := hname.2 _ (hwas.char (by omega : 3 < 4))
    have hcode := (sdtValue_some hv).2.1
    rw [show j + 5 = i + (3 + 1) by omega] at hcode
    omega

theorem Patched.mono (h : Patched t₀ t done) : Patched t₀ t (name :: done) := by
  intro k
  refine (h k).imp_right ?_
  rintro ⟨n, hn, hrest⟩
  exact ⟨n, List.mem_cons_of_mem _ hn, hrest⟩

/-- The integer that a patch sets is one of the table's from the start. -/
theorem Patched.nameField (h : Patched t₀ t done) (hname : IsNameSeg name) (hnot : name ∉ done)
    (hr : patchRange t 0 name = some (o, w)) (hlo : o ≤ k) (hhi : k < o + w) :
    NameField t₀ name k := by
  obtain ⟨i, v, rfl, hat, hv, -⟩ := patchRange_some hr
  simp only [Nat.zero_add] at hat hv
  obtain ⟨hwas, hcode⟩ := h.isNameOp hname hnot hat
  exact ⟨i, v, w, hwas, hcode ▸ hv, hlo, hhi⟩

theorem Patched.step {patch : SdtPatch} (h : Patched t₀ t done) (hproper : patch.Proper)
    (hnot : patch.name ∉ done) :
    Patched t₀ (acpiUpdateSdtNameInteger t 0 patch.name patch.value).2 (patch.name :: done) := by
  obtain ⟨hname, hvalue, hne⟩ := hproper
  rw [acpiUpdate_snd]
  cases hr : patchRange t 0 patch.name with
  | none => exact h.mono
  | some range =>
    obtain ⟨o, w⟩ := range
    obtain ⟨i, v, rfl, hat, hv, -⟩ := patchRange_some hr
    simp only [Nat.zero_add] at hat hv ⊢
    obtain ⟨hwas, hcode⟩ := h.isNameOp hname hnot hat
    have hlength : (leBytes patch.value w).length = w := length_leBytes w _
    have hnew : ∀ j, i + v ≤ j → j < i + v + w →
        IsValueByte (copyBytes t (i + v) (leBytes patch.value w) j) := by
      intro j hlo hhi
      rw [copyBytes_of_mem ⟨hlo, by omega⟩]
      exact isValueByte_getD hvalue hne
    intro k
    by_cases hin : i + v ≤ k ∧ k < i + v + w
    · exact Or.inr ⟨_, List.mem_cons_self, i, v, w, hwas, hcode ▸ hv, hin.1, hin.2, hnew⟩
    · rcases h k with heq | ⟨n, hn, i', v', w', hi', hv', hlo, hhi, hall⟩
      · exact Or.inl ((copyBytes_of_notMem (by rw [hlength]; exact hin)).trans heq)
      · refine Or.inr ⟨n, List.mem_cons_of_mem _ hn, i', v', w', hi', hv', hlo, hhi, ?_⟩
        intro j hj hj'
        by_cases hover : i + v ≤ j ∧ j < i + v + w
        · exact hnew j hover.1 hover.2
        · rw [copyBytes_of_notMem (by rw [hlength]; exact hover)]
          exact hall j hj hj'

end Patched

section Dsdt

variable {t₀ t m : Cells UInt8} {p i k o w : ℕ} {name : List UInt8} {done : List (List UInt8)}
  {patch : SdtPatch} {patches : List SdtPatch}

def dsdtSignature : List UInt8 := charBytes ['D', 'S', 'D', 'T']

/-- No name starts in the signature, so no integer in front of the checksum. -/
theorem NameField.le (hsig : t.slice 0 4 = dsdtSignature) (h : NameField t name k) : 9 ≤ k := by
  obtain ⟨i, v, w, hat, hv, hle, -⟩ := h
  have h4 : 4 ≤ i := by
    by_contra hlt
    have hmem : t i ∈ t.slice 0 4 :=
      List.mem_map.2 ⟨i, List.mem_range.2 (by omega), by rw [Nat.zero_add]⟩
    rw [hsig, hat.first] at hmem
    revert hmem
    decide
  have := (sdtValue_some hv).1
  omega

theorem Patched.eq_of_lt (h : Patched t₀ t done) (hsig : t₀.slice 0 4 = dsdtSignature)
    (hk : k < 9) : t k = t₀ k := by
  rcases h k with heq | ⟨n, -, i, v, w, hat, hv, hlo, hhi, -⟩
  · exact heq
  · have := NameField.le hsig ⟨i, v, w, hat, hv, hlo, hhi⟩
    omega

theorem Patched.sdtLength_eq (h : Patched t₀ t done) (hsig : t₀.slice 0 4 = dsdtSignature) :
    sdtLength t 0 = sdtLength t₀ 0 :=
  le_congr fun k hk => by
    rw [Nat.zero_add]
    exact h.eq_of_lt hsig (by omega)

/-- A table in memory, patched so far. -/
structure DsdtAt (t₀ : Cells UInt8) (p : ℕ) (done : List (List UInt8)) (t m : Cells UInt8) :
    Prop where
  patched : Patched t₀ t done
  placed : ∀ k < sdtLength t₀ 0, m (p + k) = t k

theorem DsdtAt.congr {m' : Cells UInt8} (h : DsdtAt t₀ p done t m)
    (hm : ∀ k < sdtLength t₀ 0, m' (p + k) = m (p + k)) : DsdtAt t₀ p done t m' :=
  ⟨h.patched, fun k hk => (hm k hk).trans (h.placed k hk)⟩

/-- The patches in turn find their integers inside the table. -/
def IntegersFit : List SdtPatch → Cells UInt8 → Prop
  | [], _ => True
  | patch :: patches, t =>
    (∀ o w, patchRange t 0 patch.name = some (o, w) → o + w ≤ sdtLength t 0)
      ∧ IntegersFit patches (acpiUpdateSdtNameInteger t 0 patch.name patch.value).2

theorem integersFit_append : ∀ (patches patches' : List SdtPatch) (t : Cells UInt8),
    IntegersFit (patches ++ patches') t
      ↔ IntegersFit patches t ∧ IntegersFit patches' (applyPatches 0 patches t)
  | [], _, _ => by simp [IntegersFit, applyPatches]
  | patch :: patches, patches', t => by
    simp only [List.cons_append, IntegersFit, integersFit_append patches patches', and_assoc]
    rfl

section Step

variable (hsig : t₀.slice 0 4 = dsdtSignature) (hlen : 36 ≤ sdtLength t₀ 0)

include hsig hlen

theorem DsdtAt.patchRange_eq (h : DsdtAt t₀ p done t m) :
    patchRange m p name = patchRange t 0 name := by
  have hlength := h.patched.sdtLength_eq hsig
  refine patchRange_congr (by omega) fun k hk => ?_
  rw [hlength] at hk
  exact h.placed k hk

theorem DsdtAt.step (h : DsdtAt t₀ p done t m) (hproper : patch.Proper)
    (hnot : patch.name ∉ done) :
    DsdtAt t₀ p (patch.name :: done) (acpiUpdateSdtNameInteger t 0 patch.name patch.value).2
      (acpiUpdateSdtNameInteger m p patch.name patch.value).2 := by
  refine ⟨h.patched.step hproper hnot, fun k hk => ?_⟩
  rw [acpiUpdate_snd, acpiUpdate_snd, h.patchRange_eq hsig hlen]
  cases patchRange t 0 patch.name with
  | none => exact h.placed k hk
  | some range =>
    obtain ⟨o, w⟩ := range
    have hlength : (leBytes patch.value w).length = w := length_leBytes w _
    simp only [Nat.zero_add]
    by_cases hin : o ≤ k ∧ k < o + w
    · rw [copyBytes_of_mem (by omega), copyBytes_of_mem (by omega), Nat.add_sub_add_left]
    · rw [copyBytes_of_notMem (by omega), copyBytes_of_notMem (by omega)]
      exact h.placed k hk

/-- A patch that fits changes an integer of the table alone. -/
theorem DsdtAt.sameOutside_step (h : DsdtAt t₀ p done t m) (hproper : patch.Proper)
    (hnot : patch.name ∉ done)
    (hfit : ∀ o w, patchRange t 0 patch.name = some (o, w) → o + w ≤ sdtLength t 0) :
    SameOutside m (acpiUpdateSdtNameInteger m p patch.name patch.value).2
      {a | ∃ k < sdtLength t₀ 0, a = p + k ∧ NameField t₀ patch.name k} := by
  intro a ha
  rw [acpiUpdate_snd, h.patchRange_eq hsig hlen]
  cases hr : patchRange t 0 patch.name with
  | none => rfl
  | some range =>
    obtain ⟨o, w⟩ := range
    have hend := hfit o w hr
    rw [h.patched.sdtLength_eq hsig] at hend
    have hlength : (leBytes patch.value w).length = w := length_leBytes w _
    refine copyBytes_of_notMem fun hin => ha ⟨a - p, by omega, by omega, ?_⟩
    exact h.patched.nameField hproper.1 hnot hr (by omega) (by omega)

/-- The byte behind the table is no longer `0xFF` once a patch has reached it. -/
theorem DsdtAt.step_behind (h : DsdtAt t₀ p done t m) (hproper : patch.Proper)
    (hover : m (p + sdtLength t₀ 0) ≠ 255
      ∨ ∃ o w, patchRange t 0 patch.name = some (o, w) ∧ sdtLength t 0 < o + w) :
    (acpiUpdateSdtNameInteger m p patch.name patch.value).2 (p + sdtLength t₀ 0) ≠ 255 := by
  rw [acpiUpdate_snd, h.patchRange_eq hsig hlen]
  cases hr : patchRange t 0 patch.name with
  | none =>
    refine hover.elim id ?_
    rintro ⟨o, w, hsome, -⟩
    rw [hr] at hsome
    cases hsome
  | some range =>
    obtain ⟨o, w⟩ := range
    have hlength : (leBytes patch.value w).length = w := length_leBytes w _
    have hstart : o ≤ sdtLength t₀ 0 := by
      obtain ⟨i, v, rfl, -, hv, hi⟩ := patchRange_some hr
      rw [h.patched.sdtLength_eq hsig] at hi
      have := (sdtValue_some hv).1
      omega
    by_cases hin : sdtLength t₀ 0 < o + w
    · simp only []
      rw [copyBytes_of_mem (by omega)]
      intro h255
      have hsmall := (isValueByte_getD (w := w) (k := p + sdtLength t₀ 0 - (p + o))
        hproper.2.1 hproper.2.2).1
      rw [h255] at hsmall
      exact absurd hsmall (by decide)
    · simp only []
      rw [copyBytes_of_notMem (by omega)]
      refine hover.elim id ?_
      rintro ⟨o', w', hsome, hlt⟩
      rw [hr] at hsome
      cases hsome
      rw [h.patched.sdtLength_eq hsig] at hlt
      omega

end Step

/-- Patches of names that differ, none of them done. -/
structure PatchList (patches : List SdtPatch) (done : List (List UInt8)) : Prop where
  proper : ∀ patch ∈ patches, patch.Proper
  nodup : (patches.map SdtPatch.name).Nodup
  notDone : ∀ patch ∈ patches, patch.name ∉ done

theorem PatchList.head (h : PatchList (patch :: patches) done) :
    patch.Proper ∧ patch.name ∉ done :=
  ⟨h.proper patch List.mem_cons_self, h.notDone patch List.mem_cons_self⟩

theorem PatchList.tail (h : PatchList (patch :: patches) done) :
    PatchList patches (patch.name :: done) := by
  have hnodup := h.nodup
  rw [List.map_cons, List.nodup_cons] at hnodup
  refine ⟨fun q hq => h.proper q (List.mem_cons_of_mem _ hq), hnodup.2, fun q hq hmem => ?_⟩
  rcases List.mem_cons.1 hmem with heq | hdone
  · exact hnodup.1 (List.mem_map.2 ⟨q, hq, heq⟩)
  · exact h.notDone q (List.mem_cons_of_mem _ hq) hdone

/-- The names that are done behind a list of patches. -/
def doneAfter (patches : List SdtPatch) (done : List (List UInt8)) : List (List UInt8) :=
  patches.foldl (fun done patch => patch.name :: done) done

section Run

variable (hsig : t₀.slice 0 4 = dsdtSignature) (hlen : 36 ≤ sdtLength t₀ 0)

include hsig hlen

theorem DsdtAt.run : ∀ {patches done t m}, DsdtAt t₀ p done t m → PatchList patches done →
    DsdtAt t₀ p (doneAfter patches done) (applyPatches 0 patches t) (applyPatches p patches m)
  | [], _, _, _, h, _ => h
  | _ :: _, _, _, _, h, hl => by
    have hrest := DsdtAt.run (h.step hsig hlen hl.head.1 hl.head.2) hl.tail
    exact hrest

theorem DsdtAt.sameOutside_run : ∀ {patches done t m}, DsdtAt t₀ p done t m →
    PatchList patches done → IntegersFit patches t →
    SameOutside m (applyPatches p patches m)
      {a | ∃ k < sdtLength t₀ 0, a = p + k ∧ ∃ patch ∈ patches, NameField t₀ patch.name k}
  | [], _, _, _, _, _, _ => SameOutside.refl
  | patch :: patches, _, _, m, h, hl, hfit => by
    have hfirst := h.sameOutside_step hsig hlen hl.head.1 hl.head.2 hfit.1
    have hrest := DsdtAt.sameOutside_run (h.step hsig hlen hl.head.1 hl.head.2) hl.tail hfit.2
    refine SameOutside.trans (hfirst.mono ?_) (hrest.mono ?_)
    · rintro a ⟨k, hk, rfl, hfield⟩
      exact ⟨k, hk, rfl, patch, List.mem_cons_self, hfield⟩
    · rintro a ⟨k, hk, rfl, q, hq, hfield⟩
      exact ⟨k, hk, rfl, q, List.mem_cons_of_mem _ hq, hfield⟩

theorem DsdtAt.run_behind : ∀ {patches done t m}, DsdtAt t₀ p done t m → PatchList patches done →
    (m (p + sdtLength t₀ 0) ≠ 255 ∨ ¬ IntegersFit patches t) →
    applyPatches p patches m (p + sdtLength t₀ 0) ≠ 255
  | [], _, _, _, _, _, hover => hover.elim id fun hnot => absurd trivial hnot
  | patch :: patches, _, t, m, h, hl, hover => by
    have hrest := DsdtAt.run_behind (h.step hsig hlen hl.head.1 hl.head.2) hl.tail
    refine hrest ?_
    rw [IntegersFit, not_and_or] at hover
    rcases hover with hdirty | hhead | hrest
    · exact Or.inl (h.step_behind hsig hlen hl.head.1 (Or.inl hdirty))
    · refine Or.inl (h.step_behind hsig hlen hl.head.1 (Or.inr ?_))
      push Not at hhead
      exact hhead
    · exact Or.inr hrest

end Run

end Dsdt

end Edk2Rk3576
