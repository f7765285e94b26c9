import Edk2Rk3576.Acpi.Fixups

/-!
# The tables stay valid

Stage by stage: each changes intended fields of one table, and leaves that table adding up. So the
tables are valid wherever they are in memory and whatever lies around them, exactly if the integers
that are set end inside the DSDT and the MCFG has room for the entries.
-/

namespace Edk2Rk3576

open Cells

section Stages

variable {platform : AcpiPlatform} {lib : AcpiLib} {tables : AcpiTables} {place : AcpiTable → ℕ}
  {m m₁ m₂ : Cells UInt8} {t u : SdtTable} {x y : AcpiTable}

/-- The offsets inside a table that are to be changed. -/
def tableFields (platform : AcpiPlatform) (tables : AcpiTables) (t : SdtTable) (x : AcpiTable) :
    Set ℕ :=
  {k | k < t.length ∧ IntendedField platform tables t x k}

/-- The addresses that are to be changed. -/
def intendedCells (platform : AcpiPlatform) (tables : AcpiTables) (place : AcpiTable → ℕ) : Set ℕ :=
  {a | ∃ x t, tables.table x = some t ∧ fixedUp platform tables x = true
    ∧ a ∈ shifted (place x) (tableFields platform tables t x)}

theorem shifted_subset (ht : tables.table x = some t) (hon : fixedUp platform tables x = true) :
    shifted (place x) (tableFields platform tables t x) ⊆ intendedCells platform tables place :=
  fun _ ha => ⟨x, t, ht, hon, ha⟩

theorem shifted_mono {a : ℕ} {s s' : Set ℕ} (h : s ⊆ s') : shifted a s ⊆ shifted a s' := by
  rintro b ⟨k, hk, rfl⟩
  exact ⟨k, h hk, rfl⟩

/-- A stage that changes one table leaves the others. -/
theorem AcpiTables.Placed.keeps (h : tables.Placed place m) (hxy : x ≠ y)
    (hx : tables.table x = some t) (hy : tables.table y = some u)
    (hsame : SameOutside m₁ m₂ (shifted (place y) (tableFields platform tables u y))) :
    ∀ k < t.length, m₂ (place x + k) = m₁ (place x + k) := by
  intro k hk
  refine hsame _ ?_
  rintro ⟨j, ⟨hj, -⟩, heq⟩
  rcases h.apart x y t u hxy hx hy with hle | hle <;> omega

theorem patches_sameOutside {patches : List SdtPatch} {done : List (List UInt8)}
    {t₁ : Cells UInt8} (ht : tables.table .dsdt = some t)
    (hsub : ∀ patch ∈ patches, patch ∈ fixupPatches platform tables)
    (hat : DsdtAt t.bytes (place .dsdt) done t₁ m₁) (hl : PatchList patches done)
    (hfit : IntegersFit patches t₁) :
    SameOutside m₁ (applyPatches (place .dsdt) patches m₁)
      (shifted (place .dsdt) (tableFields platform tables t .dsdt)) := by
  refine (hat.sameOutside_run (tables.signature t ht) t.header_le hl hfit).mono ?_
  rintro a ⟨k, hk, rfl, patch, hpatch, hfield⟩
  exact ⟨k, ⟨hk, Or.inr ⟨patch, hsub patch hpatch, hfield⟩⟩, rfl⟩

theorem checksum_sameOutside (n : ℕ) :
    SameOutside m (lib.updateChecksum m (place .dsdt) n)
      (shifted (place .dsdt) (tableFields platform tables t .dsdt)) := by
  have hlen : 36 ≤ t.length := t.header_le
  exact sameOutside_checksum ⟨by omega, Or.inl rfl⟩

theorem fadt_sameOutside : SameOutside m (fixupFadt lib (place .fadt) m)
    (shifted (place .fadt) (tableFields platform tables t .fadt)) := by
  have hlen : 36 ≤ t.length := t.header_le
  refine fixupFadt_sameOutside.mono (shifted_mono fun k hk => ⟨?_, hk⟩)
  have := hk.2
  omega

theorem mcfgField_lt {k : ℕ} (h : McfgField platform k) :
    k < 44 + 16 * configSpaceCount platform := by
  have hcount : 2 ≤ configSpaceCount platform := by
    unfold configSpaceCount
    split_ifs <;> simp [numPcieController]
  rcases h with rfl | ⟨-, -, hlt⟩ | ⟨-, -, hlt⟩ | ⟨j, hj, -, hlt⟩ <;> omega

theorem mcfg_sameOutside (hroom : 44 + 16 * configSpaceCount platform ≤ t.length) :
    SameOutside m (fixupMcfg platform lib (place .mcfg) m)
      (shifted (place .mcfg) (tableFields platform tables t .mcfg)) := by
  refine fixupMcfg_sameOutside.mono (shifted_mono fun k hk => ⟨?_, hk⟩)
  have := mcfgField_lt hk
  omega

/-- A table that adds up and whose length fits. -/
structure TableDone (platform : AcpiPlatform) (place : AcpiTable → ℕ) (m : Cells UInt8)
    (x : AcpiTable) (t : SdtTable) : Prop where
  sum : sumWords 1 m (place x) (sdtLength m (place x)) = 0
  fits : LengthFits platform t (sdtLength m (place x)) x

theorem TableDone.length_le (h : TableDone platform place m x t) :
    sdtLength m (place x) ≤ t.length := by
  have hfits := h.fits
  cases x with
  | dsdt => exact le_of_eq hfits
  | mcfg => exact hfits.2.1
  | fadt => exact le_of_eq hfits

theorem TableDone.keeps (h : TableDone platform place m₁ x t)
    (hkeep : ∀ k < t.length, m₂ (place x + k) = m₁ (place x + k)) :
    TableDone platform place m₂ x t := by
  have hlen : 36 ≤ t.length := t.header_le
  have hle := h.length_le
  have hlength : sdtLength m₂ (place x) = sdtLength m₁ (place x) := by
    refine le_congr fun k hk => ?_
    rw [Nat.add_assoc]
    exact hkeep _ (by omega)
  refine ⟨?_, ?_⟩
  · rw [hlength, ← h.sum]
    exact sumWords_congr fun k hk => hkeep k (by omega)
  · rw [hlength]
    exact h.fits

theorem sdtLength_of_holds (h : ∀ k < t.length, m (place x + k) = t.bytes k) :
    sdtLength m (place x) = t.length := by
  have hlen : 36 ≤ t.length := t.header_le
  exact sdtLength_congr fun k hk => h k (by omega)

theorem fadt_done (h : ∀ k < t.length, m (place .fadt + k) = t.bytes k) :
    TableDone platform place (fixupFadt lib (place .fadt) m) .fadt t := by
  have hlength := sdtLength_of_holds h
  have hlen : 36 ≤ t.length := t.header_le
  exact ⟨fixupFadt_sum (by omega), fixupFadt_length.trans hlength⟩

theorem mcfg_done (h : ∀ k < t.length, m (place .mcfg + k) = t.bytes k)
    (hroom : 44 + 16 * configSpaceCount platform ≤ t.length) :
    TableDone platform place (fixupMcfg platform lib (place .mcfg) m) .mcfg t := by
  have hlength := sdtLength_of_holds h
  have hlen : 36 ≤ t.length := t.header_le
  refine ⟨fixupMcfg_sum (by omega), ?_⟩
  rw [fixupMcfg_length]
  split_ifs with hsplit
  · exact ⟨by omega, by omega, Or.inr hlength⟩
  · exact ⟨le_rfl, hroom, Or.inl rfl⟩

/-- Fixing up the FADT and the MCFG. -/
structure EcamStage (platform : AcpiPlatform) (tables : AcpiTables) (place : AcpiTable → ℕ)
    (m m' : Cells UInt8) : Prop where
  sameOutside : SameOutside m m' (intendedCells platform tables place)
  done : ∀ x t, x ≠ .dsdt → tables.table x = some t → fixedUp platform tables x = true →
    TableDone platform place m' x t
  dsdt : ∀ t, tables.table .dsdt = some t → ∀ k < t.length,
    m' (place .dsdt + k) = m (place .dsdt + k)

theorem table_of_fixedUp (h : fixedUp platform tables x = true) :
    ∃ t, tables.table x = some t := by
  rw [← Option.isSome_iff_exists]
  cases x <;> simp only [fixedUp, Bool.and_eq_true] at h
  · exact h.2
  · exact h.1.2
  · exact h.2

theorem ecamStage (hplaced : tables.Placed place m) (hfit : FixupsFit platform tables)
    (hon : fixedUp platform tables .mcfg = true)
    (hholds : ∀ x t, x ≠ .dsdt → tables.table x = some t → ∀ k < t.length,
      m₁ (place x + k) = t.bytes k) :
    EcamStage platform tables place m₁ (ecamTables platform lib tables place m₁) := by
  obtain ⟨u, hu⟩ := table_of_fixedUp hon
  have hroom := hfit.mcfg u hu hon
  unfold ecamTables
  cases hfadt : fixedUp platform tables .fadt with
  | false =>
    simp only [Bool.false_eq_true, if_false]
    have hmcfg : SameOutside m₁ (fixupMcfg platform lib (place .mcfg) m₁)
        (shifted (place .mcfg) (tableFields platform tables u .mcfg)) := mcfg_sameOutside hroom
    refine ⟨hmcfg.mono (shifted_subset hu hon), ?_, fun t ht => ?_⟩
    · intro x t hx ht honx
      cases x with
      | dsdt => exact absurd rfl hx
      | mcfg =>
        rw [hu] at ht
        cases ht
        exact mcfg_done (hholds .mcfg u (by decide) hu) hroom
      | fadt =>
        rw [hfadt] at honx
        cases honx
    · exact hplaced.keeps (by decide) ht hu hmcfg
  | true =>
    simp only [if_true]
    obtain ⟨v, hv⟩ := table_of_fixedUp hfadt
    have hfirst : SameOutside m₁ (fixupFadt lib (place .fadt) m₁)
        (shifted (place .fadt) (tableFields platform tables v .fadt)) := fadt_sameOutside
    have hsecond : SameOutside (fixupFadt lib (place .fadt) m₁)
        (fixupMcfg platform lib (place .mcfg) (fixupFadt lib (place .fadt) m₁))
        (shifted (place .mcfg) (tableFields platform tables u .mcfg)) := mcfg_sameOutside hroom
    refine ⟨(hfirst.mono (shifted_subset hv hfadt)).trans (hsecond.mono (shifted_subset hu hon)),
      ?_, fun t ht k hk => ?_⟩
    · intro x t hx ht honx
      cases x with
      | dsdt => exact absurd rfl hx
      | mcfg =>
        rw [hu] at ht
        cases ht
        refine mcfg_done (fun k hk => ?_) hroom
        exact (hplaced.keeps (by decide) hu hv hfirst k hk).trans
          (hholds .mcfg u (by decide) hu k hk)
      | fadt =>
        rw [hv] at ht
        cases ht
        exact (fadt_done (hholds .fadt v (by decide) hv)).keeps
          (hplaced.keeps (by decide) hv hu hsecond)
    · exact (hplaced.keeps (by decide) ht hu hsecond k hk).trans
        (hplaced.keeps (by decide) ht hv hfirst k hk)

theorem fixedUp_dsdt (h : fixedUp platform tables x = true) :
    fixedUp platform tables .dsdt = true := by
  cases x <;> simp only [fixedUp, Bool.and_eq_true] at h ⊢
  · exact h
  · exact h.1.1
  · exact h.1.1.1

theorem fixedUp_mcfg (hx : x ≠ .dsdt) (h : fixedUp platform tables x = true) :
    fixedUp platform tables .mcfg = true := by
  cases x with
  | dsdt => exact absurd rfl hx
  | mcfg => exact h
  | fadt =>
    simp only [fixedUp, Bool.and_eq_true, Bool.or_eq_true] at h ⊢
    exact ⟨h.1.1, Or.inr h.2⟩

/-- The DSDT where it is placed, before any patch. -/
theorem AcpiTables.Placed.dsdtAt (h : tables.Placed place m) (ht : tables.table .dsdt = some t) :
    DsdtAt t.bytes (place .dsdt) [] t.bytes m :=
  ⟨Patched.refl, h.holds .dsdt t ht⟩

/-- Up to the DSDT's checksum. -/
structure FilledStage (platform : AcpiPlatform) (tables : AcpiTables) (place : AcpiTable → ℕ)
    (m m' : Cells UInt8) : Prop where
  sameOutside : SameOutside m m' (intendedCells platform tables place)
  done : ∀ x t, x ≠ .dsdt → tables.table x = some t → fixedUp platform tables x = true →
    TableDone platform place m' x t
  dsdt : ∀ t, tables.table .dsdt = some t → sdtLength m' (place .dsdt) = t.length

theorem filledStage (hplaced : tables.Placed place m) (hfit : FixupsFit platform tables)
    (hon : fixedUp platform tables .dsdt = true) :
    FilledStage platform tables place m (dsdtFilled platform lib tables place m) := by
  obtain ⟨t, ht⟩ := table_of_fixedUp hon
  have hsig := tables.signature t ht
  have hlen : 36 ≤ sdtLength t.bytes 0 := t.header_le
  have hfits := hfit.dsdt t ht hon
  obtain ⟨hdevice, hbus⟩ := PatchList.split (@patchList_fixups platform)
  have hat := (hplaced.dsdtAt ht).run hsig hlen hdevice
  have hlength : ∀ {done t₁ m₁}, DsdtAt t.bytes (place .dsdt) done t₁ m₁ →
      sdtLength m₁ (place .dsdt) = t.length := by
    intro done t₁ m₁ h
    rw [sdtLength_congr fun k hk => h.placed k (by omega), h.patched.sdtLength_eq hsig]
    rfl
  unfold dsdtFilled
  cases hmcfg : fixedUp platform tables .mcfg with
  | false =>
    simp only [Bool.false_eq_true, if_false]
    have hlist : fixupPatches platform tables = devicePatches platform := by
      simp [fixupPatches, hmcfg]
    rw [hlist] at hfits
    refine ⟨?_, fun x t hx _ honx => ?_, fun t' ht' => ?_⟩
    · exact (patches_sameOutside ht (fun _ hp => hlist ▸ hp) (hplaced.dsdtAt ht) hdevice
        hfits).mono (shifted_subset ht hon)
    · rw [fixedUp_mcfg hx honx] at hmcfg
      cases hmcfg
    · rw [ht] at ht'
      cases ht'
      exact hlength hat
  | true =>
    simp only [if_true]
    have hlist : fixupPatches platform tables = devicePatches platform ++ busPatches platform := by
      simp [fixupPatches, hmcfg]
    rw [hlist, integersFit_append] at hfits
    have hfirst := patches_sameOutside ht
      (fun _ hp => hlist ▸ List.mem_append_left _ hp) (hplaced.dsdtAt ht) hdevice hfits.1
    have hecam : EcamStage platform tables place _ (ecamTables platform lib tables place
        (applyPatches (place .dsdt) (devicePatches platform) m)) :=
      ecamStage hplaced hfit hmcfg fun x u hx hu k hk =>
        (hplaced.keeps hx hu ht hfirst k hk).trans (hplaced.holds x u hu k hk)
    have hat' := hat.congr (hecam.dsdt t ht)
    have hlast := patches_sameOutside ht
      (fun _ hp => hlist ▸ List.mem_append_right _ hp) hat' hbus hfits.2
    refine ⟨?_, fun x u hx hu honx => ?_, fun t' ht' => ?_⟩
    · exact ((hfirst.mono (shifted_subset ht hon)).trans hecam.sameOutside).trans
        (hlast.mono (shifted_subset ht hon))
    · exact (hecam.done x u hx hu honx).keeps (hplaced.keeps hx hu ht hlast)
    · rw [ht] at ht'
      cases ht'
      exact hlength (hat'.run hsig hlen hbus)

theorem tablesValid_of_fit (hplaced : tables.Placed place m) (hfit : FixupsFit platform tables) :
    TablesValid platform tables place m
      (acpiPlatformExitBootServicesOsHandler platform lib (tables.find place) m) := by
  cases hon : fixedUp platform tables .dsdt with
  | false =>
    rw [handler_inactive hon]
    refine ⟨fun x t _ honx => ?_, fun x t _ honx => ?_, fun a ha => absurd rfl ha⟩ <;>
    · rw [fixedUp_dsdt honx] at hon
      cases hon
  | true =>
    obtain ⟨t, ht⟩ := table_of_fixedUp hon
    have hfilled : FilledStage platform tables place m (dsdtFilled platform lib tables place m) :=
      filledStage hplaced hfit hon
    rw [handler_active hon]
    generalize dsdtFilled platform lib tables place m = m' at hfilled
    have hsame : SameOutside m'
        (lib.updateChecksum m' (place .dsdt) (sdtLength m' (place .dsdt)))
        (shifted (place .dsdt) (tableFields platform tables t .dsdt)) := checksum_sameOutside _
    have hdone : ∀ x u, tables.table x = some u → fixedUp platform tables x = true →
        TableDone platform place
          (lib.updateChecksum m' (place .dsdt) (sdtLength m' (place .dsdt))) x u := by
      intro x u hu honx
      by_cases hx : x = .dsdt
      · subst hx
        have hlength := hfilled.dsdt u hu
        have hlen : 36 ≤ u.length := u.header_le
        exact ⟨checksum_sum (by omega), length_of_checksum.trans hlength⟩
      · exact (hfilled.done x u hx hu honx).keeps (hplaced.keeps hx hu ht hsame)
    refine ⟨fun x u hu honx => (hdone x u hu honx).sum, fun x u hu honx => (hdone x u hu honx).fits,
      fun a ha => ?_⟩
    by_contra hnot
    refine ha ((hfilled.sameOutside.trans (hsame.mono (shifted_subset ht hon))) a ?_)
    rintro ⟨x, u, hu, honx, k, ⟨hk, hfield⟩, rfl⟩
    exact hnot ⟨x, u, hu, honx, k, hk, rfl, hfield⟩

end Stages

/-! A placement with a byte behind the DSDT that no table has. -/

section Apart

variable (tables : AcpiTables)

def tableLength (x : AcpiTable) : ℕ := ((tables.table x).map SdtTable.length).getD 0

def tableByte (x : AcpiTable) (k : ℕ) : UInt8 := ((tables.table x).map fun t => t.bytes k).getD 255

def apartPlace : AcpiTable → ℕ
  | .dsdt => 0
  | .mcfg => tableLength tables .dsdt + 1
  | .fadt => tableLength tables .dsdt + 1 + tableLength tables .mcfg

def apartMemory : Cells UInt8 := fun a =>
  if a < tableLength tables .dsdt then tableByte tables .dsdt a
  else if a < apartPlace tables .mcfg then 255
  else if a < apartPlace tables .fadt then tableByte tables .mcfg (a - apartPlace tables .mcfg)
  else tableByte tables .fadt (a - apartPlace tables .fadt)

variable {tables} {platform : AcpiPlatform} {lib : AcpiLib} {x : AcpiTable} {t : SdtTable}
  {m : Cells UInt8} {a : ℕ} {place : AcpiTable → ℕ}

theorem tableLength_eq (h : tables.table x = some t) : tableLength tables x = t.length := by
  simp [tableLength, h]

theorem tableByte_eq (h : tables.table x = some t) (k : ℕ) : tableByte tables x k = t.bytes k := by
  simp [tableByte, h]

theorem apart_placed : tables.Placed (apartPlace tables) (apartMemory tables) where
  holds x t ht k hk := by
    have hlength := tableLength_eq ht
    rw [← tableByte_eq ht]
    cases x with
    | dsdt => simp [apartMemory, apartPlace, hlength, hk]
    | mcfg =>
      have hin : apartPlace tables .mcfg + k < apartPlace tables .fadt := by
        simp only [apartPlace]
        omega
      have hout : ¬ apartPlace tables .mcfg + k < tableLength tables .dsdt := by
        simp only [apartPlace]
        omega
      simp [apartMemory, hin, hout]
    | fadt =>
      have hmcfg : ¬ apartPlace tables .fadt + k < apartPlace tables .mcfg := by
        simp only [apartPlace]
        omega
      have hout : ¬ apartPlace tables .fadt + k < tableLength tables .dsdt := by
        simp only [apartPlace]
        omega
      simp [apartMemory, hmcfg, hout]
  apart x y t u hxy ht hu := by
    have hlength := tableLength_eq ht
    have hlength' := tableLength_eq hu
    cases x <;> cases y <;> simp only [apartPlace] <;> first | exact absurd rfl hxy | omega

theorem ecamTables_of_lt (hmcfg : a < place .mcfg) (hfadt : a < place .fadt) :
    ecamTables platform lib tables place m a = m a := by
  have hbelow : ∀ {b : ℕ} {s : Set ℕ}, a < b → a ∉ shifted b s := by
    rintro b s hlt ⟨k, -, rfl⟩
    omega
  unfold ecamTables
  rw [fixupMcfg_sameOutside _ (hbelow hmcfg)]
  split_ifs
  · exact fixupFadt_sameOutside _ (hbelow hfadt)
  · rfl

/-- An integer that does not end inside the DSDT changes the byte behind. -/
theorem dsdtFilled_behind (ht : tables.table .dsdt = some t)
    (hnot : ¬ IntegersFit (fixupPatches platform tables) t.bytes) :
    dsdtFilled platform lib tables (apartPlace tables) (apartMemory tables) t.length ≠ 255 := by
  have hsig := tables.signature t ht
  have hlen : 36 ≤ sdtLength t.bytes 0 := t.header_le
  have hplaced := apart_placed.dsdtAt ht
  obtain ⟨hdevice, hbus⟩ := PatchList.split (@patchList_fixups platform)
  have hat := hplaced.run hsig hlen hdevice
  have hend : apartPlace tables .dsdt + sdtLength t.bytes 0 = t.length := Nat.zero_add _
  have hfirst := hplaced.run_behind hsig hlen hdevice
  rw [hend] at hfirst
  unfold dsdtFilled
  cases hmcfg : fixedUp platform tables .mcfg with
  | false =>
    simp only [Bool.false_eq_true, if_false]
    rw [fixupPatches, hmcfg] at hnot
    exact hfirst (Or.inr (by simpa using hnot))
  | true =>
    simp only [if_true]
    have hlength := tableLength_eq ht
    have hkeep : ∀ a ≤ t.length, ∀ m,
        ecamTables platform lib tables (apartPlace tables) m a = m a := by
      intro a ha m
      refine ecamTables_of_lt ?_ ?_ <;> simp only [apartPlace] <;> omega
    have hat' := hat.congr fun k hk => hkeep (apartPlace tables .dsdt + k) (by omega) _
    have hlast := hat'.run_behind hsig hlen hbus
    rw [hend, hkeep _ le_rfl] at hlast
    rw [fixupPatches, hmcfg, if_pos rfl, integersFit_append, not_and_or] at hnot
    rcases hnot with hnot | hnot
    · exact hlast (Or.inl (hfirst (Or.inr hnot)))
    · exact hlast (Or.inr hnot)

theorem fit_of_tablesValid
    (h : TablesValid platform tables (apartPlace tables) (apartMemory tables)
      (acpiPlatformExitBootServicesOsHandler platform lib (tables.find (apartPlace tables))
        (apartMemory tables))) :
    FixupsFit platform tables where
  mcfg t ht hon := (h.length .mcfg t ht hon).1.trans (h.length .mcfg t ht hon).2.1
  dsdt t ht hon := by
    by_contra hnot
    have hlen : 36 ≤ t.length := t.header_le
    have hlength := tableLength_eq ht
    have hbehind := @dsdtFilled_behind _ platform lib _ ht hnot
    rw [handler_active hon] at h
    have hwas : apartMemory tables t.length = 255 := by
      simp [apartMemory, apartPlace, hlength]
    obtain ⟨x, u, hu, -, k, hk, heq, -⟩ := h.unchanged t.length (by
      rw [lib.sameOutside _ _ _ _ (by simp [apartPlace]; omega), hwas]
      exact hbehind)
    have hlength' := tableLength_eq hu
    cases x with
    | dsdt =>
      rw [ht] at hu
      cases hu
      simp only [apartPlace] at heq
      omega
    | mcfg =>
      simp only [apartPlace] at heq
      omega
    | fadt =>
      simp only [apartPlace] at heq
      omega

end Apart

/-- For every OS and configuration and every set of tables, the handler leaves the tables valid
wherever they are in memory, exactly if what it sets fits into them. -/
theorem acpiTables_valid_iff (lib : AcpiLib) (platform : AcpiPlatform) (tables : AcpiTables) :
    (∀ (place : AcpiTable → ℕ) (m : Cells UInt8), tables.Placed place m →
        TablesValid platform tables place m
          (acpiPlatformExitBootServicesOsHandler platform lib (tables.find place) m))
      ↔ FixupsFit platform tables :=
  ⟨fun h => fit_of_tablesValid (h _ _ apart_placed), fun hfit _ _ hplaced =>
    tablesValid_of_fit hplaced hfit⟩

/-- A buffer with its checksum byte zeroed. -/
def zeroChecksum (m : Cells UInt8) (table : ℕ) : Cells UInt8 := copyBytes m (table + 9) [0]

/-- The checksum as the two's complement of the sum of the other bytes. -/
def sumChecksum (m : Cells UInt8) (table size : ℕ) : Cells UInt8 :=
  copyBytes (zeroChecksum m table) (table + 9)
    (leBytes ((256 ^ 1 - sumWords 1 (zeroChecksum m table) table size) % 256 ^ 1) 1)

theorem sumChecksum_sum {m : Cells UInt8} {table size : ℕ} (hsize : 36 ≤ size) :
    sumWords 1 (sumChecksum m table size) table size = 0 := by
  have hzero : (zeroChecksum m table).le (table + 1 * 9) 1 = 0 :=
    (copyBytes_holds (leBytes 0 1)).le_eq
  have hsum : (sumChecksum m table size).le (table + 1 * 9) 1
      = (256 ^ 1 - sumWords 1 (zeroChecksum m table) table size) % 256 ^ 1 :=
    (copyBytes_holds (leBytes _ 1)).le_eq.trans (Nat.mod_mod _ _)
  refine sumWords_eq_zero (show 9 < size by omega) (fun k _ hk => ?_) hzero hsum
  exact copyBytes_of_notMem (by rw [length_leBytes]; omega)

def acpiLibSum : AcpiLib where
  updateChecksum := sumChecksum
  sameOutside m table size := by
    intro a ha
    have hne : a ≠ table + 9 := ha
    rw [sumChecksum, copyBytes_of_notMem (by rw [length_leBytes]; omega), zeroChecksum,
      copyBytes_of_notMem (by rw [List.length_singleton]; omega)]
  sum_eq_zero _ _ _ hsize := sumChecksum_sum hsize

/-- A DSDT that only names a buffer, of the bytes `0x08`, `EHID` and `0x0E`: those of a name in front
of a 64-bit integer. -/
def bufferDsdt : List UInt8 :=
  [0x44, 0x53, 0x44, 0x54, 0x33, 0x00, 0x00, 0x00, 0x02, 0x3C, 0x52, 0x4B, 0x43, 0x50, 0x20, 0x20,
    0x52, 0x4B, 0x33, 0x35, 0x37, 0x36, 0x20, 0x20, 0x02, 0x00, 0x00, 0x00, 0x49, 0x4E, 0x54, 0x4C,
    0x25, 0x09, 0x20, 0x20, 0x08, 0x42, 0x55, 0x46, 0x58, 0x11, 0x09, 0x0A, 0x06, 0x08, 0x45, 0x48,
    0x49, 0x44, 0x0E]

def bufferTable : SdtTable where
  bytes := fun k => bufferDsdt.getD k 255
  header_le := by decide

/-- The DSDT alone. -/
def bufferTables : AcpiTables where
  table
    | .dsdt => some bufferTable
    | _ => none
  signature t ht := by
    cases ht
    decide

def windowsPlatform : AcpiPlatform where
  osType := .windows
  pcdAcpiPcieEcamCompatMode := acpiPcieEcamCompatModeAuto
  pcdPcieEcamCompliantSegmentsMask := 0
  mIsSdmmcBoot := false
  mAcpiSdtProtocol := true

/-- Windows' exit zeroes the eight bytes behind that DSDT. -/
theorem acpiTables_not_valid :
    bufferTables.Placed (fun _ => 0) bufferTable.bytes
      ∧ ¬ TablesValid windowsPlatform bufferTables (fun _ => 0) bufferTable.bytes
        (acpiPlatformExitBootServicesOsHandler windowsPlatform acpiLibSum
          (bufferTables.find fun _ => 0) bufferTable.bytes) := by
  refine ⟨⟨fun x t ht k _ => ?_, fun x y t u hxy ht hu => ?_⟩, fun hvalid => ?_⟩
  · cases x <;> cases ht
    exact congrArg _ (Nat.zero_add k)
  · cases x <;> cases ht
    cases y <;> cases hu
    exact absurd rfl hxy
  · obtain ⟨x, t, ht, -, k, hk, heq, -⟩ := hvalid.unchanged 51 (by decide)
    cases x <;> cases ht
    have hlength : bufferTable.length = 51 := by decide
    omega

end Edk2Rk3576
