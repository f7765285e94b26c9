import Edk2Rk3576.Acpi.Names

/-!
# The fixups of a table

What the fixups have to leave of the tables they modify: bytes that add up to zero, a length that
fits the content, and nothing changed but the fields that were to be. Then, of each fixup, the
fields it changes, the length and the sum it leaves.
-/

namespace Edk2Rk3576

open Cells

/-- The bytes of a table, with a length that covers its header. -/
structure SdtTable where
  bytes : Cells UInt8
  header_le : 36 ≤ sdtLength bytes 0

def SdtTable.length (t : SdtTable) : ℕ := sdtLength t.bytes 0

/-- The tables that are there. -/
structure AcpiTables where
  table : AcpiTable → Option SdtTable
  signature : ∀ t, table .dsdt = some t → t.bytes.slice 0 4 = dsdtSignature

/-- The tables at their places in memory. -/
structure AcpiTables.Placed (tables : AcpiTables) (place : AcpiTable → ℕ) (m : Cells UInt8) :
    Prop where
  holds : ∀ x t, tables.table x = some t → ∀ k < t.length, m (place x + k) = t.bytes k
  apart : ∀ x y t u, x ≠ y → tables.table x = some t → tables.table y = some u →
    place x + t.length ≤ place y ∨ place y + u.length ≤ place x

/-- `AcpiLocateTableBySignature`. -/
def AcpiTables.find (tables : AcpiTables) (place : AcpiTable → ℕ) (x : AcpiTable) : Option ℕ :=
  (tables.table x).map fun _ => place x

section Valid

variable (platform : AcpiPlatform) (tables : AcpiTables)

/-- The tables that are modified. -/
def fixedUp : AcpiTable → Bool
  | .dsdt => platform.mAcpiSdtProtocol && (tables.table .dsdt).isSome
  | .mcfg => platform.mAcpiSdtProtocol && (tables.table .dsdt).isSome
    && (tables.table .mcfg).isSome
    && (decide (pcieEcamMode platform ≠ acpiPcieEcamCompatModeNxpmx6)
      || (tables.table .fadt).isSome)
  | .fadt => platform.mAcpiSdtProtocol && (tables.table .dsdt).isSome
    && (tables.table .mcfg).isSome
    && decide (pcieEcamMode platform = acpiPcieEcamCompatModeNxpmx6)
    && (tables.table .fadt).isSome

/-- The integers of the DSDT that are to be set. -/
def fixupPatches : List SdtPatch :=
  devicePatches platform ++ if fixedUp platform tables .mcfg then busPatches platform else []

def configSpaceCount : ℕ :=
  if mcfgSplitConfigSpaces platform then 2 * numPcieController else numPcieController

def FadtField (k : ℕ) : Prop := 9 ≤ k ∧ k < 16

/-- The checksum, who made the table, its length, and the entries but for their reserved bytes. -/
def McfgField (k : ℕ) : Prop :=
  k = 9 ∨ (pcieEcamMode platform = acpiPcieEcamCompatModeGraviton ∧ 10 ≤ k ∧ k < 24)
    ∨ (mcfgSplitConfigSpaces platform = false ∧ 4 ≤ k ∧ k < 8)
    ∨ ∃ j < configSpaceCount platform, 44 + 16 * j ≤ k ∧ k < 44 + 16 * j + 12

/-- The bytes of a table that are to be changed. -/
def IntendedField (t : SdtTable) : AcpiTable → ℕ → Prop
  | .dsdt, k => k = 9 ∨ ∃ patch ∈ fixupPatches platform tables, NameField t.bytes patch.name k
  | .mcfg, k => McfgField platform k
  | .fadt, k => FadtField k

/-- A length for what the table has become: no other than before, but for the MCFG, which ends
behind its entries if it ended further on. -/
def LengthFits (t : SdtTable) (length : ℕ) : AcpiTable → Prop
  | .mcfg => 44 + 16 * configSpaceCount platform ≤ length ∧ length ≤ t.length
    ∧ (length = 44 + 16 * configSpaceCount platform ∨ length = t.length)
  | _ => length = t.length

/-- The fixups have turned `m` into `m'`. -/
structure TablesValid (place : AcpiTable → ℕ) (m m' : Cells UInt8) : Prop where
  sum : ∀ x t, tables.table x = some t → fixedUp platform tables x = true →
    sumWords 1 m' (place x) (sdtLength m' (place x)) = 0
  length : ∀ x t, tables.table x = some t → fixedUp platform tables x = true →
    LengthFits platform t (sdtLength m' (place x)) x
  unchanged : ∀ a, m' a ≠ m a → ∃ x t, tables.table x = some t ∧ fixedUp platform tables x = true
    ∧ ∃ k < t.length, a = place x + k ∧ IntendedField platform tables t x k

/-- The integers end inside the DSDT, the entries inside the MCFG. -/
structure FixupsFit : Prop where
  dsdt : ∀ t, tables.table .dsdt = some t → fixedUp platform tables .dsdt = true →
    IntegersFit (fixupPatches platform tables) t.bytes
  mcfg : ∀ t, tables.table .mcfg = some t → fixedUp platform tables .mcfg = true →
    44 + 16 * configSpaceCount platform ≤ t.length

end Valid

section Fixups

variable {platform : AcpiPlatform} {lib : AcpiLib} {m : Cells UInt8} {a b k : ℕ}

/-- The addresses of the offsets from `a`. -/
def shifted (a : ℕ) (s : Set ℕ) : Set ℕ := {b | ∃ k ∈ s, b = a + k}

theorem sameOutside_copyBytes {l : List UInt8} {s : Set ℕ}
    (h : ∀ k, b ≤ k → k < b + l.length → k ∈ s) :
    SameOutside m (copyBytes m (a + b) l) (shifted a s) := by
  intro i hi
  refine copyBytes_of_notMem fun hin => hi ⟨i - a, h _ (by omega) (by omega), by omega⟩

theorem sameOutside_checksum {s : Set ℕ} {n : ℕ} (h : 9 ∈ s) :
    SameOutside m (lib.updateChecksum m a n) (shifted a s) := by
  refine (lib.sameOutside m a n).mono ?_
  rintro i rfl
  exact ⟨9, h, rfl⟩

/-- A length that is left alone. -/
theorem sdtLength_of_sameOutside {m' : Cells UInt8} {s : Set ℕ}
    (h : SameOutside m m' (shifted a s)) (hs : ∀ k ∈ s, k < 4 ∨ 8 ≤ k) :
    sdtLength m' a = sdtLength m a := by
  refine le_congr fun k hk => h _ ?_
  rintro ⟨j, hj, heq⟩
  have := hs j hj
  omega

theorem sdtLength_copyBytes {n : ℕ} (hn : n < 2 ^ 32) :
    sdtLength (copyBytes m (a + 4) (leBytes n 4)) a = n := by
  rw [sdtLength, (copyBytes_holds (leBytes n 4)).le_eq, Nat.mod_eq_of_lt (by omega)]

theorem fixupFadt_sameOutside : SameOutside m (fixupFadt lib a m) (shifted a {k | FadtField k}) := by
  unfold fixupFadt
  refine SameOutside.trans (sameOutside_copyBytes fun k hlo hhi => ?_)
    (sameOutside_checksum (by simp [FadtField]))
  have hlength : (charBytes ['N', 'X', 'P', 'M', 'X', '6']).length = 6 := rfl
  exact ⟨by omega, by omega⟩

theorem fixupFadt_length : sdtLength (fixupFadt lib a m) a = sdtLength m a :=
  sdtLength_of_sameOutside fixupFadt_sameOutside fun _ hk => Or.inr (by have := hk.1; omega)

theorem length_of_checksum {n : ℕ} : sdtLength (lib.updateChecksum m a n) a = sdtLength m a :=
  sdtLength_of_sameOutside (s := {9}) (sameOutside_checksum rfl) (by simp)

theorem checksum_sum (hlen : 36 ≤ sdtLength m a) :
    sumWords 1 (lib.updateChecksum m a (sdtLength m a)) a
      (sdtLength (lib.updateChecksum m a (sdtLength m a)) a) = 0 := by
  rw [length_of_checksum]
  exact lib.sum_eq_zero m a _ hlen

theorem fixupFadt_sum (hlen : 36 ≤ sdtLength m a) :
    sumWords 1 (fixupFadt lib a m) a (sdtLength (fixupFadt lib a m) a) = 0 := by
  have hlength : sdtLength (fixupFadt lib a m) a = sdtLength m a := fixupFadt_length
  unfold fixupFadt at hlength ⊢
  rw [length_of_checksum] at hlength
  exact checksum_sum (by rw [hlength]; exact hlen)

theorem length_configSpace (space : ConfigSpace) : space.bytes.length = 12 := by
  simp [ConfigSpace.bytes]

theorem entry_mem {i index : ℕ} (hcount : i * numPcieController + index < configSpaceCount platform)
    (hlo : 44 + 16 * (i * numPcieController + index) ≤ k)
    (hhi : k < 44 + 16 * (i * numPcieController + index) + 12) : McfgField platform k :=
  Or.inr (Or.inr (Or.inr ⟨_, hcount, hlo, hhi⟩))

theorem fixupConfigSpace_sameOutside {index : ℕ} (hindex : index < numPcieController) :
    SameOutside m (fixupConfigSpace platform a index m) (shifted a {k | McfgField platform k}) := by
  have hentry : ∀ (m : Cells UInt8) (i : ℕ) (space : ConfigSpace),
      i * numPcieController + index < configSpaceCount platform →
      SameOutside m (copyBytes m (configSpaceAt a i index) space.bytes)
        (shifted a {k | McfgField platform k}) := by
    intro m i space hcount
    rw [configSpaceAt, Nat.add_assoc]
    refine sameOutside_copyBytes fun k hlo hhi => entry_mem hcount hlo ?_
    rwa [length_configSpace] at hhi
  rw [numPcieController] at hindex
  simp only [numPcieController] at hentry
  unfold fixupConfigSpace
  cases hsplit : mcfgSplitConfigSpaces platform with
  | false =>
    have hcount : configSpaceCount platform = 2 := by
      simp [configSpaceCount, hsplit, numPcieController]
    exact hentry m 0 _ (by omega)
  | true =>
    have hcount : configSpaceCount platform = 4 := by
      simp [configSpaceCount, hsplit, numPcieController]
    exact (hentry m 0 _ (by omega)).trans (hentry _ 1 _ (by omega))

theorem mcfgField_le (hsplit : mcfgSplitConfigSpaces platform = true) (h : McfgField platform k) :
    8 ≤ k := by
  rcases h with rfl | ⟨-, hlo, -⟩ | ⟨hnot, -, -⟩ | ⟨j, -, hlo, -⟩
  · omega
  · omega
  · rw [hsplit] at hnot
    cases hnot
  · omega

/-- The MCFG with the OEM fields of its mode. -/
def mcfgOem (platform : AcpiPlatform) (a : ℕ) (m : Cells UInt8) : Cells UInt8 :=
  if pcieEcamMode platform = acpiPcieEcamCompatModeGraviton then
    copyBytes (copyBytes m (a + 10) (charBytes ['A', 'M', 'A', 'Z', 'O', 'N']))
      (a + 16) (charBytes ['G', 'R', 'A', 'V', 'I', 'T', 'O', 'N'])
  else m

/-- The MCFG in front of its checksum. -/
def mcfgFilled (platform : AcpiPlatform) (a : ℕ) (m : Cells UInt8) : Cells UInt8 :=
  if mcfgSplitConfigSpaces platform then
    countUp (fixupConfigSpace platform a) numPcieController (mcfgOem platform a m)
  else
    copyBytes (countUp (fixupConfigSpace platform a) numPcieController (mcfgOem platform a m))
      (a + 4) (leBytes (44 + 16 * numPcieController) 4)

theorem fixupMcfg_eq : fixupMcfg platform lib a m
    = lib.updateChecksum (mcfgFilled platform a m) a (sdtLength (mcfgFilled platform a m) a) := by
  unfold fixupMcfg mcfgFilled mcfgOem
  split_ifs <;> rfl

theorem mcfgOem_sameOutside :
    SameOutside m (mcfgOem platform a m) (shifted a {k | McfgField platform k}) := by
  unfold mcfgOem
  split_ifs with hmode
  · refine SameOutside.trans (sameOutside_copyBytes fun k hlo hhi => ?_)
      (sameOutside_copyBytes fun k hlo hhi => ?_)
    · have hlength : (charBytes ['A', 'M', 'A', 'Z', 'O', 'N']).length = 6 := rfl
      exact Or.inr (Or.inl ⟨hmode, by omega, by omega⟩)
    · have hlength : (charBytes ['G', 'R', 'A', 'V', 'I', 'T', 'O', 'N']).length = 8 := rfl
      exact Or.inr (Or.inl ⟨hmode, by omega, by omega⟩)
  · exact SameOutside.refl

theorem mcfgFilled_sameOutside :
    SameOutside m (mcfgFilled platform a m) (shifted a {k | McfgField platform k}) := by
  have hloop : SameOutside m
      (countUp (fixupConfigSpace platform a) numPcieController (mcfgOem platform a m))
      (shifted a {k | McfgField platform k}) :=
    countUp_invariant (fun _ m' => SameOutside m m' (shifted a {k | McfgField platform k}))
      mcfgOem_sameOutside fun _ hi _ h => h.trans (fixupConfigSpace_sameOutside hi)
  unfold mcfgFilled
  split_ifs with hsplit
  · exact hloop
  · refine hloop.trans (sameOutside_copyBytes fun k hlo hhi => ?_)
    rw [length_leBytes] at hhi
    exact Or.inr (Or.inr (Or.inl ⟨by simpa using hsplit, by omega, by omega⟩))

theorem fixupMcfg_sameOutside :
    SameOutside m (fixupMcfg platform lib a m) (shifted a {k | McfgField platform k}) := by
  rw [fixupMcfg_eq]
  exact mcfgFilled_sameOutside.trans (sameOutside_checksum (Or.inl rfl))

/-- The length the MCFG gets. -/
theorem fixupMcfg_length : sdtLength (fixupMcfg platform lib a m) a
    = if mcfgSplitConfigSpaces platform then sdtLength m a
      else 44 + 16 * configSpaceCount platform := by
  split_ifs with hsplit
  · refine sdtLength_of_sameOutside fixupMcfg_sameOutside fun k hk => Or.inr ?_
    exact mcfgField_le hsplit hk
  · rw [fixupMcfg_eq, length_of_checksum, mcfgFilled, if_neg hsplit, configSpaceCount,
      if_neg hsplit]
    exact sdtLength_copyBytes (by simp [numPcieController])

theorem fixupMcfg_sum (hlen : 36 ≤ sdtLength m a) :
    sumWords 1 (fixupMcfg platform lib a m) a (sdtLength (fixupMcfg platform lib a m) a) = 0 := by
  have hlength := @fixupMcfg_length platform lib m a
  rw [fixupMcfg_eq] at hlength ⊢
  refine checksum_sum ?_
  rw [length_of_checksum] at hlength
  rw [hlength]
  split_ifs
  · exact hlen
  · omega

end Fixups

section Patches

variable {platform : AcpiPlatform} {tables : AcpiTables} {patches patches' : List SdtPatch}
  {done : List (List UInt8)}

theorem PatchList.split : ∀ {patches done}, PatchList (patches ++ patches') done →
    PatchList patches done ∧ PatchList patches' (doneAfter patches done)
  | [], _, h => ⟨⟨by simp, by simp, by simp⟩, h⟩
  | patch :: patches, _, h => by
    have htail := PatchList.split h.tail
    refine ⟨⟨fun q hq => h.proper q (List.mem_append_left _ hq), ?_,
      fun q hq => h.notDone q (List.mem_append_left _ hq)⟩, htail.2⟩
    have hnodup := h.nodup
    rw [List.map_append] at hnodup
    exact (List.nodup_append.1 hnodup).1

instance (name : List UInt8) : Decidable (IsNameSeg name) :=
  @instDecidableAnd _ _ inferInstance (List.decidableBAll _ name)

theorem pcieBusMin_value : (pcieBusMin platform).toNat < 16 ∧ (pcieBusMin platform).toNat ≠ 8 := by
  unfold pcieBusMin
  split_ifs <;> decide

theorem pcieBusMax_value : (pcieBusMax platform).toNat < 16 ∧ (pcieBusMax platform).toNat ≠ 8 := by
  unfold pcieBusMax
  split_ifs
  · exact pcieBusMin_value
  · decide

theorem devicePatches_proper : ∀ patch ∈ devicePatches platform, patch.Proper := by
  intro patch hpatch
  rw [devicePatches, List.mem_append] at hpatch
  rcases hpatch with hpatch | hpatch <;> split_ifs at hpatch <;>
    simp only [List.mem_singleton, List.not_mem_nil] at hpatch <;> subst hpatch
  · exact ⟨by decide, by decide, by decide⟩
  · exact ⟨by decide, by decide, by decide⟩

theorem busPatches_proper : ∀ patch ∈ busPatches platform, patch.Proper := by
  intro patch hpatch
  simp only [busPatches, List.mem_cons, List.not_mem_nil, or_false] at hpatch
  rcases hpatch with rfl | rfl | rfl
  · exact ⟨(by decide : IsNameSeg (charBytes ['P', 'B', 'M', 'I'])), pcieBusMin_value⟩
  · exact ⟨(by decide : IsNameSeg (charBytes ['P', 'B', 'M', 'A'])), pcieBusMax_value⟩
  · refine ⟨(by decide : IsNameSeg (charBytes ['P', 'B', 'O', 'F'])), ?_⟩
    cases pcieBusOffset platform <;> decide

theorem names_nodup :
    ((devicePatches platform ++ busPatches platform).map SdtPatch.name).Nodup := by
  unfold devicePatches busPatches
  split_ifs <;> simp only [List.nil_append, List.cons_append, List.map_cons, List.map_nil] <;>
    decide

theorem patchList_fixups : PatchList (devicePatches platform ++ busPatches platform) [] where
  proper patch hpatch := (List.mem_append.1 hpatch).elim (devicePatches_proper patch)
    (busPatches_proper patch)
  nodup := names_nodup
  notDone := by simp

end Patches

section Handler

variable (platform : AcpiPlatform) (lib : AcpiLib) (tables : AcpiTables) (place : AcpiTable → ℕ)

/-- Memory with the FADT and the MCFG fixed up. -/
def ecamTables (m : Cells UInt8) : Cells UInt8 :=
  fixupMcfg platform lib (place .mcfg)
    (if fixedUp platform tables .fadt then fixupFadt lib (place .fadt) m else m)

/-- Memory in front of the DSDT's checksum. -/
def dsdtFilled (m : Cells UInt8) : Cells UInt8 :=
  let m := applyPatches (place .dsdt) (devicePatches platform) m
  if fixedUp platform tables .mcfg then
    applyPatches (place .dsdt) (busPatches platform) (ecamTables platform lib tables place m)
  else m

variable {platform lib tables place} {m : Cells UInt8} {t : SdtTable}

theorem handler_inactive (h : fixedUp platform tables .dsdt = false) :
    acpiPlatformExitBootServicesOsHandler platform lib (tables.find place) m = m := by
  unfold acpiPlatformExitBootServicesOsHandler AcpiTables.find
  rw [fixedUp, Bool.and_eq_false_iff] at h
  split
  · rename_i mDsdtTable hprotocol hfind
    cases htable : tables.table .dsdt with
    | none => simp [htable] at hfind
    | some t => simp [htable, hprotocol] at h
  · rfl

theorem handler_active (h : fixedUp platform tables .dsdt = true) :
    acpiPlatformExitBootServicesOsHandler platform lib (tables.find place) m
      = lib.updateChecksum (dsdtFilled platform lib tables place m) (place .dsdt)
        (sdtLength (dsdtFilled platform lib tables place m) (place .dsdt)) := by
  rw [fixedUp, Bool.and_eq_true_iff] at h
  obtain ⟨t, ht⟩ := Option.isSome_iff_exists.1 h.2
  have hfind : tables.find place .dsdt = some (place .dsdt) := by simp [AcpiTables.find, ht]
  have hecam : ∀ m, (acpiFixupPcieEcam platform lib (tables.find place) (place .dsdt) m).2
      = if fixedUp platform tables .mcfg then
          applyPatches (place .dsdt) (busPatches platform) (ecamTables platform lib tables place m)
        else m := by
    intro m
    unfold acpiFixupPcieEcam ecamTables fixedUp AcpiTables.find
    cases tables.table .mcfg <;> cases tables.table .fadt <;>
      by_cases hmode : pcieEcamMode platform = acpiPcieEcamCompatModeNxpmx6 <;>
      simp [h.1, ht, hmode]
  unfold acpiPlatformExitBootServicesOsHandler dsdtFilled
  simp only [h.1, hfind, hecam]

end Handler

end Edk2Rk3576
