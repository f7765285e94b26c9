import Edk2Rk3576.Lib.LittleEndian

/-!
# The image that an address is in

`FindPeImageBase` goes down from an address, page by page, to the first page that starts as a PE
image does. The offset of the PE header is taken from the page, and is only followed below a
megabyte. Whether the image reaches up to the address is not asked.
-/

namespace Edk2Rk3576

/-- `EFI_PAGE_SIZE`. -/
def pePageSize : UInt64 := 0x1000

/-- `EFI_IMAGE_DOS_SIGNATURE`, `MZ`. -/
def efiImageDosSignature : ℕ := 0x5A4D

/-- `EFI_IMAGE_NT_SIGNATURE`, `PE` and two zeros. -/
def efiImageNtSignature : ℕ := 0x00004550

/-- `sizeof (EFI_IMAGE_DOS_HEADER)`. -/
def efiImageDosHeaderSize : ℕ := 64

/-- `SIZE_1MB`. -/
def peOffsetLimit : ℕ := 0x100000

/-- What a search returns, and what it reads: where, and how many bytes. -/
structure PeSearch where
  base : UInt64
  reads : List (ℕ × ℕ)
  deriving DecidableEq

section Model

variable (m : Cells UInt8) (base : UInt64)

/-- `DosHdr->e_magic`. -/
def eMagic : ℕ := m.le base.toNat 2

/-- `DosHdr->e_lfanew`. -/
def eLfanew : ℕ := m.le (base.toNat + 0x3c) 4

/-- `Base + PeOffset`. -/
def peHeader : ℕ := (base.toNat + eLfanew m base) % 2 ^ 64

/-- `Hdr.Pe32->Signature`. -/
def peSignature : ℕ := m.le (peHeader m base) 4

/-- The loop's body: whether it breaks, and what it reads. -/
def peCheck : Bool × List (ℕ × ℕ) :=
  if eMagic m base = efiImageDosSignature then
    if efiImageDosHeaderSize ≤ eLfanew m base ∧ eLfanew m base < peOffsetLimit then
      (peSignature m base = efiImageNtSignature,
        [(base.toNat, 2), (base.toNat + 0x3c, 4), (peHeader m base, 4)])
    else (false, [(base.toNat, 2), (base.toNat + 0x3c, 4)])
  else (false, [(base.toNat, 2)])

def peLoop : (fuel : ℕ) → (base : UInt64) → Option PeSearch
  | 0, _ => none
  | fuel + 1, base =>
    if base ≠ 0 then
      if (peCheck m base).1 then some ⟨base, (peCheck m base).2⟩
      else (peLoop fuel (base - pePageSize)).map fun search =>
        { search with reads := (peCheck m base).2 ++ search.reads }
    else some ⟨base, []⟩

def findPeImageBase (fuel : ℕ) : Option PeSearch :=
  peLoop m fuel (base &&& ~~~(pePageSize - 1))

end Model

section Spec

variable (m : Cells UInt8)

def PageAligned (base : UInt64) : Prop := base.toNat % 4096 = 0

/-- A page starts as a PE image does. -/
structure IsPeImage (base : UInt64) : Prop where
  magic : eMagic m base = efiImageDosSignature
  offset_ge : efiImageDosHeaderSize ≤ eLfanew m base
  offset_lt : eLfanew m base < peOffsetLimit
  signature : peSignature m base = efiImageNtSignature

/-- What may be read of a page: its magic, the offset where that is right, and the signature where
the offset is plausible. -/
def PeRead (base : UInt64) (r : ℕ × ℕ) : Prop :=
  r = (base.toNat, 2)
    ∨ eMagic m base = efiImageDosSignature ∧ (r = (base.toNat + 0x3c, 4)
      ∨ efiImageDosHeaderSize ≤ eLfanew m base ∧ eLfanew m base < peOffsetLimit
        ∧ r = (peHeader m base, 4))

/-- A page to look at, from an address down to what was found. -/
structure Between (low : UInt64) (address : ℕ) (base : UInt64) : Prop where
  aligned : PageAligned base
  pos : base ≠ 0
  le : base.toNat ≤ address
  ge : low.toNat ≤ base.toNat

/-- The nearest image at an address or below it, zero if there is none, and the reads on the way. -/
structure PeFound (address : ℕ) (search : PeSearch) : Prop where
  aligned : PageAligned search.base
  le : search.base.toNat ≤ address
  image : search.base ≠ 0 → IsPeImage m search.base
  nearest : ∀ base, Between search.base address base → base ≠ search.base → ¬ IsPeImage m base
  reads : ∀ r ∈ search.reads, ∃ base, Between search.base address base ∧ PeRead m base r

end Spec

section Step

variable {m : Cells UInt8} {base : UInt64} {address : ℕ} {search : PeSearch}

theorem peCheck_iff : (peCheck m base).1 = true ↔ IsPeImage m base := by
  unfold peCheck
  split_ifs with hmagic hoffset
  · rw [decide_eq_true_eq]
    exact ⟨fun h => ⟨hmagic, hoffset.1, hoffset.2, h⟩, fun h => h.signature⟩
  · exact ⟨fun h => (nomatch h), fun h => absurd ⟨h.offset_ge, h.offset_lt⟩ hoffset⟩
  · exact ⟨fun h => (nomatch h), fun h => absurd h.magic hmagic⟩

theorem peCheck_reads {r : ℕ × ℕ} (h : r ∈ (peCheck m base).2) : PeRead m base r := by
  unfold peCheck at h
  split_ifs at h with hmagic hoffset
  · rcases List.mem_cons.1 h with rfl | h
    · exact .inl rfl
    rcases List.mem_cons.1 h with rfl | h
    · exact .inr ⟨hmagic, .inl rfl⟩
    · exact .inr ⟨hmagic, .inr ⟨hoffset.1, hoffset.2, List.mem_singleton.1 h⟩⟩
  · rcases List.mem_cons.1 h with rfl | h
    · exact .inl rfl
    · exact .inr ⟨hmagic, .inl (List.mem_singleton.1 h)⟩
  · exact .inl (List.mem_singleton.1 h)

theorem PageAligned.sub (h : PageAligned base) (hpos : base ≠ 0) :
    PageAligned (base - pePageSize) ∧ (base - pePageSize).toNat + 4096 = base.toNat := by
  have hne : base.toNat ≠ 0 := fun hz => hpos (UInt64.toNat_inj.1 hz)
  unfold PageAligned at h ⊢
  have hle : pePageSize ≤ base := by
    rw [UInt64.le_iff_toNat_le]
    change 4096 ≤ base.toNat
    omega
  rw [UInt64.toNat_sub_of_le _ _ hle]
  change (base.toNat - 4096) % 4096 = 0 ∧ base.toNat - 4096 + 4096 = base.toNat
  rw [UInt64.le_iff_toNat_le] at hle
  change 4096 ≤ base.toNat at hle
  omega

theorem Between.self (h : PageAligned base) (hpos : base ≠ 0) : Between base base.toNat base :=
  ⟨h, hpos, le_rfl, le_rfl⟩

/-- A page with an image is where the search ends. -/
theorem peFound_here (h : PageAligned base) (hpos : base ≠ 0) (himage : IsPeImage m base) :
    PeFound m base.toNat ⟨base, (peCheck m base).2⟩ where
  aligned := h
  le := le_rfl
  image _ := himage
  nearest q hq hne := by
    have heq : q = base := UInt64.toNat_inj.1 (Nat.le_antisymm hq.le hq.ge)
    exact absurd heq hne
  reads r hr := ⟨base, Between.self h hpos, peCheck_reads hr⟩

/-- A page without one is stepped over. -/
theorem PeFound.step (h : PageAligned base) (hpos : base ≠ 0) (hno : ¬ IsPeImage m base)
    (hs : PeFound m (base - pePageSize).toNat search) :
    PeFound m base.toNat { search with reads := (peCheck m base).2 ++ search.reads } := by
  obtain ⟨-, hsub⟩ := h.sub hpos
  have hle := hs.le
  refine ⟨hs.aligned, Nat.le_trans hle (by omega), hs.image, fun q hq hne => ?_, fun r hr => ?_⟩
  · by_cases heq : q = base
    · rwa [heq]
    · have hlt : q.toNat ≠ base.toNat := fun hnat => heq (UInt64.toNat_inj.1 hnat)
      have hqa := hq.aligned
      have hqle := hq.le
      unfold PageAligned at h hqa
      exact hs.nearest q ⟨hq.aligned, hq.pos, by omega, hq.ge⟩ hne
  · rcases List.mem_append.1 hr with hr | hr
    · exact ⟨base, ⟨h, hpos, le_rfl, Nat.le_trans hle (by omega)⟩, peCheck_reads hr⟩
    · obtain ⟨q, hq, hread⟩ := hs.reads r hr
      have hqle := hq.le
      exact ⟨q, ⟨hq.aligned, hq.pos, by omega, hq.ge⟩, hread⟩

/-- The loop takes a pass a page, and one more at the end. -/
theorem peLoop_found : ∀ {n : ℕ} {base : UInt64}, base.toNat = 4096 * n →
    ∃ search, PeFound m base.toNat search ∧ ∀ fuel > n, peLoop m fuel base = some search
  | 0, base, hn => by
    have hzero : base = 0 := UInt64.toNat_inj.1 hn
    subst hzero
    refine ⟨⟨0, []⟩, ⟨rfl, le_rfl, fun h => absurd rfl h, fun q hq _ => ?_, ?_⟩, ?_⟩
    · have hq0 : q = 0 := UInt64.toNat_inj.1 (Nat.le_zero.1 hq.le)
      exact absurd hq0 hq.pos
    · exact fun r hr => absurd hr List.not_mem_nil
    · intro fuel hfuel
      obtain ⟨k, rfl⟩ := Nat.exists_eq_add_of_lt hfuel
      rfl
  | n + 1, base, hn => by
    have haligned : PageAligned base := by
      unfold PageAligned
      omega
    have hpos : base ≠ 0 := by
      rintro rfl
      exact absurd hn (by change 0 ≠ _; omega)
    obtain ⟨-, hsub⟩ := haligned.sub hpos
    by_cases himage : IsPeImage m base
    · refine ⟨_, peFound_here haligned hpos himage, fun fuel hfuel => ?_⟩
      obtain ⟨k, rfl⟩ := Nat.exists_eq_add_of_lt hfuel
      rw [peLoop, if_pos hpos, if_pos (peCheck_iff.2 himage)]
    · obtain ⟨search, hs, hloop⟩ := @peLoop_found n (base - pePageSize) (by omega)
      refine ⟨_, hs.step haligned hpos himage, fun fuel hfuel => ?_⟩
      obtain ⟨k, rfl⟩ := Nat.exists_eq_add_of_lt hfuel
      rw [peLoop, if_pos hpos, if_neg (fun h => himage (peCheck_iff.1 h)),
        hloop (n + 1 + k) (by omega)]
      rfl

theorem pageFloor_toNat (base : UInt64) :
    (base &&& ~~~(pePageSize - 1)).toNat = 4096 * (base.toNat / 4096) := by
  have hshift : base &&& ~~~(pePageSize - 1) = (base >>> 12) <<< 12 := by
    apply UInt64.toBitVec_inj.1
    have hmask : (~~~(pePageSize - 1)).toBitVec = ~~~BitVec.ofNat 64 (2 ^ 12 - 1) := rfl
    have hleft : ((base >>> 12) <<< 12).toBitVec = base.toBitVec >>> 12 <<< 12 := rfl
    rw [UInt64.toBitVec_and, hmask, hleft]
    ext i hi
    have hbit : (BitVec.ofNat 64 (2 ^ 12 - 1))[i] = decide (i < 12) := by
      rw [BitVec.getElem_eq_testBit_toNat, BitVec.toNat_ofNat, Nat.mod_eq_of_lt (by decide),
        Nat.testBit_two_pow_sub_one]
    simp only [BitVec.getElem_and, BitVec.getElem_not, hbit, BitVec.getElem_shiftLeft]
    by_cases h12 : i < 12
    · simp [h12]
    · simp [h12, show 12 + (i - 12) = i by omega, BitVec.getLsbD_eq_getElem hi]
  rw [hshift, UInt64.toNat_shiftLeft, UInt64.toNat_shiftRight]
  change (base.toNat >>> 12) <<< 12 % 2 ^ 64 = _
  have hlt := base.toNat_lt
  omega

theorem PeFound.of_floor {floor : UInt64} (hfloor : floor.toNat = 4096 * (address / 4096))
    (hs : PeFound m floor.toNat search) : PeFound m address search := by
  have hup {q : UInt64} (hq : Between search.base floor.toNat q) : Between search.base address q :=
    ⟨hq.aligned, hq.pos, Nat.le_trans hq.le (by omega), hq.ge⟩
  refine ⟨hs.aligned, Nat.le_trans hs.le (by omega), hs.image, fun q hq => ?_, fun r hr => ?_⟩
  · have hqa := hq.aligned
    have hqle := hq.le
    unfold PageAligned at hqa
    exact hs.nearest q ⟨hq.aligned, hq.pos, by omega, hq.ge⟩
  · obtain ⟨q, hq, hread⟩ := hs.reads r hr
    exact ⟨q, hup hq, hread⟩

/-- The search ends, with the nearest page that starts as an image does. -/
theorem findPeImageBase_found (m : Cells UInt8) (base : UInt64) :
    ∃ search, PeFound m base.toNat search ∧
      ∀ fuel > base.toNat / 4096, findPeImageBase m base fuel = some search := by
  have hfloor := pageFloor_toNat base
  obtain ⟨search, hs, hloop⟩ := @peLoop_found m _ _ hfloor
  exact ⟨search, hs.of_floor hfloor, hloop⟩

end Step

section Contained

/-- `OptionalHeader.SizeOfImage`. -/
def sizeOfImage (m : Cells UInt8) (base : UInt64) : ℕ := m.le (peHeader m base + 0x50) 4

/-- An image that an address is in. -/
def ImageContains (m : Cells UInt8) (base : UInt64) (address : ℕ) : Prop :=
  IsPeImage m base ∧ address < base.toNat + sizeOfImage m base

/-- What a search reads of a page is in the page. -/
def ReadsInPages (m : Cells UInt8) (search : PeSearch) : Prop :=
  ∀ r ∈ search.reads, ∃ base : UInt64, PageAligned base ∧ PeRead m base r ∧
    base.toNat ≤ r.1 ∧ r.1 + r.2 ≤ base.toNat + 4096

/-- The nearest image that an address is in. -/
structure NearestContaining (m : Cells UInt8) (address : ℕ) (base : UInt64) : Prop where
  contains : base ≠ 0 → ImageContains m base address
  nearest : ∀ q, Between base address q → q ≠ base → ¬ ImageContains m q address

/-- A page whose header is in the next one, and that says nothing about the image's size. -/
def headerBehind (a : ℕ) : UInt8 :=
  if a = 0x1000 then 0x4D else if a = 0x1001 then 0x5A else if a = 0x103d then 0x10
  else if a = 0x2000 then 0x50 else if a = 0x2001 then 0x45 else 0

theorem findPeImageBase_headerBehind : ∃ search,
    findPeImageBase headerBehind 0x2345 3 = some search ∧ ¬ ReadsInPages headerBehind search ∧
      ¬ NearestContaining headerBehind 0x2345 search.base := by
  refine ⟨⟨0x1000, [(0x2000, 2), (0x1000, 2), (0x103c, 4), (0x2000, 4)]⟩, by decide, ?_, ?_⟩
  · intro h
    obtain ⟨base, haligned, hread, hle, hend⟩ := h (0x2000, 4) (by decide)
    unfold PageAligned at haligned
    have hbase : base = 0x2000 := by
      apply UInt64.toNat_inj.1
      change base.toNat = 0x2000
      omega
    subst hbase
    rcases hread with hread | ⟨hmagic, -⟩
    · exact absurd hread (by decide)
    · exact absurd hmagic (by decide)
  · intro h
    exact absurd (h.contains (by decide)).2 (by decide)

end Contained

end Edk2Rk3576
