import Edk2Rk3576.BaseVariable.Lookup
import Edk2Rk3576.Lib.Splice

/-!
# A split store and the contiguous one

An interrupted write leaves the end of the region, from `TargetAddress` on, in the spare area.
`joinedEnv` is the same flash with the two parts put together. Its walk passes the same records,
each where `joinedPtr` says.
-/

namespace Edk2Rk3576

open Cells Walk ScanEnd

section Joined

variable (E : BaseVariableEnv)

def joinedEnv : BaseVariableEnv where
  mem := E.mem.splice E.ftwLastWriteData.targetAddress E.ftwLastWriteData.spareAddress
  nvStorageBase := E.nvStorageBase
  nvStorageSize := E.nvStorageSize
  emuVariableNvModeEnable := E.emuVariableNvModeEnable
  ftwLastWriteData := ⟨0, 0⟩
  indexTableVolume := E.indexTableVolume
  debugAssertEnabled := E.debugAssertEnabled
  nvStorageBase_pos := E.nvStorageBase_pos
  nvStorageBase_lt := E.nvStorageBase_lt
  spareAddress_lt := by decide

/-- Where a pointer into the store points in the joined one. -/
def joinedPtr (v : ℕ) : ℕ :=
  spliceAddress E.ftwLastWriteData.targetAddress E.ftwLastWriteData.spareAddress v

def joinedRecord (r : VariableRecord) : VariableRecord :=
  ⟨joinedPtr E r.ptr, (pointer (joinedEnv E).mem (joinedPtr E r.ptr)).byte⟩

def joinedStore (si : VariableStoreInfo) : VariableStoreInfo :=
  { si with variableStoreHeader := joinedPtr E si.variableStoreHeader, ftwLastWriteData := none }

/-- An interrupted write moves whole blocks, to a spare area above the region: all of them, or
those behind a block that holds the headers of the volume and of the store. -/
structure SplitStore : Prop where
  base_le : E.nvStorageBase ≤ E.ftwLastWriteData.targetAddress
  lt_end : E.ftwLastWriteData.targetAddress < E.nvStorageBase + E.nvStorageSize
  le_spare : E.ftwLastWriteData.targetAddress ≤ E.ftwLastWriteData.spareAddress
  aligned : E.ftwLastWriteData.targetAddress % 4 = 0
  spareAligned : E.ftwLastWriteData.spareAddress % 4 = 0
  headers : E.nvStorageBase < E.ftwLastWriteData.targetAddress →
    E.nvStorageBase + fvhSize ≤ E.ftwLastWriteData.targetAddress
  start_lt : E.nvStorageBase < E.ftwLastWriteData.targetAddress →
    (nvVariableStore E).variableStoreHeader ≠ 0 →
    getStartPointer (nvVariableStore E).variableStoreHeader < E.ftwLastWriteData.targetAddress
  store_end : E.nvStorageBase < E.ftwLastWriteData.targetAddress →
    StoreValid E (nvVariableStore E) →
    E.ftwLastWriteData.targetAddress
      < getEndPointer E.mem (nvVariableStore E).variableStoreHeader

/-- A pointer into the part that is in place, or into the spare area. -/
def InPart (si : VariableStoreInfo) (v : ℕ) : Prop :=
  E.ftwLastWriteData.spareAddress ≤ v
    ∨ si.ftwLastWriteData = some E.ftwLastWriteData ∧ v < E.ftwLastWriteData.targetAddress

/-- `GetVariableStore` once it has the header of the volume. -/
def storeOfVolume (m : Cells UInt8) (fvHeader : ℕ) (ftw : Option FtwLastWriteData) :
    VariableStoreInfo :=
  if m.le (fvHeader + fvhSignature) 4 ≠ efiFvhSignature
      ∨ m.le (fvHeader + fvhFileSystemGuid) 16 ≠ gEfiSystemNvDataFvGuid then
    ⟨0, false, ftw, false⟩
  else
    let variableStoreHeader := fvHeader + m.le (fvHeader + fvhHeaderLength) 2
    ⟨variableStoreHeader, true, ftw,
      decide (m.le variableStoreHeader 16 = gEfiAuthenticatedVariableGuid)⟩

theorem nvVariableStore_eq (fvHeader : ℕ) (ftw : Option FtwLastWriteData)
    (hfv : (if E.ftwLastWriteData.targetAddress = E.nvStorageBase then
      E.ftwLastWriteData.spareAddress else E.nvStorageBase) = fvHeader)
    (hftw : (if E.nvStorageBase < E.ftwLastWriteData.targetAddress
        ∧ E.ftwLastWriteData.targetAddress < E.nvStorageBase + E.nvStorageSize then
      some E.ftwLastWriteData else none) = ftw) :
    nvVariableStore E = if E.emuVariableNvModeEnable then ⟨0, false, none, false⟩
      else storeOfVolume E.mem fvHeader ftw := by
  subst hfv hftw
  rfl

variable {E}

theorem joinedPtr_zero (h : SplitStore E) : joinedPtr E 0 = 0 := by
  have h0 := E.nvStorageBase_pos
  have h1 := h.base_le
  exact spliceAddress_of_lt (by omega)

/-- Where the split store is found: in the spare area, when it has the whole region, or in place. -/
theorem SplitStore.cases (h : SplitStore E) :
    (E.ftwLastWriteData.targetAddress = E.nvStorageBase
        ∧ nvVariableStore E = if E.emuVariableNvModeEnable then ⟨0, false, none, false⟩
          else storeOfVolume E.mem E.ftwLastWriteData.spareAddress none)
      ∨ (E.nvStorageBase < E.ftwLastWriteData.targetAddress
        ∧ nvVariableStore E = if E.emuVariableNvModeEnable then ⟨0, false, none, false⟩
          else storeOfVolume E.mem E.nvStorageBase (some E.ftwLastWriteData)) := by
  have h1 := h.base_le
  rcases h1.eq_or_lt with heq | hlt
  · exact .inl ⟨heq.symm, nvVariableStore_eq E _ _ (if_pos heq.symm) (if_neg (by omega))⟩
  · exact .inr ⟨hlt, nvVariableStore_eq E _ _ (if_neg (by omega)) (if_pos ⟨hlt, h.lt_end⟩)⟩

theorem nvVariableStore_joinedEnv : nvVariableStore (joinedEnv E)
    = if E.emuVariableNvModeEnable then ⟨0, false, none, false⟩
      else storeOfVolume (joinedEnv E).mem E.nvStorageBase none := by
  have h0 := E.nvStorageBase_pos
  refine nvVariableStore_eq (joinedEnv E) E.nvStorageBase none (if_neg ?_) (if_neg ?_)
  · exact fun h => absurd (show 0 = E.nvStorageBase from h) (by omega)
  · exact fun h => absurd (show E.nvStorageBase < 0 from h.1) (by omega)

theorem storeOfVolume_le {m : Cells UInt8} {fvHeader : ℕ} {ftw : Option FtwLastWriteData}
    (h : (storeOfVolume m fvHeader ftw).variableStoreHeader ≠ 0) :
    fvHeader ≤ (storeOfVolume m fvHeader ftw).variableStoreHeader
      ∧ (storeOfVolume m fvHeader ftw).variableStoreHeader < fvHeader + 256 ^ 2 := by
  have hl : m.le (fvHeader + fvhHeaderLength) 2 < 256 ^ 2 := le_lt 2 _
  unfold storeOfVolume at h ⊢
  split_ifs at h ⊢ <;> simp_all

/-- The volume header and the start of the store header are in the same part. -/
theorem storeOfVolume_joined {fvHeader : ℕ} {ftw : Option FtwLastWriteData}
    (hts : E.ftwLastWriteData.targetAddress ≤ E.ftwLastWriteData.spareAddress)
    (h0 : joinedPtr E 0 = 0) (hpos : 0 < fvHeader)
    (h : E.ftwLastWriteData.spareAddress ≤ fvHeader
      ∨ fvHeader + fvhSize ≤ E.ftwLastWriteData.targetAddress
        ∧ ((storeOfVolume E.mem fvHeader ftw).variableStoreHeader ≠ 0 →
          (storeOfVolume E.mem fvHeader ftw).variableStoreHeader + 16
            ≤ E.ftwLastWriteData.targetAddress)) :
    storeOfVolume (joinedEnv E).mem (joinedPtr E fvHeader) none
      = joinedStore E (storeOfVolume E.mem fvHeader ftw) := by
  have hl : fvhHeaderLength = 48 := rfl
  have hg : fvhFileSystemGuid = 16 := rfl
  have hs : fvhSignature = 40 := rfl
  have hsize : fvhSize = 72 := rfl
  have hle {k l : ℕ} (hk : k + l ≤ fvhSize) :
      (joinedEnv E).mem.le (joinedPtr E fvHeader + k) l = E.mem.le (fvHeader + k) l :=
    le_splice hts (by omega) k hk
  unfold storeOfVolume at h ⊢
  rw [hle (by omega), hle (by omega), hle (by omega)]
  split_ifs at h ⊢ with hv
  · simp [joinedStore, h0]
  · simp only [] at h
    have hptr : joinedPtr E fvHeader + E.mem.le (fvHeader + fvhHeaderLength) 2
        = joinedPtr E (fvHeader + E.mem.le (fvHeader + fvhHeaderLength) 2) :=
      (spliceAddress_add hts (by omega)).symm
    have hauth : (joinedEnv E).mem.le
        (joinedPtr E (fvHeader + E.mem.le (fvHeader + fvhHeaderLength) 2)) 16
        = E.mem.le (fvHeader + E.mem.le (fvHeader + fvhHeaderLength) 2) 16 :=
      le_splice hts (show _ + 16 ≤ _ ∨ _ by omega) 0 le_rfl
    simp only [joinedStore, hptr, hauth]

/-- The joined store is found where the split one is. -/
theorem SplitStore.joined (h : SplitStore E) :
    nvVariableStore (joinedEnv E) = joinedStore E (nvVariableStore E) := by
  have h0 := joinedPtr_zero h
  have hbase := E.nvStorageBase_pos
  have hts := h.le_spare
  have hb := h.base_le
  have hheader := h.headers
  have hstart := h.start_lt
  rw [nvVariableStore_joinedEnv]
  rcases h.cases with ⟨heq, hnv⟩ | ⟨hlt, hnv⟩
  · rw [hnv]
    split_ifs with hemu
    · simp [joinedStore, h0]
    · rw [← storeOfVolume_joined hts h0 (by omega) (.inl le_rfl), joinedPtr,
        spliceAddress_of_le hts le_rfl, heq, Nat.sub_self, Nat.zero_add]
  · rw [hnv] at hstart ⊢
    split_ifs at hstart ⊢ with hemu
    · simp [joinedStore, h0]
    · rw [← storeOfVolume_joined hts h0 hbase (.inr ⟨hheader hlt, fun hne => ?_⟩), joinedPtr,
        spliceAddress_of_lt hlt]
      have hle := storeOfVolume_le hne
      have hs := hstart hlt hne
      have hnb := E.nvStorageBase_lt
      have hb := getStartPointer_bounds (show (storeOfVolume E.mem E.nvStorageBase
        (some E.ftwLastWriteData)).variableStoreHeader < 2 ^ 54 by omega)
      omega

/-- Which part the start of the store is in, if it is there at all. -/
theorem SplitStore.parts (h : SplitStore E) (hne : (nvVariableStore E).variableStoreHeader ≠ 0) :
    (nvVariableStore E).ftwLastWriteData = none
        ∧ E.ftwLastWriteData.spareAddress ≤ (nvVariableStore E).variableStoreHeader
      ∨ (nvVariableStore E).ftwLastWriteData = some E.ftwLastWriteData
        ∧ getStartPointer (nvVariableStore E).variableStoreHeader
          < E.ftwLastWriteData.targetAddress
        ∧ (StoreValid E (nvVariableStore E) → E.ftwLastWriteData.targetAddress
          < getEndPointer E.mem (nvVariableStore E).variableStoreHeader) := by
  have hstart := h.start_lt
  have hend := h.store_end
  have hftw {m : Cells UInt8} {fvHeader : ℕ} {ftw : Option FtwLastWriteData} :
      (storeOfVolume m fvHeader ftw).ftwLastWriteData = ftw := by
    unfold storeOfVolume
    split_ifs <;> rfl
  rcases h.cases with ⟨heq, hnv⟩ | ⟨hlt, hnv⟩
  · rw [hnv] at hne ⊢
    split_ifs at hne ⊢ with hemu
    · simp at hne
    · exact .inl ⟨hftw, (storeOfVolume_le hne).1⟩
  · have hs := hstart hlt hne
    have he := hend hlt
    rw [hnv] at hne hs he ⊢
    split_ifs at hne hs he ⊢ with hemu
    · simp at hne
    · exact .inr ⟨hftw, hs, he⟩

end Joined

section Header

variable (E : BaseVariableEnv) (si : VariableStoreInfo)

/-- `v` is at the end of the store or behind it. -/
def pastEnd (v : ℕ) : Prop :=
  match si.ftwLastWriteData with
  | some ftw => ftw.spareAddress < v ∧ getEndPointer E.mem si.variableStoreHeader
      ≤ toUintn (v - ftw.spareAddress + ftw.targetAddress)
  | none => getEndPointer E.mem si.variableStoreHeader ≤ v

/-- The bytes that are taken for a header at `v`. -/
def headerBytes (v : ℕ) : Cells UInt8 :=
  match si.ftwLastWriteData with
  | some ftw =>
    if v < ftw.targetAddress
        ∧ ftw.targetAddress < toUintn (v + getVariableHeaderSize si.authFlag) then
      (mergeHeader E si ftw v .boot).variableHeaderFtw
    else (pointer E.mem v).byte
  | none => (pointer E.mem v).byte

variable {E si} {v : ℕ} {h : Cells UInt8}

theorem headerAt_eq_some_iff : headerAt E si v = some h ↔
    v ≠ 0 ∧ ¬ pastEnd E si v ∧ isValidVariableHeader (headerBytes E si v) = true
      ∧ headerBytes E si v = h := by
  rw [headerAt_eq_some]
  unfold getVariableHeader pastEnd headerBytes
  by_cases h0 : v = 0
  · simp [h0]
  have hread : (readHeader E si v .boot).1 = isValidVariableHeader (pointer E.mem v).byte
      ∧ (readHeader E si v .boot).2.1 = (pointer E.mem v).byte := by
    unfold readHeader
    simp only []
    split_ifs with hv <;> simp [hv]
  rcases si.ftwLastWriteData with _ | ftw
  · simp only [if_neg h0]
    split_ifs with he <;> simp [h0, he, hread]
  · simp only [if_neg h0]
    split_ifs with he hc <;> simp [h0, he, hread]

/-- The two headers have the same bytes. -/
def SameHeader (authFlag : Bool) (h h' : Cells UInt8) : Prop :=
  ∀ k < getVariableHeaderSize authFlag, h k = h' k

namespace SameHeader

variable {authFlag : Bool} {h' : Cells UInt8}

theorem le (hs : SameHeader authFlag h h') {k l : ℕ}
    (hk : k + l ≤ getVariableHeaderSize authFlag) : h.le k l = h'.le k l :=
  le_congr fun i hi => hs (k + i) (by omega)

theorem state (hs : SameHeader authFlag h h') : h variableState = h' variableState :=
  hs 2 (by cases authFlag <;> decide)

theorem isValidVariableHeader (hs : SameHeader authFlag h h') :
    isValidVariableHeader h = Edk2Rk3576.isValidVariableHeader h' := by
  unfold Edk2Rk3576.isValidVariableHeader
  rw [hs.le (by cases authFlag <;> decide)]

theorem isLive (hs : SameHeader authFlag h h') : isLive h = Edk2Rk3576.isLive h' := by
  unfold Edk2Rk3576.isLive
  rw [hs.state]

theorem isInDeletedTransition (hs : SameHeader authFlag h h') :
    isInDeletedTransition h = Edk2Rk3576.isInDeletedTransition h' := by
  unfold Edk2Rk3576.isInDeletedTransition
  rw [hs.state]

theorem attributes (hs : SameHeader authFlag h h') :
    h.le variableAttributes 4 = h'.le variableAttributes 4 :=
  hs.le (by cases authFlag <;> decide)

theorem getVendorGuid (hs : SameHeader authFlag h h') :
    getVendorGuid h authFlag = Edk2Rk3576.getVendorGuid h' authFlag :=
  hs.le (by cases authFlag <;> decide)

theorem sizes (hs : SameHeader authFlag h h') :
    nameSizeOfVariable h authFlag = nameSizeOfVariable h' authFlag
      ∧ dataSizeOfVariable h authFlag = dataSizeOfVariable h' authFlag := by
  have hname : h.le (variableNameSize authFlag) 4 = h'.le (variableNameSize authFlag) 4 :=
    hs.le (by cases authFlag <;> decide)
  have hdata : h.le (variableDataSize authFlag) 4 = h'.le (variableDataSize authFlag) 4 :=
    hs.le (by cases authFlag <;> decide)
  have hunwritten : headerUnwritten authFlag h ↔ headerUnwritten authFlag h' := by
    unfold headerUnwritten
    rw [hname, hdata, hs.attributes, hs.state]
  exact ⟨if_congr hunwritten rfl hname, if_congr hunwritten rfl hdata⟩

end SameHeader

end Header

section Split

/-- A store with a part in the spare area, or all of it. -/
structure StoreSplit (E : BaseVariableEnv) (si : VariableStoreInfo) : Prop where
  layout : StoreLayout si
  pos : 0 < E.ftwLastWriteData.targetAddress
  le_spare : E.ftwLastWriteData.targetAddress ≤ E.ftwLastWriteData.spareAddress
  aligned : E.ftwLastWriteData.targetAddress % 4 = 0
  spareAligned : E.ftwLastWriteData.spareAddress % 4 = 0
  parts : si.ftwLastWriteData = none
      ∧ E.ftwLastWriteData.spareAddress ≤ si.variableStoreHeader
    ∨ si.ftwLastWriteData = some E.ftwLastWriteData
      ∧ getStartPointer si.variableStoreHeader < E.ftwLastWriteData.targetAddress
      ∧ (StoreValid E si →
        E.ftwLastWriteData.targetAddress < getEndPointer E.mem si.variableStoreHeader)

variable {E : BaseVariableEnv} {si : VariableStoreInfo} {v : ℕ} {h : Cells UInt8}

theorem SplitStore.split (S : SplitStore E) (hne : (nvVariableStore E).variableStoreHeader ≠ 0) :
    StoreSplit E (nvVariableStore E) where
  layout := nvVariableStore_layout hne fun ftw hf => by
    rcases S.parts hne with ⟨hn, -⟩ | ⟨hs, -⟩
    · simp [hn] at hf
    · obtain rfl := Option.some.inj (hs.symm.trans hf)
      exact S.le_spare
  pos := E.nvStorageBase_pos.trans_le S.base_le
  le_spare := S.le_spare
  aligned := S.aligned
  spareAligned := S.spareAligned
  parts := S.parts hne

theorem headerAlign_shift {x x' a b : ℕ} (h : x' + a = x + b) (hm : a % 4 = b % 4)
    (hx : x < 2 ^ 60) (hx' : x' < 2 ^ 60) : headerAlign x' + a = headerAlign x + b := by
  rw [headerAlign, headerAlign, toUintn_of_lt (by omega), toUintn_of_lt (by omega)]
  omega

namespace StoreSplit

theorem header_part (S : StoreSplit E si) :
    si.variableStoreHeader + 28 ≤ E.ftwLastWriteData.targetAddress
      ∨ E.ftwLastWriteData.spareAddress ≤ si.variableStoreHeader := by
  have hb := S.layout.getStartPointer_eq
  rcases S.parts with h | h <;> omega

/-- The header of the store reads the same. -/
theorem le_header (S : StoreSplit E si) (k : ℕ) {l : ℕ} (hk : k + l ≤ 28) :
    (joinedEnv E).mem.le ((joinedStore E si).variableStoreHeader + k) l
      = E.mem.le (si.variableStoreHeader + k) l := le_splice S.le_spare S.header_part k hk

theorem joinedStore_layout (S : StoreSplit E si) : StoreLayout (joinedStore E si) where
  pos := by
    have hp := S.layout.pos
    have ht := S.pos
    simp only [joinedStore, joinedPtr, spliceAddress]
    split_ifs <;> omega
  header := by
    have hp := S.layout.header
    have hs := S.le_spare
    have ht := S.header_part
    simp only [joinedStore, joinedPtr, spliceAddress]
    split_ifs <;> omega
  target := by simp [joinedStore]
  spare := by simp [joinedStore]

theorem storeValid (S : StoreSplit E si) :
    StoreValid (joinedEnv E) (joinedStore E si) ↔ StoreValid E si := by
  have hf : vshFormat = 20 := rfl
  have hst : vshState = 21 := rfl
  have hsz : vshSize = 16 := rfl
  have h0 := S.le_header 0 (show 0 + 16 ≤ 28 by omega)
  have hsize := S.le_header vshSize (show vshSize + 4 ≤ 28 by omega)
  have hstatus : getVariableStoreStatus (joinedEnv E).mem (joinedStore E si).variableStoreHeader
      = getVariableStoreStatus E.mem si.variableStoreHeader := by
    unfold getVariableStoreStatus
    rw [Nat.add_zero, Nat.add_zero] at h0
    rw [S.le_header vshFormat (by omega), S.le_header vshState (by omega), hsize, h0]
  exact ⟨fun V => ⟨hstatus ▸ V.status, hsize ▸ V.size⟩,
    fun V => ⟨hstatus.trans V.status, hsize.trans_ne V.size⟩⟩

/-- The bounds of the store move as far as its header. -/
theorem bounds_joined (S : StoreSplit E si) :
    getStartPointer (joinedStore E si).variableStoreHeader
        = joinedPtr E (getStartPointer si.variableStoreHeader)
      ∧ getEndPointer (joinedEnv E).mem (joinedStore E si).variableStoreHeader
          + si.variableStoreHeader
        = getEndPointer E.mem si.variableStoreHeader + joinedPtr E si.variableStoreHeader := by
  have hsize := S.le_header vshSize (show vshSize + 4 ≤ 28 by decide)
  have hlt : E.mem.le (si.variableStoreHeader + vshSize) 4 < 256 ^ 4 := le_lt 4 _
  have hh := S.layout.header
  have hb := S.layout.getStartPointer_eq
  have ht := S.aligned
  have hs := S.spareAligned
  have hts := S.le_spare
  have hv : variableStoreHeaderSize = 28 := rfl
  unfold getEndPointer getStartPointer at *
  rw [hsize]
  simp only [joinedStore, joinedPtr] at *
  rcases S.parts with ⟨-, hp⟩ | ⟨-, hp, -⟩
  · rw [spliceAddress_of_le hts hp]
    simp (disch := omega) only [headerAlign_of_lt] at hb ⊢
    rw [spliceAddress_of_le hts (by omega)]
    constructor <;> omega
  · unfold getStartPointer at hp
    rw [spliceAddress_of_lt (show si.variableStoreHeader < _ by omega), spliceAddress_of_lt hp]
    exact ⟨rfl, rfl⟩

theorem inPart_start (S : StoreSplit E si) : InPart E si (getStartPointer si.variableStoreHeader) := by
  have hb := S.layout.getStartPointer_eq
  rcases S.parts with ⟨-, hp⟩ | ⟨hf, hp, -⟩
  · exact .inl (by omega)
  · exact .inr ⟨hf, hp⟩

theorem pastEnd_joined (S : StoreSplit E si) (V : StoreValid E si) (hin : InPart E si v)
    (hv : v < 2 ^ 56) :
    pastEnd (joinedEnv E) (joinedStore E si) (joinedPtr E v) ↔ pastEnd E si v := by
  have hend := S.bounds_joined.2
  have hts := S.le_spare
  have hlt := S.layout.getEndPointer_lt E.mem
  have hb := S.layout.getStartPointer_eq
  have hjoined : pastEnd (joinedEnv E) (joinedStore E si) (joinedPtr E v)
      ↔ getEndPointer (joinedEnv E).mem (joinedStore E si).variableStoreHeader
        ≤ joinedPtr E v := Iff.rfl
  rw [hjoined]
  unfold pastEnd
  rcases S.parts with ⟨hf, hp⟩ | ⟨hf, hp, hend'⟩
  · have hs : E.ftwLastWriteData.spareAddress ≤ v := by
      rcases hin with h | ⟨h, -⟩
      · exact h
      · simp [hf] at h
    rw [joinedPtr, spliceAddress_of_le hts hp] at hend
    rw [joinedPtr, spliceAddress_of_le hts hs]
    simp only [hf]
    omega
  · have he := hend' V
    have hs := S.layout.spare _ hf
    rw [joinedPtr, spliceAddress_of_lt (show si.variableStoreHeader < _ by omega)] at hend
    simp only [hf]
    rw [toUintn_of_lt (by omega)]
    rcases hin with h | ⟨-, h⟩
    · rw [joinedPtr, spliceAddress_of_le hts h]
      omega
    · rw [joinedPtr, spliceAddress_of_lt h]
      omega

theorem headerBytes_joined (S : StoreSplit E si) (hin : InPart E si v) (hv : v < 2 ^ 56) :
    SameHeader si.authFlag (headerBytes E si v)
      (pointer (joinedEnv E).mem (joinedPtr E v)).byte := by
  intro k hk
  have hts := S.le_spare
  have hsize := getVariableHeaderSize_bounds si.authFlag
  unfold headerBytes
  rcases hf : si.ftwLastWriteData with _ | ftw
  · have hs : E.ftwLastWriteData.spareAddress ≤ v := hin.resolve_right fun h => by simp [hf] at h
    exact (splice_spliceAddress hts (.inr hs)).symm
  · obtain rfl : ftw = E.ftwLastWriteData := by
      rcases S.parts with ⟨h, -⟩ | ⟨h, -⟩
      · simp [hf] at h
      · exact Option.some.inj (hf.symm.trans h)
    simp only []
    rw [toUintn_of_lt (by omega)]
    split_ifs with hc
    · simp only [mergeHeader, BaseVariableState.read, BaseVariableState.boot, Bool.false_eq_true,
        if_false, pointer, joinedEnv, joinedPtr, spliceAddress_of_lt hc.1]
      by_cases hp : k < E.ftwLastWriteData.targetAddress - v
      · rw [write_of_notMem (by omega), ← Nat.zero_add k, write_add hp, Nat.zero_add,
          splice_of_lt (by omega)]
      · obtain ⟨i, rfl⟩ := Nat.exists_eq_add_of_le (not_lt.1 hp)
        rw [write_add (by omega), show v + (E.ftwLastWriteData.targetAddress - v + i)
          = E.ftwLastWriteData.targetAddress + i by omega, splice_add]
    · refine (splice_spliceAddress hts ?_).symm
      rcases hin with h | ⟨-, h⟩ <;> omega

theorem joinedPtr_eq_zero (S : StoreSplit E si) : joinedPtr E v = 0 ↔ v = 0 := by
  have hpos := S.pos
  unfold joinedPtr spliceAddress
  split_ifs <;> omega

theorem headerAt_joined (S : StoreSplit E si) (V : StoreValid E si) (hin : InPart E si v)
    (hv : v < 2 ^ 56) : (headerAt E si v = none →
        headerAt (joinedEnv E) (joinedStore E si) (joinedPtr E v) = none)
      ∧ ∀ h, headerAt E si v = some h →
        headerAt (joinedEnv E) (joinedStore E si) (joinedPtr E v)
            = some (joinedRecord E ⟨v, h⟩).header
          ∧ SameHeader si.authFlag h (joinedRecord E ⟨v, h⟩).header := by
  have hbytes := S.headerBytes_joined hin hv
  have hiff (h' : Cells UInt8) :
      headerAt (joinedEnv E) (joinedStore E si) (joinedPtr E v) = some h'
        ↔ v ≠ 0 ∧ ¬ pastEnd E si v ∧ isValidVariableHeader (headerBytes E si v) = true
          ∧ (joinedRecord E ⟨v, h'⟩).header = h' := by
    rw [headerAt_eq_some_iff, S.pastEnd_joined V hin hv, Ne, S.joinedPtr_eq_zero,
      hbytes.isValidVariableHeader]
    rfl
  constructor
  · intro hnone
    refine Option.eq_none_iff_forall_ne_some.2 fun h' h => ?_
    obtain ⟨h0, he, hvalid, -⟩ := (hiff h').1 h
    have hs : headerAt E si v = some _ := headerAt_eq_some_iff.2 ⟨h0, he, hvalid, rfl⟩
    simp [hnone] at hs
  · intro h hsome
    obtain ⟨h0, he, hvalid, rfl⟩ := headerAt_eq_some_iff.1 hsome
    exact ⟨(hiff _).2 ⟨h0, he, hvalid, rfl⟩, hbytes⟩

/-- The next record is found where the one of the joined store is. -/
theorem next_joined (S : StoreSplit E si) (hin : InPart E si v) (hv : v < 2 ^ 55)
    {h' : Cells UInt8} (hs : SameHeader si.authFlag h h') :
    InPart E si (getNextVariablePtr si v h)
      ∧ joinedPtr E (getNextVariablePtr si v h)
        = getNextVariablePtr (joinedStore E si) (joinedPtr E v) h' := by
  have hts := S.le_spare
  have ht := S.aligned
  have hss := S.spareAligned
  have hr := recordEnd_bounds si v h
  have hle : joinedPtr E v ≤ v := by
    unfold joinedPtr spliceAddress
    split_ifs <;> omega
  have hend : recordEnd (joinedStore E si) (joinedPtr E v) h' + v
      = recordEnd si v h + joinedPtr E v := by
    unfold recordEnd
    rw [hs.sizes.1, hs.sizes.2]
    simp only [joinedStore]
    omega
  rw [getNextVariablePtr_of_none (by omega) h' rfl]
  have ha := headerAlign_bounds (show recordEnd si v h < 2 ^ 60 by omega)
  have hspare (hin : E.ftwLastWriteData.spareAddress ≤ v) :
      InPart E si (headerAlign (recordEnd si v h))
        ∧ joinedPtr E (headerAlign (recordEnd si v h))
          = headerAlign (recordEnd (joinedStore E si) (joinedPtr E v) h') := by
    have hshift := headerAlign_shift (show recordEnd (joinedStore E si) (joinedPtr E v) h'
        + E.ftwLastWriteData.spareAddress = recordEnd si v h + E.ftwLastWriteData.targetAddress by
      rw [joinedPtr, spliceAddress_of_le hts hin] at hend ⊢
      omega) (by omega) (by omega) (by omega)
    refine ⟨.inl (by omega), ?_⟩
    rw [joinedPtr, spliceAddress_of_le hts (by omega)]
    omega
  rcases S.parts with ⟨hf, -⟩ | ⟨hf, -⟩
  · rw [getNextVariablePtr_of_none (by omega) h hf]
    exact hspare (hin.resolve_right fun h => by simp [hf] at h)
  · rw [getNextVariablePtr_of_some (by omega) h hf (S.layout.spare _ hf)]
    rcases hin with hin | ⟨-, hin⟩
    · rw [if_neg (by omega)]
      exact hspare hin
    · have hv' : joinedPtr E v = v := spliceAddress_of_lt hin
      have hend' : recordEnd (joinedStore E si) (joinedPtr E v) h' = recordEnd si v h := by omega
      rw [hend']
      split_ifs with hc
      · refine ⟨.inl (by omega), ?_⟩
        rw [joinedPtr, spliceAddress_of_le hts (by omega)]
        omega
      · exact ⟨.inr ⟨hf, by omega⟩, spliceAddress_of_lt (by omega)⟩

theorem next_aligned (S : StoreSplit E si) (hv : v < 2 ^ 55) :
    getNextVariablePtr si v h % 4 = 0 := by
  have ht := S.aligned
  have hs := S.spareAligned
  have ha := headerAlign_mod (recordEnd si v h)
  rcases S.parts with ⟨hf, -⟩ | ⟨hf, -⟩
  · rw [getNextVariablePtr_of_none (by omega) h hf, ha]
  · rw [getNextVariablePtr_of_some (by omega) h hf (S.layout.spare _ hf)]
    split_ifs <;> omega

/-- The walk of the joined store passes the same records. -/
theorem walk_joined (S : StoreSplit E si) (V : StoreValid E si) {rs : List VariableRecord} {e : ℕ}
    (hw : Walk E si v rs e) (hin : InPart E si v) (hv : v < 2 ^ 56) (hal : v % 4 = 0) :
    Walk (joinedEnv E) (joinedStore E si) (joinedPtr E v) (rs.map (joinedRecord E)) (joinedPtr E e)
      ∧ ∀ r ∈ rs, InPart E si r.ptr ∧ r.ptr % 4 = 0
        ∧ SameHeader si.authFlag r.header (joinedRecord E r).header := by
  induction hw with
  | stop h => exact ⟨.stop ((S.headerAt_joined V hin hv).1 h), by simp⟩
  | next h _ ih =>
    obtain ⟨hjoined, hsame⟩ := (S.headerAt_joined V hin hv).2 _ h
    have hlt := S.layout.headerAt_lt (E := E) hv (by simp [h])
    obtain ⟨hnext, hptr⟩ := S.next_joined hin hlt.2 hsame
    obtain ⟨hw, hall⟩ := ih hnext (S.layout.next_bounds hlt.2 _).2 (S.next_aligned hlt.2)
    rw [hptr] at hw
    refine ⟨.next hjoined hw, fun r hr => ?_⟩
    rcases List.mem_cons.1 hr with rfl | hr
    · exact ⟨hin, hal, hsame⟩
    · exact hall r hr

end StoreSplit

/-- The records of a split store, in their parts and with their joined headers. -/
structure JoinedRecords (E : BaseVariableEnv) (si : VariableStoreInfo) (all : List VariableRecord) :
    Prop where
  split : StoreSplit E si
  lt : ∀ r ∈ all, r.ptr < 2 ^ 55
  ordered : all.Pairwise fun r r' => r.ptr < r'.ptr
  part : ∀ r ∈ all, InPart E si r.ptr
  aligned : ∀ r ∈ all, r.ptr % 4 = 0
  same : ∀ r ∈ all, SameHeader si.authFlag r.header (joinedRecord E r).header

/-- The joined store is there, with the same records, when the split one is. -/
theorem SplitStore.nvStore (S : SplitStore E) {all : List VariableRecord} {e : ℕ}
    (N : NvStore E all e) :
    NvStore (joinedEnv E) (all.map (joinedRecord E)) (joinedPtr E e)
      ∧ JoinedRecords E (nvVariableStore E) all := by
  have T := S.split N.walk.layout.pos.ne'
  obtain ⟨hw, hall⟩ := T.walk_joined N.valid N.walk.walk T.inPart_start N.walk.start_lt
    (headerAlign_mod _)
  rw [← T.bounds_joined.1] at hw
  refine ⟨⟨⟨?_, ?_⟩, ?_⟩, T, fun r => N.walk.ptr_lt, ?_, fun r hr => (hall r hr).1,
    fun r hr => (hall r hr).2.1, fun r hr => (hall r hr).2.2⟩
  · rw [S.joined]
    exact T.joinedStore_layout
  · rw [S.joined]
    exact hw
  · rw [S.joined]
    exact T.storeValid.2 N.valid
  · have hp := (N.walk.walk.pairwise N.walk.layout N.walk.start_lt).2
    have hsize := getVariableHeaderSize_bounds (nvVariableStore E).authFlag
    refine (List.pairwise_map.1 (List.pairwise_append.1 hp).1).imp fun h => ?_
    omega

end Split

end Edk2Rk3576
