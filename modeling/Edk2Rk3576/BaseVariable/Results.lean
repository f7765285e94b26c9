import Edk2Rk3576.BaseVariable.IndexTable

/-!
# What the calls return

The results of the calls over the list of records, with no index table, no static header and no
loop over pointers: `BaseGetVariable` returns the value of the record found, and
`BaseGetNextVariableName` the name of the first record behind it that does not give way.
-/

namespace Edk2Rk3576

open Cells Walk ScanEnd

section Results

variable (E : BaseVariableEnv) (si : VariableStoreInfo) (all : List VariableRecord)

/-- The record that a search returns. -/
def foundRecord (name : Pointer) (guid : EfiGuid) : Except Halt (Option VariableRecord) :=
  (scan (recordMatches E si name guid) all none).map hit

/-- How `FindVariableEx` returns it. -/
def trackResult : Option VariableRecord → EfiStatus × VariablePointerTrack
  | none => (efiNotFound, storeTrack E si)
  | some r => (efiSuccess, { storeTrack E si with currPtr := r.ptr })

/-- The key of a record, as it is passed to a search. -/
def recordName (r : VariableRecord) : Pointer :=
  pointer E.mem (getVariableNamePtr r.ptr si.authFlag)

def recordGuid (r : VariableRecord) : EfiGuid := getVendorGuid r.header si.authFlag

def recordNameBytes (r : VariableRecord) : List UInt8 × BaseVariableState :=
  getVariableNameOrData E si (getVariableNamePtr r.ptr si.authFlag)
    (nameSizeOfVariable r.header si.authFlag) .boot

def recordData (r : VariableRecord) : List UInt8 × BaseVariableState :=
  getVariableNameOrData E si (getVariableDataPtr r.ptr r.header si.authFlag)
    (dataSizeOfVariable r.header si.authFlag) .boot

/-- What `BaseGetVariable` returns for the record found. -/
def getResult (attributes : Bool) (dataSize : ℕ) (data : Bool) :
    Option VariableRecord → BaseGetResult
  | none => .failed efiNotFound
  | some r =>
    let varDataSize := dataSizeOfVariable r.header si.authFlag
    let written := if attributes then some (r.header.le variableAttributes 4) else none
    if varDataSize ≤ dataSize then
      if data then ⟨efiSuccess, written, some varDataSize, some (recordData E si r).1⟩
      else .failed efiInvalidParameter
    else ⟨efiBufferTooSmall, written, some varDataSize, none⟩

/-- Whether a live record gives way to another one with its key. -/
def recordGivesWay (r : VariableRecord) : Except Halt Bool :=
  if isInDeletedTransition r.header then
    (foundRecord E si all (recordName E si r) (recordGuid si r)).map fun found =>
      found.any fun r' => r'.ptr != r.ptr
  else .ok false

/-- What `BaseGetNextVariableName` returns for a record. -/
def nameResult (variableNameSize : ℕ) (r : VariableRecord) : Except Halt BaseNextResult :=
  let varNameSize := nameSizeOfVariable r.header si.authFlag
  if varNameSize = 0 ∧ E.debugAssertEnabled then .error .assert
  else if varNameSize ≤ variableNameSize then
    .ok ⟨efiSuccess, some varNameSize, some (recordNameBytes E si r).1, some (recordGuid si r)⟩
  else .ok ⟨efiBufferTooSmall, some varNameSize, none, none⟩

/-- What it returns when these records are still to come. -/
def nextResult (variableNameSize : ℕ) : List VariableRecord → Except Halt BaseNextResult
  | [] => .ok (.failed efiNotFound)
  | r :: rs =>
    if isLive r.header then
      match recordGivesWay E si all r with
      | .error halt => .error halt
      | .ok true => nextResult variableNameSize rs
      | .ok false => nameResult E si variableNameSize r
    else nextResult variableNameSize rs

/-- The reads of the calls have `P`, those for the key of the caller apart. -/
structure StoreReads (e : ℕ) (P : ℕ × ℕ → Prop) : Prop where
  header : HeaderReads E si all e P
  name : ∀ r ∈ liveRecords all, ∀ x ∈ (recordNameBytes E si r).2.reads, P x
  data : ∀ r ∈ liveRecords all, ∀ x ∈ (recordData E si r).2.reads, P x
  key : ∀ r ∈ liveRecords all, isInDeletedTransition r.header = true →
    KeyReads E si all P (recordName E si r) (recordGuid si r)

end Results

section Found

variable {E : BaseVariableEnv} {si : VariableStoreInfo} {all : List VariableRecord} {e : ℕ}
  {P : ℕ × ℕ → Prop} {name : Pointer} {guid : EfiGuid} {r : VariableRecord}

theorem liveRecords_mem (h : r ∈ liveRecords all) : r ∈ all ∧ isLive r.header = true := by
  simpa [liveRecords] using h

theorem foundRecord_mem (h : foundRecord E si all name guid = .ok (some r)) :
    r ∈ liveRecords all ∧ recordMatches E si name guid r = .ok true := by
  rcases hs : scan (recordMatches E si name guid) all none with halt | x <;>
    simp only [foundRecord, hs, Except.map, Except.ok.injEq, reduceCtorEq] at h
  rcases mem_of_scan _ hs h with ⟨hm, hl, hr⟩ | h
  · exact ⟨List.mem_filter.2 ⟨hm, hl⟩, hr⟩
  · cases h

theorem StoreWalk.ptr_pos (W : StoreWalk E si all e) (hr : r ∈ all) : 0 < r.ptr :=
  (W.layout.headerAt_lt (E := E) (W.stop_lt (StoreWalk.ptr_mem_stops hr))
    (by simp [W.walk.headerAt_ptr r hr])).1

/-- A search from sound statics. -/
theorem findVariableEx_found (W : StoreWalk E si all e) (V : StoreValid E si)
    (hh : HeaderReads E si all e P) (hk : KeyReads E si all P name guid) {fuel : ℕ}
    (hf : all.length < fuel) {s : BaseVariableState} (hs : Sound E si all e P s)
    (hst : s.variableIndexTable.startPtr = getStartPointer si.variableStoreHeader) :
    ∃ s', findVariableEx E si name guid fuel s
        = ((foundRecord E si all name guid).map (trackResult E si), s')
      ∧ Sound E si all e P s'
      ∧ s'.variableIndexTable.startPtr = getStartPointer si.variableStoreHeader := by
  obtain ⟨h1, h2, h3⟩ := findVariableEx_eq W V hh hk hf hs fun _ => hst
  refine ⟨_, Prod.ext ?_ rfl, h2, h3.trans hst⟩
  rw [h1]
  rcases hs : scan (recordMatches E si name guid) all none with halt | r | _ | r
  · simp only [foundRecord, hs, scanResult, Except.map]
  · simp only [foundRecord, hs, scanResult, Except.map]
    rfl
  · simp only [foundRecord, hs, scanResult, Except.map]
    rfl
  · have hf : foundRecord E si all name guid = .ok (some r) := by
      simp only [foundRecord, hs, Except.map]
      rfl
    have hpos := W.ptr_pos (liveRecords_mem (foundRecord_mem hf).1).1
    simp only [hf, scanResult, Except.map, search, Sum.elim_inr, ptr_some, searchResult,
      trackResult]
    rw [if_neg (by omega)]

end Found

section Calls

variable {E : BaseVariableEnv} {all : List VariableRecord} {e : ℕ} {P : ℕ × ℕ → Prop}
  {name : Pointer} {guid : EfiGuid} {fuel : ℕ} {s : BaseVariableState}

/-- The store of the flash is there and passes the checks; the walk over it passes `all`. -/
structure NvStore (E : BaseVariableEnv) (all : List VariableRecord) (e : ℕ) : Prop where
  walk : StoreWalk E (nvVariableStore E) all e
  valid : StoreValid E (nvVariableStore E)

/-- In the address space the store of the flash lies as it should; where the spare area is mapped
is up to the platform. -/
theorem nvVariableStore_layout (h : (nvVariableStore E).variableStoreHeader ≠ 0)
    (hspare : ∀ ftw ∈ (nvVariableStore E).ftwLastWriteData,
      ftw.targetAddress ≤ ftw.spareAddress) : StoreLayout (nvVariableStore E) where
  pos := Nat.pos_of_ne_zero h
  header := by
    have h1 := E.nvStorageBase_lt
    have h2 := E.spareAddress_lt
    have h3 : E.mem.le (E.nvStorageBase + fvhHeaderLength) 2 < 256 ^ 2 := le_lt 2 _
    have h4 : E.mem.le (E.ftwLastWriteData.spareAddress + fvhHeaderLength) 2 < 256 ^ 2 :=
      le_lt 2 _
    unfold nvVariableStore
    simp only []
    split_ifs <;> simp only [] <;> omega
  target := hspare
  spare := by
    have h2 := E.spareAddress_lt
    have hftw : ∀ ftw ∈ (nvVariableStore E).ftwLastWriteData, ftw = E.ftwLastWriteData := by
      unfold nvVariableStore
      simp only []
      split_ifs <;> simp
    intro ftw hf
    rw [hftw ftw hf]
    omega

theorem exists_nvStore (h : (nvVariableStore E).variableStoreHeader ≠ 0)
    (hspare : ∀ ftw ∈ (nvVariableStore E).ftwLastWriteData,
      ftw.targetAddress ≤ ftw.spareAddress) (V : StoreValid E (nvVariableStore E)) :
    ∃ all e, NvStore E all e := by
  have L := nvVariableStore_layout h hspare
  have := L.getStartPointer_eq
  have := L.header
  obtain ⟨all, e, hw⟩ := L.exists_walk (E := E)
    (v := getStartPointer (nvVariableStore E).variableStoreHeader) (by omega)
  exact ⟨all, e, ⟨L, hw⟩, V⟩

theorem NvStore.indexTable (N : NvStore E all e) : (nvVariableStore E).indexTable = true := by
  have h := N.walk.layout.pos
  unfold nvVariableStore at h ⊢
  simp only [] at h ⊢
  split_ifs at h ⊢ <;> simp_all

/-- The statics once `GetVariableStore` has been called. -/
def Ready (E : BaseVariableEnv) (all : List VariableRecord) (e : ℕ) (P : ℕ × ℕ → Prop)
    (s : BaseVariableState) : Prop :=
  Sound E (nvVariableStore E) all e P s
    ∧ s.variableIndexTable.startPtr
      = getStartPointer (nvVariableStore E).variableStoreHeader

theorem Ready.log (h : Ready E all e P s) {new : List (ℕ × ℕ)} (hn : ∀ x ∈ new, P x) :
    Ready E all e P { s with reads := new ++ s.reads } := ⟨h.1.log hn, h.2⟩

theorem initIndexTable_ready (N : NvStore E all e) (hs : Sound E (nvVariableStore E) all e P s) :
    Ready E all e P (initIndexTable E (nvVariableStore E) s) := by
  unfold initIndexTable
  by_cases h0 : s.variableIndexTable.startPtr = 0
  · rw [if_pos ⟨N.indexTable, h0⟩]
    exact ⟨hs.withTable ⟨rfl, List.nil_prefix, fun h => (by cases h), Nat.zero_le _⟩, rfl⟩
  · rw [if_neg fun h => h0 h.2]
    exact ⟨hs, (hs.index h0).startPtr⟩

theorem findVariableEx_hob (hob : VariableStoreInfo) (h : hob.variableStoreHeader = 0) :
    findVariableEx E hob name guid fuel s = (.ok (efiInvalidParameter, ⟨0, 0, 0⟩), s) := by
  unfold findVariableEx
  simp only [h, if_true]

theorem findVariable_eq (N : NvStore E all e)
    (hh : HeaderReads E (nvVariableStore E) all e P)
    (hk : KeyReads E (nvVariableStore E) all P name guid) (hf : all.length < fuel)
    (hs : Sound E (nvVariableStore E) all e P s) :
    ∃ s', findVariable E fuel name guid s
        = ((foundRecord E (nvVariableStore E) all name guid).map fun
            | none => (efiNotFound, ⟨0, 0, 0⟩, ⟨0, false, none, false⟩)
            | some r => (efiSuccess, { storeTrack E (nvVariableStore E) with currPtr := r.ptr },
                nvVariableStore E), s')
      ∧ Ready E all e P s' := by
  have hr := initIndexTable_ready N hs
  obtain ⟨s', h, hr'⟩ := findVariableEx_found N.walk N.valid hh hk hf hr.1 hr.2
  refine ⟨s', ?_, hr'⟩
  simp only [findVariable, findVariableIn, getVariableStore,
    findVariableEx_hob ⟨0, false, none, false⟩ rfl, efiError_invalidParameter, if_true, h]
  rcases foundRecord E (nvVariableStore E) all name guid with halt | _ | r
  · rfl
  · simp [Except.map, trackResult, efiNotFound, efiError_encodeError]
  · simp [Except.map, trackResult]

theorem getVariableHeader_ready (N : NvStore E all e)
    (hh : HeaderReads E (nvVariableStore E) all e P) (hs : Ready E all e P s)
    {r : VariableRecord} (hr : r ∈ all) :
    ∃ s', getVariableHeader E (nvVariableStore E) r.ptr s = (true, r.header, s')
      ∧ Ready E all e P s' := by
  obtain ⟨s', h, hs', ht⟩ := hs.1.getVariableHeader_record N.walk hh hr
  exact ⟨s', h, hs', ht ▸ hs.2⟩

/-- `BaseGetVariable` from sound statics, whatever the index table holds. -/
theorem baseGetVariable_eq (N : NvStore E all e) (R : StoreReads E (nvVariableStore E) all e P)
    (hk : KeyReads E (nvVariableStore E) all P name guid) (hf : all.length < fuel)
    (hs : Sound E (nvVariableStore E) all e P s) (attributes : Bool) (dataSize : ℕ) (data : Bool) :
    ∃ s', baseGetVariable E fuel (some name) (some guid) attributes (some dataSize) data s
        = (if nameIsEmpty name then .ok (.failed efiNotFound)
          else (foundRecord E (nvVariableStore E) all name guid).map
            (getResult E (nvVariableStore E) attributes dataSize data), s')
      ∧ Sound E (nvVariableStore E) all e P s' := by
  unfold baseGetVariable
  by_cases hn : nameIsEmpty name = true
  · simp only [hn, if_true]
    exact ⟨s, rfl, hs⟩
  obtain ⟨s₁, h₁, hs₁⟩ := findVariable_eq N R.header hk hf hs
  simp only [hn, h₁]
  rcases hr : foundRecord E (nvVariableStore E) all name guid with halt | _ | r
  · exact ⟨s₁, rfl, hs₁.1⟩
  · exact ⟨s₁, by simp [Except.map, efiNotFound, efiError_encodeError, getResult], hs₁.1⟩
  · have hmem := (foundRecord_mem hr).1
    obtain ⟨s₂, h₂, hs₂⟩ := getVariableHeader_ready N R.header hs₁ (liveRecords_mem hmem).1
    have hd := (getVariableNameOrData_logs E (nvVariableStore E)
      (getVariableDataPtr r.ptr r.header (nvVariableStore E).authFlag)
      (dataSizeOfVariable r.header (nvVariableStore E).authFlag)).eq s₂
    simp only [Except.map, efiError_success, h₂, hd, getResult, recordData, Bool.false_eq_true,
      if_false]
    by_cases hsize : dataSizeOfVariable r.header (nvVariableStore E).authFlag ≤ dataSize
    · simp only [if_pos hsize]
      cases data with
      | true => exact ⟨_, rfl, hs₂.1.log (R.data r hmem)⟩
      | false => exact ⟨s₂, rfl, hs₂.1⟩
    · simp only [if_neg hsize]
      exact ⟨s₂, rfl, hs₂.1⟩

theorem givesWay_eq (N : NvStore E all e) (R : StoreReads E (nvVariableStore E) all e P)
    (hf : all.length < fuel) (hs : Ready E all e P s) {r : VariableRecord}
    (hr : r ∈ liveRecords all) :
    ∃ s', givesWay E fuel (nvVariableStore E) r.ptr r.header s
        = (recordGivesWay E (nvVariableStore E) all r, s')
      ∧ Ready E all e P s' := by
  unfold givesWay recordGivesWay
  by_cases hd : isInDeletedTransition r.header = true
  · obtain ⟨s', h, hs'⟩ := findVariableEx_found N.walk N.valid R.header (R.key r hr hd) hf hs.1 hs.2
    simp only [hd, if_true]
    rw [show pointer E.mem (getVariableNamePtr r.ptr (nvVariableStore E).authFlag)
        = recordName E (nvVariableStore E) r from rfl,
      show getVendorGuid r.header (nvVariableStore E).authFlag = recordGuid (nvVariableStore E) r
        from rfl, h]
    refine ⟨s', ?_, hs'⟩
    rcases foundRecord E (nvVariableStore E) all (recordName E (nvVariableStore E) r)
      (recordGuid (nvVariableStore E) r) with halt | _ | r'
    · rfl
    · simp [Except.map, trackResult, efiNotFound, efiError_encodeError]
    · simp [Except.map, trackResult]
  · simp only [hd]
    exact ⟨s, rfl, hs⟩

theorem returnName_eq (R : StoreReads E (nvVariableStore E) all e P) (hs : Ready E all e P s)
    {r : VariableRecord} (hr : r ∈ liveRecords all) (variableNameSize : ℕ) :
    ∃ s', returnName E (nvVariableStore E) r.ptr r.header variableNameSize s
        = (nameResult E (nvVariableStore E) variableNameSize r, s')
      ∧ Ready E all e P s' := by
  have hn := (getVariableNameOrData_logs E (nvVariableStore E)
    (getVariableNamePtr r.ptr (nvVariableStore E).authFlag)
    (nameSizeOfVariable r.header (nvVariableStore E).authFlag)).eq s
  simp only [returnName, nameResult, hn]
  split_ifs
  · exact ⟨s, rfl, hs⟩
  · exact ⟨_, rfl, hs.log (R.name r hr)⟩
  · exact ⟨s, rfl, hs⟩

theorem nextName_eq (N : NvStore E all e) (R : StoreReads E (nvVariableStore E) all e P)
    (hf : all.length < fuel) (headers : VariableStoreType → ℕ) (hob : VariableStoreInfo)
    (hhob : headers .hob = 0) (hnv : headers .nv = (nvVariableStore E).variableStoreHeader)
    (variableNameSize : ℕ) :
    ∀ (rs : List VariableRecord) (passes : ℕ) (track : VariablePointerTrack)
      (s : BaseVariableState), Walk E (nvVariableStore E) track.currPtr rs e →
      rs.length < passes → (∀ r ∈ rs, r ∈ all) →
      track.startPtr = getStartPointer (nvVariableStore E).variableStoreHeader →
      Ready E all e P s →
      ∃ s', nextName E fuel headers hob variableNameSize passes (nvVariableStore E) track s
          = (nextResult E (nvVariableStore E) all variableNameSize rs, s')
        ∧ Ready E all e P s'
  | _, 0, _, _, _, hp, _, _, _ => by omega
  | [], passes + 1, track, s, hw, _, _, hst, hs => by
    obtain ⟨curr, endPtr, startPtr⟩ := track
    cases hw
    obtain ⟨h, s₁, h₁, hs₁, ht₁⟩ := hs.1.getVariableHeader_end N.walk R.header
    have hpos := N.walk.layout.pos
    have hst : startPtr = getStartPointer (nvVariableStore E).variableStoreHeader := hst
    have hcurrent : currentStore headers startPtr = some .nv := by
      rw [currentStore, List.find?_cons_of_neg (by simp [hhob]),
        List.find?_cons_of_pos (by simp [hnv, hst]; omega)]
    refine ⟨s₁, ?_, hs₁, ht₁ ▸ hs.2⟩
    simp only [nextName, h₁, hcurrent, followingStore, nextResult]
  | r :: rs, passes + 1, track, s, hw, hp, hall, hst, hs => by
    obtain ⟨curr, endPtr, startPtr⟩ := track
    cases hw with
    | @next _ hd _ _ hhead hw =>
      have hmem := hall _ List.mem_cons_self
      obtain ⟨s₁, h₁, hs₁⟩ := getVariableHeader_ready N R.header hs hmem
      have ih (s' : BaseVariableState) (hs' : Ready E all e P s') :=
        nextName_eq N R hf headers hob hhob hnv variableNameSize rs passes
          ⟨getNextVariablePtr (nvVariableStore E) curr hd, endPtr, startPtr⟩ s' hw
          (by simpa using hp) (fun x hx => hall x (List.mem_cons_of_mem _ hx)) hst hs'
      simp only [nextName, h₁, nextResult]
      by_cases hl : isLive hd = true
      · have hlive : (⟨curr, hd⟩ : VariableRecord) ∈ liveRecords all :=
          List.mem_filter.2 ⟨hmem, hl⟩
        obtain ⟨s₂, h₂, hs₂⟩ := givesWay_eq N R hf hs₁ hlive
        simp only [hl, if_true, h₂]
        rcases recordGivesWay E (nvVariableStore E) all ⟨curr, hd⟩ with halt | _ | _
        · exact ⟨s₂, rfl, hs₂⟩
        · have hover : hobOverrides E fuel headers hob (nvVariableStore E) ⟨curr, endPtr, startPtr⟩
              hd s₂ = (.ok false, s₂) := if_neg fun h => h.1 hhob
          simp only [hover]
          exact returnName_eq R hs₂ hlive variableNameSize
        · exact ih s₂ hs₂
      · simp only [hl]
        exact ih s₁ hs₁

theorem initIndexTable_of_ready (N : NvStore E all e) (hs : Ready E all e P s) :
    initIndexTable E (nvVariableStore E) s = s := by
  have := N.walk.layout.getStartPointer_eq
  have := hs.2
  exact if_neg fun h => by omega

/-- The records from the one found on: its walk is the same, wherever it stands in the list. -/
theorem NvStore.walk_from (N : NvStore E all e) {pre post : List VariableRecord}
    {r : VariableRecord} (hall : all = pre ++ r :: post) :
    Walk E (nvVariableStore E) r.ptr (r :: post) e :=
  .next (N.walk.walk.headerAt_ptr r (by simp [hall])) (N.walk.walk.tail hall)

/-- Where `BaseGetNextVariableName` starts: at the record found, or behind it when a name was
given. -/
def recordsToCome (name : Pointer) (r : VariableRecord) (post : List VariableRecord) :
    List VariableRecord := if nameIsEmpty name then r :: post else post

/-- Where the stores are: there is none of HOBs. -/
def nvStoreHeaders (E : BaseVariableEnv) : VariableStoreType → ℕ
  | .hob => 0
  | .nv => (nvVariableStore E).variableStoreHeader

theorem baseGetNextVariableName_eq (N : NvStore E all e)
    (R : StoreReads E (nvVariableStore E) all e P)
    (hk : KeyReads E (nvVariableStore E) all P name guid) (hf : all.length < fuel)
    (hs : Sound E (nvVariableStore E) all e P s) (variableNameSize : ℕ) :
    ∃ res s', baseGetNextVariableName E fuel (some variableNameSize) (some name) (some guid) s
        = (res, s')
      ∧ Sound E (nvVariableStore E) all e P s'
      ∧ match foundRecord E (nvVariableStore E) all name guid with
        | .error halt => res = .error halt
        | .ok none => res = .ok (.failed efiNotFound)
        | .ok (some r) => ∃ pre post, all = pre ++ r :: post
          ∧ res = nextResult E (nvVariableStore E) all variableNameSize
            (recordsToCome name r post) := by
  obtain ⟨s₁, h₁, hs₁⟩ := findVariable_eq N R.header hk hf hs
  unfold baseGetNextVariableName
  simp only [h₁]
  rcases hr : foundRecord E (nvVariableStore E) all name guid with halt | _ | r
  · exact ⟨_, s₁, rfl, hs₁.1, rfl⟩
  · exact ⟨_, s₁, rfl, hs₁.1, rfl⟩
  · have hmem := liveRecords_mem (foundRecord_mem hr).1
    have hpos := N.walk.ptr_pos hmem.1
    obtain ⟨pre, post, hall⟩ := List.append_of_mem hmem.1
    have hw := N.walk_from hall
    have hsub : ∀ x ∈ r :: post, x ∈ all := fun x hx => hall ▸ List.mem_append_right _ hx
    have hlen : (r :: post).length < fuel := by
      rw [hall, List.length_append] at hf
      omega
    simp only [Except.map, if_neg (show ¬ (r.ptr = 0 ∨ efiSuccess ≠ efiSuccess) by simp; omega),
      getVariableStore, recordsToCome]
    by_cases hn : nameIsEmpty name = true
    · simp only [hn, if_true, initIndexTable_of_ready N hs₁]
      obtain ⟨s₂, h₂, hs₂⟩ := nextName_eq N R hf
        (nvStoreHeaders E) ⟨0, false, none, false⟩ rfl rfl
        variableNameSize (r :: post) fuel
        { storeTrack E (nvVariableStore E) with currPtr := r.ptr } s₁ hw hlen hsub rfl hs₁
      exact ⟨_, s₂, h₂, hs₂.1, pre, post, hall, rfl⟩
    · obtain ⟨s₂, h₂, hs₂⟩ := getVariableHeader_ready N R.header hs₁ hmem.1
      simp only [hn, h₂, Bool.false_eq_true, if_false, initIndexTable_of_ready N hs₂]
      obtain ⟨s₃, h₃, hs₃⟩ := nextName_eq N R hf
        (nvStoreHeaders E) ⟨0, false, none, false⟩ rfl rfl
        variableNameSize post fuel
        { storeTrack E (nvVariableStore E) with
          currPtr := getNextVariablePtr (nvVariableStore E) r.ptr r.header } s₂
        (N.walk.walk.tail hall) (by simpa using Nat.lt_of_succ_lt hlen)
        (fun x hx => hsub x (List.mem_cons_of_mem _ hx)) rfl hs₂
      exact ⟨_, s₃, h₃, hs₃.1, pre, post, hall, rfl⟩

end Calls

end Edk2Rk3576
