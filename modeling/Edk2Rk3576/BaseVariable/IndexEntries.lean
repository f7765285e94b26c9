import Edk2Rk3576.BaseVariable.Lookup

/-!
# What the index table holds

The table is written in three places: it is set up, a distance of 16 bits is put behind the others,
and it is marked as gone through. What each of the three keeps, any run of calls has kept; with the
records that sound statics lead to, the table then says where the first live records of the store
are.
-/

namespace Edk2Rk3576

open Cells Walk ScanEnd

/-- Kept by what the calls write to a table. -/
structure TableInvariant (E : BaseVariableEnv) (I : VariableIndexTable → Prop) : Prop where
  setUp : I ⟨[], getStartPointer (nvVariableStore E).variableStoreHeader,
    getEndPointer E.mem (nvVariableStore E).variableStoreHeader, false⟩
  note : ∀ t d, d < 2 ^ 16 → I t → I { t with index := t.index ++ [d] }
  goneThrough : ∀ t, I t → I { t with goneThrough := true }

/-- A function of the state keeps what the table has. -/
def TableKept {α : Type} (I : VariableIndexTable → Prop)
    (f : BaseVariableState → α × BaseVariableState) : Prop :=
  ∀ s, I s.variableIndexTable → I (f s).2.variableIndexTable

theorem Logs.tableKept {α : Type} {I : VariableIndexTable → Prop}
    {f : BaseVariableState → α × BaseVariableState} (h : Logs f) : TableKept I f := fun s hs => by
  rw [h.eq s]
  exact hs

section Kept

variable {E : BaseVariableEnv} {I : VariableIndexTable → Prop} {si : VariableStoreInfo}
  {name : Pointer} {guid : EfiGuid} {fuel : ℕ}

theorem getVariableHeader_kept (si : VariableStoreInfo) (v : ℕ) {s : BaseVariableState}
    (hs : I s.variableIndexTable) : I (getVariableHeader E si v s).2.2.variableIndexTable := by
  have htable : (getVariableHeader E si v s).2.2.variableIndexTable = s.variableIndexTable := by
    unfold getVariableHeader readHeader mergeHeader
    simp only []
    rcases si.ftwLastWriteData with _ | ftw
    · simp only []
      split_ifs <;> rfl
    · simp only []
      split_ifs <;> rfl
  rwa [htable]

theorem recordIndex_kept (hI : TableInvariant E I) (si : VariableStoreInfo) (v last : ℕ)
    (stopRecord : Bool) {s : BaseVariableState} (hs : I s.variableIndexTable) :
    I (recordIndex E si v last stopRecord s).2.2.variableIndexTable := by
  unfold recordIndex
  simp only []
  split_ifs with hrec hfull
  · exact hs
  · exact hI.note _ _ (by omega) hs
  · exact hs

theorem findIndexed_kept (E : BaseVariableEnv) (si : VariableStoreInfo) (name : Pointer)
    (guid : EfiGuid) : ∀ (index : List ℕ) (offset maxIndex inDeletedVariable : ℕ)
    (h : Cells UInt8),
    TableKept I (findIndexed E si name guid index offset maxIndex inDeletedVariable h)
  | [], _, _, _, _, s, hs => hs
  | d :: index, offset, maxIndex, inDeletedVariable, h, s, hs => by
    unfold findIndexed
    simp only []
    generalize toUintn (offset + d) = offset
    generalize toUintn (s.variableIndexTable.startPtr + offset) = v
    have hs₁ := @getVariableHeader_kept E I si v s hs
    generalize getVariableHeader E si v s = x at hs₁ ⊢
    obtain ⟨b, h, s₁⟩ := x
    have hs₂ := (compareWithValidVariable_logs E si v h name guid).tableKept s₁ hs₁
    simp only []
    generalize compareWithValidVariable E si v h name guid s₁ = y at hs₂ ⊢
    obtain ⟨halt | _ | _, s₂⟩ := y
    · exact hs₂
    · exact findIndexed_kept E si name guid index _ _ _ _ s₂ hs₂
    · simp only []
      split_ifs
      · exact findIndexed_kept E si name guid index _ _ _ _ s₂ hs₂
      · exact hs₂

theorem findWalking_kept (hI : TableInvariant E I) : ∀ (fuel v last : ℕ) (stopRecord : Bool)
    (inDeletedVariable : ℕ),
    TableKept I (findWalking E si name guid fuel v last stopRecord inDeletedVariable)
  | 0, _, _, _, _, s, hs => hs
  | fuel + 1, v, last, stopRecord, inDeletedVariable, s, hs => by
    unfold findWalking
    have hs₁ := @getVariableHeader_kept E I si v s hs
    generalize getVariableHeader E si v s = x at hs₁ ⊢
    obtain ⟨_ | _, h, s₁⟩ := x
    · simp only []
      split_ifs
      · exact hI.goneThrough _ hs₁
      · exact hs₁
    · have hs₂ := recordIndex_kept hI si v last stopRecord hs₁
      simp only []
      generalize recordIndex E si v last stopRecord s₁ = y at hs₂ ⊢
      obtain ⟨last', stopRecord', s₂⟩ := y
      have hs₃ := (compareWithValidVariable_logs E si v h name guid).tableKept s₂ hs₂
      simp only []
      by_cases hl : isLive h = true
      · rw [if_pos hl]
        generalize compareWithValidVariable E si v h name guid s₂ = z at hs₃ ⊢
        obtain ⟨halt | _ | _, s₃⟩ := z
        · exact hs₃
        · exact findWalking_kept hI fuel _ _ _ _ s₃ hs₃
        · simp only []
          split_ifs
          · exact findWalking_kept hI fuel _ _ _ _ s₃ hs₃
          · exact hs₃
      · rw [if_neg hl]
        exact findWalking_kept hI fuel _ _ _ _ s₁ hs₁

theorem findVariableEx_kept (hI : TableInvariant E I) (si : VariableStoreInfo) (name : Pointer)
    (guid : EfiGuid) (fuel : ℕ) :
    TableKept I (findVariableEx E si name guid fuel) := by
  intro s hs
  unfold findVariableEx
  simp only []
  split_ifs
  · exact hs
  · exact hs
  · exact hs
  · have hs₁ := findIndexed_kept E si name guid s.variableIndexTable.index 0 0 0 (fun _ => 0) s hs
    generalize findIndexed E si name guid s.variableIndexTable.index 0 0 0 (fun _ => 0) s = x
      at hs₁ ⊢
    obtain ⟨halt | ⟨var | inDeletedVariable, maxIndex, h⟩, s₁⟩ := x
    · exact hs₁
    · exact hs₁
    · simp only []
      split_ifs
      · exact hs₁
      · exact findWalking_kept hI _ _ _ _ _ s₁ hs₁
      · exact findWalking_kept hI _ _ _ _ _ s₁ hs₁
  · exact findWalking_kept hI _ _ _ _ _ s hs

theorem getVariableStore_kept (hI : TableInvariant E I) (type : VariableStoreType) :
    TableKept I (getVariableStore E type) := by
  intro s hs
  cases type with
  | hob => exact hs
  | nv =>
    simp only [getVariableStore, initIndexTable]
    split_ifs
    · exact hI.setUp
    · exact hs

theorem findVariableIn_kept (hI : TableInvariant E I) : ∀ types : List VariableStoreType,
    TableKept I (findVariableIn E fuel name guid types)
  | [], s, hs => hs
  | type :: types, s, hs => by
    unfold findVariableIn
    have hs₁ := getVariableStore_kept hI type s hs
    generalize getVariableStore E type s = x at hs₁ ⊢
    obtain ⟨si, s₁⟩ := x
    have hs₂ := findVariableEx_kept hI si name guid fuel s₁ hs₁
    simp only []
    generalize findVariableEx E si name guid fuel s₁ = y at hs₂ ⊢
    obtain ⟨halt | ⟨status, track⟩, s₂⟩ := y
    · exact hs₂
    · simp only []
      split_ifs
      · exact findVariableIn_kept hI types s₂ hs₂
      · exact hs₂

/-- What a search has left is kept by the rest of the call. -/
theorem baseGetVariable_kept_of_found {s : BaseVariableState} (hn : nameIsEmpty name = false)
    (hs₁ : I (findVariable E fuel name guid s).2.variableIndexTable) (attributes : Bool)
    (dataSize : ℕ) (data : Bool) :
    I (baseGetVariable E fuel (some name) (some guid) attributes (some dataSize) data
      s).2.variableIndexTable := by
  unfold baseGetVariable
  simp only [hn, Bool.false_eq_true, if_false]
  generalize findVariable E fuel name guid s = x at hs₁ ⊢
  obtain ⟨halt | ⟨status, track, si⟩, s₁⟩ := x
  · exact hs₁
  simp only []
  by_cases hstatus : efiError status = true
  · rw [if_pos hstatus]
    exact hs₁
  rw [if_neg hstatus]
  have hs₂ := @getVariableHeader_kept E I si track.currPtr s₁ hs₁
  generalize getVariableHeader E si track.currPtr s₁ = y at hs₂ ⊢
  obtain ⟨b, h, s₂⟩ := y
  have hs₃ := (getVariableNameOrData_logs E si (getVariableDataPtr track.currPtr h si.authFlag)
    (dataSizeOfVariable h si.authFlag)).tableKept s₂ hs₂
  simp only []
  split_ifs <;> first | exact hs₃ | exact hs₂

theorem givesWay_kept (hI : TableInvariant E I) (fuel : ℕ) (si : VariableStoreInfo) (currPtr : ℕ)
    (h : Cells UInt8) :
    TableKept I (givesWay E fuel si currPtr h) := by
  intro s hs
  unfold givesWay
  split_ifs
  · have hs₁ := findVariableEx_kept hI si (pointer E.mem (getVariableNamePtr currPtr si.authFlag))
      (getVendorGuid h si.authFlag) fuel s hs
    generalize findVariableEx E si (pointer E.mem (getVariableNamePtr currPtr si.authFlag))
      (getVendorGuid h si.authFlag) fuel s = x at hs₁ ⊢
    obtain ⟨halt | ⟨status, track⟩, s₁⟩ := x
    · exact hs₁
    · exact hs₁
  · exact hs

theorem hobOverrides_kept (hI : TableInvariant E I) (fuel : ℕ) (headers : VariableStoreType → ℕ)
    (hob si : VariableStoreInfo) (track : VariablePointerTrack) (h : Cells UInt8) :
    TableKept I (hobOverrides E fuel headers hob si track h) := by
  intro s hs
  unfold hobOverrides
  split_ifs
  · have hs₁ := findVariableEx_kept hI hob
      (pointer E.mem (getVariableNamePtr track.currPtr si.authFlag))
      (getVendorGuid h si.authFlag) fuel s hs
    generalize findVariableEx E hob (pointer E.mem (getVariableNamePtr track.currPtr si.authFlag))
      (getVendorGuid h si.authFlag) fuel s = x at hs₁ ⊢
    obtain ⟨halt | ⟨status, track⟩, s₁⟩ := x
    · exact hs₁
    · exact hs₁
  · exact hs

theorem returnName_kept (currPtr : ℕ) (h : Cells UInt8) (variableNameSize : ℕ) :
    TableKept I (returnName E si currPtr h variableNameSize) := by
  intro s hs
  have hs₁ := (getVariableNameOrData_logs E si (getVariableNamePtr currPtr si.authFlag)
    (nameSizeOfVariable h si.authFlag)).tableKept s hs
  unfold returnName
  simp only []
  split_ifs
  · exact hs
  · exact hs₁
  · exact hs

theorem nextName_kept (hI : TableInvariant E I) (headers : VariableStoreType → ℕ)
    (hob : VariableStoreInfo) (variableNameSize : ℕ) :
    ∀ (passes : ℕ) (si : VariableStoreInfo) (track : VariablePointerTrack),
      TableKept I (nextName E fuel headers hob variableNameSize passes si track)
  | 0, _, _, s, hs => hs
  | passes + 1, si, track, s, hs => by
    unfold nextName
    have hs₁ := @getVariableHeader_kept E I si track.currPtr s hs
    generalize getVariableHeader E si track.currPtr s = x at hs₁ ⊢
    obtain ⟨_ | _, h, s₁⟩ := x
    · -- the store that follows
      simp only []
      rcases currentStore headers track.startPtr with _ | type
      · exact hs₁
      · simp only []
        rcases followingStore headers type with _ | type
        · exact hs₁
        · have hs₂ := getVariableStore_kept hI type s₁ hs₁
          simp only []
          generalize getVariableStore E type s₁ = y at hs₂ ⊢
          obtain ⟨si, s₂⟩ := y
          exact nextName_kept hI headers hob variableNameSize passes _ _ s₂ hs₂
    · have hs₂ := givesWay_kept hI fuel si track.currPtr h s₁ hs₁
      simp only []
      by_cases hl : isLive h = true
      · rw [if_pos hl]
        generalize givesWay E fuel si track.currPtr h s₁ = y at hs₂ ⊢
        obtain ⟨halt | _ | _, s₂⟩ := y
        · exact hs₂
        · have hs₃ := hobOverrides_kept hI fuel headers hob si track h s₂ hs₂
          simp only []
          generalize hobOverrides E fuel headers hob si track h s₂ = z at hs₃ ⊢
          obtain ⟨halt | _ | _, s₃⟩ := z
          · exact hs₃
          · exact returnName_kept track.currPtr h variableNameSize s₃ hs₃
          · exact nextName_kept hI headers hob variableNameSize passes _ _ s₃ hs₃
        · exact nextName_kept hI headers hob variableNameSize passes _ _ s₂ hs₂
      · rw [if_neg hl]
        exact nextName_kept hI headers hob variableNameSize passes _ _ s₁ hs₁

theorem baseGetNextVariableName_kept_of_found (hI : TableInvariant E I) {s : BaseVariableState}
    (hs₁ : I (findVariable E fuel name guid s).2.variableIndexTable) (nameSize : ℕ) :
    I (baseGetNextVariableName E fuel (some nameSize) (some name) (some guid)
      s).2.variableIndexTable := by
  unfold baseGetNextVariableName
  simp only []
  generalize findVariable E fuel name guid s = x at hs₁ ⊢
  obtain ⟨halt | ⟨status, track, si⟩, s₁⟩ := x
  · exact hs₁
  simp only []
  by_cases hfound : track.currPtr = 0 ∨ status ≠ efiSuccess
  · rw [if_pos hfound]
    exact hs₁
  rw [if_neg hfound]
  have hs₂ := @getVariableHeader_kept E I si track.currPtr s₁ hs₁
  generalize getVariableHeader E si track.currPtr s₁ = y at hs₂ ⊢
  obtain ⟨b, h, s₂⟩ := y
  have hstores : ∀ s', I s'.variableIndexTable →
      I (getVariableStore E .nv (getVariableStore E .hob s').2).2.variableIndexTable :=
    fun s' hs' => getVariableStore_kept hI .nv _ (getVariableStore_kept hI .hob s' hs')
  simp only []
  split_ifs
  · exact nextName_kept hI _ _ nameSize fuel _ _ _ (hstores s₁ hs₁)
  · exact nextName_kept hI _ _ nameSize fuel _ _ _ (hstores s₂ hs₂)

end Kept

/-- The call gets to the store. -/
def VariableCall.Searches : VariableCall → Prop
  | .getVariable (some name) (some _) _ (some _) _ => nameIsEmpty name = false
  | .getNextVariableName (some _) (some _) (some _) => True
  | _ => False

section Runs

variable {E : BaseVariableEnv} {I : VariableIndexTable → Prop} {fuel : ℕ} {s : BaseVariableState}

/-- The others leave the statics as they are. -/
theorem VariableCall.step_of_not_searches {call : VariableCall} (h : ¬ call.Searches) :
    call.step E fuel s = s := by
  cases call with
  | getVariable name guid attributes dataSize data =>
    rcases name with _ | name
    · rfl
    rcases guid with _ | guid
    · rfl
    rcases dataSize with _ | dataSize
    · rfl
    have hn : nameIsEmpty name = true := by simpa [VariableCall.Searches] using h
    simp only [VariableCall.step, baseGetVariable, hn, if_true]
  | getNextVariableName size name guid =>
    rcases name with _ | name
    · rfl
    rcases guid with _ | guid
    · rfl
    rcases size with _ | size
    · rfl
    exact absurd trivial h

/-- From a search on, a call has what the search has left. -/
theorem VariableCall.step_of_searches (hI : TableInvariant E I) {call : VariableCall}
    (h : call.Searches)
    (hfind : ∀ name guid, I (findVariable E fuel name guid s).2.variableIndexTable) :
    I (call.step E fuel s).variableIndexTable := by
  cases call with
  | getVariable name guid attributes dataSize data =>
    rcases name with _ | name
    · cases h
    rcases guid with _ | guid
    · cases h
    rcases dataSize with _ | dataSize
    · cases h
    exact baseGetVariable_kept_of_found h (hfind name guid) attributes dataSize data
  | getNextVariableName size name guid =>
    rcases size with _ | size
    · cases h
    rcases name with _ | name
    · cases h
    rcases guid with _ | guid
    · cases h
    exact baseGetNextVariableName_kept_of_found hI (hfind name guid) size

theorem VariableCall.step_kept (hI : TableInvariant E I) (hs : I s.variableIndexTable)
    (call : VariableCall) : I (call.step E fuel s).variableIndexTable := by
  by_cases h : call.Searches
  · exact step_of_searches hI h fun name guid => findVariableIn_kept hI [.hob, .nv] s hs
  · rwa [step_of_not_searches h]

variable {all : List VariableRecord} {e : ℕ}

/-- A search sets the table up, if it is not. -/
theorem findVariable_setsUp (N : NvStore E all e) (hI : TableInvariant E I)
    (hs : s.variableIndexTable.startPtr = 0) (name : Pointer) (guid : EfiGuid) :
    I (findVariable E fuel name guid s).2.variableIndexTable := by
  have hstore : I (getVariableStore E .nv s).2.variableIndexTable := by
    simp only [getVariableStore, initIndexTable, N.indexTable, hs, and_self, if_true]
    exact hI.setUp
  have hfound := findVariableEx_kept hI (nvVariableStore E) name guid fuel _ hstore
  simp only [findVariable, findVariableIn, getVariableStore,
    findVariableEx_hob ⟨0, false, none, false⟩ rfl, efiError_invalidParameter, if_true] at hfound ⊢
  generalize findVariableEx E (nvVariableStore E) name guid fuel
    (initIndexTable E (nvVariableStore E) s) = x at hfound ⊢
  obtain ⟨halt | ⟨status, track⟩, s₁⟩ := x
  · exact hfound
  · simp only []
    split_ifs
    · exact hfound
    · exact hfound

/-- The calls of a list, from boot on. -/
def runCalls (E : BaseVariableEnv) (fuel : ℕ) (calls : List VariableCall) : BaseVariableState :=
  calls.foldl (VariableCall.step E fuel) .boot

theorem runCalls_reached (E : BaseVariableEnv) (fuel : ℕ) (calls : List VariableCall) :
    CallsReached E fuel (runCalls E fuel calls) :=
  AllowedRun.reached (allowedRun_of_forall (fun _ _ => trivial) calls _) .start

theorem foldl_step_kept (hI : TableInvariant E I) : ∀ (calls : List VariableCall)
    {s : BaseVariableState}, I s.variableIndexTable →
    I (calls.foldl (VariableCall.step E fuel) s).variableIndexTable
  | [], _, hs => hs
  | call :: calls, _, hs => foldl_step_kept hI calls (call.step_kept hI hs)

theorem foldl_step_of_not_searches : ∀ {calls : List VariableCall},
    (∀ call ∈ calls, ¬ call.Searches) → calls.foldl (VariableCall.step E fuel) s = s
  | [], _ => rfl
  | call :: calls, h => by
    rw [List.foldl_cons, VariableCall.step_of_not_searches (h call List.mem_cons_self)]
    exact foldl_step_of_not_searches fun c hc => h c (List.mem_cons_of_mem _ hc)

/-- The first search sets the table up, and the calls behind it keep it. -/
theorem foldl_step_of_searches (N : NvStore E all e) (hI : TableInvariant E I)
    (hs : s.variableIndexTable.startPtr = 0) : ∀ {calls : List VariableCall},
    (∃ call ∈ calls, call.Searches) →
    I (calls.foldl (VariableCall.step E fuel) s).variableIndexTable
  | [], h => by
    obtain ⟨c, hc, -⟩ := h
    cases hc
  | call :: calls, h => by
    by_cases hfirst : call.Searches
    · exact foldl_step_kept hI calls
        (VariableCall.step_of_searches hI hfirst (findVariable_setsUp N hI hs))
    · rw [List.foldl_cons, VariableCall.step_of_not_searches hfirst]
      obtain ⟨c, hc, hsearch⟩ := h
      rcases List.mem_cons.1 hc with rfl | hc
      · exact absurd hsearch hfirst
      · exact foldl_step_of_searches N hI hs ⟨c, hc, hsearch⟩

end Runs

/-! ### The table as a representation -/

/-- A table says where the first live records of a store are, as distances of 16 bits. -/
structure IndexRepresents (E : BaseVariableEnv) (all : List VariableRecord)
    (t : VariableIndexTable) : Prop where
  distances : ∀ d ∈ t.index, d < 2 ^ 16
  length_le : t.index.length ≤ E.indexTableVolume ∧ t.index.length ≤ (liveRecords all).length
  offsets : indexPtrs 0 t.index = ((liveRecords all).take t.index.length).map fun r =>
    r.ptr - getStartPointer (nvVariableStore E).variableStoreHeader
  goneThrough : t.goneThrough = true → t.index.length = (liveRecords all).length

/-- Its pointers are those of the store. -/
structure PointersMatch (E : BaseVariableEnv) (t : VariableIndexTable) : Prop where
  startPtr : t.startPtr = getStartPointer (nvVariableStore E).variableStoreHeader
  endPtr : t.endPtr = getEndPointer E.mem (nvVariableStore E).variableStoreHeader

section Represents

variable {E : BaseVariableEnv} {all : List VariableRecord} {e fuel : ℕ} {t : VariableIndexTable}

theorem tableInvariant_distances : TableInvariant E fun t => ∀ d ∈ t.index, d < 2 ^ 16 where
  setUp := by simp
  note t d hd ht d' hd' := by
    rcases List.mem_append.1 hd' with hd' | hd'
    · exact ht d' hd'
    · obtain rfl := List.mem_singleton.1 hd'
      exact hd
  goneThrough _ ht := ht

theorem tableInvariant_pointers : TableInvariant E (PointersMatch E) where
  setUp := ⟨rfl, rfl⟩
  note _ _ _ ht := ⟨ht.startPtr, ht.endPtr⟩
  goneThrough _ ht := ⟨ht.startPtr, ht.endPtr⟩

theorem indexPtrs_eq_map (p : ℕ) : ∀ (q : ℕ) (ds : List ℕ),
    indexPtrs (p + q) ds = (indexPtrs q ds).map (p + ·)
  | _, [] => rfl
  | q, d :: ds => by
    rw [indexPtrs, indexPtrs, List.map_cons, Nat.add_assoc, indexPtrs_eq_map p (q + d) ds]

@[simp] theorem length_indexPtrs : ∀ (p : ℕ) (ds : List ℕ), (indexPtrs p ds).length = ds.length
  | _, [] => rfl
  | p, d :: ds => by rw [indexPtrs, List.length_cons, List.length_cons, length_indexPtrs (p + d) ds]

theorem IndexSound.represents (h : IndexSound E (nvVariableStore E) all t)
    (hdistances : ∀ d ∈ t.index, d < 2 ^ 16) : IndexRepresents E all t := by
  have hptrs : indexPtrs t.startPtr t.index
      = ((liveRecords all).take t.index.length).map VariableRecord.ptr := by
    have htake := List.prefix_iff_eq_take.1 h.index
    rwa [length_indexPtrs, ← List.map_take] at htake
  have hlength := h.index.length_le
  rw [length_indexPtrs, List.length_map] at hlength
  refine ⟨hdistances, ⟨h.volume, hlength⟩, ?_, fun hgone => ?_⟩
  · have hzero := indexPtrs_eq_map t.startPtr 0 t.index
    rw [Nat.add_zero, hptrs, h.startPtr] at hzero
    have hsub := congrArg (List.map (· - getStartPointer (nvVariableStore E).variableStoreHeader))
      hzero
    rw [List.map_map, List.map_map] at hsub
    simpa [Function.comp_def] using hsub.symm
  · have hall := congrArg List.length (h.goneThrough hgone)
    rwa [length_indexPtrs, List.length_map] at hall

/-- In any run of calls the table represents the first live records of the store, and its pointers
are those of the store from the first search on; before that it is blank. -/
theorem indexTable_represents (N : NvStore E all e) (hf : all.length < fuel)
    (calls : List VariableCall) :
    IndexRepresents E all (runCalls E fuel calls).variableIndexTable ∧
      ((∃ call ∈ calls, call.Searches) →
        PointersMatch E (runCalls E fuel calls).variableIndexTable) ∧
      ((∀ call ∈ calls, ¬ call.Searches) →
        (runCalls E fuel calls).variableIndexTable = ⟨[], 0, 0, false⟩) := by
  have hboot : (∀ call ∈ calls, ¬ call.Searches) →
      (runCalls E fuel calls).variableIndexTable = ⟨[], 0, 0, false⟩ := fun h => by
    rw [runCalls, foldl_step_of_not_searches h]
    rfl
  refine ⟨?_, foldl_step_of_searches N tableInvariant_pointers rfl, hboot⟩
  by_cases h : ∃ call ∈ calls, call.Searches
  · have hpointers : PointersMatch E (runCalls E fuel calls).variableIndexTable :=
      foldl_step_of_searches N tableInvariant_pointers rfl h
    have hpos := N.walk.layout.pos
    have hstart := N.walk.layout.getStartPointer_eq
    have hsound := ((runCalls_reached E fuel calls).sound N hf).index (by
      rw [hpointers.startPtr]
      omega)
    exact hsound.represents (foldl_step_of_searches N tableInvariant_distances rfl h)
  · rw [hboot fun call hc hsearch => h ⟨call, hc, hsearch⟩]
    exact ⟨by simp, by simp, rfl, nofun⟩

/-- After a lookup that stops at the second of three records. -/
theorem indexTable_represents_updated :
    let t := (runCalls updatedEnv 10
      [.getVariable (some (nameAt 0x100 [0x42])) (some 1) true (some 8) true]).variableIndexTable
    IndexRepresents updatedEnv updatedStore.1 t ∧ PointersMatch updatedEnv t :=
  have h := indexTable_represents (nvStore_of_checked (Option.some_get _).symm)
    (show updatedStore.1.length < 10 by decide +kernel) _
  ⟨h.1, h.2.1 ⟨_, List.mem_singleton_self _,
    show nameIsEmpty (nameAt 0x100 [0x42]) = false by decide⟩⟩

end Represents

end Edk2Rk3576
