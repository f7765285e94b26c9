import Edk2Rk3576.BaseVariable.Results
import Edk2Rk3576.Lib.Versions

/-!
# Lookup over a run of calls

The library is called in any order, with any arguments, and each call leaves its statics to the
next. At every point of such a run a search finds what a plain scan of the records finds, which
prefers an added record to one in transition.
-/

namespace Edk2Rk3576

open Cells Walk ScanEnd

inductive VariableCall
  | getVariable (variableName : Option Pointer) (variableGuid : Option EfiGuid)
      (attributes : Bool) (dataSize : Option ℕ) (data : Bool)
  | getNextVariableName (variableNameSize : Option ℕ) (variableName : Option Pointer)
      (variableGuid : Option EfiGuid)

/-- The name passed. -/
def VariableCall.name : VariableCall → Option Pointer
  | .getVariable name _ _ _ _ => name
  | .getNextVariableName _ name _ => name

/-- The statics after a call. -/
def VariableCall.step (E : BaseVariableEnv) (fuel : ℕ) (s : BaseVariableState) :
    VariableCall → BaseVariableState
  | .getVariable name guid attributes dataSize data =>
    (baseGetVariable E fuel name guid attributes dataSize data s).2
  | .getNextVariableName size name guid => (baseGetNextVariableName E fuel size name guid s).2

/-- `VAR_IN_DELETED_TRANSITION & VAR_ADDED`, in a live record. -/
def isOld (r : VariableRecord) : Bool := isInDeletedTransition r.header

/-- Of the live records that match: the first added one, else the last one in transition. -/
def preferred (matching : VariableRecord → Bool) (rs : List VariableRecord) :
    Option VariableRecord := Versions.pick isOld ((liveRecords rs).filter matching)

theorem scan_preferred {cmp : VariableRecord → Except Halt Bool} {matching : VariableRecord → Bool} :
    ∀ (rs : List VariableRecord) (d : Option VariableRecord),
      (∀ r ∈ liveRecords rs, cmp r = .ok (matching r)) →
      (scan cmp rs d).map hit = .ok ((preferred matching rs).or d)
  | [], d, _ => rfl
  | r :: rs, d, h => by
    by_cases hl : isLive r.header = true
    · rw [liveRecords_cons_of_live hl] at h
      have hr := h r List.mem_cons_self
      have ih (d : Option VariableRecord) :=
        scan_preferred rs d fun x hx => h x (List.mem_cons_of_mem _ hx)
      unfold preferred Versions.pick isOld at ih ⊢
      simp only [scan, hl, if_true, hr, liveRecords_cons_of_live hl]
      rcases hm : matching r with _ | _
      · simpa [hm] using ih d
      · rcases hd : isInDeletedTransition r.header with _ | _
        · simp [hm, hd, Except.map, hit]
        · simp only [hm, List.filter_cons_of_pos, List.find?_cons, hd, Bool.not_true, if_true, ih]
          rcases hg : ((liveRecords rs).filter matching).getLast? with _ | x <;>
            simp [List.getLast?_cons, hg]
    · rw [liveRecords_cons_of_not hl] at h
      have ih := scan_preferred rs d h
      unfold preferred Versions.pick isOld at ih ⊢
      simp only [scan, hl, liveRecords_cons_of_not hl]
      exact ih

section Run

variable {E : BaseVariableEnv} {si : VariableStoreInfo} {all : List VariableRecord} {e : ℕ}
  {name : Pointer} {guid : EfiGuid} {fuel : ℕ} {s : BaseVariableState}

/-- A record has the key: any has, when the name is empty. -/
def keyMatches (E : BaseVariableEnv) (si : VariableStoreInfo) (name : Pointer) (guid : EfiGuid)
    (r : VariableRecord) : Bool :=
  nameIsEmpty name || decide (guid = recordGuid si r)
    && (compareVariableName E si name (recordName E si r)
      (nameSizeOfVariable r.header si.authFlag) .boot).1

theorem recordMatches_eq {r : VariableRecord} (h : nameSizeOfVariable r.header si.authFlag ≠ 0) :
    recordMatches E si name guid r = .ok (keyMatches E si name guid r) := by
  unfold recordMatches compareWithValidVariable keyMatches
  simp only [recordGuid, recordName]
  by_cases hn : nameIsEmpty name = true
  · simp [hn]
  · by_cases hg : guid = getVendorGuid r.header si.authFlag
    · have hlogs := (compareVariableName_logs E si name
        (pointer E.mem (getVariableNamePtr r.ptr si.authFlag))
        (nameSizeOfVariable r.header si.authFlag)).eq (BaseVariableState.boot.read name.address 2)
      simp [hn, hg, h, hlogs]
    · simp [hn, hg]

/-- Every live record has a name, as `FindVariableEx` asserts of those it compares. -/
def NamesWritten (si : VariableStoreInfo) (all : List VariableRecord) : Prop :=
  ∀ r ∈ liveRecords all, nameSizeOfVariable r.header si.authFlag ≠ 0

theorem foundRecord_eq (h : NamesWritten si all) :
    foundRecord E si all name guid = .ok (preferred (keyMatches E si name guid) all) := by
  rw [foundRecord, scan_preferred all none fun r hr => recordMatches_eq (h r hr), Option.or_none]

theorem storeReads_true : StoreReads E si all e fun _ => True :=
  ⟨fun _ _ _ _ => trivial, fun _ _ _ _ => trivial, fun _ _ _ _ => trivial,
    fun _ _ _ _ _ _ _ => trivial⟩

theorem keyReads_true (name : Pointer) (guid : EfiGuid) :
    KeyReads E si all (fun _ => True) name guid := fun _ _ _ _ => trivial

theorem VariableCall.sound {P : ℕ × ℕ → Prop} (N : NvStore E all e)
    (R : StoreReads E (nvVariableStore E) all e P) (hf : all.length < fuel)
    (hs : Sound E (nvVariableStore E) all e P s) (call : VariableCall)
    (hk : ∀ name ∈ call.name, ∀ guid, KeyReads E (nvVariableStore E) all P name guid) :
    Sound E (nvVariableStore E) all e P (call.step E fuel s) := by
  cases call with
  | getVariable name guid attributes dataSize data =>
    simp only [VariableCall.step]
    rcases name with _ | name
    · exact hs
    rcases guid with _ | guid
    · exact hs
    rcases dataSize with _ | dataSize
    · exact hs
    obtain ⟨s', h, hs'⟩ := baseGetVariable_eq N R (hk name rfl guid) hf hs attributes dataSize data
    rw [h]
    exact hs'
  | getNextVariableName size name guid =>
    simp only [VariableCall.step]
    rcases name with _ | name
    · exact hs
    rcases guid with _ | guid
    · exact hs
    rcases size with _ | size
    · exact hs
    obtain ⟨res, s', h, hs', -⟩ := baseGetNextVariableName_eq N R (hk name rfl guid) hf hs size
    rw [h]
    exact hs'

/-- The statics in a run of calls, from the first one after boot. -/
def CallsReached (E : BaseVariableEnv) (fuel : ℕ) : BaseVariableState → Prop :=
  Reached (fun s (call : VariableCall) => call.step E fuel s) (fun _ _ => True) .boot

theorem CallsReached.sound (h : CallsReached E fuel s) (N : NvStore E all e)
    (hf : all.length < fuel) : Sound E (nvVariableStore E) all e (fun _ => True) s :=
  h.invariant sound_boot fun _ call hs _ =>
    VariableCall.sound N storeReads_true hf hs call fun name _ guid => keyReads_true name guid

/-- At any point of a run `FindVariableEx` returns what the plain scan of the store finds. -/
theorem findVariableEx_eq_scan (N : NvStore E all e) (hn : NamesWritten (nvVariableStore E) all)
    (hf : all.length < fuel) (hs : CallsReached E fuel s) (name : Pointer) (guid : EfiGuid) :
    (findVariableEx E (nvVariableStore E) name guid fuel (getVariableStore E .nv s).2).1
      = .ok (trackResult E (nvVariableStore E)
        (preferred (keyMatches E (nvVariableStore E) name guid) all)) := by
  have hr := initIndexTable_ready N (hs.sound N hf)
  obtain ⟨s', h, -⟩ := findVariableEx_found N.walk N.valid storeReads_true.header
    (keyReads_true name guid) hf hr.1 hr.2
  rw [getVariableStore, h, foundRecord_eq hn]
  rfl

end Run

section Example

/-- A variable as the store holds it, with the header that has no authentication. -/
def variableBytes (state : UInt8) (name : List ℕ) (guid : EfiGuid) (data : List UInt8) :
    List UInt8 :=
  let header := leBytes variableData 2 ++ [state, 0] ++ leBytes 7 4
    ++ leBytes (2 * (name.length + 1)) 4 ++ leBytes data.length 4 ++ leBytes guid 16
  let body := (name ++ [0]).flatMap (leBytes · 2) ++ data
  header ++ body ++ List.replicate ((4 - body.length % 4) % 4) 0xFF

/-- The two headers that `GetVariableStore` and `FindVariableEx` check. -/
def storeBytes (size : ℕ) : List UInt8 :=
  leBytes 0 16 ++ leBytes gEfiSystemNvDataFvGuid 16 ++ leBytes 0 8 ++ leBytes efiFvhSignature 4
    ++ leBytes 0 4 ++ leBytes fvhSize 2 ++ leBytes 0 22 ++ leBytes gEfiVariableGuid 16
    ++ leBytes size 4 ++ leBytes variableStoreFormatted 1 ++ leBytes variableStoreHealthy 1
    ++ leBytes 0 6

/-- A region of 1 KiB at `0x1000` that holds these records, with the spare area at `0x2000`. -/
def smallEnv (records spare : List UInt8) (targetAddress : ℕ) : BaseVariableEnv where
  mem a := if a < 0x2000 then (storeBytes (0x400 - fvhSize) ++ records).getD (a - 0x1000) 0xFF
    else spare.getD (a - 0x2000) 0xFF
  nvStorageBase := 0x1000
  nvStorageSize := 0x400
  emuVariableNvModeEnable := false
  ftwLastWriteData := ⟨targetAddress, if targetAddress = 0 then 0 else 0x2000⟩
  indexTableVolume := 122
  debugAssertEnabled := true
  nvStorageBase_pos := by decide
  nvStorageBase_lt := by decide
  spareAddress_lt := by
    simp only []
    split_ifs <;> omega

/-- A name in a buffer of the caller. -/
def nameAt (address : ℕ) (name : List ℕ) : Pointer :=
  ⟨address, bufferCells ((name ++ [0]).flatMap (leBytes · 2))⟩

/-- The store of the flash, found by running the checks and the walk. -/
def checkedStore (E : BaseVariableEnv) (fuel : ℕ) : Option (List VariableRecord × ℕ) :=
  let si := nvVariableStore E
  if si.variableStoreHeader ≠ 0
      ∧ (∀ ftw ∈ si.ftwLastWriteData, ftw.targetAddress ≤ ftw.spareAddress)
      ∧ getVariableStoreStatus E.mem si.variableStoreHeader = .efiValid
      ∧ E.mem.le (si.variableStoreHeader + vshSize) 4 ≠ 0xFFFFFFFF then
    walkRecords E si fuel (getStartPointer si.variableStoreHeader)
  else none

theorem nvStore_of_checked {E : BaseVariableEnv} {fuel : ℕ} {x : List VariableRecord × ℕ}
    (h : checkedStore E fuel = some x) : NvStore E x.1 x.2 := by
  unfold checkedStore at h
  simp only [] at h
  split_ifs at h with hc
  exact ⟨⟨nvVariableStore_layout hc.1 hc.2.1, walk_of_walkRecords h⟩, hc.2.2.1, hc.2.2.2⟩

/-- `A` in transition, `B`, and the new `A`. -/
def updatedEnv : BaseVariableEnv :=
  smallEnv (variableBytes 0x3e [0x41] 1 [1] ++ variableBytes 0x3f [0x42] 1 [2, 3]
    ++ variableBytes 0x3f [0x41] 1 [4]) [] 0

def updatedStore : List VariableRecord × ℕ :=
  (checkedStore updatedEnv 10).get (by decide +kernel)

/-- After a lookup of `B`, with two records in the index table. -/
theorem findVariableEx_eq_scan_updated :
    (findVariableEx updatedEnv (nvVariableStore updatedEnv) (nameAt 0x100 [0x41]) 1 10
        (getVariableStore updatedEnv .nv (VariableCall.step updatedEnv 10 .boot
          (.getVariable (some (nameAt 0x100 [0x42])) (some 1) true (some 8) true))).2).1
      = .ok (trackResult updatedEnv (nvVariableStore updatedEnv)
        (preferred (keyMatches updatedEnv (nvVariableStore updatedEnv) (nameAt 0x100 [0x41]) 1)
          updatedStore.1)) :=
  findVariableEx_eq_scan (nvStore_of_checked (Option.some_get _).symm)
    (show ∀ r ∈ liveRecords updatedStore.1, _ by decide +kernel) (by decide +kernel)
    (.next _ .start trivial) _ _

end Example

end Edk2Rk3576
