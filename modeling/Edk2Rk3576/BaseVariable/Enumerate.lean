import Edk2Rk3576.BaseVariable.Lookup

/-!
# Enumeration

`BaseGetNextVariableName`, called with the empty name first and then with each result. In a well
formed store an in-transition record is superseded once an added one has its name and GUID, and
every call goes on to the next record that is not superseded. The first call starts from what a
search for the empty name returns, an added record if there is one, so in-transition variables
that stand before it are left out.
-/

namespace Edk2Rk3576

open Cells Walk ScanEnd Versions

section Keys

variable (E : BaseVariableEnv) (si : VariableStoreInfo)

abbrev VariableKey := List UInt8 × EfiGuid

def recordKey (r : VariableRecord) : VariableKey := ((recordNameBytes E si r).1, recordGuid si r)

/-- Every live record has a name, and its key has one added and one in-transition record at
most. -/
structure WellFormedStore (all : List VariableRecord) : Prop where
  isString : ∀ r ∈ liveRecords all,
    (recordName E si r).byte.IsString (nameSizeOfVariable r.header si.authFlag)
  notEmpty : ∀ r ∈ liveRecords all, nameIsEmpty (recordName E si r) = false
  unique : ∀ a ∈ liveRecords all, ∀ b ∈ liveRecords all,
    recordKey E si a = recordKey E si b → isOld a = isOld b → a.ptr = b.ptr

/-- The buffer of the caller spells the name of a record, and its GUID comes with it. -/
def HoldsName (name : Pointer) (r : VariableRecord) : Prop :=
  ∀ k < nameSizeOfVariable r.header si.authFlag, name.byte k = (recordName E si r).byte k

variable {E si} {all : List VariableRecord} {e : ℕ} {name : Pointer} {guid : EfiGuid}

theorem isString_size {m : Cells UInt8} {n : ℕ} (h : m.IsString n) : 2 ≤ n := by
  obtain ⟨k, rfl, -, -⟩ := h
  omega

theorem WellFormedStore.namesWritten (w : WellFormedStore E si all) : NamesWritten si all :=
  fun r hr h0 => by
    have := isString_size (w.isString r hr)
    omega

theorem StoreWalk.nodup (W : StoreWalk E si all e) : all.Nodup := by
  have hp := (W.walk.pairwise W.layout W.start_lt).2
  have hsize := getVariableHeaderSize_bounds si.authFlag
  have hptrs : (all.map VariableRecord.ptr).Pairwise fun x y => x ≠ y :=
    (List.pairwise_append.1 hp).1.imp fun {x y} h => by omega
  exact List.Nodup.of_map _ hptrs

theorem StoreWalk.ptr_inj (W : StoreWalk E si all e) {a b : VariableRecord} (ha : a ∈ all)
    (hb : b ∈ all) (h : a.ptr = b.ptr) : a = b := by
  have h1 := W.walk.headerAt_ptr a ha
  have h2 := W.walk.headerAt_ptr b hb
  rw [h, h2, Option.some_inj] at h1
  cases a
  cases b
  simp_all

theorem WellFormedStore.hasVersions (w : WellFormedStore E si all) (W : StoreWalk E si all e) :
    HasVersions (recordKey E si) isOld (liveRecords all) where
  nodup := W.nodup.filter _
  unique a ha b hb hkey hold :=
    W.ptr_inj (liveRecords_mem ha).1 (liveRecords_mem hb).1 (w.unique a ha b hb hkey hold)

theorem compareVariableName_of_none (hftw : si.ftwLastWriteData = none) (name1 name2 : Pointer)
    (n : ℕ) (s : BaseVariableState) : (compareVariableName E si name1 name2 n s).1
      = decide (∀ k < n, name1.byte k = name2.byte k) := by
  rw [compareVariableName, hftw]
  rfl

theorem recordNameBytes_of_none (hftw : si.ftwLastWriteData = none) (r : VariableRecord) :
    (recordNameBytes E si r).1
      = (recordName E si r).byte.slice 0 (nameSizeOfVariable r.header si.authFlag) := by
  rw [recordNameBytes, getVariableNameOrData, hftw]
  exact slice_congr fun k _ => by rw [Nat.zero_add]; rfl

/-- With no write interrupted, a string has the key of a record just when it is its name. -/
theorem keyMatches_iff (hftw : si.ftwLastWriteData = none) {r : VariableRecord} {n : ℕ}
    (hn : name.byte.IsString n) (hne : nameIsEmpty name = false)
    (hr : (recordName E si r).byte.IsString (nameSizeOfVariable r.header si.authFlag)) :
    keyMatches E si name guid r = true ↔ recordKey E si r = (name.byte.slice 0 n, guid) := by
  rw [keyMatches, compareVariableName_of_none hftw, hne, Bool.false_or, Bool.and_eq_true,
    decide_eq_true_eq, decide_eq_true_eq, recordKey, recordNameBytes_of_none hftw, Prod.mk.injEq]
  constructor
  · rintro ⟨hg, h⟩
    rw [hn.length_eq hr h]
    exact ⟨slice_congr fun k hk => by rw [Nat.zero_add, h k hk], hg.symm⟩
  · rintro ⟨h, hg⟩
    have hsize : nameSizeOfVariable r.header si.authFlag = n := by
      simpa using congrArg List.length h
    rw [hsize] at h ⊢
    refine ⟨hg.symm, fun k hk => ?_⟩
    have := slice_inj h hk
    rw [Nat.zero_add] at this
    exact this.symm

/-- A search for a key looks it up among the live records. -/
theorem foundRecord_lookup (w : WellFormedStore E si all) (hftw : si.ftwLastWriteData = none)
    {n : ℕ} (hn : name.byte.IsString n) (hne : nameIsEmpty name = false) :
    foundRecord E si all name guid = .ok
      (lookup (recordKey E si) isOld (name.byte.slice 0 n, guid) (liveRecords all)) := by
  rw [foundRecord_eq w.namesWritten, preferred, lookup]
  congr 2
  refine List.filter_congr fun r hr => ?_
  rw [Bool.eq_iff_iff, keyMatches_iff hftw hn hne (w.isString r hr), decide_eq_true_eq]

theorem HoldsName.isString {r : VariableRecord} (h : HoldsName E si name r)
    (hr : (recordName E si r).byte.IsString (nameSizeOfVariable r.header si.authFlag)) :
    name.byte.IsString (nameSizeOfVariable r.header si.authFlag) :=
  hr.congr fun k hk => (h k hk).symm

theorem HoldsName.notEmpty {r : VariableRecord} (h : HoldsName E si name r)
    (hr : (recordName E si r).byte.IsString (nameSizeOfVariable r.header si.authFlag))
    (hne : nameIsEmpty (recordName E si r) = false) : nameIsEmpty name = false := by
  have hsize := isString_size hr
  have hle : name.byte.le 0 2 = (recordName E si r).byte.le 0 2 :=
    le_congr fun k hk => by simpa using h k (by omega)
  simp only [nameIsEmpty] at hne ⊢
  rw [hle, hne]

theorem HoldsName.key (hftw : si.ftwLastWriteData = none) {r : VariableRecord}
    (h : HoldsName E si name r) :
    (name.byte.slice 0 (nameSizeOfVariable r.header si.authFlag), recordGuid si r)
      = recordKey E si r := by
  rw [recordKey, recordNameBytes_of_none hftw]
  exact Prod.ext (slice_congr fun k hk => by rw [Nat.zero_add, h k hk]) rfl

/-- The search for the key of a live record. -/
theorem foundRecord_holds (w : WellFormedStore E si all) (hftw : si.ftwLastWriteData = none)
    {r : VariableRecord} (hr : r ∈ liveRecords all) (h : HoldsName E si name r) :
    foundRecord E si all name (recordGuid si r)
      = .ok (lookup (recordKey E si) isOld (recordKey E si r) (liveRecords all)) := by
  rw [foundRecord_lookup w hftw (h.isString (w.isString r hr))
    (h.notEmpty (w.isString r hr) (w.notEmpty r hr)), h.key hftw]

theorem recordGivesWay_eq (w : WellFormedStore E si all) (W : StoreWalk E si all e)
    (hftw : si.ftwLastWriteData = none) {r : VariableRecord} (hr : r ∈ liveRecords all) :
    recordGivesWay E si all r
      = .ok (superseded (recordKey E si) isOld (liveRecords all) r) := by
  have hown : HoldsName E si (recordName E si r) r := fun _ _ => rfl
  unfold recordGivesWay
  rw [foundRecord_holds w hftw hr hown]
  rcases hs : superseded (recordKey E si) isOld (liveRecords all) r with _ | _
  · rw [(w.hasVersions W).lookup_current hr hs]
    split_ifs <;> simp [Except.map]
  · obtain ⟨b, hb, hmem, hne⟩ := lookup_superseded hs
    have hold : isInDeletedTransition r.header = true := (superseded_iff.1 hs).1
    have hptr : b.ptr ≠ r.ptr := fun h =>
      hne (W.ptr_inj (liveRecords_mem hmem).1 (liveRecords_mem hr).1 h)
    rw [hb, if_pos hold]
    simp [Except.map, hptr]

/-- The records of `rs` that enumeration returns. -/
def currentRecords (E : BaseVariableEnv) (si : VariableStoreInfo) (all rs : List VariableRecord) :
    List VariableRecord := current (recordKey E si) isOld (liveRecords all) (liveRecords rs)

theorem nextResult_eq (w : WellFormedStore E si all) (W : StoreWalk E si all e)
    (hftw : si.ftwLastWriteData = none) (size : ℕ) : ∀ rs : List VariableRecord,
    (∀ r ∈ rs, r ∈ all) → nextResult E si all size rs =
      match currentRecords E si all rs with
      | [] => .ok (.failed efiNotFound)
      | r :: _ => nameResult E si size r
  | [], _ => rfl
  | r :: rs, hall => by
    have ih := nextResult_eq w W hftw size rs fun x hx => hall x (List.mem_cons_of_mem _ hx)
    by_cases hl : isLive r.header = true
    · have hr : r ∈ liveRecords all := List.mem_filter.2 ⟨hall r List.mem_cons_self, hl⟩
      simp only [nextResult, hl, if_true, recordGivesWay_eq w W hftw hr, currentRecords,
        liveRecords_cons_of_live hl] at ih ⊢
      rcases hs : superseded (recordKey E si) isOld (liveRecords all) r with _ | _
      · simp [current, hs]
      · simpa [current, hs] using ih
    · rw [nextResult, if_neg hl, currentRecords, liveRecords_cons_of_not hl]
      exact ih

end Keys

section Run

/-- Call after call, each with the name and the GUID that the one before has returned in the
buffers, up to the first that returns no name: the keys, and the status of that one. -/
def enumerate (E : BaseVariableEnv) (fuel variableNameSize : ℕ) :
    (calls : ℕ) → Pointer → EfiGuid → BaseVariableState → List VariableKey × Option EfiStatus
  | 0, _, _, _ => ([], none)
  | calls + 1, name, guid, s =>
    match baseGetNextVariableName E fuel (some variableNameSize) (some name) (some guid) s with
    | (.ok ⟨_, _, some bytes, some guid⟩, s) =>
      let name := ⟨name.address, name.byte.write 0 bytes.length (bufferCells bytes)⟩
      let rest := enumerate E fuel variableNameSize calls name guid s
      ((bytes, guid) :: rest.1, rest.2)
    | (.ok res, _) => ([], some res.status)
    | (.error _, _) => ([], none)

/-- `BaseGetVariable` finds a variable of this name and GUID. -/
def Findable (E : BaseVariableEnv) (fuel : ℕ) (s : BaseVariableState) (key : VariableKey) : Prop :=
  (bufferCells key.1).IsString key.1.length ∧ nameIsEmpty ⟨0, bufferCells key.1⟩ = false
    ∧ ∃ res, (baseGetVariable E fuel (some ⟨0, bufferCells key.1⟩) (some key.2) true
        (some (2 ^ 32)) true s).1 = .ok res
      ∧ res.status = efiSuccess

/-- From the empty name on, every name and GUID that can be found is returned once, and then
`EFI_NOT_FOUND`. -/
def EnumeratesAll (E : BaseVariableEnv) (fuel : ℕ) (all : List VariableRecord) : Prop :=
  ∀ s, CallsReached E fuel s → ∀ (name : Pointer) (guid : EfiGuid) (size calls : ℕ),
    nameIsEmpty name = true →
    (∀ r ∈ liveRecords all, nameSizeOfVariable r.header (nvVariableStore E).authFlag ≤ size) →
    all.length < calls →
    ∃ keys, enumerate E fuel size calls name guid s = (keys, some efiNotFound) ∧ keys.Nodup
      ∧ ∀ key, key ∈ keys ↔ Findable E fuel s key

variable {E : BaseVariableEnv} {all : List VariableRecord} {e : ℕ} {name : Pointer}
  {guid : EfiGuid} {fuel size : ℕ} {s : BaseVariableState}

theorem bufferCells_slice {m : Cells UInt8} {a n k : ℕ} (h : k < n) :
    bufferCells (m.slice a n) k = m (a + k) := by
  simp [bufferCells, slice, h]

theorem currentRecords_cons {si : VariableStoreInfo} {rs cs : List VariableRecord}
    {c : VariableRecord} (h : currentRecords E si all rs = c :: cs) :
    ∃ xs ys, rs = xs ++ c :: ys ∧ currentRecords E si all ys = cs
      ∧ superseded (recordKey E si) isOld (liveRecords all) c = false := by
  have heq (l : List VariableRecord) : currentRecords E si all l
      = l.filter fun r => ! superseded (recordKey E si) isOld (liveRecords all) r
        && isLive r.header := List.filter_filter
  rw [heq] at h
  obtain ⟨xs, ys, rfl, -, hc, hys⟩ := List.filter_eq_cons_iff.1 h
  exact ⟨xs, ys, rfl, (heq ys).trans hys, by simpa using (Bool.and_eq_true_iff.1 hc).1⟩

/-- The buffer after a call that returned the name of a record. -/
theorem holdsName_write (hftw : (nvVariableStore E).ftwLastWriteData = none) (r : VariableRecord) :
    HoldsName E (nvVariableStore E)
      ⟨name.address, name.byte.write 0 (recordNameBytes E (nvVariableStore E) r).1.length
        (bufferCells (recordNameBytes E (nvVariableStore E) r).1)⟩ r := fun k hk => by
  rw [recordNameBytes_of_none hftw, length_slice]
  have hw : (name.byte.write 0 (nameSizeOfVariable r.header (nvVariableStore E).authFlag)
      (bufferCells ((recordName E (nvVariableStore E) r).byte.slice 0
        (nameSizeOfVariable r.header (nvVariableStore E).authFlag)))) (0 + k) = _ := write_add hk
  rw [bufferCells_slice hk, Nat.zero_add] at hw
  exact hw

/-- What a call does when these are the records to come. -/
theorem enumerate_step (N : NvStore E all e) (w : WellFormedStore E (nvVariableStore E) all)
    (hftw : (nvVariableStore E).ftwLastWriteData = none)
    (hsize : ∀ r ∈ liveRecords all,
      nameSizeOfVariable r.header (nvVariableStore E).authFlag ≤ size)
    {rs : List VariableRecord} (hrs : ∀ r ∈ rs, r ∈ all) {s' : BaseVariableState} {calls : ℕ}
    (h : baseGetNextVariableName E fuel (some size) (some name) (some guid) s
      = (nextResult E (nvVariableStore E) all size rs, s')) :
    enumerate E fuel size (calls + 1) name guid s =
      match currentRecords E (nvVariableStore E) all rs with
      | [] => ([], some efiNotFound)
      | r :: _ =>
        let rest := enumerate E fuel size calls
          ⟨name.address, name.byte.write 0 (recordNameBytes E (nvVariableStore E) r).1.length
            (bufferCells (recordNameBytes E (nvVariableStore E) r).1)⟩
          (recordGuid (nvVariableStore E) r) s'
        (recordKey E (nvVariableStore E) r :: rest.1, rest.2) := by
  rw [enumerate, h, nextResult_eq w N.walk hftw size rs hrs]
  rcases hc : currentRecords E (nvVariableStore E) all rs with _ | ⟨r, cs⟩
  · rfl
  · obtain ⟨xs, ys, hxy, -, -⟩ := currentRecords_cons hc
    have hmem : r ∈ liveRecords all := by
      have : r ∈ currentRecords E (nvVariableStore E) all rs := by simp [hc]
      obtain ⟨hr, -⟩ := List.mem_filter.1 this
      exact List.mem_filter.2 ⟨hrs r (liveRecords_mem hr).1, (liveRecords_mem hr).2⟩
    have hres : nameResult E (nvVariableStore E) size r = .ok ⟨efiSuccess,
        some (nameSizeOfVariable r.header (nvVariableStore E).authFlag),
        some (recordNameBytes E (nvVariableStore E) r).1,
        some (recordGuid (nvVariableStore E) r)⟩ := by
      unfold nameResult
      simp only []
      rw [if_neg fun h0 => w.namesWritten r hmem h0.1, if_pos (hsize r hmem)]
    simp only [hres]
    rfl

/-- From the key of a record that counts, the keys of those behind it that count. -/
theorem enumerate_from (N : NvStore E all e) (w : WellFormedStore E (nvVariableStore E) all)
    (hftw : (nvVariableStore E).ftwLastWriteData = none) (hf : all.length < fuel)
    (hsize : ∀ r ∈ liveRecords all,
      nameSizeOfVariable r.header (nvVariableStore E).authFlag ≤ size) :
    ∀ (cs : List VariableRecord) (calls : ℕ) (pre post : List VariableRecord) (r : VariableRecord)
      (name : Pointer) (s : BaseVariableState), all = pre ++ r :: post →
      isLive r.header = true →
      superseded (recordKey E (nvVariableStore E)) isOld (liveRecords all) r = false →
      currentRecords E (nvVariableStore E) all post = cs → cs.length < calls →
      HoldsName E (nvVariableStore E) name r →
      Sound E (nvVariableStore E) all e (fun _ => True) s →
      enumerate E fuel size calls name (recordGuid (nvVariableStore E) r) s
        = (cs.map (recordKey E (nvVariableStore E)), some efiNotFound)
  | _, 0, _, _, _, _, _, _, _, _, _, hc, _, _ => by omega
  | cs, calls + 1, pre, post, r, name, s, hall, hl, hs, hcs, hc, hname, hsound => by
    have hr : r ∈ liveRecords all := List.mem_filter.2 ⟨by simp [hall], hl⟩
    have hfound : foundRecord E (nvVariableStore E) all name (recordGuid (nvVariableStore E) r)
        = .ok (some r) := by
      rw [foundRecord_holds w hftw hr hname, (w.hasVersions N.walk).lookup_current hr hs]
    have hne := hname.notEmpty (w.isString r hr) (w.notEmpty r hr)
    obtain ⟨res, s', hres, hsound', hmatch⟩ := baseGetNextVariableName_eq N storeReads_true
      (keyReads_true name _) hf hsound size
    rw [hfound] at hmatch
    obtain ⟨pre', post', hall', rfl⟩ := hmatch
    obtain rfl : post' = post :=
      (List.cons.inj ((N.walk_from hall').unique (N.walk_from hall)).1).2
    rw [recordsToCome, hne] at hres
    have hsub : ∀ x ∈ post', x ∈ all := fun x hx => by simp [hall, hx]
    rw [enumerate_step N w hftw hsize hsub hres, hcs]
    cases cs with
    | nil => rfl
    | cons c cs =>
      obtain ⟨xs, ys, hxy, hys, hcur⟩ := currentRecords_cons hcs
      have hlc : isLive c.header = true := by
        have : c ∈ currentRecords E (nvVariableStore E) all post' := by simp [hcs]
        exact (liveRecords_mem (List.mem_filter.1 this).1).2
      have ih := enumerate_from N w hftw hf hsize cs calls (pre ++ r :: xs) ys c
        ⟨name.address, name.byte.write 0 (recordNameBytes E (nvVariableStore E) c).1.length
            (bufferCells (recordNameBytes E (nvVariableStore E) c).1)⟩ s' (by simp [hall, hxy]) hlc
        hcur hys (by simpa using hc) (holdsName_write hftw c) hsound'
      simp only [ih, List.map_cons]

/-- The variables that can be found are those of the live records. -/
theorem findable_iff (N : NvStore E all e) (w : WellFormedStore E (nvVariableStore E) all)
    (hftw : (nvVariableStore E).ftwLastWriteData = none) (hf : all.length < fuel)
    (hs : Sound E (nvVariableStore E) all e (fun _ => True) s) (key : VariableKey) :
    Findable E fuel s key ↔ key ∈ (liveRecords all).map (recordKey E (nvVariableStore E)) := by
  obtain ⟨s', hget, -⟩ := baseGetVariable_eq N storeReads_true
    (keyReads_true ⟨0, bufferCells key.1⟩ key.2) hf hs true (2 ^ 32) true
  have hfound : (bufferCells key.1).IsString key.1.length →
      nameIsEmpty ⟨0, bufferCells key.1⟩ = false →
      foundRecord E (nvVariableStore E) all ⟨0, bufferCells key.1⟩ key.2
        = .ok (lookup (recordKey E (nvVariableStore E)) isOld key (liveRecords all)) :=
    fun hn hne => by
    rw [foundRecord_lookup w hftw hn hne]
    congr 2
    refine Prod.ext (List.ext_getElem (by simp) fun k hk _ => ?_) rfl
    simp only [length_slice] at hk
    simp [slice, bufferCells, hk]
  rw [Findable, hget]
  constructor
  · rintro ⟨hn, hne, res, hres, hstatus⟩
    simp only [hne, hfound hn hne, Bool.false_eq_true, if_false, Except.map,
      Except.ok.injEq] at hres
    rcases hl : lookup (recordKey E (nvVariableStore E)) isOld key (liveRecords all) with _ | r
    · rw [hl] at hres
      subst hres
      exact absurd hstatus (encodeError_ne_success 14)
    · obtain ⟨hr, hkey⟩ := List.mem_filter.1 (pick_mem hl)
      exact List.mem_map.2 ⟨r, hr, by simpa using hkey⟩
  · intro hmem
    obtain ⟨r, hr, rfl⟩ := List.mem_map.1 hmem
    have hhold : HoldsName E (nvVariableStore E)
        ⟨0, bufferCells (recordKey E (nvVariableStore E) r).1⟩ r := fun k hk => by
      simp only [recordKey, recordNameBytes_of_none hftw]
      rw [bufferCells_slice hk, Nat.zero_add]
    have hn := hhold.isString (w.isString r hr)
    have hlen : (recordKey E (nvVariableStore E) r).1.length
        = nameSizeOfVariable r.header (nvVariableStore E).authFlag := by
      simp [recordKey, recordNameBytes_of_none hftw]
    have hne := hhold.notEmpty (w.isString r hr) (w.notEmpty r hr)
    obtain ⟨a, ha⟩ : ∃ a, lookup (recordKey E (nvVariableStore E)) isOld
        (recordKey E (nvVariableStore E) r) (liveRecords all) = some a := by
      rcases hl : lookup (recordKey E (nvVariableStore E)) isOld
        (recordKey E (nvVariableStore E) r) (liveRecords all) with _ | a
      · have := List.filter_eq_nil_iff.1 (pick_eq_none.1 hl) r hr
        simp at this
      · exact ⟨a, rfl⟩
    rw [hlen]
    refine ⟨hn, hne, _, by rw [hne, hfound (hlen ▸ hn) hne, ha]; rfl, ?_⟩
    have hd := (dataSizeOfVariable_lt a.header (nvVariableStore E).authFlag).le
    simp only [getResult, if_pos hd, if_true]

/-- What the calls return from the empty name on. -/
theorem enumerate_empty (N : NvStore E all e) (w : WellFormedStore E (nvVariableStore E) all)
    (hftw : (nvVariableStore E).ftwLastWriteData = none) (hf : all.length < fuel)
    (hsize : ∀ r ∈ liveRecords all,
      nameSizeOfVariable r.header (nvVariableStore E).authFlag ≤ size)
    (hs : Sound E (nvVariableStore E) all e (fun _ => True) s) {calls : ℕ}
    (hcalls : all.length < calls) (hn : nameIsEmpty name = true) (guid : EfiGuid) :
    match pick isOld (liveRecords all) with
    | none => enumerate E fuel size calls name guid s = ([], some efiNotFound)
    | some r => ∃ pre post, all = pre ++ r :: post
      ∧ enumerate E fuel size calls name guid s
        = ((currentRecords E (nvVariableStore E) all (r :: post)).map
          (recordKey E (nvVariableStore E)), some efiNotFound) := by
  have hfound : foundRecord E (nvVariableStore E) all name guid
      = .ok (pick isOld (liveRecords all)) := by
    rw [foundRecord_eq w.namesWritten, preferred,
      List.filter_eq_self.2 fun r _ => by simp [keyMatches, hn]]
  obtain ⟨res, s', hres, hsound', hmatch⟩ := baseGetNextVariableName_eq N storeReads_true
    (keyReads_true name guid) hf hs size
  obtain ⟨calls, rfl⟩ := Nat.exists_eq_add_of_lt hcalls
  rw [hfound] at hmatch
  rcases hp : pick isOld (liveRecords all) with _ | r <;> rw [hp] at hmatch
  · obtain rfl : res = .ok (.failed efiNotFound) := hmatch
    simp only [enumerate, hres]
    rfl
  · obtain ⟨pre, post, hall, rfl⟩ := hmatch
    refine ⟨pre, post, hall, ?_⟩
    have hr := liveRecords_mem (pick_mem hp)
    have hcur : superseded (recordKey E (nvVariableStore E)) isOld (liveRecords all) r = false :=
      pick_not_superseded (w.hasVersions N.walk).nodup hp
    have hcons : currentRecords E (nvVariableStore E) all (r :: post)
        = r :: currentRecords E (nvVariableStore E) all post := by
      simp [currentRecords, current, liveRecords_cons_of_live hr.2, hcur]
    have hsub : ∀ x ∈ r :: post, x ∈ all := fun x hx => hall ▸ List.mem_append_right _ hx
    have hlen : (currentRecords E (nvVariableStore E) all post).length < all.length + calls := by
      have h1 := List.length_filter_le (fun a => ! superseded (recordKey E (nvVariableStore E))
        isOld (liveRecords all) a) (liveRecords post)
      have h2 := List.length_filter_le (fun r : VariableRecord => isLive r.header) post
      have h3 : all.length = pre.length + (post.length + 1) := by simp [hall]
      simp only [currentRecords, current, liveRecords] at h1 ⊢
      omega
    rw [recordsToCome, hn] at hres
    rw [enumerate_step N w hftw hsize hsub hres, hcons]
    have ih := enumerate_from N w hftw hf hsize _ (all.length + calls) pre post r
      ⟨name.address, name.byte.write 0 (recordNameBytes E (nvVariableStore E) r).1.length
        (bufferCells (recordNameBytes E (nvVariableStore E) r).1)⟩ s' hall hr.2 hcur rfl hlen
      (holdsName_write hftw r) hsound'
    simp only [ih, List.map_cons]

/-- Enumeration is complete just when every in-transition variable that has no added record
comes behind some added record, or is alone in the store. -/
theorem enumeratesAll_iff (N : NvStore E all e)
    (w : WellFormedStore E (nvVariableStore E) all)
    (hftw : (nvVariableStore E).ftwLastWriteData = none) (hf : all.length < fuel) :
    EnumeratesAll E fuel all
      ↔ OldBehindNew (recordKey E (nvVariableStore E)) isOld (liveRecords all) := by
  have hv := w.hasVersions N.walk
  have hkeys := hv.nodup_keys
  rcases hp : pick isOld (liveRecords all) with _ | r
  · have hnil := pick_eq_none.1 hp
    refine ⟨fun _ pre a post h => by simp [hnil] at h, ?_⟩
    intro _ s hs name guid size calls hn hsize hcalls
    have h := enumerate_empty N w hftw hf hsize (hs.sound N hf) hcalls hn guid
    rw [hp] at h
    refine ⟨[], h, List.nodup_nil, fun key => ?_⟩
    rw [findable_iff N w hftw hf (hs.sound N hf), hnil, List.map_nil]
  · have hsplit {pre post : List VariableRecord} (hall : all = pre ++ r :: post) :
        liveRecords all = liveRecords pre ++ r :: liveRecords post
          ∧ current (recordKey E (nvVariableStore E)) isOld (liveRecords all) (liveRecords all)
            = currentRecords E (nvVariableStore E) all pre
              ++ currentRecords E (nvVariableStore E) all (r :: post) := by
      have hr := (liveRecords_mem (pick_mem hp)).2
      have h : liveRecords all = liveRecords pre ++ r :: liveRecords post := by
        rw [← liveRecords_cons_of_live hr, hall]
        exact List.filter_append _ _
      refine ⟨h, ?_⟩
      simp only [currentRecords, liveRecords_cons_of_live hr]
      rw [current, current, current, ← List.filter_append, ← h]
    constructor
    · intro hcomplete
      have hempty : nameIsEmpty ⟨0, fun _ => 0⟩ = true := by decide
      have hsize : ∀ r ∈ liveRecords all,
          nameSizeOfVariable r.header (nvVariableStore E).authFlag ≤ 2 ^ 32 :=
        fun r _ => (nameSizeOfVariable_lt _ _).le
      obtain ⟨keys, henum, -, hmem⟩ := hcomplete .boot .start ⟨0, fun _ => 0⟩ 0 (2 ^ 32)
        (all.length + 1) hempty hsize (Nat.lt_succ_self _)
      have h := enumerate_empty N w hftw hf hsize sound_boot (Nat.lt_succ_self _) hempty 0
      rw [hp] at h
      obtain ⟨pre, post, hall, h⟩ := h
      obtain rfl := (Prod.mk.inj (henum.symm.trans h)).1
      obtain ⟨hlive, hcur⟩ := hsplit hall
      refine (current_before_pick hv.nodup hp hlive).1
        (List.eq_nil_iff_forall_not_mem.2 fun c hc => ?_)
      have hc' : c ∈ currentRecords E (nvVariableStore E) all pre := hc
      have hfind : Findable E fuel .boot (recordKey E (nvVariableStore E) c) :=
        (findable_iff N w hftw hf sound_boot _).2 (mem_current_keys.1
          (List.mem_map_of_mem (hcur ▸ List.mem_append_left _ hc')))
      rw [hcur, List.map_append] at hkeys
      exact List.disjoint_of_nodup_append hkeys (List.mem_map_of_mem hc') ((hmem _).2 hfind)
    · intro hcond s hs name guid size calls hn hsize hcalls
      have h := enumerate_empty N w hftw hf hsize (hs.sound N hf) hcalls hn guid
      rw [hp] at h
      obtain ⟨pre, post, hall, h⟩ := h
      obtain ⟨hlive, hcur⟩ := hsplit hall
      have hpre : currentRecords E (nvVariableStore E) all pre = [] :=
        (current_before_pick hv.nodup hp hlive).2 hcond
      rw [hpre, List.nil_append] at hcur
      refine ⟨_, h, hcur ▸ hkeys, fun key => ?_⟩
      rw [findable_iff N w hftw hf (hs.sound N hf), ← hcur]
      exact mem_current_keys

end Run

section Example

theorem updatedStore_wellFormed :
    WellFormedStore updatedEnv (nvVariableStore updatedEnv) updatedStore.1 :=
  ⟨by decide +kernel, by decide +kernel, by decide +kernel⟩

theorem enumeratesAll_iff_updated :
    EnumeratesAll updatedEnv 10 updatedStore.1
      ↔ OldBehindNew (recordKey updatedEnv (nvVariableStore updatedEnv)) isOld
        (liveRecords updatedStore.1) :=
  enumeratesAll_iff (nvStore_of_checked (Option.some_get _).symm) updatedStore_wellFormed
    (Option.isNone_iff_eq_none.1 (by decide +kernel)) (by decide +kernel)

/-- `A` in transition with nothing to replace it, then `B`. -/
def loneEnv : BaseVariableEnv :=
  smallEnv (variableBytes 0x3e [0x41] 1 [1] ++ variableBytes 0x3f [0x42] 1 [2]) [] 0

def loneStore : List VariableRecord × ℕ := (checkedStore loneEnv 10).get (by decide +kernel)

/-- `A` can be found, and no call returns it. -/
theorem enumerate_skips_lone :
    NvStore loneEnv loneStore.1 loneStore.2
      ∧ WellFormedStore loneEnv (nvVariableStore loneEnv) loneStore.1
      ∧ ¬ EnumeratesAll loneEnv 10 loneStore.1 := by
  refine ⟨nvStore_of_checked (Option.some_get _).symm,
    ⟨by decide +kernel, by decide +kernel, by decide +kernel⟩, fun h => ?_⟩
  obtain ⟨keys, henum, -, hmem⟩ := h .boot .start ⟨0, fun _ => 0⟩ 0 100 10 (by decide)
    (by decide +kernel) (by decide +kernel)
  have hkeys : enumerate loneEnv 10 100 10 ⟨0, fun _ => 0⟩ 0 .boot
      = ([([0x42, 0, 0, 0], 1)], some efiNotFound) := by decide +kernel
  have hget : ((baseGetVariable loneEnv 10 (some ⟨0, bufferCells [0x41, 0, 0, 0]⟩) (some 1) true
      (some (2 ^ 32)) true .boot).1.toOption.map fun res => res.status) = some efiSuccess := by
    decide +kernel
  have hfind : Findable loneEnv 10 .boot ([0x41, 0, 0, 0], 1) := by
    refine ⟨by decide +kernel, by decide +kernel, ?_⟩
    rcases hr : (baseGetVariable loneEnv 10 (some ⟨0, bufferCells [0x41, 0, 0, 0]⟩) (some 1) true
      (some (2 ^ 32)) true .boot).1 with halt | res <;> rw [hr] at hget
    · simp [Except.toOption] at hget
    · exact ⟨res, rfl, by simpa [Except.toOption] using hget⟩
  obtain rfl := (Prod.mk.inj (henum.symm.trans hkeys)).1
  have := (hmem _).2 hfind
  simp at this

end Example

end Edk2Rk3576
