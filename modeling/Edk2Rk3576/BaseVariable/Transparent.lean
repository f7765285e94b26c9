import Edk2Rk3576.BaseVariable.Split

/-!
# The calls do not see the split

Over a split store the calls return what they return over the joined one, as long as every live
record before the split has its name and its data begin before it, and no two names that the split
cuts are compared. A record in transition whose name is cut is the exception: it may not be
found by its own name, but then it does not give way either.
-/

namespace Edk2Rk3576

open Cells Walk ScanEnd

section Scan

variable {cmp cmp' : VariableRecord → Except Halt Bool}

theorem scan_map {f : VariableRecord → VariableRecord} :
    ∀ {rs : List VariableRecord} {d : Option VariableRecord},
      (∀ r ∈ rs, isLive (f r).header = isLive r.header
        ∧ isInDeletedTransition (f r).header = isInDeletedTransition r.header) →
      (∀ r ∈ liveRecords rs, cmp' (f r) = cmp r) →
      scan cmp' (rs.map f) (d.map f) = (scan cmp rs d).map (Sum.map f (Option.map f))
  | [], d, _, _ => rfl
  | r :: rs, d, hf, hc => by
    have hr := hf r List.mem_cons_self
    have ih {d : Option VariableRecord} (h : ∀ x ∈ liveRecords rs, cmp' (f x) = cmp x) :=
      scan_map (d := d) (fun x hx => hf x (List.mem_cons_of_mem _ hx)) h
    simp only [List.map_cons, scan, hr]
    by_cases hl : isLive r.header = true
    · rw [liveRecords_cons_of_live hl] at hc
      have ih {d : Option VariableRecord} := ih (d := d) fun x hx => hc x (List.mem_cons_of_mem _ hx)
      rw [if_pos hl, if_pos hl, hc r List.mem_cons_self]
      rcases cmp r with halt | _ | _
      · rfl
      · exact ih
      · split_ifs
        · exact ih (d := some r)
        · rfl
    · rw [liveRecords_cons_of_not hl] at hc
      rw [if_neg hl, if_neg hl]
      exact ih hc

theorem scan_congr {rs : List VariableRecord} {d : Option VariableRecord}
    (h : ∀ r ∈ liveRecords rs, cmp' r = cmp r) : scan cmp' rs d = scan cmp rs d := by
  have := scan_map (f := id) (d := d) (fun _ _ => ⟨rfl, rfl⟩) h
  rcases hs : scan cmp rs d <;> simp_all [Except.map]

/-- A scan that returns no record past the last one starts with none: it passed a match. -/
theorem old_of_scan : ∀ {rs : List VariableRecord} {d : Option VariableRecord}
    {x : VariableRecord}, scan cmp rs d = .ok (.inr (some x)) →
      (x ∈ liveRecords rs ∧ isOld x = true ∧ cmp x = .ok true) ∨ d = some x
  | [], d, x, h => .inr (by simpa [scan] using h)
  | r :: rs, d, x, h => by
    rw [scan] at h
    by_cases hl : isLive r.header = true
    · rw [if_pos hl] at h
      rw [liveRecords_cons_of_live hl]
      have lift {d : Option VariableRecord} (h : scan cmp rs d = .ok (.inr (some x))) :
          (x ∈ r :: liveRecords rs ∧ isOld x = true ∧ cmp x = .ok true) ∨ d = some x :=
        (old_of_scan h).imp_left fun h => ⟨List.mem_cons_of_mem _ h.1, h.2⟩
      rcases hc : cmp r with halt | _ | _ <;> simp only [hc] at h
      · cases h
      · exact lift h
      · split_ifs at h with hd
        · rcases lift h with h | h
          · exact .inl h
          · obtain rfl := Option.some.inj h
            exact .inl ⟨List.mem_cons_self, hd, hc⟩
        · cases h
    · rw [if_neg hl] at h
      rw [liveRecords_cons_of_not hl]
      exact old_of_scan h

/-- Whether a scan from the record `a` returns another one does not depend on `a`. -/
theorem scan_seed {p : VariableRecord → Bool} {a : VariableRecord} (hp : p a = false) :
    ∀ rs : List VariableRecord, ((scan cmp rs (some a)).map hit).map (Option.any p)
      = ((scan cmp rs none).map hit).map (Option.any p)
  | [] => by simp [scan, Except.map, hit, hp]
  | r :: rs => by
    have ih := scan_seed hp rs
    rw [scan, scan]
    by_cases hl : isLive r.header = true
    · rw [if_pos hl, if_pos hl]
      rcases cmp r with halt | _ | _
      · rfl
      · exact ih
      · split_ifs <;> rfl
    · rw [if_neg hl, if_neg hl]
      exact ih

/-- Two comparisons that differ on the in-transition record `a` only, which one of them finds, and
that find no record in transition before it, find another record or not alike. -/
theorem scan_other {pre post : List VariableRecord} {a : VariableRecord} {b b' : Bool}
    (hold : isOld a = true) (hpre : ∀ r ∈ liveRecords pre, cmp' r = cmp r)
    (hpost : ∀ r ∈ liveRecords post, cmp' r = cmp r)
    (hnone : ∀ r ∈ liveRecords pre, isOld r = true → cmp r ≠ .ok true)
    (ha : cmp a = .ok b) (ha' : cmp' a = .ok b') :
    ((scan cmp' (pre ++ a :: post) none).map hit).map (Option.any fun r => r.ptr != a.ptr)
      = ((scan cmp (pre ++ a :: post) none).map hit).map (Option.any fun r => r.ptr != a.ptr) := by
  have hself (b : Bool) : ((scan cmp post (if b then some a else none)).map hit).map
      (Option.any fun r => r.ptr != a.ptr)
      = ((scan cmp post none).map hit).map (Option.any fun r => r.ptr != a.ptr) := by
    cases b
    · rfl
    · exact scan_seed (by simp) post
  have hstep {cmp : VariableRecord → Except Halt Bool} {b : Bool} (ha : cmp a = .ok b) :
      scan cmp (a :: post) none = scan cmp post (if b then some a else none) := by
    have hd : isInDeletedTransition a.header = true := hold
    have hl : isLive a.header = true := by
      unfold isLive
      rw [Bool.or_eq_true]
      exact .inr hd
    rw [scan, if_pos hl, ha]
    cases b
    · rfl
    · exact if_pos hd
  rw [scan_append, scan_append, scan_congr hpre]
  rcases hs : scan cmp pre none with halt | r | _ | r
  · rfl
  · rfl
  · simp only [hstep ha, hstep ha', scan_congr hpost, hself]
  · obtain ⟨hr, hro, hc⟩ := (old_of_scan hs).resolve_right (by simp)
    exact absurd hc (hnone r hr hro)

end Scan

section Names

variable {E : BaseVariableEnv} {si : VariableStoreInfo} {a n : ℕ}

/-- The split cuts the name at `a`, taken with this size. -/
def nameCut (si : VariableStoreInfo) (a n : ℕ) : Prop :=
  ∃ ftw ∈ si.ftwLastWriteData, a < ftw.targetAddress ∧ ftw.targetAddress < toUintn (a + n)

/-- `p'` has the bytes that the split store has for the name `p`. -/
structure NameJoined (E : BaseVariableEnv) (si : VariableStoreInfo) (n : ℕ) (p p' : Pointer) :
    Prop where
  plain : ¬ nameCut si p.address n → ∀ k < n, p.byte k = p'.byte k
  cut : ∀ ftw ∈ si.ftwLastWriteData, p.address < ftw.targetAddress →
    ftw.targetAddress < toUintn (p.address + n) →
    (∀ k < ftw.targetAddress - p.address, p.byte k = p'.byte k)
      ∧ ∀ k < n - (ftw.targetAddress - p.address),
        E.mem (ftw.spareAddress + k) = p'.byte (ftw.targetAddress - p.address + k)

theorem comparePartial_joined {ftw : FtwLastWriteData} {p p' q q' : Pointer}
    (hf : si.ftwLastWriteData = some ftw) (hp : NameJoined E si n p p')
    (hq : NameJoined E si n q q')
    (hc : p.address < ftw.targetAddress ∧ ftw.targetAddress < toUintn (p.address + n))
    (hnot : ¬ nameCut si q.address n) (s : BaseVariableState) :
    (comparePartial E ftw p q n s).1 = decide (∀ k < n, p'.byte k = q'.byte k) := by
  obtain ⟨hlow, hhigh⟩ := hp.cut ftw hf hc.1 hc.2
  have hother := hq.plain hnot
  have hle : toUintn (p.address + n) ≤ p.address + n := Nat.mod_le _ _
  have hiff : (∀ k < n, p'.byte k = q'.byte k)
      ↔ (∀ k < ftw.targetAddress - p.address, p.byte k = q.byte k)
        ∧ ∀ k < n - (ftw.targetAddress - p.address),
          E.mem (ftw.spareAddress + k) = q.byte (ftw.targetAddress - p.address + k) := by
    constructor
    · refine fun h => ⟨fun k hk => ?_, fun k hk => ?_⟩
      · rw [hlow k hk, hother k (by omega), h k (by omega)]
      · rw [hhigh k hk, hother _ (by omega), h _ (by omega)]
    · rintro ⟨h1, h2⟩ k hk
      by_cases hkl : k < ftw.targetAddress - p.address
      · rw [← hlow k hkl, ← hother k hk, h1 k hkl]
      · obtain ⟨i, rfl⟩ := Nat.exists_eq_add_of_le (not_lt.1 hkl)
        rw [← hhigh i (by omega), ← hother _ hk, h2 i (by omega)]
  rw [Bool.eq_iff_iff, decide_eq_true_iff, hiff]
  unfold comparePartial compareMem
  rcases hd : decide (∀ k < ftw.targetAddress - p.address, p.byte k = q.byte k) with _ | _
  · simp only [hd]
    simp [of_decide_eq_false hd]
  · simp only [hd, decide_eq_true_iff]
    exact (and_iff_right (of_decide_eq_true hd)).symm

/-- The split is not seen in a comparison of two names, unless it cuts both. -/
theorem compareVariableName_joined {p p' q q' : Pointer} (hp : NameJoined E si n p p')
    (hq : NameJoined E si n q q') (hnot : ¬ (nameCut si p.address n ∧ nameCut si q.address n))
    (s : BaseVariableState) :
    (compareVariableName E si p q n s).1 = decide (∀ k < n, p'.byte k = q'.byte k) := by
  have hmem (hp' : ¬ nameCut si p.address n) (hq' : ¬ nameCut si q.address n) :
      (compareMem p q n s).1 = decide (∀ k < n, p'.byte k = q'.byte k) :=
    decide_eq_decide.2 (forall₂_congr fun k hk => by rw [hp.plain hp' k hk, hq.plain hq' k hk])
  unfold compareVariableName
  rcases hf : si.ftwLastWriteData with _ | ftw
  · exact hmem (by simp [nameCut, hf]) (by simp [nameCut, hf])
  · have hcut {a : ℕ} : nameCut si a n ↔ a < ftw.targetAddress
        ∧ ftw.targetAddress < toUintn (a + n) := by simp [nameCut, hf]
    simp only []
    split_ifs with h1 h2
    · exact comparePartial_joined hf hp hq h1 (fun h => hnot ⟨hcut.2 h1, h⟩) s
    · rw [comparePartial_joined hf hq hp h2 (fun h => h1 (hcut.1 h)) s]
      exact decide_eq_decide.2 (forall₂_congr fun k _ => eq_comm)
    · exact hmem (fun h => h1 (hcut.1 h)) fun h => h2 (hcut.1 h)

/-- The names and data that begin in the same part as their record. -/
theorem StoreSplit.joinedPtr_add (S : StoreSplit E si) (hin : InPart E si a) {k : ℕ}
    (h : ∀ ftw ∈ si.ftwLastWriteData, a < ftw.targetAddress → a + k < ftw.targetAddress) :
    InPart E si (a + k) ∧ joinedPtr E (a + k) = joinedPtr E a + k := by
  rcases hin with hin | ⟨hf, hin⟩
  · exact ⟨.inl (by omega), spliceAddress_add S.le_spare (.inr hin)⟩
  · have hk := h _ hf hin
    exact ⟨.inr ⟨hf, hk⟩, spliceAddress_add S.le_spare (.inl hk)⟩

theorem StoreSplit.ftw_eq (S : StoreSplit E si) {ftw : FtwLastWriteData}
    (hf : si.ftwLastWriteData = some ftw) : ftw = E.ftwLastWriteData := by
  rcases S.parts with ⟨h, -⟩ | ⟨h, -⟩
  · simp [hf] at h
  · exact Option.some.inj (hf.symm.trans h)

theorem StoreSplit.nameJoined (S : StoreSplit E si) (hin : InPart E si a) (ha : a < 2 ^ 60)
    (hn : n < 2 ^ 60) :
    NameJoined E si n (pointer E.mem a) (pointer (joinedEnv E).mem (joinedPtr E a)) where
  plain hnot k hk := by
    refine (splice_spliceAddress S.le_spare ?_).symm
    rcases hin with h | ⟨hf, h⟩
    · exact .inr h
    · by_contra hge
      exact hnot ⟨_, hf, h, by rw [toUintn_of_lt (by simp only [pointer]; omega)]; simp only [pointer]; omega⟩
  cut ftw hf h1 h2 := by
    obtain rfl := S.ftw_eq hf
    simp only [pointer, joinedEnv, joinedPtr] at h1 h2 ⊢
    rw [toUintn_of_lt (by omega)] at h2
    rw [spliceAddress_of_lt h1]
    have h := (forall_splice (m := E.mem) (s := E.ftwLastWriteData.spareAddress) h1.le h2.le
      (f := fun k => E.mem.splice E.ftwLastWriteData.targetAddress
        E.ftwLastWriteData.spareAddress (a + k))).1 fun _ _ => rfl
    exact h

/-- A range that starts in a part of the store is copied as from the joined one. -/
theorem StoreSplit.getVariableNameOrData (S : StoreSplit E si) (hin : InPart E si a)
    (ha : a < 2 ^ 60) (hn : n < 2 ^ 60) (s s' : BaseVariableState) :
    (getVariableNameOrData E si a n s).1
      = (getVariableNameOrData (joinedEnv E) (joinedStore E si) (joinedPtr E a) n s').1 := by
  have hjoined : (Edk2Rk3576.getVariableNameOrData (joinedEnv E) (joinedStore E si)
      (joinedPtr E a) n s').1 = (joinedEnv E).mem.slice (joinedPtr E a) n := rfl
  rw [hjoined]
  have hname := S.nameJoined hin ha hn
  have hplain (hnot : ¬ nameCut si a n) :
      E.mem.slice a n = (joinedEnv E).mem.slice (joinedPtr E a) n :=
    slice_congr (hname.plain hnot)
  unfold Edk2Rk3576.getVariableNameOrData
  rcases hf : si.ftwLastWriteData with _ | ftw
  · exact hplain (by simp [nameCut, hf])
  · obtain rfl := S.ftw_eq hf
    simp only []
    split_ifs with hc
    · rw [toUintn_of_lt (by omega)] at hc
      rw [joinedPtr, spliceAddress_of_lt hc.1]
      exact (slice_splice hc.1.le hc.2.le).symm
    · exact hplain (by simpa [nameCut, hf] using hc)

end Names

section Records

/-- A live record before the split has its name and its data begin there. A name that the split
cuts is compared with no other one that it cuts, and is the first in transition of its key. -/
structure BeforeSplit (E : BaseVariableEnv) (si : VariableStoreInfo) (all : List VariableRecord) :
    Prop where
  name : ∀ r ∈ liveRecords all, ∀ ftw ∈ si.ftwLastWriteData, r.ptr < ftw.targetAddress →
    getVariableNamePtr r.ptr si.authFlag < ftw.targetAddress
  data : ∀ r ∈ liveRecords all, ∀ ftw ∈ si.ftwLastWriteData, r.ptr < ftw.targetAddress →
    dataSizeOfVariable r.header si.authFlag = 0
      ∨ getVariableDataPtr r.ptr r.header si.authFlag < ftw.targetAddress
  oneCut : ∀ a ∈ liveRecords all, isOld a = true → ∀ r ∈ liveRecords all, r ≠ a →
    recordGuid si r = recordGuid si a →
    ¬ (nameCut si (recordName E si a).address (nameSizeOfVariable r.header si.authFlag)
      ∧ nameCut si (recordName E si r).address (nameSizeOfVariable r.header si.authFlag))
  firstOld : ∀ a ∈ liveRecords all, isOld a = true →
    nameCut si (recordName E si a).address (nameSizeOfVariable a.header si.authFlag) →
    ∀ r ∈ liveRecords all, isOld r = true → r.ptr < a.ptr →
      recordMatches E si (recordName E si a) (recordGuid si a) r ≠ .ok true

variable {E : BaseVariableEnv} {si : VariableStoreInfo} {all : List VariableRecord}
  {r : VariableRecord} {name : Pointer} {guid : EfiGuid}

namespace JoinedRecords

theorem guid_joined (J : JoinedRecords E si all) (hr : r ∈ all) :
    recordGuid (joinedStore E si) (joinedRecord E r) = recordGuid si r :=
  (J.same r hr).getVendorGuid.symm

theorem name_joined (J : JoinedRecords E si all) (B : BeforeSplit E si all)
    (hr : r ∈ liveRecords all) :
    InPart E si (getVariableNamePtr r.ptr si.authFlag)
      ∧ joinedPtr E (getVariableNamePtr r.ptr si.authFlag)
        = getVariableNamePtr (joinedRecord E r).ptr (joinedStore E si).authFlag := by
  have hmem := (liveRecords_mem hr).1
  have hlt := J.lt r hmem
  have hname := B.name r hr
  have hle : joinedPtr E r.ptr ≤ r.ptr := by
    have hts := J.split.le_spare
    unfold joinedPtr spliceAddress
    split_ifs <;> omega
  rw [getVariableNamePtr_eq (by omega)] at hname ⊢
  rw [getVariableNamePtr_eq (show (joinedRecord E r).ptr < 2 ^ 56 from by
    simp only [joinedRecord]; omega)]
  exact J.split.joinedPtr_add (J.part r hmem) hname

theorem recordName_joined (J : JoinedRecords E si all) (B : BeforeSplit E si all)
    (hr : r ∈ liveRecords all) {n : ℕ} (hn : n < 2 ^ 60) :
    NameJoined E si n (recordName E si r)
      (recordName (joinedEnv E) (joinedStore E si) (joinedRecord E r)) := by
  obtain ⟨hin, heq⟩ := J.name_joined B hr
  have hlt := J.lt r (liveRecords_mem hr).1
  have hsize := getVariableHeaderSize_bounds si.authFlag
  have h := J.split.nameJoined hin (by rw [getVariableNamePtr_eq (by omega)]; omega) hn
  rw [heq] at h
  exact h

/-- No first character is cut. -/
theorem nameIsEmpty_joined (J : JoinedRecords E si all) (B : BeforeSplit E si all)
    (hr : r ∈ liveRecords all) :
    nameIsEmpty (recordName (joinedEnv E) (joinedStore E si) (joinedRecord E r))
      = nameIsEmpty (recordName E si r) := by
  have hmem := (liveRecords_mem hr).1
  have hlt := J.lt r hmem
  have hal := J.aligned r hmem
  have ht := J.split.aligned
  have hsize : getVariableHeaderSize si.authFlag % 4 = 0 := by
    cases si.authFlag <;> rfl
  have hb := getVariableHeaderSize_bounds si.authFlag
  have hnot : ¬ nameCut si (recordName E si r).address 2 := by
    rintro ⟨ftw, hf, h1, h2⟩
    obtain rfl := J.split.ftw_eq hf
    simp only [recordName, pointer, getVariableNamePtr_eq (show r.ptr < 2 ^ 56 by omega)] at h1 h2
    rw [toUintn_of_lt (by omega)] at h2
    omega
  unfold nameIsEmpty
  rw [le_congr fun k hk => ?_]
  rw [Nat.zero_add]
  exact ((J.recordName_joined B hr (n := 2) (by omega)).plain hnot k hk).symm

/-- The comparison of a name with that of a record, when the split does not cut both. -/
theorem recordMatches_joined (J : JoinedRecords E si all) (B : BeforeSplit E si all)
    (hr : r ∈ liveRecords all) {name' : Pointer} (hempty : nameIsEmpty name' = nameIsEmpty name)
    (hname : NameJoined E si (nameSizeOfVariable r.header si.authFlag) name name')
    (hnot : recordGuid si r = guid →
      ¬ (nameCut si name.address (nameSizeOfVariable r.header si.authFlag)
        ∧ nameCut si (recordName E si r).address (nameSizeOfVariable r.header si.authFlag))) :
    recordMatches (joinedEnv E) (joinedStore E si) name' guid (joinedRecord E r)
      = recordMatches E si name guid r := by
  have hmem := (liveRecords_mem hr).1
  have hguid : getVendorGuid (joinedRecord E r).header si.authFlag
      = getVendorGuid r.header si.authFlag := (J.same r hmem).getVendorGuid.symm
  have hsize := (J.same r hmem).sizes.1
  have hn := nameSizeOfVariable_lt r.header si.authFlag
  have hcompare (s s' : BaseVariableState) (hg : recordGuid si r = guid) :
      (compareVariableName (joinedEnv E) (joinedStore E si) name'
        (recordName (joinedEnv E) (joinedStore E si) (joinedRecord E r))
        (nameSizeOfVariable r.header si.authFlag) s').1
      = (compareVariableName E si name (recordName E si r)
        (nameSizeOfVariable r.header si.authFlag) s).1 := by
    rw [compareVariableName_joined hname (J.recordName_joined B hr (by omega))
      (hnot hg)]
    rfl
  unfold recordMatches compareWithValidVariable
  have hd : (joinedEnv E).debugAssertEnabled = E.debugAssertEnabled := rfl
  simp only [hempty, joinedStore, hguid, ← hsize, hd]
  split_ifs with he hg hz
  · rfl
  · rfl
  · exact congrArg Except.ok (hcompare _ _ hg.symm)
  · rfl

theorem flags_joined (J : JoinedRecords E si all) :
    ∀ r ∈ all, isLive (joinedRecord E r).header = isLive r.header
      ∧ isInDeletedTransition (joinedRecord E r).header = isInDeletedTransition r.header :=
  fun r hr => ⟨(J.same r hr).isLive.symm, (J.same r hr).isInDeletedTransition.symm⟩

/-- A search that compares alike finds the same record. -/
theorem found_joined (J : JoinedRecords E si all) {name' : Pointer} {guid' : EfiGuid}
    (h : ∀ r ∈ liveRecords all,
      recordMatches (joinedEnv E) (joinedStore E si) name' guid' (joinedRecord E r)
        = recordMatches E si name guid r) :
    foundRecord (joinedEnv E) (joinedStore E si) (all.map (joinedRecord E)) name' guid'
      = (foundRecord E si all name guid).map (Option.map (joinedRecord E)) := by
  have hscan := scan_map (d := none) J.flags_joined h
  rw [Option.map_none] at hscan
  rw [foundRecord, hscan, foundRecord]
  rcases scan (recordMatches E si name guid) all none with halt | r | d <;> rfl

theorem ptr_joined (J : JoinedRecords E si all) {a : VariableRecord} (ha : a ∈ all) (hr : r ∈ all) :
    ((joinedRecord E r).ptr != (joinedRecord E a).ptr) = (r.ptr != a.ptr) := by
  have hinj := spliceAddress_inj (a := r.ptr) (b := a.ptr)
    ((J.part r hr).symm.imp_left And.right) ((J.part a ha).symm.imp_left And.right)
  rw [Bool.eq_iff_iff, bne_iff_ne, bne_iff_ne]
  exact not_congr ⟨hinj, fun h => by simp only [joinedRecord, h]⟩

theorem any_joined (J : JoinedRecords E si all) {a : VariableRecord} (ha : a ∈ all)
    (cmp : VariableRecord → Except Halt Bool) :
    ((scan cmp (all.map (joinedRecord E)) none).map hit).map
        (Option.any fun r => r.ptr != (joinedRecord E a).ptr)
      = ((scan (fun r => cmp (joinedRecord E r)) all none).map hit).map
        (Option.any fun r => r.ptr != a.ptr) := by
  have hscan : scan cmp (all.map (joinedRecord E)) none
      = (scan (fun r => cmp (joinedRecord E r)) all none).map
        (Sum.map (joinedRecord E) (Option.map (joinedRecord E))) :=
    scan_map (d := none) J.flags_joined fun _ _ => rfl
  rw [hscan]
  rcases hs : scan (fun r => cmp (joinedRecord E r)) all none with halt | x
  · rfl
  · have hhit : hit (Sum.map (joinedRecord E) (Option.map (joinedRecord E)) x)
        = (hit x).map (joinedRecord E) := by cases x <;> rfl
    simp only [Except.map, hhit]
    rcases hx : hit x with _ | r
    · rfl
    · have hr := (mem_of_scan _ hs hx).resolve_right (by simp)
      simp only [Option.map_some, Option.any_some, J.ptr_joined ha hr.1]

/-- A record in transition gives way in both stores or in none, also if it is not found by its own
name because the split cuts it. -/
theorem recordGivesWay_joined (J : JoinedRecords E si all) (B : BeforeSplit E si all)
    {a : VariableRecord} (ha : a ∈ liveRecords all) :
    recordGivesWay (joinedEnv E) (joinedStore E si) (all.map (joinedRecord E)) (joinedRecord E a)
      = recordGivesWay E si all a := by
  have hmem := (liveRecords_mem ha).1
  unfold recordGivesWay
  rw [(J.flags_joined a hmem).2, J.guid_joined hmem]
  by_cases hold : isInDeletedTransition a.header = true
  · rw [if_pos hold, if_pos hold, foundRecord, J.any_joined hmem, foundRecord]
    have hsize (r : VariableRecord) : nameSizeOfVariable r.header si.authFlag < 2 ^ 60 := by
      have := nameSizeOfVariable_lt r.header si.authFlag
      omega
    have hother (r : VariableRecord) (hr : r ∈ liveRecords all) (hne : r ≠ a) :
        recordMatches (joinedEnv E) (joinedStore E si)
            (recordName (joinedEnv E) (joinedStore E si) (joinedRecord E a)) (recordGuid si a)
            (joinedRecord E r)
          = recordMatches E si (recordName E si a) (recordGuid si a) r :=
      J.recordMatches_joined B hr (J.nameIsEmpty_joined B ha)
        (J.recordName_joined B ha (hsize r)) (B.oneCut a ha hold r hr hne)
    by_cases hcut : nameCut si (recordName E si a).address
        (nameSizeOfVariable a.header si.authFlag)
    · obtain ⟨pre, post, rfl⟩ := List.append_of_mem hmem
      have hord := List.pairwise_append.1 J.ordered
      have hne : nameSizeOfVariable a.header si.authFlag ≠ 0 := by
        obtain ⟨ftw, -, h1, h2⟩ := hcut
        intro h0
        have := Nat.mod_le (recordName E si a).address (2 ^ 64)
        rw [h0, toUintn] at h2
        omega
      have hlive {rs : List VariableRecord} (hsub : ∀ r ∈ rs, r ∈ pre ++ a :: post)
          {r : VariableRecord} (hr : r ∈ liveRecords rs) : r ∈ liveRecords (pre ++ a :: post) :=
        List.mem_filter.2 ⟨hsub r (liveRecords_mem hr).1, (liveRecords_mem hr).2⟩
      have hpre (r : VariableRecord) (hr : r ∈ liveRecords pre) : r.ptr < a.ptr :=
        hord.2.2 r (liveRecords_mem hr).1 a List.mem_cons_self
      have hpost (r : VariableRecord) (hr : r ∈ liveRecords post) : a.ptr < r.ptr :=
        (List.pairwise_cons.1 hord.2.1).1 r (liveRecords_mem hr).1
      refine scan_other hold (fun r hr => ?_) (fun r hr => ?_) (fun r hr hro => ?_)
        (recordMatches_eq hne) (recordMatches_eq ?_)
      · have := hpre r hr
        exact hother r (hlive (by simp_all) hr) (by rintro rfl; omega)
      · have := hpost r hr
        exact hother r (hlive (by simp_all) hr) (by rintro rfl; omega)
      · exact B.firstOld a ha hold hcut r (hlive (by simp_all) hr) hro (hpre r hr)
      · exact (J.same a hmem).sizes.1 ▸ hne
    · rw [scan_congr fun r hr => ?_]
      by_cases hne : r = a
      · subst hne
        exact J.recordMatches_joined B hr (J.nameIsEmpty_joined B ha)
          (J.recordName_joined B ha (hsize r)) fun _ h => hcut h.1
      · exact hother r hr hne
  · rw [if_neg hold, if_neg hold]

theorem recordNameBytes_joined (J : JoinedRecords E si all) (B : BeforeSplit E si all)
    (hr : r ∈ liveRecords all) :
    (recordNameBytes (joinedEnv E) (joinedStore E si) (joinedRecord E r)).1
      = (recordNameBytes E si r).1 := by
  have hmem := (liveRecords_mem hr).1
  have hlt := J.lt r hmem
  have hsize := getVariableHeaderSize_bounds si.authFlag
  have hn := nameSizeOfVariable_lt r.header si.authFlag
  obtain ⟨hin, hptr⟩ := J.name_joined B hr
  have h := J.split.getVariableNameOrData hin (by rw [getVariableNamePtr_eq (by omega)]; omega)
    (show nameSizeOfVariable r.header si.authFlag < 2 ^ 60 by omega) .boot .boot
  have hauth : (joinedStore E si).authFlag = si.authFlag := rfl
  rw [hptr] at h
  rw [recordNameBytes, recordNameBytes, hauth, ← (J.same r hmem).sizes.1]
  exact h.symm

theorem getVariableNameOrData_zero (E : BaseVariableEnv) (si : VariableStoreInfo) (a : ℕ)
    (s : BaseVariableState) : (getVariableNameOrData E si a 0 s).1 = [] := by
  have hle : toUintn (a + 0) ≤ a := Nat.mod_le _ _
  unfold getVariableNameOrData
  rcases si.ftwLastWriteData with _ | ftw
  · rfl
  · simp only []
    rw [if_neg (by omega)]
    rfl

theorem recordData_joined (J : JoinedRecords E si all) (B : BeforeSplit E si all)
    (hr : r ∈ liveRecords all) :
    (recordData (joinedEnv E) (joinedStore E si) (joinedRecord E r)).1 = (recordData E si r).1 := by
  have hmem := (liveRecords_mem hr).1
  have hlt := J.lt r hmem
  have hsize := getVariableHeaderSize_bounds si.authFlag
  have hn := nameSizeOfVariable_lt r.header si.authFlag
  have hd := dataSizeOfVariable_lt r.header si.authFlag
  have hsizes := (J.same r hmem).sizes
  have hjoined : (joinedStore E si).authFlag = si.authFlag := rfl
  unfold recordData
  rw [hjoined, ← hsizes.2]
  by_cases h0 : dataSizeOfVariable r.header si.authFlag = 0
  · rw [h0, getVariableNameOrData_zero, getVariableNameOrData_zero]
  have hle : (joinedRecord E r).ptr ≤ r.ptr := by
    have hts := J.split.le_spare
    unfold joinedRecord joinedPtr spliceAddress
    simp only []
    split_ifs <;> omega
  have hdata (ftw : FtwLastWriteData) (hf : ftw ∈ si.ftwLastWriteData)
      (h : r.ptr < ftw.targetAddress) := (B.data r hr ftw hf h).resolve_left h0
  rw [getVariableDataPtr_eq (by omega)] at hdata ⊢
  rw [getVariableDataPtr_eq (by omega), ← hsizes.1, Nat.add_assoc, Nat.add_assoc]
  rw [Nat.add_assoc] at hdata
  obtain ⟨hin, hptr⟩ := J.split.joinedPtr_add (J.part r hmem) hdata
  have hp : (joinedRecord E r).ptr = joinedPtr E r.ptr := rfl
  rw [hp, ← hptr]
  exact (J.split.getVariableNameOrData hin (by omega) (by omega) _ _).symm

/-- The record found has its value in the joined store too. -/
theorem getResult_joined (J : JoinedRecords E si all) (B : BeforeSplit E si all)
    {found : Option VariableRecord} (hfound : ∀ r ∈ found, r ∈ liveRecords all)
    (attributes : Bool) (dataSize : ℕ) (data : Bool) :
    getResult (joinedEnv E) (joinedStore E si) attributes dataSize data
        (found.map (joinedRecord E))
      = getResult E si attributes dataSize data found := by
  rcases found with _ | r
  · rfl
  · have hr := hfound r rfl
    have hs := J.same r (liveRecords_mem hr).1
    simp only [Option.map_some, getResult, J.recordData_joined B hr, hs.attributes]
    rw [show (joinedStore E si).authFlag = si.authFlag from rfl, ← hs.sizes.2]

theorem nextResult_joined (J : JoinedRecords E si all) (B : BeforeSplit E si all) (size : ℕ) :
    ∀ rs : List VariableRecord, (∀ r ∈ rs, r ∈ all) →
      nextResult (joinedEnv E) (joinedStore E si) (all.map (joinedRecord E)) size
          (rs.map (joinedRecord E))
        = nextResult E si all size rs
  | [], _ => rfl
  | r :: rs, h => by
    have hmem := h r List.mem_cons_self
    have ih := nextResult_joined J B size rs fun x hx => h x (List.mem_cons_of_mem _ hx)
    rw [List.map_cons, nextResult, nextResult, (J.flags_joined r hmem).1]
    by_cases hl : isLive r.header = true
    · have hr : r ∈ liveRecords all := List.mem_filter.2 ⟨hmem, hl⟩
      have hs := (J.same r hmem).sizes.1
      have hd : (joinedEnv E).debugAssertEnabled = E.debugAssertEnabled := rfl
      have hauth : (joinedStore E si).authFlag = si.authFlag := rfl
      rw [if_pos hl, if_pos hl, J.recordGivesWay_joined B hr]
      rcases recordGivesWay E si all r with halt | _ | _
      · rfl
      · simp only [nameResult, J.recordNameBytes_joined B hr, J.guid_joined hmem, hd, hauth, ← hs]
      · exact ih
    · rw [if_neg hl, if_neg hl]
      exact ih

end JoinedRecords

end Records

section Calls

variable {E : BaseVariableEnv} {all : List VariableRecord} {e fuel : ℕ} {name : Pointer}
  {guid : EfiGuid} {s s' : BaseVariableState}

/-- Over a store that is not there, or not valid, nothing is found. -/
theorem findVariable_invalid (h : (nvVariableStore E).variableStoreHeader ≠ 0 →
    ¬ StoreValid E (nvVariableStore E)) (fuel : ℕ) (name : Pointer) (guid : EfiGuid)
    (s : BaseVariableState) :
    findVariable E fuel name guid s
      = (.ok (efiNotFound, ⟨0, 0, 0⟩, ⟨0, false, none, false⟩),
        initIndexTable E (nvVariableStore E) s) := by
  have hfind (s : BaseVariableState) : ∃ status, efiError status = true
      ∧ findVariableEx E (nvVariableStore E) name guid fuel s = (.ok (status, ⟨0, 0, 0⟩), s) := by
    unfold findVariableEx
    simp only []
    split_ifs with h0 hstatus hsize
    · exact ⟨_, efiError_invalidParameter, rfl⟩
    · exact ⟨_, efiError_encodeError 3, rfl⟩
    · exact ⟨_, efiError_encodeError 14, rfl⟩
    all_goals exact absurd ⟨not_not.1 hstatus, hsize⟩ (h h0)
  obtain ⟨status, herr, hfind⟩ := hfind (initIndexTable E (nvVariableStore E) s)
  simp only [findVariable, findVariableIn, getVariableStore,
    findVariableEx_hob ⟨0, false, none, false⟩ rfl, efiError_invalidParameter, if_true, hfind, herr]

theorem baseGetVariable_invalid (h : (nvVariableStore E).variableStoreHeader ≠ 0 →
    ¬ StoreValid E (nvVariableStore E)) (attributes : Bool) (dataSize : ℕ) (data : Bool) :
    (baseGetVariable E fuel (some name) (some guid) attributes (some dataSize) data s).1
      = .ok (.failed efiNotFound) := by
  have herr : efiError efiNotFound = true := efiError_encodeError 14
  unfold baseGetVariable
  simp only [findVariable_invalid h, herr, if_true]
  split_ifs <;> rfl

theorem baseGetNextVariableName_invalid (h : (nvVariableStore E).variableStoreHeader ≠ 0 →
    ¬ StoreValid E (nvVariableStore E)) (variableNameSize : ℕ) :
    (baseGetNextVariableName E fuel (some variableNameSize) (some name) (some guid) s).1
      = .ok (.failed efiNotFound) := by
  unfold baseGetNextVariableName
  simp only [findVariable_invalid h, true_or, if_true]

/-- The calls return the same over the two flashes, after any calls before. -/
structure CallsAgree (E E' : BaseVariableEnv) (fuel : ℕ) (variableName : Option Pointer) :
    Prop where
  getVariable : ∀ s s', CallsReached E fuel s → CallsReached E' fuel s' →
    ∀ variableGuid attributes dataSize data,
      (baseGetVariable E fuel variableName variableGuid attributes dataSize data s).1
        = (baseGetVariable E' fuel variableName variableGuid attributes dataSize data s').1
  getNextVariableName : ∀ s s', CallsReached E fuel s → CallsReached E' fuel s' →
    ∀ variableNameSize variableGuid,
      (baseGetNextVariableName E fuel variableNameSize variableName variableGuid s).1
        = (baseGetNextVariableName E' fuel variableNameSize variableName variableGuid s').1

/-- Calls without a name, a GUID or a size return at once. -/
theorem callsAgree_of_some {E' : BaseVariableEnv} {variableName : Option Pointer}
    (hget : ∀ name ∈ variableName, ∀ s s', CallsReached E fuel s → CallsReached E' fuel s' →
      ∀ guid attributes dataSize data,
        (baseGetVariable E fuel (some name) (some guid) attributes (some dataSize) data s).1
          = (baseGetVariable E' fuel (some name) (some guid) attributes (some dataSize) data s').1)
    (hnext : ∀ name ∈ variableName, ∀ s s', CallsReached E fuel s → CallsReached E' fuel s' →
      ∀ size guid,
        (baseGetNextVariableName E fuel (some size) (some name) (some guid) s).1
          = (baseGetNextVariableName E' fuel (some size) (some name) (some guid) s').1) :
    CallsAgree E E' fuel variableName where
  getVariable s s' hs hs' variableGuid attributes dataSize data := by
    rcases variableName with _ | name
    · rfl
    rcases variableGuid with _ | guid
    · rfl
    rcases dataSize with _ | dataSize
    · rfl
    exact hget name rfl s s' hs hs' guid attributes dataSize data
  getNextVariableName s s' hs hs' variableNameSize variableGuid := by
    rcases variableName with _ | name
    · rfl
    rcases variableGuid with _ | guid
    · rfl
    rcases variableNameSize with _ | size
    · rfl
    exact hnext name rfl s s' hs hs' size guid

/-- The buffer of the caller is not across the split. -/
def NameApart (si : VariableStoreInfo) (all : List VariableRecord) (name : Pointer) : Prop :=
  ∀ r ∈ liveRecords all, ¬ nameCut si name.address (nameSizeOfVariable r.header si.authFlag)

theorem foundRecord_joined {si : VariableStoreInfo} (J : JoinedRecords E si all)
    (B : BeforeSplit E si all) (hname : NameApart si all name) (guid : EfiGuid) :
    foundRecord (joinedEnv E) (joinedStore E si) (all.map (joinedRecord E)) name guid
      = (foundRecord E si all name guid).map (Option.map (joinedRecord E)) := by
  refine J.found_joined fun r hr => ?_
  have hnot := hname r hr
  exact J.recordMatches_joined B hr rfl ⟨fun _ _ _ => rfl, fun ftw hf h1 h2 =>
    absurd ⟨ftw, hf, h1, h2⟩ hnot⟩ fun _ h => hnot h.1

theorem callsAgree_joined (S : SplitStore E) (N : NvStore E all e)
    (B : BeforeSplit E (nvVariableStore E) all) (hf : all.length < fuel)
    {variableName : Option Pointer}
    (hname : ∀ name ∈ variableName, NameApart (nvVariableStore E) all name) :
    CallsAgree E (joinedEnv E) fuel variableName := by
  obtain ⟨N', J⟩ := S.nvStore N
  have hf' : (all.map (joinedRecord E)).length < fuel := by rwa [List.length_map]
  refine callsAgree_of_some ?_ ?_
  · intro name hn s s' hs hs' guid attributes dataSize data
    obtain ⟨s₁, h₁, -⟩ := baseGetVariable_eq N storeReads_true (keyReads_true name guid) hf
      (hs.sound N hf) attributes dataSize data
    obtain ⟨s₂, h₂, -⟩ := baseGetVariable_eq N' storeReads_true (keyReads_true name guid) hf'
      (hs'.sound N' hf') attributes dataSize data
    rw [h₁, h₂, S.joined, foundRecord_joined J B (hname name hn)]
    split_ifs with he
    · rfl
    rcases hfound : foundRecord E (nvVariableStore E) all name guid with halt | found
    · rfl
    · refine congrArg Except.ok (J.getResult_joined B (fun r hr => ?_) _ _ _).symm
      obtain rfl : found = some r := hr
      exact (foundRecord_mem hfound).1
  · intro name hn s s' hs hs' size guid
    obtain ⟨res₁, s₁, h₁, -, hres₁⟩ := baseGetNextVariableName_eq N storeReads_true
      (keyReads_true name guid) hf (hs.sound N hf) size
    obtain ⟨res₂, s₂, h₂, -, hres₂⟩ := baseGetNextVariableName_eq N' storeReads_true
      (keyReads_true name guid) hf' (hs'.sound N' hf') size
    rw [h₁, h₂]
    rw [S.joined, foundRecord_joined J B (hname name hn)] at hres₂
    rcases hfound : foundRecord E (nvVariableStore E) all name guid with halt | _ | r <;>
      simp only [hfound, Except.map, Option.map_none, Option.map_some] at hres₁ hres₂
    · exact hres₁.trans hres₂.symm
    · exact hres₁.trans hres₂.symm
    · obtain ⟨pre, post, rfl, rfl⟩ := hres₁
      obtain ⟨pre', post', hall, rfl⟩ := hres₂
      have hpost := ((N'.walk_from hall).unique (N'.walk_from
        (by rw [List.map_append, List.map_cons]))).1
      obtain rfl : post' = post.map (joinedRecord E) := by simpa using hpost
      have hcome : recordsToCome name (joinedRecord E r) (post.map (joinedRecord E))
          = (recordsToCome name r post).map (joinedRecord E) := by
        unfold recordsToCome
        split_ifs <;> rfl
      rw [hcome]
      refine (J.nextResult_joined B size _ fun x hx => ?_).symm
      unfold recordsToCome at hx
      split_ifs at hx <;> simp_all

theorem NvStore.unique {all' : List VariableRecord} {e' : ℕ} (N : NvStore E all e)
    (N' : NvStore E all' e') : all = all' := (N.walk.walk.unique N'.walk.walk).1

/-- Whatever the flash holds, the calls over the split store return what they return over the two
parts put together. -/
theorem splitStore_transparent (S : SplitStore E) {variableName : Option Pointer}
    (h : ∀ all e, NvStore E all e → BeforeSplit E (nvVariableStore E) all ∧ all.length < fuel
      ∧ ∀ name ∈ variableName, NameApart (nvVariableStore E) all name) :
    CallsAgree E (joinedEnv E) fuel variableName := by
  by_cases hstore : ∃ all e, NvStore E all e
  · obtain ⟨all, e, N⟩ := hstore
    obtain ⟨B, hf, hname⟩ := h all e N
    exact callsAgree_joined S N B hf hname
  · have hinvalid (hne : (nvVariableStore E).variableStoreHeader ≠ 0) :
        ¬ StoreValid E (nvVariableStore E) := fun V =>
      hstore (exists_nvStore hne (S.split hne).layout.target V)
    have hinvalid' (hne : (nvVariableStore (joinedEnv E)).variableStoreHeader ≠ 0) :
        ¬ StoreValid (joinedEnv E) (nvVariableStore (joinedEnv E)) := by
      rw [S.joined] at hne ⊢
      have hne' : (nvVariableStore E).variableStoreHeader ≠ 0 := fun h0 =>
        hne (by rw [joinedStore, h0]; exact joinedPtr_zero S)
      exact fun V => hinvalid hne' ((S.split hne').storeValid.1 V)
    exact callsAgree_of_some
      (fun name _ s s' _ _ guid attributes dataSize data => by
        rw [baseGetVariable_invalid hinvalid, baseGetVariable_invalid hinvalid'])
      fun name _ s s' _ _ size guid => by
        rw [baseGetNextVariableName_invalid hinvalid, baseGetNextVariableName_invalid hinvalid']

end Calls

section Example

/-- A store that is split so many bytes behind its base, the part in place erased from there on. -/
def splitEnv (records : List UInt8) (offset : ℕ) : BaseVariableEnv :=
  let store := storeBytes (0x400 - fvhSize) ++ records
  smallEnv ((store.take offset).drop (fvhSize + variableStoreHeaderSize)) (store.drop offset)
    (0x1000 + offset)

/-- `A`, and `B` with data that the split cuts, and `C`. -/
def cutDataEnv : BaseVariableEnv :=
  splitEnv (variableBytes 0x3f [0x41] 1 [1, 2, 3, 4] ++ variableBytes 0x3f [0x42] 1
    [1, 2, 3, 4, 5, 6, 7, 8] ++ variableBytes 0x3f [0x43] 1 [9]) 0xb4

def cutDataStore : List VariableRecord × ℕ :=
  (checkedStore cutDataEnv 10).get (by decide +kernel)

theorem cutDataEnv_split : SplitStore cutDataEnv where
  base_le := by decide +kernel
  lt_end := by decide +kernel
  le_spare := by decide +kernel
  aligned := by decide +kernel
  spareAligned := by decide +kernel
  headers _ := by decide +kernel
  start_lt _ _ := by decide +kernel
  store_end _ _ := by decide +kernel

theorem cutDataEnv_beforeSplit :
    BeforeSplit cutDataEnv (nvVariableStore cutDataEnv) cutDataStore.1 where
  name := by decide +kernel
  data := by decide +kernel
  oneCut a ha hold := absurd hold (by
    revert a
    decide +kernel)
  firstOld a ha hold := absurd hold (by
    revert a
    decide +kernel)

theorem splitStore_transparent_cutData :
    CallsAgree cutDataEnv (joinedEnv cutDataEnv) 10 (some (nameAt 0x100 [0x42])) :=
  splitStore_transparent cutDataEnv_split fun all e N => by
    obtain rfl : all = cutDataStore.1 :=
      N.unique (nvStore_of_checked (Option.some_get _).symm)
    refine ⟨cutDataEnv_beforeSplit, by decide +kernel, fun name hn r hr => ?_⟩
    obtain rfl := Option.some.inj hn
    have hapart : ∀ r ∈ liveRecords cutDataStore.1,
        ∀ ftw ∈ (nvVariableStore cutDataEnv).ftwLastWriteData, ¬ ftw.targetAddress
          < toUintn (0x100 + nameSizeOfVariable r.header (nvVariableStore cutDataEnv).authFlag) := by
      decide +kernel
    rintro ⟨ftw, hf, -, h⟩
    exact hapart r hr ftw hf h

/-- What a lookup of `A` returns. -/
def lookupData (E : BaseVariableEnv) : Except Halt (EfiStatus × Option (List UInt8)) :=
  (baseGetVariable E 10 (some (nameAt 0x100 [0x41])) (some 1) false (some 8) true .boot).1.map
    fun res => (res.status, res.data)

def oneRecord : List UInt8 := variableBytes 0x3f [0x41] 1 [1, 2, 3, 4]

/-- Behind a split in the volume header the store is still read in place, and behind one at the
end of a record's header so are its name and data. -/
theorem splitStore_not_transparent :
    (lookupData (splitEnv oneRecord 0x10) = .ok (efiNotFound, none)
        ∧ lookupData (joinedEnv (splitEnv oneRecord 0x10)) = .ok (efiSuccess, some [1, 2, 3, 4]))
      ∧ lookupData (splitEnv oneRecord 0x84) = .ok (efiNotFound, none)
      ∧ lookupData (joinedEnv (splitEnv oneRecord 0x84)) = .ok (efiSuccess, some [1, 2, 3, 4]) := by
  decide +kernel

end Example

end Edk2Rk3576
