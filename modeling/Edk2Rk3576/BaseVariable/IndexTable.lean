import Edk2Rk3576.BaseVariable.Statics

/-!
# The index table only saves time

From sound statics `findVariableEx` returns what `scan` does over all the records, whatever the
index table holds: the table is a prefix of the live records, the first loop scans that prefix,
and the second one goes on behind it. The statics stay sound, so this holds in any run of calls.
-/

namespace Edk2Rk3576

open Cells Walk ScanEnd

variable {E : BaseVariableEnv} {si : VariableStoreInfo} {all : List VariableRecord} {e : ℕ}
  {P : ℕ × ℕ → Prop} {name : Pointer} {guid : EfiGuid}

/-- The last record that an index leads to, as the first loop leaves it. -/
def lastIndexed (ls : List VariableRecord) (maxIndex : ℕ) (h : Cells UInt8) : ℕ × Cells UInt8 :=
  (ls.getLast?.map fun r => (r.ptr, r.header)).getD (maxIndex, h)

theorem lastIndexed_cons (r : VariableRecord) (ls : List VariableRecord) (maxIndex : ℕ)
    (h : Cells UInt8) : lastIndexed (r :: ls) maxIndex h = lastIndexed ls r.ptr r.header := by
  rcases hl : ls.getLast? with _ | x <;> simp [lastIndexed, List.getLast?_cons, hl]

/-- The first loop ends as the scan of the records it leads to. -/
def IndexedEnd (x : Except Halt ScanEnd) (last : ℕ × Cells UInt8)
    (y : Except Halt (Search × ℕ × Cells UInt8)) : Prop :=
  match x with
  | .error halt => y = .error halt
  | .ok (.inl r) => ∃ z, y = .ok (.found r.ptr, z)
  | .ok (.inr d) => y = .ok (.passed (ptr d), last)

theorem findIndexed_eq (W : StoreWalk E si all e) (hh : HeaderReads E si all e P)
    (hk : KeyReads E si all P name guid) {start : ℕ} :
    ∀ (ls : List VariableRecord) (ds : List ℕ) (p maxIndex : ℕ) (d : Option VariableRecord)
      (h : Cells UInt8) (s : BaseVariableState), Sound E si all e P s →
      (∀ r ∈ ls, r ∈ liveRecords all) → s.variableIndexTable.startPtr = start →
      indexPtrs p ds = ls.map VariableRecord.ptr → start ≤ p →
      IndexedEnd (scan (recordMatches E si name guid) ls d) (lastIndexed ls maxIndex h)
          (findIndexed E si name guid ds (p - start) maxIndex (ptr d) h s).1
        ∧ Sound E si all e P (findIndexed E si name guid ds (p - start) maxIndex (ptr d) h s).2
        ∧ (findIndexed E si name guid ds (p - start) maxIndex (ptr d) h s).2.variableIndexTable
          = s.variableIndexTable
  | [], ds, p, maxIndex, d, h, s, hs, _, _, hi, _ => by
    obtain rfl : ds = [] := by cases ds <;> simp_all [indexPtrs]
    exact ⟨rfl, hs, rfl⟩
  | r :: ls, [], p, maxIndex, d, h, s, _, _, _, hi, _ => by simp [indexPtrs] at hi
  | r :: ls, δ :: ds, p, maxIndex, d, h, s, hs, hls, hst, hi, hp => by
    simp only [indexPtrs, List.map_cons, List.cons.injEq] at hi
    obtain ⟨hr, hi⟩ := hi
    have hlive := hls r List.mem_cons_self
    have hmem : r ∈ all ∧ isLive r.header = true := by simpa [liveRecords] using hlive
    have hlt := W.ptr_lt hmem.1
    have hoff : toUintn (p - start + δ) = r.ptr - start := by
      rw [toUintn_of_lt (by omega)]
      omega
    have hptr : toUintn (s.variableIndexTable.startPtr + (r.ptr - start)) = r.ptr := by
      rw [hst, toUintn_of_lt (by omega)]
      omega
    obtain ⟨s₁, h₁, hs₁, ht₁⟩ := hs.getVariableHeader_record W hh hmem.1
    obtain ⟨s₂, h₂, hs₂, ht₂⟩ := hs₁.compare hk hlive
    have ht : s₂.variableIndexTable = s.variableIndexTable := ht₂.trans ht₁
    have ih (d : Option VariableRecord) := findIndexed_eq W hh hk ls ds r.ptr r.ptr d r.header s₂
      hs₂ (fun x hx => hls x (List.mem_cons_of_mem _ hx)) (by rw [ht, hst]) (by rw [← hr]; exact hi)
      (by omega)
    simp only [ht] at ih
    unfold findIndexed
    simp only [hoff, hptr, h₁, h₂, scan, hmem.2, if_true, lastIndexed_cons]
    rcases recordMatches E si name guid r with halt | _ | _
    · exact ⟨rfl, hs₂, ht⟩
    · exact ih d
    · by_cases hd : isInDeletedTransition r.header = true
      · simp only [hd, if_true]
        exact ih (some r)
      · simp only [hd]
        exact ⟨⟨_, rfl⟩, hs₂, ht⟩

/-- The table leads to the live records passed so far, the last one being `lastVariable`, and
`rs` are those still to come, from `v` on. -/
structure Recording (E : BaseVariableEnv) (si : VariableStoreInfo) (all rs : List VariableRecord)
    (v lastVariable : ℕ) (t : VariableIndexTable) : Prop where
  sound : IndexSound E si all t
  goneThrough : t.goneThrough = false
  le : lastVariable ≤ v
  passed : ∃ done, indexPtrs t.startPtr t.index = done.map VariableRecord.ptr
    ∧ lastVariable = (done.map VariableRecord.ptr).getLastD t.startPtr
    ∧ done ++ liveRecords rs = liveRecords all

theorem Recording.mono {rs rs' : List VariableRecord} {v v' last : ℕ} {t : VariableIndexTable}
    (h : Recording E si all rs v last t) (hv : v ≤ v')
    (hrs : liveRecords rs' = liveRecords rs) : Recording E si all rs' v' last t where
  sound := h.sound
  goneThrough := h.goneThrough
  le := h.le.trans hv
  passed := by
    rw [hrs]
    exact h.passed

theorem recordIndex_spec {s : BaseVariableState} (hs : Sound E si all e P s)
    {r : VariableRecord} {rs : List VariableRecord} {last : ℕ} {stopRecord : Bool}
    (hr : isLive r.header = true) (hlt : r.ptr < 2 ^ 55)
    (hrec : si.indexTable = true → stopRecord = false →
      Recording E si all (r :: rs) r.ptr last s.variableIndexTable) :
    ∃ last' stopRecord' s', recordIndex E si r.ptr last stopRecord s = (last', stopRecord', s')
      ∧ Sound E si all e P s'
      ∧ s'.variableIndexTable.startPtr = s.variableIndexTable.startPtr
      ∧ (si.indexTable = true → stopRecord' = false →
        Recording E si all rs r.ptr last' s'.variableIndexTable) := by
  unfold recordIndex
  by_cases hc : si.indexTable = true ∧ ¬ stopRecord = true
  · have h := hrec hc.1 (by simpa using hc.2)
    have hle := h.le
    have hoff : toUintn (r.ptr + (2 ^ 64 - last)) = r.ptr - last := by
      rw [show r.ptr + (2 ^ 64 - last) = r.ptr - last + 2 ^ 64 by omega, toUintn,
        Nat.add_mod_right, Nat.mod_eq_of_lt (by omega)]
    simp only [if_pos hc, hoff]
    split_ifs with hfull
    · exact ⟨last, true, s, rfl, hs, rfl, by simp⟩
    · obtain ⟨done, hi, hlast, hall⟩ := h.passed
      have hall' : (done ++ [r]) ++ liveRecords rs = liveRecords all := by
        rw [← hall, liveRecords_cons_of_live hr, List.append_assoc]
        rfl
      have hidx : indexPtrs s.variableIndexTable.startPtr
          (s.variableIndexTable.index ++ [r.ptr - last]) = (done ++ [r]).map VariableRecord.ptr := by
        rw [indexPtrs_append, hi, ← hlast, List.map_append, Nat.add_sub_cancel' hle]
        rfl
      have hsound : IndexSound E si all { s.variableIndexTable with
          index := s.variableIndexTable.index ++ [r.ptr - last] } :=
        { startPtr := h.sound.startPtr
          index := ⟨(liveRecords rs).map VariableRecord.ptr, by
            rw [hidx, ← List.map_append, hall']⟩
          goneThrough := fun hg => by simp [h.goneThrough] at hg
          volume := by
            simp only [List.length_append, List.length_singleton]
            omega }
      refine ⟨r.ptr, false, _, rfl, hs.withTable hsound, rfl, fun _ _ => ?_⟩
      exact ⟨hsound, h.goneThrough, le_rfl, done ++ [r], hidx, by simp, hall'⟩
  · simp only [if_neg hc]
    refine ⟨last, stopRecord, s, rfl, hs, rfl, fun h1 h2 => absurd ⟨h1, by simp [h2]⟩ hc⟩

/-- The second loop ends as the scan of the records from where it starts. -/
theorem findWalking_eq (W : StoreWalk E si all e) (hh : HeaderReads E si all e P)
    (hk : KeyReads E si all P name guid) :
    ∀ (rs : List VariableRecord) (fuel v last : ℕ) (stopRecord : Bool) (d : Option VariableRecord)
      (s : BaseVariableState), Walk E si v rs e → rs.length < fuel → (∀ r ∈ rs, r ∈ all) →
      Sound E si all e P s →
      (si.indexTable = true → stopRecord = false →
        Recording E si all rs v last s.variableIndexTable) →
      (findWalking E si name guid fuel v last stopRecord (ptr d) s).1
          = (scan (recordMatches E si name guid) rs d).map search
        ∧ Sound E si all e P (findWalking E si name guid fuel v last stopRecord (ptr d) s).2
        ∧ (findWalking E si name guid fuel v last stopRecord (ptr d) s).2.variableIndexTable.startPtr
          = s.variableIndexTable.startPtr
  | _, 0, _, _, _, _, _, _, hf, _, _, _ => by omega
  | [], fuel + 1, v, last, stopRecord, d, s, hw, _, _, hs, hrec => by
    cases hw
    obtain ⟨h, s₁, h₁, hs₁, ht₁⟩ := hs.getVariableHeader_end W hh
    simp only [findWalking, h₁, scan, Except.map]
    refine ⟨rfl, ?_, ?_⟩
    · split_ifs with hc
      · have h := hrec hc.1 (by simpa using hc.2)
        obtain ⟨done, hi, -, hall⟩ := h.passed
        obtain rfl : done = liveRecords all := by simpa [liveRecords] using hall
        rw [ht₁]
        exact hs₁.withTable ⟨h.sound.startPtr, h.sound.index, fun _ => hi, h.sound.volume⟩
      · exact hs₁
    · split_ifs <;> simp [ht₁]
  | r :: rs, fuel + 1, v, last, stopRecord, d, s, hw, hf, hall, hs, hrec => by
    cases hw with
    | @next _ hd _ _ hhead hw =>
      have hmem := hall _ List.mem_cons_self
      have hlt := W.ptr_lt hmem
      obtain ⟨s₁, h₁, hs₁, ht₁⟩ := hs.getVariableHeader_record W hh hmem
      have hnext : v ≤ getNextVariablePtr si v hd :=
        le_trans (Nat.le_add_right v _) (W.layout.next_bounds hlt hd).1
      have ih (last' : ℕ) (stopRecord' : Bool) (d' : Option VariableRecord) (s' : BaseVariableState)
          (hs' : Sound E si all e P s')
          (hrec' : si.indexTable = true → stopRecord' = false →
            Recording E si all rs v last' s'.variableIndexTable) :=
        findWalking_eq W hh hk rs fuel (getNextVariablePtr si v hd) last' stopRecord' d' s' hw
          (by simpa using hf) (fun x hx => hall x (List.mem_cons_of_mem _ hx)) hs'
          fun h1 h2 => (hrec' h1 h2).mono hnext rfl
      simp only [findWalking, h₁, scan]
      by_cases hl : isLive hd = true
      · have hlive : (⟨v, hd⟩ : VariableRecord) ∈ liveRecords all :=
          List.mem_filter.2 ⟨hmem, hl⟩
        obtain ⟨last', stopRecord', s₂, h₂, hs₂, ht₂, hrec₂⟩ :=
          recordIndex_spec hs₁ (r := ⟨v, hd⟩) hl hlt (ht₁ ▸ hrec)
        obtain ⟨s₃, h₃, hs₃, ht₃⟩ := hs₂.compare hk hlive
        have hst : s₃.variableIndexTable.startPtr = s.variableIndexTable.startPtr := by
          rw [ht₃, ht₂, ht₁]
        simp only [hl, if_true, h₂, h₃]
        rcases recordMatches E si name guid ⟨v, hd⟩ with halt | _ | _
        · exact ⟨rfl, hs₃, hst⟩
        · simpa only [hst] using ih last' stopRecord' d s₃ hs₃ (ht₃ ▸ hrec₂)
        · by_cases hi : isInDeletedTransition hd = true
          · simpa only [hi, if_true, hst, ptr_some] using
              ih last' stopRecord' (some ⟨v, hd⟩) s₃ hs₃ (ht₃ ▸ hrec₂)
          · simp only [hi]
            exact ⟨rfl, hs₃, hst⟩
      · have hskip : liveRecords rs = liveRecords (⟨v, hd⟩ :: rs) :=
          (liveRecords_cons_of_not hl rs).symm
        simp only [hl, Bool.false_eq_true, if_false]
        simpa only [ht₁] using ih last stopRecord d s₁ hs₁ fun h1 h2 =>
          ht₁ ▸ (hrec h1 h2).mono le_rfl hskip

/-- What `FindVariableEx` checks of the store header. -/
structure StoreValid (E : BaseVariableEnv) (si : VariableStoreInfo) : Prop where
  status : getVariableStoreStatus E.mem si.variableStoreHeader = .efiValid
  size : E.mem.le (si.variableStoreHeader + vshSize) 4 ≠ 0xFFFFFFFF

/-- `StartPtr` and `EndPtr` of a search. -/
def storeTrack (E : BaseVariableEnv) (si : VariableStoreInfo) : VariablePointerTrack :=
  ⟨0, getEndPointer E.mem si.variableStoreHeader, getStartPointer si.variableStoreHeader⟩

/-- What a scan makes `FindVariableEx` return. -/
def scanResult (E : BaseVariableEnv) (si : VariableStoreInfo) (x : Except Halt ScanEnd) :
    Except Halt (EfiStatus × VariablePointerTrack) :=
  x.map fun end' => searchResult (storeTrack E si) end'.search

/-- Live records that stand first are those of a part of the store. -/
theorem exists_of_prefix {init : List VariableRecord} {r : VariableRecord}
    {more : List VariableRecord} (h : liveRecords all = (init ++ [r]) ++ more) :
    ∃ pre post, all = pre ++ r :: post ∧ liveRecords (pre ++ [r]) = init ++ [r]
      ∧ liveRecords post = more := by
  rw [List.append_assoc] at h
  obtain ⟨a, b, rfl, ha, hb⟩ := List.filter_eq_append_iff.1 h
  obtain ⟨l₁, l₂, rfl, hl₁, hr, hl₂⟩ := List.filter_eq_cons_iff.1 hb
  have h₁ : liveRecords l₁ = [] := List.filter_eq_nil_iff.2 hl₁
  refine ⟨a ++ l₁, l₂, by simp, ?_, hl₂⟩
  have ha : liveRecords a = init := ha
  have hr : liveRecords [r] = [r] := liveRecords_cons_of_live hr []
  simp only [liveRecords, List.filter_append] at *
  rw [ha, h₁, hr, List.append_nil]

/-- The second loop, as `FindVariableEx` returns from it. -/
theorem mapResult_findWalking (W : StoreWalk E si all e) (hh : HeaderReads E si all e P)
    (hk : KeyReads E si all P name guid) {rs : List VariableRecord} {fuel v last : ℕ}
    {d : Option VariableRecord} {s : BaseVariableState} (hw : Walk E si v rs e)
    (hf : rs.length < fuel) (hall : ∀ r ∈ rs, r ∈ all) (hs : Sound E si all e P s)
    (hrec : si.indexTable = true → Recording E si all rs v last s.variableIndexTable)
    {res : Except Halt (EfiStatus × VariablePointerTrack) × BaseVariableState}
    (hres : res = mapResult (searchResult (storeTrack E si))
      (findWalking E si name guid fuel v last false (ptr d) s)) :
    res.1 = scanResult E si (scan (recordMatches E si name guid) rs d)
      ∧ Sound E si all e P res.2
      ∧ res.2.variableIndexTable.startPtr = s.variableIndexTable.startPtr := by
  obtain ⟨h1, h2, h3⟩ := findWalking_eq W hh hk rs fuel v last false d s hw hf hall hs
    fun hi _ => hrec hi
  subst hres
  refine ⟨?_, h2, h3⟩
  simp only [mapResult, h1]
  rcases scan (recordMatches E si name guid) rs d with halt | x <;> rfl

theorem findVariableEx_eq (W : StoreWalk E si all e) (V : StoreValid E si)
    (hh : HeaderReads E si all e P) (hk : KeyReads E si all P name guid) {fuel : ℕ}
    (hf : all.length < fuel) {s : BaseVariableState} (hs : Sound E si all e P s)
    (hst : si.indexTable = true →
      s.variableIndexTable.startPtr = getStartPointer si.variableStoreHeader) :
    (findVariableEx E si name guid fuel s).1
        = scanResult E si (scan (recordMatches E si name guid) all none)
      ∧ Sound E si all e P (findVariableEx E si name guid fuel s).2
      ∧ (findVariableEx E si name guid fuel s).2.variableIndexTable.startPtr
        = s.variableIndexTable.startPtr := by
  have hpos := W.layout.pos
  have hstart := W.layout.getStartPointer_eq
  unfold findVariableEx
  simp only [if_neg (show ¬ si.variableStoreHeader = 0 by omega), V.status, ne_eq,
    not_true_eq_false, if_false, if_neg V.size]
  by_cases hi : si.indexTable = true
  · simp only [hi, if_true]
    have hst := hst hi
    have ht := hs.index (by omega)
    obtain ⟨ls, ⟨more, hmore⟩, hls⟩ := List.prefix_map_iff.1 ht.index
    have hmem : ∀ r ∈ ls, r ∈ liveRecords all := fun r hr => hmore ▸ List.mem_append_left _ hr
    have h := findIndexed_eq W hh hk ls s.variableIndexTable.index _ 0 none (fun _ => 0) s hs hmem
      rfl hls le_rfl
    rw [Nat.sub_self, ptr_none] at h
    have hscan := @scan_append (recordMatches E si name guid) more ls none
    rw [hmore, scan_liveRecords] at hscan
    generalize findIndexed E si name guid s.variableIndexTable.index 0 0 0 (fun _ => 0) s = res
      at h ⊢
    obtain ⟨y, s₁⟩ := res
    obtain ⟨hend, hs₁, ht₁⟩ := h
    simp only [] at hend hs₁ ht₁
    rw [hscan, ← ht₁]
    rcases hls' : scan (recordMatches E si name guid) ls none with halt | r | d <;>
      rw [hls'] at hend
    · obtain rfl : y = .error halt := hend
      exact ⟨rfl, hs₁, rfl⟩
    · obtain ⟨z, rfl⟩ := hend
      exact ⟨rfl, hs₁, rfl⟩
    · obtain rfl : y = .ok (.passed (ptr d), lastIndexed ls 0 fun _ => 0) := hend
      simp only []
      by_cases hg : s₁.variableIndexTable.goneThrough = true
      · obtain rfl : more = [] := by
          have hlen := congrArg List.length (hls.symm.trans (ht.goneThrough (ht₁ ▸ hg)))
          rw [← hmore] at hlen
          simpa using hlen
        rw [if_pos hg]
        exact ⟨rfl, hs₁, rfl⟩
      · rw [if_neg hg]
        have hrec {rs : List VariableRecord} {v last : ℕ} (hle : last ≤ v)
            (hlast : last = (ls.map VariableRecord.ptr).getLastD s.variableIndexTable.startPtr)
            (hrs : ls ++ liveRecords rs = liveRecords all) :
            Recording E si all rs v last s₁.variableIndexTable := by
          rw [ht₁]
          exact ⟨ht, by simpa [ht₁] using hg, hle, ls, hls, hlast, hrs⟩
        rcases List.eq_nil_or_concat ls with rfl | ⟨init, r, rfl⟩
        · obtain rfl : none = d := by simpa [scan] using hls'
          have hmore : more = liveRecords all := hmore
          rw [hmore, scan_liveRecords]
          exact mapResult_findWalking W hh hk W.walk hf (fun _ => id) hs₁
            (fun _ => hrec le_rfl (by simp [hst]) rfl) rfl
        · obtain ⟨pre, post, hall, -, hpost⟩ :=
            exists_of_prefix (by rw [List.concat_eq_append] at hmore; exact hmore.symm)
          have hr : r ∈ all := by simp [hall]
          have hlast : lastIndexed (init.concat r) 0 (fun _ => 0) = (r.ptr, r.header) := by
            simp [lastIndexed]
          have hr0 := (W.layout.headerAt_lt (E := E) (W.stop_lt (StoreWalk.ptr_mem_stops hr))
            (by simp [W.walk.headerAt_ptr r hr])).1
          have hnext := (W.layout.next_bounds (W.ptr_lt hr) r.header).1
          rw [hlast, if_neg (by simp only []; omega), ← hpost, scan_liveRecords]
          refine mapResult_findWalking W hh hk (W.walk.tail hall) ?_ ?_ hs₁
            (fun _ => hrec (by omega) (by simp) (by rw [hpost, hmore])) rfl
          · rw [hall] at hf
            simp only [List.length_append, List.length_cons] at hf
            omega
          · intro x hx
            simp [hall, hx]
  · simp only [hi]
    exact mapResult_findWalking W hh hk W.walk hf (fun _ => id) hs (fun h => absurd h hi) rfl

end Edk2Rk3576
