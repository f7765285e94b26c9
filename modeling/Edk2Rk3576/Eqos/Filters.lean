import Edk2Rk3576.Eqos.Machine
import Edk2Rk3576.Lib.BitTable

/-!
# The multicast filter

The mode keeps the list of multicast addresses, the MAC a table with a bit for the hash of each.
`ReceiveFilters` sets the bits of a new list, but clears the table only where it resets the list; and
it sets none with a promiscuous filter on. So whether the table has the bits of the list depends on
what it had before.
-/

namespace Edk2Rk3576

open Cells

/-- The bits of the table that the addresses of a list have. -/
def listBits (n : ℕ) (list : Cells EfiMacAddress) : Set ℕ :=
  {b | ∃ i < n, (mCastHash (list i)).toNat = b}

def EfiSimpleNetworkMode.mCastBits (mode : EfiSimpleNetworkMode) : Set ℕ :=
  listBits mode.mCastFilterCount mode.mCastFilter

def EqosState.hashBits (e : EqosState) : Set ℕ := tableBits hashTableCount e.hashTable

/-- The `MULTICAST` filter is enabled. -/
def Multicast (setting : UInt32) : Prop := setting &&& receiveMulticast ≠ 0

/-- What is to hold of a call with its result. -/
structure FilterLaw (e : EqosState) (r : EfiStatus × EqosState) : Prop where
  agrees : r.1 = efiSuccess → Multicast r.2.snpMode.receiveFilterSetting →
    r.2.hashBits = r.2.snpMode.mCastBits
  unchanged : efiError r.1 = true →
    r.2.snpMode = e.snpMode ∧ ∀ i < hashTableCount, r.2.hashTable i = e.hashTable i

/-- A `ReceiveFilters` or a `Reset` comes to its end, and keeps the law. -/
def FilterLawful (t : EqosTrace) : EqosEvent → Prop
  | .snpReceiveFilters c =>
    Yields (fun halt => halt ≠ .endless) (FilterLaw t.eqos) (eqosSnpReceiveFilters c t.eqos)
  | .snpReset answer =>
    Yields (fun halt => halt ≠ .endless) (FilterLaw t.eqos) (eqosSnpReset answer t.eqos)
  | _ => True

section Conditions

/-- The setting with which the addresses of a list get into the table. -/
structure Hashes (setting : UInt32) : Prop where
  promiscuous : setting &&& receivePromiscuous = 0
  promiscuousMulticast : setting &&& receivePromiscuousMulticast = 0
  multicast : Multicast setting

/-- The bits of a table end up as those of the list: they are among them, if the list is added, or
else are the same. -/
structure EndsAs (setting : UInt32) (table list : Set ℕ) : Prop where
  subset : Hashes setting → table ⊆ list
  eq : ¬ Hashes setting → table = list

/-- The call is not refused. -/
structure ReceiveFiltersCall.Accepted (c : ReceiveFiltersCall) (e : EqosState) : Prop where
  state : e.snpMode.state = .initialized
  mask : (c.enable ||| c.disable) &&& ~~~e.snpMode.receiveFilterMask = 0
  list : c.resetMCastFilter = false → Multicast (c.setting e.snpMode) →
    c.mCastFilterCnt ≠ 0 ∧ c.mCastFilterCnt ≤ e.snpMode.maxMCastFilterCount ∧
      c.mCastFilter.isNull = false

/-- The condition on each call: that a list given is none where it resets the filter, and that what
is in the table is to be there. -/
def FilterAllowed (t : EqosTrace) : EqosEvent → Prop
  | .snpReceiveFilters c =>
    c.Accepted t.eqos → Multicast (c.setting t.eqos.snpMode) →
      if c.resetMCastFilter then Hashes (c.setting t.eqos.snpMode) → c.mCastFilterCnt = 0
      else
        EndsAs (c.setting t.eqos.snpMode) t.eqos.hashBits
          (listBits c.mCastFilterCnt c.mCastFilter.target)
  | .snpReset answer =>
    t.eqos.snpMode.state = .initialized →
      (answer.Succeeds → Multicast t.eqos.snpMode.receiveFilterSetting →
        t.eqos.snpMode.mCastFilterCount ≠ 0 →
        EndsAs t.eqos.snpMode.receiveFilterSetting (tableBits hashTableCount answer.hashTable)
          t.eqos.snpMode.mCastBits) ∧
      (¬ answer.Succeeds → ∀ i < hashTableCount, answer.hashTable i = t.eqos.hashTable i)
  | _ => True

end Conditions

section Bits

variable {e : EqosState} {n : ℕ} {list list' : Cells EfiMacAddress} {setting : UInt32}
  {table : Set ℕ} {reset : Bool}

theorem listBits_zero : listBits 0 list = ∅ := by
  ext b
  simp [listBits]

theorem listBits_succ :
    listBits (n + 1) list = insert (mCastHash (list n)).toNat (listBits n list) := by
  ext b
  constructor
  · rintro ⟨i, hi, rfl⟩
    rcases Nat.lt_succ_iff_lt_or_eq.1 hi with h | rfl
    · exact .inr ⟨i, h, rfl⟩
    · exact .inl rfl
  · rintro (rfl | ⟨i, hi, rfl⟩)
    · exact ⟨n, by omega, rfl⟩
    · exact ⟨i, by omega, rfl⟩

theorem listBits_eq_empty : listBits n list = ∅ ↔ n = 0 := by
  constructor
  · intro h
    by_contra hn
    have hmem : (mCastHash (list 0)).toNat ∈ listBits n list := ⟨0, by omega, rfl⟩
    rw [h] at hmem
    exact hmem
  · rintro rfl
    exact listBits_zero

theorem listBits_congr (h : ∀ i < n, list i = list' i) : listBits n list = listBits n list' := by
  ext b
  constructor
  · rintro ⟨i, hi, hb⟩
    exact ⟨i, hi, by rw [← h i hi, hb]⟩
  · rintro ⟨i, hi, hb⟩
    exact ⟨i, hi, by rw [h i hi, hb]⟩

theorem mCastHash_lt (addr : EfiMacAddress) : (mCastHash addr).toNat < 32 * hashTableCount := by
  have := (eqosBitReverse32 (~~~(eqosEtherCrc32Le addr netEtherAddrLen &&& 0x7f))).toNat_lt
  rw [mCastHash, UInt32.toNat_shiftRight]
  rw [show (26 : UInt32).toNat % 32 = 26 by rfl, Nat.shiftRight_eq_div_pow, hashTableCount]
  omega

/-- A pass of the loop sets the bit of its address. -/
theorem addMCastHash_bits (addr : EfiMacAddress) (hashTable : Cells UInt32) :
    tableBits hashTableCount (addMCastHash addr hashTable) =
      insert (mCastHash addr).toNat (tableBits hashTableCount hashTable) := by
  have hreg : (mCastHash addr >>> 5).toNat = (mCastHash addr).toNat / 32 := by
    rw [UInt32.toNat_shiftRight, show (5 : UInt32).toNat % 32 = 5 by rfl,
      Nat.shiftRight_eq_div_pow]
  have hbit : (mCastHash addr &&& 0x1f).toNat = (mCastHash addr).toNat % 32 := by
    rw [UInt32.toNat_and]
    exact Nat.and_two_pow_sub_one_eq_mod _ 5
  rw [addMCastHash, hreg]
  exact tableBits_set hbit (mCastHash_lt addr)

theorem addMCastHashes_bits (hashTable : Cells UInt32) :
    tableBits hashTableCount (countUp (fun i h => addMCastHash (list i) h) n hashTable) =
      tableBits hashTableCount hashTable ∪ listBits n list := by
  refine countUp_invariant (fun n h => tableBits hashTableCount h =
    tableBits hashTableCount hashTable ∪ listBits n list) ?_ ?_
  · rw [listBits_zero, Set.union_empty]
  · intro i _ h hh
    rw [addMCastHash_bits, hh, listBits_succ, Set.union_insert]

/-- What a reset of the filter leaves of a table. -/
def keptBits (reset : Bool) (table : Set ℕ) : Set ℕ := if reset then ∅ else table

theorem clearHash_bits (hashTable : Cells UInt32) :
    tableBits hashTableCount
      (countUp (fun hashReg h => Function.update h hashReg 0) hashTableCount hashTable) = ∅ := by
  refine tableBits_clear ?_
  refine countUp_invariant (fun n (h : Cells UInt32) => ∀ i < n, h i = 0) (fun i hi => by omega) ?_
  intro n _ h hh i hi
  rcases Nat.lt_succ_iff_lt_or_eq.1 hi with hlt | rfl
  · rw [Function.update_of_ne hlt.ne, hh i hlt]
  · exact Function.update_self _ _ _

/-- What `EqosSetRxFilters` makes of the table; it keeps the mode. -/
structure FiltersSet (setting : UInt32) (reset : Bool) (n : ℕ) (list : Cells EfiMacAddress)
    (e : EqosState) (r : EfiStatus × EqosState) : Prop where
  status : r.1 = efiSuccess
  mode : r.2.snpMode = e.snpMode
  added : Hashes setting → r.2.hashBits = keptBits reset e.hashBits ∪ listBits n list
  kept : ¬ Hashes setting → r.2.hashBits = keptBits reset e.hashBits

theorem eqosSetRxFilters_bits :
    Yields (fun halt => halt = .endless ∧ Hashes setting ∧ 2 ^ 32 ≤ n)
      (FiltersSet setting reset n list e) (eqosSetRxFilters setting reset n list e) := by
  have hkept : tableBits hashTableCount
      (if reset then
        countUp (fun hashReg h => Function.update h hashReg 0) hashTableCount e.hashTable
      else e.hashTable) = keptBits reset e.hashBits := by
    unfold keptBits
    split_ifs
    · exact clearHash_bits _
    · rfl
  unfold eqosSetRxFilters
  refine Yields.ite (fun hprom => ?_) fun hprom => Yields.ite (fun hmulti => ?_) fun hmulti => ?_
  · exact ⟨rfl, rfl, fun h => absurd h.promiscuous hprom, fun _ => hkept⟩
  · exact ⟨rfl, rfl, fun h => absurd h.promiscuousMulticast hmulti, fun _ => hkept⟩
  · refine Yields.ite (fun hmcast => ?_) fun hmcast => ?_
    · have hhashes : Hashes setting := ⟨not_not.1 hprom, not_not.1 hmulti, hmcast⟩
      refine Yields.ite (fun hmany => ⟨rfl, hhashes, hmany⟩) fun _ => ?_
      refine ⟨rfl, rfl, fun _ => ?_, fun h => absurd hhashes h⟩
      exact (addMCastHashes_bits _).trans (by rw [hkept])
    · exact ⟨rfl, rfl, fun h => absurd h.multicast hmcast, fun _ => hkept⟩

/-- The table ends with the bits of the list where the condition holds. -/
theorem FiltersSet.eq_iff {r : EfiStatus × EqosState} (h : FiltersSet setting false n list e r) :
    r.2.hashBits = listBits n list ↔ EndsAs setting e.hashBits (listBits n list) := by
  by_cases hhashes : Hashes setting
  · rw [h.added hhashes, keptBits, if_neg Bool.false_ne_true, Set.union_eq_right]
    exact ⟨fun hsub => ⟨fun _ => hsub, absurd hhashes⟩, fun hends => hends.subset hhashes⟩
  · rw [h.kept hhashes, keptBits, if_neg Bool.false_ne_true]
    exact ⟨fun heq => ⟨fun hyes => absurd hyes hhashes, fun _ => heq⟩, fun hends => hends.eq hhashes⟩

theorem FiltersSet.empty_iff {r : EfiStatus × EqosState} (h : FiltersSet setting true n list e r) :
    r.2.hashBits = ∅ ↔ (Hashes setting → n = 0) := by
  by_cases hhashes : Hashes setting
  · rw [h.added hhashes, keptBits, if_pos rfl, Set.empty_union, listBits_eq_empty]
    exact ⟨fun hn _ => hn, fun hn => hn hhashes⟩
  · rw [h.kept hhashes, keptBits, if_pos rfl]
    exact ⟨fun _ hyes => absurd hyes hhashes, fun _ => rfl⟩

end Bits

section Calls

variable {e : EqosState} {c : ReceiveFiltersCall} {answer : StartAnswer}

/-- The mode's list is as long as it can be at most. -/
structure FilterMode (e : EqosState) : Prop where
  max_eq : e.snpMode.maxMCastFilterCount = maxMCastFilterCnt
  count_le : e.snpMode.mCastFilterCount ≤ maxMCastFilterCnt
  addr_ne : e.rxBuffersAddr ≠ 0

/-- The mode an accepted call sets. -/
def ReceiveFiltersCall.mode (c : ReceiveFiltersCall) (mode : EfiSimpleNetworkMode) :
    EfiSimpleNetworkMode :=
  let mode' :=
    if c.resetMCastFilter then { mode with mCastFilterCount := 0 }
    else if c.setting mode &&& receiveMulticast ≠ 0 then
      { mode with
        mCastFilterCount := c.mCastFilterCnt
        mCastFilter := mode.mCastFilter.write 0 c.mCastFilterCnt c.mCastFilter.target }
    else mode
  { mode' with receiveFilterSetting := c.setting mode }

/-- A `ReceiveFilters` is refused and leaves the state, or sets the filters. -/
inductive FiltersReceived (c : ReceiveFiltersCall) (e : EqosState) (r : EfiStatus × EqosState) :
    Prop
  | refused (hno : ¬ c.Accepted e) (herr : efiError r.1 = true) (heq : r.2 = e)
  | set (hok : c.Accepted e)
      (hset : FiltersSet (c.setting e.snpMode) c.resetMCastFilter c.mCastFilterCnt
        c.mCastFilter.target { e with snpMode := c.mode e.snpMode } r)

theorem eqosSnpReceiveFilters_cases :
    Yields (fun halt => halt = .endless ∧ c.Accepted e ∧ Hashes (c.setting e.snpMode) ∧
        2 ^ 32 ≤ c.mCastFilterCnt)
      (FiltersReceived c e) (eqosSnpReceiveFilters c e) := by
  have hset : ∀ mode : EfiSimpleNetworkMode, c.Accepted e →
      { mode with receiveFilterSetting := c.setting e.snpMode } = c.mode e.snpMode →
      Yields (fun halt => halt = .endless ∧ c.Accepted e ∧ Hashes (c.setting e.snpMode) ∧
          2 ^ 32 ≤ c.mCastFilterCnt) (FiltersReceived c e)
        (eqosSetRxFilters (c.setting e.snpMode) c.resetMCastFilter c.mCastFilterCnt
          c.mCastFilter.target
          { e with snpMode := { mode with receiveFilterSetting := c.setting e.snpMode } }) := by
    intro mode hok hmode
    rw [hmode]
    exact eqosSetRxFilters_bits.imp (fun _ ⟨hend, hhashes, hmany⟩ => ⟨hend, hok, hhashes, hmany⟩)
      fun r hr => .set hok hr
  unfold eqosSnpReceiveFilters
  cases hnone : eqosStateError .initialized e with
  | some status =>
    refine .refused (fun hok => ?_) (eqosStateError_isError hnone) rfl
    simp [eqosStateError, hok.state] at hnone
  | none =>
    have hstate := eqosStateError_eq_none hnone
    refine Yields.ite (fun hmask => ?_) fun hmask => Yields.ite (fun hreset => ?_) fun hreset => ?_
    · exact .refused (fun hok => hmask hok.mask) efiError_invalidParameter rfl
    · refine hset _ ⟨hstate, not_not.1 hmask, fun hno => by simp [hreset] at hno⟩ ?_
      rw [ReceiveFiltersCall.mode, if_pos hreset]
    · have hfalse : c.resetMCastFilter = false := by simpa using hreset
      refine Yields.ite (fun hmcast => Yields.ite (fun hlist => ?_) fun hlist => ?_) fun hmcast => ?_
      · refine .refused (fun hok => ?_) efiError_invalidParameter rfl
        obtain ⟨hne, hle, hnull⟩ := hok.list hfalse hmcast
        rcases hlist with hzero | hmany | hisNull
        · exact hne hzero
        · omega
        · rw [hnull] at hisNull
          cases hisNull
      · simp only [not_or] at hlist
        refine hset _ ⟨hstate, not_not.1 hmask, fun _ _ => ⟨hlist.1, not_lt.1 hlist.2.1, ?_⟩⟩ ?_
        · simpa using hlist.2.2
        · rw [ReceiveFiltersCall.mode, if_neg hreset, if_pos hmcast]
      · refine hset _ ⟨hstate, not_not.1 hmask, fun _ hyes => absurd hyes hmcast⟩ ?_
        rw [ReceiveFiltersCall.mode, if_neg hreset, if_neg hmcast]

theorem mode_reset_bits (hreset : c.resetMCastFilter = true) (mode : EfiSimpleNetworkMode) :
    (c.mode mode).mCastBits = ∅ := by
  rw [ReceiveFiltersCall.mode, hreset, if_pos rfl]
  exact listBits_zero

theorem mode_list_bits (hreset : c.resetMCastFilter = false) {mode : EfiSimpleNetworkMode}
    (hmcast : Multicast (c.setting mode)) :
    (c.mode mode).mCastBits = listBits c.mCastFilterCnt c.mCastFilter.target := by
  have hset : c.setting mode &&& receiveMulticast ≠ 0 := hmcast
  rw [ReceiveFiltersCall.mode, hreset, if_neg Bool.false_ne_true, if_pos hset]
  refine listBits_congr fun i hi => ?_
  have hwrite : (mode.mCastFilter.write 0 c.mCastFilterCnt c.mCastFilter.target) (0 + i) =
      c.mCastFilter.target i := write_add hi
  rwa [Nat.zero_add] at hwrite

theorem mode_max (mode : EfiSimpleNetworkMode) :
    (c.mode mode).maxMCastFilterCount = mode.maxMCastFilterCount := by
  unfold ReceiveFiltersCall.mode
  split_ifs <;> rfl

theorem mode_count_le (hok : c.Accepted e) (h : FilterMode e) :
    (c.mode e.snpMode).mCastFilterCount ≤ maxMCastFilterCnt := by
  unfold ReceiveFiltersCall.mode
  split_ifs with hreset hmcast
  · exact Nat.zero_le _
  · rw [← h.max_eq]
    exact (hok.list (by simpa using hreset) hmcast).2.1
  · exact h.count_le

theorem filterLaw_of_success {r : EfiStatus × EqosState} {mode : EfiSimpleNetworkMode}
    (hstatus : r.1 = efiSuccess) (hmode : r.2.snpMode = mode) :
    FilterLaw e r ↔ (Multicast mode.receiveFilterSetting → r.2.hashBits = mode.mCastBits) := by
  subst hmode
  constructor
  · exact fun hlaw => hlaw.agrees hstatus
  · intro hagrees
    refine ⟨fun _ => hagrees, fun herr => ?_⟩
    rw [hstatus] at herr
    cases herr

theorem filterLaw_of_error {r : EfiStatus × EqosState} (herr : efiError r.1 = true)
    (hmode : r.2.snpMode = e.snpMode) :
    FilterLaw e r ↔ ∀ i < hashTableCount, r.2.hashTable i = e.hashTable i := by
  constructor
  · exact fun hlaw => (hlaw.unchanged herr).2
  · intro htable
    refine ⟨fun hsucc => ?_, fun _ => ⟨hmode, htable⟩⟩
    rw [hsucc] at herr
    cases herr

/-- A call that is refused keeps the law. -/
theorem filterLaw_of_refused {r : EfiStatus × EqosState} (herr : efiError r.1 = true)
    (heq : r.2 = e) : FilterLaw e r := by
  refine (filterLaw_of_error herr (by rw [heq])).2 fun _ _ => ?_
  rw [heq]

variable {t : EqosTrace}

theorem snpReceiveFilters_lawful_iff (h : FilterMode t.eqos) :
    FilterLawful t (.snpReceiveFilters c) ↔ FilterAllowed t (.snpReceiveFilters c) := by
  have hcases := @eqosSnpReceiveFilters_cases t.eqos c
  rw [FilterLawful, FilterAllowed]
  cases hcall : eqosSnpReceiveFilters c t.eqos with
  | error halt =>
    rw [hcall] at hcases
    obtain ⟨hend, hok, hhashes, hmany⟩ := hcases
    refine ⟨fun hlaw => absurd hend hlaw, fun hallowed => ?_⟩
    have hcond := hallowed hok hhashes.multicast
    cases hreset : c.resetMCastFilter with
    | true =>
      rw [hreset, if_pos rfl] at hcond
      have := hcond hhashes
      omega
    | false =>
      have hlist := (hok.list hreset hhashes.multicast).2.1
      rw [h.max_eq, maxMCastFilterCnt] at hlist
      omega
  | ok r =>
    rw [hcall] at hcases
    cases hcases with
    | refused hno herr heq =>
      exact ⟨fun _ hok => absurd hok hno, fun _ => filterLaw_of_refused herr heq⟩
    | set hok hset =>
      have hlaw : FilterLaw t.eqos r ↔ (Multicast (c.setting t.eqos.snpMode) →
          r.2.hashBits = (c.mode t.eqos.snpMode).mCastBits) :=
        filterLaw_of_success hset.status hset.mode
      change FilterLaw t.eqos r ↔ _
      rw [hlaw]
      cases hreset : c.resetMCastFilter with
      | true =>
        rw [hreset] at hset
        simp only [mode_reset_bits hreset, hset.empty_iff, if_true, hok, true_implies]
      | false =>
        rw [hreset] at hset
        simp only [hok, true_implies, Bool.false_eq_true, if_false]
        refine forall_congr' fun hmcast => ?_
        rw [mode_list_bits hreset hmcast, hset.eq_iff]
        rfl

theorem snpReset_lawful_iff (h : FilterMode t.eqos) :
    FilterLawful t (.snpReset answer) ↔ FilterAllowed t (.snpReset answer) := by
  have hcases := @eqosSnpReset_yields t.eqos answer
  rw [FilterLawful, FilterAllowed]
  cases hcall : eqosSnpReset answer t.eqos with
  | error halt =>
    rw [hcall] at hcases
    rcases hcases with ⟨-, hmany⟩ | hhalt
    · have hcount := h.count_le
      rw [maxMCastFilterCnt] at hcount
      omega
    · exact absurd hhalt.not_stopped.2 h.addr_ne
  | ok r =>
    rw [hcall] at hcases
    change FilterLaw t.eqos r ↔ _
    cases hcases with
    | refused hstate herr heq =>
      exact ⟨fun _ hinit => absurd hinit hstate, fun _ => filterLaw_of_refused herr heq⟩
    | failed hstate herr hanswer hfailed =>
      have hmode : r.2.snpMode = t.eqos.snpMode := by
        rw [hfailed.eq]
        rfl
      have htable : r.2.hashTable = answer.hashTable := by rw [hfailed.eq]
      rw [filterLaw_of_error herr hmode, htable]
      constructor
      · intro hsame _
        exact ⟨fun hyes => absurd hyes hanswer, fun _ => hsame⟩
      · exact fun hallowed => (hallowed hstate).2 hanswer
    | done hstate hok hanswer e' hstarted heq hset =>
      have hmode : e'.snpMode = t.eqos.snpMode := hstarted.mode
      have htable : e'.hashBits = tableBits hashTableCount answer.hashTable := by
        rw [EqosState.hashBits, hstarted.eq]
      have hbits := @eqosSetRxFilters_bits e' e'.snpMode.mCastFilterCount e'.snpMode.mCastFilter
        e'.snpMode.receiveFilterSetting (e'.snpMode.mCastFilterCount == 0)
      rw [hset] at hbits
      rw [filterLaw_of_success hok (hbits.mode.trans hmode)]
      rw [hmode] at hbits
      simp only [hstate, hanswer, true_implies, not_true_eq_false, false_implies, and_true]
      refine forall_congr' fun hmcast => ?_
      by_cases hcount : t.eqos.snpMode.mCastFilterCount = 0
      · have hnone : t.eqos.snpMode.mCastBits = ∅ := by
          rw [EfiSimpleNetworkMode.mCastBits, hcount]
          exact listBits_zero
        rw [hcount] at hbits
        rw [hnone, hbits.empty_iff]
        simp [hcount]
      · have hfalse : (t.eqos.snpMode.mCastFilterCount == 0) = false := by simpa using hcount
        rw [hfalse] at hbits
        rw [EfiSimpleNetworkMode.mCastBits, hbits.eq_iff, htable]
        simp [hcount]

end Calls

section Runs

variable {t : EqosTrace} {event : EqosEvent} {e e' : EqosState}

theorem FilterMode.congr (h : FilterMode e)
    (hmax : e'.snpMode.maxMCastFilterCount = e.snpMode.maxMCastFilterCount)
    (hcount : e'.snpMode.mCastFilterCount = e.snpMode.mCastFilterCount)
    (haddr : e'.rxBuffersAddr = e.rxBuffersAddr) : FilterMode e' :=
  ⟨hmax.trans h.max_eq, hcount.trans_le h.count_le, haddr.symm ▸ h.addr_ne⟩

theorem FilterMode.snpInitialize (h : FilterMode t.eqos) {answer : StartAnswer} :
    Yields (fun _ => True) (fun t' => FilterMode t'.eqos) (t.step (.snpInitialize answer)) := by
  refine (eqosSnpInitialize_yields.imp (fun _ _ => trivial) fun _ hr => hr).bind ?_
  rintro r (⟨herr, heq⟩ | ⟨-, herr, hfailed⟩ | ⟨-, hok, e', hstarted, heq⟩)
  · rw [Yields, EqosTrace.restarted, if_pos herr, heq]
    exact h
  · rw [Yields, EqosTrace.restarted, if_pos herr, hfailed.eq]
    exact h.congr rfl rfl rfl
  · rw [Yields, EqosTrace.restarted, hok, if_neg (by simp), heq, hstarted.eq]
    exact h.congr rfl rfl rfl

theorem FilterMode.snpReset (h : FilterMode t.eqos) {answer : StartAnswer} :
    Yields (fun _ => True) (fun t' => FilterMode t'.eqos) (t.step (.snpReset answer)) := by
  refine (eqosSnpReset_yields.imp (fun _ _ => trivial) fun _ hr => hr).bind ?_
  rintro r (⟨-, herr, heq⟩ | ⟨-, herr, -, hfailed⟩ | ⟨-, hok, -, e', hstarted, heq, -⟩)
  · rw [Yields, EqosTrace.restarted, if_pos herr, heq]
    exact h
  · rw [Yields, EqosTrace.restarted, if_pos herr, hfailed.eq]
    exact h.congr rfl rfl rfl
  · rw [Yields, EqosTrace.restarted, hok, if_neg (by simp), heq, hstarted.eq]
    exact h.congr rfl rfl rfl

theorem FilterMode.snpReceiveFilters (h : FilterMode t.eqos) {c : ReceiveFiltersCall} :
    Yields (fun _ => True) (fun t' => FilterMode t'.eqos) (t.step (.snpReceiveFilters c)) := by
  refine ((eqosSnpReceiveFilters_cases.imp (fun _ _ => trivial) fun _ hr => hr).and
    (eqosSnpReceiveFilters_yields.imp (fun _ _ => trivial) fun _ hr => hr)).bind ?_
  rintro r ⟨hr, -, htouches⟩
  have haddr : r.2.rxBuffersAddr = t.eqos.rxBuffersAddr := by rw [htouches]
  cases hr with
  | refused hno herr heq => exact h.congr (by rw [heq]) (by rw [heq]) haddr
  | set hok hset =>
    refine ⟨?_, ?_, haddr.symm ▸ h.addr_ne⟩
    · change r.2.snpMode.maxMCastFilterCount = _
      rw [hset.mode]
      exact (mode_max t.eqos.snpMode).trans h.max_eq
    · change r.2.snpMode.mCastFilterCount ≤ _
      rw [hset.mode]
      exact mode_count_le hok h

/-- No event makes the list longer than it can be. -/
theorem FilterMode.step (h : FilterMode t.eqos) :
    Yields (fun _ => True) (fun t' => FilterMode t'.eqos) (t.step event) := by
  cases event with
  | snpStart =>
    rw [EqosTrace.step, eqosSnpStart]
    split_ifs
    · exact h
    · exact h
    · exact h.congr rfl rfl rfl
  | snpStop =>
    rw [EqosTrace.step, eqosSnpStop]
    split
    · exact h
    · exact h.congr rfl rfl rfl
  | snpInitialize answer => exact h.snpInitialize
  | snpReset answer => exact h.snpReset
  | snpShutdown =>
    rw [EqosTrace.step, eqosSnpShutdown]
    split
    · exact h
    · rw [eqosStop_eq]
      exact h.congr rfl rfl rfl
  | snpReceiveFilters c => exact h.snpReceiveFilters
  | snpGetStatus c =>
    refine (eqosSnpGetStatus_touches.imp (fun _ _ => trivial) fun _ hr => hr).bind fun r hr => ?_
    rw [hr]
    exact h.congr rfl rfl rfl
  | snpTransmit c =>
    refine (eqosSnpTransmit_touches.imp (fun _ _ => trivial) fun _ hr => hr).bind fun r hr => ?_
    rw [hr]
    exact h.congr rfl rfl rfl
  | snpReceive c =>
    refine (eqosSnpReceive_touches.imp (fun _ _ => trivial) fun _ hr => hr).bind fun r hr => ?_
    rw [hr]
    exact h.congr rfl rfl rfl
  | txDone w =>
    rw [EqosTrace.step, EqosState.dmaTransmits]
    split_ifs
    · exact h.congr rfl rfl rfl
    · exact h
  | rxDone c =>
    rw [EqosTrace.step]
    split_ifs
    · exact h.congr rfl rfl rfl
    · exact h

theorem filterLawful_iff (h : FilterMode t.eqos) :
    FilterLawful t event ↔ FilterAllowed t event := by
  cases event with
  | snpReceiveFilters c => exact snpReceiveFilters_lawful_iff h
  | snpReset answer => exact snpReset_lawful_iff h
  | _ => exact Iff.rfl

/-- The calls of a run keep the law exactly where each of them meets its condition. -/
theorem eqosFilters_lawful_iff (rxBuffersAddr : ℕ) (haddr : rxBuffersAddr ≠ 0)
    (rxBuffers : Cells UInt8) (hashTable : Cells UInt32) (packetFilter : UInt32)
    (events : List EqosEvent) :
    AlongRun EqosTrace.step FilterLawful
        (.init (eqosDriverBindingStart rxBuffersAddr rxBuffers hashTable packetFilter)) events ↔
      AlongRun EqosTrace.step FilterAllowed
        (.init (eqosDriverBindingStart rxBuffersAddr rxBuffers hashTable packetFilter)) events :=
  AlongRun.iff_of_invariant (I := fun t => FilterMode t.eqos) (fun _ _ h => h.step)
    (fun _ _ h => filterLawful_iff h) ⟨rfl, Nat.zero_le _, haddr⟩

/-- The multicast address `01:00:5e:00:00:n`. -/
def mCastAddress (n : UInt8) : EfiMacAddress := fun k =>
  [0x01, 0x00, 0x5e, 0x00, 0x00, n].getD k 0

/-- A call that enables the `MULTICAST` filter with one address. -/
def enableMulticast (n : UInt8) : ReceiveFiltersCall where
  enable := receiveMulticast
  disable := 0
  resetMCastFilter := false
  mCastFilterCnt := 1
  mCastFilter := ⟨false, fun _ => mCastAddress n⟩

def multicastRun (list : List UInt8) : List EqosEvent :=
  [.snpStart, .snpInitialize (startMapping 2)] ++
    list.map fun n => .snpReceiveFilters (enableMulticast n)

theorem multicast_seven : Multicast 7 := by
  unfold Multicast
  decide

theorem enableMulticast_setting {n : UInt8} {mode : EfiSimpleNetworkMode}
    (h : mode.receiveFilterSetting = 5 ∨ mode.receiveFilterSetting = 7) :
    (enableMulticast n).setting mode = 7 := by
  change (mode.receiveFilterSetting ||| receiveMulticast) &&& ~~~0 = 7
  rcases h with h | h
  · rw [h]
    decide
  · rw [h]
    decide

/-- The first address sets its bit in an empty table. -/
theorem eqosFilters_lawful_once :
    AlongRun EqosTrace.step FilterLawful (.init (boundAt 0x2000)) (multicastRun [0]) := by
  refine (eqosFilters_lawful_iff 0x2000 (by decide) _ _ _ _).2 ?_
  have hfirst : AlongRun EqosTrace.step FilterAllowed (.init (boundAt 0x2000)) [.snpStart] :=
    ⟨trivial, trivial⟩
  have hstarted : AlongRun EqosTrace.step FilterAllowed (.init (boundAt 0x2000)) (multicastRun []) :=
    hfirst.concat rfl trivial
  have hrun : ∃ t, runOk EqosTrace.step (multicastRun []) (.init (boundAt 0x2000)) = .ok t ∧
      t.eqos.snpMode.receiveFilterSetting = 5 ∧ t.eqos.hashTable = fun _ => 0 :=
    ⟨_, rfl, rfl, rfl⟩
  obtain ⟨t, hrun, hsetting, htable⟩ := hrun
  refine hstarted.concat hrun fun _ _ => ?_
  rw [enableMulticast_setting (.inl hsetting), if_neg (by decide)]
  refine ⟨fun _ => ?_, fun hno => absurd ⟨by decide, by decide, multicast_seven⟩ hno⟩
  rw [EqosState.hashBits, tableBits_clear fun i _ => congrFun htable i]
  exact Set.empty_subset _

/-- The interface once it has the first address. -/
theorem multicastRun_first : ∃ t, runOk EqosTrace.step (multicastRun [0]) (.init (boundAt 0x2000)) =
      .ok t ∧ t.eqos.snpMode.state = .initialized ∧ t.eqos.snpMode.receiveFilterMask = 0x1f ∧
      t.eqos.snpMode.receiveFilterSetting = 7 ∧ FilterMode t.eqos :=
  ⟨_, rfl, rfl, rfl, rfl, rfl, by decide, by decide⟩

/-- The first address has bit 58, the second one bit 32. -/
theorem multicastRun_table :
    (match runOk EqosTrace.step (multicastRun [0]) (.init (boundAt 0x2000)) with
      | .ok t => t.eqos.hashTable 1
      | .error _ => 0) = 0x4000000 ∧ (mCastHash (mCastAddress 1)).toNat = 32 := by
  decide +kernel

/-- A list that replaces another leaves the bits of both in the table. -/
theorem eqosSnpReceiveFilters_keeps_old_bits :
    ¬ ∀ events, AlongRun EqosTrace.step FilterLawful (.init (boundAt 0x2000)) events := by
  intro h
  obtain ⟨t, hrun, hstate, hmask, hsetting, hmode⟩ := multicastRun_first
  obtain ⟨htable, hsecond⟩ := multicastRun_table
  rw [hrun] at htable
  have hset : (enableMulticast 1).setting t.eqos.snpMode = 7 :=
    enableMulticast_setting (.inr hsetting)
  have hallowed := (filterLawful_iff hmode).1
    ((h (multicastRun [0] ++ [.snpReceiveFilters (enableMulticast 1)])).last hrun)
  have hends := hallowed
    ⟨hstate, by rw [hmask]; decide, fun _ _ => by rw [hmode.max_eq]; decide⟩
    (by rw [hset]; exact multicast_seven)
  rw [hset, if_neg (by decide)] at hends
  have hsub := hends.subset ⟨by decide, by decide, multicast_seven⟩
  have hold : 58 ∈ t.eqos.hashBits := by
    refine ⟨by decide, ?_⟩
    change (t.eqos.hashTable 1).toNat.testBit 26 = true
    have hword : t.eqos.hashTable 1 = 0x4000000 := htable
    rw [hword]
    decide
  obtain ⟨i, -, hi⟩ := hsub hold
  rw [show (enableMulticast 1).mCastFilter.target i = mCastAddress 1 from rfl, hsecond] at hi
  omega

end Runs

end Edk2Rk3576
