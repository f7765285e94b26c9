import Edk2Rk3576.DwMmc.Fifo
import Edk2Rk3576.Lib.LevelLoop

/-!
# Data through the FSPI's FIFO

`HAL_FSPI_XferData` moves whole words as the controller's FIFO has room or data, and on a read the
bytes behind the last whole word out of one word more. A write rounds its length up to words.
-/

namespace Edk2Rk3576

open DwMmc (streamByte streamByte_congr)

def fspiRead : UInt32 := 0
def fspiWrite : UInt32 := 1

/-- The levels of an `FSPIFSR_DATA`. -/
def fspiTxlevel (fsr : BitVec 32) : ℕ := (fsr.extractLsb' 8 5).toNat
def fspiRxlevel (fsr : BitVec 32) : ℕ := (fsr.extractLsb' 16 5).toNat

/-- `timeout` may exceed this before a wait is given up. -/
def fspiXferTimeout : ℕ := 10000

/-- What the controller shows: `FSR` at each poll, and the words that it has received. -/
structure FspiSchedule where
  fsr : ℕ → BitVec 32
  fifo : ℕ → BitVec 32

/-- The memory from `data` on with the accesses to it, each an offset and a length, how many words
`pData` has advanced, how many have been read from `DATA`, and those written to it. -/
structure FspiState where
  data : Cells (BitVec 8)
  accesses : List (ℕ × ℕ)
  pData : ℕ
  taken : ℕ
  pushed : List (BitVec 32)

variable (sched : FspiSchedule) (len dir : UInt32) (data : Cells (BitVec 8)) (fuel : ℕ)

/-- The word made of the bytes of a write of less than a word. -/
def fspiTemp : Option (BitVec 32) :=
  if len ≠ 0 ∧ len < 4 then some (wordOf fun r => if r < len.toNat then data r else 0) else none

/-- The accesses that make it: a byte, a half word, or three bytes. -/
def fspiTempAccesses : List (ℕ × ℕ) :=
  if len ≠ 0 ∧ len < 4 then
    if len = 1 then [(0, 1)] else if len = 2 then [(0, 2)] else [(0, 1), (1, 1), (2, 1)]
  else []

/-- `pReg->DATA = *pData++`, where `pData` may point to `temp`. -/
def FspiState.pushWord (temp : Option (BitVec 32)) (s : FspiState) : FspiState :=
  { s with
    accesses := if temp.isSome then s.accesses else s.accesses ++ [(4 * s.pData, 4)]
    pData := s.pData + 1
    pushed := s.pushed ++ [temp.getD (s.data.loadWord (4 * s.pData))] }

/-- `*pData++ = pReg->DATA`. -/
def FspiState.pullWord (s : FspiState) : FspiState :=
  { s with
    data := s.data.storeWord (4 * s.pData) (sched.fifo s.taken)
    accesses := s.accesses ++ [(4 * s.pData, 4)]
    pData := s.pData + 1
    taken := s.taken + 1 }

/-- The bytes behind the last whole word. -/
def FspiState.pullBytes (bytes : ℕ) (s : FspiState) : FspiState :=
  { s with
    data := s.data.write (4 * s.pData) bytes fun i => wordByte (sched.fifo s.taken) i
    accesses := s.accesses ++ (List.range bytes).map fun i => (4 * s.pData + i, 1)
    taken := s.taken + 1 }

def fspiStatus (all : Bool) : EfiStatus := if all then efiSuccess else efiTimeout

/-- `HAL_FSPI_XferData`, with at most `fuel` polls in a loop: its status if it has returned. The
fifteen moves that a read unrolls are the same as fifteen passes of its loop. -/
def halFspiXferData : Option EfiStatus × FspiState :=
  if dir = fspiWrite then
    let s : FspiState := ⟨data, fspiTempAccesses len, 0, 0, []⟩
    let words := (len + 3) >>> 2
    let (r, s) := levelLoop fspiXferTimeout (fun k => fspiTxlevel (sched.fsr k))
      (FspiState.pushWord (fspiTemp len data)) fuel 0 words.toNat 0 s
    (r.map fun r => fspiStatus r.1, s)
  else
    let bytes := len &&& 3
    let words := len >>> 2
    match levelLoop fspiXferTimeout (fun k => fspiRxlevel (sched.fsr k))
        (FspiState.pullWord sched) fuel 0 words.toNat 0 ⟨data, [], 0, 0, []⟩ with
    | (none, s) => (none, s)
    | (some (all, k), s) =>
      let (r, s) := levelLoop fspiXferTimeout (fun k => fspiRxlevel (sched.fsr k))
        (FspiState.pullBytes sched bytes.toNat) fuel k (if bytes = 0 then 0 else 1) 0 s
      (r.map fun r => fspiStatus (all && r.1), s)

/-! What it is for. -/

/-- All the data has been moved, and nothing else. -/
def FspiMoved (s : FspiState) : Prop :=
  if dir = fspiWrite then
    s.data = data ∧ s.pushed.length = (len.toNat + 3) / 4 ∧
      ∀ i < len.toNat, streamByte (s.pushed.getD · 0) i = data i
  else s.data = data.write 0 len.toNat (streamByte sched.fifo) ∧ s.taken = (len.toNat + 3) / 4

/-- The accesses lie in the buffer. -/
def FspiInside (s : FspiState) : Prop := ∀ access ∈ s.accesses, access.1 + access.2 ≤ len.toNat

/-- The function returns, stays in the buffer, and moves the data if it succeeds. -/
def FspiSound : Prop :=
  ∀ sched data, (∃ fuel, (halFspiXferData sched len dir data fuel).1.isSome) ∧
    ∀ fuel, FspiInside len (halFspiXferData sched len dir data fuel).2 ∧
      ((halFspiXferData sched len dir data fuel).1 = some efiSuccess →
        FspiMoved sched len dir data (halFspiXferData sched len dir data fuel).2)

/-! Words and bytes. -/

variable {sched len dir data fuel} {s : FspiState} {n : ℕ}

theorem pushWord_iterate (n : ℕ) (hs : s.pData = 0) :
    (FspiState.pushWord none)^[n] s =
      { s with
        accesses := s.accesses ++ (List.range n).map fun i => (4 * i, 4)
        pData := n
        pushed := s.pushed ++ (List.range n).map fun i => s.data.loadWord (4 * i) } := by
  induction n with
  | zero =>
    rw [Function.iterate_zero, id, List.range_zero, List.map_nil, List.map_nil, List.append_nil,
      List.append_nil, ← hs]
  | succ n ih =>
    rw [Function.iterate_succ_apply', ih, FspiState.pushWord, List.range_succ, List.map_append,
      List.map_append, ← List.append_assoc, ← List.append_assoc]
    rfl

/-- The first bytes of the next word of a stream go behind the words before it. -/
theorem write_nextWord {words : ℕ → BitVec 32} (hn : n ≤ 4) (k : ℕ) :
    (data.write 0 (4 * k) (streamByte words)).write (4 * k) n (wordByte (words k)) =
      data.write 0 (4 * k + n) (streamByte words) := by
  rw [← Cells.write_write, Nat.zero_add]
  refine Cells.write_congr fun j hj => ?_
  rw [streamByte, show (4 * k + j) / 4 = k by omega, show (4 * k + j) % 4 = j by omega]

theorem pullWord_iterate (n : ℕ) :
    (FspiState.pullWord sched)^[n] ⟨data, [], 0, 0, []⟩ =
      ⟨data.write 0 (4 * n) (streamByte sched.fifo), (List.range n).map fun i => (4 * i, 4), n, n,
        []⟩ := by
  induction n with
  | zero => rw [Nat.mul_zero, Cells.write_zero]; rfl
  | succ n ih =>
    rw [Function.iterate_succ_apply', ih, FspiState.pullWord, List.range_succ, List.map_append]
    congr 1
    exact write_nextWord (Nat.le_refl 4) n

/-- The bytes of a stream of words that come from a memory are those of the memory. -/
theorem streamByte_loadWord {words : ℕ → BitVec 32} {i : ℕ}
    (h : words (i / 4) = data.loadWord (4 * (i / 4))) : streamByte words i = data i := by
  rw [streamByte, h, Cells.wordByte_loadWord (by omega), Nat.div_add_mod]

theorem fspiTemp_of_lt {w : BitVec 32} (h : fspiTemp len data = some w) :
    0 < len.toNat ∧ len.toNat < 4 ∧ ∀ i < len.toNat, wordByte w i = data i := by
  rw [fspiTemp] at h
  split_ifs at h with hlen
  cases h
  have hlt := UInt32.lt_iff_toNat_lt.1 hlen.2
  refine ⟨Nat.pos_of_ne_zero fun h0 => hlen.1 (UInt32.toNat_inj.1 h0), hlt, fun i hi => ?_⟩
  rw [wordByte_wordOf (hi.trans hlt), if_pos hi]

/-! A write. -/

/-- The state in which a write starts, and how many words it pushes. -/
def fspiWriteInit (len : UInt32) (data : Cells (BitVec 8)) : FspiState :=
  ⟨data, fspiTempAccesses len, 0, 0, []⟩

def fspiWriteWords (len : UInt32) : ℕ := ((len + 3) >>> 2).toNat

theorem fspiWriteWords_eq : fspiWriteWords len = (len.toNat + 3) % 2 ^ 32 / 4 := by
  rw [fspiWriteWords, UInt32.toNat_shiftRight, UInt32.toNat_add]
  exact Nat.shiftRight_eq_div_pow _ 2

/-- A length that wraps is no whole number of words. -/
theorem fspiWriteWords_of_dvd (h : len.toNat < 4 ∨ 4 ∣ len.toNat) :
    fspiWriteWords len = (len.toNat + 3) / 4 := by
  have := len.toNat_lt
  rw [fspiWriteWords_eq]
  omega

theorem fspiStatus_eq_success {all : Bool} (h : fspiStatus all = efiSuccess) : all = true := by
  cases all
  · cases h
  · rfl

theorem halFspiXferData_write (sched : FspiSchedule) (len : UInt32) (data : Cells (BitVec 8))
    (fuel : ℕ) :
    ∃ moved ≤ fspiWriteWords len,
      (halFspiXferData sched len fspiWrite data fuel).2 =
        (FspiState.pushWord (fspiTemp len data))^[moved] (fspiWriteInit len data) ∧
      ∀ status, (halFspiXferData sched len fspiWrite data fuel).1 = some status →
        (status = efiSuccess → moved = fspiWriteWords len) ∧
          (status ≠ efiSuccess → ∃ i, fspiTxlevel (sched.fsr i) = 0) := by
  obtain ⟨moved, hmoved, hstate, hends⟩ :=
    @levelLoop_spec _ fspiXferTimeout fuel 0 (fspiWriteWords len) 0
      (fun k => fspiTxlevel (sched.fsr k)) (FspiState.pushWord (fspiTemp len data))
      (fspiWriteInit len data)
  rw [halFspiXferData, if_pos rfl]
  refine ⟨moved, hmoved, hstate, fun status h => ?_⟩
  obtain ⟨⟨all, next⟩, hr, rfl⟩ := Option.map_eq_some_iff.1 h
  obtain ⟨hall, hlevel⟩ := hends all next hr
  refine ⟨fun hs => hall (fspiStatus_eq_success hs), fun hs => hlevel ?_⟩
  cases all
  · rfl
  · exact absurd rfl hs

theorem halFspiXferData_write_returns (sched : FspiSchedule) (len : UInt32)
    (data : Cells (BitVec 8)) :
    ∃ fuel, (halFspiXferData sched len fspiWrite data fuel).1.isSome := by
  refine ⟨levelRank fspiXferTimeout (fspiWriteWords len) 0 + 1, ?_⟩
  rw [halFspiXferData, if_pos rfl]
  exact (Option.isSome_map ..).trans (levelLoop_returns (Nat.lt_succ_self _))

/-- Of a length under a word there is one word, which is made of its bytes. -/
theorem fspiMoved_short {w : BitVec 32} (h : fspiTemp len data = some w) :
    fspiWriteWords len = 1 ∧
      FspiMoved sched len fspiWrite data ((fspiWriteInit len data).pushWord (some w)) := by
  obtain ⟨hpos, hlt, hbytes⟩ := fspiTemp_of_lt h
  rw [fspiWriteWords_of_dvd (.inl hlt)]
  refine ⟨by omega, ?_⟩
  rw [FspiMoved, if_pos rfl]
  refine ⟨rfl, ?_, fun i hi => ?_⟩
  · change 1 = _
    omega
  · rw [streamByte, show i / 4 = 0 by omega, show i % 4 = i by omega]
    exact hbytes i hi

theorem fspiTemp_eq_none (h : fspiTemp len data = none) (hlt : len.toNat < 4) : len.toNat = 0 := by
  rw [fspiTemp] at h
  split_ifs at h with hlen
  by_contra hne
  refine hlen ⟨fun h0 => hne ?_, UInt32.lt_iff_toNat_lt.2 hlt⟩
  rw [h0]
  rfl

theorem pushWord_temp_accesses {w : BitVec 32} (n : ℕ) :
    ((FspiState.pushWord (some w))^[n] s).accesses = s.accesses := by
  induction n with
  | zero => rfl
  | succ n ih =>
    rw [Function.iterate_succ_apply']
    exact ih

theorem fspiTempAccesses_inside :
    ∀ access ∈ fspiTempAccesses len, access.1 + access.2 ≤ len.toNat := by
  have hnat : ∀ n < 3, len = UInt32.ofNat n ↔ len.toNat = n := fun n hn => by
    rw [← UInt32.toNat_inj, UInt32.toNat_ofNat_of_lt' (hn.trans (by decide))]
  intro access h
  rw [fspiTempAccesses] at h
  split_ifs at h with hlen hlen1 hlen2
  · have := (hnat 1 (by omega)).1 hlen1
    rw [List.mem_singleton.1 h]
    omega
  · have := (hnat 2 (by omega)).1 hlen2
    rw [List.mem_singleton.1 h]
    omega
  · have h0 := mt (hnat 0 (by omega)).2 hlen.1
    have h1 := mt (hnat 1 (by omega)).2 hlen1
    have h2 := mt (hnat 2 (by omega)).2 hlen2
    simp only [List.mem_cons, List.not_mem_nil, or_false] at h
    rcases h with rfl | rfl | rfl <;> dsimp only <;> omega
  · cases h

/-- The words of a whole number of words are those of the buffer. -/
theorem fspiMoved_whole (hdvd : 4 ∣ len.toNat) :
    FspiMoved sched len fspiWrite data
      ((FspiState.pushWord none)^[fspiWriteWords len] (fspiWriteInit len data)) := by
  rw [fspiWriteWords_of_dvd (.inr hdvd), pushWord_iterate _ rfl, FspiMoved, if_pos rfl]
  refine ⟨rfl, ?_, fun i hi => streamByte_loadWord ?_⟩
  · simp [fspiWriteInit]
  · have hlt : i / 4 < (len.toNat + 3) / 4 := by omega
    simp [fspiWriteInit, List.getD_eq_getElem?_getD, hlt]

theorem fspiSound_write (h : len.toNat < 4 ∨ 4 ∣ len.toNat) : FspiSound len fspiWrite := by
  intro sched data
  refine ⟨halFspiXferData_write_returns sched len data, fun fuel => ?_⟩
  obtain ⟨moved, hmoved, hstate, hends⟩ := halFspiXferData_write sched len data fuel
  rw [hstate]
  rcases htemp : fspiTemp len data with _ | w
  · have hdvd : 4 ∣ len.toNat := h.elim (fun hlt => by rw [fspiTemp_eq_none htemp hlt]; omega) id
    rw [fspiWriteWords_of_dvd h] at hmoved
    refine ⟨fun access haccess => ?_, fun hs => ?_⟩
    · rw [pushWord_iterate _ rfl, List.mem_append] at haccess
      rcases haccess with haccess | haccess
      · exact fspiTempAccesses_inside access haccess
      · obtain ⟨i, hi, rfl⟩ := List.mem_map.1 haccess
        have := List.mem_range.1 hi
        dsimp only
        omega
    · rw [(hends _ hs).1 rfl]
      exact fspiMoved_whole hdvd
  · obtain ⟨hone, hshort⟩ := @fspiMoved_short sched _ _ _ htemp
    refine ⟨fun access haccess => ?_, fun hs => ?_⟩
    · rw [pushWord_temp_accesses] at haccess
      exact fspiTempAccesses_inside access haccess
    · rw [(hends _ hs).1 rfl, hone]
      exact hshort

/-- With room for a word at each poll, a length that is not whole words has bytes of its last word
read behind the buffer, or wraps and has none of them read. -/
theorem not_fspiSound_write (hlen : 4 ≤ len.toNat) (hdvd : ¬ 4 ∣ len.toNat) :
    ¬ FspiSound len fspiWrite := by
  intro h
  obtain ⟨⟨fuel, hreturns⟩, hsound⟩ := h ⟨fun _ => 0x100, fun _ => 0⟩ fun _ => 0
  obtain ⟨hin, hmoved⟩ := hsound fuel
  obtain ⟨status, hstatus⟩ := Option.isSome_iff_exists.1 hreturns
  obtain ⟨moved, -, hstate, hends⟩ :=
    halFspiXferData_write ⟨fun _ => 0x100, fun _ => 0⟩ len (fun _ => 0) fuel
  have htemp : fspiTemp len (fun _ => 0) = none :=
    if_neg fun ⟨_, hlt⟩ => absurd (UInt32.lt_iff_toNat_lt.1 hlt) (Nat.not_lt.2 hlen)
  have hs : status = efiSuccess := by
    by_contra hs
    obtain ⟨i, hi⟩ := (hends status hstatus).2 hs
    exact absurd hi (show fspiTxlevel 0x100 ≠ 0 by decide)
  subst hs
  replace hmoved := hmoved hstatus
  have hlt := len.toNat_lt
  rw [hstate, (hends _ hstatus).1 rfl, htemp, pushWord_iterate _ rfl] at hin hmoved
  rcases Nat.eq_zero_or_pos (fspiWriteWords len) with h0 | hpos
  · rw [FspiMoved, if_pos rfl, h0] at hmoved
    have hlength : 0 = (len.toNat + 3) / 4 := hmoved.2.1
    omega
  · have hlast := hin (4 * (fspiWriteWords len - 1), 4) <| List.mem_append_right _ <|
      List.mem_map.2 ⟨_, List.mem_range.2 (Nat.sub_lt hpos Nat.one_pos), rfl⟩
    rw [fspiWriteWords_eq] at hpos hlast
    dsimp only at hlast
    omega

/-! A read. -/

theorem halFspiXferData_read (hdir : dir ≠ fspiWrite) (sched : FspiSchedule)
    (data : Cells (BitVec 8)) (fuel : ℕ) :
    ∃ moved ≤ len.toNat / 4, ∃ tail ≤ if len.toNat % 4 = 0 then 0 else 1,
      (halFspiXferData sched len dir data fuel).2 =
        (FspiState.pullBytes sched (len.toNat % 4))^[tail]
          ((FspiState.pullWord sched)^[moved] ⟨data, [], 0, 0, []⟩) ∧
      ((halFspiXferData sched len dir data fuel).1 = some efiSuccess →
        moved = len.toNat / 4 ∧ tail = if len.toNat % 4 = 0 then 0 else 1) := by
  have hwords : (len >>> 2).toNat = len.toNat / 4 := by
    rw [UInt32.toNat_shiftRight]
    exact Nat.shiftRight_eq_div_pow _ 2
  have hbytes : (len &&& 3).toNat = len.toNat % 4 := by
    rw [UInt32.toNat_and]
    exact Nat.and_two_pow_sub_one_eq_mod _ 2
  have hzero : (if len &&& 3 = 0 then 0 else 1) = if len.toNat % 4 = 0 then 0 else 1 :=
    if_congr (by rw [← UInt32.toNat_inj, hbytes]; rfl) rfl rfl
  obtain ⟨moved, hmoved, hstate, hends⟩ :=
    @levelLoop_spec _ fspiXferTimeout fuel 0 (len.toNat / 4) 0
      (fun k => fspiRxlevel (sched.fsr k)) (FspiState.pullWord sched) ⟨data, [], 0, 0, []⟩
  rw [halFspiXferData, if_neg hdir]
  dsimp only
  rw [hwords, hbytes, hzero]
  rcases heq : levelLoop fspiXferTimeout (fun k => fspiRxlevel (sched.fsr k))
    (FspiState.pullWord sched) fuel 0 (len.toNat / 4) 0 ⟨data, [], 0, 0, []⟩ with
    ⟨_ | ⟨all, next⟩, s⟩
  · rw [heq] at hstate
    exact ⟨moved, hmoved, 0, Nat.zero_le _, hstate, nofun⟩
  · rw [heq] at hstate hends
    obtain ⟨tail, htail, hstate', hends'⟩ :=
      @levelLoop_spec _ fspiXferTimeout fuel next (if len.toNat % 4 = 0 then 0 else 1) 0
        (fun k => fspiRxlevel (sched.fsr k)) (FspiState.pullBytes sched (len.toNat % 4)) s
    have hs : s = (FspiState.pullWord sched)^[moved] ⟨data, [], 0, 0, []⟩ := hstate
    refine ⟨moved, hmoved, tail, htail, hs ▸ hstate', fun h => ?_⟩
    obtain ⟨⟨all', next'⟩, hr, hs'⟩ := Option.map_eq_some_iff.1 h
    have hboth := Bool.and_eq_true_iff.1 (fspiStatus_eq_success hs')
    exact ⟨(hends all next rfl).1 hboth.1, (hends' all' next' hr).1 hboth.2⟩

theorem halFspiXferData_read_returns (hdir : dir ≠ fspiWrite) (sched : FspiSchedule)
    (data : Cells (BitVec 8)) : ∃ fuel, (halFspiXferData sched len dir data fuel).1.isSome := by
  refine ⟨levelRank fspiXferTimeout (len >>> 2).toNat 0 + levelRank fspiXferTimeout 1 0 + 1, ?_⟩
  rw [halFspiXferData, if_neg hdir]
  dsimp only
  obtain ⟨⟨all, next⟩, hr⟩ := Option.isSome_iff_exists.1 <|
    @levelLoop_returns _ fspiXferTimeout
      (levelRank fspiXferTimeout (len >>> 2).toNat 0 + levelRank fspiXferTimeout 1 0 + 1) 0
      (len >>> 2).toNat 0 (fun k => fspiRxlevel (sched.fsr k)) (FspiState.pullWord sched)
      ⟨data, [], 0, 0, []⟩ (by omega)
  rcases heq : levelLoop fspiXferTimeout (fun k => fspiRxlevel (sched.fsr k))
    (FspiState.pullWord sched)
    (levelRank fspiXferTimeout (len >>> 2).toNat 0 + levelRank fspiXferTimeout 1 0 + 1) 0
    (len >>> 2).toNat 0 ⟨data, [], 0, 0, []⟩ with ⟨r, s⟩
  rw [heq] at hr
  subst hr
  refine (Option.isSome_map ..).trans (levelLoop_returns ?_)
  split_ifs
  · rw [levelRank, levelRank, levelRank]
    omega
  · omega

theorem fspiSound_read (hdir : dir ≠ fspiWrite) : FspiSound len dir := by
  intro sched data
  refine ⟨halFspiXferData_read_returns hdir sched data, fun fuel => ?_⟩
  obtain ⟨moved, hmoved, tail, htail, hstate, hends⟩ :=
    @halFspiXferData_read len _ hdir sched data fuel
  rw [hstate, pullWord_iterate, FspiMoved, if_neg hdir]
  obtain rfl | ⟨rfl, hbytes⟩ : tail = 0 ∨ tail = 1 ∧ len.toNat % 4 ≠ 0 := by
    split_ifs at htail <;> omega
  · refine ⟨fun access haccess => ?_, fun hs => ?_⟩
    · obtain ⟨i, hi, rfl⟩ := List.mem_map.1 haccess
      have := List.mem_range.1 hi
      dsimp only
      omega
    · obtain ⟨rfl, hwhole⟩ := hends hs
      have hdvd : len.toNat % 4 = 0 := by
        by_contra hne
        rw [if_neg hne] at hwhole
        cases hwhole
      have hlen : 4 * (len.toNat / 4) = len.toNat := by omega
      refine ⟨?_, ?_⟩
      · rw [Function.iterate_zero, id, hlen]
      · change len.toNat / 4 = _
        omega
  · rw [Function.iterate_one, FspiState.pullBytes]
    refine ⟨fun access haccess => ?_, fun hs => ?_⟩
    · rcases List.mem_append.1 haccess with haccess | haccess
      · obtain ⟨i, hi, rfl⟩ := List.mem_map.1 haccess
        have := List.mem_range.1 hi
        dsimp only
        omega
      · obtain ⟨i, hi, rfl⟩ := List.mem_map.1 haccess
        have := List.mem_range.1 hi
        dsimp only
        omega
    · obtain ⟨rfl, -⟩ := hends hs
      refine ⟨?_, ?_⟩
      · refine (write_nextWord (by omega) _).trans ?_
        rw [Nat.div_add_mod]
      · dsimp only
        omega

/-- The transfer is sound exactly when it is a read, less than a word, or whole words. -/
theorem fspiSound_iff (len dir : UInt32) :
    FspiSound len dir ↔ dir ≠ fspiWrite ∨ len.toNat < 4 ∨ 4 ∣ len.toNat := by
  by_cases hdir : dir = fspiWrite
  · subst hdir
    constructor
    · intro h
      by_contra hcon
      obtain ⟨-, hlen, hdvd⟩ : ¬ _ ∧ ¬ len.toNat < 4 ∧ ¬ 4 ∣ len.toNat := by
        simpa only [not_or] using hcon
      exact not_fspiSound_write (Nat.not_lt.1 hlen) hdvd h
    · exact fun h => fspiSound_write (h.resolve_left fun hne => hne rfl)
  · exact iff_of_true (fspiSound_read hdir) (.inl hdir)

/-- The second word of a write of five bytes is read from three bytes behind them. -/
theorem not_fspiSound_five : ¬ FspiSound 5 fspiWrite := by
  intro h
  have hin := ((h ⟨fun _ => 0x100, fun _ => 0⟩ fun _ => 0).2 2).1 (4, 4) (by decide +kernel)
  exact absurd hin (by decide)

end Edk2Rk3576
