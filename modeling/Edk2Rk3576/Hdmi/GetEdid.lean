import Edk2Rk3576.Hdmi.EdidBlock

/-!
# Getting the EDID

`DwHdmiQpConnectorGetEdid` reads block after block, each one again where it is not accepted, and falls
back to 1920x1080@60 for good where a transfer fails or no copy of a block is accepted. Both ends are a
success, and `IdentifyDisplay` then parses the buffer as it is.
-/

namespace Edk2Rk3576.Hdmi

open Cells

def efiCrcError : EfiStatus := encodeError 27

def expectedEdidHeader : List UInt8 := [0x00, 0xff, 0xff, 0xff, 0xff, 0xff, 0xff, 0x00]

def isEdidBlockChecksumValid (edidBlock : List UInt8) : Bool := edidBlock.foldl (· + ·) 0 == 0

/-- `CheckEdidBlock`, of the bytes of the block. -/
def checkEdidBlock (edidBlock : List UInt8) (blockIndex : ℕ) : EfiStatus :=
  if blockIndex = 0 ∧ edidBlock.take expectedEdidHeader.length ≠ expectedEdidHeader then efiCrcError
  else if isEdidBlockChecksumValid edidBlock then efiSuccess
  -- KVM switches that leave the checksum of an extension they have changed
  else if 0 < blockIndex ∧ edidBlock.headD 0 = edidExtensionCea861 then efiSuccess
  else efiCrcError

/-- A try of a block: how the transfer ended, what it read, and what the check said, if it was made. -/
structure EdidTry where
  block : ℕ
  status : EfiStatus
  reads : List DdcRead
  check : Option EfiStatus

/-- The controller, with the EDID as its buffer, and the tries so far. -/
structure EdidRun where
  ddc : DdcState
  tries : List EdidTry

/-- What the hardware answers, by block and by try. -/
abbrev EdidAnswer := ℕ → ℕ → XferAnswer

def hdmiEdidBlockRetries : ℕ := 4

def rk3576FallbackMode : DisplayMode :=
  { vic := 16
    oscFreq := 148500
    hActive := 1920
    hFrontPorch := 88
    hSync := 44
    hBackPorch := 148
    hSyncActive := 1
    vActive := 1080
    vFrontPorch := 4
    vSync := 5
    vBackPorch := 36
    vSyncActive := 1
    denActive := 0
    clkActive := 0 }

section Model

variable (hpdTimeoutFlag : Bool)

/-- The loop over the tries of a block, from number `n` on, and whether a copy is accepted. -/
def edidBlockTries (a : ℕ → XferAnswer) (block : ℕ) : (retry n : ℕ) → EdidRun → Bool × EdidRun
  | 0, _, run => (false, run)
  | retry + 1, n, run =>
    let r := dwHdmiReadEdidBlock hpdTimeoutFlag (a n) (UInt8.ofNat block) run.ddc
    if efiError r.1 then (false, ⟨r.2, run.tries ++ [⟨block, r.1, r.2.reads, none⟩]⟩)
    else
      let status := checkEdidBlock (r.2.buf.slice (block * edidBlockSize) edidBlockSize) block
      let run := ⟨r.2, run.tries ++ [⟨block, r.1, r.2.reads, some status⟩]⟩
      if efiError status then edidBlockTries a block retry (n + 1) run else (true, run)

def edidBlocks (a : EdidAnswer) : List ℕ → EdidRun → Bool × EdidRun
  | [], run => (true, run)
  | block :: blocks, run =>
    let r := edidBlockTries hpdTimeoutFlag (a block) block hdmiEdidBlockRetries 0 run
    if r.1 then edidBlocks a blocks r.2 else r

/-- The loop over the blocks: the first one says how many there are behind it. -/
def edidAllBlocks (a : EdidAnswer) (run : EdidRun) : Bool × EdidRun :=
  let r := edidBlocks hpdTimeoutFlag a [0] run
  if r.1 then
    let extensions := min edidMaxExtensionBlocks (r.2.ddc.buf extensionFlagOffset).toNat
    edidBlocks hpdTimeoutFlag a (List.range' 1 extensions) r.2
  else r

structure GetEdidResult where
  status : EfiStatus
  connectorState : ConnectorState
  run : EdidRun

def dwHdmiQpConnectorGetEdid (a : EdidAnswer) (c : ConnectorState) (s : DdcState) : GetEdidResult :=
  let r := edidAllBlocks hpdTimeoutFlag a ⟨{ s with buf := c.edid }, []⟩
  let c := { c with edid := r.2.ddc.buf }
  if r.1 then ⟨efiSuccess, c, r.2⟩
  else
    let sinkInfo := { c.sinkInfo with isHdmi := true, preferredMode := rk3576FallbackMode }
    ⟨efiSuccess, { c with sinkInfo := sinkInfo }, r.2⟩

/-- `IdentifyDisplay`, for a connector that has an EDID and no native mode. -/
def identifyDisplay (a : EdidAnswer) (c : ConnectorState) (s : DdcState) :
    EdidRead (EfiStatus × ConnectorState) :=
  let r := dwHdmiQpConnectorGetEdid hpdTimeoutFlag a c s
  if efiError r.status then pure (r.status, r.connectorState)
  else edidGetDisplaySinkInfo r.connectorState

end Model

section Law

variable (hpdTimeoutFlag : Bool)

/-- The last try of a block. -/
def lastTry (tries : List EdidTry) (block : ℕ) : Option EdidTry :=
  tries.reverse.find? fun tr => tr.block == block

/-- All of the block is read, each byte by an operation that is done, and the check accepts it. -/
structure EdidTry.Accepted (tr : EdidTry) : Prop where
  status : tr.status = efiSuccess
  length : tr.reads.length = edidBlockSize
  done : ∀ r ∈ tr.reads, r.intr &&& i2cmOpDone ≠ 0
  check : tr.check = some efiSuccess

/-- What is to hold of an acquisition. -/
structure EdidAcquired (a : EdidAnswer) (c : ConnectorState) (s : DdcState) : Prop where
  stored : (dwHdmiQpConnectorGetEdid hpdTimeoutFlag a c s).connectorState.edid
    = storeReads ((dwHdmiQpConnectorGetEdid hpdTimeoutFlag a c s).run.tries.flatMap EdidTry.reads)
        c.edid
  placed : ∀ tr ∈ (dwHdmiQpConnectorGetEdid hpdTimeoutFlag a c s).run.tries, ∀ r ∈ tr.reads,
    r.address.slave = ddcAddr.toUInt32 ∧
      r.pos = 256 * r.address.segment.toNat + r.address.reg.toNat
  masked : Masked (dwHdmiQpConnectorGetEdid hpdTimeoutFlag a c s).run.ddc
  /-- The blocks that are parsed after a success. -/
  accepted : (dwHdmiQpConnectorGetEdid hpdTimeoutFlag a c s).status = efiSuccess →
    ∀ n, edidGetBlockCount (dwHdmiQpConnectorGetEdid hpdTimeoutFlag a c s).connectorState = .ok n →
      ∀ block < n, ∃ tr ∈ lastTry (dwHdmiQpConnectorGetEdid hpdTimeoutFlag a c s).run.tries block,
        tr.Accepted
  /-- What the caller has after a transfer that failed for good. -/
  fallback : (∃ tr ∈ (dwHdmiQpConnectorGetEdid hpdTimeoutFlag a c s).run.tries.getLast?,
      tr.check ≠ some efiSuccess) →
    ∀ r, identifyDisplay hpdTimeoutFlag a c s = .ok r →
      r.2.sinkInfo.isHdmi = true ∧ r.2.sinkInfo.preferredMode = rk3576FallbackMode

/-- The answers make up a copy of a block, each byte answered by an interrupt that has `D`. -/
def Copied (D : UInt32 → Prop) (a : XferAnswer) (block : ℕ) (content : ℕ → UInt8) : Prop :=
  ∀ i < edidBlockSize, ∃ t intr, Answered hpdTimeoutFlag (a (edidReadMsg block) i) t intr ∧ D intr ∧
    content i = ((a (edidReadMsg block) i t).rdData (edidAddress block i) &&& 0xff).toUInt8

/-- The check accepts the copy. -/
def Accepts (block : ℕ) (content : ℕ → UInt8) : Prop :=
  efiError (checkEdidBlock ((List.range edidBlockSize).map content) block) = false

/-- A copy of the block is accepted within `retry` tries, from number `n` on: those before it are
rejected. -/
def BlockAccepted (a : ℕ → XferAnswer) (block retry n : ℕ) (content : ℕ → UInt8) : Prop :=
  ∃ j < retry, (∀ m < j, ∃ rejected, Copied hpdTimeoutFlag (fun _ => True) (a (n + m)) block rejected ∧
      ¬ Accepts block rejected) ∧
    Copied hpdTimeoutFlag (fun intr => intr &&& i2cmOpDone ≠ 0) (a (n + j)) block content ∧
    Accepts block content

/-- The first block and each extension it announces are accepted. -/
def EdidComplete (a : EdidAnswer) : Prop :=
  ∃ base, BlockAccepted hpdTimeoutFlag (a 0) 0 hdmiEdidBlockRetries 0 base ∧
    ∀ block, 1 ≤ block → block ≤ min edidMaxExtensionBlocks (base extensionFlagOffset).toNat →
      ∃ content, BlockAccepted hpdTimeoutFlag (a block) block hdmiEdidBlockRetries 0 content

end Law

/-! ## The tries of a block -/

section Block

variable {hpdTimeoutFlag : Bool} {a : ℕ → XferAnswer} {block retry n : ℕ} {trs trs' : List EdidTry}
  {ok : Bool} {run : EdidRun} {m : Cells UInt8} {rs : List DdcRead}

theorem checkEdidBlock_of_no_error {edidBlock : List UInt8}
    (h : efiError (checkEdidBlock edidBlock block) = false) :
    checkEdidBlock edidBlock block = efiSuccess := by
  unfold checkEdidBlock at h ⊢
  split_ifs at h ⊢ <;> first | rfl | cases (efiError_encodeError 27).symm.trans h

/-- The run of the transfer of a block. -/
abbrev BlockReadRun (hpdTimeoutFlag : Bool) (a : XferAnswer) (block : ℕ) : List DdcRead → Bool → Prop :=
  ReadRun hpdTimeoutFlag (a (edidReadMsg block)) (block * edidBlockSize) (edidAddress block)
    edidBlockSize 0

theorem copied_iff {D : UInt32 → Prop} {a : XferAnswer} {content : ℕ → UInt8}
    (h : BlockReadRun hpdTimeoutFlag a block rs ok) :
    ok = true ∧ (∀ r ∈ rs, D r.intr) ∧ rs.map DdcRead.value = (List.range edidBlockSize).map content
      ↔ Copied hpdTimeoutFlag D a block content := by
  rw [List.range_eq_range', h.iff]
  exact ⟨fun h i hi => h i (Nat.zero_le i) (by omega), fun h i _ hi => h i (by omega)⟩

/-- The tries of a block, and whether the last one is accepted. -/
inductive BlockRun (hpdTimeoutFlag : Bool) (a : ℕ → XferAnswer) (block : ℕ) :
    ℕ → ℕ → List EdidTry → Bool → Prop
  | spent (n : ℕ) : BlockRun hpdTimeoutFlag a block 0 n [] false
  | failed {retry n : ℕ} {status : EfiStatus} {rs : List DdcRead}
      (h : BlockReadRun hpdTimeoutFlag (a n) block rs false) :
      BlockRun hpdTimeoutFlag a block (retry + 1) n [⟨block, status, rs, none⟩] false
  | rejected {retry n : ℕ} {rs : List DdcRead} {trs : List EdidTry} {ok : Bool}
      (h : BlockReadRun hpdTimeoutFlag (a n) block rs true)
      (hcheck : efiError (checkEdidBlock (rs.map DdcRead.value) block) = true)
      (rest : BlockRun hpdTimeoutFlag a block retry (n + 1) trs ok) :
      BlockRun hpdTimeoutFlag a block (retry + 1) n
        (⟨block, efiSuccess, rs, some (checkEdidBlock (rs.map DdcRead.value) block)⟩ :: trs) ok
  | accepted {retry n : ℕ} {rs : List DdcRead}
      (h : BlockReadRun hpdTimeoutFlag (a n) block rs true)
      (hcheck : efiError (checkEdidBlock (rs.map DdcRead.value) block) = false) :
      BlockRun hpdTimeoutFlag a block (retry + 1) n [⟨block, efiSuccess, rs, some efiSuccess⟩] true

/-- What a run of the tries `trs` leaves. -/
structure RunLeaves (trs : List EdidTry) (run run' : EdidRun) : Prop where
  tries : run'.tries = run.tries ++ trs
  buf : run'.ddc.buf = storeReads (trs.flatMap EdidTry.reads) run.ddc.buf
  masked : trs ≠ [] → Masked run'.ddc
  none : trs = [] → run' = run

theorem RunLeaves.refl : RunLeaves [] run run :=
  ⟨(List.append_nil _).symm, rfl, fun h => absurd rfl h, fun _ => rfl⟩

theorem RunLeaves.one {tr : EdidTry} {s : DdcState} (hbuf : s.buf = storeReads tr.reads run.ddc.buf)
    (hmasked : Masked s) : RunLeaves [tr] run ⟨s, run.tries ++ [tr]⟩ :=
  ⟨rfl, by rw [hbuf, List.flatMap_singleton], fun _ => hmasked, nofun⟩

theorem RunLeaves.trans {run' run'' : EdidRun} (h : RunLeaves trs run run')
    (h' : RunLeaves trs' run' run'') : RunLeaves (trs ++ trs') run run'' := by
  refine ⟨?_, ?_, fun hne => ?_, fun hnil => ?_⟩
  · rw [h'.tries, h.tries, List.append_assoc]
  · rw [h'.buf, h.buf, List.flatMap_append, storeReads_append]
  · by_cases hnil : trs' = []
    · rw [h'.none hnil]
      exact h.masked fun hnil' => hne (by rw [hnil', hnil]; rfl)
    · exact h'.masked hnil
  · obtain ⟨hnil, hnil'⟩ := List.append_eq_nil_iff.1 hnil
    rw [h'.none hnil', h.none hnil]

theorem edidBlockTries_run (hblock : block ≤ 4) :
    ∃ trs, BlockRun hpdTimeoutFlag a block retry n trs
        (edidBlockTries hpdTimeoutFlag a block retry n run).1 ∧
      RunLeaves trs run (edidBlockTries hpdTimeoutFlag a block retry n run).2 := by
  induction retry generalizing n run with
  | zero => exact ⟨[], .spent n, .refl⟩
  | succ retry ih =>
    obtain ⟨rs, ok, hread⟩ := @dwHdmiReadEdidBlock_run hpdTimeoutFlag run.ddc (a n) block hblock
    rw [edidBlockTries]
    rcases ok with _ | _
    · dsimp only
      rw [if_pos (hread.error rfl), hread.reads]
      exact ⟨_, .failed hread.run, .one hread.buf hread.masked⟩
    · have hslice : (dwHdmiReadEdidBlock hpdTimeoutFlag (a n) (UInt8.ofNat block) run.ddc).2.buf.slice
          (block * edidBlockSize) edidBlockSize = rs.map DdcRead.value := by
        rw [hread.buf]
        exact hread.run.slice _
      dsimp only
      rw [if_neg (by rw [hread.success rfl, efiError_success]; exact Bool.false_ne_true), hslice,
        hread.reads, hread.success rfl]
      rcases hcheck : efiError (checkEdidBlock (rs.map DdcRead.value) block)
      · rw [if_neg Bool.false_ne_true, checkEdidBlock_of_no_error hcheck]
        exact ⟨_, .accepted hread.run hcheck, .one hread.buf hread.masked⟩
      · rw [if_pos rfl]
        obtain ⟨trs, hrun, hleaves⟩ := @ih (n + 1) ⟨_, run.tries ++ [⟨block, efiSuccess, rs,
          some (checkEdidBlock (rs.map DdcRead.value) block)⟩]⟩
        exact ⟨_, .rejected hread.run hcheck hrun,
          RunLeaves.trans (.one hread.buf hread.masked) hleaves⟩

/-- Where the bytes of a try are from, and where they are stored. -/
def EdidTry.Of (block : ℕ) (tr : EdidTry) : Prop :=
  tr.block = block ∧ ∀ r ∈ tr.reads, ∃ i < edidBlockSize, r.pos = block * edidBlockSize + i ∧
    r.address = edidAddress block i

theorem BlockRun.mem (h : BlockRun hpdTimeoutFlag a block retry n trs ok) :
    ∀ tr ∈ trs, tr.Of block := by
  have hof : ∀ {a : XferAnswer} {rs : List DdcRead} {ok : Bool} {status : EfiStatus}
      {check : Option EfiStatus}, BlockReadRun hpdTimeoutFlag a block rs ok →
      EdidTry.Of block ⟨block, status, rs, check⟩ := fun hread => ⟨rfl, fun r hr => by
    obtain ⟨i, -, hi, heq⟩ := hread.mem r hr
    exact ⟨i, by omega, heq⟩⟩
  induction h with
  | spent => simp
  | failed hread => exact List.forall_mem_singleton.2 (hof hread)
  | rejected hread _ _ ih => exact List.forall_mem_cons.2 ⟨hof hread, ih⟩
  | accepted hread _ => exact List.forall_mem_singleton.2 (hof hread)

theorem BlockRun.ne_nil (h : BlockRun hpdTimeoutFlag a block (retry + 1) n trs ok) : trs ≠ [] := by
  cases h <;> exact nofun

/-- The last try, where there is one: it is the accepted one, or the check has not accepted it. -/
theorem BlockRun.last (h : BlockRun hpdTimeoutFlag a block retry n trs ok) :
    ∀ tr ∈ trs.getLast?, if ok then
        tr.status = efiSuccess ∧ tr.reads.length = edidBlockSize ∧ tr.check = some efiSuccess
      else tr.check ≠ some efiSuccess := by
  induction h with
  | spent => exact nofun
  | failed => rintro _ ⟨⟩; exact nofun
  | @rejected retry n rs trs ok _ hcheck rest ih =>
    rcases trs with _ | ⟨tr, trs⟩
    · rintro _ ⟨⟩
      cases rest
      exact fun h => by
        rw [Option.some.inj h, efiError_success] at hcheck
        cases hcheck
    · rw [List.getLast?_cons_cons]
      exact ih
  | accepted hread _ => rintro _ ⟨⟩; exact ⟨rfl, hread.length_eq, rfl⟩

/-- The buffer has the bytes of the accepted copy. -/
theorem BlockRun.slice (h : BlockRun hpdTimeoutFlag a block retry n trs true) (m : Cells UInt8) :
    ∀ tr ∈ trs.getLast?, (storeReads (trs.flatMap EdidTry.reads) m).slice (block * edidBlockSize)
      edidBlockSize = tr.reads.map DdcRead.value := by
  generalize hok : true = ok at h
  induction h generalizing m with
  | spent | failed => cases hok
  | @rejected retry n rs trs ok _ _ rest ih =>
    rw [List.flatMap_cons, storeReads_append]
    rcases trs with _ | ⟨tr, trs⟩
    · subst hok
      cases rest
    · rw [List.getLast?_cons_cons]
      exact ih _ hok
  | accepted hread _ =>
    rintro _ ⟨⟩
    simpa using hread.slice m

/-- The next try is of a copy that is rejected, or accepted. -/
theorem blockAccepted_succ {content : ℕ → UInt8} :
    BlockAccepted hpdTimeoutFlag a block (retry + 1) n content
      ↔ (Copied hpdTimeoutFlag (fun intr => intr &&& i2cmOpDone ≠ 0) (a n) block content ∧
          Accepts block content) ∨
        (∃ rejected, Copied hpdTimeoutFlag (fun _ => True) (a n) block rejected ∧
          ¬ Accepts block rejected) ∧
        BlockAccepted hpdTimeoutFlag a block retry (n + 1) content := by
  have hshift : ∀ m, n + 1 + m = n + (m + 1) := fun m => by omega
  constructor
  · rintro ⟨_ | j, hj, hrejected, hcopied, haccepts⟩
    · exact .inl ⟨hcopied, haccepts⟩
    · refine .inr ⟨hrejected 0 (by omega), j, by omega, fun m hm => ?_, ?_, haccepts⟩
      · rw [hshift]
        exact hrejected (m + 1) (by omega)
      · rwa [hshift]
  · rintro (⟨hcopied, haccepts⟩ | ⟨hrejected, j, hj, hrest, hcopied, haccepts⟩)
    · exact ⟨0, by omega, fun m hm => absurd hm (Nat.not_lt_zero m), hcopied, haccepts⟩
    · refine ⟨j + 1, by omega, fun m hm => ?_, by rwa [← hshift], haccepts⟩
      rcases m with _ | m
      · exact hrejected
      · rw [← hshift]
        exact hrest m (by omega)

/-- A run that accepts a copy has a try. -/
theorem BlockRun.ne_nil_of_accepted (h : BlockRun hpdTimeoutFlag a block retry n trs ok)
    (hok : ok = true) : trs ≠ [] := by
  cases h with
  | spent => cases hok
  | failed | rejected | accepted => exact nofun

/-- A run is accepted, each byte by an operation that is done, where the answers say so. -/
theorem BlockRun.iff {content : ℕ → UInt8} (h : BlockRun hpdTimeoutFlag a block retry n trs ok) :
    ok = true ∧ (∀ tr ∈ trs.getLast?, (∀ r ∈ tr.reads, r.intr &&& i2cmOpDone ≠ 0) ∧
        tr.reads.map DdcRead.value = (List.range edidBlockSize).map content)
      ↔ BlockAccepted hpdTimeoutFlag a block retry n content := by
  induction h with
  | spent n => exact ⟨fun h => (nomatch h.1), fun ⟨j, hj, _⟩ => absurd hj (Nat.not_lt_zero j)⟩
  | @failed retry n status rs hread =>
    have hno : ∀ {D content}, ¬ Copied hpdTimeoutFlag D (a n) block content := fun hcopied =>
      Bool.false_ne_true ((copied_iff hread).2 hcopied).1
    rw [blockAccepted_succ]
    refine ⟨fun h => (nomatch h.1), ?_⟩
    rintro (⟨hcopied, -⟩ | ⟨⟨_, hcopied, -⟩, -⟩)
    · exact absurd hcopied hno
    · exact absurd hcopied hno
  | @rejected retry n rs trs ok hread hcheck rest ih =>
    have hcontent := (hread.slice fun _ => 0).symm
    have hrejected : ∃ rejected, Copied hpdTimeoutFlag (fun _ => True) (a n) block rejected ∧
        ¬ Accepts block rejected :=
      ⟨_, (copied_iff hread).1 ⟨rfl, fun _ _ => trivial, hcontent⟩, fun haccepts => by
        rw [hcontent] at hcheck
        exact Bool.false_ne_true (haccepts.symm.trans hcheck)⟩
    have hnot : ¬ (Copied hpdTimeoutFlag (fun intr => intr &&& i2cmOpDone ≠ 0) (a n) block content ∧
        Accepts block content) := fun ⟨hcopied, haccepts⟩ => by
      rw [((copied_iff hread).2 hcopied).2.2] at hcheck
      exact Bool.false_ne_true (haccepts.symm.trans hcheck)
    have hlast : trs ≠ [] → ∀ tr : EdidTry, (tr :: trs).getLast? = trs.getLast? := by
      intro hne tr
      obtain ⟨tr', trs, rfl⟩ := List.exists_cons_of_ne_nil hne
      exact List.getLast?_cons_cons
    rw [blockAccepted_succ, or_iff_right hnot, and_iff_right hrejected, ← ih]
    refine and_congr_right fun hok => ?_
    rw [hlast (rest.ne_nil_of_accepted hok)]
  | @accepted retry n rs hread hcheck =>
    rw [blockAccepted_succ]
    constructor
    · rintro ⟨-, hlast⟩
      obtain ⟨hdone, hvalue⟩ := hlast _ rfl
      refine .inl ⟨(copied_iff hread).1 ⟨rfl, hdone, hvalue⟩, ?_⟩
      rw [Accepts, ← hvalue]
      exact hcheck
    · rintro (⟨hcopied, -⟩ | ⟨⟨rejected, hcopied, hnot⟩, -⟩)
      · refine ⟨rfl, ?_⟩
        rintro _ ⟨⟩
        exact ((copied_iff hread).2 hcopied).2
      · rw [Accepts, ← ((copied_iff hread).2 hcopied).2.2] at hnot
        exact absurd hcheck hnot

/-- The last try is accepted, with all of its operations done. -/
theorem BlockRun.accepted_iff (h : BlockRun hpdTimeoutFlag a block retry n trs ok) :
    (∃ tr ∈ trs.getLast?, tr.Accepted)
      ↔ ∃ content, BlockAccepted hpdTimeoutFlag a block retry n content := by
  constructor
  · rintro ⟨tr, htr, haccepted⟩
    rcases ok with _ | _
    · exact absurd haccepted.check (h.last tr htr)
    · refine ⟨fun i => storeReads (trs.flatMap EdidTry.reads) (fun _ => 0)
        (block * edidBlockSize + i), h.iff.1 ⟨rfl, fun tr' htr' => ?_⟩⟩
      obtain rfl := Option.some.inj (htr.symm.trans htr')
      exact ⟨haccepted.done, (h.slice _ tr htr').symm⟩
  · rintro ⟨content, hcontent⟩
    obtain ⟨rfl, hlast⟩ := h.iff.2 hcontent
    obtain ⟨tr, htr⟩ : ∃ tr, trs.getLast? = some tr :=
      ⟨_, List.getLast?_eq_some_getLast (h.ne_nil_of_accepted rfl)⟩
    obtain ⟨hstatus, hlength, hcheck⟩ := h.last tr htr
    exact ⟨tr, htr, hstatus, hlength, (hlast tr htr).1, hcheck⟩

end Block

/-! ## The blocks -/

section Blocks

variable {hpdTimeoutFlag : Bool} {a : EdidAnswer} {block : ℕ} {blocks : List ℕ}
  {trs trs' : List EdidTry} {ok : Bool} {run : EdidRun}

theorem lastTry_append_of_ne (h : ∀ tr ∈ trs', tr.block ≠ block) :
    lastTry (trs ++ trs') block = lastTry trs block := by
  have hnone : trs'.reverse.find? (fun tr => tr.block == block) = none :=
    List.find?_eq_none.2 fun tr htr => by simpa using h tr (List.mem_reverse.1 htr)
  rw [lastTry, List.reverse_append, List.find?_append, hnone, Option.none_or, lastTry]

theorem lastTry_append_of_ne_left (h : ∀ tr ∈ trs, tr.block ≠ block) :
    lastTry (trs ++ trs') block = lastTry trs' block := by
  have hnone : trs.reverse.find? (fun tr => tr.block == block) = none :=
    List.find?_eq_none.2 fun tr htr => by simpa using h tr (List.mem_reverse.1 htr)
  rw [lastTry, List.reverse_append, List.find?_append, hnone, Option.or_none, lastTry]

/-- The last try of all is the last one of its block. -/
theorem lastTry_of_getLast {tr : EdidTry} (h : tr ∈ trs.getLast?) : lastTry trs tr.block = some tr := by
  obtain ⟨trs, rfl⟩ := List.getLast?_eq_some_iff.1 h
  rw [lastTry, List.reverse_append, List.reverse_singleton, List.singleton_append]
  exact List.find?_cons_of_pos (beq_self_eq_true _)

theorem lastTry_of_block (h : ∀ tr ∈ trs, tr.block = block) : lastTry trs block = trs.getLast? := by
  rcases hlast : trs.getLast? with _ | tr
  · rw [List.getLast?_eq_none_iff.1 hlast]
    rfl
  · rw [← h tr (List.mem_of_getLast? hlast)]
    exact lastTry_of_getLast hlast

/-- The tries of the blocks, up to the first block that fails. -/
inductive BlocksRun (hpdTimeoutFlag : Bool) (a : EdidAnswer) : List ℕ → List EdidTry → Bool → Prop
  | nil : BlocksRun hpdTimeoutFlag a [] [] true
  | stop {block : ℕ} {blocks : List ℕ} {trs : List EdidTry}
      (h : BlockRun hpdTimeoutFlag (a block) block hdmiEdidBlockRetries 0 trs false) :
      BlocksRun hpdTimeoutFlag a (block :: blocks) trs false
  | next {block : ℕ} {blocks : List ℕ} {trs trs' : List EdidTry} {ok : Bool}
      (h : BlockRun hpdTimeoutFlag (a block) block hdmiEdidBlockRetries 0 trs true)
      (rest : BlocksRun hpdTimeoutFlag a blocks trs' ok) :
      BlocksRun hpdTimeoutFlag a (block :: blocks) (trs ++ trs') ok

theorem edidBlocks_run (hblocks : ∀ block ∈ blocks, block ≤ 4) :
    ∃ trs, BlocksRun hpdTimeoutFlag a blocks trs (edidBlocks hpdTimeoutFlag a blocks run).1 ∧
      RunLeaves trs run (edidBlocks hpdTimeoutFlag a blocks run).2 := by
  induction blocks generalizing run with
  | nil => exact ⟨[], .nil, .refl⟩
  | cons block blocks ih =>
    obtain ⟨hblock, hblocks⟩ := List.forall_mem_cons.1 hblocks
    obtain ⟨trs, hrun, hleaves⟩ := @edidBlockTries_run hpdTimeoutFlag (a block) block
      hdmiEdidBlockRetries 0 run hblock
    rw [edidBlocks]
    rcases hok : (edidBlockTries hpdTimeoutFlag (a block) block hdmiEdidBlockRetries 0 run).1
    · rw [if_neg Bool.false_ne_true, hok]
      rw [hok] at hrun
      exact ⟨trs, .stop hrun, hleaves⟩
    · rw [if_pos rfl]
      rw [hok] at hrun
      obtain ⟨trs', hrest, hleaves'⟩ := @ih _ hblocks
      exact ⟨trs ++ trs', .next hrun hrest, hleaves.trans hleaves'⟩

theorem BlocksRun.mem (h : BlocksRun hpdTimeoutFlag a blocks trs ok) :
    ∀ tr ∈ trs, ∃ block ∈ blocks, tr.Of block := by
  induction h with
  | nil => exact fun _ htr => absurd htr List.not_mem_nil
  | stop h => exact fun tr htr => ⟨_, List.mem_cons_self, h.mem tr htr⟩
  | next h _ ih =>
    intro tr htr
    rcases List.mem_append.1 htr with htr | htr
    · exact ⟨_, List.mem_cons_self, h.mem tr htr⟩
    · obtain ⟨block, hblock, hof⟩ := ih tr htr
      exact ⟨block, List.mem_cons_of_mem _ hblock, hof⟩

/-- The blocks are accepted where the answers say so. -/
theorem BlocksRun.accepted_iff (h : BlocksRun hpdTimeoutFlag a blocks trs ok) (hnodup : blocks.Nodup) :
    (∀ block ∈ blocks, ∃ tr ∈ lastTry trs block, tr.Accepted)
      ↔ ∀ block ∈ blocks, ∃ content,
        BlockAccepted hpdTimeoutFlag (a block) block hdmiEdidBlockRetries 0 content := by
  induction h with
  | nil => simp
  | @stop block blocks trs h =>
    have hlast := lastTry_of_block fun tr htr => (h.mem tr htr).1
    have hno : ¬ ∃ content, BlockAccepted hpdTimeoutFlag (a block) block hdmiEdidBlockRetries 0
        content := fun ⟨_, hcontent⟩ => (nomatch (h.iff.2 hcontent).1)
    refine iff_of_false (fun haccepted => hno (h.accepted_iff.1 ?_)) fun hall =>
      hno (hall block List.mem_cons_self)
    rw [← hlast]
    exact haccepted block List.mem_cons_self
  | @next block blocks trs trs' ok h rest ih =>
    obtain ⟨hnot, hnodup⟩ := List.nodup_cons.1 hnodup
    have hfirst : lastTry (trs ++ trs') block = trs.getLast? := by
      rw [lastTry_append_of_ne, lastTry_of_block fun tr htr => (h.mem tr htr).1]
      intro tr htr heq
      obtain ⟨block', hblock', hof⟩ := rest.mem tr htr
      rw [← hof.1, heq] at hblock'
      exact hnot hblock'
    have hothers : ∀ block' ∈ blocks, lastTry (trs ++ trs') block' = lastTry trs' block' := by
      intro block' hblock'
      refine lastTry_append_of_ne_left fun tr htr heq => hnot ?_
      rwa [← (h.mem tr htr).1, heq]
    rw [List.forall_mem_cons, List.forall_mem_cons, hfirst, h.accepted_iff, ← ih hnodup]
    refine and_congr_right fun _ => forall₂_congr fun block' hblock' => ?_
    rw [hothers block' hblock']

theorem BlocksRun.ok_of_accepted (h : BlocksRun hpdTimeoutFlag a blocks trs ok)
    (hall : ∀ block ∈ blocks, ∃ content,
      BlockAccepted hpdTimeoutFlag (a block) block hdmiEdidBlockRetries 0 content) : ok = true := by
  induction h with
  | nil => rfl
  | stop h =>
    obtain ⟨content, hcontent⟩ := hall _ List.mem_cons_self
    exact (h.iff.2 hcontent).1
  | next _ _ ih => exact ih fun block hblock => hall block (List.mem_cons_of_mem _ hblock)

end Blocks

/-! ## The acquisition -/

section Acquisition

variable {hpdTimeoutFlag : Bool} {a : EdidAnswer} {trs : List EdidTry} {ok : Bool} {run : EdidRun}
  {tr : EdidTry} {r : DdcRead} {block : ℕ} {c : ConnectorState} {s : DdcState}

/-- The register of a byte, and its place in the EDID. -/
theorem EdidTry.Of.placed (h : tr.Of block) (hblock : block ≤ 4) (hr : r ∈ tr.reads) :
    block * edidBlockSize ≤ r.pos ∧ r.address.slave = ddcAddr.toUInt32 ∧
      r.pos = 256 * r.address.segment.toNat + r.address.reg.toNat := by
  obtain ⟨i, hi, hpos, haddress⟩ := h.2 r hr
  have hi : i < 128 := hi
  have hreg : (UInt8.ofNat block * 128 + UInt8.ofNat i).toUInt32.toNat = block % 2 * 128 + i := by
    rw [UInt8.toNat_toUInt32, UInt8.toNat_add, UInt8.toNat_mul, UInt8.toNat_ofNat', UInt8.toNat_ofNat']
    change (block % 256 * 128 % 256 + i % 256) % 256 = _
    omega
  have hsegment : (UInt32.ofNat (block / 2)).toNat = block / 2 :=
    UInt32.toNat_ofNat_of_lt' (by change block / 2 < 4294967296; omega)
  refine ⟨by rw [hpos]; exact Nat.le_add_right _ _, by rw [haddress]; rfl, ?_⟩
  rw [hpos, haddress]
  change block * 128 + i = 256 * (UInt32.ofNat (block / 2)).toNat
    + (UInt8.ofNat block * 128 + UInt8.ofNat i).toUInt32.toNat
  rw [hreg, hsegment]
  omega

/-- The number of blocks there are, by the first one. -/
def blockCount (m : Cells UInt8) : ℕ := 1 + min edidMaxExtensionBlocks (m extensionFlagOffset).toNat

theorem flag_of_accepted {base : ℕ → UInt8} {m : Cells UInt8}
    (h : BlockRun hpdTimeoutFlag (a 0) 0 hdmiEdidBlockRetries 0 trs ok)
    (hbase : BlockAccepted hpdTimeoutFlag (a 0) 0 hdmiEdidBlockRetries 0 base) :
    ok = true ∧
      base extensionFlagOffset = storeReads (trs.flatMap EdidTry.reads) m extensionFlagOffset := by
  obtain ⟨rfl, hlast⟩ := h.iff.2 hbase
  obtain ⟨tr, htr⟩ : ∃ tr, trs.getLast? = some tr :=
    ⟨_, List.getLast?_eq_some_getLast (h.ne_nil_of_accepted rfl)⟩
  have hslice := (h.slice m tr htr).trans (hlast tr htr).2
  have hflag := List.map_inj_left.1 hslice extensionFlagOffset (List.mem_range.2 (by decide))
  exact ⟨rfl, hflag.symm⟩

/-- The extensions are not stored over the first block. -/
theorem storeReads_extensions {extensions : ℕ} {m : Cells UInt8} (hle : extensions ≤ 4)
    (h : BlocksRun hpdTimeoutFlag a (List.range' 1 extensions) trs ok) :
    storeReads (trs.flatMap EdidTry.reads) m extensionFlagOffset = m extensionFlagOffset := by
  refine storeReads_of_ne fun r hr => ?_
  obtain ⟨tr, htr, hr⟩ := List.mem_flatMap.1 hr
  obtain ⟨block, hblock, hof⟩ := h.mem tr htr
  obtain ⟨hone, hlt⟩ := List.mem_range'_1.1 hblock
  have hpos : block * 128 ≤ r.pos := (hof.placed (by omega) hr).1
  change r.pos ≠ 126
  omega

/-- The run of all the blocks. Those tried are of the blocks there are, by the buffer as it is then,
and all of them where none fails. -/
theorem edidAllBlocks_run :
    ∃ blocks trs, BlocksRun hpdTimeoutFlag a blocks trs (edidAllBlocks hpdTimeoutFlag a run).1 ∧
      RunLeaves trs run (edidAllBlocks hpdTimeoutFlag a run).2 ∧ trs ≠ [] ∧ blocks.Nodup ∧
      (∀ block ∈ blocks, block < blockCount (edidAllBlocks hpdTimeoutFlag a run).2.ddc.buf) ∧
      0 ∈ blocks ∧
      ((edidAllBlocks hpdTimeoutFlag a run).1 = true →
        ∀ block < blockCount (edidAllBlocks hpdTimeoutFlag a run).2.ddc.buf, block ∈ blocks) ∧
      ∀ base, BlockAccepted hpdTimeoutFlag (a 0) 0 hdmiEdidBlockRetries 0 base →
        base extensionFlagOffset
          = (edidAllBlocks hpdTimeoutFlag a run).2.ddc.buf extensionFlagOffset := by
  obtain ⟨trs, hrun, hleaves⟩ := @edidBlocks_run hpdTimeoutFlag a [0] run (by simp)
  unfold edidAllBlocks
  generalize edidBlocks hpdTimeoutFlag a [0] run = first at hrun hleaves ⊢
  obtain ⟨ok, run₁⟩ := first
  have hpos : ∀ m, 0 < blockCount m := fun m => Nat.add_pos_left Nat.one_pos _
  rcases hrun with _ | h | ⟨h, ⟨⟩⟩
  · simp only [Bool.false_eq_true, if_false]
    refine ⟨[0], trs, .stop h, hleaves, h.ne_nil, List.nodup_singleton 0,
      List.forall_mem_singleton.2 (hpos _), List.mem_singleton_self 0, nofun, fun base hbase => ?_⟩
    rw [hleaves.buf]
    exact (flag_of_accepted h hbase).2
  · simp only [if_true]
    rw [List.append_nil] at hleaves
    have hle : min edidMaxExtensionBlocks (run₁.ddc.buf extensionFlagOffset).toNat ≤ 4 :=
      Nat.min_le_left _ _
    obtain ⟨trs', hrun', hleaves'⟩ := @edidBlocks_run hpdTimeoutFlag a
      (List.range' 1 (min edidMaxExtensionBlocks (run₁.ddc.buf extensionFlagOffset).toNat)) run₁
      fun block hblock => by
        have := List.mem_range'_1.1 hblock
        omega
    have hflag : (edidBlocks hpdTimeoutFlag a (List.range' 1 (min edidMaxExtensionBlocks
        (run₁.ddc.buf extensionFlagOffset).toNat)) run₁).2.ddc.buf extensionFlagOffset
          = run₁.ddc.buf extensionFlagOffset := by
      rw [hleaves'.buf]
      exact storeReads_extensions hle hrun'
    have hcount : blockCount (edidBlocks hpdTimeoutFlag a (List.range' 1 (min edidMaxExtensionBlocks
        (run₁.ddc.buf extensionFlagOffset).toNat)) run₁).2.ddc.buf
          = 1 + min edidMaxExtensionBlocks (run₁.ddc.buf extensionFlagOffset).toNat := by
      rw [blockCount, hflag]
    rw [hcount, hflag]
    refine ⟨_, _, .next h hrun', hleaves.trans hleaves', ?_, ?_, ?_, List.mem_cons_self, ?_, ?_⟩
    · exact fun hnil => h.ne_nil (List.append_eq_nil_iff.1 hnil).1
    · exact List.nodup_cons.2 ⟨by simp, List.nodup_range'⟩
    · refine List.forall_mem_cons.2 ⟨by omega, fun block hblock => ?_⟩
      exact (List.mem_range'_1.1 hblock).2
    · rintro - (_ | block) hblock
      · exact List.mem_cons_self
      · exact List.mem_cons_of_mem _ (List.mem_range'_1.2 ⟨by omega, hblock⟩)
    · intro base hbase
      rw [hleaves.buf]
      exact (flag_of_accepted h hbase).2

/-- Both ends are a success, and leave the buffer. -/
theorem dwHdmiQpConnectorGetEdid_eq :
    (dwHdmiQpConnectorGetEdid hpdTimeoutFlag a c s).status = efiSuccess ∧
      (dwHdmiQpConnectorGetEdid hpdTimeoutFlag a c s).run
        = (edidAllBlocks hpdTimeoutFlag a ⟨{ s with buf := c.edid }, []⟩).2 ∧
      (dwHdmiQpConnectorGetEdid hpdTimeoutFlag a c s).connectorState.edid
        = (edidAllBlocks hpdTimeoutFlag a ⟨{ s with buf := c.edid }, []⟩).2.ddc.buf := by
  unfold dwHdmiQpConnectorGetEdid
  dsimp only
  split_ifs <;> exact ⟨rfl, rfl, rfl⟩

theorem edidGetBlockCount_eq (c : ConnectorState) : edidGetBlockCount c = .ok (blockCount c.edid) := by
  have hflag : edidByte c 0 extensionFlagOffset = .ok (c.edid extensionFlagOffset) :=
    if_pos ⟨by decide, by decide⟩
  rw [edidGetBlockCount, hflag]
  rfl

theorem EdidAcquired.complete (h : EdidAcquired hpdTimeoutFlag a c s) :
    EdidComplete hpdTimeoutFlag a := by
  obtain ⟨hstatus, hresult, hedid⟩ := @dwHdmiQpConnectorGetEdid_eq hpdTimeoutFlag a c s
  obtain ⟨blocks, trs, hrun, hleaves, -, hnodup, hin, hzero, hall, hbase⟩ :=
    @edidAllBlocks_run hpdTimeoutFlag a ⟨{ s with buf := c.edid }, []⟩
  have htries : (dwHdmiQpConnectorGetEdid hpdTimeoutFlag a c s).run.tries = trs := by
    rw [hresult]
    exact hleaves.tries
  rw [← hedid] at hin hall hbase
  have haccepted := h.accepted hstatus _ (edidGetBlockCount_eq _)
  rw [htries] at haccepted
  have hblocks := (hrun.accepted_iff hnodup).1 fun block hblock => haccepted block (hin block hblock)
  obtain ⟨base, hfirst⟩ := hblocks 0 hzero
  refine ⟨base, hfirst, fun block _ hle => hblocks block (hall (hrun.ok_of_accepted hblocks) block ?_)⟩
  rw [hbase base hfirst] at hle
  exact Nat.lt_one_add_iff.2 hle

theorem EdidComplete.acquired (h : EdidComplete hpdTimeoutFlag a) :
    EdidAcquired hpdTimeoutFlag a c s := by
  obtain ⟨base, hfirst, hrest⟩ := h
  obtain ⟨-, hresult, hedid⟩ := @dwHdmiQpConnectorGetEdid_eq hpdTimeoutFlag a c s
  obtain ⟨blocks, trs, hrun, hleaves, hne, hnodup, hin, -, hall, hbase⟩ :=
    @edidAllBlocks_run hpdTimeoutFlag a ⟨{ s with buf := c.edid }, []⟩
  have htries : (dwHdmiQpConnectorGetEdid hpdTimeoutFlag a c s).run.tries = trs := by
    rw [hresult]
    exact hleaves.tries
  have hcount : blockCount (dwHdmiQpConnectorGetEdid hpdTimeoutFlag a c s).connectorState.edid ≤ 5 :=
    Nat.add_le_add_left (Nat.min_le_left _ _) 1
  rw [← hedid] at hin hall hbase
  have hblocks : ∀ block ∈ blocks, ∃ content,
      BlockAccepted hpdTimeoutFlag (a block) block hdmiEdidBlockRetries 0 content := by
    intro block hblock
    rcases Nat.eq_zero_or_pos block with rfl | hpos
    · exact ⟨base, hfirst⟩
    · refine hrest block hpos ?_
      rw [hbase base hfirst]
      exact Nat.lt_one_add_iff.1 (hin block hblock)
  have haccepted := (hrun.accepted_iff hnodup).2 hblocks
  have hok := hrun.ok_of_accepted hblocks
  refine ⟨?_, ?_, ?_, ?_, ?_⟩
  · rw [hedid, hleaves.buf, htries]
  · intro tr htr r hr
    rw [htries] at htr
    obtain ⟨block, hblock, hof⟩ := hrun.mem tr htr
    have := hin block hblock
    exact (hof.placed (by omega) hr).2
  · rw [hresult]
    exact hleaves.masked hne
  · intro _ n hn block hblock
    rw [edidGetBlockCount_eq] at hn
    cases hn
    rw [htries]
    exact haccepted block (hall hok block hblock)
  · rintro ⟨tr, htr, hcheck⟩
    rw [htries] at htr
    obtain ⟨block, hblock, hof⟩ := hrun.mem tr (List.mem_of_getLast? htr)
    obtain ⟨tr', htr', haccept⟩ := haccepted block hblock
    rw [← hof.1, lastTry_of_getLast htr] at htr'
    obtain rfl := Option.some.inj htr'
    exact absurd haccept.check hcheck

/-- The EDID is acquired exactly where each block there is has a copy that the check accepts, within its
tries, of bytes that are all read by operations that are done. -/
theorem edidAcquired_iff (hpdTimeoutFlag : Bool) (a : EdidAnswer) (c : ConnectorState) (s : DdcState) :
    EdidAcquired hpdTimeoutFlag a c s ↔ EdidComplete hpdTimeoutFlag a :=
  ⟨EdidAcquired.complete, EdidComplete.acquired⟩

/-- The sink is gone when the first byte is to be read. -/
theorem hpdLost_not_acquired :
    ¬ EdidAcquired false (fun _ _ _ _ _ => ⟨0, fun _ => 0, fun _ => 0, false⟩)
      ⟨fun _ => 0, drmModeConnectorHdmia, ⟨false, ⟨false, false, false⟩, false, rk3576FallbackMode⟩⟩
      ⟨⟨0, false, false⟩, fun _ => 0, fun _ => 0, [], fun _ => 0⟩ := by
  intro h
  obtain ⟨base, ⟨j, -, -, hcopied, -⟩, -⟩ := h.complete
  obtain ⟨t, intr, ⟨-, hends⟩, -⟩ := hcopied 0 (by decide)
  have hlost : dwHdmiReadHpd false ⟨0, fun _ => 0, fun _ => 0, false⟩ = false := by decide
  simp only [byteEnds, hlost, Bool.not_false, if_true, reduceCtorEq, TryEnd.done.injEq] at hends

end Acquisition

end Edk2Rk3576.Hdmi
