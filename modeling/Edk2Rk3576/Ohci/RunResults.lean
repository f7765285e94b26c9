import Edk2Rk3576.Ohci.Runs

/-!
# What holds in every run of the controller

The controller goes through an endpoint as often as its polling interval asks for, everything that is
held is held for a context, the descriptors of a transfer lead over its buffer whatever the
controller has written to them, and the timer submits a transfer again as it was submitted first. A
bulk or a control transfer shows the controller what it is asked for, and gives everything back.
-/

namespace Edk2Rk3576.Ohci

open Cells UnitPool

variable {D : DmaLib} {base₀ : DmaState} {top : ℕ} {dev₀ dev : OhciDev} {t : OhciTrace}

section Results

/-- In every frame of every run the list of the controller ends, and it passes the endpoint of a
transfer once in as many frames as the largest power of two up to its polling interval and 32. There
is nothing else in it but the heads of the lists. -/
theorem ohci_run_frames (hD : D.Lawful top) (htop : top ≤ 2 ^ 32)
    (hboot : OhciBoot D top base₀ dev₀ dev)
    (h : ReachedOk (ohciStep D) (OhciAllowed D) ⟨dev, []⟩ t) :
    ∃ chain : ℕ → List ℕ,
      (∀ f, Seg t.dev.nextED (t.dev.hccaInterruptTable (f % 32)) (chain f) 0 ∧ 0 ∉ chain f ∧
        ∀ x ∈ chain f, (∃ n < 63, x = t.dev.listHead n) ∨
          ∃ e ∈ t.dev.interruptContextList, e.ed = x) ∧
      ∀ e ∈ t.dev.interruptContextList,
        (t.dev.ed e.ed).functionAddress = e.deviceAddress ∧
        (t.dev.ed e.ed).endPointNum = e.endPointAddress % 16 ∧
        ∃ period residue, residue < period ∧ period ∣ 32 ∧ period ≤ e.pollingInterval ∧
          (period = 32 ∨ e.pollingInterval < period * 2) ∧
          ∀ f, (chain f).count e.ed = if f % period = residue then 1 else 0 := by
  obtain ⟨att, tds, hsound⟩ := ohciSound_of_reached hD htop hboot h
  refine ⟨t.dev.frameItems att, fun f => ?_, fun e he => ?_⟩
  · obtain ⟨hseg, hzero, hmem, -⟩ := hsound.sched.frame f
    refine ⟨hseg, hzero, fun x hx => ?_⟩
    obtain ⟨n, hn, hxn⟩ := hmem x hx
    rcases List.mem_cons.1 hxn with rfl | hxn
    · exact .inl ⟨n, hn, rfl⟩
    · exact .inr (hsound.attached n hn x hxn)
  · have htransfer := hsound.transfers e he
    obtain ⟨n, hn, hlevel, hed⟩ := hsound.placed e he
    obtain ⟨hdvd, hle, hlargest⟩ := listPeriod_ohciDepth htransfer.polled hlevel
    refine ⟨htransfer.functionAddress, htransfer.endPointNum, listPeriod n, listResidue n,
      listResidue_lt n hn, hdvd, hle, hlargest, fun f => ?_⟩
    obtain ⟨-, -, -, hcount⟩ := hsound.sched.frame f
    exact hcount n hn e.ed (List.mem_cons_of_mem _ hed)

theorem ohci_run_frames_bump : ∃ t : OhciTrace, t.dev.interruptContextList.length = 1 ∧
    ∃ chain : ℕ → List ℕ,
      (∀ f, Seg t.dev.nextED (t.dev.hccaInterruptTable (f % 32)) (chain f) 0 ∧ 0 ∉ chain f ∧
        ∀ x ∈ chain f, (∃ n < 63, x = t.dev.listHead n) ∨
          ∃ e ∈ t.dev.interruptContextList, e.ed = x) ∧
      ∀ e ∈ t.dev.interruptContextList,
        (t.dev.ed e.ed).functionAddress = e.deviceAddress ∧
        (t.dev.ed e.ed).endPointNum = e.endPointAddress % 16 ∧
        ∃ period residue, residue < period ∧ period ∣ 32 ∧ period ≤ e.pollingInterval ∧
          (period = 32 ∨ e.pollingInterval < period * 2) ∧
          ∀ f, (chain f).count e.ed = if f % period = residue then 1 else 0 := by
  obtain ⟨dev, t, hboot, ht, hlength⟩ := bumpDev_run
  exact ⟨t, hlength, ohci_run_frames bumpDma_lawful le_rfl hboot ht⟩

/-- The descriptors of a transfer but the last are those of a data stage, as far as they stay. -/
theorem Transfer.stage {e : InterruptContextEntry} {l : List ℕ} (h : Transfer dev e l) :
    ∃ data last addr toggle, l = data ++ [last] ∧ addr + e.dataLength ≤ 2 ^ 32 ∧
      data.map (fun x => (dev.td x).unlinked.fixed) =
        (dataTds tdInPid e.maximumPacketLength (e.dataLength + 1) toggle addr e.dataLength).map
          TdDescriptor.fixed ∧
      (dev.td last).unlinked.fixed = emptyTd := by
  obtain ⟨addr, toggle, hfits, hpieces⟩ := h.pieces
  obtain ⟨data, last, rfl⟩ : ∃ data last, l = data ++ [last] := by
    rcases List.eq_nil_or_concat l with hnil | ⟨data, last, hl⟩
    · exact absurd hnil h.ne_nil
    · exact ⟨data, last, hl.trans List.concat_eq_append⟩
  rw [List.map_append, List.map_append] at hpieces
  obtain ⟨hdata, hlast⟩ := List.append_inj' hpieces rfl
  exact ⟨data, last, addr, toggle, rfl, hfits, hdata, (List.cons.inj hlast).1⟩

/-- In every run the descriptors of a transfer tile its buffer with packets of the endpoint, up to
an empty one, and no two transfers share a descriptor. -/
theorem ohci_run_tiles (hD : D.Lawful top) (htop : top ≤ 2 ^ 32)
    (hboot : OhciBoot D top base₀ dev₀ dev)
    (h : ReachedOk (ohciStep D) (OhciAllowed D) ⟨dev, []⟩ t) :
    ∃ tds : ℕ → List ℕ, (t.dev.interruptContextList.flatMap fun e => tds e.dataTd).Nodup ∧
      ∀ e ∈ t.dev.interruptContextList, Seg t.dev.nextTDPointer e.dataTd (tds e.dataTd) 0 ∧
        ∃ data last addr, tds e.dataTd = data ++ [last] ∧ addr + e.dataLength ≤ 2 ^ 32 ∧
          Window.Tile addr (data.map fun x => (t.dev.td x).window) (addr + e.dataLength) ∧
          (t.dev.td last).actualSendLength = 0 ∧
          ∀ x ∈ data, 0 < (t.dev.td x).actualSendLength ∧
            (t.dev.td x).actualSendLength ≤ e.maximumPacketLength ∧
            (t.dev.td x).bufferEndPointer + 1 =
              (t.dev.td x).dataBuffer + (t.dev.td x).actualSendLength ∧
            (t.dev.td x).dirPID = tdInPid := by
  obtain ⟨att, tds, hsound⟩ := ohciSound_of_reached hD htop hboot h
  refine ⟨tds, List.nodup_flatMap.2 ⟨fun e he => (hsound.walkable htop he).nodup,
    hsound.apart.imp fun {e e'} hapart => hapart.2⟩, fun e he => ?_⟩
  have htransfer := hsound.transfers e he
  obtain ⟨data, last, addr, toggle, hl, hfits, hdata, hlast⟩ := htransfer.stage
  obtain ⟨hmax, hmax'⟩ := htransfer.packet
  refine ⟨htransfer.pointer, data, last, addr, hl, hfits, ?_, ?_, fun x hx => ?_⟩
  · have htile : Window.Tile addr ((dataTds tdInPid e.maximumPacketLength (e.dataLength + 1) toggle
        addr e.dataLength).map TdDescriptor.window) (addr + e.dataLength) :=
      dataTds_tile toggle hmax (hmax'.trans (by decide)) (Nat.lt_succ_self e.dataLength) hfits
    have hwindows := congrArg (List.map TdDescriptor.window) hdata
    rw [List.map_map, List.map_map] at hwindows
    change data.map (fun x => (t.dev.td x).window) = List.map TdDescriptor.window _ at hwindows
    rw [hwindows]
    exact htile
  · have hlength := congrArg TdDescriptor.actualSendLength hlast
    exact hlength
  · have hmem : (t.dev.td x).unlinked.fixed ∈ data.map fun x => (t.dev.td x).unlinked.fixed :=
      List.mem_map_of_mem hx
    rw [hdata] at hmem
    obtain ⟨td, htd, hsame⟩ := List.mem_map.1 hmem
    obtain ⟨hpos, hle, -, hend, hpid, -⟩ := dataTds_packet hmax (hmax'.trans (by decide))
      (Nat.lt_succ_self e.dataLength) hfits td htd
    have hsent := congrArg TdDescriptor.actualSendLength hsame
    have hbuffer := congrArg TdDescriptor.dataBuffer hsame
    have hpointer := congrArg TdDescriptor.bufferEndPointer hsame
    have hdir := congrArg TdDescriptor.dirPID hsame
    change td.actualSendLength = (t.dev.td x).actualSendLength at hsent
    change td.dataBuffer = (t.dev.td x).dataBuffer at hbuffer
    change td.bufferEndPointer = (t.dev.td x).bufferEndPointer at hpointer
    change td.dirPID = (t.dev.td x).dirPID at hdir
    rw [hsent] at hpos hle hend
    rw [hpointer, hbuffer] at hend
    exact ⟨hpos, hle, hend, hdir.symm.trans hpid⟩

theorem ohci_run_tiles_bump : ∃ t : OhciTrace, t.dev.interruptContextList.length = 1 ∧
    ∃ tds : ℕ → List ℕ, (t.dev.interruptContextList.flatMap fun e => tds e.dataTd).Nodup ∧
      ∀ e ∈ t.dev.interruptContextList, Seg t.dev.nextTDPointer e.dataTd (tds e.dataTd) 0 ∧
        ∃ data last addr, tds e.dataTd = data ++ [last] ∧ addr + e.dataLength ≤ 2 ^ 32 ∧
          Window.Tile addr (data.map fun x => (t.dev.td x).window) (addr + e.dataLength) ∧
          (t.dev.td last).actualSendLength = 0 ∧
          ∀ x ∈ data, 0 < (t.dev.td x).actualSendLength ∧
            (t.dev.td x).actualSendLength ≤ e.maximumPacketLength ∧
            (t.dev.td x).bufferEndPointer + 1 =
              (t.dev.td x).dataBuffer + (t.dev.td x).actualSendLength ∧
            (t.dev.td x).dirPID = tdInPid := by
  obtain ⟨dev, t, hboot, ht, hlength⟩ := bumpDev_run
  exact ⟨t, hlength, ohci_run_tiles bumpDma_lawful le_rfl hboot ht⟩

/-- In every run the timer hands the transfers that are done to their callbacks, in order and each
with the first packet of its buffer, and submits them again just as a new submission with the toggle
that the controller left would. The first transfer that failed ends the pass, and only then does the
priority level stay raised. All other transfers stay as they are. -/
theorem ohci_run_timer (hD : D.Lawful top) (htop : top ≤ 2 ^ 32)
    (hboot : OhciBoot D top base₀ dev₀ dev)
    (h : ReachedOk (ohciStep D) (OhciAllowed D) ⟨dev, []⟩ t) :
    ∃ (tds : ℕ → List ℕ) (reports : List InterruptReport) (restored : Bool) (dev' : OhciDev)
      (served rest : List InterruptContextEntry),
      ohciHouseKeeper t.dev = .ok (reports, restored, dev') ∧
      Passed tds t.dev.interruptContextList t.dev reports restored dev' served rest ∧
      (∀ e ∈ t.dev.interruptContextList, Seg t.dev.nextTDPointer e.dataTd (tds e.dataTd) 0) ∧
      ∀ e ∈ served, ∃ addr, addr + e.dataLength ≤ 2 ^ 32 ∧
        ohciInvokeInterruptCallBack t.dev e efiUsbNoError =
          ⟨e, addr, min e.maximumPacketLength e.dataLength, efiUsbNoError⟩ ∧
        (tds e.dataTd).map (fun x => (dev'.td x).unlinked) =
          dataTds tdInPid e.maximumPacketLength (e.dataLength + 1) (t.dev.ed e.ed).toggleCarry addr
            e.dataLength ++ [emptyTd.unlinked] := by
  obtain ⟨att, tds, hsound⟩ := ohciSound_of_reached hD htop hboot h
  obtain ⟨reports, restored, dev', served, rest, hok, hpassed⟩ := hsound.housekept htop
  refine ⟨tds, reports, restored, dev', served, rest, hok, hpassed,
    fun e he => (hsound.transfers e he).pointer, fun e he => ?_⟩
  have hmem := hpassed.mem_served e he
  have htransfer := hsound.transfers e hmem
  obtain ⟨addr, toggle, hfits, hpieces⟩ := htransfer.pieces
  refine ⟨addr, hfits, ?_, (hpassed.renewed e he).pieces hpieces⟩
  -- the first descriptor is the first of the data stage
  have hlength := htransfer.length
  have hpointer := htransfer.pointer
  rw [dataTds, if_neg (by omega), List.cons_append, List.map_cons] at hpieces
  obtain ⟨rest', hl⟩ : ∃ rest', tds e.dataTd = e.dataTd :: rest' := by
    rcases hl : tds e.dataTd with _ | ⟨x, rest'⟩
    · exact absurd hl htransfer.ne_nil
    · rw [hl] at hpointer
      exact ⟨rest', by rw [hpointer.1]⟩
  rw [hl, List.map_cons] at hpieces
  obtain ⟨hfirst, -⟩ := List.cons.inj hpieces
  have hbuffer := congrArg TdDescriptor.dataBuffer hfirst
  have hsent := congrArg TdDescriptor.actualSendLength hfirst
  change (t.dev.td e.dataTd).dataBuffer = toUint32 addr at hbuffer
  change (t.dev.td e.dataTd).actualSendLength = toUint32 (min e.maximumPacketLength e.dataLength)
    at hsent
  obtain ⟨-, hmax⟩ := htransfer.packet
  rw [ohciInvokeInterruptCallBack, if_neg (by decide), hbuffer, hsent, toUint32_of_lt (by omega),
    toUint32_of_lt (by omega)]

theorem ohci_run_timer_bump : ∃ t : OhciTrace, t.dev.interruptContextList.length = 1 ∧
    ∃ (tds : ℕ → List ℕ) (reports : List InterruptReport) (restored : Bool) (dev' : OhciDev)
      (served rest : List InterruptContextEntry),
      ohciHouseKeeper t.dev = .ok (reports, restored, dev') ∧
      Passed tds t.dev.interruptContextList t.dev reports restored dev' served rest ∧
      (∀ e ∈ t.dev.interruptContextList, Seg t.dev.nextTDPointer e.dataTd (tds e.dataTd) 0) ∧
      ∀ e ∈ served, ∃ addr, addr + e.dataLength ≤ 2 ^ 32 ∧
        ohciInvokeInterruptCallBack t.dev e efiUsbNoError =
          ⟨e, addr, min e.maximumPacketLength e.dataLength, efiUsbNoError⟩ ∧
        (tds e.dataTd).map (fun x => (dev'.td x).unlinked) =
          dataTds tdInPid e.maximumPacketLength (e.dataLength + 1) (t.dev.ed e.ed).toggleCarry addr
            e.dataLength ++ [emptyTd.unlinked] := by
  obtain ⟨dev, t, hboot, ht, hlength⟩ := bumpDev_run
  exact ⟨t, hlength, ohci_run_timer bumpDma_lawful le_rfl hboot ht⟩

/-- The descriptors of a data stage, wherever they are, tile its buffer with packets. -/
theorem tile_of_pieces {data : List ℕ} {pidDir maxLen toggle addr left : ℕ} (hmax : 0 < maxLen)
    (hmax' : maxLen < 2 ^ 32) (htoggle : toggle < 2) (hfits : addr + left ≤ 2 ^ 32)
    (h : data.map (fun x => (dev.td x).unlinked) =
      dataTds pidDir maxLen (left + 1) toggle addr left) :
    Window.Tile addr (data.map fun x => (dev.td x).window) (addr + left) ∧
      ∀ i x, data[i]? = some x → 0 < (dev.td x).actualSendLength ∧
        (dev.td x).actualSendLength ≤ maxLen ∧ (dev.td x).dirPID = pidDir % 2 ^ 2 ∧
        (dev.td x).dataToggle = 2 + (toggle + i) % 2 := by
  refine ⟨?_, fun i x hi => ?_⟩
  · have hwindows := congrArg (List.map TdDescriptor.window) h
    rw [List.map_map] at hwindows
    change data.map (fun x => (dev.td x).window) = _ at hwindows
    rw [hwindows]
    exact dataTds_tile toggle hmax hmax' (Nat.lt_succ_self left) hfits
  · have hpiece : (dataTds pidDir maxLen (left + 1) toggle addr left)[i]? =
        some (dev.td x).unlinked := by
      rw [← h, List.getElem?_map, hi]
      rfl
    obtain ⟨hpos, hle, -, -, hpid, -⟩ := dataTds_packet hmax hmax' (Nat.lt_succ_self left) hfits _
      (List.mem_of_getElem? hpiece)
    have hflips := dataTds_toggle htoggle hpiece
    exact ⟨hpos, hle, hpid, hflips⟩

/-- In every run a bulk transfer ends, keeps nothing, and leaves its list empty or disabled. Unless it
fails before, the controller is shown one endpoint, whose descriptors tile the buffer with packets of
alternating toggles. It succeeds just when all of them are done at the last look, and a pipe that
broke gives the toggle behind the last one done. -/
theorem ohci_run_bulk (hD : D.Lawful top) (htop : top ≤ 2 ^ 32)
    (hboot : OhciBoot D top base₀ dev₀ dev)
    (h : ReachedOk (ohciStep D) (OhciAllowed D) ⟨dev, []⟩ t) (req : BulkRequest) (answer : MapAnswer)
    (polls : ℕ → ControllerPoll) (hanswer : answer.Lawful req.dataLength) :
    ∃ r, ohciBulkTransfer D req answer polls t.dev = .ok r ∧
      r.dev.mem.live.Perm t.dev.mem.live ∧ (r.dev.bulkEnable = true → r.dev.bulkHead = 0) ∧
      ((efiError r.status = true ∧ r.transferResult = none ∧ r.dataLength = req.dataLength) ∨
        ∃ a head last data dev₁ k p, BulkRan req answer polls r a head last data dev₁ k p ∧
          Window.Tile answer.phyAddr (data.map fun x => (dev₁.td x).window)
            (answer.phyAddr + req.dataLength) ∧
          (∀ i x, data[i]? = some x → (dev₁.td x).actualSendLength ≤ req.maximumPacketLength ∧
            (dev₁.td x).dataToggle = 2 + (req.dataToggle + i) % 2) ∧
          (r.status = efiSuccess ↔ (polls k).filled = false ∧
            ∀ x ∈ data, ((pollDev polls k dev₁).td x).conditionCode = 0)) := by
  obtain ⟨att, tds, hsound⟩ := ohciSound_of_reached hD htop hboot h
  obtain ⟨base, hpool, hB, hM, hk⟩ := hsound.held
  obtain ⟨r, hok, hsettled, hquiet, hcases⟩ := ohciBulkTransfer_ok polls hD htop hpool hanswer
  refine ⟨r, hok, hsettled.live, (hsound.settled hsettled hquiet hB hM hk).bulk, hcases.imp_right ?_⟩
  rintro ⟨a, head, last, data, dev₁, k, p, hran⟩
  obtain ⟨hmax, hmax'⟩ := packetLengths_pos hran.packet
  obtain ⟨htile, hpackets⟩ := tile_of_pieces hmax hmax' hran.toggle hanswer.fits hran.pieces
  rw [hanswer.whole] at htile
  refine ⟨a, head, last, data, dev₁, k, p, hran, htile, fun i x hi => ?_, ?_⟩
  · obtain ⟨-, hle, -, htoggle⟩ := hpackets i x hi
    exact ⟨hle, htoggle⟩
  · rw [hran.status]
    exact hran.waited.success

theorem ohci_run_bulk_bump : ∃ t : OhciTrace, t.dev.interruptContextList.length = 1 ∧
    ∃ r, ohciBulkTransfer bumpDma bumpBulk (bumpMap 130) bumpPolls t.dev = .ok r ∧
      r.dev.mem.live.Perm t.dev.mem.live ∧ (r.dev.bulkEnable = true → r.dev.bulkHead = 0) ∧
      ((efiError r.status = true ∧ r.transferResult = none ∧ r.dataLength = bumpBulk.dataLength) ∨
        ∃ a head last data dev₁ k p,
          BulkRan bumpBulk (bumpMap 130) bumpPolls r a head last data dev₁ k p ∧
          Window.Tile (bumpMap 130).phyAddr (data.map fun x => (dev₁.td x).window)
            ((bumpMap 130).phyAddr + bumpBulk.dataLength) ∧
          (∀ i x, data[i]? = some x → (dev₁.td x).actualSendLength ≤ bumpBulk.maximumPacketLength ∧
            (dev₁.td x).dataToggle = 2 + (bumpBulk.dataToggle + i) % 2) ∧
          (r.status = efiSuccess ↔ (bumpPolls k).filled = false ∧
            ∀ x ∈ data, ((pollDev bumpPolls k dev₁).td x).conditionCode = 0)) := by
  obtain ⟨dev, t, hboot, ht, hlength⟩ := bumpDev_run
  exact ⟨t, hlength, ohci_run_bulk bumpDma_lawful le_rfl hboot ht bumpBulk (bumpMap 130) bumpPolls
    bumpMap_lawful.1⟩

/-- In every run a control transfer ends, keeps nothing, and leaves its list empty or disabled. Unless
it fails before, the controller is shown one endpoint with the request first, then the data, and then
a stage the other way. It succeeds just when all of them are done at the last look. -/
theorem ohci_run_control (hD : D.Lawful top) (htop : top ≤ 2 ^ 32)
    (hboot : OhciBoot D top base₀ dev₀ dev)
    (h : ReachedOk (ohciStep D) (OhciAllowed D) ⟨dev, []⟩ t) (req : ControlRequest)
    (reqAnswer dataAnswer : MapAnswer) (polls : ℕ → ControllerPoll) (hreq : reqAnswer.mapping ≠ 0)
    (hdata : dataAnswer.Lawful req.dataLength) :
    ∃ r, ohciControlTransfer D req reqAnswer dataAnswer polls t.dev = .ok r ∧
      r.dev.mem.live.Perm t.dev.mem.live ∧ (r.dev.controlEnable = true → r.dev.controlHead = 0) ∧
      ((efiError r.status = true ∧ r.transferResult = none ∧ r.dataLength = req.dataLength) ∨
        ∃ setup data status phyAddr a last dev₁ k p,
          ControlRan req reqAnswer req.dataLength phyAddr polls r a setup last
            (setup :: (data ++ [status])) dev₁ k p ∧
          (dev₁.td setup).unlinked = setupTd reqAnswer.phyAddr ∧
          (req.dataLength = 0 ∨ phyAddr = dataAnswer.phyAddr) ∧
          Window.Tile phyAddr (data.map fun x => (dev₁.td x).window) (phyAddr + req.dataLength) ∧
          (∀ i x, data[i]? = some x → (dev₁.td x).actualSendLength ≤ req.maximumPacketLength ∧
            (dev₁.td x).dirPID = req.dataPidDir ∧ (dev₁.td x).dataToggle = 2 + (1 + i) % 2) ∧
          (dev₁.td status).unlinked = statusTd req.statusPidDir ∧
          (r.status = efiSuccess ↔ (polls k).filled = false ∧
            ∀ x ∈ setup :: (data ++ [status]),
              ((pollDev polls k dev₁).td x).conditionCode = 0)) := by
  obtain ⟨att, tds, hsound⟩ := ohciSound_of_reached hD htop hboot h
  obtain ⟨base, hpool, hB, hM, hk⟩ := hsound.held
  obtain ⟨r, hok, hsettled, hquiet, hcases⟩ := ohciControlTransfer_ok polls hD htop hpool hreq hdata
  refine ⟨r, hok, hsettled.live, (hsound.settled hsettled hquiet hB hM hk).control,
    hcases.imp_right ?_⟩
  rintro ⟨phyAddr, a, head, last, all, dev₁, k, p, haddr, hran⟩
  -- the three stages
  have hpieces := hran.pieces
  obtain ⟨setup, stages, rfl⟩ : ∃ setup stages, all = setup :: stages := by
    cases all with
    | nil => exact absurd hpieces (by simp)
    | cons setup stages => exact ⟨setup, stages, rfl⟩
  obtain rfl : head = setup := hran.shown.chain.1
  rw [List.map_cons] at hpieces
  obtain ⟨hsetup, hstages⟩ := List.cons.inj hpieces
  obtain ⟨data, statuses, rfl, hmap, hstatuses⟩ := List.map_eq_append_iff.1 hstages
  obtain ⟨status, rfl⟩ : ∃ status, statuses = [status] := by
    have hone : statuses.length = 1 := by
      have hlength := congrArg List.length hstatuses
      rwa [List.length_map] at hlength
    exact List.length_eq_one_iff.1 hone
  have hstatus : (dev₁.td status).unlinked = statusTd req.statusPidDir :=
    (List.cons.inj hstatuses).1
  obtain ⟨hmax, hmax'⟩ := packetLengths_pos hran.packet
  have hpid : req.dataPidDir % 2 ^ 2 = req.dataPidDir := by
    rw [ControlRequest.dataPidDir]
    split_ifs <;> rfl
  have hall : Window.Tile phyAddr (data.map fun x => (dev₁.td x).window)
      (phyAddr + req.dataLength) ∧
      ∀ i x, data[i]? = some x → (dev₁.td x).actualSendLength ≤ req.maximumPacketLength ∧
        (dev₁.td x).dirPID = req.dataPidDir ∧ (dev₁.td x).dataToggle = 2 + (1 + i) % 2 := by
    by_cases hzero : req.dataLength = 0
    · rw [hzero] at hmap ⊢
      obtain rfl := List.map_eq_nil_iff.1 hmap
      exact ⟨rfl, fun i x hi => by simp at hi⟩
    · have hfits := hdata.fits
      rw [hdata.whole, ← haddr.resolve_left hzero] at hfits
      obtain ⟨htile, hpackets⟩ := tile_of_pieces hmax hmax' (by decide : 1 < 2) hfits hmap
      refine ⟨htile, fun i x hi => ?_⟩
      obtain ⟨-, hle, hdir, htoggle⟩ := hpackets i x hi
      exact ⟨hle, hdir.trans hpid, htoggle⟩
  refine ⟨head, data, status, phyAddr, a, last, dev₁, k, p, hran, hsetup, haddr, hall.1, hall.2,
    hstatus, ?_⟩
  rw [hran.status]
  exact hran.waited.success

theorem ohci_run_control_bump : ∃ t : OhciTrace, t.dev.interruptContextList.length = 1 ∧
    ∃ r, ohciControlTransfer bumpDma bumpControl (bumpMap 8) (bumpMap 18) bumpPolls t.dev = .ok r ∧
      r.dev.mem.live.Perm t.dev.mem.live ∧ (r.dev.controlEnable = true → r.dev.controlHead = 0) ∧
      ((efiError r.status = true ∧ r.transferResult = none ∧
          r.dataLength = bumpControl.dataLength) ∨
        ∃ setup data status phyAddr a last dev₁ k p,
          ControlRan bumpControl (bumpMap 8) bumpControl.dataLength phyAddr bumpPolls r a setup last
            (setup :: (data ++ [status])) dev₁ k p ∧
          (dev₁.td setup).unlinked = setupTd (bumpMap 8).phyAddr ∧
          (bumpControl.dataLength = 0 ∨ phyAddr = (bumpMap 18).phyAddr) ∧
          Window.Tile phyAddr (data.map fun x => (dev₁.td x).window)
            (phyAddr + bumpControl.dataLength) ∧
          (∀ i x, data[i]? = some x →
            (dev₁.td x).actualSendLength ≤ bumpControl.maximumPacketLength ∧
            (dev₁.td x).dirPID = bumpControl.dataPidDir ∧
            (dev₁.td x).dataToggle = 2 + (1 + i) % 2) ∧
          (dev₁.td status).unlinked = statusTd bumpControl.statusPidDir ∧
          (r.status = efiSuccess ↔ (bumpPolls k).filled = false ∧
            ∀ x ∈ setup :: (data ++ [status]),
              ((pollDev bumpPolls k dev₁).td x).conditionCode = 0)) := by
  obtain ⟨dev, t, hboot, ht, hlength⟩ := bumpDev_run
  exact ⟨t, hlength, ohci_run_control bumpDma_lawful le_rfl hboot ht bumpControl (bumpMap 8)
    (bumpMap 18) bumpPolls (by decide) bumpMap_lawful.2⟩

end Results

end Edk2Rk3576.Ohci
