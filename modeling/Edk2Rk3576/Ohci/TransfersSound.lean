import Edk2Rk3576.Ohci.HouseKeeper
import Edk2Rk3576.Ohci.ScheduleInit
import Edk2Rk3576.Ohci.BulkControlSpec

/-!
# What the contexts say of the device

The contexts say what is in the interrupt lists, what is allocated from the pool, and what is held of
the DMA library. Submitting and cancelling transfers, the timer, the controller and the transfers of
other kinds keep it so.
-/

namespace Edk2Rk3576.Ohci

open Cells UnitPool

variable {D : DmaLib} {base : DmaState} {top a n x k : ℕ} {dev dev' : OhciDev}
  {att : ℕ → List ℕ} {rest : List (ℕ × ℕ)} {e : InterruptContextEntry}
  {entries : List InterruptContextEntry}

section Contexts

variable {B : List (ℕ × ℕ)} {M : List ℕ} {tds : ℕ → List ℕ} {l : List ℕ}

/-- The buffer of a transfer. -/
def InterruptContextEntry.buffer (e : InterruptContextEntry) : ℕ × ℕ :=
  (e.ucBuffer, efiSizeToPages e.dataLength)

/-- What is allocated from the pool for a transfer. -/
def InterruptContextEntry.owned (tds : ℕ → List ℕ) (e : InterruptContextEntry) : List (ℕ × ℕ) :=
  (e.ed, sizeofEd) :: tdMem (tds e.dataTd)

/-- The context is one of the endpoint's. -/
def InterruptContextEntry.isOf (deviceAddress endPointAddress : ℕ) (e : InterruptContextEntry) :
    Bool :=
  e.deviceAddress = deviceAddress ∧ e.endPointAddress = endPointAddress

theorem ohciFreeInterruptContextEntry_ok (hsound : PoolSound top base dev.mem) (htop : top ≤ 2 ^ 32)
    (hpointer : Seg dev.nextTDPointer e.dataTd l 0) (hlive : dev.mem.live.Perm (tdMem l ++ rest))
    (hbuffer : e.ucBuffer ≠ 0) (hmapping : e.ucBufferMapping ≠ 0)
    (hB : base.buffers.Perm (e.buffer :: B)) (hM : base.mappings.Perm (e.ucBufferMapping :: M))
    (hk : base.pools = k + 1) :
    ∃ base' mem, ohciFreeInterruptContextEntry e dev = .ok { dev with mem := mem } ∧
      PoolSound top base' mem ∧ mem.live.Perm rest ∧ base'.buffers.Perm B ∧
      base'.mappings.Perm M ∧ base'.pools = k := by
  obtain ⟨hnodup, hzero, -, hlength⟩ := hsound.walkable htop hlive
  have hunmap := hsound.unmap (hM.mem_iff.2 List.mem_cons_self)
  have hfree := hunmap.freeBuffer (hB.mem_iff.2 List.mem_cons_self)
  set dev₂ := (dev.setDma (dev.mem.dma.unmap e.ucBufferMapping)).setDma
    ((dev.mem.dma.unmap e.ucBufferMapping).freeBuffer (efiSizeToPages e.dataLength) e.ucBuffer)
    with hdev₂
  have hsound₂ : PoolSound top
      ((base.unmap e.ucBufferMapping).freeBuffer (efiSizeToPages e.dataLength) e.ucBuffer)
      dev₂.mem := hfree
  obtain ⟨mem, hok, hmem, hmemLive⟩ := ohciFreeTds_ok hsound₂ hpointer hnodup hzero
    (fun x hx => hlive.mem_iff.2 (List.mem_append_left _ (mem_tdMem.2 ⟨x, hx, rfl⟩))) hlength
  have hpool := hmem.freePool (show 0 < base.pools by omega)
  refine ⟨_, { mem with dma := mem.dma.freePool }, ?_, hpool, ?_, ?_, ?_, ?_⟩
  · rw [ohciFreeInterruptContextEntry]
    simp only [if_pos hmapping, if_pos hbuffer]
    change (ohciFreeTds chainFuel e.dataTd dev₂ >>= _) = _
    rw [hok]
    rfl
  · exact perm_of_removed hsound.live_nodup hmem.live_nodup hlive fun c => by
      rw [hmemLive, notMem_tdMem]
      rfl
  · have herase := hB.erase e.buffer
    rwa [List.erase_cons_head] at herase
  · have herase := hM.erase e.ucBufferMapping
    rwa [List.erase_cons_head] at herase
  · change base.pools - 1 = k
    omega

/-- The contexts of an endpoint are freed with all they hold but their endpoints. -/
theorem ohciFreeContexts_ok {deviceAddress endPointAddress toggle : ℕ} (htop : top ≤ 2 ^ 32)
    (hsound : PoolSound top base dev.mem)
    (htransfers : ∀ e ∈ entries, Seg dev.nextTDPointer e.dataTd (tds e.dataTd) 0 ∧
      tds e.dataTd ≠ [] ∧ e.ucBuffer ≠ 0 ∧ e.ucBufferMapping ≠ 0)
    (hlive : dev.mem.live.Perm (entries.flatMap (InterruptContextEntry.owned tds) ++ rest))
    (hB : base.buffers.Perm (entries.map InterruptContextEntry.buffer ++ B))
    (hM : base.mappings.Perm (entries.map InterruptContextEntry.ucBufferMapping ++ M))
    (hk : base.pools = k + entries.length) :
    ∃ base' mem toggle', ohciFreeContexts deviceAddress endPointAddress entries toggle dev =
        .ok (entries.filter (fun e => !e.isOf deviceAddress endPointAddress), toggle',
          { dev with mem := mem }) ∧
      PoolSound top base' mem ∧
      mem.live.Perm ((entries.filter fun e => !e.isOf deviceAddress endPointAddress).flatMap
        (InterruptContextEntry.owned tds) ++
          ((entries.filter fun e => e.isOf deviceAddress endPointAddress).map
            (fun e => (e.ed, sizeofEd)) ++ rest)) ∧
      base'.buffers.Perm ((entries.filter fun e => !e.isOf deviceAddress endPointAddress).map
        InterruptContextEntry.buffer ++ B) ∧
      base'.mappings.Perm ((entries.filter fun e => !e.isOf deviceAddress endPointAddress).map
        InterruptContextEntry.ucBufferMapping ++ M) ∧
      base'.pools =
        k + (entries.filter fun e => !e.isOf deviceAddress endPointAddress).length := by
  induction entries generalizing dev base rest B M k toggle with
  | nil => exact ⟨base, dev.mem, toggle, rfl, hsound, hlive, hB, hM, hk⟩
  | cons e entries ih =>
    rw [List.forall_mem_cons] at htransfers
    obtain ⟨⟨hpointer, hne, hbuffer, hmapping⟩, htransfers⟩ := htransfers
    rw [List.flatMap_cons, List.append_assoc] at hlive
    rw [List.map_cons, List.cons_append] at hB hM
    rw [List.length_cons] at hk
    rcases hof : e.isOf deviceAddress endPointAddress with _ | _
    · -- the context stays
      obtain ⟨base', mem, toggle', hok, hmem, hlive', hB', hM', hk'⟩ := ih hsound htransfers
        (hlive.trans (List.perm_append_comm_assoc _ _ _)) (hB.trans List.perm_middle.symm)
        (hM.trans List.perm_middle.symm) (show base.pools = k + 1 + entries.length by omega)
      rw [List.filter_cons_of_pos (by rw [hof]; rfl), List.filter_cons_of_neg (by rw [hof]; simp)]
      refine ⟨base', mem, toggle', ?_, hmem, ?_, ?_, ?_, ?_⟩
      · have hnot : ¬ (e.deviceAddress = deviceAddress ∧ e.endPointAddress = endPointAddress) :=
          of_decide_eq_false hof
        rw [ohciFreeContexts, if_neg hnot, hok]
        rfl
      · rw [List.flatMap_cons, List.append_assoc]
        refine hlive'.trans (((List.perm_append_comm_assoc _ _ _).append_left _).trans ?_)
        exact List.perm_append_comm_assoc _ _ _
      · exact hB'.trans List.perm_middle
      · exact hM'.trans List.perm_middle
      · rw [hk', List.length_cons]
        omega
    · -- the context goes
      have hmatch : e.deviceAddress = deviceAddress ∧ e.endPointAddress = endPointAddress :=
        of_decide_eq_true hof
      have hlive₁ : dev.mem.live.Perm (tdMem (tds e.dataTd) ++ ((e.ed, sizeofEd) ::
          (entries.flatMap (InterruptContextEntry.owned tds) ++ rest))) :=
        hlive.trans List.perm_middle.symm
      obtain ⟨-, hzero, -, -⟩ := hsound.walkable htop hlive₁
      have hdataTd : e.dataTd ≠ 0 := fun h0 => by
        rw [h0] at hpointer hzero hne
        cases hl : tds 0 with
        | nil => exact hne hl
        | cons y l =>
          rw [hl] at hpointer hzero
          exact hzero (hpointer.1 ▸ List.mem_cons_self)
      obtain ⟨base₁, mem₁, hfree, hsound₁, hmem₁, hB₁, hM₁, hk₁⟩ :=
        ohciFreeInterruptContextEntry_ok hsound htop hpointer hlive₁ hbuffer hmapping hB hM
          (show base.pools = k + entries.length + 1 by omega)
      obtain ⟨base', mem, toggle', hok, hmem, hlive', hB', hM', hk'⟩ :=
        ih (show PoolSound top base₁ ({ dev with mem := mem₁ } : OhciDev).mem from hsound₁) htransfers
          (hmem₁.trans List.perm_middle.symm) hB₁ hM₁ hk₁
      rw [List.filter_cons_of_neg (by rw [hof]; simp), List.filter_cons_of_pos (by rw [hof])]
      refine ⟨base', mem, toggle', ?_, hmem, ?_, hB', hM', hk'⟩
      · rw [ohciFreeContexts, if_pos hmatch, if_neg hdataTd]
        simp only [hfree]
        exact hok
      · rw [List.map_cons, List.cons_append]
        exact hlive'.trans (List.perm_middle.append_left _)

end Contexts

section Invariant

variable {base₀ : DmaState} {other leaked : List (ℕ × ℕ)} {tds : ℕ → List ℕ} {l : List ℕ}

/-- A transfer as the device has it: an endpoint of its own, and descriptors that lead over its
buffer. -/
structure Transfer (dev : OhciDev) (e : InterruptContextEntry) (l : List ℕ) : Prop where
  endPoint : 0x80 ≤ e.endPointAddress ∧ e.endPointAddress < 0x90
  polled : 1 ≤ e.pollingInterval
  functionAddress : (dev.ed e.ed).functionAddress = e.deviceAddress
  endPointNum : (dev.ed e.ed).endPointNum = e.endPointAddress % 16
  buffer : e.ucBuffer ≠ 0
  mapping : e.ucBufferMapping ≠ 0
  packet : 0 < e.maximumPacketLength ∧ e.maximumPacketLength < 2 ^ 8
  length : 0 < e.dataLength
  pointer : Seg dev.nextTDPointer e.dataTd l 0
  pieces : ∃ addr toggle, addr + e.dataLength ≤ 2 ^ 32 ∧
    l.map (fun x => (dev.td x).unlinked.fixed) =
      (dataTds tdInPid e.maximumPacketLength (e.dataLength + 1) toggle addr e.dataLength ++
        [emptyTd.unlinked]).map TdDescriptor.fixed

/-- The heads of the interrupt lists, as they are allocated. -/
def OhciDev.heads (dev : OhciDev) : List (ℕ × ℕ) :=
  (List.range 63).map fun n => (dev.listHead n, sizeofEd)

theorem heads_congr (h : dev'.listHead = dev.listHead) : dev'.heads = dev.heads := by
  rw [OhciDev.heads, OhciDev.heads, h]

/-- What the contexts say of the device, of which `other` and `base₀` were there before: the
endpoints are in the lists, and what is held is held for them. A buffer in `leaked` belongs to no
context. -/
structure TransfersSound (top : ℕ) (base₀ : DmaState) (other leaked : List (ℕ × ℕ)) (dev : OhciDev)
    (att tds : ℕ → List ℕ) : Prop where
  held : ∃ base, PoolSound top base dev.mem ∧
    base.buffers.Perm
      (dev.interruptContextList.map InterruptContextEntry.buffer ++ (leaked ++ base₀.buffers)) ∧
    base.mappings.Perm
      (dev.interruptContextList.map InterruptContextEntry.ucBufferMapping ++ base₀.mappings) ∧
    base.pools = base₀.pools + dev.interruptContextList.length
  sched : Sched dev att
  placed : ∀ e ∈ dev.interruptContextList,
    ∃ n < 63, listLevel n = (ohciDepth e.pollingInterval 5 1).1 ∧ e.ed ∈ att n
  attached : ∀ n < 63, ∀ x ∈ att n, ∃ e ∈ dev.interruptContextList, e.ed = x
  transfers : ∀ e ∈ dev.interruptContextList, Transfer dev e (tds e.dataTd)
  live : dev.mem.live.Perm
    (dev.interruptContextList.flatMap (InterruptContextEntry.owned tds) ++ (dev.heads ++ other))
  control : dev.controlEnable = true → dev.controlHead = 0
  bulk : dev.bulkEnable = true → dev.bulkHead = 0

theorem Transfer.ne_nil (h : Transfer dev e l) : l ≠ [] := by
  obtain ⟨addr, toggle, -, hpieces⟩ := h.pieces
  rintro rfl
  simp at hpieces

theorem Transfer.dataTd_mem (h : Transfer dev e l) : e.dataTd ∈ l := by
  have hpointer := h.pointer
  cases l with
  | nil => exact absurd rfl h.ne_nil
  | cons y l => exact hpointer.1 ▸ List.mem_cons_self

theorem unlinked_fixed_congr {td td' : TdDescriptor} (h : td'.fixed = td.fixed) :
    td'.unlinked.fixed = td.unlinked.fixed := by
  have hboth := congrArg (fun td => { td with nextTDPointer := 0 }) h
  exact hboth

/-- A transfer is the same where its endpoint and its descriptors are. -/
theorem Transfer.congr (h : Transfer dev e l)
    (haddress : (dev'.ed e.ed).functionAddress = (dev.ed e.ed).functionAddress)
    (hnum : (dev'.ed e.ed).endPointNum = (dev.ed e.ed).endPointNum)
    (htds : ∀ x ∈ l, (dev'.td x).fixed = (dev.td x).fixed) : Transfer dev' e l where
  endPoint := h.endPoint
  polled := h.polled
  functionAddress := haddress.trans h.functionAddress
  endPointNum := hnum.trans h.endPointNum
  buffer := h.buffer
  mapping := h.mapping
  packet := h.packet
  length := h.length
  pointer := h.pointer.congr fun x hx => by
    have hpointer := congrArg TdDescriptor.nextTDPointer (htds x hx)
    exact hpointer
  pieces := by
    obtain ⟨addr, toggle, hfits, hpieces⟩ := h.pieces
    refine ⟨addr, toggle, hfits, ?_⟩
    rw [← hpieces]
    exact List.map_congr_left fun x hx => unlinked_fixed_congr (htds x hx)

namespace TransfersSound

variable (h : TransfersSound top base₀ other leaked dev att tds)

include h

theorem mem_live {c : ℕ × ℕ} (he : e ∈ dev.interruptContextList) (hc : c ∈ e.owned tds) :
    c ∈ dev.mem.live :=
  h.live.mem_iff.2 (List.mem_append_left _ (List.mem_flatMap.2 ⟨e, he, hc⟩))

theorem ed_live (he : e ∈ dev.interruptContextList) : e.ed ∈ dev.mem.live.map Prod.fst :=
  List.mem_map.2 ⟨(e.ed, sizeofEd), h.mem_live he List.mem_cons_self, rfl⟩

theorem td_live (he : e ∈ dev.interruptContextList) (hx : x ∈ tds e.dataTd) :
    x ∈ dev.mem.live.map Prod.fst :=
  List.mem_map.2 ⟨(x, sizeofTd),
    h.mem_live he (List.mem_cons_of_mem _ (mem_tdMem.2 ⟨x, hx, rfl⟩)), rfl⟩

/-- Everything in the lists is allocated. -/
theorem items_live : ∀ m < 63, ∀ x ∈ items dev.listHead att m, x ∈ dev.mem.live.map Prod.fst := by
  intro m hm x hx
  rcases List.mem_cons.1 hx with rfl | hx
  · have hhead : (dev.listHead m, sizeofEd) ∈ dev.heads := List.mem_map_of_mem (List.mem_range.2 hm)
    exact List.mem_map.2
      ⟨_, h.live.mem_iff.2 (List.mem_append_right _ (List.mem_append_left _ hhead)), rfl⟩
  · obtain ⟨e, he, rfl⟩ := h.attached m hm x hx
    exact h.ed_live he

/-- Where nothing is allocated and no context is new, the transfers stay. -/
theorem same {base : DmaState} {leaked' : List (ℕ × ℕ)}
    (hcontexts : dev'.interruptContextList = dev.interruptContextList)
    (hlists : dev'.intervalList = dev.intervalList) (hsched : Sched dev' att)
    (heds : ∀ y ∈ dev.mem.live.map Prod.fst,
      (dev'.ed y).functionAddress = (dev.ed y).functionAddress ∧
        (dev'.ed y).endPointNum = (dev.ed y).endPointNum)
    (htds : ∀ x ∈ dev.mem.live.map Prod.fst, (dev'.td x).fixed = (dev.td x).fixed)
    (hsound : PoolSound top base dev'.mem)
    (hbuffers : base.buffers.Perm
      (dev.interruptContextList.map InterruptContextEntry.buffer ++ (leaked' ++ base₀.buffers)))
    (hmappings : base.mappings.Perm
      (dev.interruptContextList.map InterruptContextEntry.ucBufferMapping ++ base₀.mappings))
    (hpools : base.pools = base₀.pools + dev.interruptContextList.length)
    (hlive : dev'.mem.live.Perm dev.mem.live)
    (hcontrol : dev'.controlEnable = true → dev'.controlHead = 0)
    (hbulk : dev'.bulkEnable = true → dev'.bulkHead = 0) :
    TransfersSound top base₀ other leaked' dev' att tds := by
  have hheads : dev'.heads = dev.heads := heads_congr (by
    funext n
    rw [OhciDev.listHead, hlists, OhciDev.listHead])
  refine ⟨⟨base, hsound, ?_, ?_, ?_⟩, hsched, ?_, ?_, ?_, ?_, hcontrol, hbulk⟩
  · rwa [hcontexts]
  · rwa [hcontexts]
  · rwa [hcontexts]
  · rw [hcontexts]
    exact h.placed
  · rw [hcontexts]
    exact h.attached
  · rw [hcontexts]
    intro e he
    obtain ⟨haddress, hnum⟩ := heds e.ed (h.ed_live he)
    exact (h.transfers e he).congr haddress hnum fun x hx => htds x (h.td_live he hx)
  · rw [hcontexts, hheads]
    exact hlive.trans h.live

/-- A request that keeps no context leaves the transfers as they are. -/
theorem undone {base : DmaState} {leaked' : List (ℕ × ℕ)} (hundone : Undone top base dev att dev')
    (hbuffers : base.buffers.Perm
      (dev.interruptContextList.map InterruptContextEntry.buffer ++ (leaked' ++ base₀.buffers)))
    (hmappings : base.mappings.Perm
      (dev.interruptContextList.map InterruptContextEntry.ucBufferMapping ++ base₀.mappings))
    (hpools : base.pools = base₀.pools + dev.interruptContextList.length) :
    TransfersSound top base₀ other leaked' dev' att tds := by
  have hrest := hundone.beside.rest
  refine h.same (by rw [hrest]) (by rw [hrest]) hundone.sched (fun y hy => ?_) (fun x hx => ?_)
    hundone.sound hbuffers hmappings hpools hundone.live ?_ ?_
  · rw [hundone.beside.eds y hy]
    exact ⟨rfl, rfl⟩
  · rw [hundone.beside.tds x hx]
  · rw [hrest]
    exact h.control
  · rw [hrest]
    exact h.bulk

/-- A bulk or a control transfer leaves the transfers as they are. -/
theorem settled {base : DmaState} {listType : DescriptorListType}
    (hsettled : Settled listType top base dev dev')
    (hquiet : dev' = dev ∨ dev'.enabled listType = false ∨ dev'.memoryPointer listType = 0)
    (hbuffers : base.buffers.Perm
      (dev.interruptContextList.map InterruptContextEntry.buffer ++ (leaked ++ base₀.buffers)))
    (hmappings : base.mappings.Perm
      (dev.interruptContextList.map InterruptContextEntry.ucBufferMapping ++ base₀.mappings))
    (hpools : base.pools = base₀.pools + dev.interruptContextList.length) :
    TransfersSound top base₀ other leaked dev' att tds := by
  have hrest := hsettled.aside.rest
  have hlists : ∀ l, dev'.enabled l = true → dev'.memoryPointer l = 0 := by
    intro l henabled
    have hold : dev.enabled l = true → dev.memoryPointer l = 0 := by
      cases l
      · exact h.control
      · exact h.bulk
    by_cases hl : l = listType
    · subst hl
      rcases hquiet with rfl | hdisabled | hempty
      · exact hold henabled
      · exact absurd henabled (by rw [hdisabled]; exact Bool.false_ne_true)
      · exact hempty
    · obtain ⟨hpointer, henable⟩ := hsettled.aside.lists l hl
      rw [hpointer]
      exact hold (henable ▸ henabled)
  have hplace := fun y hy => hsettled.aside.places y hy
  refine h.same (by rw [hrest]) (by rw [hrest]) ?_ (fun y hy => ?_) hsettled.aside.fixed
    hsettled.sound hbuffers hmappings hpools hsettled.live (hlists .control) (hlists .bulk)
  · exact h.sched.congr (by rw [hrest]) (by rw [hrest]) fun m hm x hx =>
      hplace x (h.items_live m hm x hx)
  · have haddress := congrArg EdDescriptor.functionAddress (hplace y hy)
    have hnum := congrArg EdDescriptor.endPointNum (hplace y hy)
    exact ⟨haddress, hnum⟩

/-- A request that is started is one more transfer. -/
theorem started {base : DmaState} {req : InterruptRequest} {answer : InterruptAnswer} {head : ℕ}
    {new : List ℕ} (hn : n < 63) (hlevel : listLevel n = (ohciDepth req.pollingInterval 5 1).1)
    (hbegun : Begun top base dev att n a new head dev')
    (hbuffers : base.buffers.Perm ((answer.bufHost, efiSizeToPages req.dataLength) ::
      (dev.interruptContextList.map InterruptContextEntry.buffer ++ (leaked ++ base₀.buffers))))
    (hmappings : base.mappings.Perm (answer.mapping ::
      (dev.interruptContextList.map InterruptContextEntry.ucBufferMapping ++ base₀.mappings)))
    (hpools : base.pools = base₀.pools + dev.interruptContextList.length)
    (htransfer : Transfer dev' (req.context a head true answer.bufHost answer.mapping) new) :
    TransfersSound top base₀ other leaked
      (dev'.started (req.context a head true answer.bufHost answer.mapping))
      (Function.update att n (a :: att n)) (Function.update tds head new) := by
  set entry := req.context a head true answer.bufHost answer.mapping with hentry
  have hcontexts : (dev'.started entry).interruptContextList = dev.interruptContextList ++ [entry] := by
    change dev'.interruptContextList ++ [entry] = _
    rw [hbegun.beside.rest]
  have hhead : head ∈ new := htransfer.dataTd_mem
  have htds : ∀ e ∈ dev.interruptContextList,
      Function.update tds head new e.dataTd = tds e.dataTd := fun e he => by
    refine Function.update_of_ne (fun heq => ?_) _ _
    exact hbegun.notMem.2 head hhead (heq ▸ h.td_live he (h.transfers e he).dataTd_mem)
  refine ⟨⟨_, hbegun.sound.allocateZeroPool, ?_, ?_, ?_⟩,
    hbegun.sched.congr rfl rfl fun _ _ _ _ => rfl, ?_, ?_, ?_, ?_, ?_, ?_⟩
  · rw [hcontexts, List.map_append, List.append_assoc]
    exact hbuffers.trans List.perm_middle.symm
  · rw [hcontexts, List.map_append, List.append_assoc]
    exact hmappings.trans List.perm_middle.symm
  · rw [hcontexts, List.length_append]
    change base.pools + 1 = _ + (_ + 1)
    omega
  · rw [hcontexts]
    intro e he
    rcases List.mem_append.1 he with he | he
    · obtain ⟨m, hm, hlevel', hmem⟩ := h.placed e he
      refine ⟨m, hm, hlevel', ?_⟩
      by_cases hmn : m = n
      · rw [hmn, Function.update_self]
        exact List.mem_cons_of_mem _ (hmn ▸ hmem)
      · rwa [Function.update_of_ne hmn]
    · rw [List.mem_singleton.1 he]
      refine ⟨n, hn, hlevel, ?_⟩
      rw [Function.update_self]
      exact List.mem_cons_self
  · rw [hcontexts]
    intro m hm y hy
    have hcases : y = a ∨ y ∈ att m := by
      by_cases hmn : m = n
      · rw [hmn, Function.update_self] at hy
        rcases List.mem_cons.1 hy with hy | hy
        · exact .inl hy
        · exact .inr (hmn ▸ hy)
      · rw [Function.update_of_ne hmn] at hy
        exact .inr hy
    rcases hcases with rfl | hy
    · exact ⟨entry, List.mem_append_right _ List.mem_cons_self, rfl⟩
    · obtain ⟨e, he, hed⟩ := h.attached m hm y hy
      exact ⟨e, List.mem_append_left _ he, hed⟩
  · rw [hcontexts]
    intro e he
    rcases List.mem_append.1 he with he | he
    · rw [htds e he]
      have hsame := hbegun.beside.eds e.ed (h.ed_live he)
      refine (h.transfers e he).congr ?_ ?_ fun x hx => ?_
      · change (dev'.ed e.ed).functionAddress = _
        rw [hsame]
      · change (dev'.ed e.ed).endPointNum = _
        rw [hsame]
      · change (dev'.td x).fixed = _
        rw [hbegun.beside.tds x (h.td_live he hx)]
    · rw [List.mem_singleton.1 he]
      change Transfer _ entry (Function.update tds head new head)
      rw [Function.update_self]
      exact htransfer.congr rfl rfl fun _ _ => rfl
  · have hheads : (dev'.started entry).heads = dev.heads := heads_congr hbegun.beside.listHead
    rw [hcontexts, hheads, List.flatMap_append, List.append_assoc]
    have hold : dev.interruptContextList.flatMap
        (InterruptContextEntry.owned (Function.update tds head new)) =
          dev.interruptContextList.flatMap (InterruptContextEntry.owned tds) :=
      List.flatMap_congr fun e he => by
        rw [InterruptContextEntry.owned, htds e he, InterruptContextEntry.owned]
    have hnew : [entry].flatMap (InterruptContextEntry.owned (Function.update tds head new)) =
        (a, sizeofEd) :: tdMem new := by
      rw [List.flatMap_singleton, InterruptContextEntry.owned]
      change (a, sizeofEd) :: tdMem (Function.update tds head new head) = _
      rw [Function.update_self]
    rw [hold, hnew]
    have hall := hbegun.live.trans (((h.live.cons (a, sizeofEd)).append_left (tdMem new)).trans
      List.perm_middle)
    refine hall.trans (List.Perm.trans ?_ List.perm_middle.symm)
    exact (List.perm_append_comm_assoc _ _ _).cons _
  · change dev'.controlEnable = true → dev'.controlHead = 0
    rw [hbegun.beside.rest]
    exact h.control
  · change dev'.bulkEnable = true → dev'.bulkHead = 0
    rw [hbegun.beside.rest]
    exact h.bulk

/-- The endpoints to unlink are those of the contexts to free. -/
theorem drops_iff {deviceAddress endPointAddress : ℕ} {mem : PoolTrace}
    {contexts : List InterruptContextEntry} {enable : Bool}
    (hend : 0x80 ≤ endPointAddress ∧ endPointAddress < 0x90) (he : e ∈ dev.interruptContextList) :
    ({ dev with mem := mem, interruptContextList := contexts, periodicEnable := enable } :
      OhciDev).drops (fun ed _ => ed.functionAddress = deviceAddress ∧
        ed.endPointNum = endPointAddress &&& 0xF) e.ed = e.isOf deviceAddress endPointAddress := by
  have htransfer := h.transfers e he
  have hpoint := htransfer.endPoint
  have hmod : endPointAddress &&& 0xF = endPointAddress % 16 :=
    Nat.and_two_pow_sub_one_eq_mod endPointAddress 4
  rw [InterruptContextEntry.isOf]
  refine decide_eq_decide.2 ?_
  change (dev.ed e.ed).functionAddress = _ ∧ (dev.ed e.ed).endPointNum = _ ↔ _
  rw [htransfer.functionAddress, htransfer.endPointNum, hmod]
  exact and_congr_right fun _ => ⟨fun heq => by omega, fun heq => by rw [heq]⟩

/-- A cancelled transfer gives back what it was given. -/
theorem cancelled {deviceAddress endPointAddress toggle : ℕ} (htop : top ≤ 2 ^ 32)
    (hend : 0x80 ≤ endPointAddress ∧ endPointAddress < 0x90)
    (hnamed : ¬ (deviceAddress = 0 ∧ endPointAddress = 0x80)) :
    ∃ r att', ohciInterruptCancel deviceAddress endPointAddress toggle dev = .ok r ∧
      TransfersSound top base₀ other leaked r.dev att' tds ∧
      r.dev.interruptContextList =
        dev.interruptContextList.filter fun e => !e.isOf deviceAddress endPointAddress := by
  obtain ⟨base, hsound, hB, hM, hk⟩ := h.held
  set contexts := dev.interruptContextList with hcontexts
  set kept := contexts.filter fun e => !e.isOf deviceAddress endPointAddress with hkept
  set gone := contexts.filter fun e => e.isOf deviceAddress endPointAddress with hgone
  have hsound₁ : PoolSound top base ({ dev with periodicEnable := false } : OhciDev).mem := hsound
  obtain ⟨base', mem, toggle', hfree, hmem, hlive, hB', hM', hk'⟩ :=
    @ohciFreeContexts_ok base top base₀.pools { dev with periodicEnable := false } (dev.heads ++ other)
      contexts
      (leaked ++ base₀.buffers) base₀.mappings tds deviceAddress endPointAddress toggle htop hsound₁
      (fun e he => ⟨(h.transfers e he).pointer, (h.transfers e he).ne_nil, (h.transfers e he).buffer,
        (h.transfers e he).mapping⟩) h.live hB hM hk
  -- the endpoints are unlinked and freed
  set drop : EdDescriptor → ℕ → Bool := fun ed _ => ed.functionAddress = deviceAddress ∧
    ed.endPointNum = endPointAddress &&& 0xF with hdrop
  set dev₂ : OhciDev := { dev with
    mem := mem, interruptContextList := kept, periodicEnable := false } with hdev₂
  have hdrops : ∀ e ∈ contexts, dev₂.drops drop e.ed = e.isOf deviceAddress endPointAddress :=
    fun e he => h.drops_iff hend he
  have hfreeLink : LinkFree drop := fun ed ed' x hsame => by
    rw [hdrop, hsame]
  have hsched₂ : Sched dev₂ att := h.sched.congr rfl rfl fun _ _ _ _ => rfl
  have hheads : ∀ n < 63, dev₂.drops drop (dev₂.listHead n) = false := fun n hn => by
    obtain ⟨haddress, hnum⟩ := hsched₂.heads n hn
    have hmod : endPointAddress &&& 0xF = endPointAddress % 16 :=
      Nat.and_two_pow_sub_one_eq_mod endPointAddress 4
    refine decide_eq_false fun hmatch => hnamed ?_
    rw [haddress, hnum, hmod] at hmatch
    omega
  have hedlive : ∀ n < 63, ∀ x ∈ att n, (x, sizeofEd) ∈ dev₂.mem.live := fun n hn x hx => by
    obtain ⟨e, he, rfl⟩ := h.attached n hn x hx
    rw [hlive.mem_iff, List.mem_append, List.mem_append]
    rcases hof : e.isOf deviceAddress endPointAddress with _ | _
    · refine .inl (List.mem_flatMap.2 ⟨e, List.mem_filter.2 ⟨he, ?_⟩, List.mem_cons_self⟩)
      rw [hof]
      rfl
    · exact .inr (.inl (List.mem_map_of_mem (List.mem_filter.2 ⟨he, hof⟩)))
  obtain ⟨dev₃, att', hunlink, hpruned, hatt⟩ := ohciUnlinkLists_ok hfreeLink hsched₂
    (show PoolSound top base' dev₂.mem from hmem) hheads hedlive
  have hrest := hpruned.rest
  have hlist : dev₃.interruptContextList = kept := by rw [hrest]
  have hlistHead : dev₃.listHead = dev.listHead := by
    rw [hrest]
    rfl
  have hmemAtt : ∀ n < 63, ∀ e ∈ contexts, e.ed ∈ att n →
      (e.ed ∈ att' n ↔ e.isOf deviceAddress endPointAddress = false) := fun n hn e he hmem => by
    rw [hatt n hn, List.mem_filter, hdrops e he, Bool.not_eq_true']
    exact and_iff_right hmem
  refine ⟨⟨efiSuccess, toggle', 0, 0, { dev₃ with periodicEnable := true }⟩, att', ?_, ?_, hlist⟩
  · rw [ohciInterruptCancel, ohciFreeInterruptContext]
    change ((ohciFreeContexts deviceAddress endPointAddress contexts toggle
      { dev with periodicEnable := false } >>= _) >>= _) = _
    rw [hfree]
    change (ohciFreeInterruptEdByAddr deviceAddress (endPointAddress &&& 0xF) dev₂ >>= _) = _
    rw [ohciFreeInterruptEdByAddr, hunlink]
    rfl
  · refine ⟨⟨base', hpruned.sound, ?_, ?_, ?_⟩, hpruned.sched.congr rfl rfl fun _ _ _ _ => rfl,
      fun e he => ?_, fun n hn x hx => ?_, fun e he => ?_, ?_, ?_, ?_⟩
    · change base'.buffers.Perm (dev₃.interruptContextList.map _ ++ _)
      rwa [hlist]
    · change base'.mappings.Perm (dev₃.interruptContextList.map _ ++ _)
      rwa [hlist]
    · change base'.pools = _ + dev₃.interruptContextList.length
      rwa [hlist]
    · change e ∈ dev₃.interruptContextList at he
      rw [hlist] at he
      obtain ⟨hmem, hof⟩ := List.mem_filter.1 he
      obtain ⟨n, hn, hlevel, hed⟩ := h.placed e hmem
      exact ⟨n, hn, hlevel, (hmemAtt n hn e hmem hed).2 (by simpa using hof)⟩
    · obtain ⟨e, he, rfl⟩ := h.attached n hn x (hpruned.subset hx)
      refine ⟨e, ?_, rfl⟩
      change e ∈ dev₃.interruptContextList
      rw [hlist, hkept, List.mem_filter]
      rw [hmemAtt n hn e he (hpruned.subset hx)] at hx
      exact ⟨he, by rw [hx]; rfl⟩
    · change e ∈ dev₃.interruptContextList at he
      rw [hlist] at he
      have hsame := hpruned.same e.ed
      refine (h.transfers e (List.mem_filter.1 he).1).congr ?_ ?_ fun x _ => ?_
      · change (dev₃.ed e.ed).functionAddress = _
        rw [hsame]
      · change (dev₃.ed e.ed).endPointNum = _
        rw [hsame]
      · change (dev₃.td x).fixed = _
        rw [hrest]
    · change dev₃.mem.live.Perm (dev₃.interruptContextList.flatMap _ ++ (dev₃.heads ++ other))
      rw [hlist, heads_congr hlistHead]
      refine perm_of_removed hmem.live_nodup hpruned.sound.live_nodup
        (hlive.trans (List.perm_append_comm_assoc _ _ _)) fun c => ?_
      rw [hpruned.live]
      refine and_congr_right fun _ => ⟨fun hall hc => ?_, fun hc n hn x hx hnot heq => hc ?_⟩
      · obtain ⟨e, he, rfl⟩ := List.mem_map.1 hc
        obtain ⟨hmem, hof⟩ := List.mem_filter.1 he
        obtain ⟨n, hn, -, hed⟩ := h.placed e hmem
        refine hall n hn e.ed hed (fun hin => ?_) rfl
        rw [hmemAtt n hn e hmem hed, hof] at hin
        cases hin
      · obtain ⟨e, he, rfl⟩ := h.attached n hn x hx
        rw [hmemAtt n hn e he hx, Bool.not_eq_false] at hnot
        exact List.mem_map.2 ⟨e, List.mem_filter.2 ⟨he, hnot⟩, heq.symm⟩
    · change dev₃.controlEnable = true → dev₃.controlHead = 0
      rw [hrest]
      exact h.control
    · change dev₃.bulkEnable = true → dev₃.bulkHead = 0
      rw [hrest]
      exact h.bulk

/-- What is changed for the controller alone does not touch the transfers. -/
theorem keeps (hkeeps : Keeps dev dev') :
    TransfersSound top base₀ other leaked dev' att tds := by
  obtain ⟨base, hsound, hB, hM, hk⟩ := h.held
  have hmem : dev'.mem = dev.mem := by rw [hkeeps.rest]
  refine h.same (by rw [hkeeps.rest]) (by rw [hkeeps.rest]) ?_ (fun y _ => ?_)
    (fun x _ => hkeeps.fixed x) (hmem ▸ hsound) hB hM hk (hmem ▸ .refl _) ?_ ?_
  · exact h.sched.congr (by rw [hkeeps.rest]) (by rw [hkeeps.rest]) fun _ _ x _ => hkeeps.place x
  · have haddress := congrArg EdDescriptor.functionAddress (hkeeps.place y)
    have hnum := congrArg EdDescriptor.endPointNum (hkeeps.place y)
    exact ⟨haddress, hnum⟩
  · rw [hkeeps.rest]
    exact h.control
  · rw [hkeeps.rest]
    exact h.bulk

/-- What the transfers own is told apart. -/
theorem owned_nodup : ((dev.interruptContextList.flatMap (InterruptContextEntry.owned tds))).Nodup := by
  obtain ⟨base, hsound, -⟩ := h.held
  exact (List.nodup_append.1 (h.live.nodup_iff.1 hsound.live_nodup)).1

theorem walkable (htop : top ≤ 2 ^ 32) (he : e ∈ dev.interruptContextList) :
    Walkable dev e (tds e.dataTd) := by
  obtain ⟨base, hsound, -⟩ := h.held
  have htransfer := h.transfers e he
  have haddr : ∀ x ∈ tds e.dataTd, x ≠ 0 ∧ x < top ∧ usbHcMemUnit ∣ x := fun x hx =>
    hsound.addr (h.mem_live he (List.mem_cons_of_mem _ (mem_tdMem.2 ⟨x, hx, rfl⟩)))
  have howned := (List.nodup_flatMap.1 h.owned_nodup).1 e he
  have hnodup : (tds e.dataTd).Nodup := (List.nodup_cons.1 howned).2.of_map _
  have hzero : 0 ∉ tds e.dataTd := fun hx => (haddr 0 hx).1 rfl
  have hlt : ∀ x ∈ tds e.dataTd, x < 2 ^ 32 := fun x hx => (haddr x hx).2.1.trans_le htop
  exact ⟨htransfer.pointer, hnodup, hzero, length_lt_of_addrs hnodup hlt hzero (by decide),
    (hsound.addr (h.mem_live he List.mem_cons_self)).1, htransfer.dataTd_mem,
    hlt _ htransfer.dataTd_mem⟩

theorem apart : dev.interruptContextList.Pairwise (ApartFrom tds) := by
  refine (List.nodup_flatMap.1 h.owned_nodup).2.imp fun {e e'} hdisjoint => ⟨fun heq => ?_, ?_⟩
  · exact hdisjoint List.mem_cons_self (heq ▸ List.mem_cons_self)
  · intro x hx hx'
    exact hdisjoint (List.mem_cons_of_mem _ (mem_tdMem.2 ⟨x, hx, rfl⟩))
      (List.mem_cons_of_mem _ (mem_tdMem.2 ⟨x, hx', rfl⟩))

/-- The timer passes. -/
theorem housekept (htop : top ≤ 2 ^ 32) :
    ∃ reports restored dev' served rest, ohciHouseKeeper dev = .ok (reports, restored, dev') ∧
      Passed tds dev.interruptContextList dev reports restored dev' served rest :=
  ohciHouseKeep_ok (fun _ he => h.walkable htop he) h.apart

end TransfersSound

end Invariant

end Edk2Rk3576.Ohci
