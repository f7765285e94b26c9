import Edk2Rk3576.Ohci.Interrupts
import Edk2Rk3576.Ohci.Schedule
import Edk2Rk3576.Ohci.TransferSpec

/-!
# What interrupt transfers do

A transfer that is begun has an endpoint at the front of a list and descriptors of its own, all of
them new; undoing it leaves the lists and the pool as they were. A cancelled transfer gives back what
it was given.
-/

namespace Edk2Rk3576.Ohci

open Cells UnitPool

variable {D : DmaLib} {base : DmaState} {top a n x y head mapping : ℕ} {dev dev' dev₀ : OhciDev}
  {att : ℕ → List ℕ} {new : List ℕ}

section Lists

variable {α : Type*} {live live' gone rest : List α}

theorem perm_of_removed (hlive : live.Nodup) (hlive' : live'.Nodup)
    (hperm : live.Perm (gone ++ rest)) (hiff : ∀ c, c ∈ live' ↔ c ∈ live ∧ c ∉ gone) :
    live'.Perm rest := by
  obtain ⟨-, hrest, hdisjoint⟩ := List.nodup_append.1 (hperm.nodup_iff.1 hlive)
  rw [List.perm_ext_iff_of_nodup hlive' hrest]
  intro c
  rw [hiff, hperm.mem_iff, List.mem_append]
  constructor
  · rintro ⟨hgone | hc, hnot⟩
    · exact absurd hgone hnot
    · exact hc
  · exact fun hc => ⟨.inr hc, fun hgone => hdisjoint c hgone c hc rfl⟩

theorem perm_of_added (hlive : live.Nodup) (hlive' : live'.Nodup) (hnew : gone.Nodup)
    (hfresh : ∀ c ∈ gone, c ∉ live) (hiff : ∀ c, c ∈ live' ↔ c ∈ live ∨ c ∈ gone) :
    live'.Perm (gone ++ live) := by
  have hall : (gone ++ live).Nodup :=
    List.nodup_append.2 ⟨hnew, hlive, fun c hc c' hc' heq => hfresh c hc (heq ▸ hc')⟩
  rw [List.perm_ext_iff_of_nodup hlive' hall]
  intro c
  rw [hiff, List.mem_append, or_comm]

end Lists

section Projections

/-- What neither the controller nor a transfer changes in an endpoint that is in a list. -/
def EdDescriptor.place (ed : EdDescriptor) : EdDescriptor :=
  { ed with skip := 0, tdTailPointer := 0, halted := 0, toggleCarry := 0, tdHeadPointer := 0 }

/-- What stays in a transfer descriptor however often it is submitted. -/
def TdDescriptor.fixed (td : TdDescriptor) : TdDescriptor :=
  { td with dataToggle := 0, errorCount := 0, conditionCode := 0, currBufferPointer := 0, nextTD := 0 }

/-- The lists are the same where their endpoints are. -/
theorem Sched.congr (h : Sched dev att) (hlists : dev'.intervalList = dev.intervalList)
    (htable : dev'.hccaInterruptTable = dev.hccaInterruptTable)
    (hplace : ∀ n < 63, ∀ x ∈ items dev.listHead att n, (dev'.ed x).place = (dev.ed x).place) :
    Sched dev' att := by
  have hhead : dev'.listHead = dev.listHead := by
    funext n
    rw [OhciDev.listHead, hlists, OhciDev.listHead]
  refine ⟨?_, ?_, fun n hn => ?_, fun n hn x hx => ?_, ?_⟩
  · rw [hhead]
    refine ⟨h.threaded.closed, h.threaded.nodup, h.threaded.disjoint, h.threaded.nonzero,
      fun n hn => (h.threaded.seg n hn).congr fun x hx => ?_⟩
    have hnext := congrArg EdDescriptor.nextED (hplace n (mem_lists.1 hn) x hx)
    exact hnext
  · rw [hhead, htable]
    exact h.table
  · have hsame := hplace n hn (dev.listHead n) List.mem_cons_self
    rw [hhead]
    exact ⟨(congrArg EdDescriptor.functionAddress hsame).trans (h.heads n hn).1,
      (congrArg EdDescriptor.endPointNum hsame).trans (h.heads n hn).2⟩
  · rw [hhead] at hx
    exact (congrArg EdDescriptor.direction (hplace n hn x hx)).trans (h.direction n hn x hx)
  · rw [hhead]
    exact h.lt

end Projections

section Depth

theorem ohciDepth_eq {pollingInterval depth index : ℕ} :
    (ohciDepth pollingInterval depth index).1 ≤ depth ∧
      (ohciDepth pollingInterval depth index).2 * 2 ^ (ohciDepth pollingInterval depth index).1 =
        index * 2 ^ depth ∧
      (index ≤ pollingInterval → (ohciDepth pollingInterval depth index).2 ≤ pollingInterval) ∧
      ((ohciDepth pollingInterval depth index).1 = 0 ∨
        pollingInterval < (ohciDepth pollingInterval depth index).2 * 2) := by
  induction depth generalizing index with
  | zero => exact ⟨le_rfl, rfl, id, .inl rfl⟩
  | succ depth ih =>
    rw [ohciDepth]
    split_ifs with hle
    · obtain ⟨hdepth, hmul, hbound, hlast⟩ := @ih (index * 2)
      refine ⟨by omega, ?_, fun _ => hbound hle, hlast⟩
      rw [hmul, Nat.pow_succ, Nat.mul_assoc, Nat.mul_comm 2]
    · exact ⟨le_rfl, rfl, id, .inr (by omega)⟩

/-- The list for a polling interval is passed as often as a power of two allows, and at least every
32 frames. -/
theorem listPeriod_ohciDepth {pollingInterval : ℕ} (hpos : 1 ≤ pollingInterval)
    (hlevel : listLevel n = (ohciDepth pollingInterval 5 1).1) :
    listPeriod n ∣ 32 ∧ listPeriod n ≤ pollingInterval ∧
      (listPeriod n = 32 ∨ pollingInterval < listPeriod n * 2) := by
  obtain ⟨hdepth, hmul, hbound, hlast⟩ := @ohciDepth_eq pollingInterval 5 1
  rw [← hlevel] at hdepth hmul hlast
  have hperiod : listPeriod n = (ohciDepth pollingInterval 5 1).2 := by
    have hpow : listPeriod n * 2 ^ listLevel n = 1 * 2 ^ 5 := by
      rw [listPeriod, ← Nat.pow_add, Nat.sub_add_cancel hdepth, Nat.one_mul]
    exact Nat.eq_of_mul_eq_mul_right (Nat.two_pow_pos _) (hpow.trans hmul.symm)
  refine ⟨Nat.pow_dvd_pow 2 (Nat.sub_le 5 _), hperiod ▸ hbound hpos, ?_⟩
  rcases hlast with hzero | hless
  · left
    rw [listPeriod, hzero]
    rfl
  · right
    rwa [hperiod]

end Depth

section Begun

def tdMem (tds : List ℕ) : List (ℕ × ℕ) := tds.map fun x => (x, sizeofTd)

theorem mem_tdMem {c : ℕ × ℕ} {tds : List ℕ} : c ∈ tdMem tds ↔ ∃ x ∈ tds, c = (x, sizeofTd) := by
  simp only [tdMem, List.mem_map, eq_comm]

theorem tdMem_append {tds tds' : List ℕ} : tdMem (tds ++ tds') = tdMem tds ++ tdMem tds' :=
  List.map_append

theorem notMem_tdMem {c : ℕ × ℕ} {tds : List ℕ} :
    c ∉ tdMem tds ↔ ∀ x ∈ tds, c ≠ (x, sizeofTd) := by
  rw [mem_tdMem]
  exact ⟨fun h x hx heq => h ⟨x, hx, heq⟩, fun h ⟨x, hx, heq⟩ => h x hx heq⟩

/-- What was there before is as it was, but for links of endpoints. -/
structure Beside (dev₀ dev : OhciDev) : Prop where
  rest : dev = { dev₀ with mem := dev.mem, ed := dev.ed, td := dev.td }
  eds : ∀ y ∈ dev₀.mem.live.map Prod.fst, (dev₀.ed y).sameBut (dev.ed y)
  tds : ∀ x ∈ dev₀.mem.live.map Prod.fst, dev.td x = dev₀.td x

/-- A transfer that is begun: its endpoint is in a list, and its descriptors are new. -/
structure Begun (top : ℕ) (base : DmaState) (dev₀ : OhciDev) (att : ℕ → List ℕ) (n a : ℕ)
    (new : List ℕ) (head : ℕ) (dev : OhciDev) : Prop where
  beside : Beside dev₀ dev
  sound : PoolSound top base dev.mem
  live : dev.mem.live.Perm (tdMem new ++ (a, sizeofEd) :: dev₀.mem.live)
  sched : Sched dev (Function.update att n (a :: att n))
  chain : TdChain dev head new

/-- A transfer that is undone. -/
structure Undone (top : ℕ) (base : DmaState) (dev₀ : OhciDev) (att : ℕ → List ℕ)
    (dev : OhciDev) : Prop where
  beside : Beside dev₀ dev
  sound : PoolSound top base dev.mem
  live : dev.mem.live.Perm dev₀.mem.live
  sched : Sched dev att

theorem Beside.listHead (h : Beside dev₀ dev) : dev.listHead = dev₀.listHead := by
  rw [h.rest]
  rfl

theorem PoolSound.live_nodup {t : PoolTrace} (h : PoolSound top base t) : t.live.Nodup :=
  h.addrs_nodup.of_map _

theorem PoolSound.addr {t : PoolTrace} {c : ℕ × ℕ} (h : PoolSound top base t) (hc : c ∈ t.live) :
    c.1 ≠ 0 ∧ c.1 < top ∧ usbHcMemUnit ∣ c.1 := by
  obtain ⟨_, -, -, hin, hne, hunit⟩ := h.placed hc
  exact ⟨hne, (hin c.1 (h.mem_window hc)).2, hunit⟩

/-- The descriptors of a list that is allocated can be walked. -/
theorem PoolSound.walkable {t : PoolTrace} {rest : List (ℕ × ℕ)}
    (h : PoolSound top base t) (htop : top ≤ 2 ^ 32)
    (hlive : t.live.Perm (tdMem new ++ rest)) :
    new.Nodup ∧ 0 ∉ new ∧ (∀ x ∈ new, x < 2 ^ 32) ∧ new.length < chainFuel := by
  have hmem : ∀ x ∈ new, (x, sizeofTd) ∈ t.live := fun x hx =>
    hlive.mem_iff.2 (List.mem_append_left _ (mem_tdMem.2 ⟨x, hx, rfl⟩))
  have hnodup : new.Nodup :=
    (List.nodup_append.1 (hlive.nodup_iff.1 h.live_nodup)).1.of_map _
  have hzero : 0 ∉ new := fun hx => (h.addr (hmem 0 hx)).1 rfl
  have hlt : ∀ x ∈ new, x < 2 ^ 32 := fun x hx => (h.addr (hmem x hx)).2.1.trans_le htop
  exact ⟨hnodup, hzero, hlt, length_lt_of_addrs hnodup hlt hzero (by decide)⟩

/-- A stage allocates its descriptors. -/
theorem Staged.live_perm {tds : List ℕ} (h : Staged top base dev tds new head dev')
    (hsound : PoolSound top base dev.mem) : dev'.mem.live.Perm (tdMem new ++ dev.mem.live) := by
  have hnodup := (List.nodup_append.1 h.chain.nodup).2.1
  have hmap : (tdMem new).Nodup := hnodup.map fun x y hxy => (Prod.mk.inj hxy).1
  refine perm_of_added hsound.live_nodup h.sound.live_nodup hmap (fun c hc hmem => ?_)
    fun c => by rw [h.live, mem_tdMem]
  obtain ⟨x, hx, rfl⟩ := mem_tdMem.1 hc
  exact h.fresh x hx (List.mem_map_of_mem hmem)

theorem Begun.notMem (h : Begun top base dev₀ att n a new head dev) :
    a ∉ dev₀.mem.live.map Prod.fst ∧ ∀ x ∈ new, x ∉ dev₀.mem.live.map Prod.fst := by
  have hnodup := (h.live.map Prod.fst).nodup_iff.1 h.sound.addrs_nodup
  rw [List.map_append, List.map_cons, List.nodup_append, List.nodup_cons] at hnodup
  refine ⟨hnodup.2.1.1, fun x hx hlive => ?_⟩
  have hmem : x ∈ (tdMem new).map Prod.fst :=
    List.mem_map.2 ⟨(x, sizeofTd), mem_tdMem.2 ⟨x, hx, rfl⟩, rfl⟩
  exact hnodup.2.2 x hmem x (List.mem_cons_of_mem _ hlive) rfl

/-- The endpoint is unlinked from the front of its list, and everything is freed. -/
theorem Begun.undo (h : Begun top base dev₀ att n a new head dev) (hn : n < 63)
    (hmapping : mapping ∈ base.mappings) :
    ∃ dev', ohciUndoInterrupt (dev₀.listHead n) a head mapping dev = .ok dev' ∧
      Undone top (base.unmap mapping) dev₀ att dev' := by
  have hhead := h.beside.listHead
  obtain ⟨mem₁, hfree, hsound₁, hlive₁⟩ := ohciFreeTds_ok h.sound h.chain.pointer h.chain.nodup
    h.chain.nonzero (fun x hx => h.live.mem_iff.2 (List.mem_append_left _ (mem_tdMem.2 ⟨x, hx, rfl⟩)))
    h.chain.length_lt
  have hperm₁ : mem₁.live.Perm ((a, sizeofEd) :: dev₀.mem.live) :=
    perm_of_removed h.sound.live_nodup hsound₁.live_nodup h.live fun c => by
      rw [hlive₁, notMem_tdMem]
  -- the endpoint is right behind the head
  have hself : Function.update att n (a :: att n) n = a :: att n := Function.update_self _ _ _
  have hseg := h.sched.threaded.seg n (mem_lists.2 hn)
  have hnodup := h.sched.threaded.nodup n (mem_lists.2 hn)
  have hzero := h.sched.threaded.nonzero n (mem_lists.2 hn)
  rw [items, hself, hhead] at hseg hnodup hzero
  have hnext : dev.nextED (dev₀.listHead n) = a := hseg.2.1
  have hlt := h.sched.lt n hn a (by rw [items, hself]; simp)
  obtain ⟨hne, -⟩ := List.nodup_cons.1 hnodup
  rw [List.mem_cons, not_or] at hne hzero
  have ha : a ≠ 0 := fun h => hzero.2 (h ▸ List.mem_cons_self)
  have hbefore : ohciFindBefore { dev with mem := mem₁ } a chainFuel (dev₀.listHead n) =
      .ok (dev₀.listHead n) := by
    obtain ⟨k, hk⟩ : ∃ k, chainFuel = k + 1 := ⟨2 ^ 32 - 1, rfl⟩
    rw [hk, ohciFindBefore, if_neg (Ne.symm hzero.1), if_pos]
    rw [toUint32_of_lt (by omega)]
    exact hnext
  have hsound₂ : PoolSound top base
      (({ dev with mem := mem₁ } : OhciDev).setNextED (dev₀.listHead n) (dev.nextED a)).mem := hsound₁
  obtain ⟨mem₂, hfree₂, hsound₃, hlive₂⟩ := usbHcFree_ok hsound₂
    (hperm₁.mem_iff.2 List.mem_cons_self)
  have hperm₂ : mem₂.live.Perm dev₀.mem.live :=
    perm_of_removed hsound₁.live_nodup hsound₃.live_nodup
      (show mem₁.live.Perm ([(a, sizeofEd)] ++ dev₀.mem.live) from hperm₁) fun c => by
        rw [hlive₂, List.mem_singleton]
        rfl
  refine ⟨(({ ({ dev with mem := mem₁ } : OhciDev).setNextED (dev₀.listHead n) (dev.nextED a) with
    mem := mem₂ }) : OhciDev).setDma (mem₂.dma.unmap mapping), ?_, ?_, hsound₃.unmap hmapping,
    hperm₂, ?_⟩
  · have hcond : dev₀.listHead n ≠ a ∧ dev₀.listHead n ≠ 0 ∧ a ≠ 0 := ⟨hne.1, Ne.symm hzero.1, ha⟩
    rw [ohciUndoInterrupt, hfree]
    simp only [if_pos hcond]
    change ((ohciFindBefore { dev with mem := mem₁ } a chainFuel (dev₀.listHead n) >>= fun before =>
      usbHcFree a sizeofEd (({ dev with mem := mem₁ } : OhciDev).setNextED before (dev.nextED a))) >>=
        fun dev => Except.ok (dev.setDma (dev.mem.dma.unmap mapping))) = _
    rw [hbefore]
    change (usbHcFree a sizeofEd
      (({ dev with mem := mem₁ } : OhciDev).setNextED (dev₀.listHead n) (dev.nextED a)) >>= _) = _
    rw [hfree₂]
    rfl
  · refine ⟨?_, fun y hy => ?_, fun x hx => h.beside.tds x hx⟩
    · rw [h.beside.rest]
      rfl
    · exact (h.beside.eds y hy).trans OhciDev.sameBut_setNextED
  · have hupdate : Function.update (Function.update att n (a :: att n)) n (att n) = att := by
      rw [Function.update_idem, Function.update_eq_self]
    have hthreaded := h.sched.threaded.unlinkFirst (mem_lists.2 hn) hself
    rw [hupdate] at hthreaded
    have hsub : ∀ m, ∀ y ∈ items dev.listHead att m,
        y ∈ items dev.listHead (Function.update att n (a :: att n)) m := by
      intro m y hy
      rcases List.mem_cons.1 hy with rfl | hy
      · exact List.mem_cons_self
      · refine List.mem_cons_of_mem _ ?_
        by_cases hmn : m = n
        · rw [hmn, Function.update_self]
          exact List.mem_cons_of_mem _ (hmn ▸ hy)
        · rwa [Function.update_of_ne hmn]
    refine ⟨?_, h.sched.table, fun m hm => ?_, fun m hm y hy => ?_,
      fun m hm y hy => h.sched.lt m hm y (hsub m y hy)⟩
    · change Threaded lists listUp dev.listHead att (dev.setNextED (dev₀.listHead n) (dev.nextED a)).nextED
      rw [OhciDev.nextED_setNextED, ← hhead]
      exact hthreaded
    · change ((dev.setNextED _ _).ed (dev.listHead m)).functionAddress = 0 ∧
        ((dev.setNextED _ _).ed (dev.listHead m)).endPointNum = 0
      rw [OhciDev.sameBut_setNextED (x := dev.listHead m)]
      exact h.sched.heads m hm
    · change ((dev.setNextED _ _).ed y).direction = edFromTdDir
      rw [OhciDev.sameBut_setNextED (x := y)]
      exact h.sched.direction m hm y (hsub m y hy)

/-- The endpoint is created, filled, and put at the front of a list. -/
theorem begun_of_created {mem : PoolTrace} (hsound : PoolSound top base mem) (hsched : Sched dev₀ att)
    (hn : n < 63)
    (hitems : ∀ m < 63, ∀ x ∈ items dev₀.listHead att m, x ∈ dev₀.mem.live.map Prod.fst)
    (hnew : NewAddr top dev₀.mem a) (htop : top ≤ 2 ^ 32)
    (hlive : mem.live = (a, sizeofEd) :: dev₀.mem.live) (ed : EdDescriptor) (hnext : ed.nextED = 0)
    (hdir : ed.direction = edFromTdDir) :
    ∃ dev, ohciAttachED (dev₀.listHead n) a
        ((({ dev₀ with mem := mem } : OhciDev).setEd a .created).setEd a ed) = dev ∧
      Begun top base dev₀ att n a [] 0 dev ∧ ed.sameBut (dev.ed a) := by
  set dev₁ := (({ dev₀ with mem := mem } : OhciDev).setEd a .created).setEd a ed with hdev₁
  have hself : dev₁.ed a = ed := Function.update_self _ _ _
  have hothers : ∀ y, y ≠ a → dev₁.ed y = dev₀.ed y := fun y hy => by
    change Function.update (Function.update dev₀.ed a .created) a ed y = _
    rw [Function.update_of_ne hy, Function.update_of_ne hy]
  have hnot : ∀ m < 63, a ∉ items dev₀.listHead att m := fun m hm hmem =>
    hnew.notMem (hitems m hm a hmem)
  have hsched₁ : Sched dev₁ att := hsched.congr rfl rfl fun m hm x hx => by
    rw [hothers x fun h => hnot m hm (h ▸ hx)]
  have hattach := hsched₁.attach hn hnot hnew.ne_zero (hnew.lt_pred htop)
    (by rw [OhciDev.nextED, hself]; exact hnext) (by rw [hself]; exact hdir)
  have hmem : (ohciAttachED (dev₀.listHead n) a dev₁).mem = mem := by
    rw [ohciAttachED_rest]
    rfl
  refine ⟨_, rfl, ⟨⟨?_, fun y hy => ?_, fun x _ => ?_⟩, ?_, ?_, hattach, ?_⟩, ?_⟩
  · rw [ohciAttachED_rest]
    rfl
  · have hya : y ≠ a := fun h => hnew.notMem (h ▸ hy)
    rw [← hothers y hya]
    exact sameBut_ohciAttachED
  · rw [ohciAttachED_rest]
    rfl
  · rw [hmem]
    exact hsound
  · rw [hmem, hlive]
    exact .refl _
  · exact ⟨rfl, rfl, List.nodup_nil, List.not_mem_nil, fun x hx => absurd hx List.not_mem_nil⟩
  · rw [← hself]
    exact sameBut_ohciAttachED

/-- A stage adds its descriptors to what is begun. -/
theorem Begun.stage {new' : List ℕ} {head' : ℕ} (h : Begun top base dev₀ att n a new head dev)
    (hstaged : Staged top base dev new new' head' dev') :
    Begun top base dev₀ att n a (new ++ new') head' dev' ∧ dev'.ed = dev.ed := by
  have hed : dev'.ed = dev.ed := by rw [hstaged.rest]
  have hlive := hstaged.live_perm h.sound
  refine ⟨⟨⟨?_, fun y hy => ?_, fun x hx => ?_⟩, hstaged.sound, ?_, ?_, hstaged.chain⟩, hed⟩
  · rw [hstaged.rest, h.beside.rest]
  · rw [hed]
    exact h.beside.eds y hy
  · have hold : x ∈ dev.mem.live.map Prod.fst := by
      rw [(h.live.map Prod.fst).mem_iff, List.map_append, List.map_cons]
      exact List.mem_append_right _ (List.mem_cons_of_mem _ hx)
    rw [hstaged.others x (fun hxnew => h.notMem.2 x hxnew hx) fun hxnew => hstaged.fresh x hxnew hold]
    exact h.beside.tds x hx
  · refine (hlive.trans (h.live.append_left _)).trans ?_
    rw [tdMem_append, ← List.append_assoc]
    exact (List.perm_append_comm).append_right _
  · refine h.sched.congr (by rw [hstaged.rest]) (by rw [hstaged.rest]) fun m _ x _ => ?_
    rw [hed]

/-- The endpoint's own fields are set. -/
theorem Begun.setEd {ed : EdDescriptor} (h : Begun top base dev₀ att n a new head dev)
    (hplace : ed.place = (dev.ed a).place) :
    Begun top base dev₀ att n a new head (dev.setEd a ed) := by
  refine ⟨⟨?_, fun y hy => ?_, h.beside.tds⟩, h.sound, h.live, ?_,
    ⟨h.chain.next, h.chain.pointer, h.chain.nodup, h.chain.nonzero, h.chain.lt⟩⟩
  · rw [h.beside.rest]
    rfl
  · have hya : y ≠ a := fun heq => h.notMem.1 (heq ▸ hy)
    change (dev₀.ed y).sameBut (Function.update dev.ed a ed y)
    rw [Function.update_of_ne hya]
    exact h.beside.eds y hy
  · refine h.sched.congr rfl rfl fun m _ x _ => ?_
    change (Function.update dev.ed a ed x).place = _
    by_cases hxa : x = a
    · rw [hxa, Function.update_self]
      exact hplace
    · rw [Function.update_of_ne hxa]

end Begun

section Submit

variable {req : InterruptRequest} {answer : InterruptAnswer} {ucBuffer : ℕ}

theorem ohciAttachTDListToED_ok (hzero : (dev.ed a).tdHeadPointer = 0) :
    ohciAttachTDListToED a head dev =
      .ok (dev.setEd a { dev.ed a with tdHeadPointer := toUint32 head / 2 ^ 4 }) := by
  rw [ohciAttachTDListToED, hzero]
  rfl

/-- The device with one more transfer, whose endpoint is no longer skipped. -/
def OhciDev.started (dev : OhciDev) (entry : InterruptContextEntry) : OhciDev :=
  { dev with
    mem := { dev.mem with dma := dev.mem.dma.allocateZeroPool }
    interruptContextList := dev.interruptContextList ++ [entry]
    periodicEnable := true }

/-- How a transfer that is begun ends: it is undone, with an error or for want of a context, or it
is started. -/
inductive Ended (top : ℕ) (base : DmaState) (dev₀ : OhciDev) (att : ℕ → List ℕ) (n a : ℕ)
    (req : InterruptRequest) (answer : InterruptAnswer) (ucBuffer : ℕ) (pieces : List TdDescriptor)
    (ed : EdDescriptor) (r : InterruptResult) : Prop
  | failed (hstatus : r.status = efiOutOfResources)
      (hundone : Undone top (base.unmap answer.mapping) dev₀ att r.dev)
  | forgotten (hstatus : r.status = answer.mapStatus) (hnull : answer.entryNull = true)
      (hundone : Undone top (base.unmap answer.mapping) dev₀ att r.dev)
  | started (head : ℕ) (new : List ℕ) (dev : OhciDev) (hstatus : r.status = efiSuccess)
      (hnull : answer.entryNull = false) (hbegun : Begun top base dev₀ att n a new head dev)
      (hplace : (dev.ed a).place = ed.place)
      (hpieces : new.map (fun x => (dev.td x).unlinked) = pieces)
      (hdev : r.dev = dev.started (req.context a head true ucBuffer answer.mapping))

theorem ohciStartInterrupt_ok (req : InterruptRequest) (answer : InterruptAnswer)
    (ucBuffer emptTd toggle : ℕ) (h : Begun top base dev₀ att n a new head dev) (hn : n < 63)
    (hzero : (dev.ed a).tdHeadPointer = 0) (hmapping : answer.mapping ∈ base.mappings) :
    ∃ r, ohciStartInterrupt req answer ucBuffer true true (dev₀.listHead n) a head emptTd toggle
        dev = .ok r ∧
      Ended top base dev₀ att n a req answer ucBuffer (new.map fun x => (dev.td x).unlinked)
        (dev.ed a) r := by
  set dev₁ := dev.setEd a { dev.ed a with tdTailPointer := toUint32 emptTd } with hdev₁
  have hself₁ : dev₁.ed a = { dev.ed a with tdTailPointer := toUint32 emptTd } :=
    Function.update_self _ _ _
  have hbegun₁ : Begun top base dev₀ att n a new head dev₁ := h.setEd rfl
  have hattach : ohciAttachTDListToED a head dev₁ =
      .ok (dev₁.setEd a { dev₁.ed a with tdHeadPointer := toUint32 head / 2 ^ 4 }) :=
    ohciAttachTDListToED_ok (by rw [hself₁]; exact hzero)
  set dev₂ := dev₁.setEd a { dev₁.ed a with tdHeadPointer := toUint32 head / 2 ^ 4 } with hdev₂
  have hself₂ : dev₂.ed a = { dev₁.ed a with tdHeadPointer := toUint32 head / 2 ^ 4 } :=
    Function.update_self _ _ _
  have hbegun₂ : Begun top base dev₀ att n a new head dev₂ := hbegun₁.setEd rfl
  rcases hnull : answer.entryNull with _ | _
  · refine ⟨⟨efiSuccess, toggle, a, head,
      (dev₂.setEd a (ohciSetEDField (dev₂.ed a) edSkip 0)).started
        (req.context a head true ucBuffer answer.mapping)⟩, ?_,
      .started head new (dev₂.setEd a (ohciSetEDField (dev₂.ed a) edSkip 0)) rfl hnull
        (hbegun₂.setEd rfl) ?_ rfl rfl⟩
    · rw [ohciStartInterrupt, hattach]
      change (if true = true ∧ answer.entryNull = true then _ else _) = _
      rw [hnull, if_neg (by simp)]
      rfl
    · change (Function.update dev₂.ed a (ohciSetEDField (dev₂.ed a) edSkip 0) a).place = _
      rw [Function.update_self, hself₂, hself₁]
      rfl
  · obtain ⟨dev', hundo, hundone⟩ := hbegun₂.undo hn hmapping
    refine ⟨⟨answer.mapStatus, toggle, a, head, dev'⟩, ?_, .forgotten rfl hnull hundone⟩
    rw [ohciStartInterrupt, hattach]
    change (if true = true ∧ answer.entryNull = true then _ else _) = _
    rw [hnull, if_pos ⟨rfl, rfl⟩]
    rw [hundo]
    rfl

theorem dataTds_ne_nil {pidDir maxLen fuel toggle addr left : ℕ} (hleft : 0 < left) :
    dataTds pidDir maxLen (fuel + 1) toggle addr left ≠ [] := by
  rw [dataTds, if_neg (Nat.ne_of_gt hleft)]
  exact List.cons_ne_nil _ _

theorem ohciInterruptStages_ok (ucBuffer : ℕ) (hD : D.Lawful top) (htop : top ≤ 2 ^ 32)
    (h : Begun top base dev₀ att n a [] 0 dev) (hn : n < 63)
    (hzero : (dev.ed a).tdHeadPointer = 0) (hmapping : answer.mapping ∈ base.mappings)
    (hmax : 0 < req.maximumPacketLength % 2 ^ 8) (hlen : 0 < answer.mapLength)
    (htoggle : req.dataToggle < 2) :
    ∃ r, ohciInterruptStages D req answer ucBuffer true true (dev₀.listHead n) a dev = .ok r ∧
      Ended top base dev₀ att n a req answer ucBuffer
        (dataTds (if req.endPointAddress &&& 0x80 ≠ 0 then tdInPid else tdOutPid)
          (req.maximumPacketLength % 2 ^ 8) (answer.mapLength + 1) req.dataToggle answer.mapPyhAddr
          answer.mapLength ++ [emptyTd.unlinked]) (dev.ed a) r := by
  rw [ohciInterruptStages]
  set pidDir := if req.endPointAddress &&& 0x80 ≠ 0 then tdInPid else tdOutPid with hpid
  obtain ⟨ok, head, toggle, dev₁, new, hstage, hstaged, -, hpieces⟩ :=
    ohciDataStage_ok pidDir answer.mapPyhAddr hD htop hmax h.sound h.chain
      (fun x hx => absurd hx List.not_mem_nil) htoggle (Nat.lt_succ_self answer.mapLength)
  obtain ⟨hbegun₁, hed₁⟩ := h.stage hstaged
  rw [List.nil_append] at hbegun₁
  simp only [hstage]
  rcases ok with _ | _
  · obtain ⟨dev', hundo, hundone⟩ := hbegun₁.undo hn hmapping
    refine ⟨⟨efiOutOfResources, toggle, a, head, dev'⟩, ?_, .failed rfl hundone⟩
    change (ohciUndoInterrupt _ _ _ _ dev₁ >>= _) = _
    rw [hundo]
    rfl
  · obtain ⟨hmap, -⟩ := hpieces rfl
    have hhead : head ≠ 0 := fun hzero => by
      have hnil := hbegun₁.chain.zero_iff.1 hzero
      rw [hnil] at hmap
      exact dataTds_ne_nil hlen hmap.symm
    have hlives : ∀ x ∈ new, x ∈ dev₁.mem.live.map Prod.fst := fun x hx =>
      List.mem_map.2 ⟨(x, sizeofTd),
        hbegun₁.live.mem_iff.2 (List.mem_append_left _ (mem_tdMem.2 ⟨x, hx, rfl⟩)), rfl⟩
    obtain ⟨emptTd, dev₂, new', happend, hstaged₂, hcases⟩ :=
      ohciAppendTD_ok emptyTd hD htop hbegun₁.sound hbegun₁.chain hhead hlives rfl rfl
    obtain ⟨hbegun₂, hed₂⟩ := hbegun₁.stage hstaged₂
    change ∃ r, (ohciAppendTD D head emptyTd dev₁ >>= _) = _ ∧ _
    rw [happend]
    rcases hcases with ⟨rfl, rfl⟩ | ⟨hne, rfl, hempty⟩
    · obtain ⟨dev', hundo, hundone⟩ := hbegun₂.undo hn hmapping
      refine ⟨⟨efiOutOfResources, toggle, a, head, dev'⟩, ?_, .failed rfl hundone⟩
      change (ohciUndoInterrupt _ _ _ _ dev₂ >>= _) = _
      rw [hundo]
      rfl
    · have hed : dev₂.ed a = dev.ed a := by rw [hed₂, hed₁]
      obtain ⟨r, hstart, hended⟩ := ohciStartInterrupt_ok req answer ucBuffer emptTd toggle hbegun₂
        hn (by rw [hed]; exact hzero) hmapping
      have hall : (new ++ [emptTd]).map (fun x => (dev₂.td x).unlinked) =
          dataTds pidDir (req.maximumPacketLength % 2 ^ 8) (answer.mapLength + 1) req.dataToggle
            answer.mapPyhAddr answer.mapLength ++ [emptyTd.unlinked] := by
        rw [List.map_append, List.map_singleton, hempty, ← hmap]
        congr 1
        exact List.map_congr_left hstaged₂.same
      rw [hall, hed] at hended
      refine ⟨r, ?_, hended⟩
      change (if emptTd = 0 then _ else ohciStartInterrupt _ _ _ _ _ _ _ _ _ _ _) = _
      rw [if_neg hne]
      exact hstart

theorem Beside.refl (dev : OhciDev) : Beside dev dev :=
  ⟨rfl, fun _ _ => rfl, fun _ _ => rfl⟩

theorem Undone.refl (hsound : PoolSound top base dev.mem) (hsched : Sched dev att) :
    Undone top base dev att dev :=
  ⟨.refl dev, hsound, .refl _, hsched⟩

theorem Beside.of_setDma {dma : DmaState} (h : Beside (dev₀.setDma dma) dev) : Beside dev₀ dev :=
  ⟨by rw [h.rest]; rfl, h.eds, h.tds⟩

theorem Undone.of_setDma {dma : DmaState} (h : Undone top base (dev₀.setDma dma) att dev) :
    Undone top base dev₀ att dev :=
  ⟨h.beside.of_setDma, h.sound, h.live, h.sched⟩

theorem Begun.of_setDma {dma : DmaState} (h : Begun top base (dev₀.setDma dma) att n a new head dev) :
    Begun top base dev₀ att n a new head dev :=
  ⟨h.beside.of_setDma, h.sound, h.live, h.sched, h.chain⟩

/-- The buffer of a request that fails is given back. -/
theorem Undone.freeBuffer {pages host : ℕ}
    (h : Undone top (base.allocateBuffer pages host) dev₀ att dev) :
    Undone top base dev₀ att (dev.setDma (dev.mem.dma.freeBuffer pages host)) := by
  have hsound := h.sound.freeBuffer List.mem_cons_self
  have hbase : (base.allocateBuffer pages host).freeBuffer pages host = base := by
    rw [DmaState.freeBuffer, DmaState.allocateBuffer]
    simp only [List.erase_cons_head]
  rw [hbase] at hsound
  refine ⟨⟨?_, h.beside.eds, h.beside.tds⟩, hsound, h.live, h.sched.congr rfl rfl fun _ _ _ _ => rfl⟩
  rw [h.beside.rest]
  rfl

theorem unmap_map : (base.map mapping).unmap mapping = base := by
  rw [DmaState.map, DmaState.unmap]
  simp only [List.erase_cons_head]

/-- How a request to the controller ends: with an error and nothing kept, with nothing kept but its
buffer, or with one more transfer. -/
inductive Submitted (top : ℕ) (base : DmaState) (dev₀ : OhciDev) (att : ℕ → List ℕ)
    (req : InterruptRequest) (answer : InterruptAnswer) (r : InterruptResult) : Prop
  | failed (hstatus : efiError r.status) (hundone : Undone top base dev₀ att r.dev)
  | forgotten (hstatus : ¬ efiError r.status) (hnull : answer.entryNull = true)
      (hundone : Undone top
        (base.allocateBuffer (efiSizeToPages req.dataLength) answer.bufHost) dev₀ att r.dev)
  | started (n a head : ℕ) (new : List ℕ) (dev : OhciDev) (hn : n < 63)
      (hlevel : listLevel n = (ohciDepth req.pollingInterval 5 1).1) (hstatus : r.status = efiSuccess)
      (hnull : answer.entryNull = false) (hlength : 0 < req.dataLength)
      (hpolled : 1 ≤ req.pollingInterval)
      (hbegun : Begun top ((base.allocateBuffer (efiSizeToPages req.dataLength)
        answer.bufHost).map answer.mapping) dev₀ att n a new head dev)
      (haddress : (dev.ed a).functionAddress = req.deviceAddress % 2 ^ 7)
      (hnum : (dev.ed a).endPointNum = (req.endPointAddress &&& 0xF) % 2 ^ 4)
      (hpieces : new.map (fun x => (dev.td x).unlinked) =
        dataTds tdInPid (req.maximumPacketLength % 2 ^ 8) (req.dataLength + 1) req.dataToggle
          answer.mapPyhAddr req.dataLength ++ [emptyTd.unlinked])
      (hdev : r.dev = dev.started (req.context a head true answer.bufHost answer.mapping))

/-- The transfer itself, with its buffer at hand. -/
theorem ohciInterruptSubmit_ok (ucBuffer : ℕ) (hD : D.Lawful top) (htop : top ≤ 2 ^ 32)
    (hsound : PoolSound top base dev.mem) (hsched : Sched dev att)
    (hitems : ∀ m < 63, ∀ x ∈ items dev.listHead att m, x ∈ dev.mem.live.map Prod.fst)
    (hin : req.endPointAddress &&& 0x80 ≠ 0) (hmax : 0 < req.maximumPacketLength % 2 ^ 8)
    (hlen : 0 < answer.mapLength) (htoggle : req.dataToggle < 2) :
    ∃ r, ohciInterruptSubmit D req answer ucBuffer true true dev = .ok r ∧
      ((efiError r.status ∧ Undone top base dev att r.dev) ∨
        ∃ n < 63, listLevel n = (ohciDepth req.pollingInterval 5 1).1 ∧
          ¬ efiError answer.mapStatus ∧ ∃ a ed,
            Ended top (base.map answer.mapping) (dev.setDma (dev.mem.dma.map answer.mapping)) att n a
              req answer ucBuffer
              (dataTds tdInPid (req.maximumPacketLength % 2 ^ 8) (answer.mapLength + 1)
                req.dataToggle answer.mapPyhAddr answer.mapLength ++ [emptyTd.unlinked]) ed r ∧
            ed.functionAddress = req.deviceAddress % 2 ^ 7 ∧
            ed.endPointNum = (req.endPointAddress &&& 0xF) % 2 ^ 4) := by
  rw [ohciInterruptSubmit]
  by_cases hmap : efiError answer.mapStatus
  · rw [if_pos hmap]
    exact ⟨_, rfl, .inl ⟨hmap, Undone.refl hsound hsched⟩⟩
  rw [if_neg hmap]
  set dev₁ := dev.setDma (dev.mem.dma.map answer.mapping) with hdev₁
  have hsound₁ : PoolSound top (base.map answer.mapping) dev₁.mem := hsound.map
  have hsched₁ : Sched dev₁ att := hsched.congr rfl rfl fun _ _ _ _ => rfl
  obtain ⟨hdepth, -, -, -⟩ := @ohciDepth_eq req.pollingInterval 5 1
  obtain ⟨n, hn, hlevel, hfind, -⟩ :=
    ohciFindMinInterruptEDList_ok hsched₁ (show (ohciDepth req.pollingInterval 5 1).1 < 6 by omega)
  -- no endpoint is found, as none has the direction that is asked for
  have hway : Way listUp n (pathUp 5 n) := way_pathUp hn (Nat.sub_le 64 _)
  have hnone : ohciFindWorkingEd dev₁ req.deviceAddress (req.endPointAddress &&& 0xF) edInDir
      chainFuel (dev₁.listHead n) = .ok 0 := by
    refine ohciFindWorkingEd_ok (hsched₁.chain hn hway)
      (hsched₁.threaded.chain_nonzero (mem_lists.2 hn) hway) (fun x hx => ?_) ?_
    · obtain ⟨m, hm, hxm⟩ := List.mem_flatMap.1 hx
      rw [hsched₁.direction m (hsched₁.mem_path hn hway m hm) x hxm]
      decide
    · have hlength := hsched₁.chain_length_lt hn hway
      rw [chainFuel]
      omega
  simp only [hfind, if_pos hin]
  change ∃ r, (ohciFindWorkingEd dev₁ req.deviceAddress (req.endPointAddress &&& 0xF) edInDir
    chainFuel (dev₁.listHead n) >>= _) = _ ∧ _
  rw [hnone]
  obtain ⟨a, mem, hmem, hcreate⟩ := ohciCreateED_ok hD hsound₁
  change ∃ r, (ohciCreateED D dev₁ >>= _) = _ ∧ _
  rcases hcreate with ⟨rfl, hlive, hok⟩ | ⟨hnew, hlive, hok⟩
  · rw [hok]
    refine ⟨_, rfl, .inl ⟨rfl, ⟨rfl, fun _ _ => rfl, fun _ _ => rfl⟩, ?_, ?_, ?_⟩⟩
    · have hunmap : PoolSound top ((base.map answer.mapping).unmap answer.mapping)
          { mem with dma := mem.dma.unmap answer.mapping } := hmem.unmap List.mem_cons_self
      rwa [unmap_map] at hunmap
    · change mem.live.Perm dev.mem.live
      rw [hlive]
      exact .refl _
    · exact hsched.congr rfl rfl fun _ _ _ _ => rfl
  · rw [hok]
    obtain ⟨dev₂, hattach, hbegun, hsame⟩ := begun_of_created hmem hsched₁ hn hitems hnew htop hlive
      (interruptEdStage req.deviceAddress (req.endPointAddress &&& 0xF)
        (if req.isSlowDevice then 1 else 0) (req.maximumPacketLength % 2 ^ 8) .created) rfl rfl
    obtain ⟨r, hstages, hended⟩ := ohciInterruptStages_ok ucBuffer hD htop hbegun hn
      (by rw [hsame]; rfl) List.mem_cons_self hmax hlen htoggle
    rw [if_pos hin] at hended
    refine ⟨r, ?_, .inr ⟨n, hn, hlevel, hmap, a, dev₂.ed a, hended, by rw [hsame]; rfl,
      by rw [hsame]; rfl⟩⟩
    have hself : (({ dev₁ with mem := mem } : OhciDev).setEd a .created).ed a = .created :=
      Function.update_self _ _ _
    change (if a = 0 then _ else ohciInterruptStages D req answer ucBuffer true true
      (dev₁.listHead n) a (ohciAttachED (dev₁.listHead n) a
        ((({ dev₁ with mem := mem } : OhciDev).setEd a .created).setEd a (interruptEdStage
          req.deviceAddress (req.endPointAddress &&& 0xF) (if req.isSlowDevice then 1 else 0)
          (req.maximumPacketLength % 2 ^ 8)
          ((({ dev₁ with mem := mem } : OhciDev).setEd a .created).ed a))))) = _
    rw [if_neg hnew.ne_zero, hself, hattach]
    exact hstages

theorem ohciAsyncInterruptTransfer_ok (hD : D.Lawful top) (htop : top ≤ 2 ^ 32)
    (hsound : PoolSound top base dev.mem) (hsched : Sched dev att)
    (hitems : ∀ m < 63, ∀ x ∈ items dev.listHead att m, x ∈ dev.mem.live.map Prod.fst)
    (hmax : 0 < req.maximumPacketLength % 2 ^ 8) (hhost : answer.bufHost ≠ 0)
    (hwhole : answer.mapLength = req.dataLength) :
    ∃ r, ohciAsyncInterruptTransfer D req answer true true dev = .ok r ∧
      Submitted top base dev att req answer r := by
  rw [ohciAsyncInterruptTransfer]
  by_cases hinvalid : req.endPointAddress &&& 0x80 = 0 ∨ (true = true ∧ (req.dataLength = 0 ∨
      (req.dataToggle ≠ 0 ∧ req.dataToggle ≠ 1) ∨ req.pollingInterval < 1 ∨
        255 < req.pollingInterval))
  · rw [if_pos hinvalid]
    exact ⟨_, rfl, .failed rfl (Undone.refl hsound hsched)⟩
  rw [if_neg hinvalid, if_pos rfl]
  by_cases hallocate : efiError answer.allocateStatus
  · rw [if_pos hallocate]
    exact ⟨_, rfl, .failed rfl (Undone.refl hsound hsched)⟩
  rw [if_neg hallocate]
  push Not at hinvalid
  obtain ⟨hin, hvalid⟩ := hinvalid
  obtain ⟨hlength, htoggles, hpolled, -⟩ := hvalid rfl
  set pages := efiSizeToPages req.dataLength with hpages
  set dev₁ := dev.setDma (dev.mem.dma.allocateBuffer pages answer.bufHost) with hdev₁
  have hsound₁ : PoolSound top (base.allocateBuffer pages answer.bufHost) dev₁.mem :=
    hsound.allocateBuffer
  have hsched₁ : Sched dev₁ att := hsched.congr rfl rfl fun _ _ _ _ => rfl
  change ∃ r, (ohciInterruptTransfer D req answer true answer.bufHost true true dev₁ >>= fun r =>
    if answer.bufHost ≠ 0 ∧ efiError r.status then
      Except.ok { r with dev := r.dev.setDma (r.dev.mem.dma.freeBuffer pages answer.bufHost) }
    else .ok r) = _ ∧ _
  -- a transfer that fails gives the buffer back
  have hfail : ∀ r, ohciInterruptTransfer D req answer true answer.bufHost true true dev₁ = .ok r →
      efiError r.status → Undone top (base.allocateBuffer pages answer.bufHost) dev₁ att r.dev →
      ∃ r', (ohciInterruptTransfer D req answer true answer.bufHost true true dev₁ >>= fun r =>
        if answer.bufHost ≠ 0 ∧ efiError r.status then
          Except.ok { r with dev := r.dev.setDma (r.dev.mem.dma.freeBuffer pages answer.bufHost) }
        else .ok r) = .ok r' ∧ Submitted top base dev att req answer r' := by
    intro r hok hstatus hundone
    refine ⟨{ r with dev := r.dev.setDma (r.dev.mem.dma.freeBuffer pages answer.bufHost) }, ?_,
      .failed hstatus hundone.of_setDma.freeBuffer⟩
    rw [hok]
    exact if_pos ⟨hhost, hstatus⟩
  by_cases hlong : maxBytesPerTd < req.dataLength
  · refine hfail ⟨efiInvalidParameter, req.dataToggle, 0, 0, dev₁⟩ ?_ rfl
      (Undone.refl hsound₁ hsched₁)
    rw [ohciInterruptTransfer, if_pos hlong]
  have htransfer : ohciInterruptTransfer D req answer true answer.bufHost true true dev₁ =
      ohciInterruptSubmit D req answer answer.bufHost true true dev₁ := by
    rw [ohciInterruptTransfer, if_neg hlong, if_pos rfl]
  obtain ⟨r, hsubmit, hcases⟩ := ohciInterruptSubmit_ok answer.bufHost hD htop hsound₁ hsched₁ hitems
    hin hmax (by rw [hwhole]; omega) (by omega)
  rcases hcases with ⟨hstatus, hundone⟩ | ⟨n, hn, hlevel, hmap, a, ed, hended, haddress, hnum⟩
  · exact hfail r (htransfer.trans hsubmit) hstatus hundone
  rw [hwhole] at hended
  rcases hended with ⟨hstatus, hundone⟩ | ⟨hstatus, hnull, hundone⟩ |
    ⟨head, new, dev₂, hstatus, hnull, hbegun, hplace, hpieces, hdev⟩
  · rw [unmap_map] at hundone
    exact hfail r (htransfer.trans hsubmit) (by rw [hstatus]; rfl) hundone.of_setDma
  · rw [unmap_map] at hundone
    have hok : ¬ efiError r.status := by rwa [hstatus]
    refine ⟨r, ?_, .forgotten hok hnull hundone.of_setDma.of_setDma⟩
    rw [htransfer, hsubmit]
    exact if_neg fun h => hok h.2
  · have hok : ¬ efiError r.status := by
      rw [hstatus]
      decide
    refine ⟨r, ?_, .started n a head new dev₂ hn hlevel hstatus hnull (by omega) hpolled
      hbegun.of_setDma.of_setDma ?_ ?_ hpieces hdev⟩
    · rw [htransfer, hsubmit]
      exact if_neg fun h => hok h.2
    · exact (congrArg EdDescriptor.functionAddress hplace).trans haddress
    · exact (congrArg EdDescriptor.endPointNum hplace).trans hnum

end Submit

end Edk2Rk3576.Ohci
