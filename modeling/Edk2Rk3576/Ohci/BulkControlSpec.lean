import Edk2Rk3576.Ohci.BulkControl
import Edk2Rk3576.Ohci.InterruptSpec

/-!
# What bulk and control transfers do

Whatever the controller writes while the driver waits, the list of a transfer can be walked and its
result is that of the first descriptor that is not done. However a transfer ends, everything it was
given is given back, and what was there before is as it was.
-/

namespace Edk2Rk3576.Ohci

open Cells UnitPool

variable {D : DmaLib} {base : DmaState} {top a x head mapping : ℕ} {dev dev' dev₀ : OhciDev}
  {new data : List ℕ} {listType : DescriptorListType}

section Polls

/-- The first descriptor that is not done. -/
def OhciDev.notDone (dev : OhciDev) (data : List ℕ) : Option ℕ :=
  data.find? fun x => (dev.td x).conditionCode ≠ 0

/-- The result of a list of descriptors. -/
def OhciDev.resultCode (dev : OhciDev) (data : List ℕ) : ℕ :=
  match dev.notDone data with
  | none => tdNoError
  | some x => (dev.td x).conditionCode

/-- The toggle behind the descriptors that are done, if any is. -/
def OhciDev.doneToggle (dev : OhciDev) (data : List ℕ) (nextToggle : ℕ) : ℕ :=
  match (data.takeWhile fun x => (dev.td x).conditionCode = 0).getLast? with
  | none => nextToggle
  | some x => ((dev.td x).dataToggle &&& 1) ^^^ 1

/-- What the driver sees when it looks. -/
def ControllerPoll.code (poll : ControllerPoll) (dev : OhciDev) (data : List ℕ) : ℕ :=
  if poll.filled then tdTobeProcessed else dev.resultCode data

/-- The status for a code. -/
def codeStatus (code : ℕ) : EfiStatus :=
  if code = tdNoError then efiSuccess else if code = tdTobeProcessed then efiNotReady
  else efiDeviceError

theorem codeStatus_eq_notReady {code : ℕ} :
    codeStatus code = efiNotReady ↔ code = tdTobeProcessed := by
  rw [codeStatus]
  split_ifs with hzero hready
  · refine iff_of_false (by decide) ?_
    rw [hzero]
    decide
  · exact iff_of_true rfl hready
  · exact iff_of_false (by decide) hready

/-- The walk ends at the last descriptor, which is not looked at. -/
theorem checkEDStatus_ok {ed last nextToggle fuel : ℕ}
    (h : Seg dev.nextTDPointer head (data ++ [last]) 0) (hzero : 0 ∉ data ++ [last])
    (hfuel : data.length < fuel) : checkEDStatus dev ed fuel head nextToggle =
      .ok ⟨dev.resultCode data, dev.doneToggle data nextToggle⟩ := by
  induction data generalizing head nextToggle fuel with
  | nil =>
    obtain ⟨fuel, rfl⟩ : ∃ k, fuel = k + 1 := ⟨fuel - 1, by omega⟩
    obtain ⟨rfl, hend⟩ := h
    have hlast : (dev.td head).nextTDPointer = 0 := hend
    rw [List.nil_append, List.mem_singleton] at hzero
    rw [checkEDStatus, if_neg (Ne.symm hzero), if_pos hlast]
    rfl
  | cons x data ih =>
    rw [List.length_cons] at hfuel
    obtain ⟨fuel, rfl⟩ : ∃ k, fuel = k + 1 := ⟨fuel - 1, by omega⟩
    obtain ⟨rfl, hrest⟩ := h
    rw [List.cons_append, List.mem_cons, not_or] at hzero
    have hnext : (dev.td head).nextTDPointer ≠ 0 := fun hend => by
      have hfirst := Seg.first_mem hrest (by simp)
      change (dev.td head).nextTDPointer ∈ data ++ [last] at hfirst
      exact hzero.2 (hend ▸ hfirst)
    rw [checkEDStatus, if_neg (Ne.symm hzero.1), if_neg hnext]
    by_cases hcode : (dev.td head).conditionCode = 0
    · have hwalk := @ih (dev.td head).nextTDPointer (((dev.td head).dataToggle &&& 1) ^^^ 1) fuel
        hrest hzero.2 (by omega)
      rw [if_neg (not_not.2 hcode), hwalk]
      congr 2
      · rw [OhciDev.resultCode, OhciDev.resultCode, OhciDev.notDone, OhciDev.notDone,
          List.find?_cons_of_neg (by simpa using hcode)]
      · rw [OhciDev.doneToggle, OhciDev.doneToggle, List.takeWhile_cons_of_pos (by simpa using hcode),
          List.getLast?_cons]
        cases (data.takeWhile fun x => (dev.td x).conditionCode = 0).getLast? <;> rfl
    · rw [if_pos hcode]
      congr 2
      · rw [OhciDev.resultCode, OhciDev.notDone, List.find?_cons_of_pos (by simpa using hcode)]
      · rw [OhciDev.doneToggle, List.takeWhile_cons_of_neg (by simpa using hcode)]
        rfl

end Polls

section Aside

/-- What was there before keeps its place and its fixed fields, whatever is done beside it, and the
other list is left alone. -/
structure Aside (listType : DescriptorListType) (dev₀ dev : OhciDev) : Prop where
  rest : dev = { dev₀ with
    mem := dev.mem
    ed := dev.ed
    td := dev.td
    controlHead := dev.controlHead
    bulkHead := dev.bulkHead
    controlEnable := dev.controlEnable
    bulkEnable := dev.bulkEnable }
  places : ∀ y ∈ dev₀.mem.live.map Prod.fst, (dev.ed y).place = (dev₀.ed y).place
  fixed : ∀ y ∈ dev₀.mem.live.map Prod.fst, (dev.td y).fixed = (dev₀.td y).fixed
  lists : ∀ l, l ≠ listType →
    dev.memoryPointer l = dev₀.memoryPointer l ∧ dev.enabled l = dev₀.enabled l

/-- A transfer on the way: its endpoint and its descriptors are allocated beside what there was. -/
structure Underway (listType : DescriptorListType) (top : ℕ) (base : DmaState) (dev₀ : OhciDev)
    (a : ℕ) (new : List ℕ) (head : ℕ) (dev : OhciDev) : Prop where
  aside : Aside listType dev₀ dev
  sound : PoolSound top base dev.mem
  live : dev.mem.live.Perm (tdMem new ++ (a, sizeofEd) :: dev₀.mem.live)
  pointer : Seg dev.nextTDPointer head new 0

/-- A transfer that is over. -/
structure Settled (listType : DescriptorListType) (top : ℕ) (base : DmaState)
    (dev₀ dev : OhciDev) : Prop where
  aside : Aside listType dev₀ dev
  sound : PoolSound top base dev.mem
  live : dev.mem.live.Perm dev₀.mem.live

theorem Aside.refl (dev : OhciDev) : Aside listType dev dev :=
  ⟨rfl, fun _ _ => rfl, fun _ _ => rfl, fun _ _ => ⟨rfl, rfl⟩⟩

theorem Aside.setMemoryPointer (h : Aside listType dev₀ dev) (value : ℕ) :
    Aside listType dev₀ (dev.setMemoryPointer value listType) := by
  refine ⟨?_, ?_, ?_, fun l hl => ?_⟩
  · cases listType <;> (rw [h.rest]; rfl)
  · cases listType <;> exact h.places
  · cases listType <;> exact h.fixed
  · rw [← (h.lists l hl).1, ← (h.lists l hl).2]
    cases listType <;> cases l <;> first | exact absurd rfl hl | exact ⟨rfl, rfl⟩

theorem Aside.setEnable (h : Aside listType dev₀ dev) (value : Bool) :
    Aside listType dev₀ (dev.setEnable value listType) := by
  refine ⟨?_, ?_, ?_, fun l hl => ?_⟩
  · cases listType <;> (rw [h.rest]; rfl)
  · cases listType <;> exact h.places
  · cases listType <;> exact h.fixed
  · rw [← (h.lists l hl).1, ← (h.lists l hl).2]
    cases listType <;> cases l <;> first | exact absurd rfl hl | exact ⟨rfl, rfl⟩

theorem Aside.setMem (h : Aside listType dev₀ dev) (mem : PoolTrace) :
    Aside listType dev₀ ({ dev with mem := mem } : OhciDev) :=
  ⟨by rw [h.rest], h.places, h.fixed, h.lists⟩

theorem OhciDev.setMemoryPointer_mem {value : ℕ} :
    (dev.setMemoryPointer value listType).mem = dev.mem := by
  cases listType <;> rfl

theorem OhciDev.setEnable_mem {value : Bool} : (dev.setEnable value listType).mem = dev.mem := by
  cases listType <;> rfl

theorem OhciDev.setMemoryPointer_td {value : ℕ} :
    (dev.setMemoryPointer value listType).td = dev.td := by
  cases listType <;> rfl

theorem OhciDev.setEnable_td {value : Bool} : (dev.setEnable value listType).td = dev.td := by
  cases listType <;> rfl

namespace Underway

theorem notMem (h : Underway listType top base dev₀ a new head dev) :
    a ∉ dev₀.mem.live.map Prod.fst ∧ ∀ x ∈ new, x ∉ dev₀.mem.live.map Prod.fst := by
  have hnodup := (h.live.map Prod.fst).nodup_iff.1 h.sound.addrs_nodup
  rw [List.map_append, List.map_cons, List.nodup_append, List.nodup_cons] at hnodup
  refine ⟨hnodup.2.1.1, fun x hx hlive => ?_⟩
  have hmem : x ∈ (tdMem new).map Prod.fst :=
    List.mem_map.2 ⟨(x, sizeofTd), mem_tdMem.2 ⟨x, hx, rfl⟩, rfl⟩
  exact hnodup.2.2 x hmem x (List.mem_cons_of_mem _ hlive) rfl

theorem of_same (h : Underway listType top base dev₀ a new head dev) (haside : Aside listType dev₀ dev')
    (hmem : dev'.mem = dev.mem) (hpointer : dev'.nextTDPointer = dev.nextTDPointer) :
    Underway listType top base dev₀ a new head dev' := by
  refine ⟨haside, ?_, ?_, ?_⟩
  · rw [hmem]
    exact h.sound
  · rw [hmem]
    exact h.live
  · rw [hpointer]
    exact h.pointer

theorem setMemoryPointer (h : Underway listType top base dev₀ a new head dev) (value : ℕ) :
    Underway listType top base dev₀ a new head (dev.setMemoryPointer value listType) :=
  h.of_same (h.aside.setMemoryPointer value) OhciDev.setMemoryPointer_mem (by cases listType <;> rfl)

theorem setEnable (h : Underway listType top base dev₀ a new head dev) (value : Bool) :
    Underway listType top base dev₀ a new head (dev.setEnable value listType) :=
  h.of_same (h.aside.setEnable value) OhciDev.setEnable_mem (by cases listType <;> rfl)

/-- The endpoint is the transfer's own. -/
theorem setEd (h : Underway listType top base dev₀ a new head dev) (ed : EdDescriptor) :
    Underway listType top base dev₀ a new head (dev.setEd a ed) := by
  refine h.of_same ⟨?_, fun y hy => ?_, h.aside.fixed, h.aside.lists⟩ rfl rfl
  · rw [h.aside.rest]
    rfl
  · have hya : y ≠ a := fun heq => h.notMem.1 (heq ▸ hy)
    change (Function.update dev.ed a ed y).place = _
    rw [Function.update_of_ne hya]
    exact h.aside.places y hy

/-- The controller changes neither places nor fixed fields. -/
theorem write (h : Underway listType top base dev₀ a new head dev) (w : ControllerWrite) :
    Underway listType top base dev₀ a new head (dev.write w) := by
  rcases w with ⟨p, w⟩ | ⟨p, w⟩
  · refine h.of_same ⟨?_, fun y hy => ?_, h.aside.fixed, h.aside.lists⟩ rfl rfl
    · rw [h.aside.rest]
      rfl
    · rw [← h.aside.places y hy]
      change (Function.update dev.ed p ((dev.ed p).writeBack w) y).place = _
      by_cases hyp : y = p
      · rw [hyp, Function.update_self]
        rfl
      · rw [Function.update_of_ne hyp]
  · have hkeeps : ∀ y, ((dev.write (.td p w)).td y).fixed = (dev.td y).fixed := fun y => by
      change (Function.update dev.td p ((dev.td p).writeBack w) y).fixed = _
      by_cases hyp : y = p
      · rw [hyp, Function.update_self]
        rfl
      · rw [Function.update_of_ne hyp]
    refine h.of_same ⟨?_, h.aside.places, fun y hy => (hkeeps y).trans (h.aside.fixed y hy),
      h.aside.lists⟩ rfl ?_
    · rw [h.aside.rest]
      rfl
    · funext y
      have hpointer := congrArg TdDescriptor.nextTDPointer (hkeeps y)
      exact hpointer

theorem writes (h : Underway listType top base dev₀ a new head dev) (ws : List ControllerWrite) :
    Underway listType top base dev₀ a new head (ws.foldl OhciDev.write dev) := by
  induction ws generalizing dev with
  | nil => exact h
  | cons w ws ih => exact ih (h.write w)

theorem map (h : Underway listType top base dev₀ a new head dev) (mapping : ℕ) :
    Underway listType top (base.map mapping) dev₀ a new head (dev.setDma (dev.mem.dma.map mapping)) :=
  ⟨h.aside.setMem _, h.sound.map, h.live, h.pointer⟩

theorem unmap (h : Underway listType top base dev₀ a new head dev) (hmem : mapping ∈ base.mappings)
    (hne : mapping ≠ 0) :
    Underway listType top (base.unmap mapping) dev₀ a new head (dev.unmap mapping) := by
  rw [OhciDev.unmap, if_pos hne]
  exact ⟨h.aside.setMem _, h.sound.unmap hmem, h.live, h.pointer⟩

/-- The endpoint is off the list. -/
theorem detach (h : Underway listType top base dev₀ a new head dev) :
    Underway listType top base dev₀ a new head (ohciDetachED listType a a dev) := by
  rw [ohciDetachED, if_pos rfl]
  exact (h.setEd _).setMemoryPointer 0

/-- A stage adds its descriptors. -/
theorem stage {new' : List ℕ} {head' : ℕ} (h : Underway listType top base dev₀ a new head dev)
    (hstaged : Staged top base dev new new' head' dev') :
    Underway listType top base dev₀ a (new ++ new') head' dev' := by
  have hlive := hstaged.live_perm h.sound
  have hed : dev'.ed = dev.ed := by rw [hstaged.rest]
  refine ⟨⟨?_, fun y hy => ?_, fun y hy => ?_, fun l hl => ?_⟩, hstaged.sound, ?_,
    hstaged.chain.pointer⟩
  · rw [hstaged.rest, h.aside.rest]
  · rw [hed]
    exact h.aside.places y hy
  · have hold : y ∈ dev.mem.live.map Prod.fst := by
      rw [(h.live.map Prod.fst).mem_iff, List.map_append, List.map_cons]
      exact List.mem_append_right _ (List.mem_cons_of_mem _ hy)
    rw [hstaged.others y (fun hnew => h.notMem.2 y hnew hy) fun hnew => hstaged.fresh y hnew hold]
    exact h.aside.fixed y hy
  · rw [hstaged.rest]
    exact h.aside.lists l hl
  · refine (hlive.trans (h.live.append_left _)).trans ?_
    rw [tdMem_append, ← List.append_assoc]
    exact (List.perm_append_comm).append_right _

/-- What is left is freed. -/
theorem free (h : Underway listType top base dev₀ a new head dev) (htop : top ≤ 2 ^ 32)
    (hmem : mapping ∈ base.mappings) (hne : mapping ≠ 0) :
    ∃ mem, ohciFreeTransfer a head mapping dev = .ok { dev with mem := mem } ∧
      Settled listType top (base.unmap mapping) dev₀ { dev with mem := mem } := by
  obtain ⟨hnodup, hzero, -, hlength⟩ := h.sound.walkable htop h.live
  obtain ⟨mem₁, hfree, hsound₁, hlive₁⟩ := ohciFreeTds_ok h.sound h.pointer hnodup hzero
    (fun x hx => h.live.mem_iff.2 (List.mem_append_left _ (mem_tdMem.2 ⟨x, hx, rfl⟩))) hlength
  have hperm₁ : mem₁.live.Perm ((a, sizeofEd) :: dev₀.mem.live) :=
    perm_of_removed h.sound.live_nodup hsound₁.live_nodup h.live fun c => by
      rw [hlive₁, notMem_tdMem]
  have hsound₂ : PoolSound top (base.unmap mapping)
      (({ dev with mem := mem₁ } : OhciDev).unmap mapping).mem := by
    rw [OhciDev.unmap, if_pos hne]
    exact hsound₁.unmap hmem
  have hlive₂ : (({ dev with mem := mem₁ } : OhciDev).unmap mapping).mem.live = mem₁.live := by
    rw [OhciDev.unmap, if_pos hne]
    rfl
  obtain ⟨mem₂, hfree₂, hsound₃, hlive₃⟩ := usbHcFree_ok hsound₂
    (hlive₂ ▸ hperm₁.mem_iff.2 List.mem_cons_self)
  refine ⟨mem₂, ?_, h.aside.setMem mem₂, hsound₃, ?_⟩
  · rw [ohciFreeTransfer, hfree]
    change usbHcFree a sizeofEd (({ dev with mem := mem₁ } : OhciDev).unmap mapping) = _
    rw [hfree₂, OhciDev.unmap, if_pos hne]
    rfl
  · refine perm_of_removed hsound₁.live_nodup hsound₃.live_nodup
      (show mem₁.live.Perm ([(a, sizeofEd)] ++ dev₀.mem.live) from hperm₁) fun c => ?_
    rw [hlive₃, hlive₂, List.mem_singleton]

end Underway

/-- The endpoint is created and put at the head of the list, which is empty. -/
theorem underway_of_created {dev₁ : OhciDev} {mem : PoolTrace} (haside : Aside listType dev₀ dev₁)
    (hmem : dev₁.mem = dev₀.mem) (hsound : PoolSound top base mem) (hnew : NewAddr top dev₁.mem a)
    (hlive : mem.live = (a, sizeofEd) :: dev₁.mem.live) :
    Underway listType top base dev₀ a [] 0 (({ dev₁ with mem := mem } : OhciDev).setEd a .created) := by
  refine ⟨⟨?_, fun y hy => ?_, haside.fixed, haside.lists⟩, hsound, ?_, rfl⟩
  · rw [haside.rest]
    rfl
  · have hya : y ≠ a := fun heq => hnew.notMem (hmem ▸ heq ▸ hy)
    change (Function.update dev₁.ed a .created y).place = _
    rw [Function.update_of_ne hya]
    exact haside.places y hy
  · change mem.live.Perm _
    rw [hlive, hmem]
    exact .refl _

end Aside

section Waiting

variable {polls : ℕ → ControllerPoll} {left nextToggle last : ℕ}

/-- The device when the driver looks, after so many looks. -/
def pollDev : (polls : ℕ → ControllerPoll) → (k : ℕ) → OhciDev → OhciDev
  | polls, 0, dev => (polls 0).writes.foldl OhciDev.write dev
  | polls, k + 1, dev =>
    pollDev (fun i => polls (i + 1)) k ((polls 0).writes.foldl OhciDev.write dev)

/-- How the driver waits: it looks until the transfer is through, and no more than `left` times more
than once. -/
structure Waited (polls : ℕ → ControllerPoll) (left : ℕ) (data : List ℕ) (dev : OhciDev) (k : ℕ)
    (r : EfiStatus × OhciEdResult × OhciDev) : Prop where
  le : k ≤ left
  reached : r.2.2 = pollDev polls k dev
  code : r.2.1.errorCode = (polls k).code (pollDev polls k dev) data
  status : r.1 = codeStatus r.2.1.errorCode
  toggle : (polls k).filled = false →
    ∃ next, r.2.1.nextToggle = (pollDev polls k dev).doneToggle data next
  before : ∀ j < k, (polls j).code (pollDev polls j dev) data = tdTobeProcessed
  last : k < left → r.2.1.errorCode ≠ tdTobeProcessed

theorem OhciDev.resultCode_eq_noError :
    dev.resultCode data = tdNoError ↔ ∀ x ∈ data, (dev.td x).conditionCode = 0 := by
  rw [OhciDev.resultCode]
  rcases hfind : dev.notDone data with _ | x
  · have hnone := List.find?_eq_none.1 hfind
    exact iff_of_true rfl fun x hx => by simpa using hnone x hx
  · have hcode := List.find?_some hfind
    have hmem := List.mem_of_find?_eq_some hfind
    simp only [decide_eq_true_eq] at hcode
    exact iff_of_false hcode fun hall => hcode (hall x hmem)

/-- A transfer succeeds when every descriptor is done at the last look. -/
theorem Waited.success {k : ℕ} {r : EfiStatus × OhciEdResult × OhciDev}
    (h : Waited polls left data dev k r) :
    r.1 = efiSuccess ↔ (polls k).filled = false ∧
      ∀ x ∈ data, ((pollDev polls k dev).td x).conditionCode = 0 := by
  have hcode : r.1 = efiSuccess ↔ r.2.1.errorCode = tdNoError := by
    rw [h.status, codeStatus]
    split_ifs with hzero hready
    · exact iff_of_true rfl hzero
    · exact iff_of_false (by decide) hzero
    · exact iff_of_false (by decide) hzero
  rw [hcode, h.code, ControllerPoll.code, ← OhciDev.resultCode_eq_noError]
  split_ifs with hfilled
  · exact iff_of_false (by decide) fun hboth => by
      rw [hfilled] at hboth
      exact Bool.noConfusion hboth.1
  · exact (and_iff_right (Bool.eq_false_iff.2 hfilled)).symm

theorem checkIfDone_ok (poll : ControllerPoll) (nextToggle : ℕ)
    (h : Underway listType top base dev₀ a (data ++ [last]) head dev) (htop : top ≤ 2 ^ 32) :
    ∃ r, checkIfDone poll.filled dev a head nextToggle = .ok (codeStatus (poll.code dev data), r) ∧
      r.errorCode = poll.code dev data ∧
      (poll.filled = false → r.nextToggle = dev.doneToggle data nextToggle) := by
  rcases hfilled : poll.filled with _ | _
  · obtain ⟨-, hzero, -, hlength⟩ := h.sound.walkable htop h.live
    rw [List.length_append] at hlength
    have hcode : poll.code dev data = dev.resultCode data := by
      rw [ControllerPoll.code, hfilled]
      rfl
    refine ⟨⟨dev.resultCode data, dev.doneToggle data nextToggle⟩, ?_, hcode.symm, fun _ => rfl⟩
    rw [checkIfDone, checkEDStatus_ok h.pointer hzero (by omega), hcode]
    rfl
  · have hcode : poll.code dev data = tdTobeProcessed := by
      rw [ControllerPoll.code, hfilled]
      rfl
    refine ⟨⟨tdTobeProcessed, nextToggle⟩, ?_, hcode.symm, fun h => Bool.noConfusion h⟩
    rw [hcode]
    rfl

theorem ohciPoll_ok (left nextToggle : ℕ) (polls : ℕ → ControllerPoll)
    (h : Underway listType top base dev₀ a (data ++ [last]) head dev) (htop : top ≤ 2 ^ 32) :
    ∃ k r, ohciPoll a head left polls nextToggle dev = .ok r ∧ Waited polls left data dev k r ∧
      Underway listType top base dev₀ a (data ++ [last]) head r.2.2 := by
  induction left generalizing polls nextToggle dev with
  | zero =>
    have hfirst := h.writes (polls 0).writes
    obtain ⟨r, hdone, hcode, htoggle⟩ := checkIfDone_ok (polls 0) nextToggle hfirst htop
    refine ⟨0, (codeStatus r.errorCode, r, (polls 0).writes.foldl OhciDev.write dev), ?_,
      ⟨le_rfl, rfl, hcode, rfl, fun hfilled => ⟨nextToggle, htoggle hfilled⟩,
        fun j hj => absurd hj (Nat.not_lt_zero j), fun hlt => absurd hlt (Nat.lt_irrefl 0)⟩, hfirst⟩
    rw [ohciPoll, hdone, hcode]
    rfl
  | succ left ih =>
    have hfirst := h.writes (polls 0).writes
    obtain ⟨r, hdone, hcode, htoggle⟩ := checkIfDone_ok (polls 0) nextToggle hfirst htop
    rw [ohciPoll]
    simp only [hdone]
    change ∃ k s, (if codeStatus _ = efiNotReady then _ else _) = _ ∧ _
    rw [← hcode]
    by_cases hready : codeStatus r.errorCode = efiNotReady
    · rw [if_pos hready]
      obtain ⟨k, s, hok, hwaited, hunderway⟩ :=
        ih r.nextToggle (fun i => polls (i + 1)) hfirst
      refine ⟨k + 1, s, hok, ⟨Nat.succ_le_succ hwaited.le, hwaited.reached, hwaited.code, hwaited.status,
        hwaited.toggle, fun j hj => ?_, fun hlt => hwaited.last (Nat.lt_of_succ_lt_succ hlt)⟩,
        hunderway⟩
      rcases j with _ | j
      · exact hcode.symm.trans (codeStatus_eq_notReady.1 hready)
      · exact hwaited.before j (Nat.lt_of_succ_lt_succ hj)
    · rw [if_neg hready]
      refine ⟨0, _, rfl, ⟨Nat.zero_le _, rfl, hcode, rfl, fun hfilled => ⟨nextToggle, htoggle hfilled⟩,
        fun j hj => absurd hj (Nat.not_lt_zero j), fun _ hcase => ?_⟩, hfirst⟩
      exact hready (codeStatus_eq_notReady.2 hcase)

/-- What the controller is shown: an endpoint at the head of the list, which is enabled, and its
descriptors by the controller's own links. -/
structure Shown (listType : DescriptorListType) (a head last : ℕ) (data : List ℕ) (ed : EdDescriptor)
    (dev : OhciDev) : Prop where
  pointer : dev.memoryPointer listType = a
  enabled : dev.enabled listType = true
  ed : dev.ed a = { ed with tdTailPointer := last, tdHeadPointer := head / 2 ^ 4, skip := 0 }
  first : head / 2 ^ 4 * 2 ^ 4 = head
  chain : Seg dev.nextTD head (data ++ [last]) 0

theorem OhciDev.setEd_setEd {ed ed' : EdDescriptor} : (dev.setEd a ed).setEd a ed' = dev.setEd a ed' := by
  rw [OhciDev.setEd, OhciDev.setEd, OhciDev.setEd]
  dsimp only
  rw [Function.update_idem]

/-- The descriptors are shown to the controller, and the driver waits for it. -/
theorem ohciRunList_ok (timeOut nextToggle : ℕ) (polls : ℕ → ControllerPoll)
    (h : Underway listType top base dev₀ a (data ++ [last]) head dev) (htop : top ≤ 2 ^ 32)
    (hchain : Seg dev.nextTD head (data ++ [last]) 0) (hpointer : dev.memoryPointer listType = a)
    (hzero : (dev.ed a).tdHeadPointer = 0) :
    ∃ dev₁ k r, ohciRunList listType a head last timeOut nextToggle polls dev = .ok r ∧
      Shown listType a head last data (dev.ed a) dev₁ ∧ dev₁.td = dev.td ∧
      Waited polls (timeOut + 1) data dev₁ k r ∧
      Underway listType top base dev₀ a (data ++ [last]) head r.2.2 := by
  have haddr : ∀ x ∈ data ++ [last], x < 2 ^ 32 ∧ usbHcMemUnit ∣ x := fun x hx => by
    obtain ⟨-, hlt, hdvd⟩ := h.sound.addr
      (h.live.mem_iff.2 (List.mem_append_left _ (mem_tdMem.2 ⟨x, hx, rfl⟩)))
    exact ⟨hlt.trans_le htop, hdvd⟩
  obtain ⟨hhead, k, hk⟩ := haddr head (hchain.first_mem (by simp))
  obtain ⟨hlast, -⟩ := haddr last (List.mem_append_right _ List.mem_cons_self)
  set ed := { dev.ed a with tdTailPointer := last, tdHeadPointer := head / 2 ^ 4, skip := 0 } with hed
  set dev₁ := (dev.setEd a ed).setEnable true listType with hdev₁
  have hself : ∀ ed', (dev.setEd a ed').ed a = ed' := fun ed' => Function.update_self _ _ _
  have hunderway : Underway listType top base dev₀ a (data ++ [last]) head dev₁ :=
    (h.setEd ed).setEnable true
  have hrun : ohciRunList listType a head last timeOut nextToggle polls dev =
      ohciPoll a head (timeOut + 1) polls nextToggle dev₁ := by
    rw [ohciRunList, ohciAttachTDListToED_ok (by rw [hself]; exact hzero), toUint32_of_lt hhead,
      toUint32_of_lt hlast, hself, OhciDev.setEd_setEd]
    change ohciPoll a head (timeOut + 1) polls nextToggle
      (((dev.setEd a _).setEd a (ohciSetEDField ((dev.setEd a _).ed a) edSkip 0)).setEnable true
        listType) = _
    rw [hself, OhciDev.setEd_setEd]
    rfl
  obtain ⟨i, r, hpoll, hwaited, hends⟩ := ohciPoll_ok (timeOut + 1) nextToggle polls hunderway
    htop
  refine ⟨dev₁, i, r, hrun.trans hpoll, ⟨?_, ?_, ?_, ?_, ?_⟩, ?_, hwaited, hends⟩
  · rw [← hpointer]
    cases listType <;> rfl
  · cases listType <;> rfl
  · have hfields : dev₁.ed a = (dev.setEd a ed).ed a := by cases listType <;> rfl
    exact hfields.trans (hself ed)
  · change head = 64 * k at hk
    omega
  · have hnext : dev₁.nextTD = dev.nextTD := by cases listType <;> rfl
    rwa [hnext]
  · cases listType <;> rfl

end Waiting

section Bulk

variable {req : BulkRequest} {answer : MapAnswer} {polls : ℕ → ControllerPoll}

/-- The endpoint alone is freed. -/
theorem Underway.freeEd (h : Underway listType top base dev₀ a [] head dev) :
    ∃ mem, usbHcFree a sizeofEd dev = .ok { dev with mem := mem } ∧
      Settled listType top base dev₀ { dev with mem := mem } := by
  have hall : dev.mem.live.Perm ([(a, sizeofEd)] ++ dev₀.mem.live) := h.live
  obtain ⟨mem, hfree, hsound, hlive⟩ := usbHcFree_ok h.sound (hall.mem_iff.2 List.mem_cons_self)
  refine ⟨mem, hfree, h.aside.setMem mem, hsound, ?_⟩
  refine perm_of_removed h.sound.live_nodup hsound.live_nodup hall fun c => ?_
  rw [hlive]
  exact and_congr_right fun _ => List.mem_singleton.not.symm

/-- The endpoint is off its list when everything is freed. -/
theorem Underway.finish (h : Underway listType top base dev₀ a new head dev) (htop : top ≤ 2 ^ 32)
    (hmem : mapping ∈ base.mappings) (hne : mapping ≠ 0) :
    ∃ dev', ohciFreeTransfer a head mapping (ohciDetachED listType a a dev) = .ok dev' ∧
      Settled listType top (base.unmap mapping) dev₀ dev' ∧ dev'.memoryPointer listType = 0 := by
  obtain ⟨mem, hok, hsettled⟩ := h.detach.free htop hmem hne
  refine ⟨_, hok, hsettled, ?_⟩
  rw [ohciDetachED, if_pos rfl]
  cases listType <;> rfl

theorem packetLengths_pos {maxLen : ℕ} (h : maxLen ∈ packetLengths) : 0 < maxLen ∧ maxLen < 2 ^ 32 := by
  rw [packetLengths] at h
  simp only [List.mem_cons, List.not_mem_nil, or_false] at h
  omega

/-- What a bulk transfer that the controller is shown comes to. -/
structure BulkRan (req : BulkRequest) (answer : MapAnswer) (polls : ℕ → ControllerPoll)
    (r : TransferOutcome) (a head last : ℕ) (data : List ℕ) (dev : OhciDev) (k : ℕ)
    (p : EfiStatus × OhciEdResult × OhciDev) : Prop where
  packet : req.maximumPacketLength ∈ packetLengths
  toggle : req.dataToggle < 2
  shown : Shown .bulk a head last data
    (edStage req.deviceAddress (req.endPointAddress &&& 0xF) hiSpeed req.maximumPacketLength .created)
    dev
  pieces : data.map (fun x => (dev.td x).unlinked) =
    dataTds (if req.endPointAddress &&& 0x80 ≠ 0 then tdInPid else tdOutPid) req.maximumPacketLength
      (answer.length + 1) req.dataToggle answer.phyAddr answer.length
  waited : Waited polls (req.timeOut + 1) data dev k p
  status : r.status = p.1
  transferResult : r.transferResult = some (convertErrorCode p.2.1.errorCode)
  dataLength : r.dataLength = if p.2.1.errorCode ≠ tdNoError then 0 else req.dataLength
  dataToggle : r.dataToggle =
    if p.2.1.errorCode ≠ tdNoError ∧ p.2.1.errorCode ≠ tdTobeProcessed then p.2.1.nextToggle
    else (req.dataToggle + data.length) % 2

theorem ohciBulkStages_ok (polls : ℕ → ControllerPoll) (hD : D.Lawful top) (htop : top ≤ 2 ^ 32)
    (h : Underway .bulk top base dev₀ a [] 0 dev) (hhead : dev.bulkHead = a)
    (hed : dev.ed a = edStage req.deviceAddress (req.endPointAddress &&& 0xF) hiSpeed
      req.maximumPacketLength .created) (hmapping : answer.mapping ∈ base.mappings)
    (hne : answer.mapping ≠ 0) (hpacket : req.maximumPacketLength ∈ packetLengths)
    (hlen : 0 < answer.length) (htoggle : req.dataToggle < 2) :
    ∃ r, ohciBulkStages D req answer polls a a dev = .ok r ∧
      Settled .bulk top (base.unmap answer.mapping) dev₀ r.dev ∧ r.dev.bulkHead = 0 ∧
      ((r.status = efiOutOfResources ∧ r.transferResult = none ∧ r.dataLength = req.dataLength) ∨
        ∃ head last data dev₁ k p, BulkRan req answer polls r a head last data dev₁ k p) := by
  obtain ⟨hmax, -⟩ := packetLengths_pos hpacket
  rw [ohciBulkStages]
  set pidDir := if req.endPointAddress &&& 0x80 ≠ 0 then tdInPid else tdOutPid with hpid
  have hempty : TdChain dev 0 [] :=
    ⟨rfl, rfl, List.nodup_nil, List.not_mem_nil, fun x hx => absurd hx List.not_mem_nil⟩
  obtain ⟨ok, head, toggle, dev₁, new, hstage, hstaged, -, hpieces⟩ :=
    ohciDataStage_ok pidDir answer.phyAddr hD htop hmax h.sound hempty
      (fun x hx => absurd hx List.not_mem_nil) htoggle (Nat.lt_succ_self answer.length)
  have h₁ := h.stage hstaged
  rw [List.nil_append] at h₁
  have hchain₁ := hstaged.chain
  rw [List.nil_append] at hchain₁
  simp only [hstage]
  rcases ok with _ | _
  · obtain ⟨dev', hend, hsettled, hzero⟩ := h₁.finish htop hmapping hne
    refine ⟨⟨efiOutOfResources, req.dataLength, toggle, none, dev'⟩, ?_, hsettled, hzero,
      .inl ⟨rfl, rfl, rfl⟩⟩
    change (ohciEndBulk _ _ _ _ dev₁ >>= _) = _
    rw [ohciEndBulk, hend]
    rfl
  obtain ⟨hmap, hflips⟩ := hpieces rfl
  have hnew : new ≠ [] := fun hnil => dataTds_ne_nil hlen (by rw [← hmap, hnil]; rfl)
  have hhead₁ : head ≠ 0 := fun hzero => hnew (hchain₁.zero_iff.1 hzero)
  have hlives : ∀ x ∈ new, x ∈ dev₁.mem.live.map Prod.fst := fun x hx =>
    List.mem_map.2 ⟨(x, sizeofTd),
      h₁.live.mem_iff.2 (List.mem_append_left _ (mem_tdMem.2 ⟨x, hx, rfl⟩)), rfl⟩
  obtain ⟨last, dev₂, new', happend, hstaged₂, hcases⟩ :=
    ohciAppendTD_ok emptyTd hD htop h₁.sound hchain₁ hhead₁ hlives rfl rfl
  have h₂ := h₁.stage hstaged₂
  change ∃ r, (ohciAppendTD D head emptyTd dev₁ >>= _) = _ ∧ _
  rw [happend]
  rcases hcases with ⟨rfl, rfl⟩ | ⟨hlast, rfl, -⟩
  · obtain ⟨dev', hend, hsettled, hzero⟩ := h₂.finish htop hmapping hne
    refine ⟨⟨efiOutOfResources, req.dataLength, toggle, none, dev'⟩, ?_, hsettled, hzero,
      .inl ⟨rfl, rfl, rfl⟩⟩
    change (ohciEndBulk _ _ _ _ dev₂ >>= _) = _
    rw [ohciEndBulk, hend]
    rfl
  have hed₂ : dev₂.ed a = edStage req.deviceAddress (req.endPointAddress &&& 0xF) hiSpeed
      req.maximumPacketLength .created := by
    rw [hstaged₂.rest, hstaged.rest]
    exact hed
  have hhead₂ : dev₂.bulkHead = a := by
    rw [hstaged₂.rest, hstaged.rest]
    exact hhead
  obtain ⟨dev₃, k, p, hrun, hshown, htd, hwaited, h₃⟩ := ohciRunList_ok req.timeOut req.dataToggle
    polls h₂ htop hstaged₂.chain.next hhead₂ (by rw [hed₂]; rfl)
  obtain ⟨dev', hend, hsettled, hzero⟩ := h₃.finish htop hmapping hne
  rw [hed₂] at hshown
  refine ⟨⟨p.1, if p.2.1.errorCode ≠ tdNoError then 0 else req.dataLength,
    if p.2.1.errorCode ≠ tdNoError ∧ p.2.1.errorCode ≠ tdTobeProcessed then p.2.1.nextToggle
    else toggle, some (convertErrorCode p.2.1.errorCode), dev'⟩, ?_, hsettled, hzero,
    .inr ⟨head, last, new, dev₃, k, p, hpacket, htoggle, hshown, ?_, hwaited, rfl, rfl, rfl, ?_⟩⟩
  · change (if last = 0 then _ else (ohciRunList .bulk a head last req.timeOut req.dataToggle polls
      dev₂ >>= _)) = _
    rw [if_neg hlast, hrun]
    change (ohciEndBulk a a head answer.mapping p.2.2 >>= _) = _
    rw [ohciEndBulk, hend]
    rfl
  · rw [htd, ← hmap]
    exact List.map_congr_left hstaged₂.same
  · rw [hflips]

/-- How `DmaMap` answers where it does not fail: with a mapping of the whole buffer, below 4 GiB. -/
structure MapAnswer.Lawful (answer : MapAnswer) (length : ℕ) : Prop where
  mapping : answer.mapping ≠ 0
  whole : answer.length = length
  fits : answer.phyAddr + answer.length ≤ 2 ^ 32

/-- A bulk transfer: it is refused, there is no memory or no mapping for it, or the controller is
shown its descriptors. -/
theorem ohciBulkTransfer_ok (polls : ℕ → ControllerPoll) (hD : D.Lawful top) (htop : top ≤ 2 ^ 32)
    (hsound : PoolSound top base dev.mem) (hanswer : answer.Lawful req.dataLength) :
    ∃ r, ohciBulkTransfer D req answer polls dev = .ok r ∧ Settled .bulk top base dev r.dev ∧
      (r.dev = dev ∨ r.dev.bulkEnable = false ∨ r.dev.bulkHead = 0) ∧
      ((efiError r.status = true ∧ r.transferResult = none ∧ r.dataLength = req.dataLength) ∨
        ∃ a head last data dev₁ k p, BulkRan req answer polls r a head last data dev₁ k p) := by
  rw [ohciBulkTransfer]
  by_cases hinvalid : req.null ∨ req.dataLength = 0 ∨ (req.dataToggle ≠ 0 ∧ req.dataToggle ≠ 1) ∨
      req.maximumPacketLength ∉ packetLengths
  · rw [if_pos hinvalid]
    exact ⟨_, rfl, ⟨.refl dev, hsound, .refl _⟩, .inl rfl, .inl ⟨rfl, rfl, rfl⟩⟩
  rw [if_neg hinvalid]
  simp only [not_or, not_and_or, not_not] at hinvalid
  obtain ⟨-, hlength, htoggle, hpacket⟩ := hinvalid
  set dev₁ := (dev.setEnable false .bulk).setMemoryPointer 0 .bulk with hdev₁
  have haside : Aside .bulk dev dev₁ := ((Aside.refl dev).setEnable false).setMemoryPointer 0
  obtain ⟨a, mem, hmem, hcreate⟩ := ohciCreateED_ok hD (show PoolSound top base dev₁.mem from hsound)
  rcases hcreate with ⟨rfl, hlive, hok⟩ | ⟨hnew, hlive, hok⟩
  · rw [hok]
    refine ⟨_, rfl, ⟨haside.setMem mem, hmem, ?_⟩, .inr (.inl rfl), .inl ⟨rfl, rfl, rfl⟩⟩
    change mem.live.Perm _
    rw [hlive]
    exact .refl _
  rw [hok]
  have hcreated := underway_of_created haside rfl hmem hnew hlive
  set dev₂ := ({ dev₁ with mem := mem } : OhciDev).setEd a .created with hdev₂
  set ed := edStage req.deviceAddress (req.endPointAddress &&& 0xF) hiSpeed req.maximumPacketLength
    .created with hed
  have hself : dev₂.ed a = .created := Function.update_self _ _ _
  have hattach : ohciAttachEDToList .bulk a (dev₂.setEd a ed) =
      (a, (dev₂.setEd a ed).setMemoryPointer a .bulk) := rfl
  have hattached : Underway .bulk top base dev a [] 0
      ((dev₂.setEd a ed).setMemoryPointer a .bulk) := (hcreated.setEd ed).setMemoryPointer a
  change ∃ r, (if a = 0 then _ else _) = _ ∧ _
  rw [if_neg hnew.ne_zero, hself, hattach]
  by_cases hmap : efiError answer.status
  · rw [if_pos hmap]
    obtain ⟨mem', hfree, hsettled⟩ := hattached.freeEd
    refine ⟨⟨answer.status, req.dataLength, req.dataToggle, none, _⟩, ?_, hsettled, .inr (.inl rfl),
      .inl ⟨hmap, rfl, rfl⟩⟩
    change (usbHcFree a sizeofEd ((dev₂.setEd a ed).setMemoryPointer a .bulk) >>= _) = _
    rw [hfree]
    rfl
  · rw [if_neg hmap]
    have hlt : a < 2 ^ 32 := hnew.lt.trans_le htop
    obtain ⟨r, hstages, hsettled, hzero, hcases⟩ := ohciBulkStages_ok polls hD htop
      (hattached.map answer.mapping) (toUint32_of_lt hlt) (Function.update_self _ _ _)
      List.mem_cons_self hanswer.mapping hpacket (by rw [hanswer.whole]; omega) (by omega)
    rw [unmap_map] at hsettled
    refine ⟨r, hstages, hsettled, .inr (.inr hzero), hcases.imp (fun h => ⟨?_, h.2⟩) fun h => ⟨a, h⟩⟩
    rw [h.1]
    rfl

end Bulk

section Control

variable {req : ControlRequest} {reqAnswer dataAnswer : MapAnswer} {base' : DmaState}
  {reqMapping length phyAddr : ℕ}

/-- The data of a transfer is mapped, or there is none. -/
inductive DataMapped (base : DmaState) (mapping : ℕ) : DmaState → Prop
  | none (hzero : mapping = 0) : DataMapped base mapping base
  | mapped (hne : mapping ≠ 0) : DataMapped base mapping (base.map mapping)

theorem Underway.endControl (h : Underway .control top base' dev₀ a new head dev)
    (htop : top ≤ 2 ^ 32) (hdata : DataMapped base mapping base') (hreq : reqMapping ∈ base.mappings)
    (hne : reqMapping ≠ 0) :
    ∃ dev', ohciEndControl a a head reqMapping mapping dev = .ok dev' ∧
      Settled .control top (base.unmap reqMapping) dev₀ dev' ∧ dev'.controlHead = 0 := by
  have hhead : (ohciDetachED .control a a dev).controlHead = 0 := by
    rw [ohciDetachED, if_pos rfl]
    rfl
  rw [ohciEndControl]
  rcases hdata with hzero | hmapped
  · rw [OhciDev.unmap, if_neg (not_not.2 hzero)]
    obtain ⟨mem, hok, hsettled⟩ := h.detach.free htop hreq hne
    exact ⟨_, hok, hsettled, hhead⟩
  · have hunmap := h.detach.unmap List.mem_cons_self hmapped
    rw [unmap_map] at hunmap
    obtain ⟨mem, hok, hsettled⟩ := hunmap.free htop hreq hne
    refine ⟨_, hok, hsettled, ?_⟩
    rw [OhciDev.unmap, if_pos hmapped]
    exact hhead

/-- What a control transfer that the controller is shown comes to. -/
structure ControlRan (req : ControlRequest) (reqAnswer : MapAnswer) (length phyAddr : ℕ)
    (polls : ℕ → ControllerPoll) (r : TransferOutcome) (a head last : ℕ) (data : List ℕ)
    (dev : OhciDev) (k : ℕ) (p : EfiStatus × OhciEdResult × OhciDev) : Prop where
  packet : req.maximumPacketLength ∈ packetLengths
  shown : Shown .control a head last data
    (edStage req.deviceAddress 0 (if req.isSlowDevice then 1 else 0) req.maximumPacketLength .created)
    dev
  pieces : data.map (fun x => (dev.td x).unlinked) =
    setupTd reqAnswer.phyAddr ::
      (dataTds req.dataPidDir req.maximumPacketLength (length + 1) 1 phyAddr length ++
        [statusTd req.statusPidDir])
  waited : Waited polls (req.timeOut + 1) data dev k p
  status : r.status = p.1
  transferResult : r.transferResult = some (convertErrorCode p.2.1.errorCode)
  dataLength : r.dataLength = if p.2.1.errorCode ≠ tdNoError then 0 else req.dataLength

theorem ohciControlStages_ok (polls : ℕ → ControllerPoll) (hD : D.Lawful top) (htop : top ≤ 2 ^ 32)
    (h : Underway .control top base' dev₀ a [x] x dev) (hchain : TdChain dev x [x])
    (hhead : dev.controlHead = a)
    (hed : dev.ed a = edStage req.deviceAddress 0 (if req.isSlowDevice then 1 else 0)
      req.maximumPacketLength .created)
    (hsetup : (dev.td x).unlinked = setupTd reqAnswer.phyAddr)
    (hdata : DataMapped base mapping base') (hreq : reqMapping ∈ base.mappings)
    (hne : reqMapping ≠ 0) (hpacket : req.maximumPacketLength ∈ packetLengths) :
    ∃ r, ohciControlStages D req reqMapping length phyAddr mapping polls a a x dev = .ok r ∧
      Settled .control top (base.unmap reqMapping) dev₀ r.dev ∧ r.dev.controlHead = 0 ∧
      ((r.status = efiOutOfResources ∧ r.transferResult = none ∧ r.dataLength = req.dataLength) ∨
        ∃ last data dev₁ k p, ControlRan req reqAnswer length phyAddr polls r a x last data dev₁ k p) := by
  -- wherever memory runs out, everything is given back
  have hfail : ∀ {tds : List ℕ} {dev₁ : OhciDev}, Underway .control top base' dev₀ a tds x dev₁ →
      ∃ r : TransferOutcome, (ohciEndControl a a x reqMapping mapping dev₁ >>= fun dev =>
        Except.ok (TransferOutcome.mk efiOutOfResources req.dataLength 0 none dev)) = .ok r ∧
      Settled .control top (base.unmap reqMapping) dev₀ r.dev ∧ r.dev.controlHead = 0 ∧
      ((r.status = efiOutOfResources ∧ r.transferResult = none ∧ r.dataLength = req.dataLength) ∨
        ∃ last data dev₁ k p,
          ControlRan req reqAnswer length phyAddr polls r a x last data dev₁ k p) := by
    intro tds dev₁ hunderway
    obtain ⟨dev', hend, hsettled, hzero⟩ := hunderway.endControl htop hdata hreq hne
    refine ⟨⟨efiOutOfResources, req.dataLength, 0, none, dev'⟩, ?_, hsettled, hzero,
      .inl ⟨rfl, rfl, rfl⟩⟩
    rw [hend]
    rfl
  have hx : x ≠ 0 := fun h0 => hchain.nonzero (h0 ▸ List.mem_cons_self)
  have hlives : ∀ {tds : List ℕ} {dev₁ : OhciDev}, Underway .control top base' dev₀ a tds x dev₁ →
      ∀ y ∈ tds, y ∈ dev₁.mem.live.map Prod.fst := fun hunderway y hy =>
    List.mem_map.2 ⟨(y, sizeofTd),
      hunderway.live.mem_iff.2 (List.mem_append_left _ (mem_tdMem.2 ⟨y, hy, rfl⟩)), rfl⟩
  obtain ⟨hmax, -⟩ := packetLengths_pos hpacket
  rw [ohciControlStages]
  obtain ⟨ok, head, toggle, dev₁, new, hstage, hstaged, -, hpieces⟩ :=
    ohciDataStage_ok req.dataPidDir phyAddr hD htop hmax h.sound hchain (hlives h)
      (by decide : 1 < 2) (Nat.lt_succ_self length)
  obtain rfl : head = x := hstaged.chain.next.1
  have h₁ := h.stage hstaged
  simp only [hstage]
  rcases ok with _ | _
  · exact hfail h₁
  obtain ⟨hmap, -⟩ := hpieces rfl
  obtain ⟨status, dev₂, new₂, happend, hstaged₂, hcases⟩ :=
    ohciAppendTD_ok (statusTd req.statusPidDir) hD htop h₁.sound hstaged.chain hx (hlives h₁) rfl rfl
  have h₂ := h₁.stage hstaged₂
  change ∃ r, (ohciAppendTD D head (statusTd req.statusPidDir) dev₁ >>= _) = _ ∧ _
  rw [happend]
  rcases hcases with ⟨rfl, rfl⟩ | ⟨hstatus, rfl, hstatusTd⟩
  · exact hfail h₂
  obtain ⟨last, dev₃, new₃, happend₃, hstaged₃, hcases₃⟩ :=
    ohciAppendTD_ok emptyTd hD htop h₂.sound hstaged₂.chain hx (hlives h₂) rfl rfl
  have h₃ := h₂.stage hstaged₃
  change ∃ r, (if status = 0 then _ else (ohciAppendTD D head emptyTd dev₂ >>= _)) = _ ∧ _
  rw [if_neg hstatus, happend₃]
  rcases hcases₃ with ⟨rfl, rfl⟩ | ⟨hlast, rfl, -⟩
  · exact hfail h₃
  have hrest : dev₃.ed = dev.ed ∧ dev₃.controlHead = dev.controlHead := by
    rw [hstaged₃.rest, hstaged₂.rest, hstaged.rest]
    exact ⟨rfl, rfl⟩
  obtain ⟨dev₄, k, p, hrun, hshown, htd, hwaited, h₄⟩ := ohciRunList_ok req.timeOut 0 polls h₃ htop
    hstaged₃.chain.next (hrest.2.trans hhead) (by rw [hrest.1, hed]; rfl)
  obtain ⟨dev', hend, hsettled, hzero⟩ := h₄.endControl htop hdata hreq hne
  rw [hrest.1, hed] at hshown
  refine ⟨⟨p.1, if p.2.1.errorCode ≠ tdNoError then 0 else req.dataLength, 0,
    some (convertErrorCode p.2.1.errorCode), dev'⟩, ?_, hsettled, hzero,
    .inr ⟨last, _, dev₄, k, p, hpacket, hshown, ?_, hwaited, rfl, rfl, rfl⟩⟩
  · change (if last = 0 then _ else (ohciRunList .control a head last req.timeOut 0 polls dev₃ >>= _)) =
      _
    rw [if_neg hlast, hrun]
    change (ohciEndControl a a head reqMapping mapping p.2.2 >>= _) = _
    rw [hend]
    rfl
  · rw [htd, List.map_congr_left hstaged₃.same, List.map_append, List.map_singleton, hstatusTd,
      List.map_congr_left hstaged₂.same, List.map_append, List.map_singleton, hmap,
      hstaged.same head List.mem_cons_self, hsetup]
    rfl

/-- The setup stage of a transfer whose endpoint is at the head of the list. -/
theorem ohciControlSetup_ok (polls : ℕ → ControllerPoll) (hD : D.Lawful top) (htop : top ≤ 2 ^ 32)
    (h : Underway .control top base dev₀ a [] 0 dev) (hhead : dev.controlHead = a)
    (henable : dev.controlEnable = false)
    (hed : dev.ed a = edStage req.deviceAddress 0 (if req.isSlowDevice then 1 else 0)
      req.maximumPacketLength .created) (hreq : reqAnswer.mapping ∈ base.mappings)
    (hne : reqAnswer.mapping ≠ 0) (hdata : dataAnswer.mapping ≠ 0)
    (hpacket : req.maximumPacketLength ∈ packetLengths) :
    ∃ r, ohciControlSetup D req reqAnswer dataAnswer polls a a dev = .ok r ∧
      Settled .control top (base.unmap reqAnswer.mapping) dev₀ r.dev ∧
      (r.dev.controlEnable = false ∨ r.dev.controlHead = 0) ∧
      ((efiError r.status = true ∧ r.transferResult = none ∧ r.dataLength = req.dataLength) ∨
        ∃ length phyAddr head last data dev₁ k p,
          ((length = req.dataLength ∧ phyAddr = 0 ∧ (req.dataNull = true ∨ req.dataLength = 0)) ∨
            (length = dataAnswer.length ∧ phyAddr = dataAnswer.phyAddr)) ∧
          ControlRan req reqAnswer length phyAddr polls r a head last data dev₁ k p) := by
  rw [ohciControlSetup]
  obtain ⟨x, mem, hmem, hcreate⟩ := ohciCreateTD_ok hD h.sound
  rcases hcreate with ⟨rfl, hlive, hok⟩ | ⟨hnew, hlive, hok⟩
  · have hsame : Underway .control top base dev₀ a [] 0 ({ dev with mem := mem } : OhciDev) := by
      refine ⟨h.aside.setMem mem, hmem, ?_, h.pointer⟩
      change mem.live.Perm _
      rw [hlive]
      exact h.live
    obtain ⟨mem', hfree, hsettled⟩ := (hsame.unmap hreq hne).freeEd
    rw [hok]
    refine ⟨⟨efiOutOfResources, req.dataLength, 0, none, _⟩, ?_, hsettled, .inl ?_,
      .inl ⟨rfl, rfl, rfl⟩⟩
    · change (usbHcFree a sizeofEd (({ dev with mem := mem } : OhciDev).unmap reqAnswer.mapping) >>= _) =
        _
      rw [hfree]
      rfl
    · rw [OhciDev.unmap, if_pos hne]
      exact henable
  -- the setup descriptor
  have hempty : TdChain dev 0 [] :=
    ⟨rfl, rfl, List.nodup_nil, List.not_mem_nil, fun x hx => absurd hx List.not_mem_nil⟩
  obtain ⟨head, dev₁, hlink, hstaged, hsetup⟩ := ohciLinkOrHead_ok (setupTd reqAnswer.phyAddr) hmem
    hnew htop hlive hempty (fun x hx => absurd hx List.not_mem_nil) rfl rfl
  obtain ⟨rfl, rfl⟩ := Prod.mk.inj (Except.ok.inj hlink)
  have hunlinked : (setupTd reqAnswer.phyAddr).unlinked = setupTd reqAnswer.phyAddr := by
    rw [setupTd_eq]
    rfl
  rw [hunlinked] at hsetup
  have h₁ := h.stage hstaged
  rw [List.nil_append] at h₁
  rw [hok]
  change ∃ r, (if x = 0 then _ else _) = _ ∧ _
  rw [if_neg hnew.ne_zero]
  set dev₁ := (({ dev with mem := mem } : OhciDev).setTd x .zeroed).setTd x
    (setupTd reqAnswer.phyAddr) with hdev₁
  by_cases hnone : req.dataNull ∨ req.dataLength = 0
  · obtain ⟨r, hstages, hsettled, hzero, hcases⟩ := @ohciControlStages_ok D base top a x 0 dev₁ dev₀
      req reqAnswer base reqAnswer.mapping req.dataLength 0 polls hD htop h₁ hstaged.chain hhead hed
      hsetup (.none rfl) hreq hne hpacket
    refine ⟨r, ?_, hsettled, .inr hzero, hcases.imp (fun hf => ⟨?_, hf.2⟩) ?_⟩
    · rw [← hstages]
      exact if_pos hnone
    · rw [hf.1]
      rfl
    · rintro ⟨last, data, dev₂, k, p, hran⟩
      exact ⟨_, _, x, last, data, dev₂, k, p, .inl ⟨rfl, rfl, hnone⟩, hran⟩
  by_cases hmap : efiError dataAnswer.status
  · obtain ⟨mem', hfree, hsettled⟩ := h₁.free htop hreq hne
    refine ⟨⟨dataAnswer.status, req.dataLength, 0, none, _⟩, ?_, hsettled, .inl henable,
      .inl ⟨hmap, rfl, rfl⟩⟩
    refine (if_neg hnone).trans ((if_pos hmap).trans ?_)
    change (ohciFreeTransfer a x reqAnswer.mapping dev₁ >>= _) = _
    rw [hfree]
    rfl
  · obtain ⟨r, hstages, hsettled, hzero, hcases⟩ := @ohciControlStages_ok D base top a x
      dataAnswer.mapping (dev₁.setDma (dev₁.mem.dma.map dataAnswer.mapping)) dev₀ req reqAnswer
      (base.map dataAnswer.mapping) reqAnswer.mapping dataAnswer.length dataAnswer.phyAddr polls hD htop
      (h₁.map dataAnswer.mapping) (hstaged.chain.congr fun _ _ => rfl) hhead hed hsetup
      (.mapped hdata) hreq hne hpacket
    refine ⟨r, ?_, hsettled, .inr hzero, hcases.imp (fun hf => ⟨?_, hf.2⟩) ?_⟩
    · rw [← hstages]
      exact (if_neg hnone).trans (if_neg hmap)
    · rw [hf.1]
      rfl
    · rintro ⟨last, data, dev₂, k, p, hran⟩
      exact ⟨_, _, x, last, data, dev₂, k, p, .inr ⟨rfl, rfl⟩, hran⟩

/-- A control transfer: it is refused, there is no memory or no mapping for it, or the controller is
shown its descriptors. -/
theorem ohciControlTransfer_ok (polls : ℕ → ControllerPoll) (hD : D.Lawful top) (htop : top ≤ 2 ^ 32)
    (hsound : PoolSound top base dev.mem) (hreq : reqAnswer.mapping ≠ 0)
    (hdata : dataAnswer.Lawful req.dataLength) :
    ∃ r, ohciControlTransfer D req reqAnswer dataAnswer polls dev = .ok r ∧
      Settled .control top base dev r.dev ∧
      (r.dev = dev ∨ r.dev.controlEnable = false ∨ r.dev.controlHead = 0) ∧
      ((efiError r.status = true ∧ r.transferResult = none ∧ r.dataLength = req.dataLength) ∨
        ∃ phyAddr a head last data dev₁ k p, (req.dataLength = 0 ∨ phyAddr = dataAnswer.phyAddr) ∧
          ControlRan req reqAnswer req.dataLength phyAddr polls r a head last data dev₁ k p) := by
  rw [ohciControlTransfer]
  rcases hinvalid : req.invalid with _ | _
  swap
  · rw [if_pos rfl]
    exact ⟨_, rfl, ⟨.refl dev, hsound, .refl _⟩, .inl rfl, .inl ⟨rfl, rfl, rfl⟩⟩
  rw [if_neg Bool.false_ne_true]
  have hvalid := of_decide_eq_false hinvalid
  simp only [not_or, not_and_or, not_not] at hvalid
  obtain ⟨-, -, hno, hsome, -, hpacket, -⟩ := hvalid
  set dev₁ := (dev.setEnable false .control).setMemoryPointer 0 .control with hdev₁
  have haside : Aside .control dev dev₁ := ((Aside.refl dev).setEnable false).setMemoryPointer 0
  obtain ⟨a, mem, hmem, hcreate⟩ := ohciCreateED_ok hD (show PoolSound top base dev₁.mem from hsound)
  rcases hcreate with ⟨rfl, hlive, hok⟩ | ⟨hnew, hlive, hok⟩
  · rw [hok]
    refine ⟨_, rfl, ⟨haside.setMem mem, hmem, ?_⟩, .inr (.inl rfl), .inl ⟨rfl, rfl, rfl⟩⟩
    change mem.live.Perm _
    rw [hlive]
    exact .refl _
  rw [hok]
  have hcreated := underway_of_created haside rfl hmem hnew hlive
  set dev₂ := ({ dev₁ with mem := mem } : OhciDev).setEd a .created with hdev₂
  set ed := edStage req.deviceAddress 0 (if req.isSlowDevice then 1 else 0) req.maximumPacketLength
    .created with hed
  have hself : dev₂.ed a = .created := Function.update_self _ _ _
  have hattach : ohciAttachEDToList .control a (dev₂.setEd a ed) =
      (a, (dev₂.setEd a ed).setMemoryPointer a .control) := rfl
  have hattached : Underway .control top base dev a [] 0
      ((dev₂.setEd a ed).setMemoryPointer a .control) := (hcreated.setEd ed).setMemoryPointer a
  change ∃ r, (if a = 0 then _ else _) = _ ∧ _
  rw [if_neg hnew.ne_zero, hself, hattach]
  by_cases hmap : efiError reqAnswer.status
  · rw [if_pos hmap]
    obtain ⟨mem', hfree, hsettled⟩ := hattached.freeEd
    refine ⟨⟨reqAnswer.status, req.dataLength, 0, none, _⟩, ?_, hsettled, .inr (.inl rfl),
      .inl ⟨hmap, rfl, rfl⟩⟩
    change (usbHcFree a sizeofEd ((dev₂.setEd a ed).setMemoryPointer a .control) >>= _) = _
    rw [hfree]
    rfl
  · rw [if_neg hmap]
    have hlt : a < 2 ^ 32 := hnew.lt.trans_le htop
    obtain ⟨r, hsetup, hsettled, hquiet, hcases⟩ := ohciControlSetup_ok polls hD htop
      (hattached.map reqAnswer.mapping) (toUint32_of_lt hlt) rfl (Function.update_self _ _ _)
      List.mem_cons_self hreq hdata.mapping hpacket
    rw [unmap_map] at hsettled
    refine ⟨r, hsetup, hsettled, .inr hquiet, hcases.imp_right ?_⟩
    rintro ⟨length, phyAddr, head, last, data, dev₃, k, p, hlength, hran⟩
    rcases hlength with ⟨rfl, -, hnone⟩ | ⟨rfl, rfl⟩
    · refine ⟨phyAddr, a, head, last, data, dev₃, k, p, .inl ?_, hran⟩
      by_cases hdir : req.transferDirection = .noData
      · exact (hno.resolve_left (not_not.2 hdir)).1
      · have hboth := hsome.resolve_left hdir
        rcases hnone with hnull | hzero
        · exact absurd hnull (by simpa using hboth.2)
        · exact hzero
    · rw [hdata.whole] at hran
      exact ⟨_, a, head, last, data, dev₃, k, p, .inr rfl, hran⟩

end Control

end Edk2Rk3576.Ohci
