import Edk2Rk3576.Ohci.DeviceSpec
import Mathlib.Tactic.IntervalCases

/-!
# The tree of interrupt lists

The 63 lists are the nodes of a tree: the 32 lists of the interrupt table at the bottom, then half as
many a level. In the order in which they are made, the parent of list `n` is list `32 + n / 2`. The
list of the table for a frame goes up to the root, so a list is passed in every frame of one residue.
-/

namespace Edk2Rk3576.Ohci

open Cells UnitPool

variable {D : DmaLib} {base : DmaState} {top a x n m t count index : ℕ} {dev dev' : OhciDev}
  {att : ℕ → List ℕ} {drop : EdDescriptor → ℕ → Bool}

section Tree

def listUp (n : ℕ) : Option ℕ := if n < 62 then some (32 + n / 2) else none

def lists : List ℕ := List.range 63

/-- The lists from one to the root. -/
def pathUp : (fuel n : ℕ) → List ℕ
  | 0, n => [n]
  | fuel + 1, n => if n < 62 then n :: pathUp fuel (32 + n / 2) else [n]

theorem way_pathUp : ∀ {fuel n : ℕ}, n < 63 → 64 - n ≤ 2 ^ (fuel + 1) → Way listUp n (pathUp fuel n)
  | 0, n, hn, hfuel => by
    obtain rfl : n = 62 := by omega
    exact .root rfl
  | fuel + 1, n, hn, hfuel => by
    rw [pathUp]
    split_ifs with hlt
    · rw [Nat.pow_succ] at hfuel
      exact .node (if_pos hlt) (way_pathUp (by omega) (by omega))
    · exact .root (if_neg hlt)

/-- The level of a list, and its place there. -/
def listLevel (n : ℕ) : ℕ :=
  if n < 32 then 0 else if n < 48 then 1 else if n < 56 then 2 else if n < 60 then 3
  else if n < 62 then 4 else 5

def listIndex (n : ℕ) : ℕ := n - (64 - 2 ^ (6 - listLevel n))

/-- The list at a place of a level. -/
def listAt (level index : ℕ) : ℕ := 64 - 2 ^ (6 - level) + index

/-- A list is passed every so many frames. -/
def listPeriod (n : ℕ) : ℕ := 2 ^ (5 - listLevel n)

/-- The frames in which a list is passed, modulo its period. -/
def listResidue (n : ℕ) : ℕ := leaf.getD (listIndex n * 2 ^ listLevel n) 0 % listPeriod n

theorem mem_pathUp_leaf : ∀ n < 63, ∀ t < 32,
    n ∈ pathUp 5 (leaf.getD t 0) ↔ t % listPeriod n = listResidue n := by
  decide

theorem leaf_lt : ∀ t < 32, leaf.getD t 0 < 32 := by decide

theorem leaf_leaf : ∀ t < 32, leaf.getD (leaf.getD t 0) 0 = t := by decide

theorem listAt_level : ∀ level < 6, ∀ index < 32 / 2 ^ level,
    listAt level index < 63 ∧ listLevel (listAt level index) = level ∧
      listIndex (listAt level index) = index := by decide

theorem listAt_listLevel : ∀ n < 63, listAt (listLevel n) (listIndex n) = n ∧ listLevel n < 6 ∧
    listIndex n < 32 / 2 ^ listLevel n := by decide

theorem listResidue_lt : ∀ n < 63, listResidue n < listPeriod n := by decide

/-- Every list is on the way from one of the table. -/
theorem exists_mem_pathUp (hn : n < 63) : ∃ t < 32, n ∈ pathUp 5 (leaf.getD t 0) := by
  have hperiod : listPeriod n ≤ 32 := Nat.pow_le_pow_right (by decide) (Nat.sub_le 5 _)
  have hlt := listResidue_lt n hn
  refine ⟨listResidue n, by omega, (mem_pathUp_leaf n hn _ (by omega)).2 ?_⟩
  exact Nat.mod_eq_of_lt hlt

end Tree

section Schedule

/-- The first endpoint of a list. -/
def OhciDev.listHead (dev : OhciDev) (n : ℕ) : ℕ := dev.intervalList (listLevel n) (listIndex n)

/-- The lists are linked to a tree, with the endpoints of transfers attached. -/
structure Sched (dev : OhciDev) (att : ℕ → List ℕ) : Prop where
  threaded : Threaded lists listUp dev.listHead att dev.nextED
  table : ∀ t < 32, dev.hccaInterruptTable t = dev.listHead (leaf.getD t 0)
  heads : ∀ n < 63,
    (dev.ed (dev.listHead n)).functionAddress = 0 ∧ (dev.ed (dev.listHead n)).endPointNum = 0
  direction : ∀ n < 63, ∀ x ∈ items dev.listHead att n, (dev.ed x).direction = edFromTdDir
  lt : ∀ n < 63, ∀ x ∈ items dev.listHead att n, x < 2 ^ 32 - 1

/-- The items from a list to the root. -/
def OhciDev.listItems (dev : OhciDev) (att : ℕ → List ℕ) (n : ℕ) : List ℕ :=
  (pathUp 5 n).flatMap (items dev.listHead att)

/-- The items of the list of a frame. -/
def OhciDev.frameItems (dev : OhciDev) (att : ℕ → List ℕ) (f : ℕ) : List ℕ :=
  dev.listItems att (leaf.getD (f % 32) 0)

theorem mem_lists : n ∈ lists ↔ n < 63 := List.mem_range

theorem way_leaf (ht : t < 32) : Way listUp (leaf.getD t 0) (pathUp 5 (leaf.getD t 0)) := by
  have hleaf := leaf_lt t ht
  exact way_pathUp (by omega) (Nat.sub_le 64 _)

namespace Sched

theorem mem_path (h : Sched dev att) (hn : n < 63) {path : List ℕ} (hway : Way listUp n path) :
    ∀ m ∈ path, m < 63 := fun m hm =>
  mem_lists.1 (hway.subset h.threaded.closed (mem_lists.2 hn) m hm)

theorem head_ne_zero (h : Sched dev att) (hn : n < 63) : dev.listHead n ≠ 0 := by
  have hzero := h.threaded.nonzero n (mem_lists.2 hn)
  rw [items, List.mem_cons, not_or] at hzero
  exact Ne.symm hzero.1

/-- A list as the controller goes through it. -/
theorem chain (h : Sched dev att) (hn : n < 63) {path : List ℕ} (hway : Way listUp n path) :
    Seg dev.nextED (dev.listHead n) (path.flatMap (items dev.listHead att)) 0 :=
  h.threaded.chain (mem_lists.2 hn) hway

theorem chain_length_lt (h : Sched dev att) (hn : n < 63) {path : List ℕ}
    (hway : Way listUp n path) :
    (path.flatMap (items dev.listHead att)).length < 2 ^ 32 - 1 := by
  refine length_lt_of_addrs (h.threaded.chain_nodup (mem_lists.2 hn) hway) (fun x hx => ?_)
    (h.threaded.chain_nonzero (mem_lists.2 hn) hway) (by decide)
  obtain ⟨m, hm, hxm⟩ := List.mem_flatMap.1 hx
  exact h.lt m (h.mem_path hn hway m hm) x hxm

/-- In every frame the controller passes an endpoint of a list once or not at all, as the list's
period has it. -/
theorem frame (h : Sched dev att) (f : ℕ) :
    Seg dev.nextED (dev.hccaInterruptTable (f % 32)) (dev.frameItems att f) 0 ∧
      0 ∉ dev.frameItems att f ∧
      (∀ x ∈ dev.frameItems att f, ∃ n < 63, x ∈ items dev.listHead att n) ∧
      ∀ n < 63, ∀ x ∈ items dev.listHead att n,
        (dev.frameItems att f).count x = if f % listPeriod n = listResidue n then 1 else 0 := by
  have ht : f % 32 < 32 := Nat.mod_lt _ (by decide)
  have hleaf : leaf.getD (f % 32) 0 < 63 := (leaf_lt _ ht).trans (by decide)
  refine ⟨h.table _ ht ▸ h.chain hleaf (way_leaf ht),
    h.threaded.chain_nonzero (mem_lists.2 hleaf) (way_leaf ht), fun x hx => ?_, fun n hn x hx => ?_⟩
  · obtain ⟨n, hn, hxn⟩ := List.mem_flatMap.1 hx
    exact ⟨n, h.mem_path hleaf (way_leaf ht) n hn, hxn⟩
  · rw [OhciDev.frameItems, OhciDev.listItems,
      h.threaded.count_chain (mem_lists.2 hleaf) (way_leaf ht) (mem_lists.2 hn) hx]
    have hdvd : listPeriod n ∣ 32 := Nat.pow_dvd_pow 2 (Nat.sub_le 5 _)
    refine if_congr ?_ rfl rfl
    rw [mem_pathUp_leaf n hn _ ht, Nat.mod_mod_of_dvd _ hdvd]

end Sched

section Attach

theorem countEdNum_list (h : Sched dev att) (hn : n < 63) :
    countEdNum dev chainFuel (dev.listHead n) 0 = .ok (dev.listItems att n).length := by
  have hway : Way listUp n (pathUp 5 n) := way_pathUp hn (Nat.sub_le 64 _)
  have hlen := h.chain_length_lt hn hway
  rw [countEdNum_ok (h.chain hn hway) (h.threaded.chain_nonzero (mem_lists.2 hn) hway)
    (by rw [chainFuel]; omega), Nat.zero_add]
  rfl

/-- The shortest of the lists from `index` on, if it is shorter than what was found before. -/
theorem ohciMinList_ok {depth : ℕ} (minEdNum tempEd : ℕ) (h : Sched dev att) (hdepth : depth < 6)
    (hle : index + count ≤ 32 / 2 ^ depth) :
    ∃ r, ohciMinList dev depth count index minEdNum tempEd = .ok r ∧
      ((r = tempEd ∧ ∀ i, index ≤ i → i < index + count →
          minEdNum ≤ (dev.listItems att (listAt depth i)).length) ∨
        ∃ j, index ≤ j ∧ j < index + count ∧ r = dev.listHead (listAt depth j) ∧
          (dev.listItems att (listAt depth j)).length < minEdNum ∧
          ∀ i, index ≤ i → i < index + count →
            (dev.listItems att (listAt depth j)).length ≤
              (dev.listItems att (listAt depth i)).length) := by
  induction count generalizing index minEdNum tempEd with
  | zero => exact ⟨tempEd, rfl, .inl ⟨rfl, fun i hi hlt => by omega⟩⟩
  | succ count ih =>
    obtain ⟨hn, hlevel, hindex⟩ := listAt_level depth hdepth index (by omega)
    have hhead : dev.intervalList depth index = dev.listHead (listAt depth index) := by
      rw [OhciDev.listHead, hlevel, hindex]
    rw [ohciMinList]
    simp only [hhead, countEdNum_list h hn]
    change ∃ r, (if _ < minEdNum then _ else _) = _ ∧ _
    split_ifs with hless
    · obtain ⟨r, hok, hr⟩ := ih (dev.listItems att (listAt depth index)).length
        (dev.listHead (listAt depth index)) (show index + 1 + count ≤ 32 / 2 ^ depth by omega)
      refine ⟨r, hok, .inr ?_⟩
      rcases hr with ⟨rfl, hall⟩ | ⟨j, hj, hj', rfl, hjless, hall⟩
      · refine ⟨index, le_rfl, by omega, rfl, hless, fun i hi hlt => ?_⟩
        rcases Nat.eq_or_lt_of_le hi with rfl | hi
        · exact le_rfl
        · exact hall i hi (by omega)
      · refine ⟨j, by omega, by omega, rfl, hjless.trans hless, fun i hi hlt => ?_⟩
        rcases Nat.eq_or_lt_of_le hi with rfl | hi
        · exact hjless.le
        · exact hall i hi (by omega)
    · obtain ⟨r, hok, hr⟩ := ih minEdNum tempEd (show index + 1 + count ≤ 32 / 2 ^ depth by omega)
      refine ⟨r, hok, ?_⟩
      rcases hr with ⟨rfl, hall⟩ | ⟨j, hj, hj', rfl, hjless, hall⟩
      · refine .inl ⟨rfl, fun i hi hlt => ?_⟩
        rcases Nat.eq_or_lt_of_le hi with rfl | hi
        · exact Nat.le_of_not_lt hless
        · exact hall i hi (by omega)
      · refine .inr ⟨j, by omega, by omega, rfl, hjless, fun i hi hlt => ?_⟩
        rcases Nat.eq_or_lt_of_le hi with rfl | hi
        · exact hjless.le.trans (Nat.le_of_not_lt hless)
        · exact hall i hi (by omega)

/-- A shortest list of a level is found. -/
theorem ohciFindMinInterruptEDList_ok (h : Sched dev att) {depth : ℕ} (hdepth : depth < 6) :
    ∃ n < 63, listLevel n = depth ∧
      ohciFindMinInterruptEDList dev depth = .ok (dev.listHead n) ∧
      ∀ m < 63, listLevel m = depth →
        (dev.listItems att n).length ≤ (dev.listItems att m).length := by
  have hpos : 0 < 32 / 2 ^ depth := by interval_cases depth <;> decide
  have hshort : ∀ i < 32 / 2 ^ depth, (dev.listItems att (listAt depth i)).length < 0xFFFFFFFF :=
    fun i hi => by
      obtain ⟨hn, -, -⟩ := listAt_level depth hdepth i hi
      exact h.chain_length_lt hn (way_pathUp hn (Nat.sub_le 64 _))
  obtain ⟨r, hok, hr⟩ := ohciMinList_ok 0xFFFFFFFF 0 h hdepth
    (show 0 + 32 / 2 ^ depth ≤ 32 / 2 ^ depth by omega)
  rcases hr with ⟨-, hall⟩ | ⟨j, -, hj, rfl, -, hall⟩
  · have hfirst := hall 0 le_rfl (by omega)
    have hless := hshort 0 hpos
    omega
  · rw [Nat.zero_add] at hj
    obtain ⟨hn, hlevel, -⟩ := listAt_level depth hdepth j hj
    refine ⟨listAt depth j, hn, hlevel, ?_, fun m hm hmlevel => ?_⟩
    · rw [ohciFindMinInterruptEDList, if_neg (by omega), hok]
      exact if_neg (h.head_ne_zero hn)
    · obtain ⟨hat, -, hindex⟩ := listAt_listLevel m hm
      rw [hmlevel] at hat hindex
      have hle := hall (listIndex m) (Nat.zero_le _) (by omega)
      rwa [hat] at hle

/-- The links after an endpoint is attached. -/
theorem nextED_ohciAttachED (ha : a ≠ 0) (hax : x ≠ a) (hx : x < 2 ^ 32)
    (hnext : dev.nextED a < 2 ^ 32) (hnew : dev.nextED x = 0) :
    (ohciAttachED a x dev).nextED a = x ∧ (ohciAttachED a x dev).nextED x = dev.nextED a ∧
      ∀ y, y ≠ a → y ≠ x → (ohciAttachED a x dev).nextED y = dev.nextED y := by
  rw [ohciAttachED, if_neg ha]
  split_ifs with hzero
  · rw [OhciDev.nextED_setNextED, Function.update_self, Function.update_of_ne hax, hnew, hzero]
    exact ⟨toUint32_of_lt hx, rfl, fun y hya _ => Function.update_of_ne hya _ _⟩
  · dsimp only
    rw [OhciDev.nextED_setNextED, OhciDev.nextED_setNextED, Function.update_self,
      Function.update_of_ne (Ne.symm hax), Function.update_self]
    refine ⟨toUint32_of_lt hx, toUint32_of_lt hnext, fun y hya hyx => ?_⟩
    rw [Function.update_of_ne hyx, Function.update_of_ne hya]

theorem ohciAttachED_rest :
    ohciAttachED a x dev = { dev with ed := (ohciAttachED a x dev).ed } := by
  rw [ohciAttachED]
  split_ifs <;> rfl

theorem sameBut_ohciAttachED {y : ℕ} : (dev.ed y).sameBut ((ohciAttachED a x dev).ed y) := by
  rw [ohciAttachED]
  split_ifs
  · rfl
  · exact OhciDev.sameBut_setNextED
  · exact OhciDev.sameBut_setNextED.trans OhciDev.sameBut_setNextED

/-- An endpoint is attached to a list. -/
theorem Sched.attach (h : Sched dev att) (hn : n < 63)
    (hnew : ∀ m < 63, x ∉ items dev.listHead att m) (hx : x ≠ 0) (hlt : x < 2 ^ 32 - 1)
    (hnext : dev.nextED x = 0) (hdir : (dev.ed x).direction = edFromTdDir) :
    Sched (ohciAttachED (dev.listHead n) x dev) (Function.update att n (x :: att n)) := by
  have hhead : (ohciAttachED (dev.listHead n) x dev).listHead = dev.listHead := by
    rw [ohciAttachED_rest]
    rfl
  have hxhead : x ≠ dev.listHead n := fun heq => hnew n hn (heq ▸ List.mem_cons_self)
  have hnextlt : dev.nextED (dev.listHead n) < 2 ^ 32 := by
    have hseg := h.threaded.seg n (mem_lists.2 hn)
    obtain ⟨-, hrest⟩ := hseg
    rcases hatt : att n with _ | ⟨y, l⟩
    · rw [hatt] at hrest
      have hend : dev.nextED (dev.listHead n) = after listUp dev.listHead n := hrest
      rw [hend, after]
      rcases hup : listUp n with _ | m
      · exact Nat.two_pow_pos 32
      · have hm : m < 63 := mem_lists.1 (h.threaded.closed n (mem_lists.2 hn) m hup)
        exact (h.lt m hm _ List.mem_cons_self).trans (by decide)
    · rw [hatt] at hrest
      have hy : dev.nextED (dev.listHead n) = y := hrest.1
      have hylt := h.lt n hn y (by rw [items, hatt]; simp)
      omega
  obtain ⟨hlink, hitem, hothers⟩ := nextED_ohciAttachED (h.head_ne_zero hn) hxhead
    (hlt.trans (by decide)) hnextlt hnext
  have hsub : ∀ m < 63, ∀ y ∈ items dev.listHead (Function.update att n (x :: att n)) m,
      y = x ∨ y ∈ items dev.listHead att m := by
    intro m hm y hy
    rcases List.mem_cons.1 hy with rfl | hy
    · exact .inr List.mem_cons_self
    · by_cases hmn : m = n
      · rw [hmn, Function.update_self] at hy
        rcases List.mem_cons.1 hy with rfl | hy
        · exact .inl rfl
        · exact .inr (hmn ▸ List.mem_cons_of_mem _ hy)
      · rw [Function.update_of_ne hmn] at hy
        exact .inr (List.mem_cons_of_mem _ hy)
  refine ⟨?_, ?_, fun m hm => ?_, fun m hm y hy => ?_, fun m hm y hy => ?_⟩
  · rw [hhead]
    exact h.threaded.insert (mem_lists.2 hn) (fun m hm => hnew m (mem_lists.1 hm)) hx hlink hitem
      hothers
  · rw [hhead, ohciAttachED_rest]
    exact h.table
  · rw [hhead, sameBut_ohciAttachED (y := dev.listHead m) (a := dev.listHead n) (x := x)]
    exact h.heads m hm
  · rw [hhead] at hy
    rw [sameBut_ohciAttachED (y := y) (a := dev.listHead n) (x := x)]
    rcases hsub m hm y hy with rfl | hy
    · exact hdir
    · exact h.direction m hm y hy
  · rw [hhead] at hy
    rcases hsub m hm y hy with rfl | hy
    · exact hlt
    · exact h.lt m hm y hy

end Attach

section Unlink

/-- What unlinking endpoints from the lists does: those that are gone are freed. -/
structure Pruned (drop : EdDescriptor → ℕ → Bool) (top : ℕ) (base : DmaState) (dev : OhciDev)
    (att : ℕ → List ℕ) (dev' : OhciDev) (att' : ℕ → List ℕ) : Prop where
  rest : dev' = { dev with mem := dev'.mem, ed := dev'.ed }
  sound : PoolSound top base dev'.mem
  sched : Sched dev' att'
  same : ∀ x, (dev.ed x).sameBut (dev'.ed x)
  kept : ∀ n, att' n = att n ∨ att' n = (att n).filter fun x => !dev.drops drop x
  live : ∀ c, c ∈ dev'.mem.live ↔
    c ∈ dev.mem.live ∧ ∀ n < 63, ∀ x ∈ att n, x ∉ att' n → c ≠ (x, sizeofEd)

/-- What picks the endpoints does not look at their links. -/
def LinkFree (drop : EdDescriptor → ℕ → Bool) : Prop :=
  ∀ ed ed' x, EdDescriptor.sameBut ed ed' → drop ed' x = drop ed x

theorem Pruned.refl (hsound : PoolSound top base dev.mem) (h : Sched dev att) :
    Pruned drop top base dev att dev att where
  rest := rfl
  sound := hsound
  sched := h
  same := fun _ => rfl
  kept := fun _ => .inl rfl
  live := fun _ => (and_iff_left fun _ _ _ hx hnot => absurd hx hnot).symm

theorem Pruned.drops {att' : ℕ → List ℕ} (hdrop : LinkFree drop)
    (h : Pruned drop top base dev att dev' att') (x : ℕ) :
    dev'.drops drop x = dev.drops drop x := hdrop _ _ x (h.same x)

theorem Pruned.subset {att' : ℕ → List ℕ} (h : Pruned drop top base dev att dev' att') :
    x ∈ att' n → x ∈ att n := by
  rcases h.kept n with hn | hn <;> rw [hn]
  · exact id
  · exact fun hx => List.mem_of_mem_filter hx

theorem Pruned.trans {att' att'' : ℕ → List ℕ} {dev'' : OhciDev} (hdrop : LinkFree drop)
    (h : Pruned drop top base dev att dev' att')
    (h' : Pruned drop top base dev' att' dev'' att'') :
    Pruned drop top base dev att dev'' att'' where
  rest := by rw [h'.rest, h.rest]
  sound := h'.sound
  sched := h'.sched
  same := fun x => (h.same x).trans (h'.same x)
  kept := fun n => by
    have hdrops : (fun x => !dev'.drops drop x) = fun x => !dev.drops drop x :=
      funext fun x => by rw [h.drops hdrop]
    rcases h'.kept n with hn | hn <;> rcases h.kept n with hn' | hn' <;> rw [hn, hn']
    · exact .inl rfl
    · exact .inr rfl
    · exact .inr (by rw [hdrops])
    · refine .inr ?_
      rw [hdrops, List.filter_filter]
      simp only [Bool.and_self]
  live := fun c => by
    rw [h'.live, h.live, and_assoc]
    refine and_congr_right fun _ => ⟨fun ⟨hfirst, hsecond⟩ n hn x hx hnot => ?_, fun hall =>
      ⟨fun n hn x hx hnot => hall n hn x hx fun hx'' => hnot (h'.subset hx''),
        fun n hn x hx hnot => hall n hn x (h.subset hx) hnot⟩⟩
    by_cases hx' : x ∈ att' n
    · exact hsecond n hn x hx' hnot
    · exact hfirst n hn x hx hx'

/-- The walk down the list of a frame. -/
theorem ohciUnlinkEds_list (h : Sched dev att) (hsound : PoolSound top base dev.mem) (ht : t < 32)
    (hheads : ∀ n < 63, dev.drops drop (dev.listHead n) = false)
    (hlive : ∀ n < 63, ∀ x ∈ att n, (x, sizeofEd) ∈ dev.mem.live) :
    ∃ dev', ohciUnlinkEds drop chainFuel (dev.hccaInterruptTable t) dev = .ok dev' ∧
      Pruned drop top base dev att dev' fun n =>
        if n ∈ pathUp 5 (leaf.getD t 0) then (att n).filter (fun x => !dev.drops drop x)
        else att n := by
  have hleaf : leaf.getD t 0 < 63 := (leaf_lt t ht).trans (by decide)
  have hway := way_leaf ht
  obtain ⟨rest, hrest⟩ := hway.exists_cons
  have hchain := h.chain hleaf hway
  have hnodup := h.threaded.chain_nodup (mem_lists.2 hleaf) hway
  have hzero := h.threaded.chain_nonzero (mem_lists.2 hleaf) hway
  have hlen := h.chain_length_lt hleaf hway
  -- the list from the frame's head on
  obtain ⟨l, hl⟩ : ∃ l, (pathUp 5 (leaf.getD t 0)).flatMap (items dev.listHead att) =
      dev.listHead (leaf.getD t 0) :: l := by
    rw [hrest, List.flatMap_cons, items, List.cons_append]
    exact ⟨_, rfl⟩
  have hmem : ∀ x ∈ l, ∃ m, m < 63 ∧ m ∈ pathUp 5 (leaf.getD t 0) ∧
      x ∈ items dev.listHead att m := by
    intro x hx
    have hx' : x ∈ (pathUp 5 (leaf.getD t 0)).flatMap (items dev.listHead att) :=
      hl ▸ List.mem_cons_of_mem _ hx
    obtain ⟨m, hm, hxm⟩ := List.mem_flatMap.1 hx'
    exact ⟨m, h.mem_path hleaf hway m hm, hm, hxm⟩
  have hitem : ∀ x, ∀ m < 63, x ∈ items dev.listHead att m → dev.drops drop x = true →
      x ∈ att m := by
    intro x m hm hx hdrop
    rcases List.mem_cons.1 hx with rfl | hx
    · rw [hheads m hm] at hdrop
      cases hdrop
    · exact hx
  rw [hl] at hchain hnodup hzero hlen
  obtain ⟨dev', hok, hunlinked⟩ := ohciUnlinkEds_ok hsound hchain hnodup hzero
    (fun x hx (hdrop : dev.drops drop x = true) => by
      obtain ⟨m, hm, -, hxm⟩ := hmem x hx
      exact hlive m hm x (hitem x m hm hxm hdrop))
    (show l.length < chainFuel by rw [List.length_cons] at hlen; rw [chainFuel]; omega)
  refine ⟨dev', h.table t ht ▸ hok, hunlinked.rest, hunlinked.sound, ?_, hunlinked.same,
    fun n => ?_, fun c => ?_⟩
  · have hhead : dev'.listHead = dev.listHead := by
      rw [hunlinked.rest]
      rfl
    have hsub : ∀ n, ∀ x ∈ items dev.listHead (fun n =>
        if n ∈ pathUp 5 (leaf.getD t 0) then (att n).filter (fun x => !dev.drops drop x)
        else att n) n, x ∈ items dev.listHead att n := by
      intro n x hx
      rcases List.mem_cons.1 hx with rfl | hx
      · exact List.mem_cons_self
      · refine List.mem_cons_of_mem _ ?_
        dsimp only at hx
        split_ifs at hx
        · exact List.mem_of_mem_filter hx
        · exact hx
    refine ⟨?_, ?_, fun n hn => ?_, fun n hn x hx => ?_, fun n hn x hx => ?_⟩
    · rw [hhead]
      refine h.threaded.prune (mem_lists.2 hleaf) hway
        (fun m hm => by rw [hheads m (mem_lists.1 hm)]; rfl) ?_ fun y hy => ?_
      · rw [hl, List.filter_cons_of_pos (by rw [hheads _ hleaf]; rfl)]
        exact hunlinked.seg
      · exact congrArg EdDescriptor.nextED (hunlinked.others y (hl ▸ hy))
    · rw [hhead, hunlinked.rest]
      exact h.table
    · rw [hhead, hunlinked.same (dev.listHead n)]
      exact h.heads n hn
    · rw [hhead] at hx
      rw [hunlinked.same x]
      exact h.direction n hn x (hsub n x hx)
    · rw [hhead] at hx
      exact h.lt n hn x (hsub n x hx)
  · split_ifs
    · exact .inr rfl
    · exact .inl rfl
  · rw [hunlinked.live c]
    refine and_congr_right fun _ => ⟨fun hall n hn x hx hnot => ?_, fun hall x hx hdrop => ?_⟩
    · have hgone : n ∈ pathUp 5 (leaf.getD t 0) ∧ dev.drops drop x = true := by
        by_contra hneg
        rw [not_and] at hneg
        refine hnot ?_
        split_ifs with hpath
        · exact List.mem_filter.2 ⟨hx, by rw [Bool.eq_false_iff.2 (hneg hpath)]; rfl⟩
        · exact hx
      have hxchain : x ∈ dev.listHead (leaf.getD t 0) :: l :=
        hl ▸ List.mem_flatMap.2 ⟨n, hgone.1, List.mem_cons_of_mem _ hx⟩
      rcases List.mem_cons.1 hxchain with rfl | hxl
      · rw [hheads _ hleaf] at hgone
        cases hgone.2
      · exact hall x hxl hgone.2
    · obtain ⟨m, hm, hpath, hxm⟩ := hmem x hx
      refine hall m hm x (hitem x m hm hxm hdrop) ?_
      rw [if_pos hpath, List.mem_filter, hdrop]
      exact fun hin => absurd hin.2 Bool.false_ne_true

/-- All the lists of the table from `index` on. -/
theorem ohciUnlinkLists_loop (hdrop : LinkFree drop) (h : Sched dev att)
    (hsound : PoolSound top base dev.mem) (hle : index + count ≤ 32)
    (hheads : ∀ n < 63, dev.drops drop (dev.listHead n) = false)
    (hlive : ∀ n < 63, ∀ x ∈ att n, (x, sizeofEd) ∈ dev.mem.live) :
    ∃ dev' att', ohciUnlinkLists drop count index dev = .ok dev' ∧
      Pruned drop top base dev att dev' att' ∧
      ∀ t, index ≤ t → t < index + count → ∀ n ∈ pathUp 5 (leaf.getD t 0),
        att' n = (att n).filter fun x => !dev.drops drop x := by
  induction count generalizing index dev att with
  | zero => exact ⟨dev, att, rfl, Pruned.refl hsound h, fun t ht hlt => by omega⟩
  | succ count ih =>
    have ht : index < 32 := by omega
    have hleaf : leaf.getD index 0 < 63 := (leaf_lt index ht).trans (by decide)
    have hne : dev.hccaInterruptTable index ≠ 0 := by
      rw [h.table index ht]
      exact h.head_ne_zero hleaf
    obtain ⟨dev₁, hfirst, hpruned⟩ := ohciUnlinkEds_list h hsound ht hheads hlive
    have hhead : dev₁.listHead = dev.listHead := by
      rw [hpruned.rest]
      rfl
    obtain ⟨dev', att', hok, hpruned', hcovered⟩ := ih hpruned.sched hpruned.sound
      (show index + 1 + count ≤ 32 by omega)
      (fun n hn => by rw [hpruned.drops hdrop, hhead]; exact hheads n hn)
      (fun n hn x hx => (hpruned.live _).2 ⟨hlive n hn x (hpruned.subset hx), fun m hm y hy hnot hxy => by
        obtain ⟨rfl, -⟩ := Prod.mk.inj hxy
        have hnm := h.threaded.mem_unique (mem_lists.2 hn) (mem_lists.2 hm)
          (List.mem_cons_of_mem _ (hpruned.subset hx)) (List.mem_cons_of_mem _ hy)
        exact hnot (hnm ▸ hx)⟩)
    have hboth := hpruned.trans hdrop hpruned'
    refine ⟨dev', att', ?_, hboth, fun t hle' hlt n hn => ?_⟩
    · rw [ohciUnlinkLists]
      simp only [if_neg hne]
      rw [hfirst]
      exact hok
    · rcases Nat.eq_or_lt_of_le hle' with rfl | hlt'
      · -- the list of this frame, which the later walks leave filtered
        rcases hpruned'.kept n with hn' | hn' <;> rw [hn', if_pos hn]
        rw [List.filter_filter]
        refine List.filter_congr fun x _ => ?_
        rw [hpruned.drops hdrop, Bool.and_self]
      · have hn' := hcovered t hlt' (by omega) n hn
        rw [hn']
        have hdrops : (fun x => !dev₁.drops drop x) = fun x => !dev.drops drop x :=
          funext fun x => by rw [hpruned.drops hdrop]
        rw [hdrops]
        split_ifs
        · rw [List.filter_filter]
          simp only [Bool.and_self]
        · rfl

/-- What is dropped is unlinked from every list, and freed once. -/
theorem ohciUnlinkLists_ok (hdrop : LinkFree drop) (h : Sched dev att)
    (hsound : PoolSound top base dev.mem)
    (hheads : ∀ n < 63, dev.drops drop (dev.listHead n) = false)
    (hlive : ∀ n < 63, ∀ x ∈ att n, (x, sizeofEd) ∈ dev.mem.live) :
    ∃ dev' att', ohciUnlinkLists drop 32 0 dev = .ok dev' ∧
      Pruned drop top base dev att dev' att' ∧
      ∀ n < 63, att' n = (att n).filter fun x => !dev.drops drop x := by
  obtain ⟨dev', att', hok, hpruned, hcovered⟩ :=
    ohciUnlinkLists_loop hdrop h hsound (show 0 + 32 ≤ 32 by omega) hheads hlive
  refine ⟨dev', att', hok, hpruned, fun n hn => ?_⟩
  obtain ⟨t, ht, hmem⟩ := exists_mem_pathUp hn
  exact hcovered t (Nat.zero_le _) (by omega) n hmem

end Unlink

end Schedule

end Edk2Rk3576.Ohci
