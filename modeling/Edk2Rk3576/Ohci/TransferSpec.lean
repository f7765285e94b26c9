import Edk2Rk3576.Ohci.DeviceSpec
import Edk2Rk3576.Lib.Windows
import Mathlib.Tactic.IntervalCases

/-!
# The transfer descriptors of a transfer

The data stage lays descriptors over a buffer, piece by piece, each linked behind those before it.
-/

namespace Edk2Rk3576.Ohci

open Cells UnitPool

variable {D : DmaLib} {base : DmaState} {top a b x y z fuel pidDir maxLen head toggle addr left : ℕ}
  {dev dev' : OhciDev} {l tds new : List ℕ} {td : TdDescriptor}

section Pieces

/-- A descriptor but for its links. -/
def TdDescriptor.unlinked (td : TdDescriptor) : TdDescriptor :=
  { td with nextTD := 0, nextTDPointer := 0 }

/-- The bytes a descriptor is for. -/
def TdDescriptor.window (td : TdDescriptor) : Window := ⟨td.dataBuffer, td.actualSendLength⟩

/-- The descriptors of a data stage. -/
def dataTds (pidDir maxLen : ℕ) : (fuel toggle addr left : ℕ) → List TdDescriptor
  | 0, _, _, _ => []
  | fuel + 1, toggle, addr, left =>
    if left = 0 then []
    else
      dataTd pidDir toggle addr (min maxLen left) ::
        dataTds pidDir maxLen fuel (toggle ^^^ 1) (addr + min maxLen left) (left - min maxLen left)

/-- They tile the buffer. -/
theorem dataTds_tile (toggle : ℕ) (hmax : 0 < maxLen) (hmax' : maxLen < 2 ^ 32)
    (hfuel : left < fuel) (haddr : addr + left ≤ 2 ^ 32) :
    Window.Tile addr ((dataTds pidDir maxLen fuel toggle addr left).map TdDescriptor.window)
      (addr + left) := by
  induction fuel generalizing toggle addr left with
  | zero => omega
  | succ fuel ih =>
    rw [dataTds]
    split_ifs with hleft
    · rw [hleft]
      rfl
    · have hlow : addr < 2 ^ 32 := by omega
      have hlen : min maxLen left < 2 ^ 32 := by omega
      have hrest := ih (toggle ^^^ 1) (show left - min maxLen left < fuel by omega)
        (show addr + min maxLen left + (left - min maxLen left) ≤ 2 ^ 32 by omega)
      rw [show addr + min maxLen left + (left - min maxLen left) = addr + left by omega] at hrest
      refine ⟨toUint32_of_lt hlow, ?_⟩
      change Window.Tile (addr + toUint32 (min maxLen left)) _ _
      rwa [toUint32_of_lt hlen]

/-- None is longer than a packet, and each is for the bytes from its buffer pointer to its end
pointer. -/
theorem dataTds_packet (hmax : 0 < maxLen) (hmax' : maxLen < 2 ^ 32) (hfuel : left < fuel)
    (haddr : addr + left ≤ 2 ^ 32) : ∀ td ∈ dataTds pidDir maxLen fuel toggle addr left,
      0 < td.actualSendLength ∧ td.actualSendLength ≤ maxLen ∧
        td.currBufferPointer = td.dataBuffer ∧
        td.bufferEndPointer + 1 = td.dataBuffer + td.actualSendLength ∧
        td.dirPID = pidDir % 2 ^ 2 ∧ td.conditionCode = tdTobeProcessed := by
  induction fuel generalizing toggle addr left with
  | zero => omega
  | succ fuel ih =>
    rw [dataTds]
    split_ifs with hleft
    · exact fun td htd => absurd htd List.not_mem_nil
    · refine List.forall_mem_cons.2 ⟨?_, ih (by omega) (by omega)⟩
      have hlow : addr < 2 ^ 32 := by omega
      have hlen : min maxLen left < 2 ^ 32 := by omega
      rw [dataTd_eq]
      refine ⟨?_, ?_, rfl, ?_, rfl, rfl⟩
      · change 0 < toUint32 (min maxLen left)
        rw [toUint32_of_lt hlen]
        omega
      · change toUint32 (min maxLen left) ≤ maxLen
        rw [toUint32_of_lt hlen]
        omega
      · change toUint32 (addr + min maxLen left - 1) + 1 = toUint32 addr + toUint32 (min maxLen left)
        rw [toUint32_of_lt hlen, toUint32_of_lt hlow, toUint32_of_lt (by omega)]
        omega

theorem xor_one_of_lt (htoggle : toggle < 2) : toggle ^^^ 1 = 1 - toggle := by
  interval_cases toggle <;> rfl

/-- The toggles of the descriptors alternate. -/
theorem dataTds_toggle (htoggle : toggle < 2) {i : ℕ}
    (hi : (dataTds pidDir maxLen fuel toggle addr left)[i]? = some td) :
    td.dataToggle = 2 + (toggle + i) % 2 := by
  induction fuel generalizing toggle addr left i with
  | zero => simp [dataTds] at hi
  | succ fuel ih =>
    rw [dataTds] at hi
    split_ifs at hi with hleft
    · simp at hi
    · cases i with
      | zero =>
        rw [List.getElem?_cons_zero] at hi
        rw [← Option.some.inj hi, dataTd_eq]
        change (toggle ||| 2) % 2 ^ 2 = _
        interval_cases toggle <;> rfl
      | succ i =>
        rw [List.getElem?_cons_succ] at hi
        rw [ih (by rw [xor_one_of_lt htoggle]; omega) hi, xor_one_of_lt htoggle]
        omega

end Pieces

section Chains

def OhciDev.nextTD (dev : OhciDev) (p : ℕ) : ℕ := (dev.td p).nextTD

def OhciDev.nextTDPointer (dev : OhciDev) (p : ℕ) : ℕ := (dev.td p).nextTDPointer

/-- A list of transfer descriptors, by the links of the driver and by those of the controller. -/
structure TdChain (dev : OhciDev) (a : ℕ) (tds : List ℕ) : Prop where
  next : Seg dev.nextTD a tds 0
  pointer : Seg dev.nextTDPointer a tds 0
  nodup : tds.Nodup
  nonzero : 0 ∉ tds
  lt : ∀ x ∈ tds, x < 2 ^ 32

theorem TdChain.length_lt (h : TdChain dev a tds) : tds.length < chainFuel :=
  length_lt_of_addrs h.nodup h.lt h.nonzero (by decide)

/-- The walk stops at the last descriptor. -/
theorem ohciLastTD_ok (h : Seg dev.nextTD a (l ++ [z]) 0) (hzero : 0 ∉ l ++ [z])
    (hfuel : l.length < fuel) : ohciLastTD dev fuel a = .ok z := by
  induction l generalizing a fuel with
  | nil =>
    obtain ⟨fuel, rfl⟩ : ∃ k, fuel = k + 1 := ⟨fuel - 1, by omega⟩
    obtain ⟨rfl, hend⟩ := h
    have hlast : (dev.td a).nextTD = 0 := hend
    rw [ohciLastTD, if_neg fun hne => hne hlast]
  | cons x l ih =>
    rw [List.length_cons] at hfuel
    obtain ⟨fuel, rfl⟩ : ∃ k, fuel = k + 1 := ⟨fuel - 1, by omega⟩
    obtain ⟨rfl, hrest⟩ := h
    rw [List.cons_append, List.mem_cons, not_or] at hzero
    have hnext : (dev.td a).nextTD ≠ 0 := by
      intro hend
      have hfirst : Seg dev.nextTD 0 (l ++ [z]) 0 := by
        change Seg dev.nextTD (dev.td a).nextTD (l ++ [z]) 0 at hrest
        rwa [hend] at hrest
      cases l with
      | nil => exact hzero.2 (hfirst.1 ▸ List.mem_cons_self)
      | cons y l => exact hzero.2 (hfirst.1 ▸ List.mem_cons_self)
    rw [ohciLastTD, if_pos hnext]
    exact ih hrest hzero.2 (by omega)

theorem OhciDev.linkTd_td_self :
    (dev.linkTd a b).td a = { dev.td a with nextTD := toUint32 b, nextTDPointer := toUint32 b } :=
  Function.update_self _ _ _

theorem OhciDev.linkTd_td_of_ne (h : x ≠ a) : (dev.linkTd a b).td x = dev.td x :=
  Function.update_of_ne h _ _

theorem OhciDev.unlinked_linkTd : ((dev.linkTd a b).td x).unlinked = (dev.td x).unlinked := by
  by_cases hx : x = a
  · rw [hx, OhciDev.linkTd_td_self]
    rfl
  · rw [OhciDev.linkTd_td_of_ne hx]

/-- What linking a descriptor does. -/
structure Linked (dev : OhciDev) (a : ℕ) (tds : List ℕ) (b : ℕ) (dev' : OhciDev) : Prop where
  rest : dev' = { dev with td := dev'.td }
  chain : TdChain dev' a (tds ++ [b])
  same : ∀ x, (dev'.td x).unlinked = (dev.td x).unlinked
  others : ∀ x ∉ tds, dev'.td x = dev.td x

/-- A descriptor without links is linked behind a list. -/
theorem ohciLinkTD_ok (h : TdChain dev a tds) (ha : a ≠ 0) (hb : b ≠ 0) (hlt : b < 2 ^ 32)
    (hnew : b ∉ tds) (hnext : dev.nextTD b = 0) (hpointer : dev.nextTDPointer b = 0) :
    ∃ dev', ohciLinkTD a b dev = .ok dev' ∧ Linked dev a tds b dev' := by
  rcases List.eq_nil_or_concat tds with rfl | ⟨l, z, rfl⟩
  · exact absurd h.next ha
  · rw [List.concat_eq_append] at h hnew ⊢
    have hab : a ≠ b := by
      rintro rfl
      have hstart := h.next
      cases l with
      | nil => exact hnew (hstart.1 ▸ List.mem_cons_self)
      | cons y l => exact hnew (hstart.1 ▸ List.mem_cons_self)
    have hbz : b ≠ z := fun h => hnew (h ▸ List.mem_append_right _ List.mem_cons_self)
    have hlz : ∀ x ∈ l, x ≠ z := fun x hx hxz =>
      (List.nodup_append.1 h.nodup).2.2 x hx z List.mem_cons_self hxz
    have hlen : l.length < chainFuel := by
      have hall := h.length_lt
      rw [List.length_append, List.length_singleton] at hall
      omega
    refine ⟨dev.linkTd z b, ?_, rfl, ⟨?_, ?_, ?_, ?_, ?_⟩, fun x => OhciDev.unlinked_linkTd,
      fun x hx => OhciDev.linkTd_td_of_ne fun hxz =>
        hx (hxz ▸ List.mem_append_right _ List.mem_cons_self)⟩
    · rw [ohciLinkTD, if_neg ha, if_neg hab, ohciLastTD_ok h.next h.nonzero hlen]
      rfl
    · refine h.next.snoc ?_ ?_ fun x hx => ?_
      · rw [OhciDev.nextTD, OhciDev.linkTd_td_self]
        exact toUint32_of_lt hlt
      · rw [OhciDev.nextTD, OhciDev.linkTd_td_of_ne hbz]
        exact hnext
      · rw [OhciDev.nextTD, OhciDev.linkTd_td_of_ne (hlz x hx), OhciDev.nextTD]
    · refine h.pointer.snoc ?_ ?_ fun x hx => ?_
      · rw [OhciDev.nextTDPointer, OhciDev.linkTd_td_self]
        exact toUint32_of_lt hlt
      · rw [OhciDev.nextTDPointer, OhciDev.linkTd_td_of_ne hbz]
        exact hpointer
      · rw [OhciDev.nextTDPointer, OhciDev.linkTd_td_of_ne (hlz x hx), OhciDev.nextTDPointer]
    · refine List.nodup_append.2 ⟨h.nodup, List.nodup_singleton _, fun x hx y hy hxy => ?_⟩
      rw [List.mem_singleton] at hy
      exact hnew (hy ▸ hxy ▸ hx)
    · rw [List.mem_append, List.mem_singleton, not_or]
      exact ⟨h.nonzero, Ne.symm hb⟩
    · intro x hx
      rcases List.mem_append.1 hx with hx | hx
      · exact h.lt x hx
      · exact List.mem_singleton.1 hx ▸ hlt

end Chains

section Stages

/-- What a stage does: its descriptors are allocated, and linked behind those before. -/
structure Staged (top : ℕ) (base : DmaState) (dev : OhciDev) (tds new : List ℕ) (head : ℕ)
    (dev' : OhciDev) : Prop where
  rest : dev' = { dev with mem := dev'.mem, td := dev'.td }
  sound : PoolSound top base dev'.mem
  live : ∀ c, c ∈ dev'.mem.live ↔ c ∈ dev.mem.live ∨ ∃ x ∈ new, c = (x, sizeofTd)
  fresh : ∀ x ∈ new, x ∉ dev.mem.live.map Prod.fst
  chain : TdChain dev' head (tds ++ new)
  same : ∀ x ∈ tds, (dev'.td x).unlinked = (dev.td x).unlinked
  others : ∀ x, x ∉ tds → x ∉ new → dev'.td x = dev.td x

theorem TdChain.zero_iff (h : TdChain dev a tds) : a = 0 ↔ tds = [] := by
  constructor
  · rintro rfl
    cases tds with
    | nil => rfl
    | cons x tds => exact absurd (h.next.1 ▸ List.mem_cons_self) h.nonzero
  · rintro rfl
    exact h.next

theorem TdChain.congr (h : TdChain dev a tds) (htd : ∀ x ∈ tds, dev'.td x = dev.td x) :
    TdChain dev' a tds :=
  ⟨h.next.congr fun x hx => congrArg TdDescriptor.nextTD (htd x hx),
    h.pointer.congr fun x hx => congrArg TdDescriptor.nextTDPointer (htd x hx), h.nodup,
    h.nonzero, h.lt⟩

/-- A stage of no descriptors. -/
theorem Staged.none {mem : PoolTrace} (hsound : PoolSound top base mem)
    (hlive : mem.live = dev.mem.live) (h : TdChain dev a tds) :
    Staged top base dev tds [] a { dev with mem := mem } where
  rest := rfl
  sound := hsound
  live := fun c => by simp [hlive]
  fresh := fun x hx => absurd hx List.not_mem_nil
  chain := by
    rw [List.append_nil]
    exact h.congr fun _ _ => rfl
  same := fun _ _ => rfl
  others := fun _ _ _ => rfl

/-- One stage after the other. -/
theorem Staged.trans {dev'' : OhciDev} {new' : List ℕ} {head' : ℕ}
    (h : Staged top base dev tds new head dev')
    (h' : Staged top base dev' (tds ++ new) new' head' dev'') :
    Staged top base dev tds (new ++ new') head' dev'' where
  rest := by
    rw [h'.rest, h.rest]
  sound := h'.sound
  live := fun c => by
    rw [h'.live, h.live, or_assoc]
    refine or_congr_right ?_
    simp only [List.mem_append, or_and_right, exists_or]
  fresh := fun x hx hlive => by
    rcases List.mem_append.1 hx with hx | hx
    · exact h.fresh x hx hlive
    · refine h'.fresh x hx ?_
      obtain ⟨c, hc, rfl⟩ := List.mem_map.1 hlive
      exact List.mem_map_of_mem ((h.live c).2 (.inl hc))
  chain := by
    rw [← List.append_assoc]
    exact h'.chain
  same := fun x hx => (h'.same x (List.mem_append_left _ hx)).trans (h.same x hx)
  others := fun x htds hnew => by
    rw [List.mem_append, not_or] at hnew
    rw [h'.others x (by rw [List.mem_append, not_or]; exact ⟨htds, hnew.1⟩) hnew.2,
      h.others x htds hnew.1]

/-- The descriptor that is linked, or the first one. -/
def ohciLinkOrHead (head a : ℕ) (dev : OhciDev) : Except OhciHalt (ℕ × OhciDev) :=
  if head = 0 then .ok (a, dev) else ohciLinkTD head a dev >>= fun dev => .ok (head, dev)

theorem ohciDataStage_succ : ohciDataStage D pidDir maxLen (fuel + 1) head toggle addr left dev =
    if left = 0 then .ok (true, head, toggle, dev)
    else ohciCreateTD D dev >>= fun r =>
      if r.1 = 0 then .ok (false, head, toggle, r.2)
      else
        ohciLinkOrHead head r.1 (r.2.setTd r.1 (dataTd pidDir toggle addr (min maxLen left))) >>=
          fun s => ohciDataStage D pidDir maxLen fuel s.1 (toggle ^^^ 1) (addr + min maxLen left)
            (left - min maxLen left) s.2 := by
  have hactual : (if maxLen < left then maxLen else left) = min maxLen left := by
    split_ifs <;> omega
  rw [ohciDataStage]
  simp only [hactual]
  refine if_congr Iff.rfl rfl (congrArg _ (funext fun r => if_congr Iff.rfl rfl ?_))
  rw [ohciLinkOrHead]
  split_ifs with hhead
  · rfl
  · cases ohciLinkTD head r.1 _ <;> rfl

/-- A descriptor is created, filled, and linked. -/
theorem ohciLinkOrHead_ok {mem : PoolTrace} (td : TdDescriptor) (hsound : PoolSound top base mem)
    (hnew : NewAddr top dev.mem a) (htop : top ≤ 2 ^ 32)
    (hlive : mem.live = (a, sizeofTd) :: dev.mem.live) (hchain : TdChain dev head tds)
    (htds : ∀ x ∈ tds, x ∈ dev.mem.live.map Prod.fst) (hnext : td.nextTD = 0)
    (hpointer : td.nextTDPointer = 0) :
    ∃ head' dev', ohciLinkOrHead head a ((({ dev with mem := mem }).setTd a .zeroed).setTd a td) =
        .ok (head', dev') ∧ Staged top base dev tds [a] head' dev' ∧
      (dev'.td a).unlinked = td.unlinked := by
  have hlt : a < 2 ^ 32 := hnew.lt.trans_le htop
  have hatds : a ∉ tds := fun h => hnew.notMem (htds a h)
  have hself : ((({ dev with mem := mem }).setTd a .zeroed).setTd a td).td a = td :=
    Function.update_self _ _ _
  have hothers : ∀ x, x ≠ a →
      ((({ dev with mem := mem }).setTd a .zeroed).setTd a td).td x = dev.td x := fun x hx => by
    change Function.update (Function.update dev.td a .zeroed) a td x = _
    rw [Function.update_of_ne hx, Function.update_of_ne hx]
  have hlives : ∀ c, c ∈ mem.live ↔ c ∈ dev.mem.live ∨ ∃ x ∈ [a], c = (x, sizeofTd) := fun c => by
    rw [hlive, List.mem_cons, or_comm]
    simp only [List.mem_singleton, exists_eq_left]
  have hfresh : ∀ x ∈ [a], x ∉ dev.mem.live.map Prod.fst := fun x hx =>
    List.mem_singleton.1 hx ▸ hnew.notMem
  have hold := hchain.congr fun x hx => hothers x fun h => hatds (h ▸ hx)
  by_cases hhead : head = 0
  · obtain rfl := hchain.zero_iff.1 hhead
    refine ⟨a, _, if_pos hhead, ⟨rfl, hsound, hlives, hfresh, ⟨?_, ?_, List.nodup_singleton _, ?_,
      fun x hx => List.mem_singleton.1 hx ▸ hlt⟩, fun _ _ => absurd ‹_› List.not_mem_nil,
      fun x _ hx => hothers x fun h => hx (h ▸ List.mem_cons_self)⟩, congrArg _ hself⟩
    · refine ⟨rfl, ?_⟩
      rw [OhciDev.nextTD, hself]
      exact hnext
    · refine ⟨rfl, ?_⟩
      rw [OhciDev.nextTDPointer, hself]
      exact hpointer
    · rw [List.nil_append, List.mem_singleton]
      exact Ne.symm hnew.ne_zero
  · obtain ⟨dev', hok, hlinked⟩ := ohciLinkTD_ok hold hhead hnew.ne_zero hlt hatds
      (by rw [OhciDev.nextTD, hself]; exact hnext)
      (by rw [OhciDev.nextTDPointer, hself]; exact hpointer)
    have hmem : dev'.mem = mem := congrArg OhciDev.mem hlinked.rest
    refine ⟨head, dev', ?_, ⟨?_, hmem ▸ hsound, fun c => hmem ▸ hlives c, hfresh, hlinked.chain,
      fun x hx => ?_, fun x hx hxa => ?_⟩, ?_⟩
    · rw [ohciLinkOrHead, if_neg hhead, hok]
      rfl
    · have hrest := hlinked.rest
      rw [hrest]
      rfl
    · rw [hlinked.same, hothers x fun h => hatds (h ▸ hx)]
    · rw [hlinked.others x hx, hothers x fun h => hxa (h ▸ List.mem_cons_self)]
    · rw [hlinked.same, hself]

theorem Staged.mem_live (h : Staged top base dev tds new head dev')
    (htds : ∀ x ∈ tds, x ∈ dev.mem.live.map Prod.fst) :
    ∀ x ∈ tds ++ new, x ∈ dev'.mem.live.map Prod.fst := by
  intro x hx
  rcases List.mem_append.1 hx with hx | hx
  · obtain ⟨c, hc, rfl⟩ := List.mem_map.1 (htds x hx)
    exact List.mem_map_of_mem ((h.live c).2 (.inl hc))
  · exact List.mem_map.2 ⟨(x, sizeofTd), (h.live _).2 (.inr ⟨x, hx, rfl⟩), rfl⟩

/-- The data stage ends, and if memory lasts its descriptors are those of the buffer. -/
theorem ohciDataStage_ok (pidDir addr : ℕ) (hD : D.Lawful top) (htop : top ≤ 2 ^ 32) (hmax : 0 < maxLen)
    (hsound : PoolSound top base dev.mem) (hchain : TdChain dev head tds)
    (htds : ∀ x ∈ tds, x ∈ dev.mem.live.map Prod.fst) (htoggle : toggle < 2)
    (hfuel : left < fuel) :
    ∃ ok head' toggle' dev' new,
      ohciDataStage D pidDir maxLen fuel head toggle addr left dev =
        .ok (ok, head', toggle', dev') ∧ Staged top base dev tds new head' dev' ∧ toggle' < 2 ∧
      (ok = true → new.map (fun x => (dev'.td x).unlinked) =
        dataTds pidDir maxLen fuel toggle addr left ∧ toggle' = (toggle + new.length) % 2) := by
  induction fuel generalizing dev head tds toggle addr left with
  | zero => omega
  | succ fuel ih =>
    rw [ohciDataStage_succ, dataTds]
    by_cases hleft : left = 0
    · rw [if_pos hleft, if_pos hleft]
      refine ⟨true, head, toggle, dev, [], rfl, Staged.none hsound rfl hchain,
        htoggle, fun _ => ⟨rfl, ?_⟩⟩
      rw [List.length_nil]
      omega
    · rw [if_neg hleft, if_neg hleft]
      obtain ⟨a, mem, hmem, hcreate⟩ := ohciCreateTD_ok hD hsound
      rcases hcreate with ⟨rfl, hlive, hok⟩ | ⟨hnew, hlive, hok⟩
      · refine ⟨false, head, toggle, _, [], ?_, Staged.none hmem hlive hchain, htoggle,
          fun h => absurd h Bool.false_ne_true⟩
        rw [hok]
        rfl
      · obtain ⟨head₁, dev₁, hlink, hstaged, hfirst⟩ := ohciLinkOrHead_ok
          (dataTd pidDir toggle addr (min maxLen left)) hmem hnew htop hlive hchain htds rfl rfl
        obtain ⟨ok, head', toggle', dev', new, hrest, hstaged', htoggle', hpieces⟩ :=
          ih (addr + min maxLen left) hstaged.sound hstaged.chain (hstaged.mem_live htds)
            (show toggle ^^^ 1 < 2 by rw [xor_one_of_lt htoggle]; omega)
            (show left - min maxLen left < fuel by omega)
        refine ⟨ok, head', toggle', dev', [a] ++ new, ?_, hstaged.trans hstaged', htoggle',
          fun hall => ?_⟩
        · rw [hok]
          change (if a = 0 then _ else ohciLinkOrHead _ _ _ >>= _) = _
          rw [if_neg hnew.ne_zero, hlink]
          exact hrest
        · obtain ⟨hmap, hflips⟩ := hpieces hall
          refine ⟨?_, ?_⟩
          · rw [List.map_append, hmap, List.map_singleton,
              hstaged'.same a (List.mem_append_right _ List.mem_cons_self), hfirst]
            rfl
          · rw [hflips, xor_one_of_lt htoggle, List.length_append, List.length_singleton]
            omega

/-- One more descriptor at the end of a list, or none for want of memory. -/
theorem ohciAppendTD_ok (td : TdDescriptor) (hD : D.Lawful top) (htop : top ≤ 2 ^ 32)
    (hsound : PoolSound top base dev.mem) (hchain : TdChain dev head tds) (hhead : head ≠ 0)
    (htds : ∀ x ∈ tds, x ∈ dev.mem.live.map Prod.fst) (hnext : td.nextTD = 0)
    (hpointer : td.nextTDPointer = 0) :
    ∃ a dev' new, ohciAppendTD D head td dev = .ok (a, dev') ∧
      Staged top base dev tds new head dev' ∧
      ((a = 0 ∧ new = []) ∨ (a ≠ 0 ∧ new = [a] ∧ (dev'.td a).unlinked = td.unlinked)) := by
  obtain ⟨a, mem, hmem, hcreate⟩ := ohciCreateTD_ok hD hsound
  rcases hcreate with ⟨rfl, hlive, hok⟩ | ⟨hnew, hlive, hok⟩
  · refine ⟨0, _, [], ?_, Staged.none hmem hlive hchain, .inl ⟨rfl, rfl⟩⟩
    rw [ohciAppendTD, hok]
    rfl
  · obtain ⟨head', dev', hlink, hstaged, hfirst⟩ :=
      ohciLinkOrHead_ok td hmem hnew htop hlive hchain htds hnext hpointer
    rw [ohciLinkOrHead, if_neg hhead] at hlink
    rcases hstep : ohciLinkTD head a ((({ dev with mem := mem }).setTd a .zeroed).setTd a td) with
      e | dev₁ <;> rw [hstep] at hlink
    · cases hlink
    · obtain ⟨rfl, rfl⟩ := Prod.mk.inj (Except.ok.inj hlink)
      refine ⟨a, dev₁, [a], ?_, hstaged, .inr ⟨hnew.ne_zero, rfl, hfirst⟩⟩
      rw [ohciAppendTD, hok]
      change (if a = 0 then _ else ohciLinkTD _ _ _ >>= _) = _
      rw [if_neg hnew.ne_zero, hstep]
      rfl

/-- The descriptors of a list are freed, each once. -/
theorem ohciFreeTds_ok (hsound : PoolSound top base dev.mem)
    (hseg : Seg dev.nextTDPointer a tds 0) (hnodup : tds.Nodup) (hzero : 0 ∉ tds)
    (hlive : ∀ x ∈ tds, (x, sizeofTd) ∈ dev.mem.live) (hfuel : tds.length < fuel) :
    ∃ mem, ohciFreeTds fuel a dev = .ok { dev with mem := mem } ∧ PoolSound top base mem ∧
      ∀ c, c ∈ mem.live ↔ c ∈ dev.mem.live ∧ ∀ x ∈ tds, c ≠ (x, sizeofTd) := by
  induction tds generalizing a dev fuel with
  | nil =>
    obtain ⟨fuel, rfl⟩ : ∃ k, fuel = k + 1 := ⟨fuel - 1, by omega⟩
    obtain rfl : a = 0 := hseg
    exact ⟨dev.mem, rfl, hsound,
      fun c => (and_iff_left fun x hx => absurd hx List.not_mem_nil).symm⟩
  | cons x tds ih =>
    rw [List.length_cons] at hfuel
    obtain ⟨fuel, rfl⟩ : ∃ k, fuel = k + 1 := ⟨fuel - 1, by omega⟩
    obtain ⟨rfl, hrest⟩ := hseg
    rw [List.nodup_cons] at hnodup
    rw [List.mem_cons, not_or] at hzero
    rw [List.forall_mem_cons] at hlive
    obtain ⟨mem₁, hfree, hsound₁, hlive₁⟩ := usbHcFree_ok hsound hlive.1
    obtain ⟨mem, hok, hmem, hmemLive⟩ := ih
      (show PoolSound top base ({ dev with mem := mem₁ } : OhciDev).mem from hsound₁) hrest hnodup.2
      hzero.2
      (fun y hy => (hlive₁ _).2 ⟨hlive.2 y hy, fun h =>
        hnodup.1 ((Prod.mk.inj h).1 ▸ hy)⟩) (show tds.length < fuel by omega)
    refine ⟨mem, ?_, hmem, fun c => ?_⟩
    · rw [ohciFreeTds, if_neg (Ne.symm hzero.1), hfree]
      exact hok
    · rw [hmemLive, hlive₁, List.forall_mem_cons, and_assoc]

end Stages

end Edk2Rk3576.Ohci
