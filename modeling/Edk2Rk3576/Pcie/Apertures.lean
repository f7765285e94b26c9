import Edk2Rk3576.Pcie.Windows

/-!
# The published apertures

Each root bridge that is published has its two windows set up, and no setup of another segment
undoes it. The memory aperture of the first segment is its window of memory accesses; the aperture of
I/O addresses has no window, and the others no address. No two windows of published bridges have an
address in common.
-/

namespace Edk2Rk3576

open Cells

/-- The windows of a segment, as its host leaves them. -/
structure HostWindows (segment : ℕ) (mmio : Cells UInt32) : Prop where
  cfg0 : (atuRegion (pcieDbiBase segment) 0 mmio).Passes iatuTypeCfg0 (pcieCfg0Window segment)
  mem : (atuRegion (pcieDbiBase segment) 1 mmio).Passes iatuTypeMem (pcieMem32Window segment)

/-- The bridges of the segments below `n` that were published, each with its windows. -/
def Published (n : ℕ) (r : List PciRootBridge × Cells UInt32) : Prop :=
  ∀ bridge ∈ r.1, bridge.segment < n ∧ bridge = pciRootBridge bridge.segment
    ∧ HostWindows bridge.segment r.2

section Published

variable {enabled : ℕ → Bool} {status : ℕ → EfiStatus} {mmio : Cells UInt32} {n : ℕ}
  {r : List PciRootBridge × Cells UInt32} {segment segment' : ℕ}

theorem hostWindows_initialize (h : segment < numPcieController) :
    HostWindows segment (initializePciHost segment mmio) :=
  ⟨initializePciHost_cfg0 h, initializePciHost_mem h⟩

theorem HostWindows.frame (h : HostWindows segment mmio) (hne : segment' ≠ segment) :
    HostWindows segment (initializePciHost segment' mmio) where
  cfg0 := by
    rw [initializePciHost_frame hne (by omega)]
    exact h.cfg0
  mem := by
    rw [initializePciHost_frame hne (by omega)]
    exact h.mem

theorem published_addRootBridge (hn : n < numPcieController) (h : Published n r) :
    Published (n + 1) (addRootBridge enabled status n r) := by
  have hkept : Published (n + 1) (r.1, initializePciHost n r.2) := by
    intro bridge hb
    obtain ⟨hlt, heq, hwindows⟩ := h bridge hb
    exact ⟨by omega, heq, hwindows.frame (by omega)⟩
  unfold addRootBridge
  split_ifs with henabled hstatus
  · exact hkept
  · intro bridge hb
    rw [List.mem_append, List.mem_singleton] at hb
    rcases hb with hb | rfl
    · exact hkept bridge hb
    · exact ⟨Nat.lt_succ_self n, rfl, hostWindows_initialize hn⟩
  · intro bridge hb
    obtain ⟨hlt, heq, hwindows⟩ := h bridge hb
    exact ⟨by omega, heq, hwindows⟩

theorem published_getRootBridges :
    Published numPcieController (pciHostBridgeGetRootBridges enabled status mmio) := by
  refine countUp_invariant Published ?_ fun n hn r h => published_addRootBridge hn h
  intro bridge hb
  simp at hb

end Published

section Covered

variable {mmio : Cells UInt32} {segment segment' index index' c : ℕ}

/-- The range of each of the two windows. -/
def hostWindow (segment index : ℕ) : Window :=
  if index = 0 then pcieCfg0Window segment else pcieMem32Window segment

theorem HostWindows.covers_iff (h : HostWindows segment mmio) (hindex : index < 2) :
    (atuRegion (pcieDbiBase segment) index mmio).Covers c ↔ c ∈ (hostWindow segment index).range := by
  unfold hostWindow
  rcases (by omega : index = 0 ∨ index = 1) with rfl | rfl
  · exact h.cfg0.covers_iff c
  · exact h.mem.covers_iff c

/-- The windows of the segments are apart. -/
theorem hostWindow_apart (h : c ∈ (hostWindow segment index).range)
    (h' : c ∈ (hostWindow segment' index').range) (hindex : index < 2) (hindex' : index' < 2) :
    segment = segment' ∧ index = index' := by
  unfold hostWindow at h h'
  split_ifs at h h' <;> rw [Window.mem_range] at h h' <;>
    simp only [pcieCfg0Window, pcieCfgBase, pcieMem32Window, pcieMem32Base, pcieMem32Size, size1Mb,
      size64Kb] at h h' <;> omega

theorem io_not_covered (hc : (pciRootBridge segment).io.Contains c) :
    c ∉ (hostWindow segment index).range := by
  intro h
  simp only [pciRootBridge, PciRootBridgeAperture.Contains, PciRootBridgeAperture.busAddress,
    pcieIoBusBase, pcieIoSize, pcieIoTranslation, size1Mb] at hc
  unfold hostWindow at h
  split_ifs at h <;> rw [Window.mem_range] at h <;>
    simp only [pcieCfg0Window, pcieCfgBase, pcieMem32Window, pcieMem32Base, size1Mb] at h <;> omega

/-- The memory aperture of the first segment is its second window. -/
theorem mem_contains_iff :
    (pciRootBridge 0).mem.Contains c ↔ c ∈ (pcieMem32Window 0).range := by
  rw [Window.mem_range]
  simp only [pciRootBridge, PciRootBridgeAperture.Contains, PciRootBridgeAperture.busAddress,
    pcieMem32Window, pcieMem32BusBase, pcieMem32Base, pcieMem32Size]
  omega

theorem noAperture_contains : ¬ noAperture.Contains c := by
  simp only [noAperture, PciRootBridgeAperture.Contains, PciRootBridgeAperture.busAddress]
  omega

/-- What the windows of a published bridge do for its apertures. -/
structure AperturesServed (bridge : PciRootBridge) (mmio : Cells UInt32) : Prop where
  mem : bridge.segment = 0 → ∀ c, bridge.mem.Contains c → ∃ index < 2,
    (atuRegion (pcieDbiBase bridge.segment) index mmio).type = iatuTypeMem
      ∧ (atuRegion (pcieDbiBase bridge.segment) index mmio).Covers c
      ∧ (atuRegion (pcieDbiBase bridge.segment) index mmio).translate c = bridge.mem.busAddress c
  io : ∀ c, bridge.io.Contains c → ∀ index < 2,
    ¬ (atuRegion (pcieDbiBase bridge.segment) index mmio).Covers c
  others : ∀ aperture ∈ [bridge.memAbove4G, bridge.pMem, bridge.pMemAbove4G],
    ∀ c, ¬ aperture.Contains c

theorem aperturesServed (h : HostWindows segment mmio) :
    AperturesServed (pciRootBridge segment) mmio where
  mem hseg c hc := by
    obtain rfl : segment = 0 := hseg
    have hin := mem_contains_iff.1 hc
    refine ⟨1, by omega, h.mem.type_eq, (h.mem.covers_iff c).2 hin, ?_⟩
    calc (atuRegion (pcieDbiBase 0) 1 mmio).translate c = c := h.mem.translate_eq c hin
      _ = c % 2 ^ 64 := (Nat.mod_eq_of_lt hc.1).symm
  io c hc index hindex hcovers := io_not_covered hc ((h.covers_iff hindex).1 hcovers)
  others aperture ha c := by
    simp only [pciRootBridge, List.mem_cons, List.not_mem_nil, or_false, or_self] at ha
    rw [ha]
    exact noAperture_contains

/-- On the first segment each address of the memory aperture is sent out as the bus address the
aperture has for it; no window takes an address of an I/O aperture; the other apertures are empty;
and no two windows take the same address. -/
theorem getRootBridges_apertures (enabled : ℕ → Bool) (status : ℕ → EfiStatus)
    (mmio : Cells UInt32) :
    let r := pciHostBridgeGetRootBridges enabled status mmio
    (∀ bridge ∈ r.1, AperturesServed bridge r.2)
      ∧ ∀ bridge ∈ r.1, ∀ bridge' ∈ r.1, ∀ index < 2, ∀ index' < 2, ∀ c,
          (atuRegion (pcieDbiBase bridge.segment) index r.2).Covers c →
          (atuRegion (pcieDbiBase bridge'.segment) index' r.2).Covers c →
          bridge.segment = bridge'.segment ∧ index = index' := by
  intro r
  have hpublished : Published numPcieController r := published_getRootBridges
  refine ⟨fun bridge hb => ?_, fun bridge hb bridge' hb' index hi index' hi' c hc hc' => ?_⟩
  · obtain ⟨-, heq, hwindows⟩ := hpublished bridge hb
    rw [heq]
    exact aperturesServed hwindows
  · obtain ⟨-, -, hwindows⟩ := hpublished bridge hb
    obtain ⟨-, -, hwindows'⟩ := hpublished bridge' hb'
    exact hostWindow_apart ((hwindows.covers_iff hi).1 hc) ((hwindows'.covers_iff hi').1 hc') hi hi'

/-- The first I/O address of the first segment. -/
theorem io_address_without_window :
    let r := pciHostBridgeGetRootBridges (fun _ => true) (fun _ => efiSuccess) fun _ => 0
    ∃ bridge ∈ r.1, bridge.io.Contains 0
      ∧ ∀ index < 2, ¬ (atuRegion (pcieDbiBase bridge.segment) index r.2).Covers 0 := by
  intro r
  have hmem : pciRootBridge 0 ∈ r.1 := List.mem_cons_self
  have hcontains : (pciRootBridge 0).io.Contains 0 := ⟨by decide, by decide, by decide⟩
  obtain ⟨-, -, hwindows⟩ := published_getRootBridges (pciRootBridge 0) hmem
  exact ⟨pciRootBridge 0, hmem, hcontains, (aperturesServed hwindows).io 0 hcontains⟩

end Covered

end Edk2Rk3576
