import Edk2Rk3576.Pcie.Model

/-!
# The windows of a segment

What `InitializePciHost` leaves in the two windows of its segment, whatever was in them: a window of
configuration accesses for one bus, and one of memory accesses, both of which send an address out as
it is.
-/

namespace Edk2Rk3576

open Cells

/-- A window that sends the addresses of a range out as they are. -/
structure AtuRegion.Passes (r : AtuRegion) (type : UInt32) (w : Window) : Prop where
  type_eq : r.type = type
  covers_iff : ∀ c, r.Covers c ↔ c ∈ w.range
  translate_eq : ∀ c ∈ w.range, r.translate c = c

def pcieCfg0Window (segment : ℕ) : Window := ⟨pcieCfgBase segment + size1Mb, size64Kb⟩
def pcieMem32Window (segment : ℕ) : Window := ⟨pcieMem32Base segment, pcieMem32Size⟩

section Programming

variable {mmio : Cells UInt32} {dbiBase dbiBase' index index' length a : ℕ} {type : UInt32}
  {w : Window} {segment segment' : ℕ}

/-- Where the registers of a window are. -/
def atuRegisters (dbiBase index : ℕ) : Set ℕ :=
  Set.Ico (dbiBase + iatuRegionCtrlOutbound index) (dbiBase + iatuRegionCtrlOutbound index + 0x1C)

theorem pciSetupAtu_frame {cpuBase busBase : ℕ} :
    SameOutside mmio (pciSetupAtu dbiBase index type cpuBase busBase length mmio)
      (atuRegisters dbiBase index) := by
  intro a ha
  have hne : ∀ k < 0x1C, a ≠ dbiBase + iatuRegionCtrlOutbound index + k := by
    rintro k hk rfl
    exact ha ⟨by omega, by omega⟩
  have hfirst : a ≠ dbiBase + iatuRegionCtrlOutbound index := hne 0 (by omega)
  simp [pciSetupAtu, mmioWrite32, Function.update_of_ne, hne, hfirst, iatuLwrBaseAddrOff,
    iatuUpperBaseAddrOff, iatuLimitAddrOff, iatuLwrTargetAddrOff, iatuUpperTargetAddrOff,
    iatuRegionCtrl1Off, iatuRegionCtrl2Off]

theorem atuRegion_congr {mmio' : Cells UInt32}
    (h : ∀ a ∈ atuRegisters dbiBase index, mmio' a = mmio a) :
    atuRegion dbiBase index mmio' = atuRegion dbiBase index mmio := by
  have hreg : ∀ k < 0x1C, mmio' (dbiBase + iatuRegionCtrlOutbound index + k)
      = mmio (dbiBase + iatuRegionCtrlOutbound index + k) :=
    fun k hk => h _ ⟨by omega, by omega⟩
  have hfirst := hreg 0 (by omega)
  simp [atuRegion, hreg, iatuLwrBaseAddrOff, iatuUpperBaseAddrOff, iatuLimitAddrOff,
    iatuLwrTargetAddrOff, iatuUpperTargetAddrOff, iatuRegionCtrl1Off, iatuRegionCtrl2Off] at hfirst ⊢
  exact hfirst

/-- A window below 4 GB, set up for its own addresses. -/
theorem atuRegion_pciSetupAtu (hsize : 0 < w.size) (hfit : w.base + w.size ≤ 2 ^ 32) :
    (atuRegion dbiBase index
      (pciSetupAtu dbiBase index type w.base w.base w.size mmio)).Passes type w := by
  have hregs : atuRegion dbiBase index
      (pciSetupAtu dbiBase index type w.base w.base w.size mmio) =
        { type := type
          ctrl2 := if type = iatuTypeCfg0 ∨ type = iatuTypeCfg1 then iatuEnable ||| iatuCfgShiftMode
            else iatuEnable
          lwrBase := UInt32.ofNat w.base
          upperBase := UInt32.ofNat (w.base / 2 ^ 32)
          limit := UInt32.ofNat (w.base + w.size - 1)
          lwrTarget := UInt32.ofNat w.base
          upperTarget := UInt32.ofNat (w.base / 2 ^ 32) } := by
    simp [atuRegion, pciSetupAtu, mmioWrite32, iatuLwrBaseAddrOff,
      iatuUpperBaseAddrOff, iatuLimitAddrOff, iatuLwrTargetAddrOff, iatuUpperTargetAddrOff,
      iatuRegionCtrl1Off, iatuRegionCtrl2Off]
  rw [hregs]
  have hupper : (UInt32.ofNat (w.base / 2 ^ 32)).toNat = 0 := by
    rw [Nat.div_eq_of_lt (by omega)]
    rfl
  have hlower : (UInt32.ofNat w.base).toNat = w.base :=
    UInt32.toNat_ofNat_of_lt' (by simp only [UInt32.size]; omega)
  have hlimit : (UInt32.ofNat (w.base + w.size - 1)).toNat = w.base + w.size - 1 :=
    UInt32.toNat_ofNat_of_lt' (by simp only [UInt32.size]; omega)
  have henabled : (if type = iatuTypeCfg0 ∨ type = iatuTypeCfg1 then iatuEnable ||| iatuCfgShiftMode
      else iatuEnable) &&& iatuEnable ≠ 0 := by
    split_ifs <;> decide
  refine ⟨rfl, fun c => ?_, fun c hc => ?_⟩
  · refine (and_iff_right henabled).trans ?_
    simp only [AtuRegion.base, AtuRegion.last, hupper, hlower, hlimit, Nat.zero_mul, Nat.zero_add,
      Window.mem_range]
    omega
  · rw [Window.mem_range] at hc
    simp only [AtuRegion.translate, AtuRegion.target, AtuRegion.base, hupper, hlower, Nat.zero_mul,
      Nat.zero_add]
    omega

theorem atuRegisters_apart (h : index ≠ index') {a : ℕ} (ha : a ∈ atuRegisters dbiBase index) :
    a ∉ atuRegisters dbiBase index' := by
  intro ha'
  simp only [atuRegisters, iatuRegionCtrlOutbound, Set.mem_Ico] at ha ha'
  omega

theorem initializePciHost_cfg0 (h : segment < numPcieController) :
    (atuRegion (pcieDbiBase segment) 0 (initializePciHost segment mmio)).Passes iatuTypeCfg0
      (pcieCfg0Window segment) := by
  unfold initializePciHost
  rw [atuRegion_congr fun a ha => pciSetupAtu_frame a
    (atuRegisters_apart Nat.zero_ne_one ha)]
  refine @atuRegion_pciSetupAtu _ _ _ _ (pcieCfg0Window segment) (Nat.zero_lt_succ _) ?_
  simp only [numPcieController] at h
  simp only [pcieCfg0Window, pcieCfgBase, size1Mb, size64Kb]
  omega

theorem initializePciHost_mem (h : segment < numPcieController) :
    (atuRegion (pcieDbiBase segment) 1 (initializePciHost segment mmio)).Passes iatuTypeMem
      (pcieMem32Window segment) := by
  unfold initializePciHost
  refine @atuRegion_pciSetupAtu _ _ _ _ (pcieMem32Window segment) (Nat.zero_lt_succ _) ?_
  simp only [numPcieController] at h
  simp only [pcieMem32Window, pcieMem32Base, pcieMem32Size]
  omega

/-- The windows of the other segment stay. -/
theorem initializePciHost_frame (h : segment ≠ segment') (hindex : index < 2) :
    atuRegion (pcieDbiBase segment') index (initializePciHost segment mmio) =
      atuRegion (pcieDbiBase segment') index mmio := by
  refine atuRegion_congr fun a ha => ?_
  have hout : ∀ j < 2, a ∉ atuRegisters (pcieDbiBase segment) j := by
    intro j hj hno
    simp only [atuRegisters, iatuRegionCtrlOutbound, pcieDbiBase, Set.mem_Ico] at ha hno
    omega
  unfold initializePciHost
  exact (pciSetupAtu_frame a (hout 1 (by decide))).trans (pciSetupAtu_frame a (hout 0 (by decide)))

end Programming

end Edk2Rk3576
