import Edk2Rk3576.Pcie.Windows

/-!
# Where a configuration register is

A configuration address is a segment, bus, device, function and register, and no other bit. Of one
that is not rejected, the root port's registers are in the DBI range of its segment. On the first
segment, a register of the second bus is sent out by the window of configuration accesses, and one of
a later bus lands in the window of memory accesses, where no device answers it. No two addresses get
one register.
-/

namespace Edk2Rk3576

section Fields

variable {address : UInt64}

def getRegNum (address : UInt64) : ℕ := (address &&& 0xFFF).toNat

/-- An address of a bus of its segment, with no reserved bit set. -/
structure ConfigAddress (address : UInt64) : Prop where
  reserved : address &&& 0xffff0000f0000000 = 0
  bus_ge : pcieBusBase (getSegNum address) ≤ getBusNum address
  bus_le : getBusNum address ≤ pcieBusLimit (getSegNum address)

/-- No controller has the segment, or no device can be there. -/
def ConfigRejected (address : UInt64) : Prop :=
  numPcieController ≤ getSegNum address
    ∨ (getBusNum address = pcieBusBase (getSegNum address)
        ∧ 0 < getDevNum address + getFuncNum address)
    ∨ (getBusNum address = pcieBusBase (getSegNum address) + 1 ∧ 0 < getDevNum address)

instance : Decidable (ConfigRejected address) := inferInstanceAs (Decidable (_ ∨ _ ∨ _))

theorem toNat_shiftRight_and (address : UInt64) (i k : ℕ) (hi : i < 64) (hk : k ≤ 32) :
    (address >>> UInt64.ofNat i &&& UInt64.ofNat (2 ^ k - 1)).toNat
      = address.toNat / 2 ^ i % 2 ^ k := by
  have hpow : 2 ^ k ≤ 2 ^ 32 := Nat.pow_le_pow_right (by omega) hk
  have hshift : (UInt64.ofNat i).toNat = i := UInt64.toNat_ofNat_of_lt' (by
    simp only [UInt64.size]
    omega)
  have hmask : (UInt64.ofNat (2 ^ k - 1)).toNat = 2 ^ k - 1 := UInt64.toNat_ofNat_of_lt' (by
    simp only [UInt64.size]
    omega)
  rw [UInt64.toNat_and, UInt64.toNat_shiftRight, hshift, hmask, Nat.mod_eq_of_lt hi,
    Nat.and_two_pow_sub_one_eq_mod, Nat.shiftRight_eq_div_pow]

theorem getSegNum_eq : getSegNum address = address.toNat / 2 ^ 32 % 2 ^ 16 :=
  toNat_shiftRight_and address 32 16 (by omega) (by omega)

theorem getBusNum_eq : getBusNum address = address.toNat / 2 ^ 20 % 2 ^ 8 :=
  toNat_shiftRight_and address 20 8 (by omega) (by omega)

theorem getDevNum_eq : getDevNum address = address.toNat / 2 ^ 15 % 2 ^ 5 :=
  toNat_shiftRight_and address 15 5 (by omega) (by omega)

theorem getFuncNum_eq : getFuncNum address = address.toNat / 2 ^ 12 % 2 ^ 3 :=
  toNat_shiftRight_and address 12 3 (by omega) (by omega)

theorem getRegNum_eq : getRegNum address = address.toNat % 2 ^ 12 := by
  rw [getRegNum, UInt64.toNat_and]
  exact Nat.and_two_pow_sub_one_eq_mod _ 12

/-- The reserved bits are the four above the bus and those above the segment. -/
theorem reserved_eq_zero (h : address &&& 0xffff0000f0000000 = 0) :
    address.toNat / 2 ^ 28 % 2 ^ 4 = 0 ∧ address.toNat / 2 ^ 48 = 0 := by
  have hand : address.toNat &&& 0xffff0000f0000000 = 0 := by
    have := congrArg UInt64.toNat h
    rwa [UInt64.toNat_and] at this
  have hbits : ∀ i k, 0xffff0000f0000000 >>> i &&& (2 ^ k - 1) = 2 ^ k - 1 →
      address.toNat / 2 ^ i % 2 ^ k = 0 := by
    intro i k hmask
    rw [← Nat.shiftRight_eq_div_pow, ← Nat.and_two_pow_sub_one_eq_mod, ← hmask, ← Nat.and_assoc,
      ← Nat.shiftRight_and_distrib, hand, Nat.zero_shiftRight, Nat.zero_and]
  have hlow := hbits 28 4 (by decide)
  have hhigh := hbits 48 16 (by decide)
  have := address.toNat_lt
  exact ⟨hlow, by omega⟩

theorem ConfigAddress.toNat_eq (h : ConfigAddress address) :
    address.toNat = getSegNum address * 2 ^ 32 + getBusNum address * 2 ^ 20
      + getDevNum address * 2 ^ 15 + getFuncNum address * 2 ^ 12 + getRegNum address := by
  obtain ⟨hlow, hhigh⟩ := reserved_eq_zero h.reserved
  rw [getSegNum_eq, getBusNum_eq, getDevNum_eq, getFuncNum_eq, getRegNum_eq]
  omega

theorem getRegNum_lt : getRegNum address < 2 ^ 12 := by
  rw [getRegNum_eq]
  exact Nat.mod_lt _ (by omega)

theorem getFuncNum_lt : getFuncNum address < 2 ^ 3 := by
  rw [getFuncNum_eq]
  exact Nat.mod_lt _ (by omega)

theorem getDevNum_lt : getDevNum address < 2 ^ 5 := by
  rw [getDevNum_eq]
  exact Nat.mod_lt _ (by omega)

end Fields

section Place

variable {address address' : UInt64} {mmio : Cells UInt32} {c : ℕ}

def pcieDbiWindow (segment : ℕ) : Window := ⟨pcieDbiBase segment, pcieDbiSize⟩

def pcieCfgWindow (segment : ℕ) : Window := ⟨pcieCfgBase segment, pcieCfgSize⟩

/-- The window sends accesses to the address out, as they are, as ones of the type. -/
structure AtuRegion.Sends (r : AtuRegion) (type : UInt32) (c : ℕ) : Prop where
  type_eq : r.type = type
  covers : r.Covers c
  translate_eq : r.translate c = c

theorem AtuRegion.Passes.sends {r : AtuRegion} {type : UInt32} {w : Window} (h : r.Passes type w)
    (hc : c ∈ w.range) : r.Sends type c :=
  ⟨h.type_eq, (h.covers_iff c).2 hc, h.translate_eq c hc⟩

/-- Where the register of an address that is not rejected is, once the host is set up. -/
structure ConfigPlaced (address : UInt64) : Prop where
  /-- The root port. -/
  root : getBusNum address = pcieBusBase (getSegNum address) →
    (pciSegmentLibGetConfigBase address).toNat ∈ (pcieDbiWindow (getSegNum address)).range
  /-- The bus of the device: the first window sends the access out. -/
  secondary : getSegNum address = 0 → getBusNum address = 1 → ∀ mmio,
    (atuRegion (pcieDbiBase 0) 0 (initializePciHost 0 mmio)).Sends iatuTypeCfg0
      (pciSegmentLibGetConfigBase address).toNat
  /-- A later bus: the second window does, as a memory access. -/
  later : getSegNum address = 0 → 1 < getBusNum address → ∀ mmio,
    (atuRegion (pcieDbiBase 0) 1 (initializePciHost 0 mmio)).Sends iatuTypeMem
      (pciSegmentLibGetConfigBase address).toNat

/-- The fields of an address that is not rejected. -/
theorem fields_of_not_rejected (h : ¬ ConfigRejected address) :
    getSegNum address < 2
      ∧ (getBusNum address = pcieBusBase (getSegNum address) →
          getDevNum address = 0 ∧ getFuncNum address = 0)
      ∧ (getBusNum address = pcieBusBase (getSegNum address) + 1 → getDevNum address = 0) := by
  simp only [ConfigRejected, numPcieController, not_or, not_and, not_le, not_lt] at h
  refine ⟨h.1, fun hbus => ?_, fun hbus => ?_⟩
  · have := h.2.1 hbus
    omega
  · have := h.2.2 hbus
    omega

/-- The offset added to a base that is a small number is the low half of the number. -/
theorem toNat_base_add {base : ℕ} {offset : UInt64} (h : base < 2 ^ 32) :
    (UInt64.ofNat base + offset.toUInt32.toUInt64).toNat = base + offset.toNat % 2 ^ 32 := by
  have hbase : (UInt64.ofNat base).toNat = base := UInt64.toNat_ofNat_of_lt' (by
    simp only [UInt64.size]
    omega)
  rw [UInt64.toNat_add, UInt32.toNat_toUInt64, UInt64.toNat_toUInt32, hbase]
  omega

theorem getConfigBase_rejected (h : ConfigRejected address) :
    pciSegmentLibGetConfigBase address = invalidPciAddress := by
  unfold pciSegmentLibGetConfigBase
  rcases h with h | h
  · exact if_pos h
  · simp only [if_pos h, ite_self]

theorem getConfigBase_root (h : ConfigAddress address) (hn : ¬ ConfigRejected address)
    (hbus : getBusNum address = pcieBusBase (getSegNum address)) :
    (pciSegmentLibGetConfigBase address).toNat
      = pcieDbiBase (getSegNum address) + getRegNum address := by
  obtain ⟨hseg, hroot, -⟩ := fields_of_not_rejected hn
  obtain ⟨hdev, hfunc⟩ := hroot hbus
  have hreg := @getRegNum_lt address
  have hnat := h.toNat_eq
  have hoffset : (UInt64.ofNat (pcieBusBaseOffset (getSegNum address))).toNat
      = pcieBusBaseOffset (getSegNum address) := UInt64.toNat_ofNat_of_lt' (by
    simp only [UInt64.size, pcieBusBaseOffset, pcieBusBase, size1Mb]
    omega)
  have hle : UInt64.ofNat (pcieBusBaseOffset (getSegNum address)) ≤ address := by
    rw [UInt64.le_iff_toNat_le, hoffset]
    simp only [pcieBusBaseOffset, size1Mb]
    omega
  have heq : pciSegmentLibGetConfigBase address = UInt64.ofNat (pcieDbiBase (getSegNum address))
      + (address - UInt64.ofNat (pcieBusBaseOffset (getSegNum address))).toUInt32.toUInt64 := by
    simp [pciSegmentLibGetConfigBase, numPcieController, hbus, hdev, hfunc, hseg]
  rw [heq, toNat_base_add (by simp only [pcieDbiBase]; omega), UInt64.toNat_sub_of_le _ _ hle,
    hoffset]
  simp only [pcieBusBaseOffset, size1Mb]
  omega

theorem getConfigBase_below (h : ConfigAddress address) (hn : ¬ ConfigRejected address)
    (hbus : getBusNum address ≠ pcieBusBase (getSegNum address)) :
    (pciSegmentLibGetConfigBase address).toNat
      = pcieCfgBase (getSegNum address) + getBusNum address * 2 ^ 20 + getDevNum address * 2 ^ 15
        + getFuncNum address * 2 ^ 12 + getRegNum address := by
  have hseg := (fields_of_not_rejected hn).1
  have hreg := @getRegNum_lt address
  have hfunc := @getFuncNum_lt address
  have hdev := @getDevNum_lt address
  have hlimit := h.bus_le
  have heq : pciSegmentLibGetConfigBase address = UInt64.ofNat (pcieCfgBase (getSegNum address))
      + address.toUInt32.toUInt64 := by
    simp only [ConfigRejected, not_or] at hn
    simp [pciSegmentLibGetConfigBase, hbus, hn.1, hn.2.2]
  rw [heq, toNat_base_add (by simp only [pcieCfgBase]; omega), h.toNat_eq]
  simp only [pcieBusLimit, pcieBusBase, pcieBusCount] at hlimit
  omega

theorem getConfigBase_eq_invalid_iff (h : ConfigAddress address) :
    pciSegmentLibGetConfigBase address = invalidPciAddress ↔ ConfigRejected address := by
  refine ⟨fun heq => ?_, getConfigBase_rejected⟩
  by_contra hn
  have hseg := (fields_of_not_rejected hn).1
  have hnat : (pciSegmentLibGetConfigBase address).toNat = 0xffffffff := by
    rw [heq]
    rfl
  have hreg := @getRegNum_lt address
  by_cases hbus : getBusNum address = pcieBusBase (getSegNum address)
  · rw [getConfigBase_root h hn hbus] at hnat
    simp only [pcieDbiBase] at hnat
    omega
  · have hfunc := @getFuncNum_lt address
    have hdev := @getDevNum_lt address
    have hlimit := h.bus_le
    rw [getConfigBase_below h hn hbus] at hnat
    simp only [pcieBusLimit, pcieBusBase, pcieBusCount, pcieCfgBase] at hlimit hnat
    omega

theorem configPlaced (h : ConfigAddress address) (hn : ¬ ConfigRejected address) :
    ConfigPlaced address where
  root hbus := by
    have hreg := @getRegNum_lt address
    rw [getConfigBase_root h hn hbus, Window.mem_range]
    simp only [pcieDbiWindow, pcieDbiSize]
    omega
  secondary hseg hbus mmio := by
    have hreg := @getRegNum_lt address
    have hfunc := @getFuncNum_lt address
    have hbase : getBusNum address = pcieBusBase (getSegNum address) + 1 := by
      rw [hbus, hseg]
      rfl
    have hdev := (fields_of_not_rejected hn).2.2 hbase
    refine (initializePciHost_cfg0 (Nat.zero_lt_succ 1)).sends ?_
    rw [getConfigBase_below h hn (by omega), hseg, hbus, hdev, Window.mem_range]
    simp only [pcieCfg0Window, size1Mb, size64Kb]
    omega
  later hseg hbus mmio := by
    have hreg := @getRegNum_lt address
    have hfunc := @getFuncNum_lt address
    have hdev := @getDevNum_lt address
    have hlimit := h.bus_le
    rw [hseg] at hlimit
    simp only [pcieBusLimit, pcieBusBase, pcieBusCount] at hlimit
    have hroot : getBusNum address ≠ pcieBusBase (getSegNum address) := by
      rw [hseg, pcieBusBase]
      omega
    refine (initializePciHost_mem (Nat.zero_lt_succ 1)).sends ?_
    rw [getConfigBase_below h hn hroot, hseg, Window.mem_range]
    simp only [pcieMem32Window, pcieCfgBase, pcieMem32Base, pcieMem32Size]
    omega

/-- The registers of two addresses that are not rejected are apart: the segments' ranges are, and
within one the fields are at places of their own. -/
theorem getConfigBase_inj (h : ConfigAddress address) (h' : ConfigAddress address')
    (hn : ¬ ConfigRejected address) (hn' : ¬ ConfigRejected address')
    (heq : pciSegmentLibGetConfigBase address = pciSegmentLibGetConfigBase address') :
    address = address' := by
  have hnat := congrArg UInt64.toNat heq
  have hseg := (fields_of_not_rejected hn).1
  have hseg' := (fields_of_not_rejected hn').1
  have hreg := @getRegNum_lt address
  have hreg' := @getRegNum_lt address'
  have hfunc := @getFuncNum_lt address
  have hfunc' := @getFuncNum_lt address'
  have hdev := @getDevNum_lt address
  have hdev' := @getDevNum_lt address'
  have hge := h.bus_ge
  have hge' := h'.bus_ge
  have hle := h.bus_le
  have hle' := h'.bus_le
  rw [← UInt64.toNat_inj, h.toNat_eq, h'.toNat_eq]
  simp only [pcieBusLimit, pcieBusCount] at hle hle'
  by_cases hbus : getBusNum address = pcieBusBase (getSegNum address) <;>
    by_cases hbus' : getBusNum address' = pcieBusBase (getSegNum address')
  · have hzero := (fields_of_not_rejected hn).2.1 hbus
    have hzero' := (fields_of_not_rejected hn').2.1 hbus'
    rw [getConfigBase_root h hn hbus, getConfigBase_root h' hn' hbus'] at hnat
    simp only [pcieDbiBase, pcieBusBase] at *
    omega
  · rw [getConfigBase_root h hn hbus, getConfigBase_below h' hn' hbus'] at hnat
    simp only [pcieDbiBase, pcieCfgBase, pcieBusBase] at *
    omega
  · rw [getConfigBase_below h hn hbus, getConfigBase_root h' hn' hbus'] at hnat
    simp only [pcieDbiBase, pcieCfgBase, pcieBusBase] at *
    omega
  · rw [getConfigBase_below h hn hbus, getConfigBase_below h' hn' hbus'] at hnat
    simp only [pcieCfgBase, pcieBusBase] at *
    omega

/-- An address gets the marker exactly if it is rejected; any other gets a place of its kind, and no
other address gets that place. -/
theorem pciSegmentLibGetConfigBase_placed (h : ConfigAddress address) :
    (pciSegmentLibGetConfigBase address = invalidPciAddress ↔ ConfigRejected address)
      ∧ (¬ ConfigRejected address → ConfigPlaced address
          ∧ ∀ address', ConfigAddress address' → ¬ ConfigRejected address' →
              pciSegmentLibGetConfigBase address' = pciSegmentLibGetConfigBase address →
              address' = address) :=
  ⟨getConfigBase_eq_invalid_iff h, fun hn => ⟨configPlaced h hn, fun _ h' hn' heq =>
    getConfigBase_inj h' h hn' hn heq⟩⟩

/-- The second bus of the first segment. -/
theorem pciSegmentLibGetConfigBase_placed_secondary :
    ¬ ConfigRejected 0x100010 ∧ ConfigPlaced 0x100010 := by
  have h : ConfigAddress 0x100010 := ⟨by decide, by decide, by decide⟩
  have hn : ¬ ConfigRejected 0x100010 := by decide
  exact ⟨hn, ((pciSegmentLibGetConfigBase_placed h).2 hn).1⟩

/-- The first register of the third bus is in the window of memory accesses. -/
theorem getConfigBase_in_mem32 :
    ConfigAddress 0x200000 ∧ pciSegmentLibGetConfigBase 0x200000 ≠ invalidPciAddress
      ∧ (pciSegmentLibGetConfigBase 0x200000).toNat ∉ (pcieDbiWindow 0).range
      ∧ (pciSegmentLibGetConfigBase 0x200000).toNat ∉ (pcieCfgWindow 0).range
      ∧ (pciSegmentLibGetConfigBase 0x200000).toNat ∉ (pcieCfg0Window 0).range
      ∧ (pciSegmentLibGetConfigBase 0x200000).toNat ∈ (pcieMem32Window 0).range :=
  ⟨⟨by decide, by decide, by decide⟩, by decide, by decide, by decide, by decide, by decide⟩

end Place

end Edk2Rk3576
