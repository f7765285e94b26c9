import Edk2Rk3576.Pcie.ConfigAccess
import Mathlib.Data.Nat.Bitwise

/-!
# Ranges of configuration registers

The loop of dwords, with the byte and the word before it and after it, goes through a range by the
widest aligned access each time. All registers of a range are in the page of one function, so each
access is where the address of the range says, and no assertion fails.
-/

namespace Edk2Rk3576

section Page

variable {address : UInt64} {k : ℕ}

theorem toNat_add_of_reg (hk : getRegNum address + k < 0x1000) :
    (address + UInt64.ofNat k).toNat = address.toNat + k := by
  have hlt := address.toNat_lt
  rw [getRegNum_eq] at hk
  rw [UInt64.toNat_add, UInt64.toNat_ofNat']
  omega

/-- Another register of the same function. -/
theorem fields_add (hk : getRegNum address + k < 0x1000) :
    getSegNum (address + UInt64.ofNat k) = getSegNum address
      ∧ getBusNum (address + UInt64.ofNat k) = getBusNum address
      ∧ getDevNum (address + UInt64.ofNat k) = getDevNum address
      ∧ getFuncNum (address + UInt64.ofNat k) = getFuncNum address
      ∧ getRegNum (address + UInt64.ofNat k) = getRegNum address + k := by
  have hnat := toNat_add_of_reg hk
  simp only [getSegNum_eq, getBusNum_eq, getDevNum_eq, getFuncNum_eq, getRegNum_eq, hnat] at hk ⊢
  refine ⟨?_, ?_, ?_, ?_, ?_⟩ <;> omega

theorem configRejected_add (hk : getRegNum address + k < 0x1000) :
    ConfigRejected (address + UInt64.ofNat k) ↔ ConfigRejected address := by
  obtain ⟨hseg, hbus, hdev, hfunc, -⟩ := fields_add hk
  simp only [ConfigRejected, hseg, hbus, hdev, hfunc]

/-- The low half of a number whose page goes on past `k` more. -/
theorem mod_add_of_page {x : ℕ} (hk : x % 0x1000 + k < 0x1000) :
    (x + k) % 2 ^ 32 = x % 2 ^ 32 + k := by
  omega

theorem toNat_busBaseOffset (hseg : getSegNum address < 2) :
    (UInt64.ofNat (pcieBusBaseOffset (getSegNum address))).toNat
      = pcieBusBaseOffset (getSegNum address) := UInt64.toNat_ofNat_of_lt' (by
  simp only [UInt64.size, pcieBusBaseOffset, pcieBusBase, size1Mb]
  omega)

theorem busBaseOffset_le (hbus : getBusNum address = pcieBusBase (getSegNum address)) :
    pcieBusBaseOffset (getSegNum address) ≤ address.toNat := by
  rw [getBusNum_eq] at hbus
  simp only [pcieBusBaseOffset, pcieBusBase, size1Mb] at hbus ⊢
  omega

theorem getConfigBase_toNat_root (hn : ¬ ConfigRejected address)
    (hbus : getBusNum address = pcieBusBase (getSegNum address)) :
    (pciSegmentLibGetConfigBase address).toNat = pcieDbiBase (getSegNum address)
      + (address.toNat - pcieBusBaseOffset (getSegNum address)) % 2 ^ 32 := by
  obtain ⟨hseg, hroot, -⟩ := fields_of_not_rejected hn
  obtain ⟨hdev, hfunc⟩ := hroot hbus
  have heq : pciSegmentLibGetConfigBase address = UInt64.ofNat (pcieDbiBase (getSegNum address))
      + (address - UInt64.ofNat (pcieBusBaseOffset (getSegNum address))).toUInt32.toUInt64 := by
    simp [pciSegmentLibGetConfigBase, numPcieController, hbus, hdev, hfunc, hseg]
  have hle : UInt64.ofNat (pcieBusBaseOffset (getSegNum address)) ≤ address := by
    rw [UInt64.le_iff_toNat_le, toNat_busBaseOffset hseg]
    exact busBaseOffset_le hbus
  rw [heq, toNat_base_add (by simp only [pcieDbiBase]; omega), UInt64.toNat_sub_of_le _ _ hle,
    toNat_busBaseOffset hseg]

theorem getConfigBase_toNat_below (hn : ¬ ConfigRejected address)
    (hbus : getBusNum address ≠ pcieBusBase (getSegNum address)) :
    (pciSegmentLibGetConfigBase address).toNat
      = pcieCfgBase (getSegNum address) + address.toNat % 2 ^ 32 := by
  have hseg := (fields_of_not_rejected hn).1
  have heq : pciSegmentLibGetConfigBase address = UInt64.ofNat (pcieCfgBase (getSegNum address))
      + address.toUInt32.toUInt64 := by
    simp only [ConfigRejected, not_or] at hn
    simp [pciSegmentLibGetConfigBase, hbus, hn.1, hn.2.2]
  rw [heq, toNat_base_add (by simp only [pcieCfgBase]; omega)]

/-- The registers of a function are a page: where each of them is. -/
theorem getConfigBase_add (hn : ¬ ConfigRejected address) (hk : getRegNum address + k < 0x1000) :
    (pciSegmentLibGetConfigBase (address + UInt64.ofNat k)).toNat
      = (pciSegmentLibGetConfigBase address).toNat + k := by
  obtain ⟨hseg, hbus, -⟩ := fields_add hk
  have hnat := toNat_add_of_reg hk
  have hn' : ¬ ConfigRejected (address + UInt64.ofNat k) := (configRejected_add hk).not.2 hn
  rw [getRegNum_eq] at hk
  by_cases hroot : getBusNum address = pcieBusBase (getSegNum address)
  · have hle := busBaseOffset_le hroot
    rw [getConfigBase_toNat_root hn' (by rw [hbus, hseg, hroot]), getConfigBase_toNat_root hn hroot,
      hseg, hnat, Nat.sub_add_comm hle, mod_add_of_page, Nat.add_assoc]
    simp only [pcieBusBaseOffset, pcieBusBase, size1Mb] at hle ⊢
    omega
  · rw [getConfigBase_toNat_below hn' (by rwa [hbus, hseg]), getConfigBase_toNat_below hn hroot,
      hseg, hnat, mod_add_of_page hk, Nat.add_assoc]

/-- A register's address on the bus has the register's number in its low bits. -/
theorem getConfigBase_mod (hn : ¬ ConfigRejected address) :
    (pciSegmentLibGetConfigBase address).toNat % 0x1000 = getRegNum address := by
  rw [getRegNum_eq]
  by_cases hroot : getBusNum address = pcieBusBase (getSegNum address)
  · have hle := busBaseOffset_le hroot
    rw [getConfigBase_toNat_root hn hroot]
    simp only [pcieDbiBase, pcieBusBaseOffset, pcieBusBase, size1Mb] at hle ⊢
    omega
  · rw [getConfigBase_toNat_below hn hroot, pcieCfgBase]
    omega

/-- With no reserved bit set, only a rejected address gets the marker. -/
theorem getConfigBase_ne_invalid (hreserved : address &&& 0xffff0000f0000000 = 0)
    (hn : ¬ ConfigRejected address) : pciSegmentLibGetConfigBase address ≠ invalidPciAddress := by
  intro heq
  have hnat : (pciSegmentLibGetConfigBase address).toNat = 0xffffffff := by
    rw [heq]
    rfl
  obtain ⟨hlow, -⟩ := reserved_eq_zero hreserved
  have hseg := (fields_of_not_rejected hn).1
  by_cases hroot : getBusNum address = pcieBusBase (getSegNum address)
  · rw [getConfigBase_toNat_root hn hroot] at hnat
    have hle := busBaseOffset_le hroot
    simp only [pcieDbiBase, pcieBusBaseOffset, pcieBusBase, size1Mb] at hle hnat
    rw [getSegNum_eq] at *
    rw [getBusNum_eq, pcieBusBase] at hroot
    omega
  · rw [getConfigBase_toNat_below hn hroot, pcieCfgBase] at hnat
    omega

/-- The reserved bits are above the register's. -/
theorem reserved_add (hk : getRegNum address + k < 0x1000) :
    (address + UInt64.ofNat k) &&& 0xffff0000f0000000 = address &&& 0xffff0000f0000000 := by
  have hnat := toNat_add_of_reg hk
  rw [getRegNum_eq] at hk
  rw [← UInt64.toNat_inj, UInt64.toNat_and, UInt64.toNat_and, hnat]
  refine Nat.eq_of_testBit_eq fun i => ?_
  rw [Nat.testBit_and, Nat.testBit_and,
    show (0xffff0000f0000000 : UInt64).toNat = 2 ^ 12 * 0xffff0000f0000 from rfl,
    Nat.testBit_two_pow_mul]
  by_cases hi : 12 ≤ i
  · obtain ⟨j, rfl⟩ := Nat.exists_eq_add_of_le' hi
    rw [← Nat.testBit_div_two_pow, ← Nat.testBit_div_two_pow,
      show (address.toNat + k) / 2 ^ 12 = address.toNat / 2 ^ 12 by omega]
  · simp only [hi, decide_false, Bool.false_and, Bool.and_false]

/-- An address that is a multiple of the width passes the assertion of the width. -/
theorem and_mask_eq_zero {width : PciCfgWidth} (hreserved : address &&& 0xffff0000f0000000 = 0)
    (halign : width.size ∣ address.toNat) :
    address &&& (0xffff0000f0000000 ||| width.mask) = 0 := by
  have hlow : address &&& width.mask = 0 := by
    rw [← UInt64.toNat_inj, UInt64.toNat_and]
    cases width with
    | uint8 => exact Nat.and_zero _
    | uint16 => exact (Nat.and_two_pow_sub_one_eq_mod _ 1).trans (Nat.mod_eq_zero_of_dvd halign)
    | uint32 => exact (Nat.and_two_pow_sub_one_eq_mod _ 2).trans (Nat.mod_eq_zero_of_dvd halign)
  have hor : address &&& (0xffff0000f0000000 ||| width.mask)
      = address &&& 0xffff0000f0000000 ||| address &&& width.mask := by
    simp only [← UInt64.toNat_inj, UInt64.toNat_and, UInt64.toNat_or, Nat.and_or_distrib_left]
  rw [hor, hreserved, hlow]
  rfl

end Page

section Register

variable {device : MmioDevice} {width : PciCfgWidth} {address : UInt64} {s : PciState}

theorem PciState.assert_true {p : Prop} [Decidable p] (h : p) : s.assert p = s := if_pos h

theorem assertInvalid_eq (hreserved : address &&& 0xffff0000f0000000 = 0)
    (halign : width.size ∣ address.toNat) :
    assertInvalidPciSegmentAddress address width.mask s = s :=
  PciState.assert_true (and_mask_eq_zero hreserved halign)

theorem PciCfgWidth.cast_cast (value : ℕ) : width.cast (width.cast value) = width.cast value :=
  Nat.mod_mod _ _

theorem PciCfgWidth.cast_invalid :
    width.cast invalidPciAddress.toUInt32.toNat = 256 ^ width.size - 1 := by
  cases width <;> rfl

theorem pciSegmentRead_eq (hreserved : address &&& 0xffff0000f0000000 = 0)
    (halign : width.size ∣ address.toNat) (hn : ¬ ConfigRejected address) :
    pciSegmentRead device width address s
      = mmioRead device width (pciSegmentLibGetConfigBase address).toNat s := by
  have hseg : getSegNum address < numPcieController := (fields_of_not_rejected hn).1
  rw [pciSegmentRead, assertInvalid_eq hreserved halign, pciSegmentLibReadWorker,
    PciState.assert_true hseg, if_neg (getConfigBase_ne_invalid hreserved hn), mmioRead,
    PciCfgWidth.cast_cast]

theorem pciSegmentRead_rejected (hreserved : address &&& 0xffff0000f0000000 = 0)
    (halign : width.size ∣ address.toNat) (hseg : getSegNum address < numPcieController)
    (h : ConfigRejected address) :
    pciSegmentRead device width address s = (256 ^ width.size - 1, s) := by
  rw [pciSegmentRead, assertInvalid_eq hreserved halign, pciSegmentLibReadWorker,
    PciState.assert_true hseg, if_pos (getConfigBase_rejected h), getConfigBase_rejected h,
    PciCfgWidth.cast_invalid]

theorem pciSegmentWrite_eq {value : ℕ} (hreserved : address &&& 0xffff0000f0000000 = 0)
    (halign : width.size ∣ address.toNat) (hn : ¬ ConfigRejected address) :
    pciSegmentWrite width address value s = (width.cast value,
      mmioWrite width (pciSegmentLibGetConfigBase address).toNat value s) := by
  have hseg : getSegNum address < numPcieController := (fields_of_not_rejected hn).1
  rw [pciSegmentWrite, assertInvalid_eq hreserved halign, pciSegmentLibWriteWorker,
    PciState.assert_true hseg, if_neg (getConfigBase_ne_invalid hreserved hn)]

theorem pciSegmentWrite_rejected {value : ℕ} (hreserved : address &&& 0xffff0000f0000000 = 0)
    (halign : width.size ∣ address.toNat) (hseg : getSegNum address < numPcieController)
    (h : ConfigRejected address) :
    pciSegmentWrite width address value s = (256 ^ width.size - 1, s) := by
  rw [pciSegmentWrite, assertInvalid_eq hreserved halign, pciSegmentLibWriteWorker,
    PciState.assert_true hseg, if_pos (getConfigBase_rejected h), getConfigBase_rejected h,
    PciCfgWidth.cast_invalid]

end Register

section Loop

def PciCfgWidth.ofSize : ℕ → PciCfgWidth
  | 1 => uint8
  | 2 => uint16
  | _ => uint32

variable (unit : PciUnit)

/-- The registers of the pieces one after the other, the one at `start` at `buffer`. -/
def pciUnits (start buffer : ℕ) (ps : List (ℕ × ℕ)) (s : PciState) : PciState :=
  ps.foldl (fun s p =>
    unit (PciCfgWidth.ofSize p.2) (UInt64.ofNat p.1) (buffer + (p.1 - start)) s) s

/-- What is to be done from the cursor on, by the widest access each time. -/
def pciAhead (r : PciCursor × PciState) : PciState :=
  pciUnits unit r.1.startAddress.toNat r.1.buffer
    (pieces (widest 2) r.1.size r.1.startAddress.toNat r.1.size) r.2

/-- The rest of the range is what leads to `t`. -/
structure PciLeft (t : PciState) (r : PciCursor × PciState) : Prop where
  ahead : pciAhead unit r = t
  bound : r.1.startAddress.toNat + r.1.size < 2 ^ 64

variable {unit} {width : PciCfgWidth} {r : PciCursor × PciState} {t s : PciState}
variable {start buffer : ℕ}

theorem pciUnits_cons {p : ℕ × ℕ} {ps : List (ℕ × ℕ)} :
    pciUnits unit start buffer (p :: ps) s = pciUnits unit start buffer ps
      (unit (PciCfgWidth.ofSize p.2) (UInt64.ofNat p.1) (buffer + (p.1 - start)) s) := rfl

/-- Pieces past a place are the same from there on. -/
theorem pciUnits_shift {w : ℕ} : ∀ {ps : List (ℕ × ℕ)} {s : PciState},
    (∀ p ∈ ps, start + w ≤ p.1) →
    pciUnits unit start buffer ps s = pciUnits unit (start + w) (buffer + w) ps s
  | [], _, _ => rfl
  | p :: ps, s, h => by
    have hp := h p List.mem_cons_self
    rw [pciUnits_cons, pciUnits_cons,
      show buffer + w + (p.1 - (start + w)) = buffer + (p.1 - start) by omega]
    exact pciUnits_shift fun q hq => h q (List.mem_cons_of_mem p hq)

theorem PciCfgWidth.ofSize_size : PciCfgWidth.ofSize width.size = width := by
  cases width <;> rfl

theorem toNat_step (h : r.1.startAddress.toNat + r.1.size < 2 ^ 64) (hw : width.size ≤ r.1.size) :
    (pciBufferStep unit width r).1.startAddress.toNat = r.1.startAddress.toNat + width.size := by
  simp only [pciBufferStep, UInt64.toNat_add, UInt64.toNat_ofNat']
  omega

/-- A step of the width of the widest access goes on as the rest does. -/
theorem PciLeft.step (width : PciCfgWidth) (h : PciLeft unit t r) (hsize : 0 < r.1.size)
    (hw : widest 2 r.1.startAddress.toNat r.1.size = width.size) :
    PciLeft unit t (pciBufferStep unit width r)
      ∧ (pciBufferStep unit width r).1.startAddress.toNat = r.1.startAddress.toNat + width.size
      ∧ (pciBufferStep unit width r).1.size = r.1.size - width.size := by
  have hle : width.size ≤ r.1.size := hw ▸ widest_le hsize 2
  have hbound := h.bound
  have hnat : (pciBufferStep unit width r).1.startAddress.toNat
      = r.1.startAddress.toNat + width.size := toNat_step hbound hle
  have hsize' : (pciBufferStep unit width r).1.size = r.1.size - width.size := rfl
  refine ⟨⟨?_, by rw [hnat, hsize']; omega⟩, hnat, hsize'⟩
  rw [← h.ahead]
  obtain ⟨n, hn⟩ := Nat.exists_eq_succ_of_ne_zero hsize.ne'
  have hpieces : pieces (widest 2) r.1.size r.1.startAddress.toNat r.1.size
      = (r.1.startAddress.toNat, width.size) :: pieces (widest 2) (r.1.size - width.size)
        (r.1.startAddress.toNat + width.size) (r.1.size - width.size) := by
    have hpos : 0 < width.size := by cases width <;> exact Nat.succ_pos _
    conv_lhs => rw [hn, pieces, if_neg n.succ_ne_zero, ← hn, hw]
    rw [pieces_fuel (fun _ _ hpos => ⟨widest_pos, widest_le hpos 2⟩) (by omega) le_rfl]
  have htiles := @tiles_widest 2 (r.1.startAddress.toNat + width.size) (r.1.size - width.size) _
    le_rfl
  rw [pciAhead, pciAhead, hnat, hsize', hpieces, pciUnits_cons, PciCfgWidth.ofSize_size,
    Nat.sub_self, Nat.add_zero, UInt64.ofNat_toNat,
    pciUnits_shift fun p hp => (htiles.mem_bounds hp).1]
  rfl

theorem widest_two (a n : ℕ) : widest 2 a n
    = if 4 ∣ a ∧ 4 ≤ n then 4 else if 2 ∣ a ∧ 2 ≤ n then 2 else 1 := rfl

/-- The loop of dwords, from a multiple of four on or with little left. -/
theorem PciLeft.dwords : ∀ {fuel : ℕ} {r : PciCursor × PciState}, PciLeft unit t r →
    r.1.size ≤ fuel → (4 ∣ r.1.startAddress.toNat ∨ r.1.size < 2) →
    PciLeft unit t (pciBufferDwords unit fuel r) ∧ (pciBufferDwords unit fuel r).1.size < 4
      ∧ (4 ∣ (pciBufferDwords unit fuel r).1.startAddress.toNat
        ∨ (pciBufferDwords unit fuel r).1.size < 2)
  | 0, r, h, hfuel, hfour => ⟨h, by rw [pciBufferDwords]; omega, hfour⟩
  | fuel + 1, r, h, hfuel, hfour => by
    rw [pciBufferDwords]
    split_ifs with hge
    · have hge : 4 ≤ r.1.size := hge
      have hdvd : 4 ∣ r.1.startAddress.toNat := by omega
      obtain ⟨hstep, hnat, hsize⟩ := h.step .uint32 (by omega) (by
        rw [widest_two, if_pos ⟨hdvd, hge⟩]
        rfl)
      rw [PciCfgWidth.size] at hnat hsize
      exact hstep.dwords (by omega) (by omega)
    · have hlt : r.1.size < 4 := not_le.1 hge
      exact ⟨h, hlt, hfour⟩

theorem PciLeft.done (h : PciLeft unit t r) (hsize : r.1.size = 0) : r.2 = t := by
  rw [← h.ahead, pciAhead, hsize]
  rfl

theorem and_bit_ne_zero (a : UInt64) (i : ℕ) (hi : i < 64) :
    a &&& UInt64.ofNat (2 ^ i) ≠ 0 ↔ a.toNat.testBit i = true := by
  have hlt : 2 ^ i < 2 ^ 64 := Nat.pow_lt_pow_right (by omega) hi
  rw [Ne, ← UInt64.toNat_inj, UInt64.toNat_and, UInt64.toNat_ofNat', Nat.mod_eq_of_lt hlt,
    Nat.and_two_pow]
  cases a.toNat.testBit i <;> simp

theorem and_one_ne_zero (a : UInt64) : a &&& 1 ≠ 0 ↔ ¬ 2 ∣ a.toNat := by
  rw [show (1 : UInt64) = UInt64.ofNat (2 ^ 0) from rfl, and_bit_ne_zero a 0 (by omega),
    Nat.testBit_zero, decide_eq_true_eq]
  omega

theorem and_two_ne_zero (a : UInt64) (h : 2 ∣ a.toNat) : a &&& 2 ≠ 0 ↔ ¬ 4 ∣ a.toNat := by
  rw [show (2 : UInt64) = UInt64.ofNat (2 ^ 1) from rfl, and_bit_ne_zero a 1 (by omega),
    Nat.testBit_succ, Nat.testBit_zero, decide_eq_true_eq]
  omega

/-- A byte, if the address is odd. -/
theorem PciLeft.oddByte (h : PciLeft unit t r) (hsize : 0 < r.1.size) :
    PciLeft unit t (if r.1.startAddress &&& 1 ≠ 0 then pciBufferStep unit .uint8 r else r)
      ∧ 2 ∣ (if r.1.startAddress &&& 1 ≠ 0 then pciBufferStep unit .uint8 r
        else r).1.startAddress.toNat := by
  split_ifs with hodd
  · have hodd := (and_one_ne_zero _).1 hodd
    obtain ⟨hstep, hnat, -⟩ := h.step .uint8 hsize (by
      rw [widest_two, if_neg (by omega), if_neg (by omega)]
      rfl)
    rw [PciCfgWidth.size] at hnat
    exact ⟨hstep, by omega⟩
  · exact ⟨h, not_not.1 ((and_one_ne_zero _).not.1 hodd)⟩

/-- A word, if the address is then no multiple of four. -/
theorem PciLeft.oddWord (h : PciLeft unit t r) (htwo : 2 ∣ r.1.startAddress.toNat) :
    PciLeft unit t (if PciCfgWidth.uint16.size ≤ r.1.size ∧ r.1.startAddress &&& 2 ≠ 0 then
        pciBufferStep unit .uint16 r else r)
      ∧ (4 ∣ (if PciCfgWidth.uint16.size ≤ r.1.size ∧ r.1.startAddress &&& 2 ≠ 0 then
            pciBufferStep unit .uint16 r else r).1.startAddress.toNat
          ∨ (if PciCfgWidth.uint16.size ≤ r.1.size ∧ r.1.startAddress &&& 2 ≠ 0 then
            pciBufferStep unit .uint16 r else r).1.size < 2) := by
  split_ifs with hword
  · have hfour := (and_two_ne_zero _ htwo).1 hword.2
    have hsize : 2 ≤ r.1.size := hword.1
    obtain ⟨hstep, hnat, -⟩ := h.step .uint16 (by omega) (by
      rw [widest_two, if_neg (by omega), if_pos ⟨htwo, hsize⟩]
      rfl)
    rw [PciCfgWidth.size] at hnat
    exact ⟨hstep, Or.inl (by omega)⟩
  · refine ⟨h, ?_⟩
    rcases Nat.lt_or_ge r.1.size 2 with hsize | hsize
    · exact Or.inr hsize
    · exact Or.inl (not_not.1 ((and_two_ne_zero _ htwo).not.1 fun hne => hword ⟨hsize, hne⟩))

/-- The last word. -/
theorem PciLeft.lastWord (h : PciLeft unit t r) (hsize : r.1.size < 4)
    (hfour : 4 ∣ r.1.startAddress.toNat ∨ r.1.size < 2) :
    PciLeft unit t (if PciCfgWidth.uint16.size ≤ r.1.size then pciBufferStep unit .uint16 r else r)
      ∧ (if PciCfgWidth.uint16.size ≤ r.1.size then pciBufferStep unit .uint16 r
        else r).1.size < 2 := by
  split_ifs with hword
  · have hword : 2 ≤ r.1.size := hword
    obtain ⟨hstep, -, hrest⟩ := h.step .uint16 (by omega) (by
      rw [widest_two, if_neg (by omega), if_pos ⟨by omega, hword⟩]
      rfl)
    rw [PciCfgWidth.size] at hrest
    exact ⟨hstep, by omega⟩
  · exact ⟨h, not_le.1 hword⟩

/-- The last byte, and with it the range is done. -/
theorem PciLeft.lastByte (h : PciLeft unit t r) (hsize : r.1.size < 2) :
    (if PciCfgWidth.uint8.size ≤ r.1.size then pciBufferStep unit .uint8 r else r).2 = t := by
  split_ifs with hbyte
  · have hbyte : 1 ≤ r.1.size := hbyte
    obtain ⟨hstep, -, hrest⟩ := h.step .uint8 hbyte (by
      rw [widest_two, if_neg (by omega), if_neg (by omega)]
      rfl)
    rw [PciCfgWidth.size] at hrest
    exact hstep.done (by omega)
  · have hzero : r.1.size < 1 := not_le.1 hbyte
    exact h.done (by omega)

/-- The code goes through the range by the widest access each time. -/
theorem pciSegmentBuffer_eq {a : UInt64} {size : ℕ} (hreserved : a &&& 0xffff0000f0000000 = 0)
    (hrange : getRegNum a + size ≤ 0x1000) (hbuffer : size ≠ 0 → buffer ≠ 0) :
    pciSegmentBuffer unit a size buffer s
      = (size, pciUnits unit a.toNat buffer (pieces (widest 2) size a.toNat size) s) := by
  have hlt : a.toNat < 2 ^ 48 := by
    have := (reserved_eq_zero hreserved).2
    omega
  have hvalid : assertInvalidPciSegmentAddress a 0 s = s :=
    @assertInvalid_eq .uint8 a s hreserved (Nat.one_dvd _)
  rw [pciSegmentBuffer, hvalid, PciState.assert_true (by
    change (getRegNum a + size) % 2 ^ 64 ≤ 0x1000
    omega)]
  split_ifs with h0
  · rw [h0]
    rfl
  rw [PciState.assert_true (hbuffer h0)]
  refine Prod.ext rfl ?_
  have hleft : PciLeft unit (pciUnits unit a.toNat buffer (pieces (widest 2) size a.toNat size) s)
      (⟨a, size, buffer⟩, s) := ⟨rfl, by change a.toNat + size < 2 ^ 64; omega⟩
  obtain ⟨hbyte, htwo⟩ := hleft.oddByte (Nat.pos_of_ne_zero h0)
  obtain ⟨hword, hfour⟩ := hbyte.oddWord htwo
  obtain ⟨hdwords, hsize, hfour⟩ := hword.dwords le_rfl hfour
  obtain ⟨hlast, hsize⟩ := hdwords.lastWord hsize hfour
  exact hlast.lastByte hsize

end Loop

end Edk2Rk3576
