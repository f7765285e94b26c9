import Edk2Rk3576.Pcie.ConfigRanges

/-!
# Configuration space as a store

What the code does over configuration registers that keep what is written to them is what a store
of one byte for each configuration address does, whatever registers and ranges are read and written
in whatever order: two addresses never share a register, and an access of one width is seen by those
of the others.
-/

namespace Edk2Rk3576

open Cells

section Registers

/-- What an access makes of registers that keep what is written to them. -/
def MmioAccess.apply (m : Cells UInt8) : MmioAccess → Cells UInt8
  | .read _ _ => m
  | .write address width data => m.write address width.size (valueBytes data)

def registersAfter (m : Cells UInt8) (accesses : List MmioAccess) : Cells UInt8 :=
  accesses.foldl MmioAccess.apply m

/-- The device with such registers. -/
def keepingDevice (m : Cells UInt8) : MmioDevice := fun accesses address width =>
  (registersAfter m accesses).le address width.size

variable {m : Cells UInt8} {accesses : List MmioAccess} {base buffer size k n : ℕ}
variable {ps : List (ℕ × ℕ)}

theorem registersAfter_append {accesses' : List MmioAccess} :
    registersAfter m (accesses ++ accesses') = registersAfter (registersAfter m accesses) accesses' :=
  List.foldl_append

/-- Reads leave the registers as they are. -/
theorem registersAfter_reads : ∀ {ps : List (ℕ × ℕ)} {m : Cells UInt8},
    registersAfter m (ps.map readAt) = m
  | [], _ => rfl
  | _ :: ps, _ => @registersAfter_reads ps _

/-- The bytes of the number that bytes make up. -/
theorem valueBytes_le : ∀ {n a k : ℕ}, k < n → valueBytes (m.le a n) k = m (a + k)
  | n + 1, a, 0, _ => by
    change _ = m a
    have := (m a).toNat_lt
    rw [valueBytes, le, Nat.pow_zero, Nat.div_one, ← UInt8.toNat_inj, UInt8.toNat_ofNat']
    omega
  | n + 1, a, k + 1, h => by
    have hrest := @valueBytes_le n (a + 1) k (by omega)
    have hlt := (m a).toNat_lt
    rw [← Nat.add_assoc, Nat.add_right_comm, ← hrest, valueBytes, valueBytes, le, Nat.pow_succ',
      ← Nat.div_div_eq_div_mul, show ((m a).toNat + 256 * m.le (a + 1) n) / 256 = m.le (a + 1) n by
        omega]

/-- Writes of pieces one behind the other write their range. -/
theorem registersAfter_writes {memory : Cells UInt8} : ∀ {ps : List (ℕ × ℕ)} {b e : ℕ}
    {m : Cells UInt8}, Tiles b ps e → (∀ p ∈ ps, AlignedPiece 2 p) → base ≤ b →
    registersAfter m (ps.map (writeAt memory base buffer))
      = m.write b (e - b) fun k => memory (buffer + (b - base) + k)
  | [], b, e, m, h, _, _ => by
    obtain rfl : b = e := h
    rw [Nat.sub_self, write_zero]
    rfl
  | p :: ps, b, e, m, h, hall, hb => by
    obtain ⟨rfl, hpos, hrest⟩ := h
    have hle := hrest.le
    have hsize := ofSize_size_of_aligned (hall p List.mem_cons_self)
    have hfirst : MmioAccess.apply m (writeAt memory base buffer p)
        = m.write p.1 p.2 fun k => memory (buffer + (p.1 - base) + k) := by
      rw [writeAt, MmioAccess.apply, hsize]
      exact write_congr fun k hk => valueBytes_le hk
    have htail : registersAfter (MmioAccess.apply m (writeAt memory base buffer p))
        (ps.map (writeAt memory base buffer))
          = (MmioAccess.apply m (writeAt memory base buffer p)).write (p.1 + p.2) (e - (p.1 + p.2))
            fun k => memory (buffer + (p.1 + p.2 - base) + k) :=
      registersAfter_writes hrest (fun q hq => hall q (List.mem_cons_of_mem p hq)) (by omega)
    rw [List.map_cons, registersAfter, List.foldl_cons, ← registersAfter, htail, hfirst,
      show e - p.1 = p.2 + (e - (p.1 + p.2)) by omega, ← Cells.write_write]
    refine write_congr fun k _ => ?_
    rw [show buffer + (p.1 + p.2 - base) + k = buffer + (p.1 - base) + (p.2 + k) by omega]

end Registers

section Store

/-- A byte for each configuration address, and the memory the buffers are in. -/
structure ConfigStore where
  config : UInt64 → UInt8
  memory : Cells UInt8

namespace ConfigStore

variable (c : ConfigStore)

/-- The bytes of a range; all ones where no device can be. -/
def bytes (a : UInt64) : Cells UInt8 := fun k =>
  if ConfigRejected a then 0xff else c.config (a + UInt64.ofNat k)

/-- New bytes for a range; dropped where no device can be. -/
def put (a : UInt64) (n : ℕ) (b : Cells UInt8) : ConfigStore :=
  if ConfigRejected a then c
  else { c with config := fun x =>
    if a ≤ x ∧ x.toNat < a.toNat + n then b (x.toNat - a.toNat) else c.config x }

end ConfigStore

inductive PciOp
  | read (width : PciCfgWidth) (address : UInt64)
  | write (width : PciCfgWidth) (address : UInt64) (value : ℕ)
  | modify (width : PciCfgWidth) (address : UInt64) (f : ℕ → ℕ)
  | readBuffer (address : UInt64) (size buffer : ℕ)
  | writeBuffer (address : UInt64) (size buffer : ℕ)

namespace PciOp

def exec (device : MmioDevice) : PciOp → PciState → ℕ × PciState
  | read width address, s => pciSegmentRead device width address s
  | write width address value, s => pciSegmentWrite width address value s
  | modify width address f, s => pciSegmentModify device width address f s
  | readBuffer address size buffer, s => pciSegmentReadBuffer device address size buffer s
  | writeBuffer address size buffer, s => pciSegmentWriteBuffer address size buffer s

/-- What a write of a register returns, and leaves in the store. -/
def specWrite (width : PciCfgWidth) (address : UInt64) (value : ℕ) (c : ConfigStore) :
    ℕ × ConfigStore :=
  (if ConfigRejected address then 256 ^ width.size - 1 else width.cast value,
    c.put address width.size (valueBytes value))

/-- What the operations do to the store. -/
def spec : PciOp → ConfigStore → ℕ × ConfigStore
  | read width address, c => ((c.bytes address).le 0 width.size, c)
  | write width address value, c => specWrite width address value c
  | modify width address f, c =>
    specWrite width address (width.cast (f ((c.bytes address).le 0 width.size))) c
  | readBuffer address size buffer, c =>
    (size, { c with memory := c.memory.write buffer size (c.bytes address) })
  | writeBuffer address size buffer, c =>
    (size, c.put address size fun k => c.memory (buffer + k))

/-- The registers the operation is for are ones of a function of a segment there is. -/
structure InFunction (address : UInt64) (size : ℕ) : Prop where
  valid : ConfigAddress address
  segment : getSegNum address < numPcieController
  range : getRegNum address + size ≤ 0x1000

/-- What the callers promise, and the code asserts. -/
def Allowed : PciOp → Prop
  | read width address => InFunction address width.size ∧ width.size ∣ address.toNat
  | write width address _ => InFunction address width.size ∧ width.size ∣ address.toNat
  | modify width address _ => InFunction address width.size ∧ width.size ∣ address.toNat
  | readBuffer address size buffer => InFunction address size ∧ (size ≠ 0 → buffer ≠ 0)
  | writeBuffer address size buffer => InFunction address size ∧ (size ≠ 0 → buffer ≠ 0)

end PciOp

/-- The values the operations of a run return, and the state after it. -/
def pciRun {σ : Type*} (step : PciOp → σ → ℕ × σ) : List PciOp → σ → List ℕ × σ
  | [], s => ([], s)
  | op :: ops, s =>
    let r := step op s
    let rest := pciRun step ops r.2
    (r.1 :: rest.1, rest.2)

/-- The state is one of the store's. -/
structure PciRefines (m : Cells UInt8) (s : PciState) (c : ConfigStore) : Prop where
  config : ∀ x, ConfigAddress x → ¬ ConfigRejected x →
    registersAfter m s.accesses (pciSegmentLibGetConfigBase x).toNat = c.config x
  memory : s.memory = c.memory
  asserted : s.asserted = false

end Store

section Refinement

variable {m : Cells UInt8} {s : PciState} {c : ConfigStore} {address : UInt64} {size buffer : ℕ}
variable {k : ℕ} {width : PciCfgWidth}

open PciOp

theorem ConfigAddress.add (h : ConfigAddress address) (hk : getRegNum address + k < 0x1000) :
    ConfigAddress (address + UInt64.ofNat k) := by
  obtain ⟨hseg, hbus, -⟩ := fields_add hk
  refine ⟨(reserved_add hk).trans h.reserved, ?_, ?_⟩
  · rw [hseg, hbus]
    exact h.bus_ge
  · rw [hseg, hbus]
    exact h.bus_le

/-- The registers of a range have its bytes. -/
theorem PciRefines.bytes (h : PciRefines m s c) (hin : InFunction address size)
    (hn : ¬ ConfigRejected address) (hk : k < size) :
    registersAfter m s.accesses ((pciSegmentLibGetConfigBase address).toNat + k)
      = c.bytes address k := by
  have hrange := hin.range
  have hreg : getRegNum address + k < 0x1000 := by omega
  rw [← getConfigBase_add hn hreg, h.config _ (hin.valid.add hreg)
    ((configRejected_add hreg).not.2 hn), ConfigStore.bytes, if_neg hn]

/-- New bytes at the registers of a range are new bytes for its addresses, and for no others. -/
theorem PciRefines.put {b : Cells UInt8} {s' : PciState} (h : PciRefines m s c)
    (hin : InFunction address size) (hn : ¬ ConfigRejected address)
    (hafter : registersAfter m s'.accesses = (registersAfter m s.accesses).write
      (pciSegmentLibGetConfigBase address).toNat size b)
    (hmemory : s'.memory = s.memory) (hasserted : s'.asserted = s.asserted) :
    PciRefines m s' (c.put address size b) := by
  have hrange := hin.range
  rw [ConfigStore.put, if_neg hn]
  refine ⟨fun x hx hnx => ?_, hmemory.trans h.memory, hasserted.trans h.asserted⟩
  rw [hafter]
  by_cases hmem : address ≤ x ∧ x.toNat < address.toNat + size
  · have hle : address.toNat ≤ x.toNat := UInt64.le_iff_toNat_le.1 hmem.1
    have hreg : getRegNum address + (x.toNat - address.toNat) < 0x1000 := by omega
    have heq : x = address + UInt64.ofNat (x.toNat - address.toNat) := by
      rw [← UInt64.toNat_inj, toNat_add_of_reg hreg]
      omega
    have hbase : (pciSegmentLibGetConfigBase x).toNat
        = (pciSegmentLibGetConfigBase address).toNat + (x.toNat - address.toNat) := by
      conv_lhs => rw [heq]
      exact getConfigBase_add hn hreg
    change _ = if _ then _ else _
    rw [if_pos hmem, hbase, write_add (by omega)]
  · change _ = if _ then _ else _
    rw [if_neg hmem, ← h.config x hx hnx]
    refine write_of_notMem fun hin' => hmem ?_
    -- a register of the range is one of an address of it
    obtain ⟨k, hk⟩ := Nat.exists_eq_add_of_le hin'.1
    have hreg : getRegNum address + k < 0x1000 := by omega
    have hbase := getConfigBase_add hn hreg
    have heq : x = address + UInt64.ofNat k := getConfigBase_inj hx (hin.valid.add hreg) hnx
      ((configRejected_add hreg).not.2 hn) (by rw [← UInt64.toNat_inj, hbase, hk])
    have hnat := toNat_add_of_reg hreg
    rw [heq, UInt64.le_iff_toNat_le, hnat]
    omega

theorem ConfigStore.bytes_rejected (hr : ConfigRejected address) :
    c.bytes address = fun _ => 0xff := by
  funext k
  exact if_pos hr

theorem le_ones : le (fun _ => 0xff) k width.size = 256 ^ width.size - 1 := by
  cases width <;> simp [le, PciCfgWidth.size]

/-- Reading a register. -/
theorem PciRefines.read (h : PciRefines m s c) (hin : InFunction address width.size)
    (hdvd : width.size ∣ address.toNat) :
    (pciSegmentRead (keepingDevice m) width address s).1 = (c.bytes address).le 0 width.size
      ∧ PciRefines m (pciSegmentRead (keepingDevice m) width address s).2 c := by
  by_cases hr : ConfigRejected address
  · rw [pciSegmentRead_rejected hin.valid.reserved hdvd hin.segment hr,
      ConfigStore.bytes_rejected hr, le_ones]
    exact ⟨rfl, h⟩
  · rw [pciSegmentRead_eq hin.valid.reserved hdvd hr]
    refine ⟨?_, fun x hx hnx => ?_, h.memory, h.asserted⟩
    · rw [mmioRead, keepingDevice, cast_le]
      refine le_congr fun k hk => ?_
      rw [h.bytes hin hr hk, Nat.zero_add]
    · rw [← h.config x hx hnx, mmioRead, registersAfter_append]
      rfl

/-- Writing one. -/
theorem PciRefines.write {value : ℕ} (h : PciRefines m s c)
    (hin : InFunction address width.size) (hdvd : width.size ∣ address.toNat) :
    (pciSegmentWrite width address value s).1 = (specWrite width address value c).1
      ∧ PciRefines m (pciSegmentWrite width address value s).2
        (specWrite width address value c).2 := by
  by_cases hr : ConfigRejected address
  · rw [pciSegmentWrite_rejected hin.valid.reserved hdvd hin.segment hr, specWrite, if_pos hr,
      ConfigStore.put, if_pos hr]
    exact ⟨rfl, h⟩
  · rw [pciSegmentWrite_eq hin.valid.reserved hdvd hr, specWrite, if_neg hr]
    refine ⟨rfl, h.put hin hr ?_ rfl rfl⟩
    rw [mmioWrite, registersAfter_append]
    exact write_congr fun k hk => byte_cast hk

/-- Reading a range. -/
theorem PciRefines.readBuffer (h : PciRefines m s c) (hin : InFunction address size)
    (hbuffer : size ≠ 0 → buffer ≠ 0) :
    (pciSegmentReadBuffer (keepingDevice m) address size buffer s).1 = size
      ∧ PciRefines m (pciSegmentReadBuffer (keepingDevice m) address size buffer s).2
        { c with memory := c.memory.write buffer size (c.bytes address) } := by
  have hreserved := hin.valid.reserved
  refine ⟨pciSegmentBuffer_fst hreserved hin.range hbuffer, ?_⟩
  by_cases hr : ConfigRejected address
  · rw [pciSegmentReadBuffer_rejected hreserved hin.range hbuffer hin.segment hr,
      ConfigStore.bytes_rejected hr, ← h.memory]
    exact ⟨h.config, rfl, h.asserted⟩
  · obtain ⟨hread, hsame⟩ := @pciSegmentReadBuffer_pieces (keepingDevice m) address _ size buffer s
      hreserved hin.range hbuffer hr rfl
    have hps := @fewestPieces_widest (pciSegmentLibGetConfigBase address).toNat size
    refine ⟨fun x hx hnx => ?_, ?_, hread.asserted.trans h.asserted⟩
    · rw [hread.accesses, registersAfter_append, registersAfter_reads]
      exact h.config x hx hnx
    · funext i
      by_cases hi : buffer ≤ i ∧ i < buffer + size
      · obtain ⟨k, rfl⟩ := Nat.exists_eq_add_of_le hi.1
        have hk : k < size := by omega
        obtain ⟨front, p, back, hsplit, hle, hlt⟩ := hps.tiles.exists_piece
          (Nat.le_add_right _ k) (by omega)
        obtain ⟨-, hge, -, hp⟩ := hps.at_piece hsplit
        have hbyte := hread.bytes front p back hsplit
          ((pciSegmentLibGetConfigBase address).toNat + k - p.1) (by omega)
        rw [keepingDevice, registersAfter_append, registersAfter_reads,
          ofSize_size_of_aligned hp] at hbyte
        change _ = c.memory.write buffer size (c.bytes address) (buffer + k)
        rw [write_add hk, ← h.bytes hin hr hk]
        refine Eq.trans ?_ (hbyte.trans ((valueBytes_le (by omega)).trans ?_))
        · congr 1
          omega
        · congr 1
          omega
      · rw [hsame i (by rwa [Set.mem_Ico]), h.memory]
        exact (write_of_notMem hi).symm

/-- Writing one. -/
theorem PciRefines.writeBuffer (h : PciRefines m s c) (hin : InFunction address size)
    (hbuffer : size ≠ 0 → buffer ≠ 0) :
    (pciSegmentWriteBuffer address size buffer s).1 = size
      ∧ PciRefines m (pciSegmentWriteBuffer address size buffer s).2
        (c.put address size fun k => c.memory (buffer + k)) := by
  have hreserved := hin.valid.reserved
  refine ⟨pciSegmentBuffer_fst hreserved hin.range hbuffer, ?_⟩
  by_cases hr : ConfigRejected address
  · rw [pciSegmentWriteBuffer_rejected hreserved hin.range hbuffer hin.segment hr, ConfigStore.put,
      if_pos hr]
    exact h
  · have hwritten := @pciSegmentWriteBuffer_pieces address _ size buffer s hreserved hin.range hbuffer
      hr rfl
    have hps := @fewestPieces_widest (pciSegmentLibGetConfigBase address).toNat size
    refine h.put hin hr ?_ hwritten.memory hwritten.asserted
    rw [hwritten.accesses, registersAfter_append, registersAfter_writes hps.tiles hps.aligned le_rfl,
      Nat.add_sub_cancel_left, Nat.sub_self, h.memory]
    rfl

/-- Each operation returns what the store's does, and leaves a state of it. -/
theorem PciRefines.step (h : PciRefines m s c) (op : PciOp) (hop : op.Allowed) :
    (op.exec (keepingDevice m) s).1 = (op.spec c).1
      ∧ PciRefines m (op.exec (keepingDevice m) s).2 (op.spec c).2 := by
  cases op with
  | read width address => exact h.read hop.1 hop.2
  | write width address value => exact h.write hop.1 hop.2
  | modify width address f =>
    obtain ⟨hvalue, hread⟩ := h.read hop.1 hop.2
    rw [exec, spec, pciSegmentModify, hvalue]
    exact hread.write hop.1 hop.2
  | readBuffer address size buffer => exact h.readBuffer hop.1 hop.2
  | writeBuffer address size buffer => exact h.writeBuffer hop.1 hop.2

theorem PciRefines.run : ∀ {ops : List PciOp} {s : PciState} {c : ConfigStore},
    PciRefines m s c → (∀ op ∈ ops, op.Allowed) →
    (pciRun (exec (keepingDevice m)) ops s).1 = (pciRun spec ops c).1
      ∧ PciRefines m (pciRun (exec (keepingDevice m)) ops s).2 (pciRun spec ops c).2
  | [], _, _, h, _ => ⟨rfl, h⟩
  | op :: ops, _, _, h, hall => by
    obtain ⟨hvalue, hstep⟩ := h.step op (hall op List.mem_cons_self)
    obtain ⟨hvalues, hrest⟩ := hstep.run fun op' hop => hall op' (List.mem_cons_of_mem op hop)
    exact ⟨congrArg₂ List.cons hvalue hvalues, hrest⟩

/-- The store that registers start as. -/
def storeOf (m memory : Cells UInt8) : ConfigStore where
  config x := m (pciSegmentLibGetConfigBase x).toNat
  memory := memory

/-- Over a run, the code and the store return the same values and leave the same memory; no
assertion fails. -/
theorem pciRun_store {memory : Cells UInt8} {ops : List PciOp} (hall : ∀ op ∈ ops, op.Allowed) :
    (pciRun (exec (keepingDevice m)) ops ⟨[], memory, false⟩).1
        = (pciRun spec ops (storeOf m memory)).1
      ∧ PciRefines m (pciRun (exec (keepingDevice m)) ops ⟨[], memory, false⟩).2
        (pciRun spec ops (storeOf m memory)).2 :=
  PciRefines.run ⟨fun _ _ _ => rfl, rfl, rfl⟩ hall

/-- A dword written, and a byte of it read. -/
theorem pciRun_store_byte :
    (pciRun (exec (keepingDevice fun _ => 0))
        [.write .uint32 0x100010 0x12345678, .read .uint8 0x100011] ⟨[], fun _ => 0, false⟩).1
      = (pciRun spec [.write .uint32 0x100010 0x12345678, .read .uint8 0x100011]
        (storeOf (fun _ => 0) fun _ => 0)).1 := by
  refine (pciRun_store fun op hop => ?_).1
  rcases List.mem_cons.1 hop with rfl | hop
  · exact ⟨⟨⟨by decide, by decide, by decide⟩, by decide, by decide⟩, by decide⟩
  · obtain rfl := List.mem_singleton.1 hop
    exact ⟨⟨⟨by decide, by decide, by decide⟩, by decide, by decide⟩, by decide⟩

end Refinement

end Edk2Rk3576
