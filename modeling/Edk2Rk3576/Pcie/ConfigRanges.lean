import Edk2Rk3576.Pcie.ConfigBuffer
import Edk2Rk3576.Lib.Loops

/-!
# The accesses for a range of configuration registers

A range that is read or written takes aligned accesses, one behind the other from the first register
to the last, and as few of them as any aligned accesses of at most 32 bits do. Nothing of the memory
but the buffer is written.
-/

namespace Edk2Rk3576

open Cells

section Pieces

variable {base size : ℕ} {p : ℕ × ℕ}

/-- Aligned accesses that make up a range, and are as few as can be. -/
structure FewestPieces (base size : ℕ) (ps : List (ℕ × ℕ)) : Prop where
  tiles : Tiles base ps (base + size)
  aligned : ∀ p ∈ ps, AlignedPiece 2 p
  /-- No register of the range that could be accessed at once is cut. -/
  covers : ∀ q, AlignedPiece 2 q → base ≤ q.1 → q.1 + q.2 ≤ base + size →
    ∃ p ∈ ps, p.1 ≤ q.1 ∧ q.1 + q.2 ≤ p.1 + p.2
  fewest : ∀ qs, Tiles base qs (base + size) → (∀ q ∈ qs, AlignedPiece 2 q) →
    ps.length ≤ qs.length

theorem fewestPieces_widest : FewestPieces base size (pieces (widest 2) size base size) where
  tiles := tiles_widest le_rfl
  aligned _ := alignedPiece_of_mem
  covers _ := exists_piece_of_aligned le_rfl
  fewest _ := length_pieces_widest_le le_rfl

theorem ofSize_size_of_aligned (h : AlignedPiece 2 p) : (PciCfgWidth.ofSize p.2).size = p.2 := by
  obtain ⟨j, hj, hwidth, -⟩ := h
  rw [hwidth]
  obtain rfl | rfl | rfl : j = 0 ∨ j = 1 ∨ j = 2 := by omega
  all_goals rfl

end Pieces

section Units

/-- The registers of the pieces, by where they are on the bus: the one at `base` is that of `a`. -/
def pciUnitsAt (unit : PciUnit) (a : UInt64) (base buffer : ℕ) (ps : List (ℕ × ℕ)) (s : PciState) :
    PciState :=
  ps.foldl (fun s p => unit (PciCfgWidth.ofSize p.2) (a + UInt64.ofNat (p.1 - base))
    (buffer + (p.1 - base)) s) s

variable {unit : PciUnit} {device : MmioDevice} {width : PciCfgWidth} {a : UInt64}
variable {base size buffer k : ℕ} {s : PciState} {p : ℕ × ℕ} {ps front back : List (ℕ × ℕ)}

/-- The pieces are the same on the bus as in the configuration space: both start at the same place
of a page. -/
theorem pciUnits_eq_at (hbase : base % 0x1000 = getRegNum a) :
    pciUnits unit a.toNat buffer (pieces (widest 2) size a.toNat size) s
      = pciUnitsAt unit a base buffer (pieces (widest 2) size base size) s := by
  rw [getRegNum_eq] at hbase
  obtain ⟨x, hx⟩ : ∃ x, a.toNat = a.toNat % 2 ^ 12 + 2 ^ 2 * x :=
    ⟨a.toNat / 2 ^ 12 * 2 ^ 10, by omega⟩
  obtain ⟨y, hy⟩ : ∃ y, base = a.toNat % 2 ^ 12 + 2 ^ 2 * y := ⟨base / 0x1000 * 2 ^ 10, by omega⟩
  generalize a.toNat % 2 ^ 12 = r at hx hy
  have hpieces : pieces (widest 2) size a.toNat size
      = (pieces (widest 2) size r size).map fun p => (p.1 + 2 ^ 2 * x, p.2) := by
    rw [hx]
    exact pieces_widest_add (Nat.dvd_mul_right _ _)
  have hpieces' : pieces (widest 2) size base size
      = (pieces (widest 2) size r size).map fun p => (p.1 + 2 ^ 2 * y, p.2) := by
    rw [hy]
    exact pieces_widest_add (Nat.dvd_mul_right _ _)
  rw [pciUnits, pciUnitsAt, hpieces, hpieces', List.foldl_map, List.foldl_map]
  refine List.foldl_ext _ _ _ fun s p hp => ?_
  have hge := ((@tiles_widest 2 r size size le_rfl).mem_bounds hp).1
  rw [show p.1 + 2 ^ 2 * x - a.toNat = p.1 - r by omega,
    show p.1 + 2 ^ 2 * y - base = p.1 - r by omega,
    show p.1 + 2 ^ 2 * x = a.toNat + (p.1 - r) by omega, UInt64.ofNat_add, UInt64.ofNat_toNat]

theorem pciSegmentBuffer_eq_at (hreserved : a &&& 0xffff0000f0000000 = 0)
    (hrange : getRegNum a + size ≤ 0x1000) (hbuffer : size ≠ 0 → buffer ≠ 0)
    (hbase : base % 0x1000 = getRegNum a) :
    pciSegmentBuffer unit a size buffer s
      = (size, pciUnitsAt unit a base buffer (pieces (widest 2) size base size) s) := by
  rw [pciSegmentBuffer_eq hreserved hrange hbuffer, pciUnits_eq_at hbase]

/-- What is returned is how many bytes were asked for. -/
theorem pciSegmentBuffer_fst (hreserved : a &&& 0xffff0000f0000000 = 0)
    (hrange : getRegNum a + size ≤ 0x1000) (hbuffer : size ≠ 0 → buffer ≠ 0) :
    (pciSegmentBuffer unit a size buffer s).1 = size := by
  rw [pciSegmentBuffer_eq hreserved hrange hbuffer]

/-- The address of a piece has no reserved bit, and is a multiple of the piece's width. -/
theorem piece_address (hreserved : a &&& 0xffff0000f0000000 = 0)
    (hrange : getRegNum a + size ≤ 0x1000) (hbase : base % 0x1000 = getRegNum a)
    (hge : base ≤ p.1) (hle : p.1 + p.2 ≤ base + size) (hp : AlignedPiece 2 p) :
    getRegNum a + (p.1 - base) < 0x1000
      ∧ (a + UInt64.ofNat (p.1 - base)) &&& 0xffff0000f0000000 = 0
      ∧ (PciCfgWidth.ofSize p.2).size ∣ (a + UInt64.ofNat (p.1 - base)).toNat := by
  obtain ⟨j, hj, hwidth, hdvd⟩ := hp
  have hpos := Nat.two_pow_pos j
  have hk : getRegNum a + (p.1 - base) < 0x1000 := by omega
  refine ⟨hk, (reserved_add hk).trans hreserved, ?_⟩
  rw [ofSize_size_of_aligned ⟨j, hj, hwidth, hdvd⟩, toNat_add_of_reg hk, hwidth]
  rw [getRegNum_eq] at hbase
  obtain rfl | rfl | rfl : j = 0 ∨ j = 1 ∨ j = 2 := by omega
  all_goals omega

/-- The bytes `store` writes. -/
def valueBytes (value : ℕ) : Cells UInt8 := fun k => UInt8.ofNat (value / 256 ^ k)

theorem pciReadUnit_eq (hreserved : a &&& 0xffff0000f0000000 = 0) (halign : width.size ∣ a.toNat)
    (hn : ¬ ConfigRejected a) : pciReadUnit device width a buffer s
      = { s with
          accesses := s.accesses ++ [.read (pciSegmentLibGetConfigBase a).toNat width]
          memory := s.memory.write buffer width.size (valueBytes (width.cast
            (device s.accesses (pciSegmentLibGetConfigBase a).toNat width))) } := by
  rw [pciReadUnit, pciSegmentRead_eq hreserved halign hn]
  rfl

theorem pciReadUnit_rejected (hreserved : a &&& 0xffff0000f0000000 = 0)
    (halign : width.size ∣ a.toNat) (hseg : getSegNum a < numPcieController)
    (h : ConfigRejected a) : pciReadUnit device width a buffer s
      = { s with memory := s.memory.fill buffer width.size 0xff } := by
  rw [pciReadUnit, pciSegmentRead_rejected hreserved halign hseg h]
  have hbytes : ∀ k < width.size, valueBytes (256 ^ width.size - 1) k = 0xff := by
    cases width <;> decide
  have hwrite : s.memory.write buffer width.size (valueBytes (256 ^ width.size - 1))
      = s.memory.write buffer width.size fun _ => 0xff := write_congr hbytes
  exact congrArg (fun m => { s with memory := m }) hwrite

theorem cast_le {m : Cells UInt8} : width.cast (m.le k width.size) = m.le k width.size :=
  Nat.mod_eq_of_lt (le_lt _ _)

theorem pciWriteUnit_eq (hreserved : a &&& 0xffff0000f0000000 = 0) (halign : width.size ∣ a.toNat)
    (hn : ¬ ConfigRejected a) : pciWriteUnit width a buffer s
      = { s with accesses := s.accesses ++ [.write (pciSegmentLibGetConfigBase a).toNat width
          (s.memory.le buffer width.size)] } := by
  rw [pciWriteUnit, pciSegmentWrite_eq hreserved halign hn, mmioWrite, cast_le]

theorem pciWriteUnit_rejected (hreserved : a &&& 0xffff0000f0000000 = 0)
    (halign : width.size ∣ a.toNat) (hseg : getSegNum a < numPcieController)
    (h : ConfigRejected a) : pciWriteUnit width a buffer s = s := by
  rw [pciWriteUnit, pciSegmentWrite_rejected hreserved halign hseg h]

end Units

section Ranges

variable {device : MmioDevice} {a : UInt64} {base size buffer : ℕ} {s s' : PciState}
variable {ps : List (ℕ × ℕ)}

/-- The read of a piece. -/
def readAt (p : ℕ × ℕ) : MmioAccess := .read p.1 (PciCfgWidth.ofSize p.2)

/-- The write of a piece, from the buffer. -/
def writeAt (memory : Cells UInt8) (base buffer : ℕ) (p : ℕ × ℕ) : MmioAccess :=
  .write p.1 (PciCfgWidth.ofSize p.2) (memory.le (buffer + (p.1 - base)) p.2)

/-- The pieces have been read into the buffer. -/
structure PiecesRead (device : MmioDevice) (base buffer : ℕ) (s : PciState) (ps : List (ℕ × ℕ))
    (s' : PciState) : Prop where
  accesses : s'.accesses = s.accesses ++ ps.map readAt
  asserted : s'.asserted = s.asserted
  /-- Each byte is one of the answer to the access it belongs to. -/
  bytes : ∀ front p back, ps = front ++ p :: back → ∀ k < p.2,
    s'.memory (buffer + (p.1 - base) + k)
      = UInt8.ofNat (device (s.accesses ++ front.map readAt) p.1 (PciCfgWidth.ofSize p.2) / 256 ^ k)

/-- The pieces have been written from the buffer. -/
structure PiecesWritten (base buffer : ℕ) (s : PciState) (ps : List (ℕ × ℕ)) (s' : PciState) :
    Prop where
  accesses : s'.accesses = s.accesses ++ ps.map (writeAt s.memory base buffer)
  memory : s'.memory = s.memory
  asserted : s'.asserted = s.asserted

/-- The conversion to the width drops no byte of it. -/
theorem byte_cast {width : PciCfgWidth} {value k : ℕ} (hk : k < width.size) :
    UInt8.ofNat (width.cast value / 256 ^ k) = UInt8.ofNat (value / 256 ^ k) := by
  rw [← UInt8.toNat_inj, UInt8.toNat_ofNat', UInt8.toNat_ofNat', PciCfgWidth.cast]
  obtain ⟨d, hd⟩ := Nat.exists_eq_add_of_lt hk
  rw [hd, Nat.add_assoc, Nat.pow_add, Nat.mod_mul_right_div_self]
  exact Nat.mod_mod_of_dvd _ (Dvd.intro_left (256 ^ d) rfl)

/-- A piece of a range, and those before it. -/
theorem FewestPieces.at_piece {front back : List (ℕ × ℕ)} {p : ℕ × ℕ}
    (h : FewestPieces base size ps) (hps : ps = front ++ p :: back) :
    Tiles base front p.1 ∧ base ≤ p.1 ∧ p.1 + p.2 ≤ base + size ∧ AlignedPiece 2 p := by
  have htiles := h.tiles
  have hmem : p ∈ ps := hps ▸ List.mem_append_right front List.mem_cons_self
  obtain ⟨hge, hle⟩ := htiles.mem_bounds hmem
  rw [hps] at htiles
  exact ⟨htiles.before, hge, hle, h.aligned p hmem⟩

/-- Reading the pieces one after the other. -/
theorem pciUnitsAt_read (hreserved : a &&& 0xffff0000f0000000 = 0)
    (hrange : getRegNum a + size ≤ 0x1000) (hn : ¬ ConfigRejected a)
    (hbase : (pciSegmentLibGetConfigBase a).toNat = base) (h : FewestPieces base size ps) :
    PiecesRead device base buffer s ps (pciUnitsAt (pciReadUnit device) a base buffer ps s)
      ∧ SameOutside s.memory (pciUnitsAt (pciReadUnit device) a base buffer ps s).memory
        (Set.Ico buffer (buffer + size)) := by
  refine foldl_invariant (fun done s' => PiecesRead device base buffer s done s'
    ∧ SameOutside s.memory s'.memory (Set.Ico buffer (buffer + size))) ?_ ?_
  · refine ⟨⟨(List.append_nil _).symm, rfl, fun front p back hnil => ?_⟩, SameOutside.refl⟩
    exact absurd hnil.symm (by simp)
  · intro front p back s' hps ⟨hread, hsame⟩
    obtain ⟨hfront, hge, hle, hp⟩ := h.at_piece hps
    obtain ⟨hk, hres, hdvd⟩ := piece_address hreserved hrange
      (hbase ▸ getConfigBase_mod hn) hge hle hp
    have hn' := (configRejected_add hk).not.2 hn
    have haddress : (pciSegmentLibGetConfigBase (a + UInt64.ofNat (p.1 - base))).toNat = p.1 := by
      rw [getConfigBase_add hn hk, hbase]
      omega
    rw [pciReadUnit_eq hres hdvd hn', haddress]
    have hsize := ofSize_size_of_aligned hp
    refine ⟨⟨?_, hread.asserted, fun front₁ q back₁ hsplit k hkq => ?_⟩, fun i hi => ?_⟩
    · rw [hread.accesses, List.map_append, List.append_assoc]
      rfl
    · rcases List.eq_nil_or_concat back₁ with rfl | ⟨back₁, x, rfl⟩
      · -- the piece just read
        obtain ⟨rfl, hpq⟩ := List.append_inj' hsplit rfl
        obtain rfl : p = q := List.singleton_inj.1 hpq
        rw [← hread.accesses]
        exact (write_add (by omega)).trans (byte_cast (by omega))
      · -- one before it, which ends where the piece starts or before
        rw [List.concat_eq_append, ← List.cons_append, ← List.append_assoc] at hsplit
        have hfront₁ := (List.append_inj' hsplit rfl).1
        have hq := hfront.mem_bounds (hfront₁ ▸ List.mem_append_right front₁ List.mem_cons_self)
        rw [← hread.bytes front₁ q back₁ hfront₁ k hkq]
        exact write_of_notMem (by omega)
    · refine (write_of_notMem ?_).trans (hsame i hi)
      rw [Set.mem_Ico] at hi
      omega

/-- Writing them. -/
theorem pciUnitsAt_write (hreserved : a &&& 0xffff0000f0000000 = 0)
    (hrange : getRegNum a + size ≤ 0x1000) (hn : ¬ ConfigRejected a)
    (hbase : (pciSegmentLibGetConfigBase a).toNat = base) (h : FewestPieces base size ps) :
    PiecesWritten base buffer s ps (pciUnitsAt pciWriteUnit a base buffer ps s) := by
  refine foldl_invariant (fun done s' => PiecesWritten base buffer s done s') ?_ ?_
  · exact ⟨(List.append_nil _).symm, rfl, rfl⟩
  · intro front p back s' hps hwritten
    obtain ⟨-, hge, hle, hp⟩ := h.at_piece hps
    obtain ⟨hk, hres, hdvd⟩ := piece_address hreserved hrange
      (hbase ▸ getConfigBase_mod hn) hge hle hp
    have hn' := (configRejected_add hk).not.2 hn
    have haddress : (pciSegmentLibGetConfigBase (a + UInt64.ofNat (p.1 - base))).toNat = p.1 := by
      rw [getConfigBase_add hn hk, hbase]
      omega
    rw [pciWriteUnit_eq hres hdvd hn', haddress, ofSize_size_of_aligned hp]
    refine ⟨?_, hwritten.memory, hwritten.asserted⟩
    rw [hwritten.accesses, hwritten.memory, List.map_append, List.append_assoc]
    rfl

/-- A range where no device can be is read as all ones. -/
theorem pciUnitsAt_read_rejected (hreserved : a &&& 0xffff0000f0000000 = 0)
    (hrange : getRegNum a + size ≤ 0x1000) (hseg : getSegNum a < numPcieController)
    (hr : ConfigRejected a) (hbase : base % 0x1000 = getRegNum a) (h : FewestPieces base size ps) :
    pciUnitsAt (pciReadUnit device) a base buffer ps s
      = { s with memory := s.memory.fill buffer size 0xff } := by
  suffices hfill : ∀ b, Tiles base ps b → pciUnitsAt (pciReadUnit device) a base buffer ps s
      = { s with memory := s.memory.fill buffer (b - base) 0xff } from
    (hfill _ h.tiles).trans (by rw [Nat.add_sub_cancel_left])
  refine foldl_invariant (fun done s' => ∀ b, Tiles base done b →
    s' = { s with memory := s.memory.fill buffer (b - base) 0xff }) ?_ ?_
  · intro b hb
    obtain rfl : base = b := hb
    rw [Nat.sub_self, fill, modify_zero]
  · intro front p back s' hps hdone b hb
    obtain ⟨hfront, hge, hle, hp⟩ := h.at_piece hps
    obtain ⟨hk, hres, hdvd⟩ := piece_address hreserved hrange hbase hge hle hp
    have hr' := (configRejected_add hk).2 hr
    have hseg' : getSegNum (a + UInt64.ofNat (p.1 - base)) < numPcieController := by
      rwa [(fields_add hk).1]
    have hend : p.1 + p.2 = b := hb.after
    rw [pciReadUnit_rejected hres hdvd hseg' hr', hdone _ hfront, ofSize_size_of_aligned hp]
    congr 1
    rw [fill_fill, show p.1 - base + p.2 = b - base by omega]

/-- A write of one is dropped. -/
theorem pciUnitsAt_write_rejected (hreserved : a &&& 0xffff0000f0000000 = 0)
    (hrange : getRegNum a + size ≤ 0x1000) (hseg : getSegNum a < numPcieController)
    (hr : ConfigRejected a) (hbase : base % 0x1000 = getRegNum a) (h : FewestPieces base size ps) :
    pciUnitsAt pciWriteUnit a base buffer ps s = s := by
  refine foldl_invariant (fun _ s' => s' = s) rfl ?_
  intro front p back s' hps hsame
  obtain ⟨-, hge, hle, hp⟩ := h.at_piece hps
  obtain ⟨hk, hres, hdvd⟩ := piece_address hreserved hrange hbase hge hle hp
  have hr' := (configRejected_add hk).2 hr
  have hseg' : getSegNum (a + UInt64.ofNat (p.1 - base)) < numPcieController := by
    rwa [(fields_add hk).1]
  rw [pciWriteUnit_rejected hres hdvd hseg' hr', hsame]

theorem pciSegmentReadBuffer_rejected (hreserved : a &&& 0xffff0000f0000000 = 0)
    (hrange : getRegNum a + size ≤ 0x1000) (hbuffer : size ≠ 0 → buffer ≠ 0)
    (hseg : getSegNum a < numPcieController) (hr : ConfigRejected a) :
    (pciSegmentReadBuffer device a size buffer s).2
      = { s with memory := s.memory.fill buffer size 0xff } := by
  have hbase : getRegNum a % 0x1000 = getRegNum a := Nat.mod_eq_of_lt getRegNum_lt
  rw [pciSegmentReadBuffer, pciSegmentBuffer_eq_at hreserved hrange hbuffer hbase]
  exact pciUnitsAt_read_rejected hreserved hrange hseg hr hbase fewestPieces_widest

theorem pciSegmentWriteBuffer_rejected (hreserved : a &&& 0xffff0000f0000000 = 0)
    (hrange : getRegNum a + size ≤ 0x1000) (hbuffer : size ≠ 0 → buffer ≠ 0)
    (hseg : getSegNum a < numPcieController) (hr : ConfigRejected a) :
    (pciSegmentWriteBuffer a size buffer s).2 = s := by
  have hbase : getRegNum a % 0x1000 = getRegNum a := Nat.mod_eq_of_lt getRegNum_lt
  rw [pciSegmentWriteBuffer, pciSegmentBuffer_eq_at hreserved hrange hbuffer hbase]
  exact pciUnitsAt_write_rejected hreserved hrange hseg hr hbase fewestPieces_widest

theorem pciSegmentReadBuffer_pieces (hreserved : a &&& 0xffff0000f0000000 = 0)
    (hrange : getRegNum a + size ≤ 0x1000) (hbuffer : size ≠ 0 → buffer ≠ 0)
    (hn : ¬ ConfigRejected a) (hbase : (pciSegmentLibGetConfigBase a).toNat = base) :
    PiecesRead device base buffer s (pieces (widest 2) size base size)
        (pciSegmentReadBuffer device a size buffer s).2
      ∧ SameOutside s.memory (pciSegmentReadBuffer device a size buffer s).2.memory
        (Set.Ico buffer (buffer + size)) := by
  rw [pciSegmentReadBuffer,
    pciSegmentBuffer_eq_at hreserved hrange hbuffer (hbase ▸ getConfigBase_mod hn)]
  exact pciUnitsAt_read hreserved hrange hn hbase fewestPieces_widest

theorem pciSegmentWriteBuffer_pieces (hreserved : a &&& 0xffff0000f0000000 = 0)
    (hrange : getRegNum a + size ≤ 0x1000) (hbuffer : size ≠ 0 → buffer ≠ 0)
    (hn : ¬ ConfigRejected a) (hbase : (pciSegmentLibGetConfigBase a).toNat = base) :
    PiecesWritten base buffer s (pieces (widest 2) size base size)
      (pciSegmentWriteBuffer a size buffer s).2 := by
  rw [pciSegmentWriteBuffer,
    pciSegmentBuffer_eq_at hreserved hrange hbuffer (hbase ▸ getConfigBase_mod hn)]
  exact pciUnitsAt_write hreserved hrange hn hbase fewestPieces_widest

/-- What the accesses for a range of a function are: as few as can be, each aligned, one behind the
other; no assertion fails, and nothing but the buffer is written. -/
theorem pciSegmentBuffer_accesses (hreserved : a &&& 0xffff0000f0000000 = 0)
    (hrange : getRegNum a + size ≤ 0x1000) (hbuffer : size ≠ 0 → buffer ≠ 0)
    (hn : ¬ ConfigRejected a) :
    ∃ ps, FewestPieces (pciSegmentLibGetConfigBase a).toNat size ps
      ∧ PiecesRead device (pciSegmentLibGetConfigBase a).toNat buffer s ps
        (pciSegmentReadBuffer device a size buffer s).2
      ∧ SameOutside s.memory (pciSegmentReadBuffer device a size buffer s).2.memory
        (Set.Ico buffer (buffer + size))
      ∧ PiecesWritten (pciSegmentLibGetConfigBase a).toNat buffer s ps
        (pciSegmentWriteBuffer a size buffer s).2 := by
  obtain ⟨hread, hsame⟩ := pciSegmentReadBuffer_pieces hreserved hrange hbuffer hn rfl
  exact ⟨_, fewestPieces_widest, hread, hsame,
    pciSegmentWriteBuffer_pieces hreserved hrange hbuffer hn rfl⟩

/-- Fourteen registers of the second bus, from an odd one on. -/
theorem pciSegmentBuffer_accesses_odd :
    ∃ ps, FewestPieces (pciSegmentLibGetConfigBase 0x100011).toNat 14 ps
      ∧ PiecesRead (fun _ _ _ => 7) (pciSegmentLibGetConfigBase 0x100011).toNat 1
        ⟨[], fun _ => 0, false⟩ ps
        (pciSegmentReadBuffer (fun _ _ _ => 7) 0x100011 14 1 ⟨[], fun _ => 0, false⟩).2 := by
  obtain ⟨ps, hps, hread, -⟩ := @pciSegmentBuffer_accesses (fun _ _ _ => 7) 0x100011 14 1
    ⟨[], fun _ => 0, false⟩ (by decide) (by decide) (by decide) (by decide)
  exact ⟨ps, hps, hread⟩

end Ranges

end Edk2Rk3576
