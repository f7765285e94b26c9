import Edk2Rk3576.DwMmc.Registers
import Edk2Rk3576.Lib.Chains
import Mathlib.Algebra.GroupWithZero.Nat

/-!
# The descriptors of an eMMC transfer

`BuildDmaDescTable` cuts a buffer into pieces of 4096 bytes, one for each descriptor, and chains the
descriptors by the addresses at which the controller sees them, which have 32 bits. The number of
descriptors comes from the length itself, the byte count and the size of the last piece from the
length in whole blocks.
-/

namespace Edk2Rk3576.DwMmc

/-- `DWMMC_DMA_BUF_SIZE`. -/
def dwmmcDmaBufSize : ℕ := 512 * 8

/-- `sizeof (DW_MMC_HC_DMA_DESC_LINE)`. -/
def dmaDescLineSize : ℕ := 16

/-- `DW_MMC_HC_DMA_DESC_LINE`, four words of 32 bits. -/
structure DmaDescLine where
  des0 : BitVec 32
  des1 : ℕ
  des2 : ℕ
  des3 : ℕ

def idmacDes0Dic : BitVec 32 := 1 <<< 1
def idmacDes0Ld : BitVec 32 := 1 <<< 2
def idmacDes0Fs : BitVec 32 := 1 <<< 3
def idmacDes0Ch : BitVec 32 := 1 <<< 4
def idmacDes0Own : BitVec 32 := 1 <<< 31

/-- `DW_MMC_IDMAC_DES1_BS1`, the 13 bits of a size. -/
def idmacDes1Bs1 (x : ℕ) : ℕ := x % 2 ^ 13

/-- What `DmaAllocateBuffer` and `DmaMap` do: an allocation of so many pages, and a mapping of so
many bytes, with how many of them it has mapped and at which address. -/
structure DmaEnv where
  allocateBuffer : ℕ → Bool
  map : ℕ → Option (ℕ × UInt64)

/-- The registers and the table that the function leaves. -/
structure DmaDescTable where
  dmaDescPhy : ℕ
  blkSiz : ℕ
  bytCnt : ℕ
  dbAddr : ℕ
  lines : List DmaDescLine

/-- `EFI_SIZE_TO_PAGES`. -/
def efiSizeToPages (size : ℕ) : ℕ := (size + 0xFFF) / 0x1000

def entries (len : ℕ) : ℕ := (len + dwmmcDmaBufSize - 1) / dwmmcDmaBufSize

def blocks (len : ℕ) : ℕ := (len + dwMmcBlockSize - 1) / dwMmcBlockSize

/-- What `BYTCNT` is set to, and the remainder before the loop. -/
def byteCount (len : ℕ) : ℕ := if len < dwMmcBlockSize then len else dwMmcBlockSize * blocks len

/-- A pass of the loop. -/
def buildLine (dataPhy dmaDescPhy index : ℕ) : DmaDescLine where
  des0 := idmacDes0Own ||| idmacDes0Ch ||| idmacDes0Dic
  des1 := idmacDes1Bs1 dwmmcDmaBufSize
  des2 := toUint32 (dataPhy + dwmmcDmaBufSize * index)
  des3 := toUint32 (dmaDescPhy + dmaDescLineSize * (index + 1))

/-- The remainder after the loop, which takes a whole piece off it in the last pass too. -/
def remaining : (passes : ℕ) → UInt64 → UInt64
  | 0, r => r
  | passes + 1, r => remaining passes (r - UInt64.ofNat dwmmcDmaBufSize)

def patchFirst (line : DmaDescLine) : DmaDescLine := { line with des0 := line.des0 ||| idmacDes0Fs }

def patchLast (remaining : UInt64) (line : DmaDescLine) : DmaDescLine where
  des0 := line.des0 &&& ~~~(idmacDes0Ch ||| idmacDes0Dic) ||| (idmacDes0Own ||| idmacDes0Ld)
  des1 := idmacDes1Bs1 (remaining + UInt64.ofNat dwmmcDmaBufSize).toNat
  des2 := line.des2
  des3 := 0

/-- `BuildDmaDescTable`. -/
def buildDmaDescTable (dma : DmaEnv) (dataPhy : UInt64) (dataLen : UInt32) :
    Except EfiStatus DmaDescTable :=
  let data := dataPhy.toNat
  let len := dataLen.toNat
  if 0x100000000 ≤ data ∨ 0x100000000 < (dataPhy + dataLen.toUInt64).toNat then
    .error efiInvalidParameter
  else
    let tableSize := entries len * dmaDescLineSize
    if dma.allocateBuffer (efiSizeToPages tableSize) then
      match dma.map tableSize with
      | none => .error efiOutOfResources
      | some (bytes, dmaDescPhy) =>
        if bytes ≠ tableSize then .error efiOutOfResources
        else if dmaDescPhy.toNat > 0x100000000 then .error efiDeviceError
        else
          let lines := (List.range (entries len)).map (buildLine data dmaDescPhy.toNat)
          .ok
            { dmaDescPhy := dmaDescPhy.toNat
              blkSiz := if len < dwMmcBlockSize then len else dwMmcBlockSize
              bytCnt := toUint32 (byteCount len)
              dbAddr := toUint32 dmaDescPhy.toNat
              lines := (lines.modify 0 patchFirst).modify (entries len - 1)
                (patchLast (remaining (entries len) (UInt64.ofNat (byteCount len)))) }
    else .error efiOutOfResources

/-! What the controller makes of a table. -/

/-- The line at an address, and the address of the next one if it is chained. -/
def DmaDescTable.lineAt (t : DmaDescTable) (address : ℕ) : Option (DmaDescLine × Option ℕ) :=
  if t.dmaDescPhy ≤ address ∧ (address - t.dmaDescPhy) % dmaDescLineSize = 0 then
    t.lines[(address - t.dmaDescPhy) / dmaDescLineSize]?.map fun line =>
      (line, if line.des0 &&& idmacDes0Ch = 0 then none else some line.des3)
  else none

/-- The buffers of the lines are one behind the other, from `start` on, `len` bytes in all. -/
def BuffersCover : List DmaDescLine → (start len : ℕ) → Prop
  | [], _, len => len = 0
  | line :: lines, start, len =>
    line.des2 = start ∧ line.des1 ≤ len ∧ BuffersCover lines (start + line.des1) (len - line.des1)

/-- A flag that the line at one index has, and no other. -/
def FlagOnlyAt (flag : BitVec 32) (lines : List DmaDescLine) (index : ℕ) : Prop :=
  ∀ i (h : i < lines.length), lines[i].des0 &&& flag ≠ 0 ↔ i = index

/-- The chain from `DBADDR` ends, and takes the buffer byte for byte. -/
def DmaDescTable.Transfers (t : DmaDescTable) (dataPhy dataLen : ℕ) : Prop :=
  ∃ fuel lines, follow t.lineAt fuel t.dbAddr = some lines ∧ BuffersCover lines dataPhy dataLen ∧
    FlagOnlyAt idmacDes0Fs lines 0 ∧ FlagOnlyAt idmacDes0Ld lines (lines.length - 1) ∧
    (∀ line ∈ lines, line.des1 < 2 ^ 13) ∧ t.bytCnt = (lines.map DmaDescLine.des1).sum

/-! The lines, as numbers of the request. -/

theorem byteCount_eq_iff {len : ℕ} : byteCount len = len ↔ len < 512 ∨ 512 ∣ len := by
  rw [byteCount, blocks, dwMmcBlockSize]
  split
  · next h => simp [h]
  · next h =>
    constructor
    · intro heq
      exact .inr ⟨_, heq.symm⟩
    · rintro (hlt | ⟨k, rfl⟩)
      · exact absurd hlt h
      · omega

theorem le_byteCount (len : ℕ) : len ≤ byteCount len := by
  rw [byteCount, blocks, dwMmcBlockSize]
  split <;> omega

theorem byteCount_le (len : ℕ) : byteCount len ≤ 4096 * entries len := by
  rw [byteCount, blocks, dwMmcBlockSize, entries, dwmmcDmaBufSize]
  split <;> omega

/-- The remainder, with the piece that was too much put back. -/
theorem remaining_add {n : ℕ} {r : UInt64} (hn : 0 < n) (hle : 4096 * (n - 1) ≤ r.toNat) :
    (remaining n r + UInt64.ofNat dwmmcDmaBufSize).toNat = r.toNat - 4096 * (n - 1) := by
  induction n generalizing r with
  | zero => omega
  | succ n ih =>
    rw [remaining]
    rcases Nat.eq_zero_or_pos n with rfl | hpos
    · rw [remaining, UInt64.sub_add_cancel]
      omega
    · have hsub : (r - UInt64.ofNat dwmmcDmaBufSize).toNat = r.toNat - 4096 :=
        UInt64.toNat_sub_of_le _ _ (by
          rw [UInt64.le_iff_toNat_le, dwmmcDmaBufSize]
          exact (show (4096 : ℕ) ≤ r.toNat by omega))
      rw [ih hpos (by omega), hsub]
      omega

/-- A line of the table that is left. -/
def descLine (dataPhy dmaDescPhy len index : ℕ) : DmaDescLine :=
  let line := buildLine dataPhy dmaDescPhy index
  let line := if index = 0 then patchFirst line else line
  if index = entries len - 1 then
    patchLast (remaining (entries len) (UInt64.ofNat (byteCount len))) line
  else line

section DescLine

variable {dataPhy dmaDescPhy len index : ℕ}

theorem descLine_des2 : (descLine dataPhy dmaDescPhy len index).des2 =
    toUint32 (dataPhy + 4096 * index) := by
  rw [descLine]
  split <;> split <;> rfl

theorem descLine_des3 (h : index ≠ entries len - 1) :
    (descLine dataPhy dmaDescPhy len index).des3 = toUint32 (dmaDescPhy + 16 * (index + 1)) := by
  rw [descLine, if_neg h]
  split <;> rfl

theorem descLine_des1 (h : index ≠ entries len - 1) :
    (descLine dataPhy dmaDescPhy len index).des1 = 4096 := by
  rw [descLine, if_neg h]
  split <;> rfl

theorem descLine_des1_lt : (descLine dataPhy dmaDescPhy len index).des1 < 2 ^ 13 := by
  rw [descLine]
  split
  · exact Nat.mod_lt _ (by decide)
  · split <;> exact Nat.mod_lt _ (by decide)

/-- The last piece goes up to the end of the last block. -/
theorem descLine_des1_last (hpos : 0 < len) (hlen : len < 2 ^ 32) :
    (descLine dataPhy dmaDescPhy len (entries len - 1)).des1 =
      byteCount len - 4096 * (entries len - 1) := by
  have hle := byteCount_le len
  have hge := le_byteCount len
  have hentries : 4096 * (entries len - 1) ≤ len ∧ 0 < entries len ∧ entries len ≤ 2 ^ 20 := by
    rw [entries, dwmmcDmaBufSize]
    omega
  have hnat : (UInt64.ofNat (byteCount len)).toNat = byteCount len :=
    UInt64.toNat_ofNat_of_lt' (by rw [UInt64.size]; omega)
  rw [descLine, if_pos rfl]
  rw [show ∀ r line, (patchLast r line).des1 =
    (r + UInt64.ofNat dwmmcDmaBufSize).toNat % 2 ^ 13 from fun _ _ => rfl,
    remaining_add hentries.2.1 (by omega), hnat]
  omega

/-- The flags of a line, by its place. -/
def lineFlags (first last : Bool) : BitVec 32 :=
  let flags := idmacDes0Own ||| idmacDes0Ch ||| idmacDes0Dic
  let flags := if first then flags ||| idmacDes0Fs else flags
  if last then flags &&& ~~~(idmacDes0Ch ||| idmacDes0Dic) ||| (idmacDes0Own ||| idmacDes0Ld)
  else flags

theorem lineFlags_chained : ∀ first last, lineFlags first last &&& idmacDes0Ch = 0 ↔ last := by
  decide

theorem lineFlags_first : ∀ first last, lineFlags first last &&& idmacDes0Fs ≠ 0 ↔ first := by
  decide

theorem lineFlags_last : ∀ first last, lineFlags first last &&& idmacDes0Ld ≠ 0 ↔ last := by
  decide

theorem descLine_des0 : (descLine dataPhy dmaDescPhy len index).des0 =
    lineFlags (decide (index = 0)) (decide (index = entries len - 1)) := by
  rw [descLine, lineFlags]
  simp only [decide_eq_true_eq]
  split <;> split <;> rfl

end DescLine

theorem lines_eq {dataPhy dmaDescPhy len : ℕ} :
    (((List.range (entries len)).map (buildLine dataPhy dmaDescPhy)).modify 0 patchFirst).modify
        (entries len - 1) (patchLast (remaining (entries len) (UInt64.ofNat (byteCount len)))) =
      (List.range (entries len)).map (descLine dataPhy dmaDescPhy len) := by
  refine List.ext_getElem (by simp) fun i h₁ h₂ => ?_
  simp only [List.getElem_modify, List.getElem_map, List.getElem_range, descLine,
    eq_comm (b := i)]

/-- What an accepted request leaves. -/
theorem buildDmaDescTable_ok {dma : DmaEnv} {dataPhy : UInt64} {dataLen : UInt32}
    {t : DmaDescTable} {bytes : ℕ} {dmaDescPhy : UInt64}
    (h : buildDmaDescTable dma dataPhy dataLen = .ok t)
    (hmap : dma.map (entries dataLen.toNat * dmaDescLineSize) = some (bytes, dmaDescPhy)) :
    dataPhy.toNat + dataLen.toNat ≤ 2 ^ 32 ∧ dmaDescPhy.toNat ≤ 2 ^ 32 ∧
      t.dmaDescPhy = dmaDescPhy.toNat ∧ t.dbAddr = toUint32 dmaDescPhy.toNat ∧
      t.bytCnt = toUint32 (byteCount dataLen.toNat) ∧
      t.lines = (List.range (entries dataLen.toNat)).map
        (descLine dataPhy.toNat dmaDescPhy.toNat dataLen.toNat) := by
  simp only [buildDmaDescTable, hmap, lines_eq] at h
  split at h
  · cases h
  next hdata =>
  split at h
  swap
  · cases h
  split at h
  · cases h
  split at h
  · cases h
  next hphy =>
  cases h
  have hsum : (dataPhy + dataLen.toUInt64).toNat = dataPhy.toNat + dataLen.toNat := by
    have hlen := dataLen.toNat_lt
    rw [UInt64.toNat_add, UInt32.toNat_toUInt64, Nat.mod_eq_of_lt (by omega)]
  exact ⟨by omega, by omega, rfl, rfl, rfl, rfl⟩

theorem buildDmaDescTable_accepts {dma : DmaEnv} {dataPhy : UInt64} {dataLen : UInt32}
    {dmaDescPhy : UInt64} (hdata : dataPhy.toNat < 2 ^ 32)
    (hend : dataPhy.toNat + dataLen.toNat ≤ 2 ^ 32) (halloc : ∀ pages, dma.allocateBuffer pages)
    (hmap : ∀ size, dma.map size = some (size, dmaDescPhy)) (hphy : dmaDescPhy.toNat ≤ 2 ^ 32) :
    ∃ t, buildDmaDescTable dma dataPhy dataLen = .ok t := by
  have hsum : (dataPhy + dataLen.toUInt64).toNat = dataPhy.toNat + dataLen.toNat := by
    rw [UInt64.toNat_add, UInt32.toNat_toUInt64, Nat.mod_eq_of_lt (by omega)]
  simp only [buildDmaDescTable, hmap, halloc, hsum]
  rw [if_neg (by omega), if_pos trivial, if_neg (by simp), if_neg (by omega)]
  exact ⟨_, rfl⟩

/-! The chain. -/

section Chain

variable {t : DmaDescTable} {dataPhy phy len i n : ℕ}

theorem lineAt_line (hphy : t.dmaDescPhy = phy)
    (hlines : t.lines = (List.range (entries len)).map (descLine dataPhy phy len))
    (hi : i < entries len) : t.lineAt (phy + 16 * i) = some (descLine dataPhy phy len i,
      if i = entries len - 1 then none else some (toUint32 (phy + 16 * (i + 1)))) := by
  have hget : t.lines[i]? = some (descLine dataPhy phy len i) := by
    rw [hlines, List.getElem?_map, List.getElem?_range hi]
    rfl
  have hflag : (descLine dataPhy phy len i).des0 &&& idmacDes0Ch = 0 ↔ i = entries len - 1 := by
    rw [descLine_des0, lineFlags_chained, decide_eq_true_eq]
  rw [DmaDescTable.lineAt, hphy, dmaDescLineSize, if_pos (by omega),
    show (phy + 16 * i - phy) / 16 = i by omega, hget, Option.map_some]
  simp only [hflag]
  split
  · rfl
  · next hne => rw [descLine_des3 hne]

theorem lineAt_below (hphy : t.dmaDescPhy = phy) {address : ℕ} (h : address < phy) :
    t.lineAt address = none := by
  rw [DmaDescTable.lineAt, hphy, if_neg (by omega)]

/-- A table that lies below 4 GiB is a chain of all its lines. -/
theorem follow_lines (hphy : t.dmaDescPhy = phy)
    (hlines : t.lines = (List.range (entries len)).map (descLine dataPhy phy len))
    (hpos : 0 < entries len) (hlow : phy + 16 * (entries len - 1) < 2 ^ 32) :
    follow t.lineAt (entries len) phy = some t.lines := by
  have hnext : ∀ j < entries len - 1, t.lineAt (phy + 16 * j) =
      some (descLine dataPhy phy len j, some (phy + 16 * (j + 1))) := fun j hj => by
    rw [lineAt_line hphy hlines (by omega), if_neg (by omega), toUint32_of_lt (by omega)]
  have hlast : t.lineAt (phy + 16 * (entries len - 1)) =
      some (descLine dataPhy phy len (entries len - 1), none) := by
    rw [lineAt_line hphy hlines (by omega), if_pos rfl]
  rw [hlines, List.range_eq_range']
  refine (follow_eq (a := fun i => phy + 16 * i) hnext hlast (Nat.zero_le _) (by omega)).trans ?_
  rw [show entries len - 1 + 1 - 0 = entries len by omega]

/-- Over that border the chain goes to an address below the table. -/
theorem follow_over (hphy : t.dmaDescPhy = phy)
    (hlines : t.lines = (List.range (entries len)).map (descLine dataPhy phy len))
    (hlen : len < 2 ^ 32) (hle : phy ≤ 2 ^ 32) (hover : 2 ^ 32 ≤ phy + 16 * (entries len - 1))
    (fuel : ℕ) : follow t.lineAt fuel (toUint32 phy) = none := by
  have hentries : entries len ≤ 2 ^ 20 := by
    rw [entries, dwmmcDmaBufSize]
    omega
  refine follow_broken (a := fun i => toUint32 (phy + 16 * i))
    (x := descLine dataPhy phy len) (n := (2 ^ 32 - phy + 15) / 16) (i := 0) (fun j hj => ?_)
    (lineAt_below hphy ?_) (Nat.zero_le _)
  · rw [toUint32_of_lt (n := phy + 16 * j) (by omega), lineAt_line hphy hlines (by omega),
      if_neg (by omega)]
  · rw [toUint32]
    omega

end Chain

/-! The buffers. -/

theorem BuffersCover.len_eq : ∀ {lines : List DmaDescLine} {start len : ℕ},
    BuffersCover lines start len → len = (lines.map DmaDescLine.des1).sum
  | [], _, _, h => h
  | line :: lines, start, len, ⟨_, hle, h⟩ => by
    have := h.len_eq
    rw [List.map_cons, List.sum_cons]
    omega

/-- Pieces of 4096 bytes up to the last one. -/
theorem buffersCover_range' {line : ℕ → DmaDescLine} {n start : ℕ}
    (hbase : ∀ i < n, (line i).des2 = start + 4096 * i)
    (hsize : ∀ i, i + 1 < n → (line i).des1 = 4096) :
    ∀ k i, i + k + 1 = n → BuffersCover ((List.range' i (k + 1)).map line) (start + 4096 * i)
      (4096 * k + (line (n - 1)).des1)
  | 0, i, h => by
    obtain rfl : n - 1 = i := by omega
    exact ⟨hbase _ (by omega), by omega, by simp [BuffersCover]⟩
  | k + 1, i, h => by
    have ih := buffersCover_range' hbase hsize k (i + 1) (by omega)
    rw [List.range'_succ, List.map_cons]
    refine ⟨hbase i (by omega), by rw [hsize i (by omega)]; omega, ?_⟩
    rw [hsize i (by omega), show start + 4096 * i + 4096 = start + 4096 * (i + 1) by omega]
    convert ih using 1
    omega

theorem buffersCover_descLine {dataPhy len : ℕ} (dmaDescPhy : ℕ) (hpos : 0 < len)
    (hlen : len < 2 ^ 32) (hdata : dataPhy + len ≤ 2 ^ 32) :
    BuffersCover ((List.range (entries len)).map (descLine dataPhy dmaDescPhy len)) dataPhy
      (byteCount len) := by
  have hge := le_byteCount len
  have hentries : 4096 * (entries len - 1) < len ∧ 0 < entries len := by
    rw [entries, dwmmcDmaBufSize]
    omega
  have hbase : ∀ i < entries len,
      (descLine dataPhy dmaDescPhy len i).des2 = dataPhy + 4096 * i := fun i hi => by
    rw [descLine_des2, toUint32_of_lt (by omega)]
  have h := buffersCover_range' hbase (fun i hi => descLine_des1 (by omega)) (entries len - 1) 0
    (by omega)
  rw [descLine_des1_last hpos hlen, show entries len - 1 + 1 = entries len by omega,
    show 4096 * (entries len - 1) + (byteCount len - 4096 * (entries len - 1)) = byteCount len by
      omega] at h
  rw [List.range_eq_range']
  exact h

/-- A table that accepted the length moves what it is asked for exactly when its controller sees it
whole and the last block is not a part of one. -/
theorem buildDmaDescTable_transfers_iff {dma : DmaEnv} {dataPhy : UInt64} {dataLen : UInt32}
    {t : DmaDescTable} {bytes : ℕ} {dmaDescPhy : UInt64} (hpos : 0 < dataLen.toNat)
    (h : buildDmaDescTable dma dataPhy dataLen = .ok t)
    (hmap : dma.map (entries dataLen.toNat * dmaDescLineSize) = some (bytes, dmaDescPhy)) :
    t.Transfers dataPhy.toNat dataLen.toNat ↔
      (dataLen.toNat < dwMmcBlockSize ∨ dwMmcBlockSize ∣ dataLen.toNat) ∧
        dmaDescPhy.toNat + dmaDescLineSize * (entries dataLen.toNat - 1) < 2 ^ 32 := by
  obtain ⟨hdata, hle, hphy, hdb, hcnt, hlines⟩ := buildDmaDescTable_ok h hmap
  have hlen := dataLen.toNat_lt
  have hentries : 0 < entries dataLen.toNat := by
    rw [entries, dwmmcDmaBufSize]
    omega
  have hcover := buffersCover_descLine dmaDescPhy.toNat hpos hlen hdata
  rw [← hlines] at hcover
  rw [dwMmcBlockSize, dmaDescLineSize, ← byteCount_eq_iff]
  constructor
  · rintro ⟨fuel, lines, hfollow, hbuf, -⟩
    have hlow : dmaDescPhy.toNat + 16 * (entries dataLen.toNat - 1) < 2 ^ 32 := by
      by_contra hover
      rw [hdb, follow_over hphy hlines hlen hle (by omega)] at hfollow
      cases hfollow
    rw [hdb, toUint32_of_lt (by omega)] at hfollow
    have heq := follow_unique hfollow (follow_lines hphy hlines hentries hlow)
    rw [heq] at hbuf
    exact ⟨hcover.len_eq.trans hbuf.len_eq.symm, hlow⟩
  · rintro ⟨heq, hlow⟩
    have hlength : t.lines.length = entries dataLen.toNat := by simp [hlines]
    refine ⟨entries dataLen.toNat, t.lines, ?_, heq ▸ hcover, ?_, ?_, ?_, ?_⟩
    · rw [hdb, toUint32_of_lt (by omega), follow_lines hphy hlines hentries hlow]
    · intro i hi
      simp only [hlines, List.getElem_map, List.getElem_range]
      rw [descLine_des0, lineFlags_first, decide_eq_true_eq]
    · intro i hi
      simp only [hlines, List.getElem_map, List.getElem_range, List.length_map, List.length_range]
      rw [descLine_des0, lineFlags_last, decide_eq_true_eq]
    · intro line hline
      rw [hlines, List.mem_map] at hline
      obtain ⟨i, -, rfl⟩ := hline
      exact descLine_des1_lt
    · rw [hcnt, heq, toUint32_of_lt hlen, ← heq]
      exact hcover.len_eq

/-- Memory low enough, mapped as a whole. -/
def lowDma : DmaEnv where
  allocateBuffer _ := true
  map size := some (size, 0x2000)

theorem buildDmaDescTable_transfers_block :
    ∃ t, buildDmaDescTable lowDma 0x1000 512 = .ok t ∧ t.Transfers 0x1000 512 := by
  obtain ⟨t, ht⟩ : ∃ t, buildDmaDescTable lowDma 0x1000 512 = .ok t :=
    buildDmaDescTable_accepts (by decide) (by decide) (fun _ => rfl) (fun _ => rfl) (by decide)
  exact ⟨t, ht, (buildDmaDescTable_transfers_iff (by decide) ht rfl).mpr (by decide)⟩

/-- The controller takes 1024 bytes to a buffer of 513. -/
theorem buildDmaDescTable_not_transfers :
    ∃ t, buildDmaDescTable lowDma 0x1000 513 = .ok t ∧ t.bytCnt = 1024 ∧
      t.lines.map DmaDescLine.des1 = [1024] ∧ ¬ t.Transfers 0x1000 513 := by
  obtain ⟨t, ht⟩ : ∃ t, buildDmaDescTable lowDma 0x1000 513 = .ok t :=
    buildDmaDescTable_accepts (by decide) (by decide) (fun _ => rfl) (fun _ => rfl) (by decide)
  obtain ⟨-, -, hphy, hdb, hcnt, hlines⟩ := buildDmaDescTable_ok ht rfl
  have hsizes : t.lines.map DmaDescLine.des1 = [1024] := by
    rw [hlines]
    decide
  refine ⟨t, ht, hcnt, hsizes, ?_⟩
  rintro ⟨fuel, lines, hfollow, hbuf, -⟩
  rw [hdb] at hfollow
  have heq := follow_unique hfollow (follow_lines hphy hlines (by decide) (by decide))
  have hsum := hbuf.len_eq
  rw [heq, hsizes] at hsum
  exact absurd hsum (by decide)

end Edk2Rk3576.DwMmc
