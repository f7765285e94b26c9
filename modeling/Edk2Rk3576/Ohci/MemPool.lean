import Edk2Rk3576.Efi
import Edk2Rk3576.Lib.Cells
import Edk2Rk3576.Lib.UnitPool

/-!
# The memory pool of the USB host controller

`UsbHcMem.c` keeps blocks of DMA memory, each with an array of bits, one for each unit of 64 bytes.
The first block is there as long as the pool is; another is asked for when no block has room, and
given back when the last allocation in it is freed.

What `DmaLib` and `AllocateZeroPool` answer is a parameter, and what they have handed out is
accounted for. An `ASSERT` that fails halts.
-/

namespace Edk2Rk3576.Ohci

open Cells UnitPool

/-- What the pool halts at. -/
inductive UsbHcHalt
  /-- `Units != 0` of `UsbHcAllocMemFromBlock`. -/
  | unitsZero
  /-- `!USB_HC_BIT_IS_SET` of `UsbHcAllocMemFromBlock`. -/
  | bitSet
  /-- `USB_HC_BIT_IS_SET` of `UsbHcFreeMem`. -/
  | bitClear
  /-- `Block != NULL` of `UsbHcFreeMem` and `UsbHcGetAddressForHostMem`. -/
  | blockNull
  deriving DecidableEq

def efiPageSize : ℕ := 0x1000
def efiPagesToSize (pages : ℕ) : ℕ := pages * efiPageSize % 2 ^ 64
def efiSizeToPages (size : ℕ) : ℕ := size / efiPageSize + if size % efiPageSize = 0 then 0 else 1

def usbHcMemUnit : ℕ := 64
def usbHcMemDefaultPages : ℕ := 16

/-- `USBHC_MEM_ROUND`, on a `UINTN`. -/
def usbHcMemRound (len : ℕ) : ℕ :=
  (len + (usbHcMemUnit - 1)) % 2 ^ 64 / usbHcMemUnit * usbHcMemUnit

section Dma

/-- The DMA buffers and mappings that are out, with the pools of `AllocateZeroPool`, and how often
memory has been asked for. -/
structure DmaState where
  asked : ℕ
  pools : ℕ
  buffers : List (ℕ × ℕ)
  mappings : List ℕ
  deriving DecidableEq

/-- What a request for a block meets: whether the two pools are to be had, and how
`DmaAllocateBuffer` and `DmaMap` end. -/
structure MemBlockAnswer where
  blockNull : Bool
  bitsNull : Bool
  allocateStatus : EfiStatus
  bufHost : ℕ
  mapStatus : EfiStatus
  bytes : ℕ
  mappedAddr : ℕ
  mapping : ℕ

/-- The answer to a request for so many pages. -/
abbrev DmaLib := DmaState → ℕ → MemBlockAnswer

namespace DmaState

def idle : DmaState := ⟨0, 0, [], []⟩

def allocateZeroPool (d : DmaState) : DmaState := { d with pools := d.pools + 1 }

def freePool (d : DmaState) : DmaState := { d with pools := d.pools - 1 }

/-- `DmaAllocateBuffer`. -/
def allocateBuffer (d : DmaState) (pages host : ℕ) : DmaState :=
  { d with buffers := (host, pages) :: d.buffers }

/-- `DmaFreeBuffer`. -/
def freeBuffer (d : DmaState) (pages host : ℕ) : DmaState :=
  { d with buffers := d.buffers.erase (host, pages) }

/-- `DmaMap`. -/
def map (d : DmaState) (mapping : ℕ) : DmaState := { d with mappings := mapping :: d.mappings }

/-- `DmaUnmap`. -/
def unmap (d : DmaState) (mapping : ℕ) : DmaState :=
  { d with mappings := d.mappings.erase mapping }

end DmaState

end Dma

section Blocks

/-- `USBHC_MEM_BLOCK`. -/
structure UsbHcMemBlock where
  bits : Cells UInt8
  bitsLen : ℕ
  buf : ℕ
  bufHost : ℕ
  bufLen : ℕ
  mapping : ℕ

/-- `USBHC_MEM_POOL`: the head, and the blocks that are linked from it. -/
structure UsbHcMemPool where
  check4G : Bool
  which4G : ℕ
  head : UsbHcMemBlock
  rest : List UsbHcMemBlock

def UsbHcMemPool.blocks (pool : UsbHcMemPool) : List UsbHcMemBlock := pool.head :: pool.rest

/-- `USB_HC_HIGH_32BIT`. -/
def usbHcHigh32Bit (addr : ℕ) : ℕ := addr / 2 ^ 32 % 2 ^ 32

/-- A block that cannot be mapped as it should be is given back. -/
def usbHcAllocMemBlock (D : DmaLib) (check4G : Bool) (which4G pages : ℕ) (d : DmaState) :
    Option UsbHcMemBlock × DmaState :=
  let answer := D d pages
  let d := { d with asked := d.asked + 1 }
  if answer.blockNull then (none, d)
  else
    let d := d.allocateZeroPool
    let bufLen := efiPagesToSize pages
    if answer.bitsNull then (none, d.freePool)
    else
      let d := d.allocateZeroPool
      if efiError answer.allocateStatus then (none, d.freePool.freePool)
      else
        let d := d.allocateBuffer pages answer.bufHost
        if efiError answer.mapStatus then
          (none, (d.freeBuffer pages answer.bufHost).freePool.freePool)
        else
          let d := d.map answer.mapping
          if answer.bytes ≠ bufLen then
            -- the mapping stays
            (none, (d.freeBuffer pages answer.bufHost).freePool.freePool)
          else if check4G ∧ which4G ≠ usbHcHigh32Bit answer.mappedAddr then
            (none,
              ((d.unmap answer.mapping).freeBuffer pages answer.bufHost).freePool.freePool)
          else
            (some
              { bits := fun _ => 0
                bitsLen := bufLen / (usbHcMemUnit * 8)
                buf := answer.mappedAddr
                bufHost := answer.bufHost
                bufLen := bufLen
                mapping := answer.mapping }, d)

def usbHcFreeMemBlock (block : UsbHcMemBlock) (d : DmaState) : DmaState :=
  (((d.unmap block.mapping).freeBuffer (efiSizeToPages block.bufLen) block.bufHost).freePool).freePool

/-- `USB_HC_BIT`, in a byte. -/
def usbHcBit (bit : ℕ) : UInt8 := 1 <<< UInt8.ofNat bit

def usbHcBitIsSet (data : UInt8) (bit : ℕ) : Bool := data &&& usbHcBit bit == usbHcBit bit

/-- `NEXT_BIT`, on a byte and a bit in it. -/
def nextBit (pos : ℕ × ℕ) : ℕ × ℕ :=
  if 7 < pos.2 + 1 then (pos.1 + 1, 0) else (pos.1, pos.2 + 1)

/-- The search of `UsbHcAllocMemFromBlock`: what is available in a row at its end, and since where. -/
def usbHcSearchBits (bits : Cells UInt8) (bitsLen units : ℕ) :
    (fuel : ℕ) → (pos start : ℕ × ℕ) → (available : ℕ) → ℕ × (ℕ × ℕ)
  | 0, _, start, available => (available, start)
  | fuel + 1, pos, start, available =>
    if pos.1 < bitsLen then
      if !usbHcBitIsSet (bits pos.1) pos.2 then
        if units ≤ available + 1 then (available + 1, start)
        else usbHcSearchBits bits bitsLen units fuel (nextBit pos) start (available + 1)
      else usbHcSearchBits bits bitsLen units fuel (nextBit pos) (nextBit pos) 0
    else (available, start)

/-- The units are marked as allocated. -/
def usbHcMarkBits : (count : ℕ) → (pos : ℕ × ℕ) → Cells UInt8 → Except UsbHcHalt (Cells UInt8)
  | 0, _, bits => .ok bits
  | count + 1, pos, bits =>
    if usbHcBitIsSet (bits pos.1) pos.2 then .error .bitSet
    else
      usbHcMarkBits count (nextBit pos)
        (Function.update bits pos.1 (bits pos.1 ||| usbHcBit pos.2))

/-- The associated bits of the array are reset. -/
def usbHcResetBits : (count : ℕ) → (pos : ℕ × ℕ) → Cells UInt8 → Except UsbHcHalt (Cells UInt8)
  | 0, _, bits => .ok bits
  | count + 1, pos, bits =>
    if usbHcBitIsSet (bits pos.1) pos.2 then
      usbHcResetBits count (nextBit pos)
        (Function.update bits pos.1 (bits pos.1 ^^^ usbHcBit pos.2))
    else .error .bitClear

/-- The pointer is `NULL` where the block has no room. -/
def usbHcAllocMemFromBlock (block : UsbHcMemBlock) (units : ℕ) :
    Except UsbHcHalt (ℕ × UsbHcMemBlock) :=
  if units = 0 then .error .unitsZero
  else
    let found := usbHcSearchBits block.bits block.bitsLen units (8 * block.bitsLen) (0, 0) (0, 0) 0
    if found.1 < units then .ok (0, block)
    else
      usbHcMarkBits units found.2 block.bits >>= fun bits =>
        .ok (block.bufHost + (found.2.1 * 8 + found.2.2) * usbHcMemUnit,
          { block with bits := bits })

def usbHcIsMemBlockEmpty (block : UsbHcMemBlock) : Bool :=
  (List.range block.bitsLen).all fun i => block.bits i == 0

/-- The block completely contains the memory. -/
def usbHcBlockContains (block : UsbHcMemBlock) (mem allocSize : ℕ) : Bool :=
  block.bufHost ≤ mem ∧ mem + allocSize ≤ block.bufHost + block.bufLen

end Blocks

section Pool

/-- `poolNull` is whether the pool itself cannot be allocated. -/
def usbHcInitMemPool (D : DmaLib) (poolNull check4G : Bool) (which4G : ℕ) (d : DmaState) :
    Option UsbHcMemPool × DmaState :=
  if poolNull then (none, d)
  else
    match usbHcAllocMemBlock D check4G which4G usbHcMemDefaultPages d.allocateZeroPool with
    | (none, d) => (none, d.freePool)
    | (some head, d) => (some ⟨check4G, which4G, head, []⟩, d)

def usbHcFreeMemPool (pool : UsbHcMemPool) (d : DmaState) : DmaState :=
  (usbHcFreeMemBlock pool.head
    (pool.rest.foldl (fun d block => usbHcFreeMemBlock block d) d)).freePool

/-- The first of the blocks that has room. -/
def usbHcAllocMemFromBlocks (units : ℕ) :
    List UsbHcMemBlock → Except UsbHcHalt (ℕ × List UsbHcMemBlock)
  | [] => .ok (0, [])
  | block :: blocks =>
    usbHcAllocMemFromBlock block units >>= fun r =>
      if r.1 ≠ 0 then .ok (r.1, r.2 :: blocks)
      else usbHcAllocMemFromBlocks units blocks >>= fun rs => .ok (rs.1, block :: rs.2)

def UsbHcMemPool.withBlocks (pool : UsbHcMemPool) : List UsbHcMemBlock → UsbHcMemPool
  | [] => pool
  | head :: rest => { pool with head := head, rest := rest }

/-- The pages of a new block. -/
def usbHcBlockPages (allocSize : ℕ) : ℕ :=
  if efiPagesToSize usbHcMemDefaultPages < allocSize then efiSizeToPages allocSize + 1
  else usbHcMemDefaultPages

/-- The memory is cleared by who asks for it. -/
def usbHcAllocateMem (D : DmaLib) (size : ℕ) (pool : UsbHcMemPool) (d : DmaState) :
    Except UsbHcHalt (ℕ × UsbHcMemPool × DmaState) :=
  let allocSize := usbHcMemRound size
  usbHcAllocMemFromBlocks (allocSize / usbHcMemUnit) pool.blocks >>= fun r =>
    if r.1 ≠ 0 then .ok (r.1, pool.withBlocks r.2, d)
    else
      match usbHcAllocMemBlock D pool.check4G pool.which4G (usbHcBlockPages allocSize) d with
      | (none, d) => .ok (0, pool, d)
      | (some block, d) =>
        usbHcAllocMemFromBlock block (allocSize / usbHcMemUnit) >>= fun r =>
          .ok (r.1, { pool with rest := r.2 :: pool.rest }, d)

def usbHcFreeInBlock (mem allocSize : ℕ) (block : UsbHcMemBlock) : Except UsbHcHalt UsbHcMemBlock :=
  let unit := (mem - block.bufHost) / usbHcMemUnit
  usbHcResetBits (allocSize / usbHcMemUnit) (unit / 8, unit % 8) block.bits >>= fun bits =>
    .ok { block with bits := bits }

/-- A block that is not the head is released when it is empty. -/
def usbHcFreeInRest (mem allocSize : ℕ) (d : DmaState) :
    List UsbHcMemBlock → Except UsbHcHalt (List UsbHcMemBlock × DmaState)
  | [] => .error .blockNull
  | block :: blocks =>
    if usbHcBlockContains block mem allocSize then
      usbHcFreeInBlock mem allocSize block >>= fun block =>
        if usbHcIsMemBlockEmpty block then .ok (blocks, usbHcFreeMemBlock block d)
        else .ok (block :: blocks, d)
    else usbHcFreeInRest mem allocSize d blocks >>= fun r => .ok (block :: r.1, r.2)

def usbHcFreeMem (mem size : ℕ) (pool : UsbHcMemPool) (d : DmaState) :
    Except UsbHcHalt (UsbHcMemPool × DmaState) :=
  let allocSize := usbHcMemRound size
  if usbHcBlockContains pool.head mem allocSize then
    usbHcFreeInBlock mem allocSize pool.head >>= fun head => .ok ({ pool with head := head }, d)
  else
    usbHcFreeInRest mem allocSize d pool.rest >>= fun r => .ok ({ pool with rest := r.1 }, r.2)

/-- The address of the memory on the bus. -/
def usbHcGetAddressForHostMem (pool : UsbHcMemPool) (mem size : ℕ) : Except UsbHcHalt ℕ :=
  if mem = 0 then .ok 0
  else
    match pool.blocks.find? fun block => usbHcBlockContains block mem (usbHcMemRound size) with
    | none => .error .blockNull
    | some block => .ok (block.buf + (mem - block.bufHost))

end Pool

end Edk2Rk3576.Ohci
