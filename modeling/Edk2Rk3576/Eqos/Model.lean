import Edk2Rk3576.Efi
import Edk2Rk3576.Lib.Cells
import Edk2Rk3576.Lib.Loops
import Edk2Rk3576.Lib.Polling

/-!
# The Ethernet driver

`DwcEqosSnpDxe` serves the simple network protocol. It shares a ring of transmit descriptors and one
of receive descriptors with the DMA engine, and a table of multicast hashes with the MAC.

An `ASSERT` that fails halts. What the platform and the controller answer to a call is an argument
of it: how `DmaMap` ends, what a register reads. Every call also answers a `NULL` `This`, before it
looks at anything.
-/

namespace Edk2Rk3576

open Cells

/-- What the driver halts at. -/
inductive EqosHalt
  /-- `TxBuffersMap[DescIndex] == NULL` and `TxBuffers[DescIndex] != NULL` of
  `EqosDmaMapTxDescriptor`. -/
  | txBuffersMapSet
  | txBuffersNull
  /-- `TxBuffersMap[DescIndex] != NULL` of `EqosSnpGetStatus`. -/
  | txBuffersMapNull
  /-- `RxBuffersMap[DescIndex] == NULL` and `RxBuffersAddr != 0` of `EqosDmaMapRxDescriptor`. -/
  | rxBuffersMapSet
  | rxBuffersAddrNull
  /-- `RxBuffersMap[DescIndex] != NULL` of `EqosSnpReceive`. -/
  | rxBuffersMapNull
  /-- A link speed that is none. -/
  | linkSpeed
  /-- A `UINT32` index that never gets to its bound. -/
  | endless
  deriving DecidableEq

def efiNotStarted : EfiStatus := encodeError 19

def eqosTxDescCount : ℕ := 32
def eqosRxDescCount : ℕ := 2
def eqosTxNext (n : ℕ) : ℕ := (n + 1) % eqosTxDescCount
def eqosRxNext (n : ℕ) : ℕ := (n + 1) % eqosRxDescCount

/-- `MAX_ETHERNET_FRAME_SIZE`, a multiple of the widest bus. -/
def eqosRxBufferSize : ℕ := 1536

def netEtherAddrLen : ℕ := 6
def etherHeadSize : ℕ := 14
def maxMCastFilterCnt : ℕ := 16

-- the bits of a descriptor
def eqosTdes2TxIoc : UInt32 := 0x80000000
def eqosTdes3TxOwn : UInt32 := 0x80000000
def eqosTdes3TxFd : UInt32 := 0x20000000
def eqosTdes3TxLd : UInt32 := 0x10000000
def eqosTdes3TxDe : UInt32 := 0x800000
def eqosTdes3TxEs : UInt32 := 0x8000
def eqosTdes3RxOwn : UInt32 := 0x80000000
def eqosTdes3RxIoc : UInt32 := 0x40000000
def eqosTdes3RxBuf1v : UInt32 := 0x1000000
def eqosTdes3RxEs : UInt32 := 0x8000
def eqosTdes3RxLengthMask : UInt32 := 0x7fff

-- `GMAC_MAC_PACKET_FILTER`, and the hash table next to it
def packetFilterPcfMask : UInt32 := 0xc0
def packetFilterPcfAll : UInt32 := 0x80
def packetFilterDbf : UInt32 := 0x20
def packetFilterPm : UInt32 := 0x10
def packetFilterHmc : UInt32 := 0x4
def packetFilterPr : UInt32 := 1
def hashTableCount : ℕ := 2

-- `GMAC_MAC_PHYIF_CONTROL_STATUS` and `GMAC_DMA_CHAN0_STATUS`
def phyIfLnkSts : UInt32 := 0x80000
def phyIfLnkSpeed (status : UInt32) : UInt32 := (status >>> 17) &&& 3
def dmaStatusNis : UInt32 := 0x8000
def dmaStatusRi : UInt32 := 0x40
def dmaStatusTi : UInt32 := 1

def receiveUnicast : UInt32 := 0x01
def receiveMulticast : UInt32 := 0x02
def receiveBroadcast : UInt32 := 0x04
def receivePromiscuous : UInt32 := 0x08
def receivePromiscuousMulticast : UInt32 := 0x10
def receiveInterrupt : UInt32 := 0x01
def transmitInterrupt : UInt32 := 0x02

/-- The bytes of an `EFI_MAC_ADDRESS`. -/
abbrev EfiMacAddress := Cells UInt8

/-- A pointer of a caller. A `NULL` one can be read through all the same: `target` is then what
lies at address zero. -/
structure OptPointer (α : Type) where
  isNull : Bool
  target : α

inductive EfiSimpleNetworkState
  | stopped
  | started
  | initialized
  deriving DecidableEq

structure EfiSimpleNetworkMode where
  state : EfiSimpleNetworkState
  mediaHeaderSize : ℕ
  receiveFilterMask : UInt32
  receiveFilterSetting : UInt32
  maxMCastFilterCount : ℕ
  mCastFilterCount : ℕ
  mCastFilter : Cells EfiMacAddress
  mediaPresent : Bool

structure EqosDmaDescriptor where
  tdes0 : UInt32
  tdes1 : UInt32
  tdes2 : UInt32
  tdes3 : UInt32

/-- `EQOS_PRIVATE_DATA`, the memory behind its pointers, and the registers of the controller. -/
structure EqosState where
  snpMode : EfiSimpleNetworkMode
  txDescs : Cells EqosDmaDescriptor
  txBuffers : Cells ℕ
  txBuffersMap : Cells (Option ℕ)
  txQueued : ℕ
  txNext : ℕ
  txCurrent : ℕ
  rxDescs : Cells EqosDmaDescriptor
  rxBuffersAddr : ℕ
  /-- The memory from `RxBuffersAddr` on. -/
  rxBuffers : Cells UInt8
  rxBuffersMap : Cells (Option ℕ)
  rxCurrent : ℕ
  hashTable : Cells UInt32
  packetFilter : UInt32
  /-- The descriptors the DMA engine is at. -/
  txDma : ℕ
  rxDma : ℕ

/-- How a `DmaMap` ends: with an error, or a mapping, which is not `NULL`. -/
structure DmaMapAnswer where
  status : EfiStatus
  mapping : ℕ
  deviceAddress : UInt64
  /-- The number of bytes mapped, of those asked for. -/
  numberOfBytes : ℕ → ℕ

/-- What a start of the controller meets: whether a read of `GMAC_DMA_MODE` still finds the software
reset going on, what that reset leaves in the receive filters, and the `DmaMap` of each receive
buffer. -/
structure StartAnswer where
  swr : ℕ → Bool
  hashTable : Cells UInt32
  packetFilter : UInt32
  rxMap : ℕ → DmaMapAnswer

section Descriptors

/-- `EqosDmaMapTxDescriptor`. -/
def eqosDmaMapTxDescriptor (descIndex numberOfBytes : ℕ) (dmaMap : DmaMapAnswer) (e : EqosState) :
    Except EqosHalt (EfiStatus × EqosState) :=
  if e.txBuffersMap descIndex ≠ none then .error .txBuffersMapSet
  else if e.txBuffers descIndex = 0 then .error .txBuffersNull
  else if efiError dmaMap.status then .ok (dmaMap.status, e)
  else
    let numberOfBytes := UInt32.ofNat (dmaMap.numberOfBytes numberOfBytes)
    .ok (efiSuccess, { e with
      txBuffersMap := Function.update e.txBuffersMap descIndex (some dmaMap.mapping)
      txDescs := Function.update e.txDescs descIndex
        { tdes0 := dmaMap.deviceAddress.toUInt32
          tdes1 := (dmaMap.deviceAddress >>> 32).toUInt32
          tdes2 := eqosTdes2TxIoc ||| numberOfBytes
          tdes3 := eqosTdes3TxOwn ||| eqosTdes3TxFd ||| eqosTdes3TxLd ||| numberOfBytes } })

/-- `EqosDmaMapRxDescriptor`. -/
def eqosDmaMapRxDescriptor (descIndex : ℕ) (dmaMap : DmaMapAnswer) (e : EqosState) :
    Except EqosHalt (EfiStatus × EqosState) :=
  if e.rxBuffersMap descIndex ≠ none then .error .rxBuffersMapSet
  else if e.rxBuffersAddr = 0 then .error .rxBuffersAddrNull
  else if efiError dmaMap.status then .ok (dmaMap.status, e)
  else
    .ok (efiSuccess, { e with
      rxBuffersMap := Function.update e.rxBuffersMap descIndex (some dmaMap.mapping)
      rxDescs := Function.update e.rxDescs descIndex
        { tdes0 := dmaMap.deviceAddress.toUInt32
          tdes1 := (dmaMap.deviceAddress >>> 32).toUInt32
          tdes2 := 0
          tdes3 := eqosTdes3RxOwn ||| eqosTdes3RxIoc ||| eqosTdes3RxBuf1v } })

def eqosDmaUnmapTxDescriptor (descIndex : ℕ) (e : EqosState) : EqosState :=
  if e.txBuffersMap descIndex ≠ none then
    { e with txBuffersMap := Function.update e.txBuffersMap descIndex none }
  else e

def eqosDmaUnmapRxDescriptor (descIndex : ℕ) (e : EqosState) : EqosState :=
  if e.rxBuffersMap descIndex ≠ none then
    { e with rxBuffersMap := Function.update e.rxBuffersMap descIndex none }
  else e

def eqosDmaUnmapAllTxDescriptors : EqosState → EqosState :=
  countUp eqosDmaUnmapTxDescriptor eqosTxDescCount

def eqosDmaUnmapAllRxDescriptors : EqosState → EqosState :=
  countUp eqosDmaUnmapRxDescriptor eqosRxDescCount

/-- The loop of `EqosDmaMapAllRxDescriptors`, `left` descriptors before its end. -/
def eqosDmaMapRxDescriptors (rxMap : ℕ → DmaMapAnswer) :
    ℕ → EqosState → Except EqosHalt (EfiStatus × EqosState)
  | 0, e => .ok (efiSuccess, e)
  | left + 1, e =>
    let index := eqosRxDescCount - (left + 1)
    eqosDmaMapRxDescriptor index (rxMap index) e >>= fun r =>
      if efiError r.1 then .ok (r.1, eqosDmaUnmapAllRxDescriptors r.2)
      else eqosDmaMapRxDescriptors rxMap left r.2

def eqosDmaMapAllRxDescriptors (rxMap : ℕ → DmaMapAnswer) (e : EqosState) :
    Except EqosHalt (EfiStatus × EqosState) :=
  eqosDmaMapRxDescriptors rxMap eqosRxDescCount e

def txOwned (tdes3 : UInt32) : Bool := tdes3 &&& eqosTdes3TxOwn ≠ 0
def rxOwned (tdes3 : UInt32) : Bool := tdes3 &&& eqosTdes3RxOwn ≠ 0

/-- `EqosCheckTxDescriptor`, of a descriptor with this `Tdes3`. -/
def eqosCheckTxDescriptor (tdes3 : UInt32) : EfiStatus :=
  if txOwned tdes3 then efiNotReady
  else if tdes3 &&& eqosTdes3TxDe ≠ 0 then efiDeviceError
  else if tdes3 &&& eqosTdes3TxEs ≠ 0 then efiDeviceError
  else efiSuccess

/-- `*FrameLength`. -/
def rxFrameLength (tdes3 : UInt32) : ℕ := (tdes3 &&& eqosTdes3RxLengthMask).toNat

/-- `EqosCheckRxDescriptor`, of a descriptor with this `Tdes3`: the status and `*FrameLength`. -/
def eqosCheckRxDescriptor (tdes3 : UInt32) : EfiStatus × ℕ :=
  if rxOwned tdes3 then (efiNotReady, 0)
  else if tdes3 &&& eqosTdes3RxEs ≠ 0 then (efiDeviceError, 0)
  else if rxFrameLength tdes3 = 0 then (efiDeviceError, rxFrameLength tdes3)
  else (efiSuccess, rxFrameLength tdes3)

end Descriptors

section Starting

/-- `EqosReset`. The software reset reaches the receive filters too. -/
def eqosReset (answer : StartAnswer) (e : EqosState) : EfiStatus × EqosState :=
  let e := { e with hashTable := answer.hashTable, packetFilter := answer.packetFilter }
  match pollFor (fun t => if answer.swr t then none else some ()) 2000 0 with
  | some _ => (efiSuccess, e)
  | none => (efiTimeout, e)

/-- `EqosInitialize`, less the configuration of the registers that nothing here reads. -/
def eqosInitialize (answer : StartAnswer) (e : EqosState) : EfiStatus × EqosState :=
  let r := eqosReset answer e
  if efiError r.1 then r else (efiSuccess, r.2)

/-- `EqosDmaInitDescriptorRings`. With the base addresses the DMA engine is at the first
descriptors. -/
def eqosDmaInitDescriptorRings (e : EqosState) : EqosState :=
  { e with txQueued := 0, txNext := 0, txCurrent := 0, txDma := 0, rxCurrent := 0, rxDma := 0 }

/-- `EqosStart`. That the transmitter, the receiver and the DMA engine are enabled in the end is
left out, as is that `EqosStop` disables them: the engine may take a step at any time. -/
def eqosStart (answer : StartAnswer) (e : EqosState) : Except EqosHalt (EfiStatus × EqosState) :=
  let r := eqosInitialize answer e
  if efiError r.1 then .ok r
  else
    eqosDmaMapAllRxDescriptors answer.rxMap r.2 >>= fun r =>
      if efiError r.1 then .ok r else .ok (efiSuccess, eqosDmaInitDescriptorRings r.2)

def eqosStop (e : EqosState) : EfiStatus × EqosState :=
  (efiSuccess, eqosDmaUnmapAllRxDescriptors (eqosDmaUnmapAllTxDescriptors e))

end Starting

section Filters

def etherCrcTable : List UInt32 :=
  [0x00000000, 0x1db71064, 0x3b6e20c8, 0x26d930ac,
   0x76dc4190, 0x6b6b51f4, 0x4db26158, 0x5005713c,
   0xedb88320, 0xf00f9344, 0xd6d6a3e8, 0xcb61b38c,
   0x9b64c2b0, 0x86d3d2d4, 0xa00ae278, 0xbdbdf21c]

/-- Four bits of the checksum. -/
def etherCrcNibble (crc : UInt32) : UInt32 :=
  (crc >>> 4) ^^^ etherCrcTable.getD (crc &&& 0xf).toNat 0

def eqosEtherCrc32Le (buffer : Cells UInt8) (length : ℕ) : UInt32 :=
  countUp (fun index crc => etherCrcNibble (etherCrcNibble (crc ^^^ (buffer index).toUInt32)))
    length 0xffffffff

def eqosBitReverse32 (value : UInt32) : UInt32 :=
  let value := ((value &&& 0xaaaaaaaa) >>> 1) ||| ((value &&& 0x55555555) <<< 1)
  let value := ((value &&& 0xcccccccc) >>> 2) ||| ((value &&& 0x33333333) <<< 2)
  let value := ((value &&& 0xf0f0f0f0) >>> 4) ||| ((value &&& 0x0f0f0f0f) <<< 4)
  let value := ((value &&& 0xff00ff00) >>> 8) ||| ((value &&& 0x00ff00ff) <<< 8)
  (value >>> 16) ||| (value <<< 16)

/-- The bit of the hash table an address has: `Crc`, in the end. -/
def mCastHash (addr : EfiMacAddress) : UInt32 :=
  eqosBitReverse32 (~~~(eqosEtherCrc32Le addr netEtherAddrLen &&& 0x7f)) >>> 26

/-- The pass of the loop of `EqosSetRxFilters` that adds an address. -/
def addMCastHash (addr : EfiMacAddress) (hashTable : Cells UInt32) : Cells UInt32 :=
  let crc := mCastHash addr
  let hashReg := (crc >>> 5).toNat
  let hashBit := (1 : UInt32) <<< (crc &&& 0x1f)
  Function.update hashTable hashReg (hashTable hashReg ||| hashBit)

/-- `EqosSetRxFilters`. It always succeeds. -/
def eqosSetRxFilters (receiveFilterSetting : UInt32) (resetMCastFilter : Bool)
    (mCastFilterCnt : ℕ) (mCastFilter : Cells EfiMacAddress) (e : EqosState) :
    Except EqosHalt (EfiStatus × EqosState) :=
  let hashTable :=
    if resetMCastFilter then
      countUp (fun hashReg h => Function.update h hashReg 0) hashTableCount e.hashTable
    else e.hashTable
  let packetFilter := e.packetFilter &&& ~~~(packetFilterPcfMask ||| packetFilterDbf |||
    packetFilterPm ||| packetFilterHmc ||| packetFilterPr)
  let dbf := if receiveFilterSetting &&& receiveBroadcast = 0 then packetFilterDbf else 0
  let set (packetFilter : UInt32) (hashTable : Cells UInt32) :
      Except EqosHalt (EfiStatus × EqosState) :=
    .ok (efiSuccess, { e with hashTable := hashTable, packetFilter := packetFilter ||| dbf })
  if receiveFilterSetting &&& receivePromiscuous ≠ 0 then
    set (packetFilter ||| (packetFilterPr ||| packetFilterPcfAll)) hashTable
  else if receiveFilterSetting &&& receivePromiscuousMulticast ≠ 0 then
    set (packetFilter ||| packetFilterPm) hashTable
  else if receiveFilterSetting &&& receiveMulticast ≠ 0 then
    -- `Index` is a `UINT32` and `MCastFilterCnt` a `UINTN`
    if 2 ^ 32 ≤ mCastFilterCnt then .error .endless
    else
      set (packetFilter ||| packetFilterHmc)
        (countUp (fun index h => addMCastHash (mCastFilter index) h) mCastFilterCnt hashTable)
  else set packetFilter hashTable

end Filters

end Edk2Rk3576
