import Edk2Rk3576.Ohci.MemPoolRuns
import Edk2Rk3576.Ohci.Descriptors

/-!
# The OHCI device and its lists

`OhciUrb.c`: the descriptors are allocated from the memory pool, endpoints are attached to lists of
their own kind, and the transfer descriptors of a transfer to its endpoint. A list is a chain of
32-bit addresses that ends with zero; walking a chain that goes round does not end, and the walks
here give up after as many steps as there are addresses.
-/

namespace Edk2Rk3576.Ohci

open Cells

/-- `INTERRUPT_CONTEXT_ENTRY`, with the callback hooked on it. -/
structure InterruptContextEntry where
  deviceAddress : ℕ
  endPointAddress : ℕ
  ed : ℕ
  dataTd : ℕ
  isSlowDevice : Bool
  maximumPacketLength : ℕ
  pollingInterval : ℕ
  isPeriodic : Bool
  dataLength : ℕ
  ucBuffer : ℕ
  ucBufferMapping : ℕ
  deriving DecidableEq

/-- `USB_OHCI_HC_DEV`: the pool with what is allocated from it, the descriptors by their addresses,
the lists, and the bits of `HcControl` that enable them. -/
structure OhciDev where
  mem : PoolTrace
  ed : Cells EdDescriptor
  td : Cells TdDescriptor
  hccaInterruptTable : ℕ → ℕ
  intervalList : ℕ → ℕ → ℕ
  interruptContextList : List InterruptContextEntry
  controlHead : ℕ
  bulkHead : ℕ
  periodicEnable : Bool
  controlEnable : Bool
  bulkEnable : Bool

/-- What the driver stops at. -/
inductive OhciHalt
  | pool (halt : UsbHcHalt)
  /-- `TempEd != NULL` of `OhciFindMinInterruptEDList`. -/
  | noList
  /-- A null pointer is followed. -/
  | null
  /-- A loop that does not end. -/
  | endless
  deriving DecidableEq

section Memory

variable (D : DmaLib)

def usbHcAllocate (size : ℕ) (dev : OhciDev) : Except OhciHalt (ℕ × OhciDev) :=
  match usbHcAllocateMem D size dev.mem.pool dev.mem.dma with
  | .ok (mem, pool, dma) =>
    .ok (mem, { dev with
      mem := ⟨pool, dma, if mem = 0 then dev.mem.live else (mem, size) :: dev.mem.live⟩ })
  | .error halt => .error (.pool halt)

def usbHcFree (mem size : ℕ) (dev : OhciDev) : Except OhciHalt OhciDev :=
  match usbHcFreeMem mem size dev.mem.pool dev.mem.dma with
  | .ok (pool, dma) => .ok { dev with mem := ⟨pool, dma, dev.mem.live.erase (mem, size)⟩ }
  | .error halt => .error (.pool halt)

def OhciDev.setEd (dev : OhciDev) (p : ℕ) (ed : EdDescriptor) : OhciDev :=
  { dev with ed := Function.update dev.ed p ed }

def OhciDev.setTd (dev : OhciDev) (p : ℕ) (td : TdDescriptor) : OhciDev :=
  { dev with td := Function.update dev.td p td }

def OhciDev.nextED (dev : OhciDev) (p : ℕ) : ℕ := (dev.ed p).nextED

def OhciDev.setNextED (dev : OhciDev) (p next : ℕ) : OhciDev :=
  dev.setEd p { dev.ed p with nextED := next }

def ohciCreateTD (dev : OhciDev) : Except OhciHalt (ℕ × OhciDev) :=
  usbHcAllocate D sizeofTd dev >>= fun r =>
    if r.1 = 0 then .ok r else .ok (r.1, r.2.setTd r.1 .zeroed)

def ohciCreateED (dev : OhciDev) : Except OhciHalt (ℕ × OhciDev) :=
  usbHcAllocate D sizeofEd dev >>= fun r =>
    if r.1 = 0 then .ok r else .ok (r.1, r.2.setEd r.1 .created)

def ohciFreeED (ed : ℕ) (dev : OhciDev) : Except OhciHalt OhciDev :=
  if ed = 0 then .ok dev else usbHcFree ed sizeofEd dev

end Memory

section Endpoints

/-- More steps than there are addresses. -/
def chainFuel : ℕ := 2 ^ 32

def ohciFindWorkingEd (dev : OhciDev) (deviceAddress endPointNum edDir : ℕ) :
    (fuel ed : ℕ) → Except OhciHalt ℕ
  | 0, _ => .error .endless
  | fuel + 1, ed =>
    if ed = 0 then .ok 0
    else if (dev.ed ed).halted = 0 ∧ (dev.ed ed).skip = 0 ∧
        (dev.ed ed).functionAddress = deviceAddress ∧ (dev.ed ed).endPointNum = endPointNum ∧
        (dev.ed ed).direction = edDir then .ok ed
    else ohciFindWorkingEd dev deviceAddress endPointNum edDir fuel (dev.nextED ed)

/-- `Leaf`: the place of each bottom list in the interrupt table. -/
def leaf : List ℕ :=
  [0, 16, 8, 24, 4, 20, 12, 28, 2, 18, 10, 26, 6, 22, 14, 30, 1, 17,
    9, 25, 5, 21, 13, 29, 3, 19, 11, 27, 7, 23, 15, 31]

variable (D : DmaLib)

/-- The interrupt table from `index` on, or the end of it when memory runs out. -/
def ohciFillInterruptTable : (count index : ℕ) → OhciDev → Except OhciHalt (Bool × OhciDev)
  | 0, _, dev => .ok (true, dev)
  | count + 1, index, dev =>
    ohciCreateED D dev >>= fun r =>
      if r.1 = 0 then .ok (false, r.2)
      else
        ohciFillInterruptTable count (index + 1)
          { r.2 with
            hccaInterruptTable := Function.update r.2.hccaInterruptTable index (toUint32 r.1) }

def OhciDev.setInterval (dev : OhciDev) (level index ed : ℕ) : OhciDev :=
  { dev with
    intervalList := Function.update dev.intervalList level
      (Function.update (dev.intervalList level) index ed) }

/-- The link of a list of the level below, which is not there if its endpoint could not be
created. -/
def ohciLinkList (level index next : ℕ) (dev : OhciDev) : Except OhciHalt OhciDev :=
  let ed := dev.intervalList level index
  if ed = 0 then .error .null else .ok (dev.setNextED ed (toUint32 next))

/-- The lists of a level from `index` on. What is checked after an endpoint is created is the table
and not the endpoint. -/
def ohciFillLevel (level : ℕ) : (count index : ℕ) → OhciDev → Except OhciHalt (Bool × OhciDev)
  | 0, _, dev => .ok (true, dev)
  | count + 1, index, dev =>
    ohciCreateED D dev >>= fun r =>
      let dev := r.2.setInterval level index r.1
      if dev.hccaInterruptTable index = 0 then .ok (false, dev)
      else
        ohciLinkList (level - 1) (index * 2) r.1 dev >>= fun dev =>
          ohciLinkList (level - 1) (index * 2 + 1) r.1 dev >>= fun dev =>
            ohciFillLevel level count (index + 1) dev

/-- The levels from `level` on, each with half the lists of the one below. -/
def ohciFillLevels : (count level lists : ℕ) → OhciDev → Except OhciHalt (Bool × OhciDev)
  | 0, _, _, dev => .ok (true, dev)
  | count + 1, level, lists, dev =>
    ohciFillLevel D level (lists / 2) 0 dev >>= fun r =>
      if r.1 then ohciFillLevels count (level + 1) (lists / 2) r.2 else .ok (false, r.2)

def ohciInitializeInterruptList (dev : OhciDev) : Except OhciHalt (EfiStatus × OhciDev) :=
  ohciFillInterruptTable D 32 0 dev >>= fun r =>
    if r.1 then
      let dev := { r.2 with
        intervalList := Function.update r.2.intervalList 0 fun index =>
          if index < 32 then r.2.hccaInterruptTable (leaf.getD index 0)
          else r.2.intervalList 0 index }
      ohciFillLevels D 5 1 32 dev >>= fun r =>
        .ok (if r.1 then efiSuccess else efiOutOfResources, r.2)
    else .ok (efiOutOfResources, r.2)

def ohciAttachED (ed newEd : ℕ) (dev : OhciDev) : OhciDev :=
  if ed = 0 then dev
  else if dev.nextED ed = 0 then dev.setNextED ed (toUint32 newEd)
  else
    let temp := dev.nextED ed
    (dev.setNextED ed (toUint32 newEd)).setNextED newEd (toUint32 temp)

def countEdNum (dev : OhciDev) : (fuel ed count : ℕ) → Except OhciHalt ℕ
  | 0, _, _ => .error .endless
  | fuel + 1, ed, count => if ed = 0 then .ok count else countEdNum dev fuel (dev.nextED ed) (count + 1)

/-- The lists of a level from `index` on, with the shortest of those before. -/
def ohciMinList (dev : OhciDev) (depth : ℕ) :
    (count index minEdNum tempEd : ℕ) → Except OhciHalt ℕ
  | 0, _, _, tempEd => .ok tempEd
  | count + 1, index, minEdNum, tempEd =>
    let headEd := dev.intervalList depth index
    countEdNum dev chainFuel headEd 0 >>= fun edNum =>
      if edNum < minEdNum then ohciMinList dev depth count (index + 1) edNum headEd
      else ohciMinList dev depth count (index + 1) minEdNum tempEd

def ohciFindMinInterruptEDList (dev : OhciDev) (depth : ℕ) : Except OhciHalt ℕ :=
  if 5 < depth then .ok 0
  else
    ohciMinList dev depth (32 / 2 ^ depth) 0 0xFFFFFFFF 0 >>= fun tempEd =>
      if tempEd = 0 then .error .noList else .ok tempEd

/-- The endpoints of a list that `drop` picks are unlinked and freed. -/
def ohciUnlinkEds (drop : EdDescriptor → ℕ → Bool) :
    (fuel ed : ℕ) → OhciDev → Except OhciHalt OhciDev
  | 0, _, _ => .error .endless
  | fuel + 1, ed, dev =>
    let next := dev.nextED ed
    if next = 0 then .ok dev
    else if drop (dev.ed next) next then
      ohciFreeED next (dev.setNextED ed (dev.nextED next)) >>= fun dev =>
        ohciUnlinkEds drop fuel ed dev
    else ohciUnlinkEds drop fuel next dev

/-- The lists of the interrupt table from `index` on. -/
def ohciUnlinkLists (drop : EdDescriptor → ℕ → Bool) :
    (count index : ℕ) → OhciDev → Except OhciHalt OhciDev
  | 0, _, dev => .ok dev
  | count + 1, index, dev =>
    let ed := dev.hccaInterruptTable index
    if ed = 0 then ohciUnlinkLists drop count (index + 1) dev
    else
      ohciUnlinkEds drop chainFuel ed dev >>= fun dev =>
        ohciUnlinkLists drop count (index + 1) dev

def ohciFreeInterruptEdByEd (intEd : ℕ) (dev : OhciDev) : Except OhciHalt OhciDev :=
  if intEd = 0 then .ok dev
  else ohciUnlinkLists (fun _ next => next = toUint32 intEd) 32 0 dev

def ohciFreeInterruptEdByAddr (functionAddress endPointNum : ℕ) (dev : OhciDev) :
    Except OhciHalt OhciDev :=
  ohciUnlinkLists
    (fun ed _ => ed.functionAddress = functionAddress ∧ ed.endPointNum = endPointNum) 32 0 dev

end Endpoints

section Transfers

/-- The last descriptor of a list. -/
def ohciLastTD (dev : OhciDev) : (fuel td : ℕ) → Except OhciHalt ℕ
  | 0, _ => .error .endless
  | fuel + 1, td =>
    if (dev.td td).nextTD ≠ 0 then ohciLastTD dev fuel (dev.td td).nextTD else .ok td

def OhciDev.linkTd (dev : OhciDev) (td next : ℕ) : OhciDev :=
  dev.setTd td { dev.td td with nextTD := toUint32 next, nextTDPointer := toUint32 next }

def ohciLinkTD (td1 td2 : ℕ) (dev : OhciDev) : Except OhciHalt OhciDev :=
  if td1 = 0 then .ok dev
  else if td1 = td2 then .ok dev
  else ohciLastTD dev chainFuel td1 >>= fun last => .ok (dev.linkTd last td2)

def ohciAttachTDListToED (ed headTd : ℕ) (dev : OhciDev) : Except OhciHalt OhciDev :=
  let temp := (dev.ed ed).tdHeadPointer * 2 ^ 4 % 2 ^ 32
  if temp ≠ 0 then ohciLastTD dev chainFuel temp >>= fun last => .ok (dev.linkTd last headTd)
  else .ok (dev.setEd ed { dev.ed ed with tdHeadPointer := toUint32 headTd / 2 ^ 4 })

variable (D : DmaLib)

/-- The data stage, with the transfer descriptors linked behind `headTd` if there is one; it is
broken off when memory runs out. -/
def ohciDataStage (pidDir maximumPacketLength : ℕ) :
    (fuel headTd toggle addr left : ℕ) → OhciDev → Except OhciHalt (Bool × ℕ × ℕ × OhciDev)
  | 0, _, _, _, _, _ => .error .endless
  | fuel + 1, headTd, toggle, addr, left, dev =>
    if left = 0 then .ok (true, headTd, toggle, dev)
    else
      let actual := if maximumPacketLength < left then maximumPacketLength else left
      ohciCreateTD D dev >>= fun r =>
        if r.1 = 0 then .ok (false, headTd, toggle, r.2)
        else
          let dev := r.2.setTd r.1 (dataTd pidDir toggle addr actual)
          if headTd = 0 then
            ohciDataStage pidDir maximumPacketLength fuel r.1 (toggle ^^^ 1) (addr + actual)
              (left - actual) dev
          else
            ohciLinkTD headTd r.1 dev >>= fun dev =>
              ohciDataStage pidDir maximumPacketLength fuel headTd (toggle ^^^ 1) (addr + actual)
                (left - actual) dev

/-- A descriptor that is linked behind `headTd`, if there is memory for one. -/
def ohciAppendTD (headTd : ℕ) (td : TdDescriptor) (dev : OhciDev) :
    Except OhciHalt (ℕ × OhciDev) :=
  ohciCreateTD D dev >>= fun r =>
    if r.1 = 0 then .ok r
    else ohciLinkTD headTd r.1 (r.2.setTd r.1 td) >>= fun dev => .ok (r.1, dev)

/-- The transfer descriptors from `headTd` on are freed. -/
def ohciFreeTds : (fuel headTd : ℕ) → OhciDev → Except OhciHalt OhciDev
  | 0, _, _ => .error .endless
  | fuel + 1, headTd, dev =>
    if headTd = 0 then .ok dev
    else
      usbHcFree headTd sizeofTd dev >>= fun dev' =>
        ohciFreeTds fuel (dev.td headTd).nextTDPointer dev'

end Transfers

end Edk2Rk3576.Ohci
