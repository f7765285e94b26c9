import Edk2Rk3576.Efi
import Edk2Rk3576.Lib.Cells
import Edk2Rk3576.Lib.Loops
import Edk2Rk3576.Lib.Windows

/-!
# The PCIe controllers

Each of the two controllers is a segment, with its own ranges of the address map. `PciSegmentLib`
computes where the configuration register of a bus, device and function is; `PciHostBridgeLib`
publishes the ranges the bus driver may give to devices, and programs the windows through which the
controller sends an access out.
-/

namespace Edk2Rk3576

open Cells

def size64Kb : ℕ := 0x10000
def size1Mb : ℕ := 0x100000

-- `Rk3576Pcie.h`
def numPcieController : ℕ := 2
def pcieDbiSize : ℕ := 0x400000
def pcieCfgSize : ℕ := size1Mb
def pcieIoSize : ℕ := size1Mb
def pcieMem32Size : ℕ := 0xE00000
def pcieDbiBase (segment : ℕ) : ℕ := 0x22000000 + segment * 0x400000
def pcieCfgBase (segment : ℕ) : ℕ := 0x20000000 + segment * 0x1000000
def pcieIoBase (segment : ℕ) : ℕ := 0x20100000 + segment * 0x1000000
def pcieMem32Base (segment : ℕ) : ℕ := 0x20200000 + segment * 0x1000000
def pcieMem32BusBase : ℕ := 0x20200000
def pcieIoBusBase : ℕ := 0
def pcieIoTranslation (_segment : ℕ) : ℕ := 0
def pcieBusCount : ℕ := 16
def pcieBusBase (segment : ℕ) : ℕ := segment * 32
def pcieBusLimit (segment : ℕ) : ℕ := pcieBusBase segment + pcieBusCount - 1
def pcieBusBaseOffset (segment : ℕ) : ℕ := pcieBusBase segment * size1Mb

section Config

def getSegNum (address : UInt64) : ℕ := (address >>> 32 &&& 0xFFFF).toNat
def getBusNum (address : UInt64) : ℕ := (address >>> 20 &&& 0xFF).toNat
def getDevNum (address : UInt64) : ℕ := (address >>> 15 &&& 0x1F).toNat
def getFuncNum (address : UInt64) : ℕ := (address >>> 12 &&& 0x07).toNat

def invalidPciAddress : UInt64 := 0xffffffff

/-- `PciSegmentLibGetConfigBase`. -/
def pciSegmentLibGetConfigBase (address : UInt64) : UInt64 :=
  let segment := getSegNum address
  let bus := getBusNum address
  let device := getDevNum address
  let function := getFuncNum address
  -- in a debug build an `ASSERT` stops here
  if numPcieController ≤ segment then invalidPciAddress
  else if (bus = pcieBusBase segment ∧ 0 < device + function)
      ∨ (bus = pcieBusBase segment + 1 ∧ 0 < device) then invalidPciAddress
  else if bus = pcieBusBase segment then
    let address := address - UInt64.ofNat (pcieBusBaseOffset segment)
    UInt64.ofNat (pcieDbiBase segment) + address.toUInt32.toUInt64
  else UInt64.ofNat (pcieCfgBase segment) + address.toUInt32.toUInt64

end Config

section Atu

-- offsets in the DBI range
def iatuRegionCtrlOutbound (n : ℕ) : ℕ := 0x300000 + n * 2 ^ 9
def iatuRegionCtrl1Off : ℕ := 0x000
def iatuRegionCtrl2Off : ℕ := 0x004
def iatuLwrBaseAddrOff : ℕ := 0x008
def iatuUpperBaseAddrOff : ℕ := 0x00C
def iatuLimitAddrOff : ℕ := 0x010
def iatuLwrTargetAddrOff : ℕ := 0x014
def iatuUpperTargetAddrOff : ℕ := 0x018

def iatuTypeMem : UInt32 := 0
def iatuTypeIo : UInt32 := 2
def iatuTypeCfg0 : UInt32 := 4
def iatuTypeCfg1 : UInt32 := 5
def iatuEnable : UInt32 := 0x80000000
def iatuCfgShiftMode : UInt32 := 0x10000000

/-- `MmioWrite32`. -/
def mmioWrite32 (mmio : Cells UInt32) (address : ℕ) (value : UInt32) : Cells UInt32 :=
  Function.update mmio address value

/-- `PciSetupAtu`. -/
def pciSetupAtu (dbiBase index : ℕ) (type : UInt32) (cpuBase busBase length : ℕ)
    (mmio : Cells UInt32) : Cells UInt32 :=
  let region := dbiBase + iatuRegionCtrlOutbound index
  let ctrl2Off :=
    if type = iatuTypeCfg0 ∨ type = iatuTypeCfg1 then iatuEnable ||| iatuCfgShiftMode
    else iatuEnable
  let mmio := mmioWrite32 mmio (region + iatuLwrBaseAddrOff) (UInt32.ofNat cpuBase)
  let mmio := mmioWrite32 mmio (region + iatuUpperBaseAddrOff) (UInt32.ofNat (cpuBase / 2 ^ 32))
  let mmio := mmioWrite32 mmio (region + iatuLimitAddrOff) (UInt32.ofNat (cpuBase + length - 1))
  let mmio := mmioWrite32 mmio (region + iatuLwrTargetAddrOff) (UInt32.ofNat busBase)
  let mmio := mmioWrite32 mmio (region + iatuUpperTargetAddrOff) (UInt32.ofNat (busBase / 2 ^ 32))
  let mmio := mmioWrite32 mmio (region + iatuRegionCtrl1Off) type
  mmioWrite32 mmio (region + iatuRegionCtrl2Off) ctrl2Off

/-- What `InitializePciHost` does to the windows of a segment; its other writes are to other
registers. -/
def initializePciHost (segment : ℕ) (mmio : Cells UInt32) : Cells UInt32 :=
  let dbiBase := pcieDbiBase segment
  let cfgBase := pcieCfgBase segment
  let mmio := pciSetupAtu dbiBase 0 iatuTypeCfg0 (cfgBase + size1Mb) (cfgBase + size1Mb) size64Kb mmio
  pciSetupAtu dbiBase 1 iatuTypeMem (pcieMem32Base segment) (pcieMem32Base segment) pcieMem32Size mmio

/-- The registers of a window, as the controller has them. -/
structure AtuRegion where
  type : UInt32
  ctrl2 : UInt32
  lwrBase : UInt32
  upperBase : UInt32
  limit : UInt32
  lwrTarget : UInt32
  upperTarget : UInt32

def atuRegion (dbiBase index : ℕ) (mmio : Cells UInt32) : AtuRegion :=
  let region := dbiBase + iatuRegionCtrlOutbound index
  { type := mmio (region + iatuRegionCtrl1Off)
    ctrl2 := mmio (region + iatuRegionCtrl2Off)
    lwrBase := mmio (region + iatuLwrBaseAddrOff)
    upperBase := mmio (region + iatuUpperBaseAddrOff)
    limit := mmio (region + iatuLimitAddrOff)
    lwrTarget := mmio (region + iatuLwrTargetAddrOff)
    upperTarget := mmio (region + iatuUpperTargetAddrOff) }

namespace AtuRegion

variable (r : AtuRegion)

def base : ℕ := r.upperBase.toNat * 2 ^ 32 + r.lwrBase.toNat

/-- The last address of the window: the limit is of the low half alone. -/
def last : ℕ := r.upperBase.toNat * 2 ^ 32 + r.limit.toNat

def target : ℕ := r.upperTarget.toNat * 2 ^ 32 + r.lwrTarget.toNat

/-- The controller sends an access to the address out through this window. -/
def Covers (cpuAddress : ℕ) : Prop :=
  r.ctrl2 &&& iatuEnable ≠ 0 ∧ r.base ≤ cpuAddress ∧ cpuAddress ≤ r.last

/-- The bus address it has there. -/
def translate (cpuAddress : ℕ) : ℕ := (r.target + (cpuAddress - r.base)) % 2 ^ 64

end AtuRegion

end Atu

section RootBridges

/-- A range of bus addresses; `Translation` is what a bus address is above the CPU's for it. -/
structure PciRootBridgeAperture where
  base : ℕ
  limit : ℕ
  translation : ℕ

namespace PciRootBridgeAperture

def busAddress (aperture : PciRootBridgeAperture) (cpuAddress : ℕ) : ℕ :=
  (cpuAddress + aperture.translation) % 2 ^ 64

/-- The CPU address is one of the aperture's. -/
def Contains (aperture : PciRootBridgeAperture) (cpuAddress : ℕ) : Prop :=
  cpuAddress < 2 ^ 64 ∧ aperture.base ≤ aperture.busAddress cpuAddress
    ∧ aperture.busAddress cpuAddress ≤ aperture.limit

end PciRootBridgeAperture

structure PciRootBridge where
  segment : ℕ
  bus : PciRootBridgeAperture
  io : PciRootBridgeAperture
  mem : PciRootBridgeAperture
  memAbove4G : PciRootBridgeAperture
  pMem : PciRootBridgeAperture
  pMemAbove4G : PciRootBridgeAperture

/-- An aperture of no addresses. -/
def noAperture : PciRootBridgeAperture := ⟨2 ^ 64 - 1, 0, 0⟩

/-- An entry of `mPciRootBridges`. -/
def pciRootBridge (idx : ℕ) : PciRootBridge where
  segment := idx
  bus := ⟨pcieBusBase idx, pcieBusLimit idx, 0⟩
  io := ⟨pcieIoBusBase, pcieIoBusBase + pcieIoSize - 1,
    (2 ^ 64 - 1 - pcieIoTranslation idx + 1) % 2 ^ 64⟩
  mem := ⟨pcieMem32BusBase + idx * pcieMem32Size,
    pcieMem32BusBase + idx * pcieMem32Size + pcieMem32Size - 1, 0⟩
  memAbove4G := noAperture
  pMem := noAperture
  pMemAbove4G := noAperture

/-- A turn of the loop of `PciHostBridgeGetRootBridges`: whether `IsPcieNumEnabled`, and what
`InitializePciHost` returns, come from the board. -/
def addRootBridge (enabled : ℕ → Bool) (status : ℕ → EfiStatus) (idx : ℕ)
    (r : List PciRootBridge × Cells UInt32) : List PciRootBridge × Cells UInt32 :=
  if enabled idx then
    let mmio := initializePciHost idx r.2
    if efiError (status idx) then (r.1, mmio) else (r.1 ++ [pciRootBridge idx], mmio)
  else r

/-- `PciHostBridgeGetRootBridges`. -/
def pciHostBridgeGetRootBridges (enabled : ℕ → Bool) (status : ℕ → EfiStatus)
    (mmio : Cells UInt32) : List PciRootBridge × Cells UInt32 :=
  countUp (addRootBridge enabled status) numPcieController ([], mmio)

end RootBridges

end Edk2Rk3576
