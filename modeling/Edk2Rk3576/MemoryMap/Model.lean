import Mathlib.Algebra.Group.Nat.Defs
import Mathlib.Tactic.Common

/-!
# The memory map of the board

`ArmPlatformGetVirtualMemoryMap` lists the ranges of addresses of the board, and `MemoryPeim` makes
a descriptor of memory for each that is memory, and a second one for each that no allocator may hand
out. An entry of length 0 ends the list.
-/

namespace Edk2Rk3576

inductive ArmMemoryRegionAttributes
  | uncachedUnbuffered
  | writeBack
  | device
  deriving DecidableEq

/-- `RK3576_MEM_*_REGION`. -/
inductive MemRegionType
  | unmapped
  | basic
  | runtime
  | reserved
  deriving DecidableEq

/-- An `ARM_MEMORY_REGION_DESCRIPTOR` and the type that `VirtualMemoryInfo` has for it. -/
structure MemoryRegion where
  physicalBase : UInt64
  virtualBase : UInt64
  length : UInt64
  attributes : ArmMemoryRegionAttributes
  type : MemRegionType
  deriving DecidableEq

/-- The values a build gives the library. -/
structure MemoryPcds where
  systemMemoryBase : UInt64
  fvBaseAddress : UInt64
  fvSize : UInt32
  variableBase : UInt64
  variableSize : UInt32
  ftwWorkingSize : UInt32
  ftwSpareSize : UInt32
  rkMtlMailBoxBase : UInt64

namespace MemoryPcds

def variablesBase (pcds : MemoryPcds) : UInt64 := pcds.variableBase

def variablesSize (pcds : MemoryPcds) : UInt64 :=
  (pcds.variableSize + pcds.ftwWorkingSize + pcds.ftwSpareSize).toUInt64

end MemoryPcds

def efiPageSize : UInt64 := 0x1000
def efiPageMask : UInt64 := 0xFFF

def rk3576DramBase : UInt64 := 0x40000000
def rk3576DramSafeBase : UInt64 := 0x40200000
def rk3576SecureTopReserve : UInt64 := 0x10000000

/-- An entry whose virtual addresses are its physical ones. -/
def memoryRegion (base length : UInt64) (attributes : ArmMemoryRegionAttributes)
    (type : MemRegionType) : MemoryRegion :=
  { physicalBase := base, virtualBase := base, length := length, attributes := attributes,
    type := type }

/-- `ArmPlatformGetVirtualMemoryMap`, up to the entry that ends the table; none if an assertion
stops it. -/
def armPlatformGetVirtualMemoryMap (pcds : MemoryPcds) (mSystemMemorySize : UInt64) :
    Option (List MemoryRegion) :=
  let tfa := memoryRegion 0 0x200000 .uncachedUnbuffered .unmapped
  let fvBase := pcds.fvBaseAddress
  let fvSize := pcds.fvSize.toUInt64
  let variablesEnd := pcds.variablesBase + pcds.variablesSize
  if 0x08400000 < variablesEnd then
    -- the firmware is in the middle of the memory
    let dramTop := rk3576DramBase + mSystemMemorySize - rk3576SecureTopReserve
    if rk3576DramSafeBase < dramTop ∧ rk3576DramSafeBase ≤ fvBase ∧ fvBase + fvSize ≤ dramTop then
      some [tfa,
        memoryRegion (pcds.rkMtlMailBoxBase &&& ~~~efiPageMask) efiPageSize .uncachedUnbuffered
          .reserved,
        memoryRegion 0x20000000 0x10000000 .device .unmapped,
        memoryRegion rk3576DramSafeBase (fvBase - rk3576DramSafeBase) .writeBack .basic,
        memoryRegion fvBase fvSize .writeBack .reserved,
        memoryRegion (fvBase + fvSize) (dramTop - (fvBase + fvSize)) .writeBack .basic]
    else none
  else
    -- the memory starts at address 0, the firmware at its low end
    let midBase : UInt64 := 0x08400000 + 0x1000000
    let high := if 0x100000000 < mSystemMemorySize then
        [memoryRegion 0x100000000 (mSystemMemorySize - 0x100000000) .writeBack .basic]
      else []
    let bad := if 0x3fc000000 < pcds.systemMemoryBase + mSystemMemorySize then
        [memoryRegion 0x3fc000000 0x500000 .uncachedUnbuffered .reserved,
          memoryRegion 0x3fff00000 0x100000 .uncachedUnbuffered .reserved]
      else []
    some ([tfa,
      memoryRegion fvBase fvSize .writeBack .reserved,
      memoryRegion pcds.variablesBase pcds.variablesSize .writeBack .runtime,
      memoryRegion variablesEnd (min mSystemMemorySize (0x08400000 - variablesEnd)) .writeBack .basic,
      memoryRegion 0x08400000 0x1000000 .writeBack .reserved,
      memoryRegion midBase (min mSystemMemorySize (0xF0000000 - midBase)) .writeBack .basic,
      memoryRegion 0xF0000000 0x10000000 .device .unmapped]
      ++ high ++ [memoryRegion 0x0000000900000000 0x0000000141400000 .device .unmapped] ++ bad)

/-- The values of this board's build, whose firmware volume is where the image puts it. -/
def boardPcds (fvBase : UInt64) (fvSize : UInt32) : MemoryPcds where
  systemMemoryBase := 0x40000000
  fvBaseAddress := fvBase
  fvSize := fvSize
  variableBase := 0x40600000 + 0x00FC0000
  variableSize := 0x00010000
  ftwWorkingSize := 0x00010000
  ftwSpareSize := 0x00010000
  rkMtlMailBoxBase := 0x4010f000

inductive EfiMemoryType
  | runtimeServicesData
  | reserved
  deriving DecidableEq

/-- A descriptor for the later phases: a range that is system memory, or one that is allocated. -/
inductive Hob
  | resource (base length : UInt64)
  | allocation (base length : UInt64) (type : EfiMemoryType)
  deriving DecidableEq

/-- `AddRegion`, of the region's type. -/
def addRegion (r : MemoryRegion) : List Hob :=
  match r.type with
  | .unmapped => []
  | .basic => [.resource r.physicalBase r.length]
  | .runtime => [.resource r.physicalBase r.length,
      .allocation r.physicalBase r.length .runtimeServicesData]
  | .reserved => [.resource r.physicalBase r.length, .allocation r.physicalBase r.length .reserved]

/-- The loop of `MemoryPeim`. -/
def memoryPeim : List MemoryRegion → List Hob
  | [] => []
  | r :: rest => if r.length = 0 then [] else addRegion r ++ memoryPeim rest

end Edk2Rk3576
