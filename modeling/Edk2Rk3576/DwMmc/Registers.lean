import Edk2Rk3576.Efi

/-!
# Registers of the SD and eMMC controller

The bits that the driver sets and tests.
-/

namespace Edk2Rk3576.DwMmc

def dwMmcBlockSize : ℕ := 512

def dwMmcHcGenericTimeout : ℕ := 1 * 1000 * 1000

def cmdStartBit : BitVec 32 := 1 <<< 31

def dwMmcIntEbe : BitVec 32 := 1 <<< 15
def dwMmcIntSbe : BitVec 32 := 1 <<< 13
def dwMmcIntHle : BitVec 32 := 1 <<< 12
def dwMmcIntFrun : BitVec 32 := 1 <<< 11
def dwMmcIntHto : BitVec 32 := 1 <<< 10
def dwMmcIntDrt : BitVec 32 := 1 <<< 9
def dwMmcIntRto : BitVec 32 := 1 <<< 8
def dwMmcIntDcrc : BitVec 32 := 1 <<< 7
def dwMmcIntRcrc : BitVec 32 := 1 <<< 6
def dwMmcIntRxdr : BitVec 32 := 1 <<< 5
def dwMmcIntTxdr : BitVec 32 := 1 <<< 4
def dwMmcIntDto : BitVec 32 := 1 <<< 3
def dwMmcIntCmdDone : BitVec 32 := 1 <<< 2
def dwMmcIntRe : BitVec 32 := 1 <<< 1

def dwMmcIntDataErr : BitVec 32 :=
  dwMmcIntEbe ||| dwMmcIntSbe ||| dwMmcIntHle ||| dwMmcIntFrun ||| dwMmcIntDcrc ||| dwMmcIntHto |||
    dwMmcIntDrt

/-- `GET_STS_FIFO_COUNT`. -/
def getStsFifoCount (sts : BitVec 32) : ℕ := ((sts >>> 17) &&& 0x1fff).toNat

/-- `DW_MMC_STS_FIFO_FULL`. -/
def dwMmcStsFifoFull (sts : BitVec 32) : BitVec 32 := (sts >>> 3) &&& 1

end Edk2Rk3576.DwMmc
