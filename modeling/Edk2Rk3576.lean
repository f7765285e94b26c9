import Edk2Rk3576.NorFlash.Snor
import Edk2Rk3576.NorFlash.Effects
import Edk2Rk3576.NorFlash.Update
import Edk2Rk3576.NorFlash.Erase
import Edk2Rk3576.Fspi.XferData
import Edk2Rk3576.RkFvb.Model
import Edk2Rk3576.RkFvb.Effects
import Edk2Rk3576.RkFvb.Access
import Edk2Rk3576.RkFvb.EraseBlocks
import Edk2Rk3576.RkFvb.WriteThrough
import Edk2Rk3576.RkFvb.DiskDump
import Edk2Rk3576.RkFvb.Header
import Edk2Rk3576.RkFvb.Attributes
import Edk2Rk3576.VariableStub
import Edk2Rk3576.BaseVariable.Enumerate
import Edk2Rk3576.BaseVariable.Confined
import Edk2Rk3576.BaseVariable.Transparent
import Edk2Rk3576.BaseVariable.FtwWorkSpace
import Edk2Rk3576.FdtPlatform.Room
import Edk2Rk3576.FdtPlatform.BootDevice
import Edk2Rk3576.Acpi.Integers
import Edk2Rk3576.RkAtags
import Edk2Rk3576.Sdram
import Edk2Rk3576.Pcf8563
import Edk2Rk3576.OsIdentification
import Edk2Rk3576.Smbios.BiosVersion
import Edk2Rk3576.Gop.Exact
import Edk2Rk3576.Lcd.SetMode
import Edk2Rk3576.Lcd.Detect
import Edk2Rk3576.Lcd.DrmMode
import Edk2Rk3576.I2c.Divider
import Edk2Rk3576.Edid.Confined
import Edk2Rk3576.Edid.DetailedTiming
import Edk2Rk3576.Eqos.Transmit
import Edk2Rk3576.Eqos.Frames
import Edk2Rk3576.Eqos.Filters
import Edk2Rk3576.Eqos.Effects
import Edk2Rk3576.Pcie.Config
import Edk2Rk3576.Pcie.Apertures
import Edk2Rk3576.MemoryMap.Sound
import Edk2Rk3576.DisplayVariables
import Edk2Rk3576.Acpi.Tables
import Edk2Rk3576.RkMtl
import Edk2Rk3576.ExitBootServicesHook
import Edk2Rk3576.Vop2.History
import Edk2Rk3576.Vop2.Shadow
import Edk2Rk3576.DwMmc.Clock
import Edk2Rk3576.DwMmc.QueueRuns
import Edk2Rk3576.Hdmi.GetEdid
import Edk2Rk3576.Hdmi.RationalApproximation
import Edk2Rk3576.Hdmi.Setup
import Edk2Rk3576.Spi.Rk806
import Edk2Rk3576.Rk860xRegulator
import Edk2Rk3576.Lib.FairService
import Edk2Rk3576.Spi.PioRuns
import Edk2Rk3576.Lib.Searches
import Edk2Rk3576.Cru.PllV1
import Edk2Rk3576.Vop2.PowerDomains
import Edk2Rk3576.Vop2.DisplayPowerDomains
import Edk2Rk3576.Vop2.Scale
import Edk2Rk3576.Vop2.Overscan
import Edk2Rk3576.Vop2.DisplayClock
import Edk2Rk3576.BaseVariable.IndexEntries
import Edk2Rk3576.Lib.UnitPool
import Edk2Rk3576.Ohci.MemPool
import Edk2Rk3576.Ohci.MemBlocks
import Edk2Rk3576.Ohci.MemPoolSpec
import Edk2Rk3576.Ohci.MemPoolRuns
import Edk2Rk3576.Lib.SharedTails
import Edk2Rk3576.Ohci.Descriptors
import Edk2Rk3576.Ohci.Device
import Edk2Rk3576.Ohci.DeviceSpec
import Edk2Rk3576.Ohci.TransferSpec
import Edk2Rk3576.Ohci.Schedule
import Edk2Rk3576.Ohci.ScheduleInit
import Edk2Rk3576.Ohci.Interrupts
import Edk2Rk3576.Ohci.BulkControl
import Edk2Rk3576.Ohci.InterruptSpec
import Edk2Rk3576.Ohci.BulkControlSpec
import Edk2Rk3576.Ohci.HouseKeeper
import Edk2Rk3576.Ohci.TransfersSound
import Edk2Rk3576.Ohci.Reset
import Edk2Rk3576.Ohci.Runs
import Edk2Rk3576.Ohci.RunResults
import Edk2Rk3576.Lib.AlignedPieces
import Edk2Rk3576.Pcie.ConfigAccess
import Edk2Rk3576.Pcie.ConfigBuffer
import Edk2Rk3576.Pcie.ConfigRanges
import Edk2Rk3576.Pcie.ConfigStore
import Edk2Rk3576.Lib.EnabledFields
import Edk2Rk3576.Gpio
