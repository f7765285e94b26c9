import Edk2Rk3576.Hdmi.PhyPll
import Edk2Rk3576.Lib.Polling
import Edk2Rk3576.Lib.RegisterFile

/-!
# Programming the HDMI PHY

What `HdptxRopllCmnConfig` and `HdptxRopllTmdsModeConfig` write to the registers of the PHY, which go
by their numbers here. Each of the two then waits for the status of the PHY.
-/

namespace Edk2Rk3576.Hdmi

abbrev PhyRegs := ℕ → UInt32

/-- The status at each poll of each attempt. -/
abbrev PhyStatus := ℕ → ℕ → UInt32

def hdptxOPllLockDone : UInt32 := 0x8
def hdptxOPhyClkRdy : UInt32 := 0x4
def hdptxOPhyRdy : UInt32 := 0x2

def hdptxLockRetries : ℕ := 1

/-- A poll finds the two bits in time. -/
def statusReady (ready : UInt32) (status : ℕ → UInt32) : Bool :=
  (pollFor (fun i =>
    if status i &&& ready ≠ 0 ∧ status i &&& hdptxOPllLockDone ≠ 0 then some () else none)
    50 0).isSome

def phyUpdateBits (reg : ℕ) (mask val : UInt32) (regs : PhyRegs) : PhyRegs :=
  writeReg regs (reg, regs reg &&& ~~~mask ||| val &&& mask)

/-! ### The PLL -/

def hdptxPostEnablePll (status : PhyStatus) : EfiStatus :=
  if (List.range hdptxLockRetries).any fun attempt =>
      statusReady hdptxOPhyClkRdy (status attempt) then efiSuccess
  else efiTimeout

/-- What is written in front of the configuration. -/
def cmnFront : List (ℕ × UInt32) :=
  [ (0x0008, 0x00), (0x0009, 0x0c), (0x000a, 0x83), (0x000b, 0x06), (0x000c, 0x20), (0x000d, 0xb8),
    (0x000e, 0x0f), (0x000f, 0x0f), (0x0010, 0x04), (0x0011, 0x01), (0x0012, 0x26), (0x0013, 0x22),
    (0x0014, 0x24), (0x0015, 0x77), (0x0016, 0x08), (0x0017, 0x20), (0x0018, 0x04), (0x0019, 0x48),
    (0x001a, 0x01), (0x001b, 0x00), (0x001c, 0x01), (0x001d, 0x64), (0x001e, 0x14), (0x001f, 0x00),
    (0x0020, 0x00), (0x0021, 0x00), (0x0022, 0x11), (0x0023, 0x00), (0x0024, 0x00), (0x0025, 0x53),
    (0x0026, 0x00), (0x0027, 0x00), (0x0028, 0x01), (0x0029, 0x01), (0x002a, 0x00), (0x002b, 0x00),
    (0x002c, 0x00), (0x002d, 0x00), (0x002e, 0x04), (0x002f, 0x00), (0x0030, 0x20), (0x0031, 0x30),
    (0x0032, 0x0b), (0x0033, 0x23), (0x0034, 0x00), (0x0035, 0x00), (0x0038, 0x00), (0x0039, 0x00),
    (0x003a, 0x00), (0x003b, 0x00), (0x003c, 0x80), (0x003d, 0x40), (0x003e, 0x0c), (0x003f, 0x83),
    (0x0040, 0x06), (0x0041, 0x20), (0x0042, 0x78), (0x0043, 0x00), (0x0044, 0x46), (0x0045, 0x24),
    (0x0046, 0xdd), (0x0047, 0x00), (0x0048, 0x11), (0x0049, 0xfa), (0x004a, 0x08), (0x004b, 0x00),
    (0x004c, 0x01), (0x004d, 0x64), (0x004e, 0x34), (0x004f, 0x00), (0x0050, 0x00) ]

/-- What is written between the fractions and the clock of the pixels. -/
def cmnMiddle : List (ℕ × UInt32) :=
  [ (0x006b, 0x04), (0x0073, 0x30), (0x0074, 0x04), (0x0075, 0x20), (0x0076, 0x30), (0x0077, 0x08),
    (0x0078, 0x0c), (0x0079, 0x00), (0x007b, 0x00), (0x007c, 0x00), (0x007d, 0x00), (0x007e, 0x00),
    (0x007f, 0x00), (0x0080, 0x00), (0x0081, 0x01), (0x0082, 0x04), (0x0083, 0x24), (0x0084, 0x20),
    (0x0085, 0x03) ]

def cmnEnd : List (ℕ × UInt32) :=
  [ (0x0087, 0x04), (0x0089, 0x00), (0x008a, 0x55), (0x008b, 0x25), (0x008c, 0x2c), (0x008d, 0x22),
    (0x008e, 0x14), (0x008f, 0x20), (0x0090, 0x00), (0x0091, 0x00), (0x0092, 0x00), (0x0093, 0x00),
    (0x0095, 0x00), (0x0097, 0x02), (0x0099, 0x04), (0x009a, 0x11), (0x009b, 0x00) ]

/-- A field of the configuration, which is a byte. -/
def phyField (n : ℕ) : UInt32 := (UInt8.ofNat n).toUInt32

/-- The writes of a configuration. -/
def ropllCmnWrites (cfg : RoPllConfig) (regs : PhyRegs) : PhyRegs :=
  let regs := writeRegs regs cmnFront
  let regs := writeRegs regs
    [ (0x0051, phyField cfg.pmsMdiv), (0x0055, phyField cfg.pmsMdivAfc),
      (0x0059, phyField cfg.pmsPdiv <<< 4 ||| phyField cfg.pmsRefdiv),
      (0x005a, phyField cfg.pmsSdiv <<< 4), (0x005c, 0x25), (0x005d, 0x0c), (0x005e, 0x4f) ]
  let regs := phyUpdateBits 0x005e 0x40 (phyField cfg.sdmEn <<< 6) regs
  let regs := if phyField cfg.sdmEn = 0 then phyUpdateBits 0x005e 0xf 0 regs else regs
  let regs := writeRegs regs [(0x005f, 0x01)]
  let regs := phyUpdateBits 0x0064 0x8 (phyField cfg.sdmNumSign <<< 3) regs
  let regs := writeRegs regs [(0x0065, phyField cfg.sdmNum), (0x0060, phyField cfg.sdmDeno)]
  let regs := phyUpdateBits 0x0069 0x7 (phyField cfg.sdcN) regs
  let regs := writeRegs regs [(0x006c, phyField cfg.sdcNum), (0x0070, phyField cfg.sdcDeno)]
  let regs := writeRegs regs cmnMiddle
  let regs := phyUpdateBits 0x0086 0xf0 (phyField cfg.pmsSdiv <<< 4) regs
  -- eight bits per component, which is no divider
  let regs := phyUpdateBits 0x0086 0xe 0 regs
  let regs := phyUpdateBits 0x0086 0x1 0x1 regs
  writeRegs regs cmnEnd

/-- `found` is what the table and the search have for the rate, and `bank` what the reset of the
registers leaves in them. -/
def hdptxRopllCmnConfig (found : Option RoPllConfig) (bank : PhyRegs) (status : PhyStatus)
    (regs : PhyRegs) : EfiStatus × PhyRegs :=
  match found with
  | none => (efiInvalidParameter, regs)
  | some cfg => (hdptxPostEnablePll status, ropllCmnWrites cfg bank)

/-! ### The lanes -/

/-- The four lanes in use, and none of them idle. -/
def laneEnable : List (ℕ × UInt32) :=
  [(0x0207, 0x0f), (0x0301, 0x80), (0x0401, 0x80), (0x0501, 0x80), (0x0601, 0x80)]

/-- From number `attempt` on. -/
def hdptxPostEnableLane (status : PhyStatus) : (retries attempt : ℕ) → PhyRegs → EfiStatus × PhyRegs
  | 0, _, regs => (efiTimeout, regs)
  | retries + 1, attempt, regs =>
    let regs := writeRegs regs laneEnable
    if statusReady hdptxOPhyRdy (status attempt) then (efiSuccess, regs)
    else hdptxPostEnableLane status retries (attempt + 1) regs

/-- A clock of a fortieth of the bit rate, and of a tenth. -/
def bitrateClk40 : List (ℕ × UInt32) :=
  [(0x0201, 0x00), (0x0202, 0x00), (0x0203, 0x0f), (0x0204, 0xff), (0x0205, 0xff)]

def bitrateClk10 : List (ℕ × UInt32) :=
  [(0x0201, 0x07), (0x0202, 0xc1), (0x0203, 0xf0), (0x0204, 0x7c), (0x0205, 0x1f)]

def laneInit : List (ℕ × UInt32) :=
  [ (0x0206, 0x07), (0x0303, 0x0c), (0x0307, 0x20), (0x030a, 0x17), (0x030b, 0x77), (0x030c, 0x77),
    (0x030d, 0x77), (0x030e, 0x38), (0x0310, 0x03), (0x0311, 0x0f), (0x0312, 0x00), (0x0316, 0x02),
    (0x031b, 0x01), (0x031e, 0x02), (0x031f, 0x15), (0x0320, 0xa0), (0x0403, 0x0c), (0x0407, 0x20),
    (0x040a, 0x17), (0x040b, 0x77), (0x040c, 0x77), (0x040d, 0x77), (0x040e, 0x38), (0x0410, 0x03),
    (0x0411, 0x0f), (0x0412, 0x00), (0x0416, 0x02), (0x041b, 0x01), (0x041e, 0x02), (0x041f, 0x15),
    (0x0420, 0xa0), (0x0503, 0x0c), (0x0507, 0x20), (0x050a, 0x17), (0x050b, 0x77), (0x050c, 0x77),
    (0x050d, 0x77), (0x050e, 0x38), (0x0510, 0x03), (0x0511, 0x0f), (0x0512, 0x00), (0x0516, 0x02),
    (0x051b, 0x01), (0x051e, 0x02), (0x051f, 0x15), (0x0520, 0xa0), (0x0603, 0x0c), (0x0607, 0x20),
    (0x060a, 0x17), (0x060b, 0x77), (0x060c, 0x77), (0x060d, 0x77), (0x060e, 0x38), (0x0610, 0x03),
    (0x0611, 0x0f), (0x0612, 0x00), (0x0616, 0x02), (0x061b, 0x01), (0x061e, 0x0a), (0x061f, 0x15),
    (0x0620, 0xa0), (0x0303, 0x2f), (0x0403, 0x2f), (0x0503, 0x2f), (0x0603, 0x2f), (0x0305, 0x03),
    (0x0405, 0x03), (0x0505, 0x03), (0x0605, 0x03), (0x0306, 0x1c), (0x0406, 0x1c), (0x0506, 0x1c),
    (0x0606, 0x1c) ]

def hdptxRopllTmdsModeConfig (bitRate : UInt32) (status : PhyStatus) (regs : PhyRegs) :
    EfiStatus × PhyRegs :=
  let regs := writeRegs regs
    [(0x0114, 0x00), (0x0115, 0x00), (0x0116, 0x00), (0x0117, 0x00), (0x0200, 0x06)]
  let regs := writeRegs regs (if bitRate ≥ 3400000 then bitrateClk40 else bitrateClk10)
  hdptxPostEnableLane status hdptxLockRetries 0 (writeRegs regs laneInit)

section Pattern

variable {regs : PhyRegs} {vs : List (ℕ × UInt32)} {bitRate : UInt32} {status : PhyStatus}

theorem hdptxPostEnableLane_agrees (hvs : ∀ v ∈ vs, lastWrite laneEnable v.1 = none) :
    ∀ (retries attempt : ℕ) {regs : PhyRegs}, Agrees regs vs →
      Agrees (hdptxPostEnableLane status retries attempt regs).2 vs
  | 0, _, _, h => h
  | retries + 1, attempt, _, h => by
    unfold hdptxPostEnableLane
    simp only []
    split_ifs
    · exact h.writeRegs hvs
    · exact hdptxPostEnableLane_agrees hvs retries (attempt + 1) (h.writeRegs hvs)

/-- The lanes leave the pattern of the rate as it is, however they come up. -/
theorem hdptxRopllTmdsModeConfig_agrees :
    Agrees (hdptxRopllTmdsModeConfig bitRate status regs).2
      (if bitRate ≥ 3400000 then bitrateClk40 else bitrateClk10) := by
  unfold hdptxRopllTmdsModeConfig
  simp only []
  split_ifs
  · refine hdptxPostEnableLane_agrees (by decide) _ _ (Agrees.writeRegs ?_ (by decide))
    exact agrees_of_lastWrite (by decide)
  · refine hdptxPostEnableLane_agrees (by decide) _ _ (Agrees.writeRegs ?_ (by decide))
    exact agrees_of_lastWrite (by decide)

end Pattern

end Edk2Rk3576.Hdmi
