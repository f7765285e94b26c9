import Edk2Rk3576.Edid.Modes
import Edk2Rk3576.Gop.Lcd
import Edk2Rk3576.Lib.Runs

/-!
# Setting a mode

`LcdGraphicsSetMode` gives back the frame buffer of the mode before where it is too small, publishes
the new mode, and only then sets up the displays.

What the platform and the display drivers answer is an argument of a call; the memory is the pages
that are allocated, and what is done to a display is in a log.
-/

namespace Edk2Rk3576.Lcd

open Cells

def efiPageShift : ℕ := 12

/-- `EFI_SIZE_TO_PAGES`. -/
def efiSizeToPages (size : ℕ) : ℕ :=
  size / 2 ^ efiPageShift + if size % 2 ^ efiPageShift ≠ 0 then 1 else 0

/-- `RK_BYTES_PER_PIXEL`, a `UINTN`. -/
def rkBytesPerPixel : ℕ := 4

-- the types of a `DRM_DISPLAY_MODE`
def drmModeTypeBuiltin : UInt32 := 1
def drmModeTypeCrtcC : UInt32 := 4 ||| drmModeTypeBuiltin

inductive GopPixelFormat
  | blueGreenRedReserved8BitPerColor
  | bltOnly
  deriving DecidableEq

/-- `EFI_GRAPHICS_OUTPUT_MODE_INFORMATION`. -/
structure GopModeInfo where
  horizontalResolution : UInt32
  verticalResolution : UInt32
  pixelFormat : GopPixelFormat
  pixelsPerScanLine : UInt32
  deriving DecidableEq

/-- A `DISPLAY_STATE`, and which calls its drivers offer. -/
structure DisplayState where
  isEnable : Bool
  /-- `ConnectorState.DisplayMode.Type`. -/
  type : UInt32
  crtcInit : Bool
  crtcSetPlane : Bool
  crtcEnable : Bool
  connectorEnable : Bool

/-- What is done to the displays, each by its index. -/
inductive LcdEvent
  /-- The frame buffer is cleared. -/
  | blt
  | crtcInit (index : ℕ) (mode : DisplayMode)
  | crtcSetPlane (index : ℕ) (mode : DisplayMode) (vramBaseAddress : ℕ)
  | crtcEnable (index : ℕ)
  | connectorEnable (index : ℕ)

/-- What of an `LCD_INSTANCE` the start of the driver leaves for good, and `PcdDisplayRotation`. -/
structure LcdConfig where
  maxMode : UInt32
  displayModes : Cells DisplayMode
  displayStates : List (Option DisplayState)
  rotation : UInt16

/-- `EFI_GRAPHICS_OUTPUT_PROTOCOL_MODE`, the allocated pages, and the log. -/
structure LcdState where
  mode : UInt32
  info : GopModeInfo
  frameBufferBase : ℕ
  frameBufferSize : ℕ
  pages : Cells Bool
  events : List LcdEvent

/-- How `AllocatePages`, `SetMemoryAttributes` and the `Init` of each display's CRTC end. -/
structure SetModeAnswer where
  allocatePages : EfiStatus
  vramBaseAddress : ℕ
  setMemoryAttributes : EfiStatus
  crtcInit : ℕ → EfiStatus

section Model

/-- `LcdGraphicsSetModeInfo`. -/
def lcdGraphicsSetModeInfo (rotation : UInt16) (m : DisplayMode) : GopModeInfo :=
  if rotation = 90 then ⟨m.vActive, m.hActive, .bltOnly, m.vActive⟩
  else ⟨m.hActive, m.vActive, .blueGreenRedReserved8BitPerColor, m.hActive⟩

/-- `This->Blt` as it clears the frame; `LcdGraphicsBltCheckParameters` has it fail. -/
def lcdFill (info : GopModeInfo) : EfiStatus :=
  if info.horizontalResolution = 0 ∨ info.verticalResolution = 0 then efiInvalidParameter
  else efiSuccess

/-- The check is that of a blt to all of the frame. -/
theorem lcdFill_eq {m : GopMode} {info : GopModeInfo}
    (hh : info.horizontalResolution.toNat = m.horizontalResolution)
    (hv : info.verticalResolution.toNat = m.verticalResolution) :
    lcdFill info = lcdGraphicsBltCheckParameters m .videoFill true
      ⟨0, 0, 0, 0, info.horizontalResolution.toUInt64, info.verticalResolution.toUInt64, 0⟩ := by
  have hzero : ∀ x : UInt32, x.toUInt64 = 0 ↔ x = 0 := by
    intro x
    rw [← UInt64.toNat_inj, ← UInt32.toNat_inj, UInt32.toNat_toUInt64]
    rfl
  have hbeyond : m.beyond ⟨0, 0, 0, 0, info.horizontalResolution.toUInt64,
      info.verticalResolution.toUInt64, 0⟩ 0 0 = false := by
    have hm := m.horizontal_lt
    have hm' := m.vertical_lt
    simp only [GopMode.beyond, UInt32.toNat_toUInt64, hh, hv, UInt64.toNat_zero, Nat.zero_add]
    rw [Nat.mod_eq_of_lt (by omega), Nat.mod_eq_of_lt (by omega)]
    simp
  rw [lcdFill, lcdGraphicsBltCheckParameters]
  refine if_congr (or_congr (hzero _).symm (hzero _).symm) rfl ?_
  dsimp only
  rw [hbeyond]
  rfl

/-- `DisplaySetCrtcInfo`, less the timings it works out. -/
def displaySetCrtcInfo (type : UInt32) : EfiStatus :=
  if type &&& drmModeTypeCrtcC = drmModeTypeBuiltin then efiUnsupported else efiSuccess

/-- A display has no more to be done for it than its drivers offer. -/
def offered (present : Bool) (event : LcdEvent) : List LcdEvent := if present then [event] else []

/-- The loop over the displays from `index` on, `status` being what the call has so far. -/
def setUpDisplays (mode : DisplayMode) (vramBaseAddress : ℕ) (crtcInit : ℕ → EfiStatus) :
    ℕ → List (Option DisplayState) → EfiStatus → EfiStatus × List LcdEvent
  | _, [], status => (status, [])
  | index, none :: displays, status =>
    setUpDisplays mode vramBaseAddress crtcInit (index + 1) displays status
  | index, some d :: displays, status =>
    if d.isEnable = false then
      setUpDisplays mode vramBaseAddress crtcInit (index + 1) displays status
    else
      let status := displaySetCrtcInfo d.type
      if efiError status then (status, [])
      else
        let status := if d.crtcInit then crtcInit index else status
        let events := offered d.crtcInit (.crtcInit index mode)
        if efiError status then (status, events)
        else
          let r := setUpDisplays mode vramBaseAddress crtcInit (index + 1) displays status
          (r.1, events ++ offered d.crtcSetPlane (.crtcSetPlane index mode vramBaseAddress) ++
            offered d.crtcEnable (.crtcEnable index) ++
            offered d.connectorEnable (.connectorEnable index) ++ r.2)

variable (g : LcdConfig) (n : UInt32) (a : SetModeAnswer)

/-- The initialisation for a mode: the frame is cleared, and the displays are set up. -/
def LcdConfig.initialise (vramBaseAddress : ℕ) : EfiStatus × List LcdEvent :=
  let mode := g.displayModes n.toNat
  let r := setUpDisplays mode vramBaseAddress a.crtcInit 0 g.displayStates
    (lcdFill (lcdGraphicsSetModeInfo g.rotation mode))
  (r.1, .blt :: r.2)

/-- `VramSize`. The number of pixels is a `UINT32`. -/
def LcdConfig.vramSize : ℕ :=
  let mode := g.displayModes n.toNat
  (mode.hActive * mode.vActive).toNat * rkBytesPerPixel

/-- From where the mode information is updated on. -/
def publish (vramBaseAddress : ℕ) (s : LcdState) : EfiStatus × LcdState :=
  let r := g.initialise n a vramBaseAddress
  (r.1, { s with
    mode := n
    info := lcdGraphicsSetModeInfo g.rotation (g.displayModes n.toNat)
    frameBufferBase := vramBaseAddress
    frameBufferSize := g.vramSize n
    events := s.events ++ r.2 })

def pageOf (address : ℕ) : ℕ := address / 2 ^ efiPageShift

def LcdState.freePages (base pages : ℕ) (s : LcdState) : LcdState :=
  { s with pages := s.pages.fill (pageOf base) pages false }

def LcdState.allocatePages (base pages : ℕ) (s : LcdState) : LcdState :=
  { s with pages := s.pages.fill (pageOf base) pages true }

/-- `LcdGraphicsSetMode`. -/
def lcdGraphicsSetMode (s : LcdState) : EfiStatus × LcdState :=
  if g.maxMode ≤ n then (efiUnsupported, s)
  else if n = s.mode then (efiSuccess, s)
  else
    let numVramPages := efiSizeToPages (g.vramSize n)
    let numPreviousVramPages := efiSizeToPages s.frameBufferSize
    if numPreviousVramPages < numVramPages then
      let s :=
        if numPreviousVramPages ≠ 0 then
          { s.freePages s.frameBufferBase numPreviousVramPages with frameBufferSize := 0 }
        else s
      if efiError a.allocatePages then (a.allocatePages, s)
      else
        let s := s.allocatePages a.vramBaseAddress numVramPages
        if efiError a.setMemoryAttributes then (a.setMemoryAttributes, s)
        else publish g n a a.vramBaseAddress s
    else publish g n a s.frameBufferBase s

/-- What `GetSupportedDisplayModes` leaves: no mode is set, and there is no frame buffer. -/
def LcdState.start (info : GopModeInfo) (frameBufferBase : ℕ) (pages : Cells Bool) : LcdState where
  mode := 0xffffffff
  info := info
  frameBufferBase := frameBufferBase
  frameBufferSize := 0
  pages := pages
  events := []

end Model

section Law

variable (g : LcdConfig) (n : UInt32) (a : SetModeAnswer) (s : LcdState)

/-- The mode, its information and its frame buffer belong together, in memory that is allocated;
without a mode there is no frame buffer. -/
structure Described : Prop where
  info : s.mode < g.maxMode →
    s.info = lcdGraphicsSetModeInfo g.rotation (g.displayModes s.mode.toNat)
  size : s.frameBufferSize = if s.mode < g.maxMode then g.vramSize s.mode else 0
  allocated : ∀ k < efiSizeToPages s.frameBufferSize, s.pages (pageOf s.frameBufferBase + k) = true

/-- A call for the mode goes through the whole initialisation, once it has its frame buffer. -/
def Redoes : Prop :=
  ∀ a : SetModeAnswer, efiError a.allocatePages = false → efiError a.setMemoryAttributes = false →
    let r := lcdGraphicsSetMode g n a s
    r.1 = (g.initialise n a r.2.frameBufferBase).1 ∧
      r.2.events = s.events ++ (g.initialise n a r.2.frameBufferBase).2

/-- A failed call. -/
def SetModeLaw (r : EfiStatus × LcdState) : Prop :=
  efiError r.1 = true → Described g r.2 ∧ (n < g.maxMode → Redoes g n r.2)

/-- The frame buffer there is will do, or there is a new one. -/
def GetsFrame : Prop :=
  efiSizeToPages (g.vramSize n) ≤ efiSizeToPages s.frameBufferSize ∨
    efiError a.allocatePages = false ∧ efiError a.setMemoryAttributes = false

/-- The display is to be set up, and cannot be. -/
def DisplayState.Fails (crtcInit : ℕ → EfiStatus) (index : ℕ) (d : DisplayState) : Prop :=
  d.isEnable = true ∧ (efiError (displaySetCrtcInfo d.type) = true ∨
    d.crtcInit = true ∧ efiError (crtcInit index) = true)

/-- One of the displays from `index` on cannot be set up. -/
def SomeFails (crtcInit : ℕ → EfiStatus) (index : ℕ) (displays : List (Option DisplayState)) :
    Prop :=
  ∃ p ∈ displays.zipIdx index, ∃ d : DisplayState, p.1 = some d ∧ d.Fails crtcInit p.2

def NoneEnabled (displays : List (Option DisplayState)) : Prop :=
  ∀ d : DisplayState, some d ∈ displays → d.isEnable = false

/-- A display cannot be set up, or there is none to set up and nothing to clear. -/
def SetUpFails : Prop :=
  SomeFails a.crtcInit 0 g.displayStates ∨ NoneEnabled g.displayStates ∧
    efiError (lcdFill (lcdGraphicsSetModeInfo g.rotation (g.displayModes n.toNat))) = true

/-- A call that changes the mode has its frame buffer, or had none before, and then no step of the
initialisation fails. -/
def Fine : Prop :=
  n < g.maxMode → n ≠ s.mode →
    (GetsFrame g n a s → ¬ SetUpFails g n a) ∧
      (¬ GetsFrame g n a s → efiSizeToPages s.frameBufferSize = 0)

/-- A call. -/
structure SetModeCall where
  modeNumber : UInt32
  answer : SetModeAnswer

def LcdState.step (s : LcdState) (call : SetModeCall) : Except Empty LcdState :=
  .ok (lcdGraphicsSetMode g call.modeNumber call.answer s).2

end Law

section SettingUp

variable {g : LcdConfig} {n : UInt32} {a : SetModeAnswer} {mode : DisplayMode}
  {vramBaseAddress : ℕ} {crtcInit : ℕ → EfiStatus}

theorem someFails_none {index : ℕ} {displays : List (Option DisplayState)} :
    SomeFails crtcInit index (none :: displays) ↔ SomeFails crtcInit (index + 1) displays := by
  simp [SomeFails, List.zipIdx_cons]

theorem someFails_some {index : ℕ} {d : DisplayState} {displays : List (Option DisplayState)} :
    SomeFails crtcInit index (some d :: displays) ↔
      d.Fails crtcInit index ∨ SomeFails crtcInit (index + 1) displays := by
  simp [SomeFails, List.zipIdx_cons]

theorem noneEnabled_none {displays : List (Option DisplayState)} :
    NoneEnabled (none :: displays) ↔ NoneEnabled displays := by
  simp [NoneEnabled]

theorem noneEnabled_some {d : DisplayState} {displays : List (Option DisplayState)} :
    NoneEnabled (some d :: displays) ↔ d.isEnable = false ∧ NoneEnabled displays := by
  simp [NoneEnabled]

theorem DisplayState.fails_iff {index : ℕ} {d : DisplayState} (hon : d.isEnable = true)
    (hinfo : ¬ efiError (displaySetCrtcInfo d.type) = true) :
    d.Fails crtcInit index ↔ efiError (if d.crtcInit = true then crtcInit index else
      displaySetCrtcInfo d.type) = true := by
  rw [DisplayState.Fails]
  split_ifs with hinit
  · simp [hon, hinfo, hinit]
  · simp [hon, hinfo, hinit]

/-- The status is that of the first display that fails, else that of the last one set up. -/
theorem setUpDisplays_fails (displays : List (Option DisplayState)) (index : ℕ)
    (status : EfiStatus) :
    efiError (setUpDisplays mode vramBaseAddress crtcInit index displays status).1 = true ↔
      SomeFails crtcInit index displays ∨ NoneEnabled displays ∧ efiError status = true := by
  induction displays generalizing index status with
  | nil => simp [setUpDisplays, SomeFails, NoneEnabled]
  | cons display displays ih =>
    cases display with
    | none => rw [setUpDisplays, ih, someFails_none, noneEnabled_none]
    | some d =>
      rw [setUpDisplays, someFails_some, noneEnabled_some]
      by_cases hoff : d.isEnable = false
      · rw [if_pos hoff, ih, DisplayState.Fails, hoff]
        simp
      have hon : d.isEnable = true := by simpa using hoff
      rw [if_neg hoff]
      by_cases hinfo : efiError (displaySetCrtcInfo d.type) = true
      · dsimp only
        rw [if_pos hinfo]
        simp [DisplayState.Fails, hon, hinfo]
      dsimp only
      rw [if_neg hinfo]
      rw [DisplayState.fails_iff hon hinfo]
      by_cases hinit : efiError (if d.crtcInit = true then crtcInit index else
          displaySetCrtcInfo d.type) = true
      · rw [if_pos hinit]
        simp [hinit]
      · rw [if_neg hinit]
        dsimp only
        rw [ih]
        simp [hinit, hon]

/-- The initialisation fails where one of its steps does. -/
theorem initialise_fails : efiError (g.initialise n a vramBaseAddress).1 = true ↔
    SetUpFails g n a :=
  setUpDisplays_fails g.displayStates 0 _

end SettingUp

section Calls

variable {g : LcdConfig} {n : UInt32} {a : SetModeAnswer} {s : LcdState}

theorem efiSizeToPages_zero : efiSizeToPages 0 = 0 := by decide

/-- A call that does not get its frame buffer has given back the one before. -/
structure Refused (s : LcdState) (r : EfiStatus × LcdState) : Prop where
  fails : efiError r.1 = true
  mode : r.2.mode = s.mode
  info : r.2.info = s.info
  size : r.2.frameBufferSize =
    if efiSizeToPages s.frameBufferSize ≠ 0 then 0 else s.frameBufferSize
  events : r.2.events = s.events

theorem lcdGraphicsSetMode_refused (hn : n < g.maxMode) (hne : n ≠ s.mode)
    (h : ¬ GetsFrame g n a s) : Refused s (lcdGraphicsSetMode g n a s) := by
  rw [GetsFrame, not_or, not_le] at h
  rw [lcdGraphicsSetMode, if_neg (UInt32.not_le.2 hn), if_neg hne]
  dsimp only
  rw [if_pos h.1]
  by_cases halloc : efiError a.allocatePages = true
  · rw [if_pos halloc]
    split_ifs with hprevious
    · exact ⟨halloc, rfl, rfl, (if_pos hprevious).symm, rfl⟩
    · exact ⟨halloc, rfl, rfl, (if_neg hprevious).symm, rfl⟩
  · have hattributes : efiError a.setMemoryAttributes = true := by
      by_contra hno
      exact h.2 ⟨by simpa using halloc, by simpa using hno⟩
    rw [if_neg halloc, if_pos hattributes]
    split_ifs with hprevious
    · exact ⟨hattributes, rfl, rfl, (if_pos hprevious).symm, rfl⟩
    · exact ⟨hattributes, rfl, rfl, (if_neg hprevious).symm, rfl⟩

/-- A call that gets it publishes the mode. -/
theorem lcdGraphicsSetMode_publishes (hn : n < g.maxMode) (hne : n ≠ s.mode)
    (h : GetsFrame g n a s) : ∃ base s', lcdGraphicsSetMode g n a s = publish g n a base s' ∧
      s'.events = s.events ∧ (Described g s →
        ∀ k < efiSizeToPages (g.vramSize n), s'.pages (pageOf base + k) = true) := by
  rw [lcdGraphicsSetMode, if_neg (UInt32.not_le.2 hn), if_neg hne]
  dsimp only
  by_cases hfits : efiSizeToPages (g.vramSize n) ≤ efiSizeToPages s.frameBufferSize
  · rw [if_neg (Nat.not_lt.2 hfits)]
    exact ⟨s.frameBufferBase, s, rfl, rfl, fun hs k hk => hs.allocated k (hk.trans_le hfits)⟩
  · obtain ⟨halloc, hattributes⟩ := h.resolve_left hfits
    rw [if_pos (Nat.not_le.1 hfits), if_neg (by rw [halloc]; decide),
      if_neg (by rw [hattributes]; decide)]
    refine ⟨a.vramBaseAddress, _, rfl, ?_, fun _ k hk => fill_of_mem (by omega)⟩
    split_ifs <;> rfl

theorem described_publish {base : ℕ} {s' : LcdState} (hn : n < g.maxMode)
    (hpages : ∀ k < efiSizeToPages (g.vramSize n), s'.pages (pageOf base + k) = true) :
    Described g (publish g n a base s').2 where
  info _ := rfl
  size := (if_pos hn).symm
  allocated := hpages

/-- A mode that is not the current one is initialised. -/
theorem redoes_of_ne (hn : n < g.maxMode) (hne : n ≠ s.mode) : Redoes g n s := by
  intro a halloc hattributes
  obtain ⟨base, s', heq, hevents, -⟩ :=
    lcdGraphicsSetMode_publishes (s := s) hn hne (.inr ⟨halloc, hattributes⟩)
  rw [heq, ← hevents]
  exact ⟨rfl, rfl⟩

/-- The current one is not. -/
theorem not_redoes_current (hn : n < g.maxMode) (hmode : s.mode = n) : ¬ Redoes g n s := by
  intro h
  have hevents := (h ⟨efiSuccess, 0, efiSuccess, fun _ => efiSuccess⟩ rfl rfl).2
  rw [lcdGraphicsSetMode, if_neg (UInt32.not_le.2 hn), if_pos hmode.symm] at hevents
  have hlength := congrArg List.length hevents
  rw [List.length_append] at hlength
  change s.events.length = s.events.length + (_ + 1) at hlength
  omega

/-- A call that goes wrong keeps to the law exactly where it is fine. -/
theorem setModeLaw_iff (hs : Described g s) :
    SetModeLaw g n (lcdGraphicsSetMode g n a s) ↔ Fine g n a s := by
  by_cases hn : n < g.maxMode
  swap
  · have heq : lcdGraphicsSetMode g n a s = (efiUnsupported, s) := by
      rw [lcdGraphicsSetMode, if_pos (UInt32.not_lt.1 hn)]
    rw [heq]
    exact ⟨fun _ hno => absurd hno hn, fun _ _ => ⟨hs, fun hno => absurd hno hn⟩⟩
  by_cases hne : n = s.mode
  · have heq : lcdGraphicsSetMode g n a s = (efiSuccess, s) := by
      rw [lcdGraphicsSetMode, if_neg (UInt32.not_le.2 hn), if_pos hne]
    rw [heq]
    exact ⟨fun _ _ hno => absurd hne hno, fun _ herr => by simp at herr⟩
  by_cases hframe : GetsFrame g n a s
  · obtain ⟨base, s', heq, -, -⟩ := lcdGraphicsSetMode_publishes hn hne hframe
    have hfails : efiError (publish g n a base s').1 = true ↔ SetUpFails g n a := initialise_fails
    rw [heq]
    constructor
    · intro hlaw _ _
      refine ⟨fun _ herr => ?_, fun hno => absurd hframe hno⟩
      exact not_redoes_current hn rfl ((hlaw (hfails.2 herr)).2 hn)
    · intro hfine herr
      exact absurd (hfails.1 herr) ((hfine hn hne).1 hframe)
  · have hrefused := lcdGraphicsSetMode_refused hn hne hframe
    constructor
    · intro hlaw _ _
      refine ⟨fun hyes => absurd hyes hframe, fun _ => ?_⟩
      have hsize := (hlaw hrefused.fails).1.size
      rw [hrefused.mode, ← hs.size, hrefused.size] at hsize
      by_contra hprevious
      rw [if_pos hprevious] at hsize
      exact hprevious (by rw [← hsize]; exact efiSizeToPages_zero)
    · intro hfine _
      have hnone := (hfine hn hne).2 hframe
      have hsize : _ = s.frameBufferSize := hrefused.size.trans (if_neg (not_not.2 hnone))
      refine ⟨⟨fun hmode => ?_, ?_, ?_⟩, fun _ => redoes_of_ne hn (by rwa [hrefused.mode])⟩
      · rw [hrefused.mode] at hmode ⊢
        rw [hrefused.info, hs.info hmode]
      · rw [hrefused.mode, hsize, hs.size]
      · rw [hsize, hnone]
        nofun

theorem Described.step (hs : Described g s) (hfine : Fine g n a s) :
    Described g (lcdGraphicsSetMode g n a s).2 := by
  by_cases hn : n < g.maxMode
  swap
  · rwa [lcdGraphicsSetMode, if_pos (UInt32.not_lt.1 hn)]
  by_cases hne : n = s.mode
  · rwa [lcdGraphicsSetMode, if_neg (UInt32.not_le.2 hn), if_pos hne]
  by_cases hframe : GetsFrame g n a s
  · obtain ⟨base, s', heq, -, hpages⟩ := lcdGraphicsSetMode_publishes hn hne hframe
    rw [heq]
    exact described_publish hn (hpages hs)
  · exact ((setModeLaw_iff hs).2 hfine (lcdGraphicsSetMode_refused hn hne hframe).fails).1

theorem described_start {info : GopModeInfo} {base : ℕ} {pages : Cells Bool} :
    Described g (.start info base pages) := by
  have hno : ¬ (0xffffffff : UInt32) < g.maxMode := by
    intro h
    have hlt := UInt32.lt_iff_toNat_lt.1 h
    have hmax := g.maxMode.toNat_lt
    have hones : (0xffffffff : UInt32).toNat = 2 ^ 32 - 1 := rfl
    omega
  refine ⟨fun h => absurd h hno, (if_neg hno).symm, fun k hk => ?_⟩
  rw [LcdState.start, efiSizeToPages_zero] at hk
  exact absurd hk (Nat.not_lt_zero k)

/-- The calls of a run leave the display state as the law says where they fail exactly if each of
them is fine: the frame buffer before is not given back for one there is none of, and what comes
after the mode is published does not fail. -/
theorem lcdGraphicsSetMode_lawful_iff (g : LcdConfig) (info : GopModeInfo) (base : ℕ)
    (pages : Cells Bool) (calls : List SetModeCall) :
    AlongRun (LcdState.step g) (fun s call => SetModeLaw g call.modeNumber
        (lcdGraphicsSetMode g call.modeNumber call.answer s)) (.start info base pages) calls ↔
      AlongRun (LcdState.step g) (fun s call => Fine g call.modeNumber call.answer s)
        (.start info base pages) calls :=
  @AlongRun.iff_of_kept _ _ _ (LcdState.step g) _ _ (Described g) (fun _ => False)
    (fun _ _ hs hfine => hs.step hfine) (fun _ _ hs => setModeLaw_iff hs) _ _ described_start

/-- One mode of 1920x1080, on a display whose CRTC has an `Init`. -/
def oneDisplay : LcdConfig where
  maxMode := 1
  displayModes := fun _ => ⟨16, 148500, 1920, 88, 44, 148, 1, 1080, 4, 5, 36, 1, 0, 0⟩
  displayStates := [some ⟨true, 0, true, true, true, true⟩]
  rotation := 0

/-- There is a frame buffer, and the CRTC fails. -/
def crtcFails : SetModeAnswer := ⟨efiSuccess, 0x80000000, efiSuccess, fun _ => efiDeviceError⟩

/-- The mode stays published, and the next call for it does nothing. -/
theorem lcdGraphicsSetMode_publishes_early : ¬ ∀ (g : LcdConfig) (info : GopModeInfo) (base : ℕ)
    (pages : Cells Bool) (calls : List SetModeCall), AlongRun (LcdState.step g)
      (fun s call => SetModeLaw g call.modeNumber
        (lcdGraphicsSetMode g call.modeNumber call.answer s)) (.start info base pages) calls := by
  intro h
  have hlaw := (h oneDisplay ⟨0, 0, .bltOnly, 0⟩ 0 (fun _ => false) [⟨0, crtcFails⟩]).1
  have hfails : SetUpFails oneDisplay 0 crtcFails :=
    .inl ⟨(_, 0), List.mem_cons_self, _, rfl, rfl, .inr ⟨rfl, efiError_deviceError⟩⟩
  have hfine := (setModeLaw_iff described_start).1 hlaw
  exact (hfine (by decide) (by decide)).1 (.inr ⟨rfl, rfl⟩) hfails

end Calls

end Edk2Rk3576.Lcd
