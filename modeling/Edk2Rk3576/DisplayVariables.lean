import Edk2Rk3576.Efi

/-!
# The display variables

`InitializeDisplayVariables` runs at every boot. It seeds each setting that has no variable yet with
the firmware's default, or all of them for a reset to defaults. The mode preset it also replaces when
the saved one and the default differ in whether they are the monitor's own mode: meant for presets
that an earlier firmware left behind, but a preset the user saved looks the same.

The calls whose status is asserted are taken to succeed.
-/

namespace Edk2Rk3576

def displayModeNative : UInt32 := 0x80000000
def displayModeCustom : UInt32 := 0x80000001
def displayMode1920x1080 : UInt32 := 15

/-- What the board's build fixes: its connectors, and the default of each setting. -/
structure DisplayBoard where
  connectors : List UInt32
  modePresetDefault : UInt32
  modeCustomDefault : List UInt8
  forceOutputDefault : Bool
  duplicateOutputDefault : Bool
  rotationDefault : UInt16
  hdmiSignalingModeDefault : UInt8

/-- The variables of the form set. A PCD that is bound to one of them reads and writes it. -/
structure DisplayStore where
  modePreset : Option UInt32
  modeCustom : Option (List UInt8)
  connectorsPriority : Option (List UInt32)
  forceOutput : Option Bool
  duplicateOutput : Option Bool
  rotation : Option UInt16
  hdmiSignalingMode : Option UInt8
  -- the boot time ones, for the form
  connectorsMask : Option UInt32
  modeDefault : Option UInt32
  modeCustomDefault : Option (List UInt8)

/-- Whether `PcdSetPtrS` and `SetVariable` of the mode preset get through. -/
structure PresetWrites where
  pcdSet : Bool
  setVariable : Bool

section Initialize

variable (board : DisplayBoard)

def connectorsMask : UInt32 := board.connectors.foldl (· ||| ·) 0

/-- A setting with no variable yet, or one that is reset, gets its default. -/
def seed {α : Type*} (reset : Bool) (default : α) (variable_ : Option α) : Option α :=
  if reset then some default else some (variable_.getD default)

/-- The saved preset is replaced by the default. -/
def presetMigrates (saved default : UInt32) : Prop :=
  (saved = displayModeNative ∧ default ≠ displayModeNative)
    ∨ (default = displayModeNative ∧ saved ≠ displayModeNative)

instance (saved default : UInt32) : Decidable (presetMigrates saved default) := by
  unfold presetMigrates
  infer_instance

def initializeModePreset (reset : Bool) (w : PresetWrites) (s : DisplayStore) : Option UInt32 :=
  let replaced : Bool :=
    match reset, s.modePreset with
    | false, some saved => decide (presetMigrates saved board.modePresetDefault)
    | _, _ => true
  if replaced = true ∧ (w.pcdSet = true ∨ w.setVariable = true) then some board.modePresetDefault
  else s.modePreset

/-- `InitializeDisplayVariables`. -/
def initializeDisplayVariables (reset : Bool) (w : PresetWrites) (s : DisplayStore) :
    EfiStatus × DisplayStore :=
  let mask := connectorsMask board
  if mask = 0 then (efiUnsupported, s)
  else
    (efiSuccess,
      { modePreset := initializeModePreset board reset w s
        modeCustom := seed reset board.modeCustomDefault s.modeCustom
        connectorsPriority := seed reset board.connectors s.connectorsPriority
        forceOutput := seed reset board.forceOutputDefault s.forceOutput
        duplicateOutput := seed reset board.duplicateOutputDefault s.duplicateOutput
        rotation := seed reset board.rotationDefault s.rotation
        hdmiSignalingMode := seed reset board.hdmiSignalingModeDefault s.hdmiSignalingMode
        connectorsMask := some mask
        modeDefault := some board.modePresetDefault
        modeCustomDefault := some board.modeCustomDefault })

/-- A boot without a reset to defaults: the boot time variables are gone, and
`SetupDisplayVariables` runs. -/
def displayBoot (s : DisplayStore) (w : PresetWrites) : DisplayStore :=
  (initializeDisplayVariables board false w
    { s with connectorsMask := none, modeDefault := none, modeCustomDefault := none }).2

/-- The preset the display driver uses, `PcdDisplayModePreset`. -/
def DisplayStore.usedPreset (s : DisplayStore) : UInt32 := s.modePreset.getD 0x13

end Initialize

section Boots

variable {board : DisplayBoard} {s : DisplayStore} {saved : UInt32}

/-- What a boot does to a saved preset. -/
theorem displayBoot_modePreset (h : s.modePreset = some saved) (w : PresetWrites) :
    (displayBoot board s w).modePreset
      = if connectorsMask board ≠ 0 ∧ presetMigrates saved board.modePresetDefault
          ∧ (w.pcdSet ∨ w.setVariable) then some board.modePresetDefault else some saved := by
  unfold displayBoot initializeDisplayVariables
  by_cases hmask : connectorsMask board = 0
  · simp [hmask, h]
  · simp [hmask, h, initializeModePreset]

/-- No boot replaces a preset that is the monitor's own mode just if the default is. -/
theorem boots_modePreset (h : s.modePreset = some saved)
    (hkeeps : connectorsMask board = 0 ∨ ¬ presetMigrates saved board.modePresetDefault) :
    ∀ boots : List PresetWrites, (boots.foldl (displayBoot board) s).modePreset = some saved := by
  intro boots
  induction boots generalizing s with
  | nil => exact h
  | cons w boots ih =>
    refine ih ?_
    rw [displayBoot_modePreset h, if_neg]
    rintro ⟨hmask, hmigrates, -⟩
    exact hkeeps.elim hmask fun hnot => hnot hmigrates

/-- The saved preset stays in use over all later boots, whatever of their writes gets through,
exactly if the board has no connector, or the saved preset and the default are both the monitor's own
mode or neither is. -/
theorem usedPreset_survives_iff (h : s.modePreset = some saved) :
    (∀ boots : List PresetWrites, (boots.foldl (displayBoot board) s).usedPreset = saved)
      ↔ connectorsMask board = 0
        ∨ (saved = displayModeNative ↔ board.modePresetDefault = displayModeNative) := by
  have hmigrates : presetMigrates saved board.modePresetDefault
      ↔ ¬ (saved = displayModeNative ↔ board.modePresetDefault = displayModeNative) := by
    unfold presetMigrates
    tauto
  constructor
  · intro hall
    by_contra hnot
    rw [not_or] at hnot
    have hone := hall [⟨true, true⟩]
    rw [List.foldl_cons, List.foldl_nil, DisplayStore.usedPreset, displayBoot_modePreset h,
      if_pos ⟨hnot.1, hmigrates.2 hnot.2, Or.inl rfl⟩] at hone
    have hdefault : board.modePresetDefault = saved := hone
    rw [hdefault] at hnot
    exact hnot.2 Iff.rfl
  · intro hcond boots
    have hkeeps : connectorsMask board = 0 ∨ ¬ presetMigrates saved board.modePresetDefault :=
      hcond.imp_right fun hiff hm => hmigrates.1 hm hiff
    rw [DisplayStore.usedPreset, boots_modePreset h hkeeps boots]
    rfl

/-- One HDMI connector, and the boards' default preset, the monitor's own mode. -/
def rock4dDisplay : DisplayBoard where
  connectors := [0x800]
  modePresetDefault := displayModeNative
  modeCustomDefault := []
  forceOutputDefault := true
  duplicateOutputDefault := false
  rotationDefault := 0
  hdmiSignalingModeDefault := 0

/-- The variables after the user saved a preset in the form. -/
def savedStore (preset : UInt32) : DisplayStore where
  modePreset := some preset
  modeCustom := none
  connectorsPriority := none
  forceOutput := none
  duplicateOutput := none
  rotation := none
  hdmiSignalingMode := none
  connectorsMask := none
  modeDefault := none
  modeCustomDefault := none

/-- A saved native preset survives on such a board, whatever gets written. -/
theorem usedPreset_survives_native :
    (∀ boots : List PresetWrites,
        (boots.foldl (displayBoot rock4dDisplay) (savedStore displayModeNative)).usedPreset
          = displayModeNative)
      ↔ connectorsMask rock4dDisplay = 0
        ∨ (displayModeNative = displayModeNative
          ↔ rock4dDisplay.modePresetDefault = displayModeNative) :=
  usedPreset_survives_iff rfl

/-- A saved 1920x1080 is replaced at the next boot. -/
theorem usedPreset_not_survives :
    (displayBoot rock4dDisplay (savedStore displayMode1920x1080) ⟨true, true⟩).usedPreset
      = displayModeNative := by
  decide

end Boots

end Edk2Rk3576
