import Mathlib.Algebra.Group.Nat.Defs
import Mathlib.Tactic.Common

/-!
# EFI statuses

A status is a `UINTN`: zero is success, and the top bit marks an error. The flash driver returns
byte counts through the same type, so a status is kept as the number it is.
-/

namespace Edk2Rk3576

abbrev EfiStatus := ℕ

/-- A GUID, as the number its bytes spell. -/
abbrev EfiGuid := ℕ

def encodeError (n : ℕ) : EfiStatus := 2 ^ 63 + n

/-- `EFI_ERROR`: the top bit is set. -/
def efiError (s : EfiStatus) : Bool := decide ((2 ^ 63 : ℕ) ≤ s)

def efiSuccess : EfiStatus := 0
def efiLoadError : EfiStatus := encodeError 1
def efiInvalidParameter : EfiStatus := encodeError 2
def efiUnsupported : EfiStatus := encodeError 3
def efiBadBufferSize : EfiStatus := encodeError 4
def efiBufferTooSmall : EfiStatus := encodeError 5
def efiNotReady : EfiStatus := encodeError 6
def efiDeviceError : EfiStatus := encodeError 7
def efiOutOfResources : EfiStatus := encodeError 9
def efiNotFound : EfiStatus := encodeError 14
def efiAccessDenied : EfiStatus := encodeError 15
def efiTimeout : EfiStatus := encodeError 18
def efiAlreadyStarted : EfiStatus := encodeError 20

theorem efiError_encodeError (n : ℕ) : efiError (encodeError n) = true := by
  simp [efiError, encodeError]

theorem efiError_of_lt {s : ℕ} (h : s < 2 ^ 63) : efiError s = false := by
  simp only [efiError, decide_eq_false_iff_not]
  omega

@[simp] theorem efiError_success : efiError efiSuccess = false := by decide

@[simp] theorem efiError_deviceError : efiError efiDeviceError = true := efiError_encodeError 7

@[simp] theorem efiError_invalidParameter : efiError efiInvalidParameter = true :=
  efiError_encodeError 2

@[simp] theorem efiError_accessDenied : efiError efiAccessDenied = true := efiError_encodeError 15

@[simp] theorem efiError_badBufferSize : efiError efiBadBufferSize = true :=
  efiError_encodeError 4

theorem encodeError_ne_success (n : ℕ) : encodeError n ≠ efiSuccess := by
  simp [encodeError, efiSuccess]

/-- A `UINT32` parameter keeps the low half of a `UINTN` argument. -/
def toUint32 (n : ℕ) : ℕ := n % 2 ^ 32

theorem toUint32_of_lt {n : ℕ} (h : n < 2 ^ 32) : toUint32 n = n := Nat.mod_eq_of_lt h

end Edk2Rk3576
