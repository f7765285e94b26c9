import Edk2Rk3576.Lib.RegisterFile
import Edk2Rk3576.Lib.WriteEnable

/-!
# Fields of registers with write enables

A field is a register with write enables, and a mask of its lower half. A write that enables the
field sets it, and leaves alone every field that is apart from it; so after any number of writes a
field has what was written to it last.
-/

structure EnabledField where
  register : ℕ
  mask : BitVec 32
  small : mask.toNat < 2 ^ 16

namespace EnabledField

variable {f g : EnabledField} {regs : ℕ → BitVec 32} {v : BitVec 32}

/-- What is in the field, in its place. -/
def read (f : EnabledField) (regs : ℕ → BitVec 32) : BitVec 32 := regs f.register &&& f.mask

/-- A write that enables the field and nothing else. -/
def write (f : EnabledField) (v : BitVec 32) (regs : ℕ → BitVec 32) : ℕ → BitVec 32 :=
  Function.update regs f.register
    (writeEnabled (regs f.register) (f.mask <<< 16 ||| v &&& f.mask))

/-- The fields are in different registers, or have no bit in common. -/
def Apart (f g : EnabledField) : Prop := f.register ≠ g.register ∨ f.mask &&& g.mask = 0#32

theorem read_write : f.read (f.write v regs) = v &&& f.mask := by
  rw [read, write, Function.update_self, writeEnabled_and_mask f.small]

theorem read_write_of_apart (h : f.Apart g) : g.read (f.write v regs) = g.read regs := by
  rw [read, write]
  by_cases hreg : g.register = f.register
  · have hmask : f.mask &&& g.mask = 0#32 := h.resolve_left fun hne => hne hreg.symm
    rw [hreg, Function.update_self, writeEnabled_and f.small hmask, read, hreg]
  · rw [Function.update_of_ne hreg, read]

variable {ι : Type*} [DecidableEq ι] {fields : ι → EnabledField} {ws : List (ι × BitVec 32)} {i : ι}

/-- Writes of fields, one after the other. -/
def writeAll (fields : ι → EnabledField) (ws : List (ι × BitVec 32)) (regs : ℕ → BitVec 32) :
    ℕ → BitVec 32 :=
  ws.foldl (fun regs w => (fields w.1).write w.2 regs) regs

/-- A field has what was written to it last, or what it had if nothing was. -/
theorem read_writeAll (hapart : ∀ w ∈ ws, w.1 ≠ i → (fields w.1).Apart (fields i)) :
    (fields i).read (writeAll fields ws regs)
      = ((lastWrite ws i).map (· &&& (fields i).mask)).getD ((fields i).read regs) := by
  induction ws generalizing regs with
  | nil => rfl
  | cons w ws ih =>
    have hrest := @ih ((fields w.1).write w.2 regs)
      fun v hv => hapart v (List.mem_cons_of_mem w hv)
    change (fields i).read (writeAll fields ws ((fields w.1).write w.2 regs)) = _
    rw [hrest, lastWrite]
    rcases lastWrite ws i with _ | v
    · by_cases hi : w.1 = i
      · rw [if_pos hi, ← hi]
        exact read_write
      · rw [if_neg hi]
        exact read_write_of_apart (hapart w List.mem_cons_self hi)
    · rfl

end EnabledField
