import Mathlib.Logic.Function.Basic
import Mathlib.Data.List.Nodup

/-!
# A register file

Several parties set up the same registers, each for a use of its own. What a party has written
stands as long as nobody else writes.
-/

variable {ρ : Type*} {ν : Type*} {regs : ρ → ν} {ws : List (ρ × ν)} {w : ρ × ν}

/-- The registers hold what has been written. -/
def Agrees (regs : ρ → ν) (ws : List (ρ × ν)) : Prop := ∀ w ∈ ws, regs w.1 = w.2

theorem agrees_nil : Agrees regs [] := List.forall_mem_nil _

variable [DecidableEq ρ]

def writeReg (regs : ρ → ν) (w : ρ × ν) : ρ → ν := Function.update regs w.1 w.2

/-- One more register. -/
theorem Agrees.concat (h : Agrees regs ws) (hw : w.1 ∉ ws.map Prod.fst) :
    Agrees (writeReg regs w) (ws ++ [w]) := by
  intro v hv
  rw [List.mem_append, List.mem_singleton] at hv
  rcases hv with hv | rfl
  · have hne : v.1 ≠ w.1 := fun heq => hw (heq ▸ List.mem_map_of_mem hv)
    rw [writeReg, Function.update_of_ne hne]
    exact h v hv
  · exact Function.update_self _ _ _

def writeRegs (regs : ρ → ν) (ws : List (ρ × ν)) : ρ → ν := ws.foldl writeReg regs

/-- The rest of the registers. -/
theorem Agrees.append {vs : List (ρ × ν)} (h : Agrees regs ws)
    (hnodup : ((ws ++ vs).map Prod.fst).Nodup) : Agrees (writeRegs regs vs) (ws ++ vs) := by
  induction vs generalizing regs ws with
  | nil => simpa [writeRegs] using h
  | cons v vs ih =>
    have hv : v.1 ∉ ws.map Prod.fst := by
      rw [List.map_append, List.map_cons] at hnodup
      exact fun hmem => List.disjoint_of_nodup_append hnodup hmem List.mem_cons_self
    have hnodup' : ((ws ++ [v] ++ vs).map Prod.fst).Nodup := by
      rwa [List.append_assoc, List.singleton_append]
    have hrest := ih (h.concat hv) hnodup'
    rwa [List.append_assoc, List.singleton_append] at hrest

/-- What is written to a register last, if anything is. -/
def lastWrite : List (ρ × ν) → ρ → Option ν
  | [], _ => none
  | w :: ws, r => (lastWrite ws r).or (if w.1 = r then some w.2 else none)

/-- The last write is one of the writes. -/
theorem mem_of_lastWrite {r : ρ} {v : ν} : ∀ {ws : List (ρ × ν)}, lastWrite ws r = some v →
    (r, v) ∈ ws
  | w :: ws, h => by
    rw [lastWrite] at h
    rcases hrest : lastWrite ws r with _ | v'
    · rw [hrest, Option.none_or] at h
      split_ifs at h with hr
      obtain rfl := Option.some.inj h
      rw [← hr]
      exact List.mem_cons_self
    · rw [hrest, Option.some_or] at h
      obtain rfl := Option.some.inj h
      exact List.mem_cons_of_mem w (mem_of_lastWrite hrest)

theorem writeRegs_apply (regs : ρ → ν) (ws : List (ρ × ν)) (r : ρ) :
    writeRegs regs ws r = (lastWrite ws r).getD (regs r) := by
  induction ws generalizing regs with
  | nil => rfl
  | cons w ws ih =>
    change writeRegs (writeReg regs w) ws r = _
    rw [ih, lastWrite, writeReg]
    rcases lastWrite ws r with _ | v
    · split_ifs with hr
      · rw [← hr]
        exact Function.update_self _ _ _
      · exact Function.update_of_ne (Ne.symm hr) _ _
    · rfl

/-- What is written last stands. -/
theorem agrees_of_lastWrite {vs : List (ρ × ν)} (h : ∀ v ∈ vs, lastWrite ws v.1 = some v.2) :
    Agrees (writeRegs regs ws) vs := fun v hv => by
  rw [writeRegs_apply, h v hv]
  rfl

/-- So does what nothing more is written to. -/
theorem Agrees.writeRegs {vs : List (ρ × ν)} (h : Agrees regs vs)
    (hws : ∀ v ∈ vs, lastWrite ws v.1 = none) : Agrees (writeRegs regs ws) vs := fun v hv => by
  rw [writeRegs_apply, hws v hv]
  exact h v hv
