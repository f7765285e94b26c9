import Edk2Rk3576.Lib.Yields

/-!
# Runs

A system takes steps, each on an input that its state may rule out. `Reached` is where its runs
get to, and an invariant of the steps holds there.
-/

inductive Reached {σ ι : Type*} (step : σ → ι → σ) (allowed : σ → ι → Prop) (s₀ : σ) : σ → Prop
  | start : Reached step allowed s₀ s₀
  | next {s : σ} (i : ι) : Reached step allowed s₀ s → allowed s i →
      Reached step allowed s₀ (step s i)

namespace Reached

variable {σ ι : Type*} {step : σ → ι → σ} {allowed : σ → ι → Prop} {s₀ s s' : σ}

theorem invariant {P : σ → Prop} (h : Reached step allowed s₀ s) (h₀ : P s₀)
    (hstep : ∀ s i, P s → allowed s i → P (step s i)) : P s := by
  induction h with
  | start => exact h₀
  | next i _ hi ih => exact hstep _ i ih hi

end Reached

/-- The inputs are allowed one after the other. -/
def AllowedRun {σ ι : Type*} (step : σ → ι → σ) (allowed : σ → ι → Prop) : σ → List ι → Prop
  | _, [] => True
  | s, i :: is => allowed s i ∧ AllowedRun step allowed (step s i) is

theorem AllowedRun.reached {σ ι : Type*} {step : σ → ι → σ} {allowed : σ → ι → Prop} {s₀ s : σ}
    {is : List ι} (h : AllowedRun step allowed s is) (hs : Reached step allowed s₀ s) :
    Reached step allowed s₀ (is.foldl step s) := by
  induction is generalizing s with
  | nil => exact hs
  | cons i is ih => exact ih h.2 (hs.next i h.1)

theorem allowedRun_of_forall {σ ι : Type*} {step : σ → ι → σ} {allowed : σ → ι → Prop}
    (h : ∀ s i, allowed s i) : ∀ (is : List ι) (s : σ), AllowedRun step allowed s is
  | [], _ => trivial
  | i :: is, s => ⟨h s i, allowedRun_of_forall h is (step s i)⟩

/-- Where the runs of a system get to whose steps can halt: nothing follows a halt. -/
inductive ReachedOk {σ ι ε : Type*} (step : σ → ι → Except ε σ) (allowed : σ → ι → Prop)
    (s₀ : σ) : σ → Prop
  | start : ReachedOk step allowed s₀ s₀
  | next {s s' : σ} (i : ι) : ReachedOk step allowed s₀ s → allowed s i → step s i = .ok s' →
      ReachedOk step allowed s₀ s'

theorem ReachedOk.invariant {σ ι ε : Type*} {step : σ → ι → Except ε σ} {allowed : σ → ι → Prop}
    {s₀ s : σ} {P : σ → Prop} {stops : ε → Prop} (h : ReachedOk step allowed s₀ s) (h₀ : P s₀)
    (hstep : ∀ s i, P s → allowed s i → Yields stops P (step s i)) : P s := by
  induction h with
  | start => exact h₀
  | next i _ hi hs ih =>
    have hP := hstep _ i ih hi
    rw [hs] at hP
    exact hP

/-- The run on a list of inputs. -/
def runOk {σ ι ε : Type*} (step : σ → ι → Except ε σ) : List ι → σ → Except ε σ
  | [], s => .ok s
  | i :: is, s =>
    match step s i with
    | .ok s => runOk step is s
    | .error e => .error e

theorem ReachedOk.of_run {σ ι ε : Type*} {step : σ → ι → Except ε σ} {allowed : σ → ι → Prop}
    {s₀ s s' : σ} {is : List ι} (h : ReachedOk step allowed s₀ s)
    (hallowed : ∀ s, ∀ i ∈ is, allowed s i) (hrun : runOk step is s = .ok s') :
    ReachedOk step allowed s₀ s' := by
  induction is generalizing s with
  | nil =>
    obtain rfl : s = s' := by simpa [runOk] using hrun
    exact h
  | cons i is ih =>
    rw [runOk] at hrun
    cases hs : step s i with
    | error e => simp [hs] at hrun
    | ok s₁ =>
      rw [hs] at hrun
      exact ih (h.next i (hallowed s i List.mem_cons_self) hs)
        (fun s j hj => hallowed s j (List.mem_cons_of_mem _ hj)) hrun

/-- What holds at each step of the run on a list of inputs, up to where it halts. -/
def AlongRun {σ ι ε : Type*} (step : σ → ι → Except ε σ) (P : σ → ι → Prop) : σ → List ι → Prop
  | _, [] => True
  | s, i :: is => P s i ∧
    match step s i with
    | .ok s' => AlongRun step P s' is
    | .error _ => True

instance instDecidableAlongRun {σ ι ε : Type*} {step : σ → ι → Except ε σ} {P : σ → ι → Prop}
    [h : ∀ s i, Decidable (P s i)] : ∀ is s, Decidable (AlongRun step P s is)
  | [], _ => isTrue trivial
  | i :: is, s =>
    have : Decidable (match step s i with
        | .ok s' => AlongRun step P s' is
        | .error _ => True) :=
      match step s i with
      | .ok s' => instDecidableAlongRun is s'
      | .error _ => isTrue trivial
    inferInstanceAs (Decidable (P s i ∧ _))

theorem AlongRun.mono {σ ι ε : Type*} {step : σ → ι → Except ε σ} {P Q : σ → ι → Prop}
    (hPQ : ∀ s i, P s i → Q s i) {is : List ι} {s : σ} (h : AlongRun step P s is) :
    AlongRun step Q s is := by
  induction is generalizing s with
  | nil => trivial
  | cons i is ih =>
    obtain ⟨hi, hrest⟩ := h
    refine ⟨hPQ s i hi, ?_⟩
    cases hs : step s i with
    | error e => trivial
    | ok s' =>
      rw [hs] at hrest
      exact ih hrest

/-- Where an invariant makes two conditions on steps the same, so are they along runs. -/
theorem AlongRun.iff_of_invariant {σ ι ε : Type*} {step : σ → ι → Except ε σ} {P Q : σ → ι → Prop}
    {I : σ → Prop} {stops : ε → Prop} (hstep : ∀ s i, I s → Yields stops I (step s i))
    (hPQ : ∀ s i, I s → (P s i ↔ Q s i)) {is : List ι} {s : σ} (hI : I s) :
    AlongRun step P s is ↔ AlongRun step Q s is := by
  induction is generalizing s with
  | nil => exact Iff.rfl
  | cons i is ih =>
    have hnext := hstep s i hI
    rw [AlongRun, AlongRun]
    cases hs : step s i with
    | error e => exact and_congr (hPQ s i hI) Iff.rfl
    | ok s' =>
      rw [hs] at hnext
      exact and_congr (hPQ s i hI) (ih hnext)

/-- It is enough that the invariant survives the steps that meet the condition. -/
theorem AlongRun.iff_of_kept {σ ι ε : Type*} {step : σ → ι → Except ε σ} {P Q : σ → ι → Prop}
    {I : σ → Prop} {stops : ε → Prop} (hstep : ∀ s i, I s → Q s i → Yields stops I (step s i))
    (hPQ : ∀ s i, I s → (P s i ↔ Q s i)) {is : List ι} {s : σ} (hI : I s) :
    AlongRun step P s is ↔ AlongRun step Q s is := by
  induction is generalizing s with
  | nil => exact Iff.rfl
  | cons i is ih =>
    rw [AlongRun, AlongRun, hPQ s i hI]
    refine and_congr_right fun hQ => ?_
    have hnext := hstep s i hI hQ
    cases hs : step s i with
    | error e => exact Iff.rfl
    | ok s' =>
      rw [hs] at hnext
      exact ih hnext

/-- Where every input keeps an invariant, what that gives holds along the run. -/
theorem AlongRun.of_forall {σ ι ε : Type*} {step : σ → ι → Except ε σ} {P : σ → ι → Prop}
    {I : σ → Prop} {C : ι → Prop} {stops : ε → Prop}
    (hstep : ∀ s i, I s → C i → Yields stops I (step s i)) (hP : ∀ s i, I s → C i → P s i)
    {is : List ι} {s : σ} (hI : I s) (hC : ∀ i ∈ is, C i) : AlongRun step P s is := by
  induction is generalizing s with
  | nil => trivial
  | cons i is ih =>
    have hi := hC i List.mem_cons_self
    have hnext := hstep s i hI hi
    rw [AlongRun]
    cases hs : step s i with
    | error e => exact ⟨hP s i hI hi, trivial⟩
    | ok s' =>
      rw [hs] at hnext
      exact ⟨hP s i hI hi, ih hnext fun j hj => hC j (List.mem_cons_of_mem _ hj)⟩

theorem AlongRun.last {σ ι ε : Type*} {step : σ → ι → Except ε σ} {P : σ → ι → Prop} {s s' : σ}
    {is : List ι} {i : ι} (h : AlongRun step P s (is ++ [i])) (hrun : runOk step is s = .ok s') :
    P s' i := by
  induction is generalizing s with
  | nil =>
    obtain rfl : s = s' := by simpa [runOk] using hrun
    exact h.1
  | cons j is ih =>
    rw [runOk] at hrun
    rw [List.cons_append, AlongRun] at h
    cases hs : step s j with
    | error e => simp [hs] at hrun
    | ok s₁ =>
      rw [hs] at h hrun
      exact ih h.2 hrun

theorem AlongRun.concat {σ ι ε : Type*} {step : σ → ι → Except ε σ} {P : σ → ι → Prop} {s s' : σ}
    {is : List ι} {i : ι} (h : AlongRun step P s is) (hrun : runOk step is s = .ok s')
    (hi : P s' i) : AlongRun step P s (is ++ [i]) := by
  induction is generalizing s with
  | nil =>
    obtain rfl : s = s' := by simpa [runOk] using hrun
    refine ⟨hi, ?_⟩
    split <;> trivial
  | cons j is ih =>
    rw [runOk] at hrun
    rw [AlongRun] at h
    rw [List.cons_append, AlongRun]
    cases hs : step s j with
    | error e => exact ⟨h.1, trivial⟩
    | ok s₁ =>
      rw [hs] at h hrun
      exact ⟨h.1, ih h.2 hrun⟩
