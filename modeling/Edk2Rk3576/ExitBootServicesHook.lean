import Edk2Rk3576.Efi

/-!
# The hooks of the OS

`ExitBootServicesHookDxe` replaces the boot service `ExitBootServices`, calls the handlers that are
registered when it is entered, and puts the service back before it goes on to it. So a retry goes to
the service itself.

The list of handlers is a list of their addresses. A run is kept with its calls and their statuses,
from which it is told what is registered, and since when.
-/

namespace Edk2Rk3576

inductive ExitBootServicesOsType
  | unknown
  | windows
  | linux
  | max
  deriving DecidableEq

/-- The address of a handler. -/
abbrev ExitBootServicesOsHandler := ℕ

structure ExitBootServicesOsContext where
  osType : ExitBootServicesOsType
  osLoaderAddress : ℕ
  returnAddress : ℕ

/-- `mNotifyInstance.Handlers`, and whether `gBS->ExitBootServices` is the hook. -/
structure HookState where
  handlers : List ExitBootServicesOsHandler
  hooked : Bool

section Functions

variable (s : HookState) (handler : ExitBootServicesOsHandler)

/-- `allocated` tells whether `AllocatePool` has room for the entry. -/
def registerHandler (allocated : Bool) : EfiStatus × HookState :=
  if handler = 0 then (efiInvalidParameter, s)
  else if handler ∈ s.handlers then (efiAlreadyStarted, s)
  else if allocated then (efiSuccess, { s with handlers := s.handlers ++ [handler] })
  else (efiOutOfResources, s)

def unregisterHandler : EfiStatus × HookState :=
  if handler = 0 then (efiInvalidParameter, s)
  else if handler ∈ s.handlers then (efiSuccess, { s with handlers := s.handlers.erase handler })
  else (efiInvalidParameter, s)

/-- A call of `gBS->ExitBootServices`, and the handlers it calls; `original` is what the service
itself returns. -/
def exitBootServices (context : ExitBootServicesOsContext) (original : EfiStatus) :
    EfiStatus × List (ExitBootServicesOsHandler × ExitBootServicesOsContext) × HookState :=
  if s.hooked then
    (original, s.handlers.map fun handler => (handler, context), { s with hooked := false })
  else (original, [], s)

/-- `status` is that of installing the protocol. -/
def exitBootServicesHookDxeInitialize (status : EfiStatus) : EfiStatus × HookState :=
  if efiError status then (status, ⟨[], false⟩) else (efiSuccess, ⟨[], true⟩)

end Functions

inductive HookCall
  | register (handler : ExitBootServicesOsHandler) (allocated : Bool)
  | unregister (handler : ExitBootServicesOsHandler)
  | exitBootServices (context : ExitBootServicesOsContext) (original : EfiStatus)

/-- A run so far: its calls with their statuses, the last one first, and all handlers that were
called. -/
structure HookRun where
  state : HookState
  past : List (HookCall × EfiStatus)
  called : List (ExitBootServicesOsHandler × ExitBootServicesOsContext)

/-- The handlers a call makes the hook call. -/
def HookRun.calls (r : HookRun) :
    HookCall → List (ExitBootServicesOsHandler × ExitBootServicesOsContext)
  | .exitBootServices context original => (exitBootServices r.state context original).2.1
  | _ => []

def HookRun.step (r : HookRun) (call : HookCall) : HookRun :=
  match call with
  | .register handler allocated =>
    let res := registerHandler r.state handler allocated
    ⟨res.2, (call, res.1) :: r.past, r.called⟩
  | .unregister handler =>
    let res := unregisterHandler r.state handler
    ⟨res.2, (call, res.1) :: r.past, r.called⟩
  | .exitBootServices context original =>
    let res := exitBootServices r.state context original
    ⟨res.2.2, (call, res.1) :: r.past, r.called ++ res.2.1⟩

/-- The run of the calls, from the driver's entry on. -/
def hookRun (status : EfiStatus) (calls : List HookCall) : HookRun :=
  calls.foldl HookRun.step ⟨(exitBootServicesHookDxeInitialize status).2, [], []⟩

/-- When the handler was registered that it is still: the number of calls before. -/
def registeredAt : List (HookCall × EfiStatus) → ExitBootServicesOsHandler → Option ℕ
  | [], _ => none
  | (.register g _, status) :: past, handler =>
    if g = handler ∧ status = efiSuccess then some past.length else registeredAt past handler
  | (.unregister g, status) :: past, handler =>
    if g = handler ∧ status = efiSuccess then none else registeredAt past handler
  | (.exitBootServices _ _, _) :: past, handler => registeredAt past handler

/-- One handler is registered earlier than another. -/
def RegisteredBefore (past : List (HookCall × EfiStatus)) (g handler : ExitBootServicesOsHandler) :
    Prop :=
  ∃ i j, registeredAt past g = some i ∧ registeredAt past handler = some j ∧ i < j

section Run

variable {r : HookRun} {past : List (HookCall × EfiStatus)}
  {handler g : ExitBootServicesOsHandler} {i : ℕ}

theorem registeredAt_lt : ∀ {past : List (HookCall × EfiStatus)} {i : ℕ},
    registeredAt past handler = some i → i < past.length
  | [], _, h => by simp [registeredAt] at h
  | (.register g _, status) :: past, i, h => by
    rw [registeredAt] at h
    rw [List.length_cons]
    split_ifs at h
    · have := Option.some.inj h
      omega
    · have := registeredAt_lt h
      omega
  | (.unregister g, status) :: past, i, h => by
    rw [registeredAt] at h
    rw [List.length_cons]
    split_ifs at h
    have := registeredAt_lt h
    omega
  | (.exitBootServices _ _, _) :: past, i, h => by
    rw [registeredAt] at h
    rw [List.length_cons]
    have := registeredAt_lt h
    omega

/-- A call that fails registers nothing. -/
theorem registeredAt_register_failed {status : EfiStatus} (allocated : Bool)
    (h : status ≠ efiSuccess) :
    registeredAt ((.register g allocated, status) :: past) = registeredAt past := by
  funext handler
  rw [registeredAt, if_neg fun hg => h hg.2]

theorem registeredAt_unregister_failed {status : EfiStatus} (h : status ≠ efiSuccess) :
    registeredAt ((.unregister g, status) :: past) = registeredAt past := by
  funext handler
  rw [registeredAt, if_neg fun hg => h hg.2]

/-- The list is what is registered, in the order of registration, and nothing was called while the
hook is in place. -/
structure HookRun.Kept (r : HookRun) : Prop where
  registered : ∀ handler, handler ∈ r.state.handlers ↔ (registeredAt r.past handler).isSome
  ordered : r.state.handlers.Pairwise (RegisteredBefore r.past)
  fresh : r.state.hooked = true → r.called = []
  once : (r.called.map Prod.fst).Nodup

theorem RegisteredBefore.congr {past' : List (HookCall × EfiStatus)}
    (h : RegisteredBefore past g handler) (hg : registeredAt past' g = registeredAt past g)
    (hhandler : registeredAt past' handler = registeredAt past handler) :
    RegisteredBefore past' g handler := by
  obtain ⟨i, j, hi, hj, hlt⟩ := h
  exact ⟨i, j, hg.trans hi, hhandler.trans hj, hlt⟩

theorem RegisteredBefore.ne (h : RegisteredBefore past g handler) : g ≠ handler := by
  rintro rfl
  obtain ⟨i, j, hi, hj, hlt⟩ := h
  have : i = j := Option.some.inj (hi.symm.trans hj)
  omega

theorem HookRun.Kept.nodup (h : r.Kept) : r.state.handlers.Nodup :=
  h.ordered.imp RegisteredBefore.ne

/-- A call that leaves the list and what is registered. -/
theorem HookRun.Kept.frame {r' : HookRun} (h : r.Kept)
    (hhandlers : r'.state.handlers = r.state.handlers)
    (hpast : registeredAt r'.past = registeredAt r.past)
    (hhooked : r'.state.hooked = true → r'.called = [])
    (honce : (r'.called.map Prod.fst).Nodup) : r'.Kept := by
  refine ⟨fun handler => ?_, ?_, hhooked, honce⟩
  · rw [hhandlers, hpast]
    exact h.registered handler
  · rw [hhandlers]
    exact h.ordered.imp fun hbefore => hbefore.congr (by rw [hpast]) (by rw [hpast])

theorem HookRun.Kept.register (h : r.Kept) (hnot : handler ∉ r.state.handlers) (allocated : Bool) :
    HookRun.Kept ⟨{ r.state with handlers := r.state.handlers ++ [handler] },
      (.register handler allocated, efiSuccess) :: r.past, r.called⟩ := by
  have hself : registeredAt ((.register handler allocated, efiSuccess) :: r.past) handler
      = some r.past.length := by simp [registeredAt]
  have hother : ∀ g, g ≠ handler →
      registeredAt ((.register handler allocated, efiSuccess) :: r.past) g
        = registeredAt r.past g := by
    intro g hg
    simp [registeredAt, Ne.symm hg]
  have hne : ∀ g ∈ r.state.handlers, g ≠ handler := by
    rintro g hg rfl
    exact hnot hg
  refine ⟨fun g => ?_, ?_, h.fresh, h.once⟩
  · simp only [List.mem_append, List.mem_singleton]
    by_cases hg : g = handler
    · subst hg
      simp [hself]
    · rw [hother g hg, ← h.registered g]
      simp [hg]
  · refine List.pairwise_append.2 ⟨?_, List.pairwise_singleton _ _, ?_⟩
    · exact h.ordered.imp_of_mem fun hg hg' hbefore =>
        hbefore.congr (hother _ (hne _ hg)) (hother _ (hne _ hg'))
    · intro g hg g' hg'
      rw [List.mem_singleton] at hg'
      subst hg'
      obtain ⟨i, hi⟩ := Option.isSome_iff_exists.1 ((h.registered g).1 hg)
      exact ⟨i, r.past.length, (hother g (hne g hg)).trans hi, hself, registeredAt_lt hi⟩

theorem HookRun.Kept.unregister (h : r.Kept) :
    HookRun.Kept ⟨{ r.state with handlers := r.state.handlers.erase handler },
      (.unregister handler, efiSuccess) :: r.past, r.called⟩ := by
  have hself : registeredAt ((.unregister handler, efiSuccess) :: r.past) handler = none := by
    simp [registeredAt]
  have hother : ∀ g, g ≠ handler →
      registeredAt ((.unregister handler, efiSuccess) :: r.past) g = registeredAt r.past g := by
    intro g hg
    simp [registeredAt, Ne.symm hg]
  refine ⟨fun g => ?_, ?_, h.fresh, h.once⟩
  · rw [h.nodup.mem_erase_iff]
    by_cases hg : g = handler
    · subst hg
      simp [hself]
    · rw [hother g hg, ← h.registered g]
      simp [hg]
  · refine (h.ordered.sublist List.erase_sublist).imp_of_mem ?_
    intro g g' hg hg' hbefore
    rw [h.nodup.mem_erase_iff] at hg hg'
    exact hbefore.congr (hother g hg.1) (hother g' hg'.1)

theorem HookRun.Kept.step (h : r.Kept) (call : HookCall) : (r.step call).Kept := by
  cases call with
  | register handler allocated =>
    simp only [HookRun.step, registerHandler]
    split_ifs with hnull hmem halloc
    · exact h.frame rfl (registeredAt_register_failed allocated (encodeError_ne_success _))
        h.fresh h.once
    · exact h.frame rfl (registeredAt_register_failed allocated (encodeError_ne_success _))
        h.fresh h.once
    · exact h.register hmem allocated
    · exact h.frame rfl (registeredAt_register_failed allocated (encodeError_ne_success _))
        h.fresh h.once
  | unregister handler =>
    simp only [HookRun.step, unregisterHandler]
    split_ifs with hnull hmem
    · exact h.frame rfl (registeredAt_unregister_failed (encodeError_ne_success _)) h.fresh h.once
    · exact h.unregister
    · exact h.frame rfl (registeredAt_unregister_failed (encodeError_ne_success _)) h.fresh h.once
  | exitBootServices context original =>
    simp only [HookRun.step, exitBootServices]
    cases hhooked : r.state.hooked with
    | true =>
      simp only [if_true]
      refine h.frame rfl rfl (by simp) ?_
      rw [h.fresh hhooked]
      simpa [Function.comp_def] using h.nodup
    | false =>
      simp only [Bool.false_eq_true, if_false, List.append_nil]
      exact h.frame rfl rfl (by simp [hhooked]) h.once

theorem kept_hookRun (status : EfiStatus) (calls : List HookCall) :
    (hookRun status calls).Kept := by
  have hstart : HookRun.Kept ⟨(exitBootServicesHookDxeInitialize status).2, [], []⟩ := by
    unfold exitBootServicesHookDxeInitialize
    split_ifs <;> exact ⟨by simp [registeredAt], List.Pairwise.nil, fun _ => rfl, List.nodup_nil⟩
  unfold hookRun
  generalize (⟨(exitBootServicesHookDxeInitialize status).2, [], []⟩ : HookRun) = r at hstart
  induction calls generalizing r with
  | nil => exact hstart
  | cons call calls ih => exact ih _ (hstart.step call)

/-- Over every run of registrations, unregistrations and exits from boot services, the handlers are
those registered, each once and in the order of registration; an exit calls none that is not
registered; and no handler is called twice. -/
theorem hookRun_once (status : EfiStatus) (calls : List HookCall) :
    (∀ handler, handler ∈ (hookRun status calls).state.handlers
        ↔ (registeredAt (hookRun status calls).past handler).isSome)
      ∧ (hookRun status calls).state.handlers.Nodup
      ∧ (hookRun status calls).state.handlers.Pairwise
        (RegisteredBefore (hookRun status calls).past)
      ∧ (∀ handler call, registeredAt (hookRun status calls).past handler = none →
        handler ∉ ((hookRun status calls).calls call).map Prod.fst)
      ∧ ((hookRun status calls).called.map Prod.fst).Nodup := by
  have h := kept_hookRun status calls
  refine ⟨h.registered, h.nodup, h.ordered, fun handler call hnone hmem => ?_, h.once⟩
  have hregistered : handler ∈ (hookRun status calls).state.handlers := by
    cases call with
    | register g allocated => simp [HookRun.calls] at hmem
    | unregister g => simp [HookRun.calls] at hmem
    | exitBootServices context original =>
      unfold HookRun.calls exitBootServices at hmem
      split_ifs at hmem
      · simpa [Function.comp_def] using hmem
      · simp at hmem
  rw [h.registered, hnone] at hregistered
  simp at hregistered

end Run

end Edk2Rk3576
