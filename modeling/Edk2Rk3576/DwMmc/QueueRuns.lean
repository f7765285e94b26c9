import Edk2Rk3576.DwMmc.Queue

/-!
# The runs of the queue

What a request has written stands until its command is given, the queue is worked off from its head,
and the mappings released and held are those that were made.
-/

namespace Edk2Rk3576.DwMmc

variable {card : CardType}

/-! The registers. -/

/-- A request that is still to be given to the controller: what it has written stands, and `rest` is
left to be written. -/
structure Pending (card : CardType) (regs : Reg → ℕ) (t : Trb) (rest : List RegWrite) : Prop where
  nodup : ((t.writes card).map Prod.fst).Nodup
  data : t.packet.dataLen ≠ 0 → t.writes card ≠ []
  split : t.written ++ rest = t.writes card
  agrees : Agrees regs t.written

section Pending

variable {regs regs' : Reg → ℕ} {t : Trb} {w : RegWrite} {rest : List RegWrite}

theorem Pending.own (h : Pending card regs t []) : t.Own card regs := by
  refine ⟨h.data, ?_⟩
  rw [← h.split, List.append_nil]
  exact h.agrees

theorem Pending.write (h : Pending card regs t (w :: rest)) :
    Pending card (writeReg regs w) { t with written := t.written ++ [w] } rest where
  nodup := h.nodup
  data := h.data
  split := by
    rw [List.append_assoc]
    exact h.split
  agrees := by
    refine h.agrees.concat fun hw => ?_
    have hnodup := h.nodup
    rw [← h.split, List.map_append] at hnodup
    exact List.disjoint_of_nodup_append hnodup hw List.mem_cons_self

theorem Pending.writeAll (h : Pending card regs t rest) :
    Pending card (writeRegs regs rest) { t with written := t.written ++ rest } [] where
  nodup := h.nodup
  data := h.data
  split := by
    rw [List.append_nil]
    exact h.split
  agrees := h.agrees.append (h.split ▸ h.nodup)

/-- Whoever has written nothing does not mind another's writes. -/
theorem Pending.other (h : Pending card regs t rest) (hw : t.written = []) :
    Pending card regs' t rest where
  nodup := h.nodup
  data := h.data
  split := h.split
  agrees := hw ▸ agrees_nil

end Pending

/-- What a call has still to write before its command. -/
def Call.rest (card : CardType) (c : Call) : List RegWrite :=
  match c.stage with
  | .setUp rest => rest ++ fifoWrites card c.trb.packet
  | .created | .ready => fifoWrites card c.trb.packet
  | .exec rest => rest
  | .result => []

/-- What has been numbered below `n` is there once at most. -/
def onceBelow (n id : ℕ) : ℕ := if id < n then 1 else 0

/-- What holds between any two steps. -/
structure QueueInv (card : CardType) (s : QueueState) : Prop where
  calls : ∀ c ∈ s.calls, c.stage ≠ .result → Pending card s.regs c.trb (c.rest card)
  queue : ∀ t ∈ s.queue, t.started = false →
    Pending card s.regs t (fifoWrites card t.packet)
  commands : ∀ t regs, .command t regs ∈ s.trace → t.Own card regs
  order : accepted s.trace = (signalled s.trace).map Prod.fst ++ s.queue.map Trb.id
  executed : (executed s.trace).Sublist
    ((signalled s.trace).map Prod.fst ++ (s.queue.filter Trb.started).map Trb.id)
  new : ∀ c ∈ s.calls, c.trb.started = false
  tail : ∀ t ∈ s.queue.tail, t.started = false
  final : ∀ e ∈ signalled s.trace, e.2 ≠ efiNotReady
  once : ∀ id, (s.calls.map fun c => c.trb.id).count id + (s.queue.map Trb.id).count id +
    (freed s.trace).count id ≤ onceBelow s.nextId id
  freed : ∀ id, ((signalled s.trace).map Prod.fst).count id ≤ (freed s.trace).count id
  balance : ∀ m, (mapped s.trace).count m = (released s.trace).count m + s.held.count m
  fresh : ∀ m, (mapped s.trace).count m ≤ onceBelow s.nextId m.1

theorem queueInv_idle (mediaPresent : Bool) (regs : Reg → ℕ) :
    QueueInv card (idleQueue mediaPresent regs) where
  calls := List.forall_mem_nil _
  queue := List.forall_mem_nil _
  commands := fun _ _ h => absurd h List.not_mem_nil
  order := rfl
  executed := List.Sublist.refl _
  new := List.forall_mem_nil _
  tail := List.forall_mem_nil _
  final := List.forall_mem_nil _
  once := fun _ => Nat.zero_le _
  freed := fun _ => Nat.zero_le _
  balance := fun _ => rfl
  fresh := fun _ => Nat.zero_le _

/-! The steps of a call. -/

section Calls

variable {s s' : QueueState} {c d : Call} {calls : List Call} {stage : Stage} {w : RegWrite}

/-! What does not change where the innermost call goes on with the same request. -/

theorem QueueInv.new_head (h : QueueInv card s) (hcalls : s.calls = c :: calls)
    (hstarted : d.trb.started = c.trb.started) : ∀ e ∈ d :: calls, e.trb.started = false := by
  intro e he
  rcases List.mem_cons.mp he with rfl | he
  · rw [hstarted]
    exact h.new c (hcalls ▸ List.mem_cons_self)
  · exact h.new e (hcalls ▸ List.mem_cons_of_mem _ he)

theorem ids_head (hcalls : s.calls = c :: calls) (hid : d.trb.id = c.trb.id) :
    (d :: calls).map (fun c => c.trb.id) = s.calls.map fun c => c.trb.id := by
  rw [hcalls, List.map_cons, List.map_cons, hid]

theorem held_head (hcalls : s.calls = c :: calls) (hcalls' : s'.calls = d :: calls)
    (hqueue : s'.queue = s.queue) (hheld : d.trb.held = c.trb.held) : s'.held = s.held := by
  rw [QueueState.held, QueueState.held, hcalls, hcalls', hqueue, List.flatMap_cons,
    List.flatMap_cons, hheld]

theorem QueueInv.advance (h : QueueInv card s) (hcalls : s.calls = c :: calls)
    (hresult : c.stage ≠ .result) (hrest : { c with stage := stage }.rest card = c.rest card) :
    QueueInv card (advance s c calls stage) := by
  have hheld : (DwMmc.advance s c calls stage).held = s.held := held_head hcalls rfl rfl rfl
  have hids : (DwMmc.advance s c calls stage).calls.map (fun c => c.trb.id) =
      s.calls.map fun c => c.trb.id := ids_head hcalls rfl
  exact
    { h with
      calls := by
        intro d hd hstage
        rcases List.mem_cons.mp hd with rfl | hd
        · rw [hrest]
          exact h.calls c (hcalls ▸ List.mem_cons_self) hresult
        · exact h.calls d (hcalls ▸ List.mem_cons_of_mem _ hd) hstage
      new := h.new_head hcalls rfl
      once := hids ▸ h.once
      balance := hheld ▸ h.balance }

theorem QueueInv.writeStep (h : QueueInv card s) (hcalls : s.calls = c :: calls)
    (hresult : c.stage ≠ .result) (hrest : c.rest card = w ::
      { c with trb := { c.trb with written := c.trb.written ++ [w] }, stage := stage }.rest card)
    (hother : Unclaimed calls s.queue) : QueueInv card (writeStep s c calls w stage) := by
  have hheld : (DwMmc.writeStep s c calls w stage).held = s.held := held_head hcalls rfl rfl rfl
  have hids : (DwMmc.writeStep s c calls w stage).calls.map (fun c => c.trb.id) =
      s.calls.map fun c => c.trb.id := ids_head hcalls rfl
  exact
    { h with
      calls := by
        intro d hd hstage
        rcases List.mem_cons.mp hd with rfl | hd
        · have hpending := h.calls c (hcalls ▸ List.mem_cons_self) hresult
          rw [hrest] at hpending
          exact hpending.write
        · exact (h.calls d (hcalls ▸ List.mem_cons_of_mem _ hd) hstage).other
            (hother.1 d hd hstage)
      queue := fun t ht hstarted => (h.queue t ht hstarted).other (hother.2 t ht hstarted)
      new := h.new_head hcalls rfl
      once := hids ▸ h.once
      balance := hheld ▸ h.balance }

theorem mem_freeTrb_command {t t' : Trb} {regs : Reg → ℕ} : .command t regs ∉ freeTrb t' := by
  simp [freeTrb]

/-- The call returns and frees its request. -/
theorem QueueInv.leave (h : QueueInv card s) (hcalls : s.calls = c :: calls) :
    QueueInv card (leave s calls (freeTrb c.trb)) where
  calls := fun d hd => h.calls d (hcalls ▸ List.mem_cons_of_mem _ hd)
  queue := h.queue
  commands := fun t regs ht => h.commands t regs
    ((List.mem_append.mp ht).resolve_right mem_freeTrb_command)
  order := by
    simpa [DwMmc.leave] using h.order
  executed := by
    simpa [DwMmc.leave] using h.executed
  new := fun d hd => h.new d (hcalls ▸ List.mem_cons_of_mem _ hd)
  tail := h.tail
  final := by
    simpa [DwMmc.leave] using h.final
  once := fun id => by
    have honce := h.once id
    rw [hcalls, List.map_cons, List.count_cons] at honce
    simp only [DwMmc.leave, DwMmc.freed, List.filterMap_append, freed_freeTrb, List.count_append,
      List.count_singleton] at honce ⊢
    omega
  freed := fun id => by
    have hfreed := h.freed id
    simp only [DwMmc.leave, signalled, DwMmc.freed, List.filterMap_append, signalled_freeTrb,
      List.append_nil, List.count_append] at hfreed ⊢
    omega
  balance := fun m => by
    have hbalance := h.balance m
    rw [QueueState.held, hcalls, List.flatMap_cons] at hbalance
    simp only [DwMmc.leave, QueueState.held, mapped, released, List.filterMap_append,
      mapped_freeTrb, List.append_nil, released_freeTrb, List.count_append] at hbalance ⊢
    omega
  fresh := by
    simpa [DwMmc.leave] using h.fresh

theorem QueueInv.insertTail (h : QueueInv card s) (hcalls : s.calls = c :: calls)
    (hstage : c.stage = .created) : QueueInv card (insertTail s c calls) where
  calls := fun d hd => h.calls d (hcalls ▸ List.mem_cons_of_mem _ hd)
  queue := by
    intro t ht
    rcases List.mem_append.mp ht with ht | ht
    · exact h.queue t ht
    · obtain rfl := List.mem_singleton.mp ht
      have hpending := h.calls c (hcalls ▸ List.mem_cons_self) (by rw [hstage]; nofun)
      rw [Call.rest, hstage] at hpending
      exact fun _ => hpending
  commands := fun t regs ht => h.commands t regs
    ((List.mem_append.mp ht).resolve_right (by simp))
  order := by
    simp [DwMmc.insertTail, List.filterMap_cons, h.order]
  executed := by
    have hnew := h.new c (hcalls ▸ List.mem_cons_self)
    simpa [DwMmc.insertTail, List.filterMap_cons, hnew] using h.executed
  new := fun d hd => h.new d (hcalls ▸ List.mem_cons_of_mem _ hd)
  tail := by
    have hnew := h.new c (hcalls ▸ List.mem_cons_self)
    have htail := h.tail
    simp only [DwMmc.insertTail]
    cases hq : s.queue with
    | nil => exact List.forall_mem_nil _
    | cons t rest =>
      rw [hq] at htail
      intro t' ht
      rcases List.mem_append.mp ht with ht | ht
      · exact htail t' ht
      · rw [List.mem_singleton.mp ht]
        exact hnew
  final := by
    simpa [DwMmc.insertTail, List.filterMap_cons] using h.final
  once := fun id => by
    have honce := h.once id
    rw [hcalls, List.map_cons, List.count_cons] at honce
    simp [DwMmc.insertTail, DwMmc.freed, List.filterMap_cons, List.count_cons] at honce ⊢
    omega
  freed := fun id => by
    simpa [DwMmc.insertTail, List.filterMap_cons] using h.freed id
  balance := fun m => by
    have hbalance := h.balance m
    rw [QueueState.held, hcalls, List.flatMap_cons] at hbalance
    simp [DwMmc.insertTail, mapped, released, List.filterMap_cons, QueueState.held] at hbalance ⊢
    omega
  fresh := by
    simpa [DwMmc.insertTail, List.filterMap_cons] using h.fresh

/-- The registers are those of the call's own request. -/
theorem QueueInv.giveCommand (h : QueueInv card s) (hcalls : s.calls = c :: calls)
    (hstage : c.stage = .exec []) : QueueInv card (giveCommand s c calls) := by
  have hheld : (DwMmc.giveCommand s c calls).held = s.held := held_head hcalls rfl rfl rfl
  have hids : (DwMmc.giveCommand s c calls).calls.map (fun c => c.trb.id) =
      s.calls.map fun c => c.trb.id := ids_head hcalls rfl
  have hpending := h.calls c (hcalls ▸ List.mem_cons_self) (by rw [hstage]; nofun)
  rw [Call.rest, hstage] at hpending
  exact
    { queue := h.queue
      tail := h.tail
      calls := by
        intro d hd hresult
        rcases List.mem_cons.mp hd with rfl | hd
        · exact absurd rfl hresult
        · exact h.calls d (hcalls ▸ List.mem_cons_of_mem _ hd) hresult
      commands := by
        intro t regs ht
        rcases List.mem_append.mp ht with ht | ht
        · exact h.commands t regs ht
        · obtain ⟨rfl, rfl⟩ := Event.command.inj (List.mem_singleton.mp ht)
          exact hpending.own
      order := by
        simpa [DwMmc.giveCommand, List.filterMap_cons] using h.order
      executed := by
        simpa [DwMmc.giveCommand, List.filterMap_cons] using h.executed
      new := h.new_head hcalls rfl
      final := by
        simpa [DwMmc.giveCommand, List.filterMap_cons] using h.final
      once := by
        rw [hids]
        simpa [DwMmc.giveCommand, List.filterMap_cons] using h.once
      freed := by
        simpa [DwMmc.giveCommand, List.filterMap_cons] using h.freed
      balance := by
        rw [hheld]
        simpa [DwMmc.giveCommand, List.filterMap_cons] using h.balance
      fresh := by
        simpa [DwMmc.giveCommand, List.filterMap_cons] using h.fresh }

end Calls

/-! The steps of the timer. -/

section Timer

variable {s : QueueState} {t t' : Trb} {rest : List Trb} {x : ExecEnv} {status : EfiStatus}

theorem QueueInv.filter_rest (h : QueueInv card s) (hqueue : s.queue = t :: rest) :
    rest.filter Trb.started = [] := by
  rw [List.filter_eq_nil_iff]
  intro t' ht
  have htail := h.tail
  rw [hqueue] at htail
  simp [htail t' ht]

/-- The head leaves the queue. -/
theorem QueueInv.finish (h : QueueInv card s) (hqueue : s.queue = t :: rest)
    (hstatus : status ≠ efiNotReady) : QueueInv card (finish s t rest status) where
  calls := h.calls
  queue := fun t' ht => h.queue t' (hqueue ▸ List.mem_cons_of_mem _ ht)
  commands := fun t' regs ht => h.commands t' regs
    ((List.mem_append.mp ht).resolve_right (by simp [freeTrb]))
  order := by
    have horder := h.order
    rw [hqueue] at horder
    simpa [DwMmc.finish, List.filterMap_cons] using horder
  executed := by
    have hexecuted := h.executed
    rw [hqueue, List.filter_cons, h.filter_rest hqueue] at hexecuted
    simp only [DwMmc.finish, h.filter_rest hqueue]
    simp [List.filterMap_cons]
    refine hexecuted.trans ?_
    split
    · exact List.Sublist.refl _
    · simp
  new := h.new
  tail := fun t' ht => h.tail t' (by rw [hqueue]; exact List.mem_of_mem_tail ht)
  final := by
    have hfinal := h.final
    simp only [DwMmc.finish, signalled, List.filterMap_append, List.mem_append] at hfinal ⊢
    rintro e (he | he | he)
    · exact hfinal e he
    · simp at he
    · obtain rfl := List.mem_singleton.mp he
      exact hstatus
  once := fun id => by
    have honce := h.once id
    rw [hqueue] at honce
    simp [DwMmc.finish, DwMmc.freed, List.filterMap_cons, List.count_cons] at honce ⊢
    omega
  freed := fun id => by
    have hfreed := h.freed id
    simp [DwMmc.finish, DwMmc.freed, signalled, List.filterMap_cons, List.count_cons] at hfreed ⊢
    omega
  balance := fun m => by
    have hbalance := h.balance m
    rw [QueueState.held, hqueue] at hbalance
    simp [DwMmc.finish, QueueState.held, mapped, released, List.filterMap_cons] at hbalance ⊢
    omega
  fresh := by
    simpa [DwMmc.finish, List.filterMap_cons] using h.fresh

/-- The head stays, with less time. -/
theorem QueueInv.wait (h : QueueInv card s) (hqueue : s.queue = t :: rest) (timeout : UInt64) :
    QueueInv card { s with queue := { t with timeout := timeout } :: rest } where
  calls := h.calls
  queue := by
    intro t' ht hstarted
    rcases List.mem_cons.mp ht with rfl | ht
    · have hpending := h.queue t (hqueue ▸ List.mem_cons_self) hstarted
      exact ⟨hpending.nodup, hpending.data, hpending.split, hpending.agrees⟩
    · exact h.queue t' (hqueue ▸ List.mem_cons_of_mem _ ht) hstarted
  commands := h.commands
  order := by
    rw [h.order, hqueue]
    rfl
  executed := by
    have hexecuted := h.executed
    rw [hqueue, List.filter_cons] at hexecuted
    simp only [List.filter_cons]
    split_ifs at hexecuted ⊢ <;> exact hexecuted
  new := h.new
  tail := fun t' ht => h.tail t' (hqueue ▸ ht)
  final := h.final
  once := fun id => by
    have honce := h.once id
    rw [hqueue] at honce
    exact honce
  freed := h.freed
  balance := fun m => by
    have hbalance := h.balance m
    rw [QueueState.held, hqueue] at hbalance
    exact hbalance
  fresh := h.fresh

/-- The head is given to the controller. -/
theorem QueueInv.start (h : QueueInv card s) (hqueue : s.queue = t :: rest)
    (hstarted : t.started = false)
    (hother : x.sched.idle → fifoWrites card t.packet ≠ [] → Unclaimed s.calls rest) :
    QueueInv card (start card s t rest x) := by
  have hpending := h.queue t (hqueue ▸ List.mem_cons_self) hstarted
  -- The requests behind it keep what they have, or have nothing.
  have hkeep : ∀ {t' : Trb} {left : List RegWrite}, Pending card s.regs t' left →
      (Unclaimed s.calls rest → t'.written = []) →
      Pending card (DwMmc.start card s t rest x).regs t' left := by
    intro t' left hp hw
    simp only [DwMmc.start]
    split_ifs with hidle
    · rcases hfifo : fifoWrites card t.packet with _ | ⟨w, ws⟩
      · exact hp
      · exact hp.other (hw (hother hidle (by simp [hfifo])))
    · exact hp
  have hheld : (DwMmc.start card s t rest x).held = s.held := by
    rw [QueueState.held, QueueState.held, hqueue]
    rfl
  have hids : (DwMmc.start card s t rest x).queue.map Trb.id = s.queue.map Trb.id := by
    rw [hqueue]
    rfl
  have hevents : ∀ {α : Type} (f : Event → Option α), (∀ id, f (.executed id) = none) →
      (∀ t regs, f (.command t regs) = none) →
      (DwMmc.start card s t rest x).trace.filterMap f = s.trace.filterMap f := by
    intro α f hexec hcommand
    simp only [DwMmc.start, List.filterMap_append, List.filterMap_cons, hexec]
    split_ifs <;> simp [hcommand]
  exact
    { calls := fun c hc hstage => hkeep (h.calls c hc hstage) fun hu => hu.1 c hc hstage
      queue := by
        intro t' ht hstarted'
        rcases List.mem_cons.mp ht with rfl | ht
        · cases hstarted'
        · exact hkeep (h.queue t' (hqueue ▸ List.mem_cons_of_mem _ ht) hstarted')
            fun hu => hu.2 t' ht hstarted'
      commands := by
        intro t' regs ht
        simp only [DwMmc.start] at ht
        split_ifs at ht with hidle
        · simp only [List.mem_append, List.mem_cons, List.not_mem_nil, or_false, reduceCtorEq,
            false_or] at ht
          rcases ht with ht | ht
          · exact h.commands t' regs ht
          · obtain ⟨rfl, rfl⟩ := Event.command.inj ht
            exact hpending.writeAll.own
        · simp only [List.mem_append, List.mem_cons, List.not_mem_nil, or_false, reduceCtorEq] at ht
          exact h.commands t' regs ht
      order := by
        rw [accepted, signalled, hevents _ (fun _ => rfl) fun _ _ => rfl,
          hevents _ (fun _ => rfl) fun _ _ => rfl, hids]
        exact h.order
      executed := by
        have hexecuted := h.executed
        rw [hqueue, List.filter_cons, hstarted, h.filter_rest hqueue] at hexecuted
        have hexec : DwMmc.executed (DwMmc.start card s t rest x).trace =
            DwMmc.executed s.trace ++ [t.id] := by
          simp only [DwMmc.start, DwMmc.executed, List.filterMap_append, List.filterMap_cons]
          split_ifs <;> rfl
        have hqueue' : (DwMmc.start card s t rest x).queue.filter Trb.started =
            [begun card t x] := by
          simp only [DwMmc.start, List.filter_cons, h.filter_rest hqueue]
          rfl
        rw [hexec, hqueue', signalled, hevents _ (fun _ => rfl) fun _ _ => rfl]
        simp only [List.map_nil, List.append_nil, reduceCtorEq, if_false] at hexecuted
        exact hexecuted.append (List.Sublist.refl _)
      new := h.new
      tail := fun t' ht => h.tail t' (hqueue ▸ ht)
      final := by
        rw [signalled, hevents _ (fun _ => rfl) fun _ _ => rfl]
        exact h.final
      once := by
        rw [hids, DwMmc.freed, hevents _ (fun _ => rfl) fun _ _ => rfl]
        exact h.once
      freed := by
        rw [signalled, DwMmc.freed, hevents _ (fun _ => rfl) fun _ _ => rfl,
          hevents _ (fun _ => rfl) fun _ _ => rfl]
        exact h.freed
      balance := by
        rw [hheld, mapped, released, hevents _ (fun _ => rfl) fun _ _ => rfl,
          hevents _ (fun _ => rfl) fun _ _ => rfl]
        exact h.balance
      fresh := by
        rw [mapped, hevents _ (fun _ => rfl) fun _ _ => rfl]
        exact h.fresh }

end Timer

/-! The other steps. -/

section Steps

variable {s : QueueState} {status : EfiStatus} {q : List Trb}

/-- A part of the history that looks at none of the three things that happen to a request. -/
theorem flushed_filterMap {α : Type} {f : Event → Option α} (hsignalled : ∀ id status,
    f (.signalled id status) = none) (hfreed : ∀ id, f (.freed id) = none)
    (hreleased : ∀ id m, f (.released id m) = none) : (flushed status q).filterMap f = [] := by
  rw [List.filterMap_eq_nil_iff]
  intro e he
  obtain ⟨t, -, he⟩ := List.mem_flatMap.mp he
  rcases List.mem_cons.mp he with rfl | he
  · exact hsignalled _ _
  rw [freeTrb, List.mem_append, List.mem_map, List.mem_singleton] at he
  rcases he with ⟨m, -, rfl⟩ | rfl
  · exact hreleased _ _
  · exact hfreed _

theorem signalled_flushed : signalled (flushed status q) = q.map fun t => (t.id, status) := by
  induction q with
  | nil => rfl
  | cons t q ih => simp_all [flushed]

theorem freed_flushed : freed (flushed status q) = q.map Trb.id := by
  induction q with
  | nil => rfl
  | cons t q ih => simp_all [flushed, List.filterMap_cons]

theorem released_flushed : released (flushed status q) = q.flatMap Trb.held := by
  induction q with
  | nil => rfl
  | cons t q ih => simp_all [flushed, List.filterMap_cons]

theorem mem_flushed_command {t : Trb} {regs : Reg → ℕ} : .command t regs ∉ flushed status q := by
  simp [flushed, freeTrb]

theorem QueueInv.flush (h : QueueInv card s) (hstatus : status ≠ efiNotReady) :
    QueueInv card (flush s status) where
  calls := h.calls
  queue := List.forall_mem_nil _
  commands := fun t regs ht => h.commands t regs
    ((List.mem_append.mp ht).resolve_right mem_flushed_command)
  order := by
    simp only [DwMmc.flush, accepted, signalled, List.filterMap_append, List.map_append]
    rw [flushed_filterMap (fun _ _ => rfl) (fun _ => rfl) fun _ _ => rfl, List.append_nil]
    refine h.order.trans ?_
    simp [signalled_flushed, Function.comp_def]
  executed := by
    have hfilter : ((s.queue.filter Trb.started).map Trb.id).Sublist (s.queue.map Trb.id) :=
      List.filter_sublist.map _
    simp only [DwMmc.flush, DwMmc.executed, signalled, List.filterMap_append, List.map_append]
    rw [flushed_filterMap (fun _ _ => rfl) (fun _ => rfl) fun _ _ => rfl, List.append_nil]
    refine (h.executed.trans (List.Sublist.append_left hfilter _)).trans ?_
    simp [signalled_flushed, Function.comp_def]
  new := h.new
  tail := List.forall_mem_nil _
  final := by
    simp only [DwMmc.flush, signalled, List.filterMap_append, List.mem_append]
    rintro e (he | he)
    · exact h.final e he
    · simp only [signalled_flushed, List.mem_map] at he
      obtain ⟨t, -, rfl⟩ := he
      exact hstatus
  once := fun id => by
    have honce := h.once id
    simp only [DwMmc.flush, DwMmc.freed, List.filterMap_append, freed_flushed, List.count_append,
      List.map_nil, List.count_nil] at honce ⊢
    omega
  freed := fun id => by
    have hfreed := h.freed id
    simp only [DwMmc.flush, DwMmc.freed, signalled, List.filterMap_append, freed_flushed,
      signalled_flushed, List.map_append, List.map_map, List.count_append] at hfreed ⊢
    exact Nat.add_le_add_right hfreed _
  balance := fun m => by
    have hbalance := h.balance m
    simp only [DwMmc.flush, mapped, released, QueueState.held, List.filterMap_append,
      released_flushed, List.count_append, List.flatMap_nil, List.append_nil] at hbalance ⊢
    rw [flushed_filterMap (fun _ _ => rfl) (fun _ => rfl) fun _ _ => rfl, List.count_nil]
    omega
  fresh := by
    simp only [DwMmc.flush, mapped, List.filterMap_append]
    rw [flushed_filterMap (fun _ _ => rfl) (fun _ => rfl) fun _ _ => rfl, List.append_nil]
    exact h.fresh

theorem onceBelow_succ (n id : ℕ) : onceBelow (n + 1) id = onceBelow n id +
    if id = n then 1 else 0 := by
  rw [onceBelow, onceBelow]
  split_ifs <;> omega

/-- A request is made: it has claimed nothing, and what is mapped for it is held by it. -/
theorem QueueInv.passThru (h : QueueInv card s) {event : Bool} {p : CommandPacket}
    {env : CreateEnv} {x : ExecEnv} (hcreates : s.mediaPresent → Creates card p env) :
    QueueInv card (passThru card s x event p env) := by
  rw [DwMmc.passThru]
  split_ifs with hmedia
  swap
  · exact h
  have hc := hcreates hmedia
  have hnew : ∀ c ∈ (createTrb card p env s.nextId event).trb.toList.map fun t => newCall t x env,
      c.trb.started = false ∧ Pending card s.regs c.trb (c.rest card) := by
    intro c hmem
    obtain ⟨t, ht, rfl⟩ := List.mem_map.mp hmem
    obtain ⟨hwritten, hstarted, -, hnodup, hdata⟩ := createTrb_written hc (Option.mem_toList.mp ht)
    refine ⟨hstarted, hnodup, hdata, ?_, fun w hw => ?_⟩
    · rw [show (newCall t x env).trb.written = [] from hwritten, List.nil_append, Call.rest,
        Trb.writes, newCall]
      split_ifs with hset <;> simp [hset]
    · rw [show (newCall t x env).trb.written = [] from hwritten] at hw
      cases hw
  have hids : ∀ id, (((createTrb card p env s.nextId event).trb.toList.map
      fun t => newCall t x env).map fun c => c.trb.id).count id ≤
        if id = s.nextId then 1 else 0 := by
    intro id
    cases htrb : (createTrb card p env s.nextId event).trb with
    | none => exact Nat.zero_le _
    | some t =>
      have hid := (createTrb_written hc htrb).2.2.1
      by_cases heq : s.nextId = id <;> simp [newCall, hid, heq, eq_comm (a := id)]
  have hheld : ((createTrb card p env s.nextId event).trb.toList.map
      fun t => newCall t x env).flatMap (fun c => c.trb.held) =
        ((createTrb card p env s.nextId event).trb.map Trb.held).getD [] := by
    cases (createTrb card p env s.nextId event).trb <;> simp [newCall]
  refine
    { calls := ?_
      queue := h.queue
      commands := ?_
      order := ?_
      executed := ?_
      new := ?_
      tail := h.tail
      final := ?_
      once := fun id => ?_
      freed := ?_
      balance := fun m => ?_
      fresh := fun m => ?_ }
  · intro c hmem hstage
    rcases List.mem_append.mp hmem with hmem | hmem
    · exact (hnew c hmem).2
    · exact h.calls c hmem hstage
  · intro t regs ht
    rcases List.mem_append.mp ht with ht | ht
    · exact h.commands t regs ht
    · obtain ⟨m, hm | hm⟩ := createTrb_events _ ht <;> cases hm
  · simpa using h.order
  · simpa using h.executed
  · intro c hmem
    rcases List.mem_append.mp hmem with hmem | hmem
    · exact (hnew c hmem).1
    · exact h.new c hmem
  · simpa using h.final
  · have honce := h.once id
    have hnewid := hids id
    simp only [DwMmc.freed, List.filterMap_append, createTrb_freed, List.append_nil,
      List.map_append, List.count_append, onceBelow_succ] at honce hnewid ⊢
    omega
  · simpa using h.freed
  · have hbalance := h.balance m
    have hmade : (mapped (createTrb card p env s.nextId event).events).count m = _ + _ :=
      createTrb_balance hc m
    simp only [mapped, released, QueueState.held, List.filterMap_append, List.flatMap_append,
      List.count_append, hheld] at hbalance hmade ⊢
    omega
  · have hfresh := h.fresh m
    have hmade : (mapped (createTrb card p env s.nextId event).events).count m ≤
      if m.1 = s.nextId then 1 else 0 := createTrb_mapped m
    simp only [mapped, List.filterMap_append, List.count_append, onceBelow_succ] at hfresh hmade ⊢
    omega

/-! A step, and a run. -/

theorem QueueInv.proceed (h : QueueInv card s) (hfit : s.Fit card .proceed) :
    QueueInv card (proceed card s) := by
  rw [DwMmc.proceed]
  rcases hcalls : s.calls with _ | ⟨c, calls⟩
  · exact h
  rw [QueueState.Fit, hcalls] at hfit
  dsimp only at hfit ⊢
  rcases hstage : c.stage with (_ | ⟨w, rest⟩) | _ | _ | (_ | ⟨w, rest⟩) | _ <;>
    rw [hstage] at hfit <;> dsimp only at hfit ⊢
  · rw [if_pos hfit]
    exact h.advance hcalls (by rw [hstage]; nofun) (by simp [Call.rest, hstage])
  · exact h.writeStep hcalls (by rw [hstage]; nofun) (by simp [Call.rest, hstage]) hfit
  · split_ifs
    · exact h.insertTail hcalls hstage
    · exact h.advance hcalls (by rw [hstage]; nofun) (by simp [Call.rest, hstage])
    · exact h
  · split_ifs
    · exact h.advance hcalls (by rw [hstage]; nofun) (by simp [Call.rest, hstage])
    · exact h.leave hcalls
  · exact h.giveCommand hcalls hstage
  · exact h.writeStep hcalls (by rw [hstage]; nofun) (by simp [Call.rest, hstage]) hfit
  · split
    · exact h
    · exact h.leave hcalls

theorem QueueInv.finishOrWait {t : Trb} {rest : List Trb} (h : QueueInv card s)
    (hqueue : s.queue = t :: rest) : QueueInv card (finishOrWait s t rest status) := by
  rw [DwMmc.finishOrWait]
  split_ifs with hstatus
  · exact h.wait hqueue t.timeout
  · exact h.finish hqueue (by decide)
  · exact h.wait hqueue _
  · exact h.finish hqueue hstatus

theorem QueueInv.stuck (h : QueueInv card s) : QueueInv card { s with stuck := true } := { h with }

theorem QueueInv.checkResult {t : Trb} {rest : List Trb} {x : ExecEnv} (h : QueueInv card s)
    (hqueue : s.queue = t :: rest) : QueueInv card (checkResult card s t rest x) := by
  rw [DwMmc.checkResult]
  split
  · exact (h.wait hqueue t.timeout).stuck
  · exact h.finishOrWait hqueue

theorem QueueInv.processAsyncTaskList {x : ExecEnv} (h : QueueInv card s)
    (hfit : s.Fit card (.timer x)) : QueueInv card (processAsyncTaskList card s x) := by
  rw [DwMmc.processAsyncTaskList]
  rcases hqueue : s.queue with _ | ⟨t, rest⟩
  · exact h
  rw [QueueState.Fit, hqueue] at hfit
  dsimp only at hfit ⊢
  by_cases hmedia : s.mediaPresent
  swap
  · rw [if_pos hmedia]
    exact h.finishOrWait hqueue
  rw [if_neg (not_not.mpr hmedia)]
  split_ifs with hstarted
  · exact h.checkResult hqueue
  have hstart := h.start hqueue (eq_false_of_ne_true hstarted)
    (hfit hmedia (eq_false_of_ne_true hstarted))
  split
  · exact hstart.stuck
  · split_ifs
    · exact hstart.finishOrWait rfl
    · exact hstart.checkResult rfl

theorem QueueInv.step {i : Input} (h : QueueInv card s) (hfit : s.Fit card i) :
    QueueInv card (queueStep card s i) := by
  unfold queueStep
  split_ifs
  · exact h
  cases i with
  | passThru event p env x => exact h.passThru hfit
  | proceed => exact h.proceed hfit
  | timer x => exact h.processAsyncTaskList hfit
  | cardRemoval =>
    simp only [cardRemoval]
    split_ifs
    · exact { h.flush (by decide) with }
    · exact h
  | resetDevice =>
    simp only [resetDevice]
    split_ifs
    · exact h.flush (by decide)
    · exact h

theorem onceBelow_le (n id : ℕ) : onceBelow n id ≤ 1 := by
  rw [onceBelow]
  split_ifs <;> omega

theorem QueueInv.sound (h : QueueInv card s) : QueueSound card s where
  executed := by
    have hfilter : ((s.queue.filter Trb.started).map Trb.id).Sublist (s.queue.map Trb.id) :=
      List.filter_sublist.map _
    refine ⟨h.order ▸ h.executed.trans (List.Sublist.append_left hfilter _), ?_⟩
    rw [List.nodup_iff_count_le_one]
    intro id
    have honce := (h.once id).trans (onceBelow_le _ _)
    have hfreed := h.freed id
    rw [h.order, List.count_append]
    omega
  finished := by
    intro id hid
    have hpos := List.count_pos_iff.mpr hid
    have honce := (h.once id).trans (onceBelow_le _ _)
    have hfreed := h.freed id
    rw [h.order, List.count_append] at hpos
    split_ifs with hqueue
    · have := List.count_pos_iff.mpr hqueue
      omega
    · have := List.count_eq_zero.mpr hqueue
      omega
  final := h.final
  mappings := by
    intro m hm
    have hpos := List.count_pos_iff.mpr hm
    have hfresh := (h.fresh m).trans (onceBelow_le _ _)
    have hbalance := h.balance m
    omega
  commands := h.commands

/-- In a run whose steps are fit, the driver does with each request what it is to do. -/
theorem queue_sound (card : CardType) (mediaPresent : Bool) (regs : Reg → ℕ) {s : QueueState}
    (h : Reached (queueStep card) (QueueState.Fit card) (idleQueue mediaPresent regs) s) :
    QueueSound card s :=
  (h.invariant (P := QueueInv card) (queueInv_idle mediaPresent regs)
    fun _ _ hs hi => hs.step hi).sound

end Steps

/-! Runs of an eMMC. -/

/-- A read of so many bytes. -/
def readBytes (len : UInt32) : CommandPacket where
  commandIndex := 18
  commandType := .adtc
  responseType := .r1
  commandArgument := 0
  inTransferLength := len
  outTransferLength := 0
  timeout := 1000000

/-- All is mapped, at low addresses. -/
def wholeMaps (dmaReset : Bool) : CreateEnv where
  allocated := true
  mapData n := some (n, 0x1000)
  table := lowDma
  dmaReset := dmaReset

/-- A card that is idle and never done. -/
def idleExec : ExecEnv := ⟨steadySchedule 0, fun _ => 0, fun _ => 0, 0⟩

/-- A non-blocking read, with the steps of its call. -/
def queuedRead (len : UInt32) (dmaReset : Bool) (steps : ℕ) : List Input :=
  .passThru true (readBytes len) (wholeMaps dmaReset) idleExec :: List.replicate steps .proceed

def afterRun (is : List Input) : QueueState :=
  is.foldl (queueStep .emmc) (idleQueue true fun _ => 0)

/-- A read that is accepted and then aborted, in a run that is fit. -/
theorem queue_sound_aborted :
    QueueSound .emmc (afterRun (queuedRead 512 true 5 ++ [.resetDevice])) ∧
      signalled (afterRun (queuedRead 512 true 5 ++ [.resetDevice])).trace = [(0, efiAborted)] ∧
      released (afterRun (queuedRead 512 true 5 ++ [.resetDevice])).trace =
        [(0, .dmaMap), (0, .dataMap)] := by
  have hcreates : Creates .emmc (readBytes 512) (wholeMaps true) := by
    refine ⟨nofun, fun _ _ mapLength dataPhy hmap => ?_⟩
    cases hmap
    refine ⟨rfl, fun _ bytes phy htable => ?_⟩
    cases htable
    rfl
  have hnone : Unclaimed [] [] := ⟨List.forall_mem_nil _, List.forall_mem_nil _⟩
  refine ⟨queue_sound .emmc true (fun _ => 0) (AllowedRun.reached ?_ .start), by decide +kernel,
    by decide +kernel⟩
  exact ⟨fun _ => hcreates, hnone, hnone, hnone, rfl, trivial, trivial, trivial⟩

theorem mem_finishOrWait {s : QueueState} {t : Trb} {rest : List Trb} {status : EfiStatus}
    {e : Event} (h : e ∈ s.trace) : e ∈ (finishOrWait s t rest status).trace := by
  rw [finishOrWait]
  split_ifs
  · exact h
  · exact List.mem_append_left _ h
  · exact h
  · exact List.mem_append_left _ h

theorem mem_checkResult {s : QueueState} {t : Trb} {rest : List Trb} {x : ExecEnv} {e : Event}
    (h : e ∈ s.trace) : e ∈ (checkResult card s t rest x).trace := by
  rw [checkResult]
  split
  · exact h
  · exact mem_finishOrWait h

/-- The timer gives the command of the head, with the registers as they are. -/
theorem timer_gives_command (card : CardType) {s : QueueState} {t : Trb} {rest : List Trb} {x : ExecEnv}
    (hstuck : s.stuck = false) (hmedia : s.mediaPresent = true) (hqueue : s.queue = t :: rest)
    (hstarted : t.started = false) (hidle : x.sched.idle = true) :
    .command (begun card t x) (writeRegs s.regs (fifoWrites card t.packet)) ∈
      (queueStep card s (.timer x)).trace := by
  have hstart : .command (begun card t x) (writeRegs s.regs (fifoWrites card t.packet)) ∈
      (start card s t rest x).trace := by
    simp [start, hidle]
  simp only [queueStep, hstuck, processAsyncTaskList, hqueue, hmedia, hstarted]
  simp only [Bool.false_eq_true, if_false, not_true_eq_false]
  split
  · exact hstart
  · split_ifs
    · exact mem_finishOrWait hstart
    · exact mem_checkResult hstart

/-- A head that another request has written over is not run as it should be. -/
theorem timer_not_sound {s : QueueState} {t : Trb} {rest : List Trb} {x : ExecEnv} {w : RegWrite}
    (hstuck : s.stuck = false) (hmedia : s.mediaPresent = true) (hqueue : s.queue = t :: rest)
    (hstarted : t.started = false) (hidle : x.sched.idle = true)
    (hfifo : fifoWrites card t.packet = []) (hset : w ∈ t.setUp) (hregs : s.regs w.1 ≠ w.2) :
    ¬ QueueSound card (queueStep card s (.timer x)) := by
  intro h
  have hcommand := timer_gives_command card hstuck hmedia hqueue hstarted hidle
  rw [hfifo] at hcommand
  exact hregs ((h.commands _ _ hcommand).2 w (List.mem_append_left _ hset))

/-- The command of the first of two queued reads is given with the byte count of the second, and a
reset of the DMA that fails leaves the table mapped. -/
theorem queue_not_sound :
    (∃ s, Reached (queueStep .emmc) (fun _ _ => True) (idleQueue true fun _ => 0) s ∧
      ¬ QueueSound .emmc s) ∧
    ∃ s, Reached (queueStep .emmc) (fun _ _ => True) (idleQueue true fun _ => 0) s ∧
      ¬ QueueSound .emmc s ∧ s.calls.length = 0 ∧ mapped s.trace = [(0, .dataMap), (0, .dmaMap)] ∧
        released s.trace = [(0, .dataMap)] := by
  have hreached : ∀ is, Reached (queueStep .emmc) (fun _ _ => True) (idleQueue true fun _ => 0)
      (afterRun is) := fun is =>
    (allowedRun_of_forall (fun _ _ => trivial) is _).reached .start
  constructor
  · obtain ⟨t, rest, hqueue, hstarted, hpacket, hset⟩ : ∃ t rest,
        (afterRun (queuedRead 512 true 5 ++ queuedRead 1024 true 5)).queue = t :: rest ∧
          t.started = false ∧ t.packet = readBytes 512 ∧ (.bytCnt, 512) ∈ t.setUp :=
      ⟨_, _, rfl, rfl, rfl, by decide +kernel⟩
    have hfifo : fifoWrites .emmc t.packet = [] := by
      rw [hpacket]
      rfl
    exact ⟨_, (hreached _).next (.timer idleExec) trivial,
      timer_not_sound (by decide +kernel) (by decide +kernel) hqueue hstarted
        (steadySchedule_idle 0) hfifo hset (by decide +kernel)⟩
  · refine ⟨_, hreached (queuedRead 512 false 4), fun h => ?_, by decide +kernel,
      by decide +kernel, by decide +kernel⟩
    have hm := h.mappings (0, .dmaMap) (by decide +kernel)
    exact absurd hm (by decide +kernel)

end Edk2Rk3576.DwMmc
