import Edk2Rk3576.DwMmc.Command
import Edk2Rk3576.DwMmc.Descriptors
import Edk2Rk3576.Lib.RegisterFile

/-!
# The requests of the SD and eMMC driver

`DwMmcCreateTrb` makes a request of a packet. For an eMMC it also maps the data and a descriptor
table, and sets the controller up for the transfer; for an SD card that is left until the command is
given.
-/

namespace Edk2Rk3576.DwMmc

def emmcSendTuningBlock : ℕ := 21

/-- The registers that say what a command transfers. -/
inductive Reg
  | blkSiz
  | bytCnt
  | dbAddr
  deriving DecidableEq

abbrev RegWrite := Reg × ℕ

/-- The mappings of a request, by the names of their fields. -/
inductive Mapping
  | dataMap
  | dmaMap
  deriving DecidableEq

/-- `DW_MMC_HC_TRB`, with a number of its own and what is to be written for its transfer before its
command is given, and has been. -/
structure Trb where
  id : ℕ
  event : Bool
  packet : CommandPacket
  started : Bool
  timeout : UInt64
  dataMap : Bool
  dmaMap : Bool
  setUp : List RegWrite
  written : List RegWrite

/-- What becomes of requests, in the order of time. -/
inductive Event
  | mapped (id : ℕ) (m : Mapping)
  | released (id : ℕ) (m : Mapping)
  | accepted (id : ℕ)
  | executed (id : ℕ)
  | command (t : Trb) (regs : Reg → ℕ)
  | signalled (id : ℕ) (status : EfiStatus)
  | freed (id : ℕ)

/-- How the allocation and the mappings of a request turn out, and whether the controller takes the
reset of its DMA. -/
structure CreateEnv where
  allocated : Bool
  mapData : ℕ → Option (ℕ × UInt64)
  table : DmaEnv
  dmaReset : Bool

variable (card : CardType) (p : CommandPacket) (env : CreateEnv)

def tuningBlock : Bool :=
  card = .emmc ∧ p.commandIndex = emmcSendTuningBlock ∨
    card = .sd ∧ p.commandIndex = sdSendTuningBlock

/-- The request's data is moved by the controller's DMA. -/
def usesDma : Bool := card = .emmc ∧ p.commandIndex ≠ emmcSendTuningBlock ∧ p.dataLen ≠ 0

def tableSize : ℕ := entries p.dataLen.toNat * dmaDescLineSize

/-- `BuildDmaDescTable` gets as far as to map its table. -/
def reachesTable (dataPhy : UInt64) : Bool :=
  ¬ (0x100000000 ≤ dataPhy.toNat ∨ 0x100000000 < (dataPhy + p.dataLen.toUInt64).toNat) ∧
    env.table.allocateBuffer (efiSizeToPages (tableSize p))

def mapsTable (dataPhy : UInt64) : Bool :=
  reachesTable p env dataPhy ∧ (env.table.map (tableSize p)).isSome

/-- The events of `DwMmcCreateTrb` until it sets up the controller, and its request. -/
structure Created where
  events : List Event
  trb : Option Trb

/-- The request before anything is mapped for it. -/
def freshTrb (id : ℕ) (event : Bool) : Trb where
  id := id
  event := event
  packet := p
  started := false
  timeout := p.timeout
  dataMap := false
  dmaMap := false
  setUp := []
  written := []

/-- The request with its transfer. -/
def dmaTrb (id : ℕ) (event : Bool) (table : DmaDescTable) : Trb :=
  { freshTrb p id event with
    dataMap := true
    dmaMap := true
    setUp := [(.blkSiz, table.blkSiz), (.bytCnt, table.bytCnt), (.dbAddr, table.dbAddr)] }

def createTrb (id : ℕ) (event : Bool) : Created :=
  if ¬ env.allocated then ⟨[], none⟩
  else if ¬ usesDma card p then ⟨[], some (freshTrb p id event)⟩
  else
    match env.mapData p.dataLen.toNat with
    | none => ⟨[], none⟩
    | some (mapLength, dataPhy) =>
      if p.dataLen.toNat ≠ mapLength then ⟨[.mapped id .dataMap], none⟩
      else
        let table := if mapsTable p env dataPhy then [.mapped id .dmaMap] else []
        match buildDmaDescTable env.table dataPhy p.dataLen with
        | .error status =>
          -- The table is unmapped on this error alone.
          let unmapped := if status = efiDeviceError then [.released id .dmaMap] else []
          ⟨.mapped id .dataMap :: table ++ unmapped ++ [.released id .dataMap], none⟩
        | .ok t => ⟨.mapped id .dataMap :: table, some (dmaTrb p id event t)⟩

/-- The mappings that a request has. -/
def Trb.held (t : Trb) : List (ℕ × Mapping) :=
  (if t.dmaMap then [(t.id, .dmaMap)] else []) ++ (if t.dataMap then [(t.id, .dataMap)] else [])

/-- `DwMmcFreeTrb`. -/
def freeTrb (t : Trb) : List Event := t.held.map (fun m => .released m.1 m.2) ++ [.freed t.id]

/-- What `DwMmcExecTrb` writes before the command. -/
def fifoWrites : List RegWrite :=
  match (issuedCommand card p).sizes with
  | none => []
  | some (bytCnt, blkSiz) => [(.bytCnt, bytCnt.toNat), (.blkSiz, blkSiz.toNat)]

def Trb.writes (t : Trb) : List RegWrite := t.setUp ++ fifoWrites card t.packet

/-- The registers are those of the request's own transfer. -/
def Trb.Own (t : Trb) (regs : Reg → ℕ) : Prop :=
  (t.packet.dataLen ≠ 0 → t.writes card ≠ []) ∧ Agrees regs (t.writes card)

/-! The parts of a history. -/

@[simp] def Event.acceptedPart : Event → Option ℕ
  | .accepted id => some id
  | _ => none

@[simp] def Event.executedPart : Event → Option ℕ
  | .executed id => some id
  | _ => none

@[simp] def Event.signalledPart : Event → Option (ℕ × EfiStatus)
  | .signalled id status => some (id, status)
  | _ => none

@[simp] def Event.freedPart : Event → Option ℕ
  | .freed id => some id
  | _ => none

@[simp] def Event.mappedPart : Event → Option (ℕ × Mapping)
  | .mapped id m => some (id, m)
  | _ => none

@[simp] def Event.releasedPart : Event → Option (ℕ × Mapping)
  | .released id m => some (id, m)
  | _ => none

abbrev accepted (es : List Event) : List ℕ := es.filterMap Event.acceptedPart

abbrev executed (es : List Event) : List ℕ := es.filterMap Event.executedPart

abbrev signalled (es : List Event) : List (ℕ × EfiStatus) := es.filterMap Event.signalledPart

abbrev freed (es : List Event) : List ℕ := es.filterMap Event.freedPart

abbrev mapped (es : List Event) : List (ℕ × Mapping) := es.filterMap Event.mappedPart

abbrev released (es : List Event) : List (ℕ × Mapping) := es.filterMap Event.releasedPart

/-! What the release of a request adds to each. -/

section FreeTrb

variable (t : Trb)

@[simp] theorem accepted_freeTrb : accepted (freeTrb t) = [] := by
  simp [freeTrb, List.filterMap_map, Function.comp_def]

@[simp] theorem executed_freeTrb : executed (freeTrb t) = [] := by
  simp [freeTrb, List.filterMap_map, Function.comp_def]

@[simp] theorem signalled_freeTrb : signalled (freeTrb t) = [] := by
  simp [freeTrb, List.filterMap_map, Function.comp_def]

@[simp] theorem freed_freeTrb : freed (freeTrb t) = [t.id] := by
  simp [freeTrb, List.filterMap_map, Function.comp_def]

@[simp] theorem mapped_freeTrb : mapped (freeTrb t) = [] := by
  simp [freeTrb, List.filterMap_map, Function.comp_def]

@[simp] theorem released_freeTrb : released (freeTrb t) = t.held := by
  simp [freeTrb, List.filterMap_map, Function.comp_def]

end FreeTrb

/-- A request is no tuning block with data, and what is mapped for it is mapped whole. -/
structure Creates (p : CommandPacket) (env : CreateEnv) : Prop where
  tuning : tuningBlock card p → p.dataLen = 0
  whole : env.allocated → usesDma card p → ∀ mapLength dataPhy,
    env.mapData p.dataLen.toNat = some (mapLength, dataPhy) → mapLength = p.dataLen.toNat ∧
      (reachesTable p env dataPhy →
        ∀ bytes phy, env.table.map (tableSize p) = some (bytes, phy) → bytes = tableSize p)

/-! A request that is made. -/

section Create

variable {card : CardType} {p : CommandPacket} {env : CreateEnv} {id : ℕ} {event : Bool} {t : Trb}
  {dataPhy : UInt64} {status : EfiStatus} {table : DmaDescTable}

/-- The events of a table that is mapped, and of one that is unmapped again. -/
def tableEvents (id : ℕ) (maps unmaps : Bool) : List Event :=
  (if maps then [.mapped id .dmaMap] else []) ++ if unmaps then [.released id .dmaMap] else []

theorem createTrb_cases (card : CardType) (p : CommandPacket) (env : CreateEnv) (id : ℕ)
    (event : Bool) :
    createTrb card p env id event = ⟨[], none⟩ ∨
    (usesDma card p = false ∧ createTrb card p env id event = ⟨[], some (freshTrb p id event)⟩) ∨
    ∃ mapLength dataPhy, env.allocated = true ∧ usesDma card p = true ∧
      env.mapData p.dataLen.toNat = some (mapLength, dataPhy) ∧
      ((mapLength ≠ p.dataLen.toNat ∧
          createTrb card p env id event = ⟨[.mapped id .dataMap], none⟩) ∨
        (∃ status, buildDmaDescTable env.table dataPhy p.dataLen = .error status ∧
          createTrb card p env id event = ⟨.mapped id .dataMap ::
            tableEvents id (mapsTable p env dataPhy) (status = efiDeviceError) ++
              [.released id .dataMap], none⟩) ∨
        ∃ table, buildDmaDescTable env.table dataPhy p.dataLen = .ok table ∧
          createTrb card p env id event = ⟨.mapped id .dataMap ::
            tableEvents id (mapsTable p env dataPhy) false, some (dmaTrb p id event table)⟩) := by
  rcases halloc : env.allocated with _ | _
  · exact .inl (by simp [createTrb, halloc])
  rcases hdma : usesDma card p with _ | _
  · exact .inr (.inl ⟨rfl, by simp [createTrb, halloc, hdma]⟩)
  rcases hmap : env.mapData p.dataLen.toNat with _ | ⟨mapLength, dataPhy⟩
  · exact .inl (by simp [createTrb, halloc, hdma, hmap])
  refine .inr (.inr ⟨mapLength, dataPhy, rfl, rfl, rfl, ?_⟩)
  by_cases hlen : p.dataLen.toNat = mapLength
  · refine .inr ?_
    subst hlen
    rcases htable : buildDmaDescTable env.table dataPhy p.dataLen with status | table
    · refine .inl ⟨status, rfl, ?_⟩
      simp [createTrb, halloc, hdma, hmap, htable, tableEvents]
    · refine .inr ⟨table, rfl, ?_⟩
      simp [createTrb, halloc, hdma, hmap, htable, tableEvents]
  · exact .inl ⟨fun h => hlen h.symm, by simp [createTrb, halloc, hdma, hmap, hlen]⟩

theorem mapsTable_of_ok (h : buildDmaDescTable env.table dataPhy p.dataLen = .ok table) :
    mapsTable p env dataPhy = true := by
  simp only [buildDmaDescTable] at h
  split at h
  · cases h
  next hphy =>
  split at h
  · next halloc =>
    split at h
    · cases h
    next hmap => simp [mapsTable, reachesTable, tableSize, hmap, halloc] at hphy ⊢; exact hphy
  · cases h

/-- Of the errors of a table that is mapped whole, it is the one with which it is unmapped that
comes after its mapping. -/
theorem mapsTable_of_error
    (h : buildDmaDescTable env.table dataPhy p.dataLen = .error status)
    (hwhole : reachesTable p env dataPhy →
      ∀ bytes phy, env.table.map (tableSize p) = some (bytes, phy) → bytes = tableSize p) :
    mapsTable p env dataPhy = decide (status = efiDeviceError) := by
  simp only [buildDmaDescTable] at h
  split at h
  · next hphy =>
    cases h
    have hreach : reachesTable p env dataPhy = false :=
      decide_eq_false fun hreach => hreach.1 hphy
    simp [mapsTable, hreach]
    decide
  next hphy =>
  split at h
  swap
  · next halloc =>
    cases h
    simp [mapsTable, reachesTable, tableSize, halloc]
    decide
  next halloc =>
  have hreach : reachesTable p env dataPhy = true := by
    simp [reachesTable, tableSize, halloc] at hphy ⊢
    exact hphy
  split at h
  · next hmap =>
    cases h
    simp [mapsTable, tableSize, hmap]
    decide
  next bytes phy hmap =>
  have hbytes : bytes = entries p.dataLen.toNat * dmaDescLineSize := hwhole hreach _ _ hmap
  rw [if_neg (not_not.mpr hbytes)] at h
  split at h
  · cases h
    simp [mapsTable, hreach, tableSize, hmap]
  · cases h

theorem mem_tableEvents {maps unmaps : Bool} {e : Event} (h : e ∈ tableEvents id maps unmaps) :
    ∃ m, e = .mapped id m ∨ e = .released id m := by
  rw [tableEvents, List.mem_append] at h
  rcases h with h | h
  · split at h
    · exact ⟨_, .inl (List.mem_singleton.mp h)⟩
    · cases h
  · split at h
    · exact ⟨_, .inr (List.mem_singleton.mp h)⟩
    · cases h

/-- Only mappings come of it. -/
theorem createTrb_events : ∀ e ∈ (createTrb card p env id event).events,
    ∃ m, e = .mapped id m ∨ e = .released id m := by
  intro e he
  rcases createTrb_cases card p env id event with h | ⟨-, h⟩ |
    ⟨mapLength, dataPhy, -, -, -, ⟨-, h⟩ | ⟨status, -, h⟩ | ⟨table, -, h⟩⟩ <;> rw [h] at he
  · cases he
  · cases he
  · exact ⟨_, .inl (List.mem_singleton.mp he)⟩
  · simp only [List.cons_append, List.mem_cons, List.mem_append, List.not_mem_nil, or_false] at he
    rcases he with rfl | he | rfl
    · exact ⟨_, .inl rfl⟩
    · exact mem_tableEvents he
    · exact ⟨_, .inr rfl⟩
  · rcases List.mem_cons.mp he with rfl | he
    · exact ⟨_, .inl rfl⟩
    · exact mem_tableEvents he

/-- A part of the history that does not look at mappings. -/
theorem createTrb_filterMap {α : Type} {f : Event → Option α} (hmapped : ∀ m, f (.mapped id m) = none)
    (hreleased : ∀ m, f (.released id m) = none) :
    (createTrb card p env id event).events.filterMap f = [] := by
  rw [List.filterMap_eq_nil_iff]
  intro e he
  obtain ⟨m, rfl | rfl⟩ := createTrb_events e he
  · exact hmapped m
  · exact hreleased m

@[simp] theorem createTrb_accepted : accepted (createTrb card p env id event).events = [] :=
  createTrb_filterMap (fun _ => rfl) fun _ => rfl

@[simp] theorem createTrb_executed : executed (createTrb card p env id event).events = [] :=
  createTrb_filterMap (fun _ => rfl) fun _ => rfl

@[simp] theorem createTrb_signalled : signalled (createTrb card p env id event).events = [] :=
  createTrb_filterMap (fun _ => rfl) fun _ => rfl

@[simp] theorem createTrb_freed : freed (createTrb card p env id event).events = [] :=
  createTrb_filterMap (fun _ => rfl) fun _ => rfl

theorem createTrb_trb (h : (createTrb card p env id event).trb = some t) :
    usesDma card p = false ∧ t = freshTrb p id event ∨
      usesDma card p = true ∧ ∃ table, t = dmaTrb p id event table := by
  rcases createTrb_cases card p env id event with hc | ⟨hdma, hc⟩ |
    ⟨mapLength, dataPhy, -, hdma, -, ⟨-, hc⟩ | ⟨status, -, hc⟩ | ⟨table, -, hc⟩⟩ <;> rw [hc] at h <;>
    cases h
  · exact .inl ⟨hdma, rfl⟩
  · exact .inr ⟨hdma, table, rfl⟩

/-- What is mapped for a request is released again or is held by it. -/
theorem createTrb_balance (hcreates : Creates card p env) (m : ℕ × Mapping) :
    (mapped (createTrb card p env id event).events).count m =
      (released (createTrb card p env id event).events).count m +
        (((createTrb card p env id event).trb.map Trb.held).getD []).count m := by
  rcases createTrb_cases card p env id event with h | ⟨-, h⟩ |
    ⟨mapLength, dataPhy, halloc, hdma, hmap, ⟨hne, -⟩ | ⟨status, htable, h⟩ | ⟨table, htable, h⟩⟩
  · rw [h]
    rfl
  · rw [h]
    rfl
  · exact absurd (hcreates.whole halloc hdma _ _ hmap).1 hne
  · rw [h, mapsTable_of_error htable (hcreates.whole halloc hdma _ _ hmap).2]
    by_cases hstatus : status = efiDeviceError
    · simp [List.filterMap_cons, tableEvents, hstatus, List.count_cons]
      omega
    · simp [List.filterMap_cons, tableEvents, hstatus]
  · rw [h, mapsTable_of_ok htable]
    simp [List.filterMap_cons, tableEvents, Trb.held, dmaTrb, freshTrb, List.count_cons]
    omega

theorem mapped_tableEvents (maps unmaps : Bool) :
    (mapped (tableEvents id maps unmaps)).Sublist [(id, .dmaMap)] := by
  cases maps <;> cases unmaps <;> simp [List.filterMap_cons, tableEvents]

/-- Each of the two mappings is made at most once. -/
theorem createTrb_mapped (m : ℕ × Mapping) :
    (mapped (createTrb card p env id event).events).count m ≤ if m.1 = id then 1 else 0 := by
  have hsub : (mapped (createTrb card p env id event).events).Sublist
      [(id, .dataMap), (id, .dmaMap)] := by
    rcases createTrb_cases card p env id event with h | ⟨-, h⟩ |
      ⟨mapLength, dataPhy, -, -, -, ⟨-, h⟩ | ⟨status, -, h⟩ | ⟨table, -, h⟩⟩ <;> rw [h]
    · exact List.nil_sublist _
    · exact List.nil_sublist _
    · exact (List.nil_sublist _).cons_cons _
    · have htable : (mapped (tableEvents id (mapsTable p env dataPhy)
          (decide (status = efiDeviceError)))).Sublist [(id, .dmaMap)] := mapped_tableEvents _ _
      rw [mapped, List.filterMap_append]
      simpa [List.filterMap_cons] using htable.cons_cons (id, Mapping.dataMap)
    · exact (mapped_tableEvents _ _).cons_cons _
  refine (hsub.count_le m).trans ?_
  rcases m with ⟨i, _ | _⟩ <;> by_cases hi : id = i <;>
    simp [hi, eq_comm (a := i)]

/-- A request that is made has nothing written and all to write. -/
theorem createTrb_written (hcreates : Creates card p env)
    (h : (createTrb card p env id event).trb = some t) :
    t.written = [] ∧ t.started = false ∧ t.id = id ∧ ((t.writes card).map Prod.fst).Nodup ∧
      (t.packet.dataLen ≠ 0 → t.writes card ≠ []) := by
  rcases createTrb_trb h with ⟨hdma, rfl⟩ | ⟨hdma, table, rfl⟩
  · refine ⟨rfl, rfl, rfl, ?_, fun hlen => ?_⟩
    · rw [Trb.writes, fifoWrites]
      split <;> simp [freshTrb]
    · have htuning := hcreates.tuning
      cases card <;> simp_all [usesDma, tuningBlock, Trb.writes, fifoWrites, freshTrb,
        issuedCommand, CommandPacket.useFifo]
  · simp [usesDma] at hdma
    simp [Trb.writes, fifoWrites, issuedCommand, CommandPacket.useFifo, dmaTrb, freshTrb, hdma]

end Create

end Edk2Rk3576.DwMmc
