import Edk2Rk3576.Efi
import Edk2Rk3576.Lib.Compaction
import Mathlib.Data.List.GetD

/-!
# Detecting the displays

`DetectDisplays` goes through the display states that `PrepareDisplays` has left, and keeps in front
those that have a display, or all of them. It may end at the first display it finds.
-/

namespace Edk2Rk3576.Lcd

open Compaction

/-- The display states of an `LCD_INSTANCE` up to `DisplayStatesCount`, each one by its address.
Each is an allocation of its own. -/
structure DisplayList where
  states : List (Option ℕ)
  distinct : states.reduceOption.Nodup

/-- How `DetectDisplays` is called, and what it meets: what the `Detect` of each display's connector
answers, where it has one. -/
structure DetectCall where
  forceDetect : Bool
  detectAll : Bool
  detect : ℕ → Option EfiStatus

/-- The array, the display states given to `FreePool`, `NewCount`, and `*PrimaryDisplayState`. -/
structure DetectState where
  displayStates : List (Option ℕ)
  freed : List ℕ
  newCount : ℕ
  primary : Option ℕ

section Model

variable (c : DetectCall)

/-- `Status` for a display state. -/
def DetectCall.status (d : ℕ) : EfiStatus := (c.detect d).getD efiSuccess

/-- The loop, `left` entries before its end. -/
def detectLoop : (left index : ℕ) → DetectState → DetectState
  | 0, _, s => s
  | left + 1, index, s =>
    match s.displayStates.getD index none with
    | none => detectLoop left (index + 1) s
    | some d =>
      if efiError (c.status d) && !c.forceDetect then
        detectLoop left (index + 1)
          { s with
            displayStates := s.displayStates.set index none
            freed := s.freed ++ [d] }
      else
        let primary := if !efiError (c.status d) && s.primary.isNone then some d else s.primary
        let s := { s with
          displayStates := s.displayStates.set s.newCount (some d)
          newCount := s.newCount + 1
          primary := primary }
        if primary.isSome && !c.detectAll then s else detectLoop left (index + 1) s

/-- `DetectDisplays`. -/
def detectDisplays (states : List (Option ℕ)) (primary : Option ℕ) : EfiStatus × DetectState :=
  let s := detectLoop c states.length 0 ⟨states, [], 0, primary⟩
  (if s.newCount = 0 then efiNotFound else efiSuccess, s)

end Model

section Law

variable (c : DetectCall)

/-- A display state that is kept if the scan gets to it. -/
def DetectCall.keeps (d : ℕ) : Bool := !efiError (c.status d) || c.forceDetect

/-- What the scan gets to, `found` saying whether there is a primary display yet. -/
def DetectCall.scanned : Bool → List (Option ℕ) → List (Option ℕ)
  | _, [] => []
  | found, none :: states => none :: DetectCall.scanned found states
  | found, some d :: states =>
    let found := found || !efiError (c.status d)
    some d :: if c.keeps d && found && !c.detectAll then [] else DetectCall.scanned found states

/-- The display states kept, in their order. -/
def DetectCall.kept (states : List (Option ℕ)) (primary : Option ℕ) : List ℕ :=
  Compaction.kept c.keeps (c.scanned primary.isSome states)

/-- The list holds the display states kept, and nothing else is left of those there were. -/
structure Compacted (states : List (Option ℕ)) (kept : List ℕ) (s : DetectState) : Prop where
  count : s.newCount = kept.length
  front : s.displayStates.take s.newCount = kept.map some
  once : kept.Nodup
  released : ∀ d, some d ∈ states → (d ∈ s.freed ↔ d ∉ kept)
  releasedOnce : s.freed.Nodup
  behind : ∀ d ∈ kept, some d ∉ s.displayStates.drop s.newCount

end Law

section Loop

variable {c : DetectCall} {read rest : List (Option ℕ)} {s : DetectState}

/-- A display state is put behind those kept so far. -/
def DetectState.put (d : ℕ) (primary : Option ℕ) (s : DetectState) : DetectState :=
  { s with
    displayStates := s.displayStates.set s.newCount (some d)
    newCount := s.newCount + 1
    primary := primary }

/-- What holds once the entries `read` have been gone through. -/
structure Pass (c : DetectCall) (read rest : List (Option ℕ)) (s : DetectState) : Prop where
  states : s.displayStates =
    (Compaction.kept c.keeps read).map some ++ stale c.keeps read ++ rest
  newCount : s.newCount = (Compaction.kept c.keeps read).length
  freed : s.freed = read.reduceOption.filter fun d => !c.keeps d

theorem Pass.getD {entry : Option ℕ} (h : Pass c read (entry :: rest) s) :
    s.displayStates.getD read.length none = entry := by
  have hlength : read.length =
      ((Compaction.kept c.keeps read).map some ++ stale c.keeps read).length := by
    rw [List.length_append, List.length_map, length_stale]
  rw [h.states, List.getD_append_right _ _ _ _ (Nat.le_of_eq hlength.symm), ← hlength, Nat.sub_self]
  rfl

theorem Pass.none (h : Pass c read (none :: rest) s) : Pass c (read ++ [none]) rest s := by
  obtain ⟨hkept, hstale⟩ := @stale_drop _ c.keeps read Option.none rfl
  refine ⟨?_, ?_, ?_⟩
  · rw [h.states, hkept, hstale]
    simp
  · rw [h.newCount, hkept]
  · rw [h.freed, List.reduceOption_append]
    simp

theorem Pass.drop {d : ℕ} (h : Pass c read (some d :: rest) s) (hd : c.keeps d = false) :
    Pass c (read ++ [some d]) rest { s with
      displayStates := s.displayStates.set read.length Option.none
      freed := s.freed ++ [d] } := by
  obtain ⟨hkept, hstale⟩ := @stale_drop _ c.keeps read (some d) (by simp [Option.filter, hd])
  refine ⟨?_, ?_, ?_⟩
  · dsimp only
    rw [h.states, hkept, hstale, ← @length_stale _ c.keeps read, set_drop]
  · exact h.newCount.trans (congrArg List.length hkept.symm)
  · dsimp only
    rw [h.freed, List.reduceOption_append, List.filter_append]
    simp [hd]

theorem Pass.keep {d : ℕ} (h : Pass c read (some d :: rest) s) (hd : c.keeps d = true)
    (primary : Option ℕ) : Pass c (read ++ [some d]) rest (s.put d primary) := by
  obtain ⟨hkept, hstale⟩ := @stale_keep _ c.keeps read d hd
  rw [DetectState.put]
  refine ⟨?_, ?_, ?_⟩
  · dsimp only
    rw [h.states, h.newCount, hkept, hstale, set_keep]
  · dsimp only
    rw [h.newCount, hkept, List.length_append, List.length_singleton]
  · dsimp only
    rw [h.freed, List.reduceOption_append, List.filter_append]
    simp [hd]

theorem scanned_drop {found : Bool} {d : ℕ} (hd : c.keeps d = false) :
    c.scanned found (some d :: rest) = some d :: c.scanned found rest := by
  have hstatus : (!efiError (c.status d)) = false := (Bool.or_eq_false_iff.1 hd).1
  rw [DetectCall.scanned, hd, hstatus, Bool.or_false, Bool.false_and, Bool.false_and,
    if_neg Bool.false_ne_true]

theorem scanned_keep {found : Bool} {d : ℕ} (hd : c.keeps d = true) :
    c.scanned found (some d :: rest) = some d ::
      if (found || !efiError (c.status d)) && !c.detectAll then []
      else c.scanned (found || !efiError (c.status d)) rest := by
  rw [DetectCall.scanned, hd, Bool.true_and]

theorem detectLoop_drop {left index d : ℕ} (hget : s.displayStates.getD index none = some d)
    (hd : c.keeps d = false) : detectLoop c (left + 1) index s = detectLoop c left (index + 1)
      { s with
        displayStates := s.displayStates.set index Option.none
        freed := s.freed ++ [d] } := by
  obtain ⟨hstatus, hforce⟩ := Bool.or_eq_false_iff.1 hd
  rw [detectLoop, hget]
  dsimp only
  rw [hforce, if_pos (by simpa using hstatus)]

theorem detectLoop_keep {left index d : ℕ} (hget : s.displayStates.getD index none = some d)
    (hd : c.keeps d = true) : ∃ primary : Option ℕ,
      primary.isSome = (s.primary.isSome || !efiError (c.status d)) ∧
        detectLoop c (left + 1) index s =
          if primary.isSome && !c.detectAll then s.put d primary
          else detectLoop c left (index + 1) (s.put d primary) := by
  have hstays : (efiError (c.status d) && !c.forceDetect) = false := by
    have hnot := congrArg (! ·) hd
    simpa [DetectCall.keeps] using hnot
  refine ⟨if !efiError (c.status d) && s.primary.isNone then some d else s.primary, ?_, ?_⟩
  · cases s.primary <;> cases efiError (c.status d) <;> rfl
  · rw [detectLoop, hget]
    dsimp only
    rw [if_neg (by rw [hstays]; decide)]
    rfl

/-- The loop goes through what the scan gets to. -/
theorem Pass.loop : ∀ {rest read : List (Option ℕ)} {s : DetectState}, Pass c read rest s →
    ∃ rest', rest = c.scanned s.primary.isSome rest ++ rest' ∧
      Pass c (read ++ c.scanned s.primary.isSome rest) rest'
        (detectLoop c rest.length read.length s)
  | [], read, s, h => ⟨[], rfl, by simpa [DetectCall.scanned, detectLoop] using h⟩
  | Option.none :: rest, read, s, h => by
    obtain ⟨rest', hrest, hpass⟩ := h.none.loop
    refine ⟨rest', ?_, ?_⟩
    · rw [DetectCall.scanned, List.cons_append, ← hrest]
    · rw [List.append_assoc] at hpass
      rw [List.length_cons, detectLoop, h.getD, DetectCall.scanned]
      simpa using hpass
  | some d :: rest, read, s, h => by
    rw [List.length_cons]
    cases hkeep : c.keeps d with
    | false =>
      obtain ⟨rest', hrest, hpass⟩ := (h.drop hkeep).loop
      rw [List.length_append, List.length_singleton, List.append_assoc] at hpass
      rw [scanned_drop hkeep, detectLoop_drop h.getD hkeep]
      exact ⟨rest', by rw [List.cons_append, ← hrest], hpass⟩
    | true =>
      obtain ⟨primary, hprimary, heq⟩ := detectLoop_keep h.getD hkeep
      rw [heq, scanned_keep hkeep, ← hprimary]
      have hnext := h.keep hkeep primary
      cases hstop : primary.isSome && !c.detectAll with
      | true =>
        rw [if_pos rfl, if_pos rfl]
        exact ⟨rest, rfl, hnext⟩
      | false =>
        rw [if_neg Bool.false_ne_true, if_neg Bool.false_ne_true]
        obtain ⟨rest', hrest, hpass⟩ := hnext.loop
        rw [List.length_append, List.length_singleton, List.append_assoc] at hpass
        exact ⟨rest', by rw [List.cons_append]; exact congrArg _ hrest, hpass⟩

end Loop

section Compacting

variable {c : DetectCall} {primary : Option ℕ} {states : List (Option ℕ)}

theorem detectDisplays_pass (c : DetectCall) (primary : Option ℕ) (states : List (Option ℕ)) :
    ∃ rest, states = c.scanned primary.isSome states ++ rest ∧
      Pass c (c.scanned primary.isSome states) rest (detectDisplays c states primary).2 := by
  have hstart : Pass c [] states ⟨states, [], 0, primary⟩ := ⟨rfl, rfl, rfl⟩
  exact hstart.loop

theorem mem_stale {keep : ℕ → Bool} {read : List (Option ℕ)} {d : ℕ}
    (h : some d ∈ stale keep read) : d ∈ Compaction.kept keep read := by
  obtain ⟨slot, hslot, hfilter⟩ := List.mem_map.1 (List.mem_of_mem_drop h)
  obtain ⟨rfl, hkeep⟩ := Option.filter_eq_some_iff.1 hfilter
  exact List.mem_filter.2 ⟨List.reduceOption_mem_iff.2 hslot, hkeep⟩

/-- The display states the scan does not get to are not among those it does. -/
theorem disjoint_rest {read rest : List (Option ℕ)} (h : (read ++ rest).reduceOption.Nodup) {d : ℕ}
    (hrest : some d ∈ rest) : some d ∉ read := by
  intro hread
  rw [List.reduceOption_append] at h
  exact (List.nodup_append.1 h).2.2 d (List.reduceOption_mem_iff.2 hread) d
    (List.reduceOption_mem_iff.2 hrest) rfl

theorem Pass.compacted_iff {read rest : List (Option ℕ)} {s : DetectState} (h : Pass c read rest s)
    (hdistinct : (read ++ rest).reduceOption.Nodup) :
    Compacted (read ++ rest) (Compaction.kept c.keeps read) s ↔
      read.take (Compaction.kept c.keeps read).length = (Compaction.kept c.keeps read).map some ∧
        ∀ d, some d ∈ rest → some d ∈ read := by
  have hread : read.reduceOption.Nodup := by
    rw [List.reduceOption_append] at hdistinct
    exact (List.nodup_append.1 hdistinct).1
  have hlength : s.newCount = ((Compaction.kept c.keeps read).map some).length := by
    rw [h.newCount, List.length_map]
  have hdrop : s.displayStates.drop s.newCount = stale c.keeps read ++ rest := by
    rw [h.states, hlength, List.append_assoc, List.drop_left]
  have hmem : ∀ d, d ∈ Compaction.kept c.keeps read ↔ some d ∈ read ∧ c.keeps d = true := by
    intro d
    rw [Compaction.kept, List.mem_filter, List.reduceOption_mem_iff]
  have hfreed : ∀ d, d ∈ s.freed ↔ some d ∈ read ∧ c.keeps d = false := by
    intro d
    rw [h.freed, List.mem_filter, List.reduceOption_mem_iff]
    simp
  rw [← stale_clean_iff]
  constructor
  · intro hcompacted
    refine ⟨fun d hd => ?_, fun d hd => ?_⟩
    · refine hcompacted.behind d (mem_stale hd) ?_
      rw [hdrop]
      exact List.mem_append_left _ hd
    · by_contra hno
      have hreleased := hcompacted.released d (List.mem_append_right _ hd)
      rw [hfreed, hmem] at hreleased
      exact hno (hreleased.2 fun hyes => hno hyes.1).1
  · rintro ⟨hclean, hall⟩
    refine ⟨h.newCount, ?_, hread.filter _, fun d hd => ?_, ?_, fun d hd hbehind => ?_⟩
    · rw [h.states, hlength, List.append_assoc, List.take_left]
    · have hd' : some d ∈ read := (List.mem_append.1 hd).elim id (hall d)
      rw [hfreed, hmem]
      simp [hd']
    · rw [h.freed]
      exact hread.filter _
    · rw [hdrop] at hbehind
      rcases List.mem_append.1 hbehind with hstale | hrest
      · exact hclean d hstale
      · exact disjoint_rest hdistinct hrest (hall d hrest)

/-- The list is compacted exactly where the displays kept were the first entries already, and the
scan came past all display states. -/
theorem detectDisplays_compacted_iff (c : DetectCall) (l : DisplayList) (primary : Option ℕ) :
    Compacted l.states (c.kept l.states primary) (detectDisplays c l.states primary).2 ↔
      l.states.take (c.kept l.states primary).length = (c.kept l.states primary).map some ∧
        ∀ d, some d ∈ l.states → some d ∈ c.scanned primary.isSome l.states := by
  obtain ⟨rest, hrest, hpass⟩ := detectDisplays_pass c primary l.states
  have hdistinct := l.distinct
  rw [DetectCall.kept]
  generalize c.scanned primary.isSome l.states = read at hrest hpass ⊢
  generalize (detectDisplays c l.states primary).2 = s at hpass ⊢
  rw [hrest] at hdistinct ⊢
  rw [hpass.compacted_iff hdistinct, List.take_append_of_le_length kept_length_le]
  refine and_congr_right fun _ => ⟨fun h d hd => ?_, fun h d hd => h d (List.mem_append_right _ hd)⟩
  exact (List.mem_append.1 hd).elim id (h d)

/-- The first of two connectors has no display. -/
def secondConnected : DetectCall where
  forceDetect := false
  detectAll := true
  detect := fun d => if d = 1 then some efiNotFound else none

def twoDisplays : DisplayList := ⟨[some 1, some 2], by decide⟩

/-- The second one is copied to the front, and stays where it was too. -/
theorem detectDisplays_leaves_copy : ¬ ∀ (c : DetectCall) (l : DisplayList) (primary : Option ℕ),
    Compacted l.states (c.kept l.states primary) (detectDisplays c l.states primary).2 := by
  intro h
  exact (h secondConnected twoDisplays none).behind 2 (by decide) (by decide)

end Compacting

end Edk2Rk3576.Lcd
