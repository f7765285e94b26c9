import Mathlib.Data.List.ReduceOption
import Mathlib.Tactic.Common

/-!
# Compaction in place

A pass over an array of slots empties the slots it drops and copies the values it keeps to the
front, so that the slots read so far are the kept values and, behind them, what the pass has left
where it was. Kept values that were in front already leave nothing behind.
-/

namespace Compaction

variable {α : Type*} {keep : α → Bool} {read rest : List (Option α)} {d : α}

/-- The values of the slots read that are kept. -/
def kept (keep : α → Bool) (read : List (Option α)) : List α := read.reduceOption.filter keep

/-- What the pass leaves behind those. -/
def stale (keep : α → Bool) (read : List (Option α)) : List (Option α) :=
  (read.map (Option.filter keep)).drop (kept keep read).length

theorem kept_append {more : List (Option α)} :
    kept keep (read ++ more) = kept keep read ++ kept keep more := by
  rw [kept, List.reduceOption_append, List.filter_append]
  rfl

theorem kept_length_le : (kept keep read).length ≤ read.length :=
  Nat.le_trans (List.length_filter_le _ _) (List.reduceOption_length_le _)

theorem length_stale : (kept keep read).length + (stale keep read).length = read.length := by
  have hle := @kept_length_le _ keep read
  rw [stale, List.length_drop, List.length_map]
  omega

theorem stale_drop {slot : Option α} (h : slot.filter keep = none) :
    kept keep (read ++ [slot]) = kept keep read ∧
      stale keep (read ++ [slot]) = stale keep read ++ [none] := by
  have hkept : kept keep (read ++ [slot]) = kept keep read := by
    rw [kept_append]
    cases slot with
    | none => simp [kept]
    | some d =>
      have hd : keep d = false := by simpa [Option.filter] using h
      simp [kept, hd]
  refine ⟨hkept, ?_⟩
  rw [stale, hkept, List.map_append, List.drop_append_of_le_length
    (by rw [List.length_map]; exact kept_length_le), List.map_cons, List.map_nil, h]
  rfl

theorem stale_keep (h : keep d = true) :
    kept keep (read ++ [some d]) = kept keep read ++ [d] ∧
      stale keep (read ++ [some d]) = (stale keep read ++ [some d]).tail := by
  have hkept : kept keep (read ++ [some d]) = kept keep read ++ [d] := by
    rw [kept_append]
    simp [kept, h]
  refine ⟨hkept, ?_⟩
  have hle : (kept keep read).length ≤ (read.map (Option.filter keep)).length := by
    rw [List.length_map]
    exact kept_length_le
  rw [stale, hkept, List.length_append, List.length_singleton, ← List.drop_drop, List.map_append,
    List.drop_append_of_le_length hle, List.drop_one, List.map_cons, List.map_nil]
  rw [Option.filter_some, if_pos h]
  rfl

/-- Copying a value to the front, with the pass at its slot. -/
theorem set_keep {K : List α} {mid : List (Option α)} :
    (K.map some ++ mid ++ some d :: rest).set K.length (some d) =
      (K ++ [d]).map some ++ (mid ++ [some d]).tail ++ rest := by
  have hlength : K.length = (K.map some).length := (List.length_map _).symm
  rw [List.append_assoc, hlength, List.set_append_right _ _ (Nat.le_refl _), Nat.sub_self]
  cases mid with
  | nil => simp
  | cons slot mid => simp

/-- Emptying the slot the pass is at. -/
theorem set_drop {K : List α} {mid : List (Option α)} {slot : Option α} :
    (K.map some ++ mid ++ slot :: rest).set (K.length + mid.length) none =
      K.map some ++ (mid ++ [none]) ++ rest := by
  have hlength : K.length + mid.length = (K.map some ++ mid).length := by simp
  rw [hlength, List.set_append_right _ _ (Nat.le_refl _), Nat.sub_self]
  simp

theorem reduceOption_clean : ∀ read : List (Option α),
    (read.map (Option.filter keep)).reduceOption = kept keep read
  | [] => rfl
  | none :: read => by simpa [kept] using reduceOption_clean read
  | some d :: read => by
    have ih := reduceOption_clean read
    rw [List.map_cons, Option.filter_some]
    by_cases hd : keep d = true
    · rw [if_pos hd, List.reduceOption_cons_of_some, ih, kept, kept, List.reduceOption_cons_of_some,
        List.filter_cons_of_pos hd]
    · rw [if_neg hd, List.reduceOption_cons_of_none, ih, kept, kept, List.reduceOption_cons_of_some,
        List.filter_cons_of_neg hd]

theorem map_some_reduceOption : ∀ {l : List (Option α)}, (∀ x ∈ l, x.isSome) →
    l.reduceOption.map some = l
  | [], _ => rfl
  | none :: _, h => by simpa using h none List.mem_cons_self
  | some d :: l, h => by
    have ih := map_some_reduceOption fun x hx => h x (List.mem_cons_of_mem _ hx)
    rw [List.reduceOption_cons_of_some, List.map_cons, ih]

theorem eq_of_clean_eq : ∀ {l : List (Option α)} {K : List α},
    l.map (Option.filter keep) = K.map some → l = K.map some
  | [], [], _ => rfl
  | [], _ :: _, h => by simp at h
  | _ :: _, [], h => by simp at h
  | slot :: l, d :: K, h => by
    obtain ⟨hslot, hl⟩ := List.cons.inj h
    have hd : slot = some d := (Option.filter_eq_some_iff.1 hslot).1
    rw [hd, eq_of_clean_eq hl, List.map_cons]

/-- Nothing is left behind exactly where the kept values came first. -/
theorem stale_clean_iff : (∀ d, some d ∉ stale keep read) ↔
    read.take (kept keep read).length = (kept keep read).map some := by
  constructor
  · intro hclean
    have hnone : (stale keep read).reduceOption = [] :=
      List.eq_nil_iff_forall_not_mem.2 fun d hd =>
        hclean d (List.reduceOption_mem_iff.1 hd)
    have hsplit := @reduceOption_clean _ keep read
    rw [← List.take_append_drop (kept keep read).length (read.map (Option.filter keep)),
      List.reduceOption_append, ← stale, hnone, List.append_nil] at hsplit
    refine @eq_of_clean_eq _ keep _ _ ?_
    rw [List.map_take]
    have hsome := (List.reduceOption_length_eq_iff
      (l := (read.map (Option.filter keep)).take (kept keep read).length)).1 ?_
    · rw [← map_some_reduceOption hsome, hsplit]
    · rw [hsplit, List.length_take, List.length_map, Nat.min_eq_left kept_length_le]
  · intro hfirst d hd
    rw [stale, ← List.map_drop] at hd
    obtain ⟨slot, hslot, hfilter⟩ := List.mem_map.1 hd
    obtain ⟨rfl, hkeep⟩ := Option.filter_eq_some_iff.1 hfilter
    have hmem : d ∈ kept keep (read.drop (kept keep read).length) :=
      List.mem_filter.2 ⟨List.reduceOption_mem_iff.2 hslot, hkeep⟩
    have hself : kept keep ((kept keep read).map some) = kept keep read := by
      have hreduce : ((kept keep read).map some).reduceOption = kept keep read := by
        simp [List.reduceOption]
      rw [kept, hreduce]
      exact List.filter_eq_self.2 fun d hd => (List.mem_filter.1 hd).2
    have hsplit := @kept_append _ keep (read.take (kept keep read).length)
      (read.drop (kept keep read).length)
    rw [List.take_append_drop, hfirst, hself] at hsplit
    rw [List.self_eq_append_right.1 hsplit] at hmem
    exact absurd hmem List.not_mem_nil

end Compaction
