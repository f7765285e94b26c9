import Mathlib.Tactic.Common
import Mathlib.Data.List.Basic
import Mathlib.Data.List.Nodup

/-!
# Versions

A list of entries under keys, some of which are old: an old entry counts until there is a new one
of its key. `pick` prefers a new entry to an old one, `superseded` are the old entries that no
longer count. A list has versions when its keys have one new entry and one old one at most.
-/

namespace Versions

variable {α κ : Type*} [DecidableEq κ] (key : α → κ) (old : α → Bool)

/-- The first new entry, else the last one. -/
def pick (l : List α) : Option α := (l.find? fun a => ! old a).or l.getLast?

def lookup (k : κ) (l : List α) : Option α := pick old (l.filter fun a => key a = k)

def superseded (l : List α) (a : α) : Bool :=
  old a && l.any fun b => ! old b && decide (key b = key a)

/-- The entries of `xs` that count in `l`. -/
def current (l xs : List α) : List α := xs.filter fun a => ! superseded key old l a

structure HasVersions (l : List α) : Prop where
  nodup : l.Nodup
  unique : ∀ a ∈ l, ∀ b ∈ l, key a = key b → old a = old b → a = b

variable {key old} {l : List α} {a f : α} {k : κ}

theorem pick_mem (h : pick old l = some a) : a ∈ l := by
  rcases Option.or_eq_some_iff.1 h with h | ⟨-, h⟩
  · exact List.mem_of_find?_eq_some h
  · exact List.mem_of_getLast? h

theorem pick_eq_none : pick old l = none ↔ l = [] := by
  simp only [pick, Option.or_eq_none_iff, List.getLast?_eq_none_iff]
  constructor
  · rintro ⟨-, h⟩
    exact h
  · rintro rfl
    exact ⟨rfl, rfl⟩

/-- A new entry is picked before an old one. -/
theorem pick_of_new {b : α} (hb : b ∈ l) (hn : old b = false) :
    ∃ c ∈ l, old c = false ∧ pick old l = some c := by
  rcases h : l.find? fun a => ! old a with _ | c
  · have := List.find?_eq_none.1 h b hb
    simp [hn] at this
  · have hc : old c = false := by simpa using List.find?_some h
    exact ⟨c, List.mem_of_find?_eq_some h, hc, by simp [pick, h]⟩

theorem superseded_iff : superseded key old l a = true ↔
    old a = true ∧ ∃ b ∈ l, old b = false ∧ key b = key a := by
  simp [superseded]

theorem HasVersions.lookup_current (h : HasVersions key old l) (ha : a ∈ l)
    (hs : superseded key old l a = false) : lookup key old (key a) l = some a := by
  have hmem : a ∈ l.filter fun b => key b = key a := by simp [ha]
  rcases ho : old a with _ | _
  · obtain ⟨c, hc, hnew, hp⟩ := pick_of_new hmem ho
    have hc : c ∈ l ∧ key c = key a := by simpa using hc
    rw [lookup, hp, h.unique c hc.1 a ha hc.2 (hnew.trans ho.symm)]
  · rcases hp : lookup key old (key a) l with _ | c
    · rw [pick_eq_none.1 hp] at hmem
      simp at hmem
    · have hc : c ∈ l ∧ key c = key a := by simpa using pick_mem hp
      have hold : old c = true := by
        by_contra hnew
        have : superseded key old l a = true :=
          superseded_iff.2 ⟨ho, c, hc.1, by simpa using hnew, hc.2⟩
        simp [hs] at this
      rw [h.unique c hc.1 a ha hc.2 (hold.trans ho.symm)]

/-- A superseded entry is not the one that its key leads to. -/
theorem lookup_superseded (hs : superseded key old l a = true) :
    ∃ b, lookup key old (key a) l = some b ∧ b ∈ l ∧ b ≠ a := by
  obtain ⟨ho, b, hb, hnew, hkey⟩ := superseded_iff.1 hs
  have hmem : b ∈ l.filter fun x => key x = key a := by simp [hb, hkey]
  obtain ⟨c, hc, hcn, hp⟩ := pick_of_new hmem hnew
  refine ⟨c, hp, (List.mem_filter.1 hc).1, ?_⟩
  rintro rfl
  simp [ho] at hcn

theorem HasVersions.nodup_keys (h : HasVersions key old l) :
    ((current key old l l).map key).Nodup := by
  refine List.Nodup.map_on (fun x hx y hy hxy => ?_) (h.nodup.filter _)
  obtain ⟨hx, hxs⟩ := List.mem_filter.1 hx
  obtain ⟨hy, hys⟩ := List.mem_filter.1 hy
  have hcount {x y : α} (hy : y ∈ l) (hxs : (! superseded key old l x) = true)
      (hkey : key y = key x) (ho : old x = true) : old y = true := by
    by_contra hnew
    have : superseded key old l x = true :=
      superseded_iff.2 ⟨ho, y, hy, by simpa using hnew, hkey⟩
    simp [this] at hxs
  refine h.unique x hx y hy hxy ?_
  rcases ho : old x with _ | _
  · by_contra hne
    have := hcount hx hys hxy (by simpa using Ne.symm hne)
    simp [ho] at this
  · rw [hcount hy hxs hxy.symm ho]

/-- Every key of the list has an entry that counts. -/
theorem mem_current_keys : k ∈ (current key old l l).map key ↔ k ∈ l.map key := by
  simp only [current, List.mem_map, List.mem_filter]
  constructor
  · rintro ⟨a, ⟨ha, -⟩, rfl⟩
    exact ⟨a, ha, rfl⟩
  · rintro ⟨a, ha, rfl⟩
    rcases hs : superseded key old l a with _ | _
    · exact ⟨a, ⟨ha, by simp [hs]⟩, rfl⟩
    · obtain ⟨-, b, hb, hnew, hkey⟩ := superseded_iff.1 hs
      exact ⟨b, ⟨hb, by simp [superseded, hnew]⟩, hkey⟩

/-- Before the entry picked there are only old ones, and if it is old itself, it is the last one
of a list of old ones. -/
theorem pick_split (hn : l.Nodup) (h : pick old l = some f) {pre post : List α}
    (hl : l = pre ++ f :: post) :
    (∀ a ∈ pre, old a = true) ∧ (old f = true → post = [] ∧ ∀ a ∈ l, old a = true) := by
  have huniq {as bs : List α} (h' : l = as ++ f :: bs) : pre = as ∧ post = bs := by
    have h1 : f ∉ pre := by
      rw [hl] at hn
      exact fun hm => (List.disjoint_of_nodup_append hn) hm List.mem_cons_self
    have h2 : f ∉ post := by
      rw [hl] at hn
      exact (List.nodup_cons.1 hn.of_append_right).1
    have := (List.append_cons_inj_of_notMem h1 h2).1 (hl.symm.trans h')
    exact ⟨this.1, this.2.2⟩
  rcases Option.or_eq_some_iff.1 h with h | ⟨hnone, h⟩
  · obtain ⟨hf, as, bs, hl', has⟩ := List.find?_eq_some_iff_append.1 h
    obtain ⟨rfl, rfl⟩ := huniq hl'
    refine ⟨fun a ha => by simpa using has a ha, fun ho => ?_⟩
    simp [ho] at hf
  · have hall : ∀ a ∈ l, old a = true := fun a ha => by simpa using List.find?_eq_none.1 hnone a ha
    obtain ⟨as, hl'⟩ := List.getLast?_eq_some_iff.1 h
    obtain ⟨rfl, rfl⟩ := huniq hl'
    exact ⟨fun a ha => hall a (by simp [hl, ha]), fun _ => ⟨rfl, hall⟩⟩

theorem pick_not_superseded (hn : l.Nodup) (h : pick old l = some f) :
    superseded key old l f = false := by
  obtain ⟨pre, post, hl⟩ := List.append_of_mem (pick_mem h)
  by_contra hs
  obtain ⟨ho, b, hb, hnew, -⟩ := superseded_iff.1 (Bool.of_not_eq_false hs)
  have := ((pick_split hn h hl).2 ho).2 b hb
  simp [hnew] at this

variable (key old)

/-- An old entry that counts comes behind a new one, or is the whole list. -/
def OldBehindNew (l : List α) : Prop :=
  ∀ pre a post, l = pre ++ a :: post → old a = true → superseded key old l a = false →
    (∃ b ∈ pre, old b = false) ∨ (pre = [] ∧ post = [])

variable {key old}

/-- Nothing that counts comes before the entry picked just when no old entry is out of place. -/
theorem current_before_pick (hn : l.Nodup) (h : pick old l = some f) {pre post : List α}
    (hl : l = pre ++ f :: post) : current key old l pre = [] ↔ OldBehindNew key old l := by
  obtain ⟨hpre, hlast⟩ := pick_split hn h hl
  constructor
  · intro hc p a q hl' ho hs
    have hnot : a ∉ pre := fun ha => by
      have : a ∈ current key old l pre := by simp [current, ha, hs]
      simp [hc] at this
    rcases hof : old f with _ | _
    · have hne : a ≠ f := by
        rintro rfl
        simp [ho] at hof
      rcases List.append_eq_append_iff.1 (hl'.symm.trans hl) with ⟨c, hpc, hc'⟩ | ⟨c, hpc, hc'⟩
      · rcases c with _ | ⟨x, c⟩
        · exact absurd (List.cons.inj hc').1 hne
        · obtain rfl := (List.cons.inj hc').1
          exact absurd (by simp [hpc]) hnot
      · rcases c with _ | ⟨x, c⟩
        · exact absurd (List.cons.inj hc').1.symm hne
        · obtain rfl := (List.cons.inj hc').1
          exact .inl ⟨f, by simp [hpc], hof⟩
    · obtain ⟨rfl, hall⟩ := hlast hof
      have hnone : ∀ x ∈ pre, superseded key old l x = false := fun x _ => by
        by_contra hx
        obtain ⟨-, b, hb, hnew, -⟩ := superseded_iff.1 (Bool.of_not_eq_false hx)
        simp [hall b hb] at hnew
      obtain rfl : pre = [] := by
        refine List.eq_nil_iff_forall_not_mem.2 fun x hx => ?_
        have : x ∈ current key old l pre := by simp [current, hx, hnone x hx]
        simp [hc] at this
      rw [List.nil_append] at hl
      rcases p with _ | ⟨x, p⟩
      · exact .inr ⟨rfl, (List.cons.inj (hl'.symm.trans hl)).2⟩
      · have := (List.cons.inj (hl'.symm.trans hl)).2
        simp at this
  · intro hb
    refine List.eq_nil_iff_forall_not_mem.2 fun a ha => ?_
    obtain ⟨ha, hs⟩ := List.mem_filter.1 ha
    obtain ⟨p, q, rfl⟩ := List.append_of_mem ha
    rcases hb p a (q ++ f :: post) (by simp [hl]) (hpre a ha) (by simpa using hs) with
      ⟨b, hb, hnew⟩ | ⟨-, hq⟩
    · have := hpre b (by simp [hb])
      simp [hnew] at this
    · simp at hq

end Versions
