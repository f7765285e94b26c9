import Edk2Rk3576.Lib.Windows
import Mathlib.Order.Bounds.Defs

/-!
# Pools of units

A region of memory is cut into units of `g` bytes, each free or taken. A chunk is a row of units
that are taken together, the lowest ones of those that are free in a row. A pool is a list of
regions, and its account says which chunks are in use.
-/

namespace UnitPool

section Search

variable {taken : ℕ → Bool} {n total left pos start s a : ℕ}

/-- The `n` units from `s` on are free. -/
def Free (taken : ℕ → Bool) (s n : ℕ) : Prop := ∀ u, s ≤ u → u < s + n → taken u = false

/-- The places of `n` free units in a row among the first `total`. -/
def places (taken : ℕ → Bool) (total n : ℕ) : Set ℕ := {s | s + n ≤ total ∧ Free taken s n}

/-- A search from unit `pos` on, where the units since `start` are free. -/
def search (taken : ℕ → Bool) (n : ℕ) : (left pos start : ℕ) → Option ℕ
  | 0, _, _ => none
  | left + 1, pos, start =>
    if taken pos then search taken n left (pos + 1) (pos + 1)
    else if n ≤ pos - start + 1 then some start
    else search taken n left (pos + 1) start

/-- What the search knows at `pos`: no place is below `start`, and there is none at `start` yet. -/
structure Searched (taken : ℕ → Bool) (n pos start : ℕ) : Prop where
  le : start ≤ pos
  short : pos < start + n
  free : ∀ u, start ≤ u → u < pos → taken u = false
  none : ∀ s < start, ¬ Free taken s n

theorem Searched.first (hn : 0 < n) : Searched taken n 0 0 :=
  ⟨le_rfl, by omega, fun _ _ hu => absurd hu (Nat.not_lt_zero _),
    fun _ hs => absurd hs (Nat.not_lt_zero _)⟩

theorem Searched.skip (hn : 0 < n) (h : Searched taken n pos start) (ht : taken pos = true) :
    Searched taken n (pos + 1) (pos + 1) := by
  refine ⟨le_rfl, by omega, fun _ hu hlt => absurd hlt (by omega), fun s hs hfree => ?_⟩
  rcases Nat.lt_or_ge s start with hlt | hge
  · exact h.none s hlt hfree
  · have hpos := hfree pos (by omega) (by have := h.short; omega)
    rw [ht] at hpos
    cases hpos

theorem Searched.extend (h : Searched taken n pos start) (ht : taken pos = false)
    (hshort : pos + 1 < start + n) : Searched taken n (pos + 1) start := by
  refine ⟨by have := h.le; omega, hshort, fun u hu hlt => ?_, h.none⟩
  rcases Nat.lt_succ_iff_lt_or_eq.1 hlt with hlt | rfl
  · exact h.free u hu hlt
  · exact ht

theorem Searched.search (hn : 0 < n) :
    ∀ {left pos start : ℕ}, Searched taken n pos start →
      (∀ s, search taken n left pos start = some s → IsLeast (places taken (pos + left) n) s) ∧
        (search taken n left pos start = Option.none → places taken (pos + left) n = ∅)
  | 0, pos, start, h => by
    refine ⟨nofun, fun _ => Set.eq_empty_iff_forall_notMem.2 fun s ⟨hle, hfree⟩ => ?_⟩
    rcases Nat.lt_or_ge s start with hlt | hge
    · exact h.none s hlt hfree
    · have := h.short
      omega
  | left + 1, pos, start, h => by
    rw [UnitPool.search, show pos + (left + 1) = pos + 1 + left by omega]
    split_ifs with ht hlong
    · exact (h.skip hn ht).search hn
    · refine ⟨?_, nofun⟩
      rintro s ⟨rfl⟩
      have hle := h.le
      have hshort := h.short
      refine ⟨⟨by omega, fun u hu hlt => ?_⟩, fun s ⟨_, hfree⟩ => ?_⟩
      · rcases Nat.lt_or_ge u pos with hup | hup
        · exact h.free u hu hup
        · obtain rfl : u = pos := by omega
          exact Bool.eq_false_iff.2 ht
      · by_contra hlt
        exact h.none s (by omega) hfree
    · have hle := h.le
      exact (h.extend (Bool.eq_false_iff.2 ht) (by omega)).search hn

/-- The search finds the lowest place, if there is one. -/
theorem search_eq_some (hn : 0 < n) (h : search taken n total 0 0 = some s) :
    IsLeast (places taken total n) s := by
  rw [← Nat.zero_add total]
  exact ((Searched.first hn).search hn).1 s h

theorem search_eq_none (hn : 0 < n) (h : search taken n total 0 0 = none) :
    places taken total n = ∅ := by
  rw [← Nat.zero_add total]
  exact ((Searched.first hn).search hn).2 h

end Search

structure Region where
  base : ℕ
  units : ℕ
  taken : ℕ → Bool

def take (taken : ℕ → Bool) (s n : ℕ) : ℕ → Bool := fun u => taken u || decide (s ≤ u ∧ u < s + n)

def release (taken : ℕ → Bool) (s n : ℕ) : ℕ → Bool :=
  fun u => taken u && !decide (s ≤ u ∧ u < s + n)

namespace Region

def window (g : ℕ) (r : Region) : Window := ⟨r.base, g * r.units⟩

/-- The `n` units from unit `s` on. -/
def chunk (g : ℕ) (r : Region) (s n : ℕ) : Window := ⟨r.base + g * s, g * n⟩

/-- The window is a chunk of the region. -/
def Holds (g : ℕ) (r : Region) (w : Window) : Prop :=
  ∃ s n, 0 < n ∧ s + n ≤ r.units ∧ w = r.chunk g s n

variable {g s n u a : ℕ} {r : Region} {w : Window}

theorem mem_window : a ∈ (r.window g).range ↔ r.base ≤ a ∧ a < r.base + g * r.units := Iff.rfl

theorem mem_chunk : a ∈ (r.chunk g s n).range ↔
    r.base + g * s ≤ a ∧ a < r.base + g * s + g * n := Iff.rfl

theorem unit_mem_chunk (hg : 0 < g) :
    r.base + g * u ∈ (r.chunk g s n).range ↔ s ≤ u ∧ u < s + n := by
  rw [mem_chunk, Nat.add_le_add_iff_left, Nat.add_assoc, Nat.add_lt_add_iff_left,
    ← Nat.mul_add, Nat.mul_le_mul_left_iff hg, Nat.mul_lt_mul_left hg]

theorem unit_mem_window (hg : 0 < g) (hu : u < r.units) : r.base + g * u ∈ (r.window g).range := by
  have hlt : g * u < g * r.units := (Nat.mul_lt_mul_left hg).2 hu
  rw [mem_window]
  omega

theorem Holds.subset (h : r.Holds g w) (ha : a ∈ w.range) : a ∈ (r.window g).range := by
  obtain ⟨s, n, -, hle, rfl⟩ := h
  have hmul : g * (s + n) ≤ g * r.units := Nat.mul_le_mul_left g hle
  rw [Nat.mul_add] at hmul
  rw [mem_chunk] at ha
  rw [mem_window]
  omega

/-- An address of a chunk lies in one of its units. -/
theorem Holds.unit (hg : 0 < g) (h : r.Holds g w) (ha : a ∈ w.range) :
    r.base + g * ((a - r.base) / g) ∈ w.range ∧ (a - r.base) / g < r.units ∧ r.base ≤ a := by
  have hwin := h.subset ha
  obtain ⟨s, n, -, -, rfl⟩ := h
  rw [mem_window] at hwin
  rw [mem_chunk] at ha
  refine ⟨(unit_mem_chunk hg).2 ⟨?_, ?_⟩, ?_, hwin.1⟩
  · rw [Nat.le_div_iff_mul_le hg, Nat.mul_comm]
    omega
  · rw [Nat.div_lt_iff_lt_mul hg, Nat.mul_comm, Nat.mul_add]
    omega
  · rw [Nat.div_lt_iff_lt_mul hg, Nat.mul_comm]
    omega

end Region

/-- Which chunks of the regions are in use. -/
structure Account (g : ℕ) (rs : List Region) (live : List Window) : Prop where
  regions : rs.Pairwise fun r r' => (r.window g).Apart (r'.window g)
  apart : live.Pairwise Window.Apart
  placed : ∀ w ∈ live, ∃ r ∈ rs, r.Holds g w
  taken_iff : ∀ r ∈ rs, ∀ u < r.units, r.taken u = true ↔ ∃ w ∈ live, r.base + g * u ∈ w.range

namespace Account

variable {g s n u a : ℕ} {r r' : Region} {rs rs' : List Region} {w : Window}
  {live live' : List Window}

theorem empty (h : ∀ u < r.units, r.taken u = false) : Account g [r] [] where
  regions := List.pairwise_singleton _ _
  apart := List.Pairwise.nil
  placed := nofun
  taken_iff := fun r' hr' u hu => by
    rw [List.mem_singleton] at hr'
    rw [hr'] at hu ⊢
    simp [h u hu]

theorem perm (h : Account g rs live) (hrs : rs.Perm rs') (hlive : live.Perm live') :
    Account g rs' live' where
  regions := (hrs.pairwise_iff fun h => Window.Apart.symm h).1 h.regions
  apart := (hlive.pairwise_iff fun h => Window.Apart.symm h).1 h.apart
  placed := fun w hw => by
    obtain ⟨r, hr, hold⟩ := h.placed w (hlive.mem_iff.2 hw)
    exact ⟨r, hrs.mem_iff.1 hr, hold⟩
  taken_iff := fun r hr u hu => by
    rw [h.taken_iff r (hrs.mem_iff.2 hr) u hu]
    simp only [hlive.mem_iff]

/-- An address is in one of the regions at most. -/
theorem region_unique (h : Account g rs live) (hr : r ∈ rs) (hr' : r' ∈ rs)
    (ha : a ∈ (r.window g).range) (ha' : a ∈ (r'.window g).range) : r = r' := by
  by_contra hne
  have : Std.Symm fun r r' : Region => (r.window g).Apart (r'.window g) :=
    ⟨fun _ _ h => Window.Apart.symm h⟩
  exact h.regions.forall hr hr' hne a ha ha'

/-- A chunk of free units is apart from those in use. -/
theorem apart_of_free (hg : 0 < g) (h : Account g rs live) (hr : r ∈ rs) (hle : s + n ≤ r.units)
    (hn : 0 < n) (hfree : Free r.taken s n) : ∀ w ∈ live, (r.chunk g s n).Apart w := by
  intro w hw a ha haw
  obtain ⟨r', hr', hold⟩ := h.placed w hw
  have hchunk : r.Holds g (r.chunk g s n) := ⟨s, n, hn, hle, rfl⟩
  obtain rfl := h.region_unique hr hr' (hchunk.subset ha) (hold.subset haw)
  obtain ⟨hin, hlt, -⟩ := hold.unit hg haw
  obtain ⟨hinChunk, -, -⟩ := hchunk.unit hg ha
  obtain ⟨hs, hsn⟩ := (Region.unit_mem_chunk hg).1 hinChunk
  have htaken := (h.taken_iff r hr _ hlt).2 ⟨w, hw, hin⟩
  rw [hfree _ hs hsn] at htaken
  cases htaken

/-- A unit of one region is in no chunk of another. -/
theorem notMem_of_ne (hg : 0 < g) (h : Account g (r :: rs) live) (hold : r.Holds g w)
    (hr' : r' ∈ rs) (hu : u < r'.units) : r'.base + g * u ∉ w.range := fun hin =>
  (List.pairwise_cons.1 h.regions).1 r' hr' _ (hold.subset hin) (Region.unit_mem_window hg hu)

/-- Free units are taken. -/
theorem take (hg : 0 < g) (h : Account g (r :: rs) live) (hle : s + n ≤ r.units) (hn : 0 < n)
    (hfree : Free r.taken s n) :
    Account g ({ r with taken := UnitPool.take r.taken s n } :: rs) (r.chunk g s n :: live) where
  regions := by
    have hregions := h.regions
    rw [List.pairwise_cons] at hregions ⊢
    exact hregions
  apart := List.Pairwise.cons (h.apart_of_free hg List.mem_cons_self hle hn hfree) h.apart
  placed := fun w hw => by
    rcases List.mem_cons.1 hw with rfl | hw
    · exact ⟨_, List.mem_cons_self, s, n, hn, hle, rfl⟩
    · obtain ⟨r', hr', hold⟩ := h.placed w hw
      rcases List.mem_cons.1 hr' with rfl | hr'
      · exact ⟨_, List.mem_cons_self, hold⟩
      · exact ⟨r', List.mem_cons_of_mem _ hr', hold⟩
  taken_iff := fun r' hr' u hu => by
    simp only [List.mem_cons, exists_eq_or_imp]
    rcases List.mem_cons.1 hr' with rfl | hmem
    · change (r.taken u || decide (s ≤ u ∧ u < s + n)) = true ↔ _
      rw [Bool.or_eq_true, decide_eq_true_eq, h.taken_iff r List.mem_cons_self u hu, or_comm]
      exact or_congr (Region.unit_mem_chunk hg).symm Iff.rfl
    · rw [h.taken_iff r' (List.mem_cons_of_mem _ hmem) u hu]
      exact (or_iff_right (h.notMem_of_ne hg ⟨s, n, hn, hle, rfl⟩ hmem hu)).symm

/-- The units of a chunk in use are taken. -/
theorem taken_of_mem (hg : 0 < g) (h : Account g (r :: rs) live) (hw : r.chunk g s n ∈ live)
    (hle : s + n ≤ r.units) (hs : s ≤ u) (hu : u < s + n) : r.taken u = true :=
  (h.taken_iff r List.mem_cons_self u (by omega)).2 ⟨_, hw, (Region.unit_mem_chunk hg).2 ⟨hs, hu⟩⟩

/-- The units of a chunk are free again. -/
theorem release (hg : 0 < g) (h : Account g (r :: rs) (r.chunk g s n :: live))
    (hle : s + n ≤ r.units) (hn : 0 < n) :
    Account g ({ r with taken := UnitPool.release r.taken s n } :: rs) live where
  regions := by
    have hregions := h.regions
    rw [List.pairwise_cons] at hregions ⊢
    exact hregions
  apart := (List.pairwise_cons.1 h.apart).2
  placed := fun w hw => by
    obtain ⟨r', hr', hold⟩ := h.placed w (List.mem_cons_of_mem _ hw)
    rcases List.mem_cons.1 hr' with rfl | hr'
    · exact ⟨_, List.mem_cons_self, hold⟩
    · exact ⟨r', List.mem_cons_of_mem _ hr', hold⟩
  taken_iff := fun r' hr' u hu => by
    have hold : r.Holds g (r.chunk g s n) := ⟨s, n, hn, hle, rfl⟩
    rcases List.mem_cons.1 hr' with rfl | hmem
    · have htaken := h.taken_iff r List.mem_cons_self u hu
      simp only [List.mem_cons, exists_eq_or_imp] at htaken
      change (r.taken u && !decide (s ≤ u ∧ u < s + n)) = true ↔ _
      rw [Bool.and_eq_true, htaken, Bool.not_eq_true', decide_eq_false_iff_not,
        Region.unit_mem_chunk hg]
      constructor
      · rintro ⟨hin | hlive, hout⟩
        · exact absurd hin hout
        · exact hlive
      · rintro ⟨w, hw, hin⟩
        refine ⟨.inr ⟨w, hw, hin⟩, fun hchunk => ?_⟩
        exact (List.pairwise_cons.1 h.apart).1 w hw _ ((Region.unit_mem_chunk hg).2 hchunk) hin
    · have htaken := h.taken_iff r' (List.mem_cons_of_mem _ hmem) u hu
      simp only [List.mem_cons, exists_eq_or_imp] at htaken
      rw [htaken]
      exact or_iff_right (h.notMem_of_ne hg hold hmem hu)

/-- One more region, which is free. -/
theorem add (hg : 0 < g) (h : Account g rs live)
    (hapart : ∀ r' ∈ rs, (r.window g).Apart (r'.window g))
    (hfree : ∀ u < r.units, r.taken u = false) : Account g (r :: rs) live where
  regions := List.Pairwise.cons hapart h.regions
  apart := h.apart
  placed := fun w hw => by
    obtain ⟨r', hr', hold⟩ := h.placed w hw
    exact ⟨r', List.mem_cons_of_mem _ hr', hold⟩
  taken_iff := fun r' hr' u hu => by
    rcases List.mem_cons.1 hr' with rfl | hmem
    · rw [hfree u hu]
      refine ⟨nofun, fun ⟨w, hw, hin⟩ => ?_⟩
      obtain ⟨r'', hr'', hold⟩ := h.placed w hw
      exact absurd (hold.subset hin) (hapart r'' hr'' _ (Region.unit_mem_window hg hu))
    · exact h.taken_iff r' hmem u hu

/-- A region with nothing in use is given up. -/
theorem drop (hg : 0 < g) (h : Account g (r :: rs) live) (hfree : ∀ u < r.units, r.taken u = false) :
    Account g rs live where
  regions := (List.pairwise_cons.1 h.regions).2
  apart := h.apart
  placed := fun w hw => by
    obtain ⟨r', hr', hold⟩ := h.placed w hw
    rcases List.mem_cons.1 hr' with rfl | hmem
    · obtain ⟨s, n, hn, hle, rfl⟩ := hold
      have htaken := h.taken_of_mem hg hw hle le_rfl (Nat.lt_add_of_pos_right hn)
      rw [hfree s (by omega)] at htaken
      cases htaken
    · exact ⟨r', hmem, hold⟩
  taken_iff := fun r' hr' u hu => h.taken_iff r' (List.mem_cons_of_mem _ hr') u hu

end Account

end UnitPool
