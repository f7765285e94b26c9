import Edk2Rk3576.Lib.Windows
import Edk2Rk3576.MemoryMap.Model

/-!
# What the published map says of the memory

The loop of `MemoryPeim` gets to the entries before the first of length 0. Of the memory from the
first address the firmware may use to the last, the table has three pieces: below the firmware
volume, the volume, above it. They tile the memory, and the loop gets to all that are not empty
exactly if no empty one comes before them: the volume must not be at the start of the memory, and
must not be empty unless it is at its end.
-/

namespace Edk2Rk3576

open Window

def MemoryRegion.window (r : MemoryRegion) : Window := ⟨r.physicalBase.toNat, r.length.toNat⟩

/-- The entries the loop gets to. -/
def published (table : List MemoryRegion) : List MemoryRegion :=
  table.takeWhile fun r => r.length ≠ 0

def Hob.resourceWindow : Hob → Option Window
  | .resource base length => some ⟨base.toNat, length.toNat⟩
  | .allocation _ _ _ => none

def Hob.reservedWindow : Hob → Option Window
  | .allocation base length type =>
    if type = .reserved then some ⟨base.toNat, length.toNat⟩ else none
  | .resource _ _ => none

def systemMemory (hobs : List Hob) : List Window := hobs.filterMap Hob.resourceWindow

def reservedMemory (hobs : List Hob) : List Window := hobs.filterMap Hob.reservedWindow

/-- An allocator may hand out the byte. -/
def Usable (hobs : List Hob) (a : ℕ) : Prop :=
  (∃ w ∈ systemMemory hobs, a ∈ w.range) ∧ ∀ w ∈ reservedMemory hobs, a ∉ w.range

def dramTop (mSystemMemorySize : UInt64) : ℕ := 0x40000000 + mSystemMemorySize.toNat - 0x10000000

/-- The ranges of the secure firmware. -/
def secureWindows (mSystemMemorySize : UInt64) : List Window :=
  [⟨0, 0x200000⟩, ⟨0x40000000, 0x200000⟩, ⟨dramTop mSystemMemorySize, 0x10000000⟩]

/-- What the map must say of a board with so much memory. -/
structure MemoryMapSound (pcds : MemoryPcds) (mSystemMemorySize : UInt64)
    (table : List MemoryRegion) : Prop where
  apart : (published table).Pairwise fun r r' => r.window.Apart r'.window
  noWrap : ∀ r ∈ published table, r.physicalBase.toNat + r.length.toNat ≤ 2 ^ 64
  covered : ∀ a, 0x40200000 ≤ a → a < dramTop mSystemMemorySize →
    (systemMemory (memoryPeim table)).countP (fun w => a ∈ w.range) = 1
  fvReserved : ∀ a, pcds.fvBaseAddress.toNat ≤ a →
    a < pcds.fvBaseAddress.toNat + pcds.fvSize.toNat →
    ∃ w ∈ reservedMemory (memoryPeim table), a ∈ w.range
  secure : ∀ w ∈ secureWindows mSystemMemorySize, ∀ a ∈ w.range, ¬ Usable (memoryPeim table) a
  complete : ∀ r ∈ table, r.length ≠ 0 → r ∈ published table

section Loop

theorem memoryPeim_eq : ∀ table : List MemoryRegion,
    memoryPeim table = (published table).flatMap addRegion
  | [] => rfl
  | r :: rest => by
    by_cases h : r.length = 0
    · simp [memoryPeim, published, h]
    · simp [memoryPeim, published, h, memoryPeim_eq rest]

theorem systemMemory_flatMap : ∀ rs : List MemoryRegion,
    systemMemory (rs.flatMap addRegion)
      = (rs.filter fun r => r.type ≠ .unmapped).map MemoryRegion.window
  | [] => rfl
  | r :: rs => by
    have ih := systemMemory_flatMap rs
    unfold systemMemory at ih ⊢
    rw [List.flatMap_cons, List.filterMap_append, ih]
    rcases htype : r.type <;> simp [addRegion, htype, Hob.resourceWindow, MemoryRegion.window]

theorem reservedMemory_flatMap : ∀ rs : List MemoryRegion,
    reservedMemory (rs.flatMap addRegion)
      = (rs.filter fun r => r.type = .reserved).map MemoryRegion.window
  | [] => rfl
  | r :: rs => by
    have ih := reservedMemory_flatMap rs
    unfold reservedMemory at ih ⊢
    rw [List.flatMap_cons, List.filterMap_append, ih]
    rcases htype : r.type <;>
      simp [addRegion, htype, Hob.reservedWindow, MemoryRegion.window, List.filterMap_cons]

end Loop

section Board

variable {fvBase mSystemMemorySize : UInt64} {fvSize : UInt32} {table : List MemoryRegion} {a : ℕ}

/-- The entries before those of the memory. -/
def fixedRegions : List MemoryRegion :=
  [memoryRegion 0 0x200000 .uncachedUnbuffered .unmapped,
    memoryRegion 0x4010f000 0x1000 .uncachedUnbuffered .reserved,
    memoryRegion 0x20000000 0x10000000 .device .unmapped]

/-- The entries of the memory. -/
def dramRegions (fvBase fvSize top : UInt64) : List MemoryRegion :=
  [memoryRegion rk3576DramSafeBase (fvBase - rk3576DramSafeBase) .writeBack .basic,
    memoryRegion fvBase fvSize .writeBack .reserved,
    memoryRegion (fvBase + fvSize) (top - (fvBase + fvSize)) .writeBack .basic]

/-- What the assertions say, of the numbers themselves but for the end of the volume. -/
structure MapAsserted (fvBase mSystemMemorySize : UInt64) (fvSize : UInt32) (top : UInt64) :
    Prop where
  top_eq : top.toNat = dramTop mSystemMemorySize
  safe_lt : 0x40200000 < top.toNat
  base_ge : 0x40200000 ≤ fvBase.toNat
  end_le : (fvBase.toNat + fvSize.toNat) % 2 ^ 64 ≤ top.toNat

/-- No size for which the first assertion holds makes the sum wrap. -/
theorem toNat_dramTop
    (h : rk3576DramSafeBase < rk3576DramBase + mSystemMemorySize - rk3576SecureTopReserve) :
    (rk3576DramBase + mSystemMemorySize - rk3576SecureTopReserve).toNat
      = dramTop mSystemMemorySize := by
  have hwrapped : (rk3576DramBase + mSystemMemorySize - rk3576SecureTopReserve).toNat
      = (0x30000000 + mSystemMemorySize.toNat) % 2 ^ 64 := by
    simp [rk3576DramBase, rk3576SecureTopReserve, UInt64.toNat_sub, UInt64.toNat_add]
    omega
  have hsize := mSystemMemorySize.toNat_lt
  rw [UInt64.lt_iff_toNat_lt, hwrapped] at h
  have hsafe : 0x40200000 < (0x30000000 + mSystemMemorySize.toNat) % 2 ^ 64 := h
  rw [hwrapped]
  unfold dramTop
  omega

theorem boardMap_eq
    (h : armPlatformGetVirtualMemoryMap (boardPcds fvBase fvSize) mSystemMemorySize = some table) :
    ∃ top, MapAsserted fvBase mSystemMemorySize fvSize top
      ∧ table = fixedRegions ++ dramRegions fvBase fvSize.toUInt64 top := by
  have hlayout : (0x08400000 : UInt64) < (boardPcds fvBase fvSize).variablesBase
      + (boardPcds fvBase fvSize).variablesSize := by
    show (0x08400000 : UInt64)
      < (0x40600000 + 0x00FC0000) + (0x00010000 + 0x00010000 + 0x00010000 : UInt32).toUInt64
    decide
  have hmailBox : (boardPcds fvBase fvSize).rkMtlMailBoxBase &&& ~~~efiPageMask = 0x4010f000 := by
    show (0x4010f000 : UInt64) &&& ~~~efiPageMask = 0x4010f000
    decide
  unfold armPlatformGetVirtualMemoryMap at h
  simp only [if_pos hlayout] at h
  split_ifs at h with hassert
  obtain ⟨hsafe, hbase, hend⟩ := hassert
  change rk3576DramSafeBase ≤ fvBase at hbase
  change fvBase + fvSize.toUInt64 ≤ _ at hend
  rw [Option.some.injEq, hmailBox] at h
  refine ⟨rk3576DramBase + mSystemMemorySize - rk3576SecureTopReserve, ?_, h.symm⟩
  rw [UInt64.le_iff_toNat_le] at hbase
  rw [UInt64.le_iff_toNat_le, UInt64.toNat_add, UInt32.toNat_toUInt64] at hend
  have htop := toNat_dramTop hsafe
  rw [UInt64.lt_iff_toNat_lt] at hsafe
  exact { top_eq := htop, safe_lt := hsafe, base_ge := hbase, end_le := hend }

theorem ne_zero_of_toNat_pos {x : UInt64} (h : 0 < x.toNat) : x ≠ 0 := by
  rintro rfl
  simp at h

/-- What is below the volume. -/
theorem MapAsserted.toNat_below {top : UInt64}
    (ha : MapAsserted fvBase mSystemMemorySize fvSize top) :
    (fvBase - rk3576DramSafeBase).toNat = fvBase.toNat - 0x40200000 :=
  UInt64.toNat_sub_of_le _ _ (UInt64.le_iff_toNat_le.2 ha.base_ge)

/-- No empty entry comes before one that is not. -/
def EmptyLast (rs : List MemoryRegion) : Prop :=
  rs.Pairwise fun r r' => r.length = 0 → r'.length = 0

theorem EmptyLast.mem_published : ∀ {rs : List MemoryRegion}, EmptyLast rs → ∀ r ∈ rs,
    r.length ≠ 0 → r ∈ published rs
  | r :: rs, h, r', hr, hne => by
    obtain ⟨hfirst, hrest⟩ := List.pairwise_cons.1 h
    rcases List.mem_cons.1 hr with rfl | hr
    · simp [published, hne]
    · have hlength : r.length ≠ 0 := fun hzero => hne (hfirst r' hr hzero)
      have ih := EmptyLast.mem_published hrest r' hr hne
      unfold published at ih ⊢
      rw [List.takeWhile_cons_of_pos (by simp [hlength])]
      exact List.mem_cons_of_mem r ih

theorem published_fixed (rs : List MemoryRegion) :
    published (fixedRegions ++ rs) = fixedRegions ++ published rs :=
  List.takeWhile_append_of_pos (by decide)

theorem map_published (rs : List MemoryRegion) :
    (published rs).map MemoryRegion.window
      = (rs.map MemoryRegion.window).takeWhile fun w => w.size ≠ 0 := by
  have hsize : (fun w : Window => decide (w.size ≠ 0)) ∘ MemoryRegion.window
      = fun r => decide (r.length ≠ 0) := by
    funext r
    have hiff : r.window.size ≠ 0 ↔ r.length ≠ 0 := not_congr (@UInt64.toNat_inj r.length 0)
    exact decide_eq_decide.2 hiff
  rw [List.takeWhile_map, hsize]
  rfl

def mailBoxWindow : Window := ⟨0x4010f000, 0x1000⟩

theorem notMem_mailBoxWindow (h : 0x40200000 ≤ a) : a ∉ mailBoxWindow.range := by
  rw [mem_range]
  simp only [mailBoxWindow]
  omega

theorem systemMemory_board {rs : List MemoryRegion} (h : ∀ r ∈ rs, r.type ≠ .unmapped) :
    systemMemory (memoryPeim (fixedRegions ++ rs))
      = mailBoxWindow :: (rs.map MemoryRegion.window).takeWhile fun w => w.size ≠ 0 := by
  have hall : (published rs).filter (fun r => r.type ≠ .unmapped) = published rs :=
    List.filter_eq_self.2 fun r hr => by simpa using h r ((List.takeWhile_sublist _).subset hr)
  rw [memoryPeim_eq, published_fixed, systemMemory_flatMap, List.filter_append, hall,
    List.map_append, map_published]
  rfl

theorem mem_reservedMemory {rs : List MemoryRegion} {w : Window} :
    w ∈ reservedMemory (memoryPeim (fixedRegions ++ rs))
      ↔ w = mailBoxWindow ∨ ∃ r ∈ published rs, r.type = .reserved ∧ r.window = w := by
  rw [memoryPeim_eq, published_fixed, reservedMemory_flatMap, List.filter_append, List.map_append,
    List.mem_append]
  refine or_congr ?_ ?_
  · show w ∈ [mailBoxWindow] ↔ _
    exact List.mem_singleton
  · simp [and_assoc]

/-- The pieces of the memory, when the end of the volume does not wrap. -/
theorem tile_dramRegions {top : UInt64} (ha : MapAsserted fvBase mSystemMemorySize fvSize top)
    (hwrap : fvBase.toNat + fvSize.toNat < 2 ^ 64) :
    Tile 0x40200000 ((dramRegions fvBase fvSize.toUInt64 top).map MemoryRegion.window)
      (dramTop mSystemMemorySize) := by
  have hend : (fvBase + fvSize.toUInt64).toNat = fvBase.toNat + fvSize.toNat := by
    rw [UInt64.toNat_add, UInt32.toNat_toUInt64, Nat.mod_eq_of_lt hwrap]
  have hle : fvBase.toNat + fvSize.toNat ≤ top.toNat := by
    have := ha.end_le
    rwa [Nat.mod_eq_of_lt hwrap] at this
  have hbelow := ha.toNat_below
  have habove : (top - (fvBase + fvSize.toUInt64)).toNat
      = top.toNat - (fvBase.toNat + fvSize.toNat) := by
    rw [UInt64.toNat_sub_of_le _ _ (by rw [UInt64.le_iff_toNat_le, hend]; exact hle), hend]
  have hbase := ha.base_ge
  have htop := ha.top_eq
  simp only [dramRegions, memoryRegion, MemoryRegion.window, List.map_cons, List.map_nil, Tile,
    hbelow, hend, habove, UInt32.toNat_toUInt64]
  refine ⟨rfl, ?_, ?_, ?_⟩ <;> omega

/-- The volume is apart from the start of the memory, and is not empty but at its end. -/
structure FvInside (fvBase mSystemMemorySize : UInt64) (fvSize : UInt32) : Prop where
  above_start : 0x40200000 < fvBase.toNat
  noWrap : fvBase.toNat + fvSize.toNat < 2 ^ 64
  empty_at_end : fvSize = 0 → fvBase.toNat = dramTop mSystemMemorySize

theorem emptyLast_dramRegions {top : UInt64} (ha : MapAsserted fvBase mSystemMemorySize fvSize top)
    (hin : FvInside fvBase mSystemMemorySize fvSize) :
    EmptyLast (fixedRegions ++ dramRegions fvBase fvSize.toUInt64 top) := by
  have hbelow : fvBase - rk3576DramSafeBase ≠ 0 := by
    have hstart := hin.above_start
    refine ne_zero_of_toNat_pos ?_
    rw [ha.toNat_below]
    omega
  have hempty : fvSize.toUInt64 = 0 → top - (fvBase + fvSize.toUInt64) = 0 := by
    intro hzero
    have hsize : fvSize = 0 := by simpa [← UInt32.toNat_inj, ← UInt64.toNat_inj] using hzero
    have htop : top = fvBase := by
      rw [← UInt64.toNat_inj, ha.top_eq, hin.empty_at_end hsize]
    rw [hzero, htop, UInt64.add_zero, UInt64.sub_self]
  simp [EmptyLast, fixedRegions, dramRegions, memoryRegion, hbelow]
  exact hempty

theorem pairwise_fixedRegions :
    fixedRegions.Pairwise fun r r' => r.window.Apart r'.window := by
  simp only [fixedRegions, List.pairwise_cons, List.mem_cons, List.not_mem_nil, or_false,
    forall_eq_or_imp, forall_eq, false_implies, implies_true, List.Pairwise.nil, and_true]
  exact ⟨⟨apart_of_le (by decide), apart_of_le (by decide)⟩, (apart_of_le (by decide)).symm⟩

theorem memoryMapSound_of_fvInside {top : UInt64}
    (ha : MapAsserted fvBase mSystemMemorySize fvSize top)
    (hin : FvInside fvBase mSystemMemorySize fvSize) :
    MemoryMapSound (boardPcds fvBase fvSize) mSystemMemorySize
      (fixedRegions ++ dramRegions fvBase fvSize.toUInt64 top) := by
  have hempty := emptyLast_dramRegions ha hin
  have hzero : ((dramRegions fvBase fvSize.toUInt64 top).map MemoryRegion.window).Pairwise
      fun w w' => w.size = 0 → w'.size = 0 := by
    rw [List.pairwise_map]
    refine (List.pairwise_append.1 hempty).2.1.imp fun h hw => ?_
    have hlength := h (UInt64.toNat_inj.1 hw)
    exact UInt64.toNat_inj.2 hlength
  have htile := (tile_dramRegions ha hin.noWrap).takeWhile hzero
  have hsystem : systemMemory (memoryPeim (fixedRegions ++ dramRegions fvBase fvSize.toUInt64 top))
      = mailBoxWindow :: ((dramRegions fvBase fvSize.toUInt64 top).map
          MemoryRegion.window).takeWhile fun w => w.size ≠ 0 :=
    systemMemory_board (by simp [dramRegions, memoryRegion])
  have htop := ha.top_eq
  have hlt := top.toNat_lt
  rw [← map_published] at htile hsystem
  refine
    { apart := ?_
      noWrap := ?_
      covered := fun a hlo hhi => ?_
      fvReserved := fun a hlo hhi => ?_
      secure := ?_
      complete := hempty.mem_published }
  · rw [published_fixed, List.pairwise_append]
    refine ⟨pairwise_fixedRegions, List.pairwise_map.1 htile.pairwise, fun r hr r' hr' => ?_⟩
    have hbase := htile.base_ge _ (List.mem_map_of_mem hr')
    refine apart_of_le (le_trans ?_ hbase)
    revert hr
    revert r
    decide
  · intro r hr
    rw [published_fixed, List.mem_append] at hr
    rcases hr with hr | hr
    · revert hr
      revert r
      decide
    · have hlast := htile.last_le _ (List.mem_map_of_mem hr)
      simp only [MemoryRegion.window] at hlast
      omega
  · rw [hsystem, List.countP_cons_of_neg (by simpa using notMem_mailBoxWindow hlo)]
    exact htile.countP_eq_one hlo hhi
  · have hmem : memoryRegion fvBase fvSize.toUInt64 .writeBack .reserved
        ∈ dramRegions fvBase fvSize.toUInt64 top := by simp [dramRegions]
    have hne : fvSize.toUInt64 ≠ 0 := by
      change fvBase.toNat ≤ a at hlo
      change a < fvBase.toNat + fvSize.toNat at hhi
      refine ne_zero_of_toNat_pos ?_
      rw [UInt32.toNat_toUInt64]
      omega
    have hpublished := EmptyLast.mem_published (List.pairwise_append.1 hempty).2.1 _ hmem hne
    refine ⟨_, mem_reservedMemory.2 (Or.inr ⟨_, hpublished, rfl, rfl⟩), ?_⟩
    rw [mem_range]
    simp only [memoryRegion, MemoryRegion.window, UInt32.toNat_toUInt64]
    exact ⟨hlo, hhi⟩
  · rintro w hw a hmem ⟨⟨w', hsys, hmem'⟩, hnot⟩
    rw [hsystem] at hsys
    rcases List.mem_cons.1 hsys with rfl | hpiece
    · exact hnot _ (mem_reservedMemory.2 (Or.inl rfl)) hmem'
    · have hbase := htile.base_ge w' hpiece
      have hlast := htile.last_le w' hpiece
      rw [mem_range] at hmem hmem'
      simp only [secureWindows, List.mem_cons, List.not_mem_nil, or_false] at hw
      rcases hw with rfl | rfl | rfl <;> simp only at hmem <;> omega

theorem published_below_empty {top : UInt64} (h : fvBase = rk3576DramSafeBase) :
    published (dramRegions fvBase fvSize.toUInt64 top) = [] := by
  rw [h]
  rfl

theorem exists_published {top : UInt64} {a : ℕ}
    (hsound : MemoryMapSound (boardPcds fvBase fvSize) mSystemMemorySize
      (fixedRegions ++ dramRegions fvBase fvSize.toUInt64 top))
    (hlo : 0x40200000 ≤ a) (hhi : a < dramTop mSystemMemorySize) :
    ∃ r ∈ published (dramRegions fvBase fvSize.toUInt64 top), a ∈ r.window.range := by
  have hcount := hsound.covered a hlo hhi
  rw [systemMemory_board (by simp [dramRegions, memoryRegion]), ← map_published,
    List.countP_cons_of_neg (by simpa using notMem_mailBoxWindow hlo)] at hcount
  obtain ⟨w, hw, hmem⟩ := List.countP_pos_iff.1 (hcount ▸ Nat.zero_lt_one)
  obtain ⟨r, hr, rfl⟩ := List.mem_map.1 hw
  exact ⟨r, hr, by simpa using hmem⟩

/-- An empty volume ends the loop: what is above it is not published. -/
theorem eq_below_of_published {top : UInt64} {r : MemoryRegion}
    (hr : r ∈ published (dramRegions fvBase 0 top)) :
    r = memoryRegion rk3576DramSafeBase (fvBase - rk3576DramSafeBase) .writeBack .basic := by
  unfold published dramRegions at hr
  rw [List.takeWhile_cons] at hr
  split at hr
  · rw [List.takeWhile_cons_of_neg (by simp [memoryRegion])] at hr
    exact List.mem_singleton.1 hr
  · simp at hr

/-- A volume that goes up to the last address is followed by an entry of the whole memory. -/
theorem not_sound_of_wrap {top : UInt64} (ha : MapAsserted fvBase mSystemMemorySize fvSize top)
    (hstart : 0x40200000 < fvBase.toNat) (hwrap : 2 ^ 64 ≤ fvBase.toNat + fvSize.toNat) :
    ¬ MemoryMapSound (boardPcds fvBase fvSize) mSystemMemorySize
      (fixedRegions ++ dramRegions fvBase fvSize.toUInt64 top) := by
  intro hsound
  have hbase := fvBase.toNat_lt
  have hfv := hsound.complete (memoryRegion fvBase fvSize.toUInt64 .writeBack .reserved)
    (by simp [dramRegions]) (ne_zero_of_toNat_pos (by
      simp only [memoryRegion, UInt32.toNat_toUInt64]
      omega))
  have hlast := hsound.noWrap _ hfv
  simp only [memoryRegion, UInt32.toNat_toUInt64] at hlast
  have hend : fvBase + fvSize.toUInt64 = 0 := by
    rw [← UInt64.toNat_inj, UInt64.toNat_add, UInt32.toNat_toUInt64, UInt64.toNat_zero]
    omega
  have hbelow := ha.toNat_below
  have hsafe := ha.safe_lt
  have hmemBelow := hsound.complete
    (memoryRegion rk3576DramSafeBase (fvBase - rk3576DramSafeBase) .writeBack .basic)
    (by simp [dramRegions]) (ne_zero_of_toNat_pos (by
      simp only [memoryRegion, hbelow]
      omega))
  have hmemAbove := hsound.complete (memoryRegion 0 top .writeBack .basic)
    (by simp [dramRegions, hend]) (ne_zero_of_toNat_pos (by
      simp only [memoryRegion]
      omega))
  have hne : memoryRegion rk3576DramSafeBase (fvBase - rk3576DramSafeBase) .writeBack .basic
      ≠ memoryRegion 0 top .writeBack .basic := fun heq =>
    absurd (congrArg MemoryRegion.physicalBase heq) (show rk3576DramSafeBase ≠ 0 by decide)
  have : Std.Symm fun r r' : MemoryRegion => r.window.Apart r'.window := ⟨fun _ _ h => h.symm⟩
  have hapart := hsound.apart.forall hmemBelow hmemAbove hne
  refine hapart 0x40200000 ?_ ?_
  · rw [mem_range]
    simp only [memoryRegion, MemoryRegion.window, hbelow]
    refine ⟨le_refl _, ?_⟩
    show 0x40200000 < 0x40200000 + _
    omega
  · rw [mem_range]
    simp only [memoryRegion, MemoryRegion.window, UInt64.toNat_zero]
    omega

theorem fvInside_of_memoryMapSound {top : UInt64}
    (ha : MapAsserted fvBase mSystemMemorySize fvSize top)
    (hsound : MemoryMapSound (boardPcds fvBase fvSize) mSystemMemorySize
      (fixedRegions ++ dramRegions fvBase fvSize.toUInt64 top)) :
    FvInside fvBase mSystemMemorySize fvSize := by
  have htop := ha.top_eq
  have hsafe := ha.safe_lt
  have hstart : 0x40200000 < fvBase.toNat := by
    refine lt_of_le_of_ne ha.base_ge fun heq => ?_
    have hfirst : fvBase = rk3576DramSafeBase := UInt64.toNat_inj.1 heq.symm
    obtain ⟨r, hr, -⟩ := exists_published hsound (le_refl 0x40200000) (by omega)
    rw [published_below_empty hfirst] at hr
    simp at hr
  have hnoWrap : fvBase.toNat + fvSize.toNat < 2 ^ 64 := by
    by_contra hwrap
    exact not_sound_of_wrap ha hstart (not_lt.1 hwrap) hsound
  refine ⟨hstart, hnoWrap, fun hzero => ?_⟩
  by_contra hne
  have hend := ha.end_le
  subst hzero
  simp only [UInt32.toNat_zero] at hend
  obtain ⟨r, hr, hmem⟩ := exists_published hsound hstart.le (by omega)
  rw [eq_below_of_published hr, mem_range] at hmem
  simp only [memoryRegion, MemoryRegion.window, ha.toNat_below] at hmem
  change 0x40200000 ≤ _ ∧ fvBase.toNat < 0x40200000 + (fvBase.toNat - 0x40200000) at hmem
  omega

/-- Of a map that the assertions let through, all that it says is right exactly if the volume is
apart from the start of the memory and is not empty but at its end. -/
theorem memoryMapSound_iff
    (h : armPlatformGetVirtualMemoryMap (boardPcds fvBase fvSize) mSystemMemorySize = some table) :
    MemoryMapSound (boardPcds fvBase fvSize) mSystemMemorySize table
      ↔ FvInside fvBase mSystemMemorySize fvSize := by
  obtain ⟨top, ha, rfl⟩ := boardMap_eq h
  exact ⟨fvInside_of_memoryMapSound ha, memoryMapSound_of_fvInside ha⟩

/-- The board's own volume, with 4 GB of memory. -/
theorem memoryMapSound_iff_board :
    ∃ table, armPlatformGetVirtualMemoryMap (boardPcds 0x40800000 0xD00000) 0x100000000
        = some table
      ∧ MemoryMapSound (boardPcds 0x40800000 0xD00000) 0x100000000 table := by
  obtain ⟨table, h⟩ : ∃ table, armPlatformGetVirtualMemoryMap (boardPcds 0x40800000 0xD00000)
      0x100000000 = some table := Option.isSome_iff_exists.1 (by decide)
  exact ⟨table, h, (memoryMapSound_iff h).2 ⟨by decide, by decide, by decide⟩⟩

/-- A volume at the start of the memory. -/
theorem memoryMap_not_sound_at_start :
    ∃ table, armPlatformGetVirtualMemoryMap (boardPcds 0x40200000 0xD00000) 0x100000000
        = some table
      ∧ ¬ MemoryMapSound (boardPcds 0x40200000 0xD00000) 0x100000000 table := by
  refine ⟨_, rfl, fun hsound => ?_⟩
  have hcount := hsound.covered 0x40200000 (by decide) (by decide)
  revert hcount
  decide

end Board

end Edk2Rk3576
