import Edk2Rk3576.Lib.LittleEndian
import Edk2Rk3576.Lib.Walks

/-!
# ATAGs

Earlier boot stages leave tags in a region of memory, one behind the other, each with its size in
words. `RkAtagsGetTagBuffer` walks over them to the first tag of a type. What it reads is logged.

The step to the next tag is four times the size; the check that the tag ends in the region takes it
in 32 bits.
-/

namespace Edk2Rk3576

def atagsSize : ℕ := 0x2000

def atagSizeBytes (size : UInt32) : UInt32 := size * 4

def atagIdHash : UInt32 := 0x47C6A7E6
def atagHashLength : UInt32 := 4

def rkAtagTypeCore : UInt32 := 0x54410001
def rkAtagTypeMax : UInt32 := 0x544100ff

/-- `sizeof (RKATAG_HEADER)`. -/
def rkAtagHeaderSize : ℕ := 8

/-- What a lookup returns, a pointer or null, and the bytes it reads: where they start, and how many
they are. -/
structure AtagsRun where
  result : Option ℕ
  reads : List (ℕ × ℕ)

section Model

variable (m : Cells UInt8)

def wordAt (a : ℕ) : UInt32 := UInt32.ofNat (m.le a 4)

/-- `TagHeader->Size`. -/
def tagSize (tagBuffer : ℕ) : UInt32 := wordAt m tagBuffer

/-- `TagHeader->Type`. -/
def tagType (tagBuffer : ℕ) : UInt32 := wordAt m (tagBuffer + 4)

def computeHash (buffer : ℕ) (length : UInt32) : UInt32 :=
  if buffer = 0 then atagIdHash
  else (List.range length.toNat).foldl
    (fun hash index => hash ^^^ ((hash <<< 5) + (m (buffer + index)).toUInt32 + (hash >>> 2)))
    atagIdHash

def tagHashOffset (tagBuffer : ℕ) : UInt32 := atagSizeBytes (tagSize m tagBuffer) - atagHashLength

/-- `*TagHash`. -/
def tagHash (tagBuffer : ℕ) : UInt32 := wordAt m (tagBuffer + (tagHashOffset m tagBuffer).toNat)

/-- Where a tag is of the type that is looked for. -/
def tagFound (tagBuffer : ℕ) : AtagsRun :=
  let reads := [(tagBuffer, 4), (tagBuffer + 4, 4),
    (tagBuffer + (tagHashOffset m tagBuffer).toNat, 4)]
  if tagHash m tagBuffer = 0 then ⟨some (tagBuffer + rkAtagHeaderSize), reads⟩
  else
    let reads := reads ++ [(tagBuffer, (tagHashOffset m tagBuffer).toNat)]
    if computeHash m tagBuffer (tagHashOffset m tagBuffer) ≠ tagHash m tagBuffer then ⟨none, reads⟩
    else ⟨some (tagBuffer + rkAtagHeaderSize), reads⟩

variable (atagsBase : ℕ) (debugPrint : Bool) (type : UInt32)

/-- The check at a tag. -/
def Overflown (tagBuffer : ℕ) : Prop :=
  atagsSize < (tagBuffer + (atagSizeBytes (tagSize m tagBuffer)).toNat - atagsBase) % 2 ^ 64

instance : DecidablePred (Overflown m atagsBase) := fun _ => by
  unfold Overflown
  infer_instance

/-- The loop of `RkAtagsGetTagBuffer`. A print reads the type of a tag that is overflown. -/
def tagLoop : (fuel tagBuffer : ℕ) → Option AtagsRun
  | 0, _ => none
  | fuel + 1, tagBuffer =>
    if tagSize m tagBuffer > 0 then
      if Overflown m atagsBase tagBuffer then
        some ⟨none, (tagBuffer, 4) :: if debugPrint then [(tagBuffer + 4, 4)] else []⟩
      else if tagType m tagBuffer = type then some (tagFound m tagBuffer)
      else
        (tagLoop fuel (tagBuffer + 4 * (tagSize m tagBuffer).toNat)).map fun run =>
          { run with reads := (tagBuffer, 4) :: (tagBuffer + 4, 4) :: run.reads }
    else some ⟨none, [(tagBuffer, 4)]⟩

/-- `RkAtagsGetTagBuffer`. -/
def rkAtagsGetTagBuffer (fuel : ℕ) : Option AtagsRun :=
  if atagsBase = 0 then some ⟨none, []⟩
  else if tagType m atagsBase ≠ rkAtagTypeCore then some ⟨none, [(atagsBase + 4, 4)]⟩
  else if type ≤ rkAtagTypeCore ∨ rkAtagTypeMax < type then some ⟨none, [(atagsBase + 4, 4)]⟩
  else (tagLoop m atagsBase debugPrint type fuel atagsBase).map fun run =>
    { run with reads := (atagsBase + 4, 4) :: run.reads }

end Model

section Walk

variable (m : Cells UInt8) (atagsBase : ℕ) (type : UInt32)

def nextTag (tagBuffer : ℕ) : ℕ := tagBuffer + 4 * (tagSize m tagBuffer).toNat

/-- The walk stops at the terminator, at a tag that is overflown, and at the tag looked for. -/
def TagStops (tagBuffer : ℕ) : Prop :=
  tagSize m tagBuffer = 0 ∨ Overflown m atagsBase tagBuffer ∨ tagType m tagBuffer = type

/-- From the start of the region the walk passes these tags, and stops at this one. -/
def TagWalk (path : List ℕ) (tagBuffer : ℕ) : Prop :=
  StepWalk (nextTag m) (TagStops m atagsBase type) atagsBase path tagBuffer

/-- A tag that has a header and ends in the region. -/
def TagWellFormed (tagBuffer : ℕ) : Prop :=
  rkAtagHeaderSize ≤ 4 * (tagSize m tagBuffer).toNat ∧ nextTag m tagBuffer ≤ atagsBase + atagsSize

/-- What is wanted of a lookup: it ends, it reads inside the region, and it returns a tag only if
the tag's payload is inside and all tags in front of it are well formed. -/
structure AtagsSafe (debugPrint : Bool) : Prop where
  safe : ∃ steps run,
    (∀ fuel ≥ steps, rkAtagsGetTagBuffer m atagsBase debugPrint type fuel = some run)
    ∧ (∀ r ∈ run.reads, atagsBase ≤ r.1 ∧ r.1 + r.2 ≤ atagsBase + atagsSize)
    ∧ ∀ p, run.result = some p → ∃ path tagBuffer, TagWalk m atagsBase type path tagBuffer
      ∧ p = tagBuffer + rkAtagHeaderSize ∧ tagType m tagBuffer = type
      ∧ nextTag m tagBuffer ≤ atagsBase + atagsSize ∧ ∀ q ∈ path, TagWellFormed m atagsBase q

/-- The hash at the end of a tag is missing or right. -/
def HashAccepted (tagBuffer : ℕ) : Prop :=
  tagHash m tagBuffer = 0
    ∨ computeHash m tagBuffer (tagHashOffset m tagBuffer) = tagHash m tagBuffer

/-- The walk comes to no tag outside the region. The size of the tag that is found, in bytes, is not
a multiple of 4 GB, and where its hash is accepted it is less, and no tag in front is of one word. -/
def TagsFit (debugPrint : Bool) : Prop :=
  atagsBase ≠ 0 → tagType m atagsBase = rkAtagTypeCore → rkAtagTypeCore < type →
    type ≤ rkAtagTypeMax → ∀ path tagBuffer, TagWalk m atagsBase type path tagBuffer →
    (tagBuffer + rkAtagHeaderSize ≤ atagsBase + atagsSize
      ∨ tagBuffer + 4 ≤ atagsBase + atagsSize
        ∧ (tagSize m tagBuffer = 0 ∨ debugPrint = false ∧ Overflown m atagsBase tagBuffer))
    ∧ (tagSize m tagBuffer ≠ 0 → ¬ Overflown m atagsBase tagBuffer →
      atagSizeBytes (tagSize m tagBuffer) ≠ 0
        ∧ (HashAccepted m tagBuffer → (tagSize m tagBuffer).toNat < 2 ^ 30
          ∧ ∀ q ∈ path, tagSize m q ≠ 1))

end Walk

section Loop

variable {m : Cells UInt8} {atagsBase tagBuffer p : ℕ} {type : UInt32} {debugPrint : Bool}
  {path : List ℕ}

/-- What the loop does where it stops. -/
def tagStop (m : Cells UInt8) (atagsBase : ℕ) (debugPrint : Bool) (tagBuffer : ℕ) : AtagsRun :=
  if tagSize m tagBuffer = 0 then ⟨none, [(tagBuffer, 4)]⟩
  else if Overflown m atagsBase tagBuffer then
    ⟨none, (tagBuffer, 4) :: if debugPrint then [(tagBuffer + 4, 4)] else []⟩
  else tagFound m tagBuffer

def headerReads (tagBuffer : ℕ) : List (ℕ × ℕ) := [(tagBuffer, 4), (tagBuffer + 4, 4)]

theorem tagLoop_of_walk : ∀ {path : List ℕ} {p fuel : ℕ},
    StepWalk (nextTag m) (TagStops m atagsBase type) p path tagBuffer → path.length < fuel →
    tagLoop m atagsBase debugPrint type fuel p
      = some ⟨(tagStop m atagsBase debugPrint tagBuffer).result,
          path.flatMap headerReads ++ (tagStop m atagsBase debugPrint tagBuffer).reads⟩
  | [], _, fuel + 1, ⟨rfl, hstop⟩, _ => by
    unfold tagLoop tagStop
    by_cases hsize : tagSize m tagBuffer = 0
    · rw [hsize, if_pos rfl, if_neg (by decide)]
      rfl
    rw [if_neg hsize, if_pos (UInt32.pos_iff_ne_zero.2 hsize)]
    by_cases hover : Overflown m atagsBase tagBuffer
    · rw [if_pos hover, if_pos hover]
      rfl
    · rw [if_neg hover, if_neg hover, if_pos ((hstop.resolve_left hsize).resolve_left hover)]
      rfl
  | _ :: path, p, fuel + 1, ⟨rfl, hgo, hw⟩, hlen => by
    have ih := tagLoop_of_walk hw (Nat.lt_of_succ_lt_succ hlen)
    simp only [TagStops, not_or] at hgo
    obtain ⟨hsize, hover, htype⟩ := hgo
    unfold nextTag at ih
    rw [tagLoop, if_pos (UInt32.pos_iff_ne_zero.2 hsize), if_neg hover, if_neg htype, ih]
    rfl

theorem atagSizeBytes_toNat (size : UInt32) :
    (atagSizeBytes size).toNat = 4 * size.toNat % 2 ^ 32 := by
  rw [atagSizeBytes, UInt32.toNat_mul, Nat.mul_comm]
  rfl

/-- Where a place may be: nowhere in front of the region, and a step behind it at most. -/
def TagPlace (atagsBase p : ℕ) : Prop := atagsBase ≤ p ∧ p < atagsBase + 2 ^ 35

theorem overflown_iff (h : TagPlace atagsBase p) : Overflown m atagsBase p ↔
    atagsBase + atagsSize < p + 4 * (tagSize m p).toNat % 2 ^ 32 := by
  obtain ⟨hlo, hhi⟩ := h
  unfold Overflown
  rw [atagSizeBytes_toNat]
  have hlt := Nat.mod_lt (4 * (tagSize m p).toNat) (by decide : 2 ^ 32 > 0)
  omega

theorem TagPlace.next (h : TagPlace atagsBase p) (hgo : ¬ TagStops m atagsBase type p) :
    TagPlace atagsBase (nextTag m p) ∧ p ≤ atagsBase + atagsSize ∧ p + 4 ≤ nextTag m p := by
  simp only [TagStops, not_or] at hgo
  obtain ⟨hsize, hover, -⟩ := hgo
  rw [overflown_iff h] at hover
  have hpos : (tagSize m p).toNat ≠ 0 := fun hz => hsize (UInt32.toNat_inj.1 hz)
  have hlt := (tagSize m p).toNat_lt
  obtain ⟨hlo, -⟩ := h
  unfold nextTag TagPlace
  unfold atagsSize at hover ⊢
  omega

/-- The walk always stops. -/
theorem tagWalk_exists (m : Cells UInt8) (atagsBase : ℕ) (type : UInt32) :
    ∃ path tagBuffer, TagWalk m atagsBase type path tagBuffer := by
  have hstep : ∀ p, TagPlace atagsBase p → ¬ TagStops m atagsBase type p →
      TagPlace atagsBase (nextTag m p)
        ∧ atagsBase + atagsSize + 1 - nextTag m p < atagsBase + atagsSize + 1 - p := by
    intro p hp hgo
    obtain ⟨hplace, hle, hnext⟩ := hp.next hgo
    exact ⟨hplace, by omega⟩
  exact StepWalk.exists_of_measure hstep (⟨le_rfl, by omega⟩ : TagPlace atagsBase atagsBase) le_rfl

/-- The bytes of a read are in the region. -/
def ReadInside (atagsBase : ℕ) (r : ℕ × ℕ) : Prop :=
  atagsBase ≤ r.1 ∧ r.1 + r.2 ≤ atagsBase + atagsSize

/-- The tag at which the walk stops is the one looked for. -/
def Found (m : Cells UInt8) (atagsBase tagBuffer : ℕ) : Prop :=
  tagSize m tagBuffer ≠ 0 ∧ ¬ Overflown m atagsBase tagBuffer

theorem tagStop_of_found (h : Found m atagsBase tagBuffer) :
    tagStop m atagsBase debugPrint tagBuffer = tagFound m tagBuffer := by
  rw [tagStop, if_neg h.1, if_neg h.2]

theorem tagFound_result :
    (tagFound m tagBuffer).result = some p ↔
      HashAccepted m tagBuffer ∧ p = tagBuffer + rkAtagHeaderSize := by
  unfold tagFound HashAccepted
  by_cases hmissing : tagHash m tagBuffer = 0
  · simp [hmissing, eq_comm]
  · by_cases hright : computeHash m tagBuffer (tagHashOffset m tagBuffer) = tagHash m tagBuffer
    · simp [hmissing, hright, eq_comm]
    · simp [hmissing, hright]

theorem tagStop_result :
    (tagStop m atagsBase debugPrint tagBuffer).result = some p ↔
      Found m atagsBase tagBuffer ∧ HashAccepted m tagBuffer
        ∧ p = tagBuffer + rkAtagHeaderSize := by
  by_cases hfound : Found m atagsBase tagBuffer
  · rw [tagStop_of_found hfound, tagFound_result]
    exact (and_iff_right hfound).symm
  · refine iff_of_false ?_ fun h => hfound h.1
    unfold tagStop
    split_ifs with hsize hover
    · exact fun h => nomatch h
    · exact fun h => nomatch h
    · exact absurd ⟨hsize, hover⟩ hfound

/-- The hash ends with the tag, in the size that is checked. -/
theorem tagHashOffset_toNat (h : atagSizeBytes (tagSize m tagBuffer) ≠ 0) :
    (tagHashOffset m tagBuffer).toNat + 4 = (atagSizeBytes (tagSize m tagBuffer)).toNat := by
  have hne : (atagSizeBytes (tagSize m tagBuffer)).toNat ≠ 0 := fun hz => h (UInt32.toNat_inj.1 hz)
  have hmod := atagSizeBytes_toNat (tagSize m tagBuffer)
  have hle : atagHashLength ≤ atagSizeBytes (tagSize m tagBuffer) := by
    rw [UInt32.le_iff_toNat_le]
    change 4 ≤ _
    omega
  rw [tagHashOffset, UInt32.toNat_sub_of_le _ _ hle]
  rw [UInt32.le_iff_toNat_le] at hle
  exact Nat.sub_add_cancel hle

theorem tagHashOffset_zero (h : atagSizeBytes (tagSize m tagBuffer) = 0) :
    (tagHashOffset m tagBuffer).toNat = 2 ^ 32 - 4 := by
  rw [tagHashOffset, h]
  rfl

theorem reads_tagFound (hp : TagPlace atagsBase tagBuffer) (hfound : Found m atagsBase tagBuffer) :
    (∀ r ∈ (tagFound m tagBuffer).reads, ReadInside atagsBase r) ↔
      tagBuffer + rkAtagHeaderSize ≤ atagsBase + atagsSize
        ∧ atagSizeBytes (tagSize m tagBuffer) ≠ 0 := by
  have hover := hfound.2
  rw [overflown_iff hp, ← atagSizeBytes_toNat] at hover
  obtain ⟨hlo, -⟩ := hp
  constructor
  · intro h
    have htype : ReadInside atagsBase (tagBuffer + 4, 4) := by
      refine h _ ?_
      unfold tagFound
      split_ifs <;> simp
    have hhash : ReadInside atagsBase (tagBuffer + (tagHashOffset m tagBuffer).toNat, 4) := by
      refine h _ ?_
      unfold tagFound
      split_ifs <;> simp
    refine ⟨htype.2, fun hzero => ?_⟩
    have hend := hhash.2
    simp only [tagHashOffset_zero hzero, atagsSize] at hend
    omega
  · rintro ⟨hheader, hzero⟩ r hr
    have hoffset := tagHashOffset_toNat hzero
    have hmem : r = (tagBuffer, 4) ∨ r = (tagBuffer + 4, 4)
        ∨ r = (tagBuffer + (tagHashOffset m tagBuffer).toNat, 4)
        ∨ r = (tagBuffer, (tagHashOffset m tagBuffer).toNat) := by
      unfold tagFound at hr
      split_ifs at hr <;> simp at hr <;> tauto
    rw [rkAtagHeaderSize] at hheader
    rcases hmem with rfl | rfl | rfl | rfl
    all_goals
      refine ⟨?_, ?_⟩ <;> simp only [] <;> omega

/-- The reads where a walk stops are inside if that is. -/
theorem reads_tagStop (hp : TagPlace atagsBase tagBuffer) :
    (∀ r ∈ (tagStop m atagsBase debugPrint tagBuffer).reads, ReadInside atagsBase r) ↔
      (tagBuffer + rkAtagHeaderSize ≤ atagsBase + atagsSize
        ∨ tagBuffer + 4 ≤ atagsBase + atagsSize
          ∧ (tagSize m tagBuffer = 0 ∨ debugPrint = false ∧ Overflown m atagsBase tagBuffer))
      ∧ (Found m atagsBase tagBuffer → atagSizeBytes (tagSize m tagBuffer) ≠ 0) := by
  obtain ⟨hlo, -⟩ := id hp
  by_cases hfound : Found m atagsBase tagBuffer
  · rw [tagStop_of_found hfound, reads_tagFound hp hfound]
    simp [hfound.1, hfound.2, hfound]
  have hsmall : rkAtagHeaderSize = 8 := rfl
  unfold tagStop
  by_cases hsize : tagSize m tagBuffer = 0
  · rw [if_pos hsize]
    simp only [List.mem_singleton, forall_eq, ReadInside, hsize, true_or, and_true]
    refine ⟨fun h => ⟨Or.inr h.2, fun hno => absurd hno hfound⟩, fun h => ⟨hlo, ?_⟩⟩
    rcases h.1 with h | h
    · omega
    · exact h
  · have hover : Overflown m atagsBase tagBuffer := by
      by_contra hno
      exact hfound ⟨hsize, hno⟩
    rw [if_neg hsize, if_pos hover]
    cases debugPrint with
    | true =>
      simp only [if_true, List.mem_cons, List.not_mem_nil, or_false, forall_eq_or_imp, forall_eq,
        ReadInside, hsize, Bool.true_eq_false, false_and, or_self, and_false]
      exact ⟨fun h => ⟨by omega, fun hno => absurd hno hfound⟩, fun h => by omega⟩
    | false =>
      simp only [Bool.false_eq_true, if_false, List.mem_singleton, forall_eq, ReadInside, hover,
        and_self, or_true, and_true]
      exact ⟨fun h => ⟨Or.inr h.2, fun hno => absurd hno hfound⟩, fun h => ⟨hlo, by omega⟩⟩

/-- The tags that are passed lie in front of the one at which the walk stops. -/
theorem TagWalk.passed (h : TagWalk m atagsBase type path tagBuffer) :
    TagPlace atagsBase tagBuffer ∧ ∀ q ∈ path, TagPlace atagsBase q
      ∧ tagSize m q ≠ 0 ∧ q + 4 ≤ nextTag m q ∧ nextTag m q ≤ tagBuffer := by
  obtain ⟨hplace, hall⟩ := StepWalk.invariant (P := TagPlace atagsBase)
    (fun p hp hgo => (hp.next hgo).1) ⟨le_rfl, by omega⟩ h
  obtain ⟨-, hle⟩ := StepWalk.le_stop (f := id)
    (fun p _ => Nat.le_add_right p (4 * (tagSize m p).toNat)) h
  refine ⟨hplace, fun q hq => ⟨hall q hq, ?_, ((hall q hq).next (hle q hq).1).2.2, (hle q hq).2⟩⟩
  exact fun hz => (hle q hq).1 (Or.inl hz)

theorem reads_passed (h : TagWalk m atagsBase type path tagBuffer)
    (hstop : tagBuffer + 4 ≤ atagsBase + atagsSize) :
    ∀ r ∈ path.flatMap headerReads, ReadInside atagsBase r := by
  intro r hr
  obtain ⟨q, hq, hr⟩ := List.mem_flatMap.1 hr
  obtain ⟨hplace, -, hnext, hle⟩ := h.passed.2 q hq
  obtain ⟨hlo, -⟩ := hplace
  unfold headerReads at hr
  rcases List.mem_cons.1 hr with rfl | hr
  · exact ⟨hlo, by simp only []; omega⟩
  · rw [List.mem_singleton.1 hr]
    exact ⟨by simp only []; omega, by simp only []; omega⟩

theorem tagWellFormed_iff (h : TagWalk m atagsBase type path tagBuffer)
    (hstop : tagBuffer ≤ atagsBase + atagsSize) {q : ℕ} (hq : q ∈ path) :
    TagWellFormed m atagsBase q ↔ tagSize m q ≠ 1 := by
  obtain ⟨-, hsize, -, hle⟩ := h.passed.2 q hq
  have hne : (tagSize m q).toNat ≠ 0 := fun hz => hsize (UInt32.toNat_inj.1 hz)
  have hone : tagSize m q = 1 ↔ (tagSize m q).toNat = 1 := UInt32.toNat_inj.symm
  unfold TagWellFormed rkAtagHeaderSize
  rw [Ne, hone]
  omega

theorem nextTag_le_iff (hp : TagPlace atagsBase tagBuffer) (hfound : Found m atagsBase tagBuffer) :
    nextTag m tagBuffer ≤ atagsBase + atagsSize ↔ (tagSize m tagBuffer).toNat < 2 ^ 30 := by
  have hover := hfound.2
  rw [overflown_iff hp] at hover
  obtain ⟨hlo, -⟩ := hp
  unfold nextTag
  unfold atagsSize at hover ⊢
  omega

/-- A lookup that gets to the walk. -/
structure TagWalked (m : Cells UInt8) (atagsBase : ℕ) (type : UInt32) : Prop where
  base : atagsBase ≠ 0
  core : tagType m atagsBase = rkAtagTypeCore
  gt : rkAtagTypeCore < type
  le : type ≤ rkAtagTypeMax

theorem rkAtagsGetTagBuffer_refused (h : ¬ TagWalked m atagsBase type) :
    ∃ reads, (∀ fuel, rkAtagsGetTagBuffer m atagsBase debugPrint type fuel = some ⟨none, reads⟩)
      ∧ ∀ r ∈ reads, ReadInside atagsBase r := by
  by_cases hbase : atagsBase = 0
  · exact ⟨[], fun _ => if_pos hbase, fun _ hr => absurd hr List.not_mem_nil⟩
  refine ⟨[(atagsBase + 4, 4)], fun fuel => ?_, fun r hr => ?_⟩
  · unfold rkAtagsGetTagBuffer
    rw [if_neg hbase]
    by_cases hcore : tagType m atagsBase = rkAtagTypeCore
    · rw [if_neg (not_not.2 hcore), if_pos]
      by_contra htype
      rw [not_or, UInt32.not_le, UInt32.not_lt] at htype
      exact h ⟨hbase, hcore, htype.1, htype.2⟩
    · rw [if_pos hcore]
  · rw [List.mem_singleton.1 hr]
    unfold ReadInside atagsSize
    omega

theorem rkAtagsGetTagBuffer_walked (h : TagWalked m atagsBase type)
    (hw : TagWalk m atagsBase type path tagBuffer) {fuel : ℕ} (hfuel : path.length < fuel) :
    rkAtagsGetTagBuffer m atagsBase debugPrint type fuel
      = some ⟨(tagStop m atagsBase debugPrint tagBuffer).result, (atagsBase + 4, 4) ::
          (path.flatMap headerReads ++ (tagStop m atagsBase debugPrint tagBuffer).reads)⟩ := by
  unfold rkAtagsGetTagBuffer
  have htype : ¬ (type ≤ rkAtagTypeCore ∨ rkAtagTypeMax < type) := by
    rw [not_or, UInt32.not_le, UInt32.not_lt]
    exact ⟨h.gt, h.le⟩
  rw [if_neg h.base, if_neg (not_not.2 h.core), if_neg htype, tagLoop_of_walk hw hfuel]
  rfl

/-- What is wanted of a lookup that walks, at the tag where it stops. -/
theorem atagsSafe_iff_stop (h : TagWalked m atagsBase type)
    (hw : TagWalk m atagsBase type path tagBuffer) :
    AtagsSafe m atagsBase type debugPrint ↔
      ((∀ r ∈ path.flatMap headerReads, ReadInside atagsBase r)
        ∧ ∀ r ∈ (tagStop m atagsBase debugPrint tagBuffer).reads, ReadInside atagsBase r)
      ∧ (Found m atagsBase tagBuffer → HashAccepted m tagBuffer →
        nextTag m tagBuffer ≤ atagsBase + atagsSize ∧ ∀ q ∈ path, TagWellFormed m atagsBase q) := by
  rw [← List.forall_mem_append]
  constructor
  · rintro ⟨steps, run, hrun, hreads, hresult⟩
    have heq := hrun (max steps (path.length + 1)) (le_max_left ..)
    rw [rkAtagsGetTagBuffer_walked h hw (le_max_right steps (path.length + 1))] at heq
    obtain rfl := Option.some.inj heq
    refine ⟨fun r hr => hreads r (List.mem_cons_of_mem _ hr), fun hfound haccepted => ?_⟩
    obtain ⟨path', tagBuffer', hw', -, -, hnext, hwell⟩ :=
      hresult _ (tagStop_result.2 ⟨hfound, haccepted, rfl⟩)
    obtain ⟨rfl, rfl⟩ := StepWalk.unique hw hw'
    exact ⟨hnext, hwell⟩
  · rintro ⟨hreads, hfine⟩
    refine ⟨path.length + 1, _, fun fuel hfuel => rkAtagsGetTagBuffer_walked h hw hfuel,
      fun r hr => ?_, fun p hp => ?_⟩
    · rcases List.mem_cons.1 hr with rfl | hr
      · simp only [atagsSize]
        omega
      · exact hreads r hr
    · obtain ⟨hfound, haccepted, rfl⟩ := tagStop_result.1 hp
      obtain ⟨hnext, hwell⟩ := hfine hfound haccepted
      have htype := (StepWalk.stop hw).resolve_left hfound.1
      exact ⟨path, tagBuffer, hw, rfl, htype.resolve_left hfound.2, hnext, hwell⟩

theorem TagWalk.inside (hstop : tagBuffer + rkAtagHeaderSize ≤ atagsBase + atagsSize
      ∨ tagBuffer + 4 ≤ atagsBase + atagsSize
        ∧ (tagSize m tagBuffer = 0 ∨ debugPrint = false ∧ Overflown m atagsBase tagBuffer)) :
    tagBuffer + 4 ≤ atagsBase + atagsSize := by
  unfold rkAtagHeaderSize at hstop
  omega

/-- A lookup is safe exactly if the walk stays inside, and what it accepts is of a size that does not
wrap, behind tags that have a header. -/
theorem atagsSafe_iff :
    AtagsSafe m atagsBase type debugPrint ↔ TagsFit m atagsBase type debugPrint := by
  by_cases h : TagWalked m atagsBase type
  · obtain ⟨path, tagBuffer, hw⟩ := tagWalk_exists m atagsBase type
    have hplace := hw.passed.1
    rw [atagsSafe_iff_stop h hw, reads_tagStop hplace]
    constructor
    · rintro ⟨⟨-, hstop, hzero⟩, hfine⟩ - - - - path' tagBuffer' hw'
      obtain ⟨rfl, rfl⟩ := StepWalk.unique hw hw'
      have hend := TagWalk.inside hstop
      refine ⟨hstop, fun hsize hover => ⟨hzero ⟨hsize, hover⟩, fun haccepted => ?_⟩⟩
      obtain ⟨hnext, hwell⟩ := hfine ⟨hsize, hover⟩ haccepted
      refine ⟨(nextTag_le_iff hplace ⟨hsize, hover⟩).1 hnext, fun q hq => ?_⟩
      exact (tagWellFormed_iff hw (by omega) hq).1 (hwell q hq)
    · intro hfit
      obtain ⟨hstop, hfound⟩ := hfit h.base h.core h.gt h.le path tagBuffer hw
      have hend := TagWalk.inside hstop
      refine ⟨⟨reads_passed hw hend, hstop, fun hf => (hfound hf.1 hf.2).1⟩, fun hf haccepted => ?_⟩
      obtain ⟨hlt, hone⟩ := (hfound hf.1 hf.2).2 haccepted
      refine ⟨(nextTag_le_iff hplace hf).2 hlt, fun q hq => ?_⟩
      exact (tagWellFormed_iff hw (by omega) hq).2 (hone q hq)
  · obtain ⟨reads, hrun, hinside⟩ := @rkAtagsGetTagBuffer_refused m atagsBase type debugPrint h
    refine iff_of_true ⟨0, _, fun fuel _ => hrun fuel, hinside, fun p hp => nomatch hp⟩ ?_
    exact fun hbase hcore hgt hle => absurd ⟨hbase, hcore, hgt, hle⟩ h

/-- A region that its core tag fills, with zeros behind it. -/
def filledRegion : Cells UInt8 := fun a =>
  if a = 0x1FE001 then 0x08 else if a = 0x1FE004 then 0x01 else if a = 0x1FE006 then 0x41
  else if a = 0x1FE007 then 0x54 else 0

/-- The walk goes on to a tag behind the region. -/
theorem filledRegion_unsafe : ¬ ∀ (m : Cells UInt8) (type : UInt32),
    AtagsSafe m 0x1FE000 type true := by
  intro h
  obtain ⟨steps, run, hrun, hreads, -⟩ := h filledRegion 0x54410051
  have hwalk : rkAtagsGetTagBuffer filledRegion 0x1FE000 true 0x54410051 (steps + 2)
      = some ⟨none, [(0x1FE004, 4), (0x1FE000, 4), (0x1FE004, 4), (0x200000, 4)]⟩ := rfl
  have heq := hrun (steps + 2) (Nat.le_add_right _ _)
  rw [hwalk] at heq
  obtain rfl := Option.some.inj heq
  exact absurd (hreads (0x200000, 4) (by simp)).2 (by decide)

end Loop

end Edk2Rk3576
