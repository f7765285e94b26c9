import Edk2Rk3576.FdtPlatform.Model
import Edk2Rk3576.Lib.Runs
import Edk2Rk3576.Lib.Yields

/-!
# Which tree is installed

Every routine of the driver either leaves the tree it works on whole, or returns a status that makes
its caller drop it. A call so installs the override as it was read, or the working tree with every
overlay applied that could be read, in the order of the directories (`FdtOutcome`), or nothing. An
overlay that cannot be read is passed over and the others are applied all the same, so the installed
tree can lack overlays the directory has.
-/

namespace Edk2Rk3576

open Pool

/-- `c` comes of the tree `b` by applying the overlays in order, with room made between them. -/
inductive Built {β : Type} (L : FdtLib β) (b : β) : List β → β → Prop
  | base : Built L b [] b
  | opened {os : List β} {c c' : β} {size : ℕ} : Built L b os c → L.openInto c size = (0, c') →
      Built L b os c'
  | applied {os : List β} {c c' o : β} : Built L b os c → L.overlayApply c o = (0, c') →
      Built L b (os ++ [o]) c'

section Outcome

variable {β : Type}

/-- The status `ReadFdtFromFilePath` returns, for a file whose size is known or not. -/
def FileOutcome.fdtStatus (L : FdtLib β) (f : FileOutcome β) (sized : Bool) : EfiStatus :=
  if efiError f.openStatus then f.openStatus
  else if !sized && efiError f.infoResult then f.infoResult
  else if !f.bufferAllocated then efiOutOfResources
  else if efiError f.readStatus then f.readStatus
  else if L.checkHeader f.content ≠ 0 then efiLoadError
  else f.readStatus

/-- The overlays a listing of a directory comes to, of the files that `keep` takes. -/
def dirOverlays (keep : FileOutcome β → Bool) : List (DirRead β) → List β
  | [] => []
  | r :: rs =>
    if efiError r.status || r.infoSize == 0 then []
    else if r.isOverlay && keep r.file then r.file.content :: dirOverlays keep rs
    else dirOverlays keep rs

def pathOverlays (keep : FileOutcome β → Bool) : Option (DirOutcome β) → List β
  | none => []
  | some d => if efiError d.openStatus then [] else dirOverlays keep d.reads

/-- The overlays of the directories of a call. -/
def FdtCall.overlays (keep : FileOutcome β → Bool) (c : FdtCall β) : List β :=
  c.overlayPaths.flatMap (pathOverlays keep)

variable (E : FdtEnv β)

/-- An overlay that can be read. -/
def FdtEnv.readable (f : FileOutcome β) : Bool := !efiError (f.fdtStatus E.lib true)

/-- The first base tree that can be read. -/
def baseOverride : List (Option (FileOutcome β)) → Option (FileOutcome β)
  | [] => none
  | none :: paths => baseOverride paths
  | some f :: paths => if !efiError (f.fdtStatus E.lib false) then some f else baseOverride paths

/-- The fix-ups, where there is the memory for them. -/
def fixedUpTree (c : FdtCall β) (b : β) : Option β :=
  let r := E.lib.openInto b ((E.lib.totalSize b + size8KB) % 2 ^ 32)
  if c.fixupAllocated && r.1 == 0 then E.fixups.apply r.2 else some b

/-- The tree the overlays of a call are applied to. -/
def workingTree (platform : Option β) (c : FdtCall β) : Option β :=
  match baseOverride E c.basePaths with
  | some f =>
    let b := (E.lib.openInto f.content (E.lib.totalSize f.content)).2
    if E.overrideFixup then fixedUpTree E c b else some b
  | none => platform.map fun b => (E.lib.openInto b (E.lib.totalSize b)).2

def FdtState.installed (s : FdtState β) : Option β := s.pool.buffer s.table

/-- What a call can leave as the installed tree. -/
inductive FdtOutcome (platform : Option β) (c : FdtCall β) (overlays : List β)
    (s s' : FdtState β) : Prop
  | kept : s'.table = s.table → s'.installed = s.installed → FdtOutcome platform c overlays s s'
  | original {f : FileOutcome β} : baseOverride E c.basePaths = some f →
      s'.installed = some f.content → FdtOutcome platform c overlays s s'
  | merged {base tree : β} : workingTree E platform c = some base →
      Built E.lib base overlays tree → baseOverride E c.basePaths ≠ none ∨ overlays ≠ [] →
      s'.installed = some tree → FdtOutcome platform c overlays s s'

end Outcome

section Routines

variable {β : Type} {L : FdtLib β} {s : Pool β} {fdt : ℕ} {b : β}

abbrev Asserts (h : FdtHalt) : Prop := h = .assertion

theorem loadBuffer_of_holds (h : s.Holds fdt b) : loadBuffer s fdt = .ok b := by
  simp [loadBuffer, h.eq]

theorem freePool_of_holds (h : s.Holds fdt b) : freePool s fdt = .ok (s.release fdt) := by
  simp [freePool, h.eq]

/-- A clone, or a tree moved to a larger buffer. -/
theorem fdtOpenIntoAlloc_spec (h : s.Holds fdt b) (allocated destination : Bool) (size : ℕ) :
    Yields Asserts (fun r : EfiStatus × ℕ × Pool β =>
      (r.1 = efiOutOfResources ∨ r.1 = efiLoadError) ∧ r.2.1 = fdt ∧ Keeps ∅ s r.2.2
        ∧ (allocated && (L.openInto b size).1 == 0) = false
      ∨ r.1 = efiSuccess ∧ r.2.1 = s.fresh ∧ (allocated && (L.openInto b size).1 == 0) = true
        ∧ r.2.2.Holds s.fresh (L.openInto b size).2
        ∧ Keeps (if destination then ∅ else {fdt}) s r.2.2)
      (fdtOpenIntoAlloc L allocated destination fdt size s) := by
  unfold fdtOpenIntoAlloc
  refine Yields.ite (fun hno => Or.inl ⟨Or.inl rfl, rfl, Keeps.refl _ _, by simp_all⟩) fun hyes => ?_
  refine Yields.bind_ok (loadBuffer_of_holds h) ?_
  have hnew := holds_allocate (s := s) (b := (L.openInto b size).2)
  have hkeep := keeps_allocate (s := s) (b := (L.openInto b size).2)
  refine Yields.ite (fun hret => ?_) fun hret => ?_
  · refine Yields.bind_ok (freePool_of_holds hnew) (Or.inl ⟨Or.inr rfl, rfl, ?_, by simp_all⟩)
    refine hkeep.trans keeps_release fun p hp hpn => ?_
    exact absurd hpn (Nat.lt_succ_of_le hp).ne
  · refine Yields.ite (fun hd => ?_) fun hd => ?_
    · exact Or.inr ⟨rfl, rfl, by simp_all, hnew, by rw [if_pos hd]; exact hkeep⟩
    · refine Yields.bind_ok (freePool_of_holds (h.keeps hkeep (Set.notMem_empty _))) ?_
      refine Or.inr ⟨rfl, rfl, by simp_all, hnew.keeps keeps_release h.ne_fresh.symm, ?_⟩
      rw [if_neg hd]
      exact (hkeep.mono (Set.empty_subset _)).trans keeps_release fun p _ hp => hp

/-- The tree of a buffer that has been worked on is `c`, wherever it is now; what else there was is
as it was. -/
structure Moved (fdt : ℕ) (s : Pool β) (fdt' : ℕ) (s' : Pool β) (c : β) : Prop where
  holds : s'.Holds fdt' c
  keeps : Keeps {fdt} s s'
  place : fdt' = fdt ∨ s.used < fdt'

theorem Moved.refl (h : s.Holds fdt b) : Moved fdt s fdt s b := ⟨h, Keeps.refl _ _, Or.inl rfl⟩

theorem Moved.trans {s' s'' : Pool β} {fdt' fdt'' : ℕ} {c d : β} (h : Moved fdt s fdt' s' c)
    (h' : Moved fdt' s' fdt'' s'' d) : Moved fdt s fdt'' s'' d := by
  refine ⟨h'.holds, h.keeps.trans h'.keeps fun p hp hpf => ?_, ?_⟩
  · obtain rfl : p = fdt' := hpf
    rcases h.place with hpl | hpl
    · exact hpl
    · omega
  · have hu := h.keeps.used
    rcases h'.place with h₂ | h₂
    · rw [h₂]
      exact h.place
    · exact Or.inr (by omega)

/-- The tree is changed where it is, and so are buffers that were not there. -/
theorem Moved.changed {s' s'' : Pool β} {fdt' : ℕ} {c d : β} {t : Set ℕ}
    (h : Moved fdt s fdt' s' c) (hd : s''.Holds fdt' d) (hk : Keeps t s' s'')
    (ht : ∀ p ∈ t, p = fdt' ∨ s.used < p) : Moved fdt s fdt' s'' d := by
  refine ⟨hd, h.keeps.trans hk fun p hp hpt => ?_, h.place⟩
  rcases ht p hpt with rfl | hlt
  · rcases h.place with hpl | hpl
    · exact hpl
    · omega
  · omega

/-- Other buffers come and go while the tree stays where it is. -/
theorem Moved.of_keeps {s' : Pool β} (h : s.Holds fdt b) (hk : Keeps ∅ s s') :
    Moved fdt s fdt s' b :=
  ⟨h.keeps hk (Set.notMem_empty _), hk.mono (Set.empty_subset _), Or.inl rfl⟩

def Fatal (status : EfiStatus) : Prop := status = efiLoadError ∨ status = efiOutOfResources

theorem Fatal.error {status : EfiStatus} (h : Fatal status) : efiError status = true := by
  rcases h with rfl | rfl <;> exact efiError_encodeError _

theorem readFdtExit_spec (status : EfiStatus) (size : Option ℕ) (hp : fdt ≠ 0 → s.Holds fdt b) :
    Yields Asserts (fun r : EfiStatus × Option ℕ × ℕ × Pool β => r.1 = status ∧ r.2.1 = size
        ∧ (efiError status = true → r.2.2.1 = 0 ∧ Keeps {fdt} s r.2.2.2)
        ∧ (efiError status = false → r.2.2 = (fdt, s)))
      (readFdtExit status size fdt s) := by
  unfold readFdtExit
  refine Yields.ite (fun h => ?_) fun h => ?_
  · simp only [Bool.and_eq_true, bne_iff_ne] at h
    refine Yields.bind_ok (freePool_of_holds (hp h.2)) ⟨rfl, rfl, fun _ => ⟨rfl, keeps_release⟩, ?_⟩
    exact fun hno => by simp [h.1] at hno
  · refine ⟨rfl, rfl, fun herr => ⟨?_, Keeps.refl _ _⟩, fun _ => rfl⟩
    simpa [herr] using h

/-- A file that is read is in a buffer of its own, and one that is not leaves nothing behind. -/
structure FdtRead (f : FileOutcome β) (status : EfiStatus) (size : Option ℕ) (s : Pool β)
    (r : EfiStatus × Option ℕ × ℕ × Pool β) : Prop where
  status : r.1 = status
  keeps : Keeps ∅ s r.2.2.2
  null : efiError r.1 = true → r.2.2.1 = 0
  read : efiError r.1 = false → r.2.1 = size ∧ r.2.2.1 = s.fresh ∧ r.2.2.2.Holds s.fresh f.content

theorem readFdtExit_unread {f : FileOutcome β} {status : EfiStatus} (size n : Option ℕ)
    (h : efiError status = true) :
    Yields Asserts (FdtRead f status size s) (readFdtExit status n 0 s) := by
  unfold readFdtExit
  simp only [bne_self_eq_false, Bool.and_false, Bool.false_eq_true, if_false]
  exact ⟨rfl, Keeps.refl _ _, fun _ => rfl, fun hno => by simp [h] at hno⟩

theorem readFdtExit_read {f : FileOutcome β} {status : EfiStatus} {size n : Option ℕ}
    (hn : efiError status = false → n = size) :
    Yields Asserts (FdtRead f status size s)
      (readFdtExit status n s.fresh (s.allocate f.content)) := by
  refine (readFdtExit_spec status n fun _ => holds_allocate).mono ?_
  rintro ⟨status', n', p, s'⟩ ⟨rfl, rfl, herr, hok⟩
  rcases hs : efiError status' with _ | _
  · obtain ⟨rfl, rfl⟩ := Prod.mk.inj (hok hs)
    refine ⟨rfl, keeps_allocate, fun h => ?_, fun _ => ⟨hn hs, rfl, holds_allocate⟩⟩
    simp [hs] at h
  · obtain ⟨hp, hk⟩ := herr hs
    refine ⟨rfl, keeps_allocate.trans hk fun q hq hqf => ?_, fun _ => hp, fun h => ?_⟩
    · exact absurd hqf (Nat.lt_succ_of_le hq).ne
    · simp [hs] at h

theorem readFdtFromFilePath_spec (f : FileOutcome β) (size : Option ℕ) (s : Pool β) :
    Yields Asserts (FdtRead f (f.fdtStatus L size.isSome) size s)
      (readFdtFromFilePath L f size 0 s) := by
  unfold readFdtFromFilePath FileOutcome.fdtStatus
  by_cases hopen : efiError f.openStatus = true
  · rw [if_pos hopen, if_pos hopen]
    exact ⟨rfl, Keeps.refl _ _, fun _ => rfl, fun hno => by simp [hopen] at hno⟩
  rw [if_neg hopen, if_neg hopen, Option.not_isSome]
  by_cases hinfo : (size.isNone && efiError f.infoResult) = true
  · rw [if_pos hinfo, if_pos hinfo]
    exact readFdtExit_unread _ _ (Bool.and_eq_true_iff.1 hinfo).2
  rw [if_neg hinfo, if_neg hinfo]
  by_cases halloc : (!f.bufferAllocated) = true
  · rw [if_pos halloc, if_pos halloc]
    exact readFdtExit_unread _ _ (efiError_encodeError 9)
  rw [if_neg halloc, if_neg halloc]
  simp only []
  by_cases hr : efiError f.readStatus = true
  · rw [if_pos hr, if_pos hr]
    exact readFdtExit_read fun hno => by simp [hr] at hno
  rw [if_neg hr, if_neg hr]
  by_cases hh : L.checkHeader f.content ≠ 0
  · rw [if_pos hh, if_pos hh]
    exact readFdtExit_read fun _ => rfl
  · rw [if_neg hh, if_neg hh]
    exact readFdtExit_read fun _ => rfl

theorem growFdt_spec {b₀ : β} {os : List β} (h : s.Holds fdt b) (hb : Built L b₀ os b)
    (allocated : Bool) (size : ℕ) :
    Yields Asserts (fun r : EfiStatus × ℕ × Pool β => (efiError r.1 = true → Fatal r.1)
        ∧ ∃ c, Moved fdt s r.2.1 r.2.2 c ∧ Built L b₀ os c)
      (growFdt L allocated size fdt s) := by
  unfold growFdt
  refine Yields.bind_ok (loadBuffer_of_holds h) ?_
  refine Yields.ite (fun _ => ?_) fun _ => ⟨fun hno => by simp at hno, b, Moved.refl h, hb⟩
  refine (fdtOpenIntoAlloc_spec h allocated false _).mono ?_
  rintro ⟨status, p, s'⟩ (⟨hst, rfl, hk, -⟩ | ⟨rfl, rfl, hret, hh, hk⟩)
  · exact ⟨fun _ => hst.symm, b, Moved.of_keeps h hk, hb⟩
  · have hzero := (Bool.and_eq_true_iff.1 hret).2
    rw [beq_iff_eq] at hzero
    refine ⟨fun hno => by simp at hno, _, ⟨hh, hk, Or.inr (Nat.lt_succ_self _)⟩, ?_⟩
    exact hb.opened (Prod.ext hzero rfl)

theorem applyOverlay_spec {overlay : ℕ} {o : β} (h : s.Holds fdt b) (ho : s.Holds overlay o)
    (hne : overlay ≠ fdt) :
    Yields Asserts (fun r : ℤ × Pool β => r.1 = (L.overlayApply b o).1
        ∧ r.2.Holds fdt (L.overlayApply b o).2 ∧ Keeps {fdt, overlay} s r.2)
      (applyOverlay L fdt overlay s) := by
  unfold applyOverlay
  refine Yields.bind_ok (loadBuffer_of_holds h) (Yields.bind_ok (loadBuffer_of_holds ho) ?_)
  refine Yields.bind_ok (freePool_of_holds (ho.keeps keeps_store hne)) ⟨rfl, ?_, ?_⟩
  · exact (holds_store h).keeps keeps_release hne.symm
  · refine (keeps_store.mono (Set.singleton_subset_iff.2 (Set.mem_insert _ _))).trans
      keeps_release fun p _ hp => ?_
    exact Set.mem_insert_of_mem _ hp

end Routines

section Overlays

variable {β : Type} (E : FdtEnv β)

/-- Unless it fails for good, a directory adds exactly the overlays it has that can be read. -/
theorem installOverlays_spec {b₀ : β} : ∀ (rs : List (DirRead β)) {s : Pool β} {fdt : ℕ} {b : β}
    {os : List β} (count : ℕ), s.Holds fdt b → Built E.lib b₀ os b →
    Yields Asserts (fun r : EfiStatus × ℕ × ℕ × Pool β => ∃ c, Moved fdt s r.2.1 r.2.2.2 c
        ∧ (¬ Fatal r.1 → Built E.lib b₀ (os ++ dirOverlays E.readable rs) c
          ∧ r.2.2.1 = count + (dirOverlays E.readable rs).length))
      (installOverlays E rs fdt count s)
  | [], s, fdt, b, os, count, h, hb => by
    refine ⟨b, Moved.refl h, fun _ => ⟨?_, rfl⟩⟩
    rw [dirOverlays, List.append_nil]
    exact hb
  | r :: rs, s, fdt, b, os, count, h, hb => by
    unfold installOverlays dirOverlays
    by_cases hend : (efiError r.status || r.infoSize == 0) = true
    · rw [if_pos hend, if_pos hend]
      refine Yields.ite (fun _ => rfl) fun _ => ⟨b, Moved.refl h, fun _ => ⟨?_, rfl⟩⟩
      rw [List.append_nil]
      exact hb
    rw [if_neg hend, if_neg hend]
    rcases hov : r.isOverlay with _ | _
    · exact installOverlays_spec rs count h hb
    simp only [Bool.not_true, Bool.false_eq_true, if_false, Bool.true_and]
    refine Yields.bind (readFdtFromFilePath_spec r.file (some r.fileSize) s) ?_
    rintro ⟨status, size, overlay, s₁⟩ ⟨hstatus, hk₁, hnull, hread⟩
    simp only [Option.isSome_some] at hstatus
    simp only [] at hk₁ hnull hread ⊢
    have hreadable : E.readable r.file = !efiError status := by rw [FdtEnv.readable, ← hstatus]
    rcases hs : efiError status with _ | _
    · obtain ⟨-, rfl, ho⟩ := hread hs
      simp only [hreadable, hs, Bool.not_false, Bool.false_eq_true, if_false, if_true]
      -- the tree makes room, takes the overlay, and goes on to the other entries
      have h₁ := Moved.of_keeps h hk₁
      refine Yields.bind (growFdt_spec h₁.holds hb _ _) ?_
      rintro ⟨status₂, fdt₂, s₂⟩ ⟨hfatal, c, hm, hc⟩
      simp only [] at hfatal hm
      have hm₂ := h₁.trans hm
      have hne : s.fresh ≠ fdt₂ := by
        rcases hm.place with rfl | hpl
        · exact h.ne_fresh.symm
        · exact (lt_of_le_of_lt ho.le hpl).ne
      have ho₂ : s₂.Holds s.fresh r.file.content := ho.keeps hm.keeps h.ne_fresh.symm
      refine Yields.ite (fun herr => ?_) fun _ => ?_
      · refine Yields.bind_ok (freePool_of_holds ho₂) ⟨c, ?_, fun hno => absurd (hfatal herr) hno⟩
        refine hm₂.changed (hm.holds.keeps keeps_release hne.symm) keeps_release fun p hp => ?_
        exact Or.inr (lt_of_lt_of_eq (Nat.lt_succ_self _) hp.symm)
      · refine Yields.bind (applyOverlay_spec hm.holds ho₂ hne) ?_
        rintro ⟨ret, s₃⟩ ⟨rfl, hc₃, hk₃⟩
        have hm₃ : Moved fdt s fdt₂ s₃ _ := hm₂.changed hc₃ hk₃ fun p hp => by
          rcases hp with rfl | rfl
          · exact Or.inl rfl
          · exact Or.inr (Nat.lt_succ_self _)
        refine Yields.ite (fun _ => ⟨_, hm₃, fun hno => absurd (Or.inl rfl) hno⟩) fun hret => ?_
        have hc' := hc.applied (Prod.ext (not_not.1 hret) rfl)
        refine (installOverlays_spec rs (count + 1) hm₃.holds hc').mono ?_
        rintro r' ⟨d, hm', hd⟩
        refine ⟨d, hm₃.trans hm', fun hno => ?_⟩
        obtain ⟨hd, hcount⟩ := hd hno
        rw [List.append_assoc] at hd
        exact ⟨hd, by rw [hcount, List.length_cons]; omega⟩
    · simp only [hreadable, hs, Bool.not_true, Bool.false_eq_true, if_false, if_true]
      refine Yields.ite (fun hout => ?_) fun _ => ?_
      · exact ⟨b, Moved.of_keeps h hk₁, fun hno => absurd (Or.inr hout) hno⟩
      · refine (installOverlays_spec rs count (Moved.of_keeps h hk₁).holds hb).mono ?_
        rintro r' ⟨c, hm, hc⟩
        exact ⟨c, (Moved.of_keeps h hk₁).trans hm, hc⟩

theorem installOverlaysFromDirectoryPath_spec {b₀ : β} (d : DirOutcome β) {s : Pool β} {fdt : ℕ}
    {b : β} {os : List β} (count : ℕ) (h : s.Holds fdt b) (hb : Built E.lib b₀ os b) :
    Yields Asserts (fun r : EfiStatus × ℕ × ℕ × Pool β => ∃ c, Moved fdt s r.2.1 r.2.2.2 c
        ∧ (¬ Fatal r.1 → Built E.lib b₀ (os ++ pathOverlays E.readable (some d)) c
          ∧ r.2.2.1 = count + (pathOverlays E.readable (some d)).length))
      (installOverlaysFromDirectoryPath E d fdt count s) := by
  unfold installOverlaysFromDirectoryPath pathOverlays
  by_cases hopen : efiError d.openStatus = true
  · rw [if_pos hopen]
    simp only [if_pos hopen]
    refine ⟨b, Moved.refl h, fun _ => ⟨?_, rfl⟩⟩
    rw [List.append_nil]
    exact hb
  · rw [if_neg hopen]
    simp only [if_neg hopen]
    refine Yields.ite (fun _ => ⟨b, Moved.refl h, fun hno => absurd (Or.inr rfl) hno⟩) fun _ => ?_
    exact installOverlays_spec E d.reads count h hb

theorem processOverlayPaths_spec {b₀ : β} : ∀ (paths : List (Option (DirOutcome β))) {s : Pool β}
    {fdt : ℕ} {b : β} {os : List β} (count : ℕ), s.Holds fdt b → Built E.lib b₀ os b →
    Yields Asserts (fun r : EfiStatus × ℕ × ℕ × Pool β => ∃ c, Moved fdt s r.2.1 r.2.2.2 c
        ∧ (efiError r.1 = false → Built E.lib b₀ (os ++ paths.flatMap (pathOverlays E.readable)) c
          ∧ r.2.2.1 = count + (paths.flatMap (pathOverlays E.readable)).length))
      (processOverlayPaths E paths efiSuccess fdt count s)
  | [], s, fdt, b, os, count, h, hb => by
    refine ⟨b, Moved.refl h, fun _ => ⟨?_, rfl⟩⟩
    rw [List.flatMap_nil, List.append_nil]
    exact hb
  | none :: paths, s, fdt, b, os, count, h, hb => processOverlayPaths_spec paths count h hb
  | some d :: paths, s, fdt, b, os, count, h, hb => by
    unfold processOverlayPaths
    refine Yields.bind (installOverlaysFromDirectoryPath_spec E d count h hb) ?_
    rintro ⟨status, fdt₁, count₁, s₁⟩ ⟨c, hm, hc⟩
    simp only [] at hm hc ⊢
    refine Yields.ite (fun hfatal => ?_) fun hgo => ?_
    · refine ⟨c, hm, fun hno => ?_⟩
      have herr := Fatal.error hfatal
      rw [herr] at hno
      exact Bool.noConfusion hno
    · obtain ⟨hbuilt, rfl⟩ := hc hgo
      refine (processOverlayPaths_spec paths _ hm.holds hbuilt).mono ?_
      rintro r ⟨c', hm', hc'⟩
      refine ⟨c', hm.trans hm', fun hok => ?_⟩
      obtain ⟨hb', hcount⟩ := hc' hok
      rw [List.append_assoc] at hb'
      rw [List.flatMap_cons, List.length_append]
      exact ⟨hb', by rw [hcount]; omega⟩

theorem readBaseOverride_spec : ∀ (paths : List (Option (FileOutcome β))) (status : EfiStatus)
    (s : Pool β),
    Yields Asserts (fun r : EfiStatus × ℕ × Pool β => Keeps ∅ s r.2.2
        ∧ (baseOverride E paths = none → r.2.1 = 0)
        ∧ ∀ f, baseOverride E paths = some f → s.used < r.2.1 ∧ r.2.2.Holds r.2.1 f.content)
      (readBaseOverride E paths status 0 s)
  | [], _, _ => ⟨Keeps.refl _ _, fun _ => rfl, fun _ hf => by simp [baseOverride] at hf⟩
  | none :: paths, status, s => readBaseOverride_spec paths status s
  | some f :: paths, _, s => by
    unfold readBaseOverride baseOverride
    refine Yields.bind (readFdtFromFilePath_spec f none s) ?_
    rintro ⟨status, size, fdt, s₁⟩ ⟨hstatus, hk, hnull, hread⟩
    simp only [Option.isSome_none] at hstatus hk hnull hread ⊢
    rw [← hstatus]
    rcases hs : efiError status with _ | _
    · obtain ⟨-, rfl, hh⟩ := hread hs
      refine ⟨hk, fun hno => by simp at hno, fun f' hf' => ?_⟩
      obtain rfl : f = f' := by simpa using hf'
      exact ⟨Nat.lt_succ_self _, hh⟩
    · obtain rfl := hnull hs
      refine (readBaseOverride_spec paths status s₁).mono ?_
      rintro r ⟨hk', hnone, hsome⟩
      refine ⟨hk.trans hk' fun _ _ h => h, by simpa using hnone, fun f' hf' => ?_⟩
      obtain ⟨hlt, hh⟩ := hsome f' (by simpa using hf')
      exact ⟨lt_of_le_of_lt hk.used hlt, hh⟩

theorem applyPlatformFdtFixups_spec (c : FdtCall β) {s : Pool β} {fdt : ℕ} {b : β}
    (h : s.Holds fdt b) :
    Yields Asserts (fun r : EfiStatus × ℕ × Pool β => ∃ d, Moved fdt s r.2.1 r.2.2 d
        ∧ fixedUpTree E c b = some d)
      (applyPlatformFdtFixups E.lib E.fixups c.fixupAllocated fdt s) := by
  unfold applyPlatformFdtFixups fixedUpTree
  refine Yields.bind_ok (loadBuffer_of_holds h) ?_
  refine Yields.bind (fdtOpenIntoAlloc_spec h _ _ _) ?_
  rintro ⟨status, fdt₁, s₁⟩ (⟨hst, rfl, hk, hno⟩ | ⟨rfl, rfl, hyes, hh, hk⟩)
  · simp only [hno, Bool.false_eq_true, if_false]
    refine Yields.ite (fun _ => ⟨b, Moved.of_keeps h hk, rfl⟩) fun hok => ?_
    exact absurd (Fatal.error (Or.symm hst)) hok
  · simp only [hyes, if_true]
    refine Yields.ite (fun hno => by simp at hno) fun _ => ?_
    refine Yields.bind_ok (loadBuffer_of_holds hh) ?_
    rcases hd : E.fixups.apply _ with _ | d
    · exact rfl
    · have hm : Moved fdt s s.fresh s₁ _ := ⟨hh, hk, Or.inr (Nat.lt_succ_self _)⟩
      exact ⟨d, hm.changed (holds_store hh) keeps_store fun p hp => Or.inl hp, rfl⟩

theorem useNewFdt_spec {status : EfiStatus} {fdt newFdt count platformFdt : ℕ} {s : Pool β}
    {tree : β} (h : s.Holds newFdt tree) :
    Yields Asserts (fun new : Bool => new = true → efiError status = false
        ∧ (fdt ≠ platformFdt ∨ 0 < count))
      (useNewFdt E status fdt newFdt count platformFdt s) := by
  unfold useNewFdt
  refine Yields.ite (fun _ hno => Bool.noConfusion hno) fun hok => ?_
  refine Yields.bind_ok (loadBuffer_of_holds h) fun hnew => ⟨by simpa using hok, ?_⟩
  simpa using (Bool.and_eq_true_iff.1 hnew).2

/-- What is installed is the tree handed over; one that cannot be installed is freed. -/
theorem installTable_spec (c : FdtCall β) (status : EfiStatus) {p platformFdt table : ℕ}
    {s₀ s : Pool β} {b : β} (hk : Keeps ∅ s₀ s) (hp : p ≠ 0 → s₀.used < p ∧ s.Holds p b) :
    Yields Asserts (fun r : EfiStatus × FdtState β => Keeps ∅ s₀ r.2.pool
        ∧ (r.2.table = table ∨ p ≠ 0 ∧ r.2.table = p ∧ r.2.pool.Holds p b))
      (installTable c status p platformFdt table s) := by
  unfold installTable
  refine Yields.ite (fun hne => ?_) fun _ => ⟨hk, Or.inl rfl⟩
  obtain ⟨hlt, hh⟩ := hp hne
  refine Yields.ite (fun _ => ?_) fun _ => ⟨hk, Or.inr ⟨hne, rfl, hh⟩⟩
  by_cases hpl : p ≠ platformFdt
  · rw [if_pos hpl]
    refine Yields.bind_ok (freePool_of_holds hh) ⟨?_, Or.inl rfl⟩
    refine hk.trans keeps_release fun q hq hqp => ?_
    obtain rfl : q = p := hqp
    omega
  · rw [if_neg hpl]
    exact Yields.bind_ok rfl ⟨hk, Or.inl rfl⟩

theorem installFdt_spec (c : FdtCall β) {status : EfiStatus}
    {fdt newFdt count platformFdt table : ℕ} {s₀ s : Pool β} {b tree : β} (hk : Keeps ∅ s₀ s)
    (hfdt : fdt ≠ platformFdt → s₀.used < fdt ∧ s.Holds fdt b) (hnew : s.Holds newFdt tree)
    (hlt : s₀.used < newFdt) (hne : newFdt ≠ fdt) :
    Yields Asserts (fun r : EfiStatus × FdtState β => Keeps ∅ s₀ r.2.pool
        ∧ (r.2.table = table
          ∨ fdt ≠ platformFdt ∧ r.2.table = fdt ∧ r.2.pool.Holds fdt b
          ∨ r.2.table = newFdt ∧ r.2.pool.Holds newFdt tree ∧ efiError status = false
            ∧ (fdt ≠ platformFdt ∨ 0 < count)))
      (installFdt E c status fdt newFdt count platformFdt table s) := by
  unfold installFdt
  refine Yields.bind (useNewFdt_spec E hnew) fun new huse => ?_
  refine Yields.ite (fun hyes => ?_) fun _ => ?_
  · -- the new tree, with the original freed where it was allocated here
    have hinstall : ∀ s', Keeps ∅ s₀ s' → s'.Holds newFdt tree → Yields Asserts
        (fun r : EfiStatus × FdtState β => Keeps ∅ s₀ r.2.pool
          ∧ (r.2.table = table
            ∨ fdt ≠ platformFdt ∧ r.2.table = fdt ∧ r.2.pool.Holds fdt b
            ∨ r.2.table = newFdt ∧ r.2.pool.Holds newFdt tree ∧ efiError status = false
              ∧ (fdt ≠ platformFdt ∨ 0 < count)))
        (installTable c status newFdt platformFdt table s') := by
      intro s' hk' hh'
      refine (installTable_spec c status hk' fun _ => ⟨hlt, hh'⟩).mono ?_
      rintro r ⟨hkr, ht | ⟨-, ht, hh⟩⟩
      · exact ⟨hkr, Or.inl ht⟩
      · exact ⟨hkr, Or.inr (Or.inr ⟨ht, hh, huse hyes⟩)⟩
    refine Yields.ite (fun hpl => ?_) fun _ => hinstall s hk hnew
    obtain ⟨hlt', hh⟩ := hfdt hpl
    refine Yields.bind_ok (freePool_of_holds hh) (hinstall _ ?_ (hnew.keeps keeps_release hne))
    refine hk.trans keeps_release fun q hq hqp => ?_
    obtain rfl : q = fdt := hqp
    omega
  · refine Yields.bind_ok (freePool_of_holds hnew) ?_
    have hk' : Keeps ∅ s₀ (s.release newFdt) := by
      refine hk.trans keeps_release fun q hq hqp => ?_
      obtain rfl : q = newFdt := hqp
      omega
    by_cases hpl : fdt ≠ platformFdt
    · obtain ⟨hlt', hh⟩ := hfdt hpl
      rw [if_pos hpl]
      refine (installTable_spec c status hk' fun _ => ⟨hlt', hh.keeps keeps_release hne.symm⟩).mono ?_
      rintro r ⟨hkr, ht | ⟨-, ht, hh⟩⟩
      · exact ⟨hkr, Or.inl ht⟩
      · exact ⟨hkr, Or.inr (Or.inl ⟨hpl, ht, hh⟩)⟩
    · rw [if_neg hpl]
      refine (installTable_spec (b := b) c status hk' fun hno => absurd rfl hno).mono ?_
      rintro r ⟨hkr, ht | ⟨hno, -⟩⟩
      · exact ⟨hkr, Or.inl ht⟩
      · exact absurd rfl hno

theorem processFdt_spec (platformFdt : ℕ) (platform : Option β) (c : FdtCall β) {fdt table : ℕ}
    {s₀ s : Pool β} {b : β} (hk : Keeps ∅ s₀ s) (h : s.Holds fdt b)
    (hfdt : fdt ≠ platformFdt → s₀.used < fdt)
    (hover : fdt ≠ platformFdt → ∃ f, baseOverride E c.basePaths = some f ∧ f.content = b)
    (hwork : workingTree E platform c
      = if E.overrideFixup && fdt != platformFdt then
          fixedUpTree E c (E.lib.openInto b (E.lib.totalSize b)).2
        else some (E.lib.openInto b (E.lib.totalSize b)).2) :
    Yields Asserts (fun r : EfiStatus × FdtState β => Keeps ∅ s₀ r.2.pool
        ∧ (r.2.table = table
          ∨ (∃ f, baseOverride E c.basePaths = some f ∧ r.2.pool.Holds r.2.table f.content)
          ∨ ∃ base tree, workingTree E platform c = some base
            ∧ Built E.lib base (c.overlays E.readable) tree
            ∧ (baseOverride E c.basePaths ≠ none ∨ c.overlays E.readable ≠ [])
            ∧ r.2.pool.Holds r.2.table tree))
      (processFdt E platformFdt c fdt table s) := by
  unfold processFdt
  refine Yields.bind_ok (loadBuffer_of_holds h) ?_
  refine Yields.bind (fdtOpenIntoAlloc_spec h _ _ _) ?_
  rintro ⟨status, newFdt, s₁⟩ (⟨hst, rfl, hk₁, -⟩ | ⟨rfl, rfl, -, hh₁, hk₁⟩)
  · refine Yields.ite (fun _ => ⟨hk.trans hk₁ fun _ _ h => h, Or.inl rfl⟩) fun hok => ?_
    exact absurd (Fatal.error (Or.symm hst)) hok
  simp only [if_true] at hh₁ hk₁
  refine Yields.ite (fun hno => by simp at hno) fun _ => ?_
  -- the clone, fixed up or not, is the working tree
  have hfix : Yields Asserts (fun r : EfiStatus × ℕ × Pool β => ∃ base,
      Moved s.fresh s₁ r.2.1 r.2.2 base ∧ workingTree E platform c = some base)
      (applyOverrideFixups E platformFdt c fdt s.fresh s₁) := by
    rw [hwork]
    refine Yields.ite (fun hwant => ?_) fun hwant => ?_
    · rw [if_pos hwant]
      exact applyPlatformFdtFixups_spec E c hh₁
    · rw [if_neg hwant]
      exact ⟨_, Moved.refl hh₁, rfl⟩
  refine Yields.bind hfix ?_
  rintro ⟨_, newFdt, s₂⟩ ⟨base, hm₂, hbase⟩
  refine Yields.bind (processOverlayPaths_spec E c.overlayPaths 0 hm₂.holds Built.base) ?_
  rintro ⟨status, newFdt', count, s₃⟩ ⟨tree, hm₃, hbuilt⟩
  have hm := hm₂.trans hm₃
  simp only [List.nil_append, Nat.zero_add] at hbuilt hm ⊢
  have hk₃ : Keeps ∅ s s₃ := hk₁.trans hm.keeps fun p hp hpf => by
    obtain rfl : p = s.fresh := hpf
    exact absurd hp (Nat.lt_succ_self _).not_ge
  have hfresh : s.used < newFdt' := by
    rcases hm.place with rfl | hlt
    · exact Nat.lt_succ_self _
    · exact lt_of_le_of_lt hk₁.used hlt
  refine (installFdt_spec E c (hk.trans hk₃ fun _ _ h => h)
    (fun hpl => ⟨hfdt hpl, h.keeps hk₃ (Set.notMem_empty _)⟩) hm.holds
    (lt_of_le_of_lt hk.used hfresh) (lt_of_le_of_lt h.le hfresh).ne').mono ?_
  rintro r ⟨hkr, ht | ⟨hpl, ht, hh⟩ | ⟨ht, hh, hok, hcount⟩⟩
  · exact ⟨hkr, Or.inl ht⟩
  · obtain ⟨f, hf, rfl⟩ := hover hpl
    exact ⟨hkr, Or.inr (Or.inl ⟨f, hf, ht ▸ hh⟩)⟩
  · obtain ⟨hb, rfl⟩ := hbuilt hok
    refine ⟨hkr, Or.inr (Or.inr ⟨base, tree, hbase, hb, ?_, ht ▸ hh⟩)⟩
    rcases hcount with hpl | hpos
    · obtain ⟨f, hf, -⟩ := hover hpl
      exact Or.inl (by simp [hf])
    · exact Or.inr (List.ne_nil_of_length_pos hpos)

/-- The platform's tree is where the driver was told, and the table is empty or names a tree there
is. -/
structure FdtSound (platformFdt : ℕ) (platform : Option β) (s : FdtState β) : Prop where
  platform : platformFdt = 0 ∧ platform = none ∨ ∃ b, platform = some b ∧ s.pool.Holds platformFdt b
  table : s.table = 0 ∨ ∃ b, s.pool.Holds s.table b

theorem FdtSound.keeps {platformFdt : ℕ} {platform : Option β} {s s' : FdtState β}
    (h : FdtSound platformFdt platform s) (hk : Keeps ∅ s.pool s'.pool)
    (ht : s'.table = s.table ∨ ∃ b, s'.pool.Holds s'.table b) :
    FdtSound platformFdt platform s' := by
  refine ⟨?_, ?_⟩
  · rcases h.platform with hnull | ⟨b, hb, hh⟩
    · exact Or.inl hnull
    · exact Or.inr ⟨b, hb, hh.keeps hk (Set.notMem_empty _)⟩
  · rcases ht with ht | ht
    · rw [ht]
      rcases h.table with hnull | ⟨b, hh⟩
      · exact Or.inl hnull
      · exact Or.inr ⟨b, hh.keeps hk (Set.notMem_empty _)⟩
    · exact Or.inr ht

/-- A call keeps every tree there was, and installs one of those it can. -/
theorem fdtPlatformProcessFileSystem_spec {platformFdt : ℕ} {platform : Option β} {s : FdtState β}
    (h : FdtSound platformFdt platform s) (c : FdtCall β) :
    Yields Asserts (fun r : EfiStatus × FdtState β => Keeps ∅ s.pool r.2.pool
        ∧ FdtSound platformFdt platform r.2
        ∧ FdtOutcome E platform c (c.overlays E.readable) s r.2)
      (fdtPlatformProcessFileSystem E platformFdt c s) := by
  have htable : s.table ≤ s.pool.used := by
    rcases h.table with hnull | ⟨b, hh⟩
    · omega
    · exact hh.le
  have hkept : ∀ s' : FdtState β, Keeps ∅ s.pool s'.pool → s'.table = s.table →
      Keeps ∅ s.pool s'.pool ∧ FdtSound platformFdt platform s'
        ∧ FdtOutcome E platform c (c.overlays E.readable) s s' := by
    intro s' hk ht
    refine ⟨hk, h.keeps hk (Or.inl ht), FdtOutcome.kept ht ?_⟩
    rw [FdtState.installed, ht]
    exact hk.eq _ htable (Set.notMem_empty _)
  have hmono : ∀ x, Yields Asserts (fun r : EfiStatus × FdtState β => Keeps ∅ s.pool r.2.pool
        ∧ (r.2.table = s.table
          ∨ (∃ f, baseOverride E c.basePaths = some f ∧ r.2.pool.Holds r.2.table f.content)
          ∨ ∃ base tree, workingTree E platform c = some base
            ∧ Built E.lib base (c.overlays E.readable) tree
            ∧ (baseOverride E c.basePaths ≠ none ∨ c.overlays E.readable ≠ [])
            ∧ r.2.pool.Holds r.2.table tree)) x →
      Yields Asserts (fun r : EfiStatus × FdtState β => Keeps ∅ s.pool r.2.pool
        ∧ FdtSound platformFdt platform r.2
        ∧ FdtOutcome E platform c (c.overlays E.readable) s r.2) x := by
    intro x hx
    refine hx.mono ?_
    rintro r ⟨hk, ht | ⟨f, hf, hh⟩ | ⟨base, tree, hbase, hb, hor, hh⟩⟩
    · exact hkept r.2 hk ht
    · exact ⟨hk, h.keeps hk (Or.inr ⟨_, hh⟩), FdtOutcome.original hf hh.eq⟩
    · exact ⟨hk, h.keeps hk (Or.inr ⟨_, hh⟩), FdtOutcome.merged hbase hb hor hh.eq⟩
  unfold fdtPlatformProcessFileSystem
  refine Yields.ite (fun _ => hkept s (Keeps.refl _ _) rfl) fun _ => ?_
  refine Yields.bind (readBaseOverride_spec E c.basePaths _ _) ?_
  rintro ⟨status, fdt, pool⟩ ⟨hk, hnone, hsome⟩
  simp only [] at hk hnone hsome ⊢
  rcases hbase : baseOverride E c.basePaths with _ | f
  · rw [if_pos (hnone hbase)]
    refine Yields.ite (fun _ => hkept ⟨pool, s.table⟩ hk rfl) fun hne => ?_
    obtain ⟨b, hb, hh⟩ := h.platform.resolve_left fun hno => hne hno.1
    refine hmono _ (processFdt_spec E platformFdt platform c hk (hh.keeps hk (Set.notMem_empty _))
      (fun hno => absurd rfl hno) (fun hno => absurd rfl hno) ?_)
    simp [workingTree, hbase, hb]
  · obtain ⟨hlt, hh⟩ := hsome f hbase
    have hpl : fdt ≠ platformFdt := by
      rcases h.platform with ⟨hnull, -⟩ | ⟨b, -, hb⟩
      · omega
      · exact (lt_of_le_of_lt hb.le hlt).ne'
    rw [if_neg hh.pos.ne']
    refine hmono _ (processFdt_spec E platformFdt platform c hk hh (fun _ => hlt)
      (fun _ => ⟨f, hbase, rfl⟩) ?_)
    simp [workingTree, hbase, hpl]

/-- A call, after which the driver goes on from where it returned. -/
def fdtStep (platformFdt : ℕ) (s : FdtState β) (c : FdtCall β) : FdtState β :=
  match fdtPlatformProcessFileSystem E platformFdt c s with
  | .ok (_, s) => s
  | .error _ => s

theorem fdtStep_reached {platformFdt : ℕ} {platform : Option β} {s₀ s : FdtState β}
    (h₀ : FdtSound platformFdt platform s₀)
    (h : Reached (fdtStep E platformFdt) (fun _ _ => True) s₀ s) :
    FdtSound platformFdt platform s := by
  refine h.invariant (P := FdtSound platformFdt platform) h₀ fun s c hs _ => ?_
  have hc := fdtPlatformProcessFileSystem_spec E hs c
  unfold fdtStep
  rcases hr : fdtPlatformProcessFileSystem E platformFdt c s with _ | ⟨status, s'⟩ <;> rw [hr] at hc
  · exact hs
  · exact hc.2.1

/-- After any number of calls, the next one leaves the platform's tree alone and leaves installed the
tree that was, the override as it was read, or the working tree with all the overlays that could be
read. -/
theorem fdtPlatform_installs {platformFdt : ℕ} {platform : Option β} {s₀ s : FdtState β}
    (h₀ : FdtSound platformFdt platform s₀)
    (h : Reached (fdtStep E platformFdt) (fun _ _ => True) s₀ s) (c : FdtCall β) :
    Yields Asserts (fun r : EfiStatus × FdtState β =>
        (platformFdt ≠ 0 → r.2.pool.buffer platformFdt = platform)
        ∧ FdtOutcome E platform c (c.overlays E.readable) s r.2)
      (fdtPlatformProcessFileSystem E platformFdt c s) := by
  refine (fdtPlatformProcessFileSystem_spec E (fdtStep_reached E h₀ h) c).mono ?_
  rintro r ⟨-, hs, hout⟩
  refine ⟨fun hne => ?_, hout⟩
  obtain ⟨b, hb, hh⟩ := hs.platform.resolve_left fun hno => hne hno.1
  rw [hb]
  exact hh.eq

end Overlays

section Example

/-- Trees as lists, an overlay applied by appending it. -/
def listEnv : FdtEnv (List ℕ) where
  lib := ⟨fun _ => 0, fun _ => 0x4000, fun _ => 0, fun _ => 0, fun b _ => (0, b),
    fun b o => (0, b ++ o)⟩
  fixups := ⟨some, some, some, some, some, some, some⟩
  overrideFixup := false
  debugAssertEnabled := true

theorem Built.append {b c : List ℕ} {os : List (List ℕ)} (h : Built listEnv.lib b os c) :
    c = b ++ os.flatten := by
  induction h with
  | base => simp
  | opened _ hopen ih => exact (Prod.mk.inj hopen).2.symm.trans ih
  | applied _ happly ih =>
    rw [← (Prod.mk.inj happly).2, ih]
    simp

def fileOf (openStatus : EfiStatus) (content : List ℕ) : FileOutcome (List ℕ) :=
  ⟨openStatus, efiBufferTooSmall, 100, true, efiSuccess, true, efiSuccess, 40, content⟩

def overlayNamed (c : UInt16) (openStatus : EfiStatus) (content : List ℕ) : DirRead (List ℕ) :=
  ⟨efiSuccess, 98, 0, c :: dtboExtension, 40, fileOf openStatus content, true⟩

/-- A base tree, and two overlays of which the first cannot be opened. -/
def overlaidCall : FdtCall (List ℕ) where
  openVolumeStatus := efiSuccess
  basePaths := [none, some (fileOf efiSuccess [0])]
  cloneAllocated := true
  fixupAllocated := true
  overlayPaths := [none, some ⟨efiSuccess, true,
    [overlayNamed 0x61 efiDeviceError [1], overlayNamed 0x62 efiSuccess [2]]⟩]
  installStatus := efiSuccess

/-- The platform's tree is the only one, and installed. -/
def platformOnly : FdtState (List ℕ) := ⟨⟨1, fun p => if p = 1 then some [9] else none⟩, 1⟩

theorem platformOnly_sound : FdtSound 1 (some [9]) platformOnly :=
  ⟨Or.inr ⟨_, rfl, by decide, le_rfl, rfl⟩, Or.inr ⟨_, by decide, le_rfl, rfl⟩⟩

theorem overlaidCall_installs :
    ((fdtPlatformProcessFileSystem listEnv 1 overlaidCall platformOnly).toOption.map
      fun r => (r.2.table, r.2.installed)) = some (3, some [0, 2]) := by decide

theorem fdtPlatform_installs_overlaid :
    Yields Asserts (fun r : EfiStatus × FdtState (List ℕ) =>
        (1 ≠ 0 → r.2.pool.buffer 1 = some [9])
        ∧ FdtOutcome listEnv (some [9]) overlaidCall (overlaidCall.overlays listEnv.readable)
          platformOnly r.2)
      (fdtPlatformProcessFileSystem listEnv 1 overlaidCall platformOnly) :=
  fdtPlatform_installs listEnv platformOnly_sound Reached.start overlaidCall

/-- An overlay that cannot be opened is missing from the tree that is installed. -/
theorem fdtPlatform_omits_overlay :
    ¬ ∀ (E : FdtEnv (List ℕ)) (platformFdt : ℕ) (platform : Option (List ℕ))
      (s₀ s : FdtState (List ℕ)) (c : FdtCall (List ℕ)), FdtSound platformFdt platform s₀ →
      Reached (fdtStep E platformFdt) (fun _ _ => True) s₀ s →
      Yields Asserts (fun r => (platformFdt ≠ 0 → r.2.pool.buffer platformFdt = platform)
          ∧ FdtOutcome E platform c (c.overlays fun _ => true) s r.2)
        (fdtPlatformProcessFileSystem E platformFdt c s) := by
  intro h
  have hout := h listEnv 1 (some [9]) platformOnly platformOnly overlaidCall platformOnly_sound
    Reached.start
  have hr := overlaidCall_installs
  rcases hx : fdtPlatformProcessFileSystem listEnv 1 overlaidCall platformOnly with e | r <;>
    rw [hx] at hout hr
  · simp [Except.toOption] at hr
  · obtain ⟨ht, hi⟩ : r.2.table = 3 ∧ r.2.installed = some [0, 2] := by
      simpa [Except.toOption] using hr
    rcases hout.2 with ⟨hkept, -⟩ | ⟨hf, hc⟩ | ⟨hw, hb, -, hc⟩
    · rw [ht] at hkept
      exact absurd hkept (by decide)
    · have hbase : baseOverride listEnv overlaidCall.basePaths = some (fileOf efiSuccess [0]) := rfl
      obtain rfl := Option.some.inj (hf.symm.trans hbase)
      exact absurd (hi.symm.trans hc) (by decide)
    · obtain rfl := Option.some.inj (hw.symm.trans (by decide : _ = some [0]))
      rw [hi, hb.append] at hc
      exact absurd hc (by decide)

end Example

end Edk2Rk3576
