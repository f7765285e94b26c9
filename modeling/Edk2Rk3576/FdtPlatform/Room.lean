import Edk2Rk3576.FdtPlatform.Installed

/-!
# Room for overlays

A tree grows before an overlay is applied to it, to a size that `libfdt` takes as 32 bits. The
attempts of a call to apply overlays are listed (`overlayAttempts`), each with the memory before
and after room is made, and so is told what becomes of the tree and of its buffers.
-/

namespace Edk2Rk3576

open Pool

/-- Room is made for an overlay of `fileSize` bytes in the tree at `fdt`, which is then at `newFdt`;
the overlay is applied if there is no error. -/
structure OverlayAttempt (β : Type) where
  fdt : ℕ
  fileSize : ℕ
  before : Pool β
  status : EfiStatus
  newFdt : ℕ
  after : Pool β

section Attempts

variable {β : Type} (E : FdtEnv β)

/-- `installOverlays`, with the attempts it makes. -/
def installOverlaysLog : List (DirRead β) → (fdt count : ℕ) → Pool β →
    List (OverlayAttempt β) × Except FdtHalt (EfiStatus × ℕ × ℕ × Pool β)
  | [], fdt, count, s => ([], .ok (efiSuccess, fdt, count, s))
  | r :: rs, fdt, count, s =>
    if efiError r.status || r.infoSize == 0 then
      if E.debugAssertEnabled && (decide (dirEntryInfoSize < r.infoSize) || efiError r.status) then
        ([], .error .assertion)
      else ([], .ok (r.status, fdt, count, s))
    else if !r.isOverlay then installOverlaysLog rs fdt count s
    else
      match readFdtFromFilePath E.lib r.file (some r.fileSize) 0 s with
      | .error e => ([], .error e)
      | .ok (status, fileSize, overlay, s) =>
        if efiError status then
          if status = efiOutOfResources then ([], .ok (status, fdt, count, s))
          else installOverlaysLog rs fdt count s
        else
          match growFdt E.lib r.growAllocated (fileSize.getD 0) fdt s with
          | .error e => ([], .error e)
          | .ok (status, newFdt, s') =>
            let attempt := ⟨fdt, fileSize.getD 0, s, status, newFdt, s'⟩
            if efiError status then
              ([attempt], do
                let s ← freePool s' overlay
                .ok (status, newFdt, count, s))
            else
              match applyOverlay E.lib newFdt overlay s' with
              | .error e => ([attempt], .error e)
              | .ok (ret, s) =>
                if ret ≠ 0 then ([attempt], .ok (efiLoadError, newFdt, count, s))
                else
                  let rest := installOverlaysLog rs newFdt (count + 1) s
                  (attempt :: rest.1, rest.2)

theorem installOverlaysLog_snd : ∀ (rs : List (DirRead β)) (fdt count : ℕ) (s : Pool β),
    (installOverlaysLog E rs fdt count s).2 = installOverlays E rs fdt count s
  | [], _, _, _ => rfl
  | r :: rs, fdt, count, s => by
    unfold installOverlaysLog installOverlays
    by_cases hend : (efiError r.status || r.infoSize == 0) = true
    · rw [if_pos hend, if_pos hend]
      split_ifs <;> rfl
    rw [if_neg hend, if_neg hend]
    by_cases hov : (!r.isOverlay) = true
    · rw [if_pos hov, if_pos hov]
      exact installOverlaysLog_snd rs fdt count s
    rw [if_neg hov, if_neg hov]
    rcases readFdtFromFilePath E.lib r.file (some r.fileSize) 0 s with e | ⟨status, size, o, s₁⟩
    · rfl
    simp only [Except.bind, bind]
    by_cases hread : efiError status = true
    · rw [if_pos hread, if_pos hread]
      by_cases hout : status = efiOutOfResources
      · rw [if_pos hout, if_pos hout]
      · rw [if_neg hout, if_neg hout]
        exact installOverlaysLog_snd rs fdt count s₁
    rw [if_neg hread, if_neg hread]
    rcases growFdt E.lib r.growAllocated (size.getD 0) fdt s₁ with e | ⟨status₂, fdt₂, s₂⟩
    · rfl
    simp only []
    by_cases hgrow : efiError status₂ = true
    · rw [if_pos hgrow, if_pos hgrow]
    rw [if_neg hgrow, if_neg hgrow]
    rcases applyOverlay E.lib fdt₂ o s₂ with e | ⟨ret, s₃⟩
    · rfl
    simp only []
    by_cases hret : ret ≠ 0
    · rw [if_pos hret, if_pos hret]
    · rw [if_neg hret, if_neg hret]
      exact installOverlaysLog_snd rs fdt₂ (count + 1) s₃

/-- `installOverlaysFromDirectoryPath`, with the attempts it makes. -/
def installOverlaysFromDirectoryPathLog (d : DirOutcome β) (fdt count : ℕ) (s : Pool β) :
    List (OverlayAttempt β) × Except FdtHalt (EfiStatus × ℕ × ℕ × Pool β) :=
  if efiError d.openStatus then ([], .ok (d.openStatus, fdt, count, s))
  else if !d.infoAllocated then ([], .ok (efiOutOfResources, fdt, count, s))
  else installOverlaysLog E d.reads fdt count s

theorem installOverlaysFromDirectoryPathLog_snd (d : DirOutcome β) (fdt count : ℕ) (s : Pool β) :
    (installOverlaysFromDirectoryPathLog E d fdt count s).2
      = installOverlaysFromDirectoryPath E d fdt count s := by
  unfold installOverlaysFromDirectoryPathLog installOverlaysFromDirectoryPath
  split_ifs
  · rfl
  · rfl
  · exact installOverlaysLog_snd E d.reads fdt count s

/-- `processOverlayPaths`, with the attempts it makes. -/
def processOverlayPathsLog : List (Option (DirOutcome β)) → EfiStatus → (fdt count : ℕ) →
    Pool β → List (OverlayAttempt β) × Except FdtHalt (EfiStatus × ℕ × ℕ × Pool β)
  | [], status, fdt, count, s => ([], .ok (status, fdt, count, s))
  | none :: paths, status, fdt, count, s => processOverlayPathsLog paths status fdt count s
  | some d :: paths, _, fdt, count, s =>
    match installOverlaysFromDirectoryPathLog E d fdt count s with
    | (attempts, .error e) => (attempts, .error e)
    | (attempts, .ok (status, fdt, count, s)) =>
      if status = efiLoadError ∨ status = efiOutOfResources then
        (attempts, .ok (status, fdt, count, s))
      else
        let rest := processOverlayPathsLog paths efiSuccess fdt count s
        (attempts ++ rest.1, rest.2)

theorem processOverlayPathsLog_snd : ∀ (paths : List (Option (DirOutcome β))) (status : EfiStatus)
    (fdt count : ℕ) (s : Pool β), (processOverlayPathsLog E paths status fdt count s).2
      = processOverlayPaths E paths status fdt count s
  | [], _, _, _, _ => rfl
  | none :: paths, status, fdt, count, s => processOverlayPathsLog_snd paths status fdt count s
  | some d :: paths, _, fdt, count, s => by
    unfold processOverlayPathsLog processOverlayPaths
    rw [← installOverlaysFromDirectoryPathLog_snd]
    rcases installOverlaysFromDirectoryPathLog E d fdt count s with ⟨as, e | ⟨status, fdt₁, n, s₁⟩⟩
    · rfl
    simp only [Except.bind, bind]
    by_cases hfatal : status = efiLoadError ∨ status = efiOutOfResources
    · rw [if_pos hfatal, if_pos hfatal]
    · rw [if_neg hfatal, if_neg hfatal]
      exact processOverlayPathsLog_snd paths efiSuccess fdt₁ n s₁

/-- The clone of the base tree, fixed up where that is wanted: what the overlays of a call are
applied to. -/
def cloneFdt (platformFdt : ℕ) (c : FdtCall β) (fdt : ℕ) (s : Pool β) :
    Except FdtHalt (EfiStatus × ℕ × Pool β) := do
  let b ← loadBuffer s fdt
  let (status, newFdt, s) ←
    fdtOpenIntoAlloc E.lib c.cloneAllocated true fdt (E.lib.totalSize b) s
  if efiError status then .ok (status, newFdt, s)
  else
    let (_, newFdt, s) ← applyOverrideFixups E platformFdt c fdt newFdt s
    .ok (status, newFdt, s)

/-- `processFdt` up to where it has applied overlays. -/
theorem processFdt_eq (platformFdt : ℕ) (c : FdtCall β) (fdt table : ℕ) (s : Pool β) :
    processFdt E platformFdt c fdt table s = (do
      let (status, newFdt, s) ← cloneFdt E platformFdt c fdt s
      if efiError status then .ok (status, ⟨s, table⟩)
      else
        let (status, newFdt, count, s) ←
          (processOverlayPathsLog E c.overlayPaths status newFdt 0 s).2
        installFdt E c status fdt newFdt count platformFdt table s) := by
  unfold processFdt cloneFdt
  simp only [processOverlayPathsLog_snd]
  rcases loadBuffer s fdt with e | b
  · rfl
  simp only [Except.bind, bind]
  rcases fdtOpenIntoAlloc E.lib c.cloneAllocated true fdt (E.lib.totalSize b) s with
    e | ⟨status, newFdt, s₁⟩
  · rfl
  simp only []
  by_cases herr : efiError status = true
  · rw [if_pos herr, if_pos herr]
    simp only [herr, if_true]
  · rw [if_neg herr, if_neg herr]
    rcases applyOverrideFixups E platformFdt c fdt newFdt s₁ with e | ⟨_, newFdt, s₂⟩
    · rfl
    · simp only [herr, Bool.false_eq_true, if_false]

/-- The attempts of `processFdt`. -/
def fdtAttempts (platformFdt : ℕ) (c : FdtCall β) (fdt : ℕ) (s : Pool β) :
    List (OverlayAttempt β) :=
  match cloneFdt E platformFdt c fdt s with
  | .error _ => []
  | .ok (status, newFdt, s) =>
    if efiError status then []
    else (processOverlayPathsLog E c.overlayPaths status newFdt 0 s).1

/-- The attempts of a call to apply overlays. -/
def overlayAttempts (platformFdt : ℕ) (c : FdtCall β) (s : FdtState β) :
    List (OverlayAttempt β) :=
  if efiError c.openVolumeStatus then []
  else
    match readBaseOverride E c.basePaths c.openVolumeStatus 0 s.pool with
    | .error _ => []
    | .ok (_, fdt, pool) =>
      if fdt = 0 then if platformFdt = 0 then [] else fdtAttempts E platformFdt c platformFdt pool
      else fdtAttempts E platformFdt c fdt pool

end Attempts

/-- What `libfdt` documents. `used` is where the last block of a tree ends, which is the strings
block where the blocks are `ordered`; `tree` is what the blocks say. The size of a tree is 32 bits
of its header, and `openInto` takes it as an `INT32`. -/
structure FdtLib.Documented {β τ : Type} (L : FdtLib β) (ordered : β → Prop) (used : β → ℕ)
    (tree : β → τ) : Prop where
  used_eq : ∀ {b}, ordered b → L.offsetDtStrings b + L.sizeDtStrings b = used b
  used_le : ∀ {b}, ordered b → used b ≤ L.totalSize b
  openInto : ∀ {b c size}, L.openInto b size = (0, c) → ordered c ∧ tree c = tree b
    ∧ L.totalSize c = size % 2 ^ 32 ∧ L.totalSize c < 2 ^ 31
  used_openInto : ∀ {b c size}, ordered b → L.openInto b size = (0, c) → used c = used b
  overlayApply : ∀ {b c o}, ordered b → L.overlayApply b o = (0, c) →
    ordered c ∧ L.totalSize c = L.totalSize b

/-- Edits a tree with `libfdt`, in the buffer it has. -/
def FdtLib.Edits {β : Type} (L : FdtLib β) (ordered : β → Prop) (f : β → Option β) : Prop :=
  ∀ b c, ordered b → f b = some c → ordered c ∧ L.totalSize c = L.totalSize b

structure PlatformFixups.Edits {β : Type} (F : PlatformFixups β) (L : FdtLib β)
    (ordered : β → Prop) : Prop where
  fixupComboPhyDevices : L.Edits ordered F.fixupComboPhyDevices
  fixupPcieResources : L.Edits ordered F.fixupPcieResources
  fixupVopDevices : L.Edits ordered F.fixupVopDevices
  fixupNorFlashDevices : L.Edits ordered F.fixupNorFlashDevices
  fixupUfsDevices : L.Edits ordered F.fixupUfsDevices
  fixupUsbDrd0 : L.Edits ordered F.fixupUsbDrd0
  fixupChosen : L.Edits ordered F.fixupChosen

/-- A tree that `openInto` wrote, and that has been edited since at most. -/
structure FdtLib.Opened {β : Type} (L : FdtLib β) (ordered : β → Prop) (b : β) : Prop where
  ordered : ordered b
  totalSize : L.totalSize b < 2 ^ 31

/-- The size asked for, or there already, is 32 bits. -/
def OverlayAttempt.SizeFits {β : Type} (L : FdtLib β) (a : OverlayAttempt β) : Prop :=
  ∀ b, a.before.buffer a.fdt = some b → L.totalSize b + max a.fileSize size8KB < 2 ^ 32

/-- Where the overlay is applied there is room for it in a tree that says the same; where it is
not, the tree is where it was and no buffer has changed hands. -/
structure OverlayAttempt.Sound {β τ : Type} (L : FdtLib β) (used : β → ℕ) (tree : β → τ)
    (a : OverlayAttempt β) : Prop where
  room : efiError a.status = false →
    ∃ c, a.after.buffer a.newFdt = some c ∧ used c + a.fileSize ≤ L.totalSize c
  tree : efiError a.status = false → ∃ b c, a.before.buffer a.fdt = some b
    ∧ a.after.buffer a.newFdt = some c ∧ tree c = tree b
  freed : efiError a.status = false → a.newFdt ≠ a.fdt → a.after.buffer a.fdt = none
  failed : efiError a.status = true → a.newFdt = a.fdt ∧ a.after.buffer = a.before.buffer

section Steps

variable {β τ : Type} {L : FdtLib β} {ordered : β → Prop} {used : β → ℕ} {tree : β → τ}
  {s : Pool β} {fdt : ℕ} {b : β}

theorem FdtLib.Edits.bind {f g : β → Option β} (hf : L.Edits ordered f) (hg : L.Edits ordered g) :
    L.Edits ordered fun b => f b >>= g := by
  intro b d hb hd
  obtain ⟨c, hc, hd⟩ := Option.bind_eq_some_iff.1 hd
  obtain ⟨hco, hct⟩ := hf b c hb hc
  obtain ⟨hdo, hdt⟩ := hg c d hco hd
  exact ⟨hdo, hdt.trans hct⟩

theorem PlatformFixups.Edits.apply {F : PlatformFixups β} (h : F.Edits L ordered) :
    L.Edits ordered F.apply :=
  h.fixupComboPhyDevices.bind <| h.fixupPcieResources.bind <| h.fixupVopDevices.bind <|
    h.fixupNorFlashDevices.bind <| h.fixupUfsDevices.bind <| h.fixupUsbDrd0.bind h.fixupChosen

theorem room_iff {u t n t' : ℕ} (hu : u ≤ t) (ht : t < 2 ^ 31) (ht' : t' < 2 ^ 31)
    (h : t' = if t ≤ (u + n) % 2 ^ 64 then (t + max n size8KB) % 2 ^ 64 % 2 ^ 32 else t) :
    u + n ≤ t' ↔ t + max n size8KB < 2 ^ 32 := by
  unfold size8KB at h ⊢
  split_ifs at h with hgrow <;> omega

theorem fdtOpenIntoAlloc_only (hs : s.Clean) (h : s.Holds fdt b) (allocated destination : Bool)
    (size : ℕ) :
    Yields Asserts (fun r : EfiStatus × ℕ × Pool β =>
        (efiError r.1 = true → r.2.1 = fdt ∧ Only ∅ s r.2.2)
        ∧ (efiError r.1 = false → r.2.2.Holds r.2.1 (L.openInto b size).2
          ∧ (L.openInto b size).1 = 0 ∧ r.2.1 = s.fresh
          ∧ if destination then Only {s.fresh} s r.2.2 else Swapped fdt s s.fresh r.2.2))
      (fdtOpenIntoAlloc L allocated destination fdt size s) := by
  unfold fdtOpenIntoAlloc
  have hno {e : ℕ} : efiError (encodeError e) ≠ false := by simp [efiError_encodeError]
  refine Yields.ite (fun _ => ⟨fun _ => ⟨rfl, Only.refl _ hs⟩, fun h => absurd h hno⟩) fun _ => ?_
  refine Yields.bind_ok (loadBuffer_of_holds h) ?_
  have hnew := holds_allocate (s := s) (b := (L.openInto b size).2)
  have honly := only_allocate (b := (L.openInto b size).2) hs
  refine Yields.ite (fun _ => ?_) fun hret => ?_
  · refine Yields.bind_ok (freePool_of_holds hnew) ⟨fun _ => ⟨rfl, ?_⟩, fun h => absurd h hno⟩
    exact only_allocate_release hs
  have hret : (L.openInto b size).1 = 0 := not_not.1 hret
  refine Yields.ite (fun hd => ?_) fun hd => ?_
  · refine ⟨fun hno => by simp at hno, fun _ => ⟨hnew, hret, rfl, ?_⟩⟩
    rw [if_pos hd]
    exact honly
  · have hold := h.keeps (keeps_allocate (b := (L.openInto b size).2)) (Set.notMem_empty _)
    refine Yields.bind_ok (freePool_of_holds hold) ⟨fun hno => by simp at hno, fun _ => ?_⟩
    refine ⟨hnew.keeps keeps_release h.ne_fresh.symm, hret, rfl, ?_⟩
    rw [if_neg hd]
    have hrel := only_release (p := fdt) honly.clean
    refine ⟨(honly.mono ?_).trans (hrel.mono ?_), fun _ => release_buffer, ?_⟩
    · exact Set.singleton_subset_iff.2 (Set.mem_insert_of_mem _ rfl)
    · exact Set.singleton_subset_iff.2 (Set.mem_insert _ _)
    · exact Or.inr (Nat.lt_succ_self _)

theorem readFdtExit_only (hs : s.Clean) {o : β} (status : EfiStatus) (size : Option ℕ) :
    Yields Asserts (fun r : EfiStatus × Option ℕ × ℕ × Pool β =>
        (efiError r.1 = true → Only ∅ s r.2.2.2)
        ∧ (efiError r.1 = false → r.2.2.1 = s.fresh ∧ r.2.2.2 = s.allocate o))
      (readFdtExit status size s.fresh (s.allocate o)) := by
  unfold readFdtExit
  refine Yields.ite (fun h => ?_) fun h => ?_
  · obtain ⟨herr, -⟩ := Bool.and_eq_true_iff.1 h
    refine Yields.bind_ok (freePool_of_holds holds_allocate) ⟨fun _ => only_allocate_release hs, ?_⟩
    exact fun hno => by simp [herr] at hno
  · have hok : efiError status = false := by simpa [fresh] using h
    exact ⟨fun hno => by simp [hok] at hno, fun _ => ⟨rfl, rfl⟩⟩

theorem readFdtExit_null (hs : s.Clean) {o : β} {status : EfiStatus} (size : Option ℕ)
    (h : efiError status = true) :
    Yields Asserts (fun r : EfiStatus × Option ℕ × ℕ × Pool β =>
        (efiError r.1 = true → Only ∅ s r.2.2.2)
        ∧ (efiError r.1 = false → r.2.2.1 = s.fresh ∧ r.2.2.2 = s.allocate o))
      (readFdtExit status size 0 s) := by
  unfold readFdtExit
  simp only [bne_self_eq_false, Bool.and_false, Bool.false_eq_true, if_false]
  exact ⟨fun _ => Only.refl _ hs, fun hno => by simp [h] at hno⟩

/-- A file that is read takes one buffer, and one that is not takes none. -/
theorem readFdtFromFilePath_only (hs : s.Clean) (f : FileOutcome β) (size : Option ℕ) :
    Yields Asserts (fun r : EfiStatus × Option ℕ × ℕ × Pool β =>
        (efiError r.1 = true → Only ∅ s r.2.2.2)
        ∧ (efiError r.1 = false → r.2.2.1 = s.fresh ∧ r.2.2.2 = s.allocate f.content))
      (readFdtFromFilePath L f size 0 s) := by
  unfold readFdtFromFilePath
  refine Yields.ite (fun herr => ⟨fun _ => Only.refl _ hs, fun hno => by simp [herr] at hno⟩) ?_
  refine fun _ => Yields.ite (fun hinfo => ?_) fun _ => Yields.ite (fun _ => ?_) fun _ => ?_
  · exact readFdtExit_null hs _ (Bool.and_eq_true_iff.1 hinfo).2
  · exact readFdtExit_null hs _ (efiError_encodeError 9)
  refine Yields.ite (fun _ => readFdtExit_only hs _ _) fun _ => Yields.ite (fun _ => ?_) fun _ => ?_
  · exact readFdtExit_only hs _ _
  · exact readFdtExit_only hs _ _

theorem growFdt_only (hL : L.Documented ordered used tree) (hs : s.Clean) (h : s.Holds fdt b)
    (hb : L.Opened ordered b) (allocated : Bool) (size : ℕ) :
    Yields Asserts (fun r : EfiStatus × ℕ × Pool β =>
        (efiError r.1 = true → r.2.1 = fdt ∧ Only ∅ s r.2.2)
        ∧ (efiError r.1 = false → Swapped fdt s r.2.1 r.2.2 ∧ ∃ c, r.2.2.Holds r.2.1 c
          ∧ L.Opened ordered c ∧ tree c = tree b
          ∧ (used c + size ≤ L.totalSize c ↔ L.totalSize b + max size size8KB < 2 ^ 32)))
      (growFdt L allocated size fdt s) := by
  unfold growFdt
  refine Yields.bind_ok (loadBuffer_of_holds h) ?_
  have hle := hL.used_le hb.ordered
  have hused : fdtUsedSize L b = used b := by
    have hlt := hb.totalSize
    rw [fdtUsedSize, hL.used_eq hb.ordered]
    exact Nat.mod_eq_of_lt (by omega)
  rw [hused]
  refine Yields.ite (fun hgrow => ?_) fun hroom => ?_
  · refine (fdtOpenIntoAlloc_only hs h allocated false _).mono ?_
    rintro ⟨status, p, s'⟩ ⟨hfail, hok⟩
    refine ⟨hfail, fun hst => ?_⟩
    obtain ⟨hc, hret, rfl, hswap⟩ := hok hst
    obtain ⟨hord, htree, htotal, hlt⟩ := hL.openInto (Prod.ext hret rfl)
    refine ⟨hswap, _, hc, ⟨hord, hlt⟩, htree, ?_⟩
    rw [hL.used_openInto hb.ordered (Prod.ext hret rfl)]
    exact room_iff hle hb.totalSize hlt (by rw [if_pos hgrow, htotal])
  · refine ⟨fun hno => by simp at hno, fun _ => ⟨Swapped.refl hs, b, h, hb, rfl, ?_⟩⟩
    exact room_iff hle hb.totalSize hb.totalSize (by rw [if_neg hroom])

theorem applyOverlay_only (hs : s.Clean) {overlay : ℕ} {o : β} (h : s.Holds fdt b)
    (ho : s.Holds overlay o) (hne : overlay ≠ fdt) :
    Yields Asserts (fun r : ℤ × Pool β => r.1 = (L.overlayApply b o).1
        ∧ r.2.Holds fdt (L.overlayApply b o).2 ∧ Only {fdt, overlay} s r.2
        ∧ r.2.buffer overlay = none)
      (applyOverlay L fdt overlay s) := by
  unfold applyOverlay
  refine Yields.bind_ok (loadBuffer_of_holds h) (Yields.bind_ok (loadBuffer_of_holds ho) ?_)
  refine Yields.bind_ok (freePool_of_holds (ho.keeps keeps_store hne)) ⟨rfl, ?_, ?_, release_buffer⟩
  · exact (holds_store h).keeps keeps_release hne.symm
  · have hstore := only_store (b := (L.overlayApply b o).2) hs h.le
    have hrel := only_release (p := overlay) hstore.clean
    refine (hstore.mono ?_).trans (hrel.mono ?_)
    · exact Set.singleton_subset_iff.2 (Set.mem_insert _ _)
    · exact Set.singleton_subset_iff.2 (Set.mem_insert_of_mem _ rfl)

/-- What making room comes to is the account of an attempt. -/
structure OverlayAttempt.Made (L : FdtLib β) (ordered : β → Prop) (used : β → ℕ) (tree : β → τ)
    (b : β) (a : OverlayAttempt β) : Prop where
  failed : efiError a.status = true → a.newFdt = a.fdt ∧ Only ∅ a.before a.after
  made : efiError a.status = false → Swapped a.fdt a.before a.newFdt a.after ∧
    ∃ c, a.after.Holds a.newFdt c ∧ L.Opened ordered c ∧ tree c = tree b
      ∧ (used c + a.fileSize ≤ L.totalSize c ↔ L.totalSize b + max a.fileSize size8KB < 2 ^ 32)

theorem OverlayAttempt.Made.sound_iff {a : OverlayAttempt β} (h : a.Made L ordered used tree b)
    (hb : a.before.Holds a.fdt b) :
    a.Sound L used tree ↔ (efiError a.status = false → a.SizeFits L) := by
  constructor
  · intro hsound hok b' hb'
    obtain rfl : b = b' := Option.some.inj (hb.eq.symm.trans hb')
    obtain ⟨-, c, hc, -, -, hiff⟩ := h.made hok
    obtain ⟨c', hc', hroom⟩ := hsound.room hok
    obtain rfl : c = c' := Option.some.inj (hc.eq.symm.trans hc')
    exact hiff.1 hroom
  · intro hsize
    refine ⟨fun hok => ?_, fun hok => ?_, fun hok => ?_, fun herr => ?_⟩
    · obtain ⟨-, c, hc, -, -, hiff⟩ := h.made hok
      exact ⟨c, hc.eq, hiff.2 (hsize hok b hb.eq)⟩
    · obtain ⟨-, c, hc, -, htree, -⟩ := h.made hok
      exact ⟨b, c, hb.eq, hc.eq, htree⟩
    · exact (h.made hok).1.freed
    · obtain ⟨hfdt, honly⟩ := h.failed herr
      exact ⟨hfdt, funext fun p => honly.eq p (Set.notMem_empty _)⟩

end Steps

section Run

variable {β τ : Type} {E : FdtEnv β} {ordered : β → Prop} {used : β → ℕ} {tree : β → τ}

/-- What a run over overlays comes to: its attempts are sound where their sizes fit, and the tree
is, in a buffer of its own, the only thing it has changed. -/
structure OverlaysRun (E : FdtEnv β) (ordered : β → Prop) (used : β → ℕ) (tree : β → τ) (fdt : ℕ)
    (s : Pool β)
    (x : List (OverlayAttempt β) × Except FdtHalt (EfiStatus × ℕ × ℕ × Pool β)) : Prop where
  sound : ∀ a ∈ x.1,
    a.Sound E.lib used tree ↔ (efiError a.status = false → a.SizeFits E.lib)
  result : Yields Asserts (fun r : EfiStatus × ℕ × ℕ × Pool β => Swapped fdt s r.2.1 r.2.2.2
    ∧ ∃ c, r.2.2.2.Holds r.2.1 c ∧ (¬ Fatal r.1 → E.lib.Opened ordered c)) x.2

theorem OverlaysRun.stop {s s' : Pool β} {fdt fdt' count : ℕ} {status : EfiStatus} {b : β}
    (hs : Swapped fdt s fdt' s') (h : s'.Holds fdt' b) (hb : ¬ Fatal status → E.lib.Opened ordered b) :
    OverlaysRun E ordered used tree fdt s ([], .ok (status, fdt', count, s')) :=
  ⟨fun _ ha => absurd ha List.not_mem_nil, hs, b, h, hb⟩

theorem OverlaysRun.assertion {s : Pool β} {fdt : ℕ} :
    OverlaysRun E ordered used tree fdt s ([], .error .assertion) :=
  ⟨fun _ ha => absurd ha List.not_mem_nil, rfl⟩

/-- A run from where the tree has got to. -/
theorem OverlaysRun.after {s s' : Pool β} {fdt fdt' : ℕ}
    {x : List (OverlayAttempt β) × Except FdtHalt (EfiStatus × ℕ × ℕ × Pool β)}
    (h : OverlaysRun E ordered used tree fdt' s' x) (hc : s.Clean) (hs : Swapped fdt s fdt' s') :
    OverlaysRun E ordered used tree fdt s x :=
  ⟨h.sound, h.result.mono fun _ ⟨hswap, htree⟩ => ⟨hs.trans hc hswap, htree⟩⟩

theorem OverlaysRun.cons {s : Pool β} {fdt : ℕ} {a : OverlayAttempt β}
    {x : List (OverlayAttempt β) × Except FdtHalt (EfiStatus × ℕ × ℕ × Pool β)}
    (ha : a.Sound E.lib used tree ↔ (efiError a.status = false → a.SizeFits E.lib))
    (h : OverlaysRun E ordered used tree fdt s x) :
    OverlaysRun E ordered used tree fdt s (a :: x.1, x.2) := by
  refine ⟨fun a' ha' => ?_, h.result⟩
  rcases List.mem_cons.1 ha' with rfl | ha'
  · exact ha
  · exact h.sound a' ha'

theorem installOverlaysLog_spec (hL : E.lib.Documented ordered used tree) :
    ∀ (rs : List (DirRead β)) {s : Pool β} {fdt : ℕ} {b : β} (count : ℕ), s.Clean →
      s.Holds fdt b → E.lib.Opened ordered b →
      OverlaysRun E ordered used tree fdt s (installOverlaysLog E rs fdt count s)
  | [], s, fdt, b, count, hs, h, hb => OverlaysRun.stop (Swapped.refl hs) h fun _ => hb
  | r :: rs, s, fdt, b, count, hs, h, hb => by
    unfold installOverlaysLog
    by_cases hend : (efiError r.status || r.infoSize == 0) = true
    · rw [if_pos hend]
      split_ifs
      · exact OverlaysRun.assertion
      · exact OverlaysRun.stop (Swapped.refl hs) h fun _ => hb
    rw [if_neg hend]
    by_cases hov : (!r.isOverlay) = true
    · rw [if_pos hov]
      exact installOverlaysLog_spec hL rs count hs h hb
    rw [if_neg hov]
    have hread := readFdtFromFilePath_only (L := E.lib) hs r.file (some r.fileSize)
    rcases hx : readFdtFromFilePath E.lib r.file (some r.fileSize) 0 s with
      e | ⟨status, size, overlay, s₁⟩ <;> rw [hx] at hread
    · obtain rfl : e = .assertion := hread
      exact OverlaysRun.assertion
    obtain ⟨hunread, hread⟩ := hread
    simp only [] at hunread hread ⊢
    by_cases hst : efiError status = true
    · rw [if_pos hst]
      have hnone : Swapped fdt s fdt s₁ := ((hunread hst).mono (Set.empty_subset _)).swapped
      have h₁ : s₁.Holds fdt b := h.only (hunread hst) (Set.notMem_empty _)
      split_ifs
      · exact OverlaysRun.stop hnone h₁ fun _ => hb
      · exact (installOverlaysLog_spec hL rs count hnone.only.clean h₁ hb).after hs hnone
    rw [if_neg hst]
    obtain ⟨rfl, rfl⟩ := hread (Bool.eq_false_iff.2 hst)
    have hone : Only {s.fresh} s (s.allocate r.file.content) := only_allocate hs
    have h₁ : (s.allocate r.file.content).Holds fdt b := h.keeps keeps_allocate (Set.notMem_empty _)
    have hgrow := growFdt_only hL hone.clean h₁ hb r.growAllocated (size.getD 0)
    rcases hy : growFdt E.lib r.growAllocated (size.getD 0) fdt (s.allocate r.file.content) with
      e | ⟨status₂, fdt₂, s₂⟩ <;> rw [hy] at hgrow
    · obtain rfl : e = .assertion := hgrow
      exact OverlaysRun.assertion
    obtain ⟨hfail, hmade⟩ := hgrow
    have hattempt := (OverlayAttempt.Made.mk (a := ⟨fdt, size.getD 0, s.allocate r.file.content,
      status₂, fdt₂, s₂⟩) hfail hmade).sound_iff h₁
    have ho : (s.allocate r.file.content).Holds s.fresh r.file.content := holds_allocate
    simp only [] at hfail hmade ⊢
    by_cases hst₂ : efiError status₂ = true
    · -- the overlay is freed, and the tree is where it was
      rw [if_pos hst₂]
      obtain ⟨rfl, honly⟩ := hfail hst₂
      have ho₂ : s₂.Holds s.fresh r.file.content := ho.only honly (Set.notMem_empty _)
      have hfree : Only {s.fresh} s₂ (s₂.release s.fresh) := only_release honly.clean
      have h₃ : (s₂.release s.fresh).Holds fdt₂ b :=
        (h₁.only honly (Set.notMem_empty _)).only hfree h.ne_fresh
      have hnone : Only {s.fresh} s (s₂.release s.fresh) :=
        (hone.trans (honly.mono (Set.empty_subset _))).trans hfree
      rw [← insert_empty_eq] at hnone
      have hsame := (hnone.drop (release_buffer.trans hs.fresh.symm)).mono (Set.empty_subset {fdt₂})
      rw [freePool_of_holds ho₂]
      have hstop : OverlaysRun E ordered used tree fdt₂ s
          ([], .ok (status₂, fdt₂, count, s₂.release s.fresh)) :=
        OverlaysRun.stop hsame.swapped h₃ fun _ => hb
      exact OverlaysRun.cons hattempt hstop
    · rw [if_neg hst₂]
      obtain ⟨hswap, c, hc, hopened, -, -⟩ := hmade (Bool.eq_false_iff.2 hst₂)
      have hne : s.fresh ≠ fdt₂ := by
        rcases hswap.place with rfl | hlt
        · exact h.ne_fresh.symm
        · exact (lt_of_le_of_lt ho.le hlt).ne
      have ho₂ : s₂.Holds s.fresh r.file.content := ho.only hswap.only (by simp [h.ne_fresh.symm, hne])
      have happly := applyOverlay_only (L := E.lib) hswap.only.clean hc ho₂ hne
      rcases hz : applyOverlay E.lib fdt₂ s.fresh s₂ with e | ⟨ret, s₃⟩ <;> rw [hz] at happly
      · obtain rfl : e = .assertion := happly
        exact OverlaysRun.cons hattempt OverlaysRun.assertion
      obtain ⟨rfl, hc₃, honly, hgone⟩ := happly
      have hswap₃ := Swapped.within hone hswap honly h.ne_fresh hs.fresh hgone
      simp only []
      by_cases hret : (E.lib.overlayApply c r.file.content).1 ≠ 0
      · rw [if_pos hret]
        have hstop : OverlaysRun E ordered used tree fdt s ([], .ok (efiLoadError, fdt₂, count, s₃)) :=
          OverlaysRun.stop hswap₃ hc₃ fun hno => absurd (Or.inl rfl) hno
        exact OverlaysRun.cons hattempt hstop
      · rw [if_neg hret]
        obtain ⟨hord, htotal⟩ :=
          hL.overlayApply hopened.ordered (Prod.ext (not_not.1 hret) rfl)
        have hopened₃ : E.lib.Opened ordered _ := ⟨hord, htotal.trans_lt hopened.totalSize⟩
        have hrest := installOverlaysLog_spec hL rs (count + 1) honly.clean hc₃ hopened₃
        exact OverlaysRun.cons hattempt (hrest.after hs hswap₃)

theorem installOverlaysFromDirectoryPathLog_spec (hL : E.lib.Documented ordered used tree)
    (d : DirOutcome β) {s : Pool β} {fdt : ℕ} {b : β} (count : ℕ) (hs : s.Clean)
    (h : s.Holds fdt b) (hb : E.lib.Opened ordered b) :
    OverlaysRun E ordered used tree fdt s (installOverlaysFromDirectoryPathLog E d fdt count s) := by
  unfold installOverlaysFromDirectoryPathLog
  split_ifs
  · exact OverlaysRun.stop (Swapped.refl hs) h fun _ => hb
  · exact OverlaysRun.stop (Swapped.refl hs) h fun _ => hb
  · exact installOverlaysLog_spec hL d.reads count hs h hb

theorem processOverlayPathsLog_spec (hL : E.lib.Documented ordered used tree) :
    ∀ (paths : List (Option (DirOutcome β))) {s : Pool β} {fdt : ℕ} {b : β} (status : EfiStatus)
      (count : ℕ), s.Clean → s.Holds fdt b → E.lib.Opened ordered b →
      OverlaysRun E ordered used tree fdt s (processOverlayPathsLog E paths status fdt count s)
  | [], s, fdt, b, status, count, hs, h, hb => OverlaysRun.stop (Swapped.refl hs) h fun _ => hb
  | none :: paths, s, fdt, b, status, count, hs, h, hb =>
    processOverlayPathsLog_spec hL paths status count hs h hb
  | some d :: paths, s, fdt, b, _, count, hs, h, hb => by
    unfold processOverlayPathsLog
    have hdir := installOverlaysFromDirectoryPathLog_spec hL d count hs h hb
    rcases hx : installOverlaysFromDirectoryPathLog E d fdt count s with
      ⟨as, e | ⟨status, fdt₁, n, s₁⟩⟩ <;> rw [hx] at hdir
    · exact hdir
    obtain ⟨hswap, c, hc, hopened⟩ := hdir.result
    simp only []
    by_cases hfatal : status = efiLoadError ∨ status = efiOutOfResources
    · rw [if_pos hfatal]
      exact hdir
    · rw [if_neg hfatal]
      have hrest := processOverlayPathsLog_spec hL paths efiSuccess n hswap.only.clean hc
        (hopened hfatal)
      refine ⟨fun a ha => ?_, (hrest.after hs hswap).result⟩
      rcases List.mem_append.1 ha with ha | ha
      · exact hdir.sound a ha
      · exact hrest.sound a ha

/-- The working tree is opened, and takes one buffer. -/
theorem cloneFdt_spec (hL : E.lib.Documented ordered used tree) (hF : E.fixups.Edits E.lib ordered)
    (platformFdt : ℕ) (c : FdtCall β) {s : Pool β} {fdt : ℕ} {b : β} (hs : s.Clean)
    (h : s.Holds fdt b) :
    Yields Asserts (fun r : EfiStatus × ℕ × Pool β => efiError r.1 = false →
        s.used < r.2.1 ∧ Only {r.2.1} s r.2.2 ∧ ∃ d, r.2.2.Holds r.2.1 d ∧ E.lib.Opened ordered d)
      (cloneFdt E platformFdt c fdt s) := by
  unfold cloneFdt
  refine Yields.bind_ok (loadBuffer_of_holds h) (Yields.bind (fdtOpenIntoAlloc_only hs h _ _ _) ?_)
  rintro ⟨status, newFdt, s₁⟩ ⟨-, hok⟩
  refine Yields.ite (fun herr hno => by simp [herr] at hno) fun hst => ?_
  obtain ⟨hd, hret, rfl, honly⟩ := hok (Bool.eq_false_iff.2 hst)
  simp only [if_true] at hd honly ⊢
  obtain ⟨hord, -, -, hlt⟩ := hL.openInto (Prod.ext hret rfl)
  have hfix : Yields Asserts (fun r : EfiStatus × ℕ × Pool β => Swapped s.fresh s₁ r.2.1 r.2.2
        ∧ ∃ d, r.2.2.Holds r.2.1 d ∧ E.lib.Opened ordered d)
      (applyOverrideFixups E platformFdt c fdt s.fresh s₁) := by
    have hsame := Swapped.refl (p := s.fresh) honly.clean
    refine Yields.ite (fun _ => ?_) fun _ => ⟨hsame, _, hd, hord, hlt⟩
    refine Yields.bind_ok (loadBuffer_of_holds hd) (Yields.bind
      (fdtOpenIntoAlloc_only honly.clean hd _ _ _) ?_)
    rintro ⟨status₂, fdt₂, s₂⟩ ⟨hfail₂, hok₂⟩
    refine Yields.ite (fun herr => ?_) fun hst₂ => ?_
    · obtain ⟨rfl, hnone⟩ := hfail₂ herr
      exact ⟨(hnone.mono (Set.empty_subset _)).swapped, _, hd.only hnone (Set.notMem_empty _), hord,
        hlt⟩
    obtain ⟨he, hret₂, rfl, hswap⟩ := hok₂ (Bool.eq_false_iff.2 hst₂)
    simp only [Bool.false_eq_true, if_false] at he hswap ⊢
    obtain ⟨hord₂, -, -, hlt₂⟩ := hL.openInto (Prod.ext hret₂ rfl)
    refine Yields.bind_ok (loadBuffer_of_holds he) ?_
    rcases hg : E.fixups.apply _ with _ | g
    · exact rfl
    · obtain ⟨hgord, hgtotal⟩ := hF.apply _ g hord₂ hg
      have hstore : Swapped s₁.fresh s₂ s₁.fresh (s₂.store s₁.fresh g) :=
        (only_store hswap.only.clean he.le).swapped
      exact ⟨hswap.trans honly.clean hstore, g, holds_store he, hgord, hgtotal.trans_lt hlt₂⟩
  refine Yields.bind hfix ?_
  rintro ⟨_, newFdt, s₂⟩ ⟨hswap, hopened⟩ -
  refine ⟨?_, Swapped.of_fresh hs honly (Nat.lt_succ_self _) hswap, hopened⟩
  have hu := honly.used
  rcases hswap.place with hpl | hpl
  · exact lt_of_lt_of_eq (Nat.lt_succ_self _) hpl.symm
  · exact lt_of_le_of_lt hu hpl

theorem fdtAttempts_sound (hL : E.lib.Documented ordered used tree)
    (hF : E.fixups.Edits E.lib ordered) {platformFdt : ℕ} {c : FdtCall β} {s : Pool β} {fdt : ℕ}
    {b : β} (hs : s.Clean) (h : s.Holds fdt b) :
    ∀ a ∈ fdtAttempts E platformFdt c fdt s,
      a.Sound E.lib used tree ↔ (efiError a.status = false → a.SizeFits E.lib) := by
  unfold fdtAttempts
  have hclone := cloneFdt_spec hL hF platformFdt c hs h
  rcases hx : cloneFdt E platformFdt c fdt s with e | ⟨status, newFdt, s₁⟩ <;> rw [hx] at hclone
  · exact fun _ ha => absurd ha List.not_mem_nil
  simp only []
  by_cases hst : efiError status = true
  · rw [if_pos hst]
    exact fun _ ha => absurd ha List.not_mem_nil
  · rw [if_neg hst]
    obtain ⟨-, honly, d, hd, hopened⟩ := hclone (Bool.eq_false_iff.2 hst)
    exact (processOverlayPathsLog_spec hL c.overlayPaths status 0 honly.clean hd hopened).sound

/-- A tree that cannot be installed is freed. -/
theorem installTable_owned (c : FdtCall β) (status : EfiStatus) {p platformFdt table : ℕ}
    {s₀ s : Pool β} {b : β} (hx : Extra s₀ {p} s) (hp : p ≠ 0 → p ≠ platformFdt ∧ s.Holds p b) :
    Yields Asserts (fun r : EfiStatus × FdtState β => Extra s₀ {r.2.table} r.2.pool)
      (installTable c status p platformFdt table s) := by
  unfold installTable
  refine Yields.ite (fun hne => ?_) fun hnull => ?_
  · obtain ⟨hpl, hh⟩ := hp hne
    refine Yields.ite (fun _ => ?_) fun _ => hx
    rw [if_pos hpl]
    refine Yields.bind_ok (freePool_of_holds hh) fun q hq hlive => ?_
    exact absurd (hx.release p q hq hlive).1 (hx.release p q hq hlive).2
  · intro q hq hlive
    have hqp : q = p := hx q hq hlive
    omega

theorem installFdt_owned (c : FdtCall β) {status : EfiStatus}
    {fdt newFdt count platformFdt table : ℕ} {s₀ s : Pool β} {b d : β}
    (hx : Extra s₀ ({newFdt} ∪ {p | p = fdt ∧ fdt ≠ platformFdt}) s) (hnew : s.Holds newFdt d)
    (hfdt : fdt ≠ platformFdt → s.Holds fdt b) (hne : newFdt ≠ fdt) (hpl : newFdt ≠ platformFdt) :
    Yields Asserts (fun r : EfiStatus × FdtState β => Extra s₀ {r.2.table} r.2.pool)
      (installFdt E c status fdt newFdt count platformFdt table s) := by
  unfold installFdt
  refine Yields.bind (useNewFdt_spec E hnew) fun new _ => ?_
  refine Yields.ite (fun _ => Yields.ite (fun hown => ?_) fun hown => ?_) fun _ => ?_
  · refine Yields.bind_ok (freePool_of_holds (hfdt hown)) (installTable_owned c status ?_
      fun _ => ⟨hpl, hnew.keeps keeps_release hne⟩)
    intro q hq hlive
    obtain ⟨hq' | ⟨hq', -⟩, hqf⟩ := hx.release fdt q hq hlive
    · exact hq'
    · exact absurd hq' hqf
  · refine installTable_owned c status (fun q hq hlive => ?_) fun _ => ⟨hpl, hnew⟩
    rcases hx q hq hlive with hq' | ⟨-, hq'⟩
    · exact hq'
    · exact absurd hq' hown
  · refine Yields.bind_ok (freePool_of_holds hnew) ?_
    by_cases hown : fdt ≠ platformFdt
    · rw [if_pos hown]
      refine installTable_owned c status (fun q hq hlive => ?_)
        fun _ => ⟨hown, (hfdt hown).keeps keeps_release hne.symm⟩
      obtain ⟨hq' | ⟨hq', -⟩, hqn⟩ := hx.release newFdt q hq hlive
      · exact absurd hq' hqn
      · exact hq'
    · rw [if_neg hown]
      refine installTable_owned (b := b) c status (fun q hq hlive => ?_) fun hno => absurd rfl hno
      obtain ⟨hq' | ⟨-, hq'⟩, hqn⟩ := hx.release newFdt q hq hlive
      · exact absurd hq' hqn
      · exact absurd hq' hown

/-- A call that comes to overlays leaves no buffer of its own but the tree it installs. -/
theorem processFdt_owned (hL : E.lib.Documented ordered used tree)
    (hF : E.fixups.Edits E.lib ordered) {platformFdt : ℕ} {c : FdtCall β} {fdt table : ℕ}
    {s₀ s : Pool β} {b : β} (hs : s.Clean) (h : s.Holds fdt b) (hpl : platformFdt ≤ s.used)
    (hx : Extra s₀ {p | p = fdt ∧ fdt ≠ platformFdt} s)
    (hsome : fdtAttempts E platformFdt c fdt s ≠ []) :
    Yields Asserts (fun r : EfiStatus × FdtState β => Extra s₀ {r.2.table} r.2.pool)
      (processFdt E platformFdt c fdt table s) := by
  rw [processFdt_eq]
  unfold fdtAttempts at hsome
  have hclone := cloneFdt_spec hL hF platformFdt c hs h
  rcases hc : cloneFdt E platformFdt c fdt s with e | ⟨status, newFdt, s₁⟩ <;>
    rw [hc] at hclone hsome
  · exact absurd rfl hsome
  refine Yields.bind_ok rfl (Yields.ite (fun herr => ?_) fun hst => ?_)
  · exact absurd (if_pos herr) hsome
  obtain ⟨hlt, honly, d, hd, hopened⟩ := hclone (Bool.eq_false_iff.2 hst)
  have hrun := processOverlayPathsLog_spec hL c.overlayPaths status 0 honly.clean hd hopened
  refine Yields.bind hrun.result ?_
  rintro ⟨status₂, newFdt₂, count, s₂⟩ ⟨hswap, d₂, hd₂, -⟩
  have hlt₂ : s.used < newFdt₂ := by
    rcases hswap.place with hpl | hpl
    · exact lt_of_lt_of_eq hlt hpl.symm
    · exact lt_of_le_of_lt honly.used hpl
  have honly₂ : Only {newFdt₂} s s₂ := Swapped.of_fresh hs honly hlt hswap
  have hne : newFdt₂ ≠ fdt := (lt_of_le_of_lt h.le hlt₂).ne'
  exact installFdt_owned c (hx.only honly₂) hd₂ (fun _ => h.only honly₂ hne.symm) hne
    (lt_of_le_of_lt hpl hlt₂).ne'

theorem readBaseOverride_only : ∀ (paths : List (Option (FileOutcome β))) (status : EfiStatus)
    {s : Pool β}, s.Clean →
    Yields Asserts (fun r : EfiStatus × ℕ × Pool β => Only {r.2.1} s r.2.2)
      (readBaseOverride E paths status 0 s)
  | [], _, _, hs => Only.refl _ hs
  | none :: paths, status, _, hs => readBaseOverride_only paths status hs
  | some f :: paths, _, s, hs => by
    unfold readBaseOverride
    refine Yields.bind ((readFdtFromFilePath_spec f none s).and (readFdtFromFilePath_only hs f none)) ?_
    rintro ⟨status, size, fdt, s₁⟩ ⟨hread, hunread, hnew⟩
    refine Yields.ite (fun hst => ?_) fun hst => ?_
    · obtain ⟨rfl, rfl⟩ := hnew (Bool.not_eq_true' _ ▸ hst)
      exact only_allocate hs
    · have herr : efiError status = true := by simpa using hst
      obtain rfl : fdt = 0 := hread.null herr
      have hnone : Only ∅ s s₁ := hunread herr
      refine (readBaseOverride_only paths status hnone.clean).mono fun r hr => ?_
      exact (hnone.mono (Set.empty_subset _)).trans hr

/-- What a call owes its trees: each attempt is sound, and no buffer is lost, nor freed twice. -/
structure OverlaysSound (E : FdtEnv β) (used : β → ℕ) (tree : β → τ) (platformFdt : ℕ)
    (c : FdtCall β) (s : FdtState β) : Prop where
  attempts : ∀ a ∈ overlayAttempts E platformFdt c s, a.Sound E.lib used tree
  owned : overlayAttempts E platformFdt c s ≠ [] →
    Yields Asserts (fun r : EfiStatus × FdtState β => Extra s.pool {r.2.table} r.2.pool)
      (fdtPlatformProcessFileSystem E platformFdt c s)

theorem overlayAttempts_spec (hL : E.lib.Documented ordered used tree)
    (hF : E.fixups.Edits E.lib ordered) {platformFdt : ℕ} {platform : Option β} {s : FdtState β}
    (h : FdtSound platformFdt platform s) (hs : s.pool.Clean) (c : FdtCall β) :
    (∀ a ∈ overlayAttempts E platformFdt c s,
        a.Sound E.lib used tree ↔ (efiError a.status = false → a.SizeFits E.lib))
      ∧ (overlayAttempts E platformFdt c s ≠ [] →
        Yields Asserts (fun r : EfiStatus × FdtState β => Extra s.pool {r.2.table} r.2.pool)
          (fdtPlatformProcessFileSystem E platformFdt c s)) := by
  unfold overlayAttempts fdtPlatformProcessFileSystem
  by_cases hvol : efiError c.openVolumeStatus = true
  · rw [if_pos hvol]
    exact ⟨fun _ ha => absurd ha List.not_mem_nil, fun hno => absurd rfl hno⟩
  rw [if_neg hvol, if_neg hvol]
  have hbase := (readBaseOverride_spec E c.basePaths c.openVolumeStatus s.pool).and
    (readBaseOverride_only c.basePaths c.openVolumeStatus hs)
  rcases hr : readBaseOverride E c.basePaths c.openVolumeStatus 0 s.pool with
    e | ⟨status, fdt, pool⟩ <;> rw [hr] at hbase
  · exact ⟨fun _ ha => absurd ha List.not_mem_nil, fun hno => absurd rfl hno⟩
  obtain ⟨⟨hk, hnone, hsome⟩, honly⟩ := hbase
  simp only [Except.bind, bind] at hk hnone hsome honly ⊢
  have hpool : platformFdt ≤ s.pool.used := by
    rcases h.platform with ⟨hnull, -⟩ | ⟨b, -, hb⟩
    · omega
    · exact hb.le
  by_cases hfdt : fdt = 0
  · rw [if_pos hfdt, if_pos hfdt]
    by_cases hnull : platformFdt = 0
    · rw [if_pos hnull]
      exact ⟨fun _ ha => absurd ha List.not_mem_nil, fun hno => absurd rfl hno⟩
    · rw [if_neg hnull, if_neg hnull]
      obtain ⟨b, -, hb⟩ := h.platform.resolve_left fun hno => hnull hno.1
      have hh : pool.Holds platformFdt b := hb.keeps hk (Set.notMem_empty _)
      refine ⟨fdtAttempts_sound hL hF honly.clean hh, processFdt_owned hL hF honly.clean hh
        (hpool.trans hk.used) fun p hp hlive => ?_⟩
      have hp0 : p = fdt := honly.extra hs p hp hlive
      omega
  · rw [if_neg hfdt, if_neg hfdt]
    rcases hf : baseOverride E c.basePaths with _ | f
    · exact absurd (hnone hf) hfdt
    obtain ⟨hlt, hh⟩ := hsome f hf
    have hpl : fdt ≠ platformFdt := (lt_of_le_of_lt hpool hlt).ne'
    refine ⟨fdtAttempts_sound hL hF honly.clean hh, processFdt_owned hL hF honly.clean hh
      (hpool.trans hk.used) fun p hp hlive => ?_⟩
    exact ⟨honly.extra hs p hp hlive, hpl⟩

/-- The overlays of a call have room exactly if the size of each that is applied, or 8 KB, and the
size of the tree come to less than 4 GB. -/
theorem overlaysSound_iff (hL : E.lib.Documented ordered used tree)
    (hF : E.fixups.Edits E.lib ordered) {platformFdt : ℕ} {platform : Option β} {s : FdtState β}
    (h : FdtSound platformFdt platform s) (hs : s.pool.Clean) (c : FdtCall β) :
    OverlaysSound E used tree platformFdt c s ↔
      ∀ a ∈ overlayAttempts E platformFdt c s, efiError a.status = false → a.SizeFits E.lib := by
  obtain ⟨hiff, howned⟩ := overlayAttempts_spec hL hF h hs c
  constructor
  · exact fun hsound a ha => (hiff a ha).1 (hsound.attempts a ha)
  · exact fun hfits => ⟨fun a ha => (hiff a ha).2 (hfits a ha), howned⟩

end Run

section Example

/-- A tree by the size of its buffer, where its strings end, and what it says. -/
structure SizedTree where
  total : ℕ
  used : ℕ
  nodes : List ℕ
  deriving DecidableEq

/-- `libfdt` on such trees, failing with `-FDT_ERR_NOSPACE`. -/
def sizedLib : FdtLib SizedTree where
  checkHeader _ := 0
  totalSize b := b.total
  offsetDtStrings _ := 0
  sizeDtStrings b := b.used
  openInto b size :=
    if size % 2 ^ 32 < 2 ^ 31 ∧ b.used ≤ size % 2 ^ 32 then (0, { b with total := size % 2 ^ 32 })
    else (-3, b)
  overlayApply b o :=
    if b.used + o.used ≤ b.total then
      (0, { b with used := b.used + o.used, nodes := b.nodes ++ o.nodes })
    else (-3, b)

def sizedEnv : FdtEnv SizedTree where
  lib := sizedLib
  fixups := ⟨some, some, some, some, some, some, some⟩
  overrideFixup := true
  debugAssertEnabled := true

theorem sizedLib_documented :
    sizedLib.Documented (fun b => b.used ≤ b.total) SizedTree.used SizedTree.nodes := by
  refine ⟨fun _ => Nat.zero_add _, fun h => h, fun {b c size} h => ?_, fun {b c size} _ h => ?_,
    fun {b c o} _ h => ?_⟩
  · unfold sizedLib at h
    simp only [] at h
    split_ifs at h with hfit
    · obtain rfl := (Prod.mk.inj h).2
      exact ⟨hfit.2, rfl, rfl, hfit.1⟩
    · exact absurd (Prod.mk.inj h).1 (by decide)
  · unfold sizedLib at h
    simp only [] at h
    split_ifs at h
    · rw [← (Prod.mk.inj h).2]
    · exact absurd (Prod.mk.inj h).1 (by decide)
  · unfold sizedLib at h
    simp only [] at h
    split_ifs at h with hfit
    · obtain rfl := (Prod.mk.inj h).2
      exact ⟨hfit, rfl⟩
    · exact absurd (Prod.mk.inj h).1 (by decide)

theorem edits_some {β : Type} {L : FdtLib β} {ordered : β → Prop} : L.Edits ordered some := by
  intro b c hb hc
  obtain rfl := Option.some.inj hc
  exact ⟨hb, rfl⟩

theorem sizedEnv_edits : sizedEnv.fixups.Edits sizedEnv.lib fun b => b.used ≤ b.total :=
  ⟨edits_some, edits_some, edits_some, edits_some, edits_some, edits_some, edits_some⟩

/-- The platform's tree, of 40 KB in a buffer of 64 KB. -/
def sizedPlatform : FdtState SizedTree :=
  ⟨⟨1, fun p => if p = 1 then some ⟨0x10000, 0xa000, [1]⟩ else none⟩, 1⟩

theorem sizedPlatform_sound :
    FdtSound 1 (some ⟨0x10000, 0xa000, [1]⟩) sizedPlatform ∧ sizedPlatform.pool.Clean := by
  refine ⟨⟨Or.inr ⟨_, rfl, by decide, le_rfl, rfl⟩, Or.inr ⟨_, by decide, le_rfl, rfl⟩⟩, ?_⟩
  intro p hp
  have hp : 1 < p := hp
  exact if_neg hp.ne'

/-- One overlay, of 100 bytes in a file of `fileSize`. -/
def sizedCall (fileSize : ℕ) : FdtCall SizedTree where
  openVolumeStatus := efiSuccess
  basePaths := []
  cloneAllocated := true
  fixupAllocated := true
  overlayPaths := [some ⟨efiSuccess, true, [⟨efiSuccess, 98, 0, 0x61 :: dtboExtension, fileSize,
    ⟨efiSuccess, efiBufferTooSmall, 100, true, efiSuccess, true, efiSuccess, fileSize,
      ⟨100, 100, [2]⟩⟩, true⟩]⟩]
  installStatus := efiSuccess

theorem overlaysSound_iff_sized :
    OverlaysSound sizedEnv SizedTree.used SizedTree.nodes 1 (sizedCall 0x8000) sizedPlatform ↔
      ∀ a ∈ overlayAttempts sizedEnv 1 (sizedCall 0x8000) sizedPlatform,
        efiError a.status = false → a.SizeFits sizedEnv.lib :=
  overlaysSound_iff sizedLib_documented sizedEnv_edits sizedPlatform_sound.1 sizedPlatform_sound.2
    (sizedCall 0x8000)

/-- For a file of 4 GB less one byte the buffer becomes smaller. -/
theorem overlay_without_room : ¬ ∀ c : FdtCall SizedTree,
    OverlaysSound sizedEnv SizedTree.used SizedTree.nodes 1 c sizedPlatform := by
  intro h
  have hsound := (h (sizedCall 0xffffffff)).attempts
  have hrun : (overlayAttempts sizedEnv 1 (sizedCall 0xffffffff) sizedPlatform).map
      (fun a => (efiError a.status, a.fileSize, a.after.buffer a.newFdt))
        = [(false, 0xffffffff, some ⟨0xffff, 0xa000, [1]⟩)] := by decide +kernel
  obtain ⟨a, ha, heq⟩ := List.map_eq_singleton_iff.1 hrun
  simp only [Prod.mk.injEq] at heq
  obtain ⟨hok, hsize, htree⟩ := heq
  obtain ⟨c, hc, hroom⟩ := (hsound a (ha ▸ List.mem_singleton_self a)).room hok
  obtain rfl := Option.some.inj (htree.symm.trans hc)
  rw [hsize] at hroom
  exact absurd hroom (by decide)

end Example

end Edk2Rk3576
