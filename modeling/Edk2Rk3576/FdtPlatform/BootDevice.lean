import Edk2Rk3576.FdtPlatform.Installed
import Edk2Rk3576.Lib.SelfDelimiting

/-!
# The file systems of the boot device

When an image has been loaded, the driver looks for trees on the file systems whose device path
begins as the image's device path does, its last node left out. The paths are compared as bytes,
but their nodes tell their own length, so that the bytes agree where the nodes do.
-/

namespace Edk2Rk3576

structure DevicePathNode where
  type : UInt8
  subType : UInt8
  data : List UInt8
  length_lt : data.length + 4 < 2 ^ 16

namespace DevicePathNode

def length (n : DevicePathNode) : ℕ := n.data.length + 4

def bytes (n : DevicePathNode) : List UInt8 :=
  n.type :: n.subType :: (Cells.leBytes n.length 2 ++ n.data)

/-- Whether a node is the end of a whole path; the end of an instance is not. -/
def isEnd (n : DevicePathNode) : Bool := n.type == 0x7f && n.subType == 0xff

def endNode : DevicePathNode := ⟨0x7f, 0xff, [], by decide⟩

@[simp] theorem length_bytes (n : DevicePathNode) : n.bytes.length = n.length := by
  simp only [bytes, length, List.length_cons, List.length_append, Cells.length_leBytes]
  omega

theorem ext_of {n n' : DevicePathNode} (ht : n.type = n'.type) (hs : n.subType = n'.subType)
    (hd : n.data = n'.data) : n = n' := by
  obtain ⟨_, _, _, _⟩ := n
  obtain ⟨_, _, _, _⟩ := n'
  simp only at ht hs hd
  subst ht hs hd
  rfl

theorem leBytes_two_inj {x y : ℕ} (hx : x < 2 ^ 16) (hy : y < 2 ^ 16)
    (h : Cells.leBytes x 2 = Cells.leBytes y 2) : x = y := by
  simp only [Cells.leBytes, List.cons.injEq, and_true] at h
  obtain ⟨hlow, hhigh⟩ := h
  have hlow := congrArg UInt8.toNat hlow
  have hhigh := congrArg UInt8.toNat hhigh
  rw [UInt8.toNat_ofNat', UInt8.toNat_ofNat'] at hlow hhigh
  omega

/-- The length of a node is in its header. -/
theorem selfDelimiting_bytes : SelfDelimiting bytes := by
  intro a b s t h
  simp only [bytes, List.cons_append, List.append_assoc, List.cons.injEq] at h
  obtain ⟨htype, hsub, hrest⟩ := h
  obtain ⟨hlen, hdata⟩ := List.append_inj hrest (by simp)
  have hlength : a.length = b.length := leBytes_two_inj a.length_lt b.length_lt hlen
  exact ext_of htype hsub (List.append_inj hdata (by simpa [length] using hlength)).1

end DevicePathNode

open DevicePathNode

/-- A device path: its nodes up to the one that ends it. -/
structure DevicePath where
  nodes : List DevicePathNode
  noEnd : ∀ n ∈ nodes, n.isEnd = false

namespace DevicePath

def bytes (d : DevicePath) : List UInt8 := (d.nodes ++ [endNode]).flatMap DevicePathNode.bytes

theorem endNode_notMem (d : DevicePath) : endNode ∉ d.nodes :=
  fun h => absurd (d.noEnd _ h) (by decide)

/-- What the code looks for: all nodes of the image's path but the last, or a path of fewer than two
nodes as it is. -/
def SameDevice (image d : DevicePath) : Prop :=
  if image.nodes.length ≤ 1 then d.nodes = image.nodes else image.nodes.dropLast <+: d.nodes

end DevicePath

/-- The routines on device paths in memory, and `CompareMem`. -/
structure DevicePathLib where
  isDevicePathEnd : Cells UInt8 → ℕ → Bool
  nextDevicePathNode : Cells UInt8 → ℕ → ℕ
  getDevicePathSize : Cells UInt8 → ℕ → ℕ
  compareMem : Cells UInt8 → (destination source length : ℕ) → ℤ

/-- What the routines document. -/
structure DevicePathLib.Documented (D : DevicePathLib) : Prop where
  isDevicePathEnd : ∀ {m : Cells UInt8} {p : ℕ} {n : DevicePathNode}, m.Holds p n.bytes →
    D.isDevicePathEnd m p = n.isEnd
  nextDevicePathNode : ∀ {m : Cells UInt8} {p : ℕ} {n : DevicePathNode}, m.Holds p n.bytes →
    D.nextDevicePathNode m p = p + n.length
  getDevicePathSize : ∀ {m : Cells UInt8} {p : ℕ} {d : DevicePath}, m.Holds p d.bytes →
    D.getDevicePathSize m p = d.bytes.length
  compareMem : ∀ {m : Cells UInt8} {p q n : ℕ},
    D.compareMem m p q n = 0 ↔ ∀ i < n, m (p + i) = m (q + i)

/-- A handle with the file system protocol: its device path, or null, what asking for the protocol
returns, and what its file system comes to. -/
structure FsHandle (β : Type) where
  devicePath : ℕ
  protocolStatus : EfiStatus
  call : FdtCall β

/-- An image that has been loaded. `device` is whether there are the image and its device handle. -/
structure LoadedImage (β : Type) where
  device : Bool
  devicePath : ℕ
  locateStatus : EfiStatus
  handles : List (FsHandle β)

section Model

variable (D : DevicePathLib) (m : Cells UInt8)

/-- The loop of `GetParentDevicePathSize`: the node before the end. -/
def lastDevicePathNode : (fuel node : ℕ) → Option ℕ
  | 0, _ => none
  | fuel + 1, node =>
    if !D.isDevicePathEnd m (D.nextDevicePathNode m node) then
      lastDevicePathNode fuel (D.nextDevicePathNode m node)
    else some node

def getParentDevicePathSize (fuel devicePath : ℕ) : Option ℕ :=
  if devicePath = 0 ∨ D.isDevicePathEnd m devicePath then some 0
  else (lastDevicePathNode D m fuel devicePath).map fun node => node - devicePath

/-- The bytes of the image's path that are compared. -/
def imagePathSize (fuel devicePath : ℕ) : Option ℕ :=
  (getParentDevicePathSize D m fuel devicePath).map fun size =>
    if size = 0 then D.getDevicePathSize m devicePath else size

variable {β : Type} (E : FdtEnv β) (platformFdt : ℕ)

/-- The loop of `FdtPlatformProcessLoadedImage` over the handles, and the handles it comes to, each
with whether its file system is processed. -/
def processHandles (imagePath size : ℕ) : List (FsHandle β) → EfiStatus → FdtState β →
    List (FsHandle β × Bool) × Except FdtHalt (EfiStatus × FdtState β)
  | [], status, s => ([], .ok (status, s))
  | h :: hs, status, s =>
    if h.devicePath = 0 then
      let rest := processHandles imagePath size hs status s
      ((h, false) :: rest.1, rest.2)
    else if D.compareMem m h.devicePath imagePath size ≠ 0 then
      let rest := processHandles imagePath size hs status s
      ((h, false) :: rest.1, rest.2)
    else if efiError h.protocolStatus then
      if E.debugAssertEnabled then ([(h, false)], .error .assertion)
      else
        let rest := processHandles imagePath size hs h.protocolStatus s
        ((h, false) :: rest.1, rest.2)
    else
      match fdtPlatformProcessFileSystem E platformFdt h.call s with
      | .error e => ([(h, true)], .error e)
      | .ok (status, s) =>
        if efiError status then
          let rest := processHandles imagePath size hs status s
          ((h, true) :: rest.1, rest.2)
        else ([(h, true)], .ok (status, s))

/-- `FdtPlatformProcessLoadedImage`; it does not return where the walk over the image's path does
not end in `fuel` steps. -/
def fdtPlatformProcessLoadedImage (fuel : ℕ) (x : LoadedImage β) (s : FdtState β) :
    Option (List (FsHandle β × Bool) × Except FdtHalt (EfiStatus × FdtState β)) :=
  if !x.device then some ([], .ok (efiInvalidParameter, s))
  else if x.devicePath = 0 then some ([], .ok (efiNotFound, s))
  else (imagePathSize D m fuel x.devicePath).map fun size =>
    if efiError x.locateStatus then ([], .ok (x.locateStatus, s))
    else processHandles D m E platformFdt x.devicePath size x.handles efiNotFound s

end Model

section Paths

variable {D : DevicePathLib} {m : Cells UInt8}

theorem holds_of_compare {p q : ℕ} {l : List UInt8} (h : m.Holds p l) :
    (∀ i < l.length, m (q + i) = m (p + i)) ↔ m.Holds q l := by
  constructor
  · intro hsame k hk
    rw [hsame k hk, h k hk]
  · intro hq k hk
    rw [hq k hk, h k hk]

/-- The walk ends at the last node of the path. -/
theorem lastDevicePathNode_spec (hD : D.Documented) : ∀ (ns : List DevicePathNode)
    {n : DevicePathNode} {p fuel : ℕ}, (∀ n' ∈ ns, n'.isEnd = false) →
    m.Holds p ((n :: ns ++ [endNode]).flatMap DevicePathNode.bytes) → ns.length < fuel →
    lastDevicePathNode D m fuel p
      = some (p + ((n :: ns).dropLast.flatMap DevicePathNode.bytes).length)
  | [], n, p, fuel + 1, _, h, _ => by
    have hn : m.Holds p n.bytes := Cells.Holds.left h
    have hend : m.Holds (p + n.length) endNode.bytes := by
      have hright := Cells.Holds.right (l := n.bytes) h
      rw [length_bytes] at hright
      exact Cells.Holds.left hright
    rw [lastDevicePathNode, hD.nextDevicePathNode hn, hD.isDevicePathEnd hend]
    rfl
  | n' :: ns, n, p, fuel + 1, hns, h, hfuel => by
    have hn : m.Holds p n.bytes := Cells.Holds.left h
    have hrest : m.Holds (p + n.length) ((n' :: ns ++ [endNode]).flatMap DevicePathNode.bytes) := by
      have hright := Cells.Holds.right (l := n.bytes) h
      rwa [length_bytes] at hright
    have hn' : m.Holds (p + n.length) n'.bytes := Cells.Holds.left hrest
    have ih := lastDevicePathNode_spec hD ns (fun x hx => hns x (List.mem_cons_of_mem _ hx)) hrest
      (Nat.lt_of_succ_lt_succ hfuel)
    rw [lastDevicePathNode, hD.nextDevicePathNode hn, hD.isDevicePathEnd hn',
      hns n' List.mem_cons_self, Bool.not_false, if_pos rfl, ih, List.dropLast_cons_cons,
      List.flatMap_cons, List.length_append, length_bytes, Nat.add_assoc]

theorem getParentDevicePathSize_spec (hD : D.Documented) {image : DevicePath} {p fuel : ℕ}
    (hp : p ≠ 0) (h : m.Holds p image.bytes) (hfuel : image.nodes.length ≤ fuel) :
    getParentDevicePathSize D m fuel p
      = some (image.nodes.dropLast.flatMap DevicePathNode.bytes).length := by
  have hns := image.noEnd
  unfold getParentDevicePathSize
  unfold DevicePath.bytes at h
  generalize image.nodes = nodes at hns h hfuel ⊢
  rcases nodes with _ | ⟨n, ns⟩
  · have hend : m.Holds p endNode.bytes := Cells.Holds.left h
    rw [hD.isDevicePathEnd hend]
    exact if_pos (Or.inr rfl)
  · have hn : m.Holds p n.bytes := Cells.Holds.left h
    have hlast := lastDevicePathNode_spec hD ns (fun n' hn' => hns n' (List.mem_cons_of_mem _ hn')) h
      hfuel
    rw [hD.isDevicePathEnd hn, hns n List.mem_cons_self, hlast, if_neg (by simp [hp])]
    exact congrArg some (Nat.add_sub_cancel_left ..)

/-- The bytes compared are those of the nodes, and are the handle's where the nodes are. -/
theorem imagePathSize_spec (hD : D.Documented) {image : DevicePath} {p fuel : ℕ} (hp : p ≠ 0)
    (h : m.Holds p image.bytes) (hfuel : image.nodes.length ≤ fuel) :
    ∃ size, imagePathSize D m fuel p = some size ∧ ∀ {q : ℕ} {d : DevicePath},
      m.Holds q d.bytes → (D.compareMem m q p size = 0 ↔ image.SameDevice d) := by
  unfold imagePathSize DevicePath.SameDevice
  rw [getParentDevicePathSize_spec hD hp h hfuel, Option.map_some]
  refine ⟨_, rfl, fun {q d} hd => ?_⟩
  by_cases hle : image.nodes.length ≤ 1
  · -- there is no parent, and the whole path is compared
    have hnone : image.nodes.dropLast = [] :=
      List.eq_nil_of_length_eq_zero (by rw [List.length_dropLast]; omega)
    rw [if_pos hle, hnone, List.flatMap_nil, List.length_nil, if_pos rfl, hD.compareMem,
      hD.getDevicePathSize h, holds_of_compare h]
    constructor
    · exact fun hq => hd.eq_of_flatMap selfDelimiting_bytes hq d.endNode_notMem image.endNode_notMem
    · intro hnodes
      rw [DevicePath.bytes, ← hnodes]
      exact hd
  · have hparent : m.Holds p (image.nodes.dropLast.flatMap DevicePathNode.bytes) := by
      refine (Cells.holds_flatMap_iff selfDelimiting_bytes h fun hmem => ?_).2
        (List.dropLast_prefix _)
      exact image.endNode_notMem (List.dropLast_subset _ hmem)
    have hpos : (image.nodes.dropLast.flatMap DevicePathNode.bytes).length ≠ 0 := by
      rcases hlast : image.nodes.dropLast with _ | ⟨n, ns⟩
      · have hlen := congrArg List.length hlast
        rw [List.length_dropLast, List.length_nil] at hlen
        omega
      · rw [List.flatMap_cons, List.length_append, length_bytes, DevicePathNode.length]
        omega
    rw [if_neg hle, if_neg hpos, hD.compareMem, holds_of_compare hparent]
    refine Cells.holds_flatMap_iff selfDelimiting_bytes hd fun hmem => ?_
    exact image.endNode_notMem (List.dropLast_subset _ hmem)

end Paths

section Handles

variable {D : DevicePathLib} {m : Cells UInt8} {β : Type} {E : FdtEnv β} {platformFdt : ℕ}
  {image : DevicePath}

/-- A handle the loop comes to is processed if its path begins with whole nodes of the image's, and
its protocol can be had. -/
structure FsHandle.Right (m : Cells UInt8) (image : DevicePath) (v : FsHandle β × Bool) : Prop where
  null : v.1.devicePath = 0 → v.2 = false
  path : v.1.devicePath ≠ 0 → ∀ d : DevicePath, m.Holds v.1.devicePath d.bytes →
    (v.2 = true ↔ efiError v.1.protocolStatus = false ∧ image.SameDevice d)

/-- The loop comes to the handles in turn, and ends before their end only where the file system of
the last one gives a tree, or where it halts. -/
structure HandlesRun (m : Cells UInt8) (image : DevicePath) (handles : List (FsHandle β))
    (x : List (FsHandle β × Bool) × Except FdtHalt (EfiStatus × FdtState β)) : Prop where
  right : ∀ v ∈ x.1, FsHandle.Right m image v
  inTurn : x.1.map Prod.fst <+: handles
  all : ∀ status s, x.2 = .ok (status, s) → efiError status = true → x.1.map Prod.fst = handles
  last : ∀ status s, x.2 = .ok (status, s) → efiError status = false →
    ∃ h, x.1.getLast? = some (h, true)

theorem HandlesRun.cons {handles : List (FsHandle β)} {v : FsHandle β × Bool}
    {x : List (FsHandle β × Bool) × Except FdtHalt (EfiStatus × FdtState β)}
    (h : HandlesRun m image handles x) (hv : FsHandle.Right m image v) :
    HandlesRun m image (v.1 :: handles) (v :: x.1, x.2) := by
  refine ⟨fun v' hv' => ?_, (List.prefix_cons_inj _).2 h.inTurn, fun status s hs herr => ?_,
    fun status s hs hok => ?_⟩
  · rcases List.mem_cons.1 hv' with rfl | hv'
    · exact hv
    · exact h.right v' hv'
  · rw [List.map_cons, h.all status s hs herr]
  · obtain ⟨l, hl⟩ := h.last status s hs hok
    exact ⟨l, by rw [List.getLast?_cons, hl, Option.getD_some]⟩

/-- The loop ends at a handle. -/
theorem HandlesRun.stop {h : FsHandle β} {hs : List (FsHandle β)} {b : Bool}
    {r : Except FdtHalt (EfiStatus × FdtState β)} (hv : FsHandle.Right m image (h, b))
    (hr : ∀ status s, r = .ok (status, s) → efiError status = false ∧ b = true) :
    HandlesRun m image (h :: hs) ([(h, b)], r) := by
  refine ⟨fun v' hv' => ?_, List.prefix_append [h] hs, fun status s he herr => ?_,
    fun status s he _ => ⟨h, by rw [(hr status s he).2]; rfl⟩⟩
  · rw [List.mem_singleton.1 hv']
    exact hv
  · rw [(hr status s he).1] at herr
    exact Bool.noConfusion herr

theorem processHandles_spec {imagePath size : ℕ} (hsize : ∀ {q : ℕ} {d : DevicePath},
      m.Holds q d.bytes → (D.compareMem m q imagePath size = 0 ↔ image.SameDevice d)) :
    ∀ (hs : List (FsHandle β)) {status : EfiStatus} (s : FdtState β), efiError status = true →
      HandlesRun m image hs (processHandles D m E platformFdt imagePath size hs status s)
  | [], status, s, herr => by
    refine ⟨fun _ hv => absurd hv List.not_mem_nil, List.prefix_rfl, fun _ _ _ _ => rfl, ?_⟩
    intro status' s' hr hok
    obtain ⟨rfl, -⟩ := Prod.mk.inj (Except.ok.inj hr)
    rw [herr] at hok
    exact Bool.noConfusion hok
  | h :: hs, status, s, herr => by
    unfold processHandles
    by_cases hnull : h.devicePath = 0
    · rw [if_pos hnull]
      have hright : FsHandle.Right m image (h, false) :=
        ⟨fun _ => rfl, fun hno => absurd hnull hno⟩
      exact (processHandles_spec hsize hs s herr).cons hright
    rw [if_neg hnull]
    by_cases hcmp : D.compareMem m h.devicePath imagePath size ≠ 0
    · rw [if_pos hcmp]
      have hright : FsHandle.Right m image (h, false) := by
        refine ⟨fun _ => rfl, fun _ d hd => ⟨fun hno => Bool.noConfusion hno, fun hsame => ?_⟩⟩
        exact absurd ((hsize hd).2 hsame.2) hcmp
      exact (processHandles_spec hsize hs s herr).cons hright
    rw [if_neg hcmp]
    have hsame : ∀ d : DevicePath, m.Holds h.devicePath d.bytes → image.SameDevice d :=
      fun d hd => (hsize hd).1 (not_not.1 hcmp)
    by_cases hproto : efiError h.protocolStatus = true
    · -- the protocol of a handle that was located by it is missing
      have hright : FsHandle.Right m image (h, false) :=
        ⟨fun _ => rfl, fun _ d _ => ⟨fun hno => Bool.noConfusion hno, fun ⟨hok, _⟩ => by
          rw [hproto] at hok
          exact Bool.noConfusion hok⟩⟩
      rw [if_pos hproto]
      split_ifs
      · exact HandlesRun.stop hright fun _ _ he => nomatch he
      · exact (processHandles_spec hsize hs s hproto).cons hright
    rw [if_neg hproto]
    have hright : FsHandle.Right m image (h, true) :=
      ⟨fun hno => absurd hno hnull, fun _ d hd =>
        ⟨fun _ => ⟨Bool.eq_false_iff.2 hproto, hsame d hd⟩, fun _ => rfl⟩⟩
    rcases fdtPlatformProcessFileSystem E platformFdt h.call s with e | ⟨status', s'⟩
    · exact HandlesRun.stop hright fun _ _ he => nomatch he
    simp only []
    by_cases hst : efiError status' = true
    · rw [if_pos hst]
      exact (processHandles_spec hsize hs s' hst).cons hright
    · rw [if_neg hst]
      refine HandlesRun.stop hright fun status s he => ?_
      obtain ⟨rfl, -⟩ := Prod.mk.inj (Except.ok.inj he)
      exact ⟨Bool.eq_false_iff.2 hst, rfl⟩

/-- Of the handles an image is looked up on, those are processed whose path begins with the parent
of the image's, node for node. -/
theorem fdtPlatformProcessLoadedImage_spec (hD : D.Documented) {x : LoadedImage β} {fuel : ℕ}
    (h : x.devicePath ≠ 0 → m.Holds x.devicePath image.bytes)
    (hfuel : image.nodes.length ≤ fuel) (s : FdtState β) :
    ∃ run, fdtPlatformProcessLoadedImage D m E platformFdt fuel x s = some run
      ∧ (x.device = true → x.devicePath ≠ 0 → efiError x.locateStatus = false →
        HandlesRun m image x.handles run)
      ∧ (x.device = false ∨ x.devicePath = 0 ∨ efiError x.locateStatus = true → run.1 = []) := by
  unfold fdtPlatformProcessLoadedImage
  by_cases hdev : x.device = true
  · rw [hdev, Bool.not_true, if_neg Bool.false_ne_true]
    by_cases hnull : x.devicePath = 0
    · rw [if_pos hnull]
      exact ⟨_, rfl, fun _ hno => absurd hnull hno, fun _ => rfl⟩
    rw [if_neg hnull]
    obtain ⟨size, hsize, hcmp⟩ := imagePathSize_spec hD hnull (h hnull) hfuel
    rw [hsize, Option.map_some]
    by_cases hlocate : efiError x.locateStatus = true
    · rw [if_pos hlocate]
      exact ⟨_, rfl, fun _ _ hno => absurd hno (by simp [hlocate]), fun _ => rfl⟩
    · rw [if_neg hlocate]
      refine ⟨_, rfl, fun _ _ _ => processHandles_spec hcmp x.handles s (efiError_encodeError 14), ?_⟩
      rintro (hno | hno | hno)
      · exact Bool.noConfusion hno
      · exact absurd hno hnull
      · exact absurd hno hlocate
  · rw [Bool.eq_false_iff.2 hdev, Bool.not_false, if_pos rfl]
    exact ⟨_, rfl, fun hno => Bool.noConfusion hno, fun _ => rfl⟩

end Handles

section Example

open Classical in
/-- The routines as they are documented. -/
noncomputable def devicePathLib : DevicePathLib where
  isDevicePathEnd m p := m p == 0x7f && m (p + 1) == 0xff
  nextDevicePathNode m p := p + m.le (p + 2) 2
  getDevicePathSize m p :=
    if h : ∃ d : DevicePath, m.Holds p d.bytes then h.choose.bytes.length else 0
  compareMem m p q n :=
    match (List.range n).find? fun i => m (p + i) != m (q + i) with
    | none => 0
    | some i => (m (p + i)).toNat - (m (q + i)).toNat

theorem devicePathLib_documented : devicePathLib.Documented := by
  refine ⟨fun {m p n} h => ?_, fun {m p n} h => ?_, fun {m p d} h => ?_, fun {m p q n} => ?_⟩
  · have htype : m p = n.type := h 0 (by simp [DevicePathNode.length])
    have hsub : m (p + 1) = n.subType := h 1 (by simp [DevicePathNode.length])
    simp only [devicePathLib, htype, hsub, DevicePathNode.isEnd]
  · have hrest : m.Holds (p + 2) (Cells.leBytes n.length 2) :=
      (Cells.Holds.right (l := [n.type, n.subType]) h).left
    have hlt : n.length < 2 ^ 16 := n.length_lt
    simp only [devicePathLib, hrest.le_eq]
    omega
  · have hd : ∃ d : DevicePath, m.Holds p d.bytes := ⟨d, h⟩
    have hnodes : hd.choose.nodes = d.nodes := hd.choose_spec.eq_of_flatMap selfDelimiting_bytes h
      hd.choose.endNode_notMem d.endNode_notMem
    exact (dif_pos hd).trans (by rw [DevicePath.bytes, DevicePath.bytes, hnodes])
  · simp only [devicePathLib]
    rcases hfind : (List.range n).find? fun i => m (p + i) != m (q + i) with _ | i
    · simpa using hfind
    · have hi := List.find?_some hfind
      have hmem := List.mem_range.1 (List.mem_of_find?_eq_some hfind)
      have hne : m (p + i) ≠ m (q + i) := by simpa using hi
      refine ⟨fun hzero => absurd (UInt8.toNat_inj.1 ?_) hne, fun hsame => absurd (hsame i hmem) hne⟩
      simp only [] at hzero
      omega

def nvmeNode : DevicePathNode := ⟨3, 0x17, [1, 0, 0, 0, 0, 0, 0, 0, 0, 0, 0, 0], by decide⟩

def partitionNode (n : UInt8) : DevicePathNode :=
  ⟨4, 1, n :: List.replicate 37 0, by simp⟩

/-- The file `a`. -/
def fileNode : DevicePathNode := ⟨4, 4, [0x61, 0, 0, 0], by decide⟩

def isFilePath (n : DevicePathNode) : Bool := n.type == 4 && n.subType == 4

def filePath : DevicePath := ⟨[nvmeNode, fileNode], by decide⟩

def partitionPath : DevicePath := ⟨[nvmeNode, partitionNode 1], by decide⟩

/-- Two paths in memory. -/
def pathMemory (d d' : DevicePath) : Cells UInt8 := fun a =>
  if a < 0x2000 then d.bytes.getD (a - 0x1000) 0 else d'.bytes.getD (a - 0x2000) 0

theorem pathMemory_holds :
    (pathMemory filePath partitionPath).Holds 0x1000 filePath.bytes
      ∧ (pathMemory filePath partitionPath).Holds 0x2000 partitionPath.bytes := by
  constructor
  · intro k hk
    have hlt : 0x1000 + k < 0x2000 := by
      have hlen : filePath.bytes.length = 28 := by decide
      omega
    rw [pathMemory, if_pos hlt, Nat.add_sub_cancel_left]
  · intro k hk
    rw [pathMemory, if_neg (by omega), Nat.add_sub_cancel_left]

/-- A handle with a file system, and one without a device path. -/
def partitionImage (call : FdtCall (List ℕ)) : LoadedImage (List ℕ) where
  device := true
  devicePath := 0x1000
  locateStatus := efiSuccess
  handles := [⟨0, efiSuccess, call⟩, ⟨0x2000, efiSuccess, call⟩]

theorem fdtPlatformProcessLoadedImage_partition :
    ∃ run, fdtPlatformProcessLoadedImage devicePathLib (pathMemory filePath partitionPath) listEnv 1
        2 (partitionImage overlaidCall) platformOnly = some run
      ∧ ((partitionImage overlaidCall).device = true → (partitionImage overlaidCall).devicePath ≠ 0 →
        efiError (partitionImage overlaidCall).locateStatus = false →
        HandlesRun (pathMemory filePath partitionPath) filePath
          (partitionImage overlaidCall).handles run)
      ∧ ((partitionImage overlaidCall).device = false ∨ (partitionImage overlaidCall).devicePath = 0
        ∨ efiError (partitionImage overlaidCall).locateStatus = true → run.1 = []) :=
  fdtPlatformProcessLoadedImage_spec (x := partitionImage overlaidCall) devicePathLib_documented
    (fun _ => pathMemory_holds.1) le_rfl platformOnly

/-- A volume that cannot be opened. -/
def unopenedCall : FdtCall (List ℕ) := { overlaidCall with openVolumeStatus := efiDeviceError }

/-- A partition of the disk the file is on is processed, though its path is not the file's parent. -/
theorem partition_processed :
    ¬ ∀ (m : Cells UInt8) (x : LoadedImage (List ℕ)) (image : DevicePath) (s : FdtState (List ℕ))
      run, m.Holds x.devicePath image.bytes →
      fdtPlatformProcessLoadedImage devicePathLib m listEnv 1 image.nodes.length x s = some run →
      ∀ v ∈ run.1, ∀ d : DevicePath, m.Holds v.1.devicePath d.bytes →
        (v.2 = true ↔ efiError v.1.protocolStatus = false
          ∧ d.nodes = image.nodes.takeWhile fun n => !isFilePath n) := by
  intro h
  have hrun : fdtPlatformProcessLoadedImage devicePathLib (pathMemory filePath partitionPath)
      listEnv 1 2 (partitionImage unopenedCall) platformOnly
      = some ([(⟨0, efiSuccess, unopenedCall⟩, false), (⟨0x2000, efiSuccess, unopenedCall⟩, true)],
        .ok (efiDeviceError, platformOnly)) := rfl
  have himage : (pathMemory filePath partitionPath).Holds (partitionImage unopenedCall).devicePath
      filePath.bytes := pathMemory_holds.1
  have hiff := h _ (partitionImage unopenedCall) filePath platformOnly _ himage hrun
    (⟨0x2000, efiSuccess, unopenedCall⟩, true) (List.mem_cons_of_mem _ List.mem_cons_self)
    partitionPath pathMemory_holds.2
  have hnodes := (hiff.1 rfl).2
  exact absurd (congrArg List.length hnodes) (by decide)

end Example

end Edk2Rk3576
