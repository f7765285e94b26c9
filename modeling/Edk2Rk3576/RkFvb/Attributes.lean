import Edk2Rk3576.RkFvb.HeaderFormat

/-!
# The attributes of the volume

`FvbSetAttributes` checks what is asked against the attributes of the header in the shadow and
returns what it grants, but stores nothing: only what is there already is granted in truth. Reads and
writes do not look at the attributes, and erases only where the header is known to be valid.

A trace keeps the attributes granted last. As long as only the status bits that the header has are
asked for, nothing is called that the granted ones disable, and no write or erase reaches the word
they are in, all the calls of the protocol do what was granted.
-/

namespace Edk2Rk3576

open Cells

def efiFvb2ReadDisabledCap : UInt32 := 0x1
def efiFvb2ReadEnabledCap : UInt32 := 0x2
def efiFvb2ReadStatus : UInt32 := 0x4
def efiFvb2WriteDisabledCap : UInt32 := 0x8
def efiFvb2WriteEnabledCap : UInt32 := 0x10
def efiFvb2LockCap : UInt32 := 0x40
def efiFvb2LockStatus : UInt32 := 0x80
def efiFvb2StickyWrite : UInt32 := 0x200
def efiFvb2MemoryMapped : UInt32 := 0x400
def efiFvb2ErasePolarity : UInt32 := 0x800
def efiFvb2ReadLockCap : UInt32 := 0x1000
def efiFvb2WriteLockCap : UInt32 := 0x4000
def efiFvb2Alignment : UInt32 := 0x1F0000

def efiFvb2Capabilities : UInt32 :=
  efiFvb2ReadDisabledCap ||| efiFvb2ReadEnabledCap ||| efiFvb2WriteDisabledCap
    ||| efiFvb2WriteEnabledCap ||| efiFvb2LockCap

def efiFvb2Status : UInt32 :=
  efiFvb2ReadStatus ||| UInt32.ofNat efiFvb2WriteStatus ||| efiFvb2LockStatus

/-- The attributes that are read only. -/
def unchangedAttributes : UInt32 :=
  efiFvb2ReadDisabledCap ||| efiFvb2ReadEnabledCap ||| efiFvb2WriteDisabledCap
    ||| efiFvb2WriteEnabledCap ||| efiFvb2LockCap ||| efiFvb2StickyWrite ||| efiFvb2ErasePolarity
    ||| efiFvb2ReadLockCap ||| efiFvb2WriteLockCap ||| efiFvb2Alignment ||| efiFvb2MemoryMapped

/-- One of the tests of `FvbSetAttributes`: a capability the volume lacks, and a status that would
need it. -/
def statusRefused (capabilities capability : UInt32) (asked : Prop) : Prop :=
  capabilities &&& capability = 0 ∧ asked

/-- The five tests of the status bits against the capabilities. -/
def statusNotCapable (capabilities newStatus : UInt32) : Prop :=
  let writeStatus := UInt32.ofNat efiFvb2WriteStatus
  statusRefused capabilities efiFvb2ReadDisabledCap (newStatus &&& efiFvb2ReadStatus = 0)
    ∨ statusRefused capabilities efiFvb2ReadEnabledCap (newStatus &&& efiFvb2ReadStatus ≠ 0)
    ∨ statusRefused capabilities efiFvb2WriteDisabledCap (newStatus &&& writeStatus = 0)
    ∨ statusRefused capabilities efiFvb2WriteEnabledCap (newStatus &&& writeStatus ≠ 0)
    ∨ statusRefused capabilities efiFvb2LockCap (newStatus &&& efiFvb2LockStatus ≠ 0)

instance {capabilities newStatus : UInt32} : Decidable (statusNotCapable capabilities newStatus) := by
  unfold statusNotCapable statusRefused
  infer_instance

/-- Asked for, with these attributes in the header, `FvbSetAttributes` refuses it. -/
def setRefused (old asked : UInt32) : Prop :=
  old &&& unchangedAttributes ≠ asked &&& unchangedAttributes
    ∨ (old &&& efiFvb2LockStatus ≠ 0 ∧ old &&& efiFvb2Status ≠ asked &&& efiFvb2Status)
    ∨ statusNotCapable (old &&& efiFvb2Capabilities) (asked &&& efiFvb2Status)

section Protocol

variable (g : FvbGeometry) (E : NorEnv) (nor : SpiNor)

/-- `FvbSetAttributes`, with what `*Attributes` is left as. -/
def fvbSetAttributes (ram : Cells UInt8) (attributes : UInt32) : EfiStatus × UInt32 :=
  let flashFvbAttributes := UInt32.ofNat (fvbGetAttributes g ram)
  let oldAttributes := flashFvbAttributes
  let capabilities := oldAttributes &&& efiFvb2Capabilities
  let oldStatus := oldAttributes &&& efiFvb2Status
  let newStatus := attributes &&& efiFvb2Status
  if oldAttributes &&& unchangedAttributes ≠ attributes &&& unchangedAttributes then
    (efiInvalidParameter, attributes)
  else if oldAttributes &&& efiFvb2LockStatus ≠ 0 ∧ oldStatus ≠ newStatus then
    (efiAccessDenied, attributes)
  else if statusNotCapable capabilities newStatus then
    (efiInvalidParameter, attributes)
  else
    let flashFvbAttributes := flashFvbAttributes &&& (0xFFFFFFFF &&& ~~~efiFvb2Status)
    let flashFvbAttributes := flashFvbAttributes ||| newStatus
    (efiSuccess, flashFvbAttributes)

inductive FvbCall
  | setAttributes (attributes : UInt32)
  | getAttributes
  | read (lba offset n : ℕ)
  | block (op : FvbOp)

/-- What a call returns: a status, the attributes it left in its argument, the bytes it read. -/
structure FvbResult where
  status : EfiStatus
  attributes : UInt32
  data : List UInt8

def FvbCall.exec (s : FvbState) : FvbCall → FvbResult × FvbState
  | .setAttributes attributes =>
    let (status, attributes) := fvbSetAttributes g s.ram attributes
    (⟨status, attributes, []⟩, s)
  | .getAttributes => (⟨efiSuccess, UInt32.ofNat (fvbGetAttributes g s.ram), []⟩, s)
  | .read lba offset n =>
    let (status, data) := fvbRead g s.ram lba offset n
    (⟨status, 0, data⟩, s)
  | .block op =>
    let (status, s) := op.exec g E nor s
    (⟨status, 0, []⟩, s)

/-- The driver, and the attributes granted last. -/
structure FvbTrace where
  fvb : FvbState
  granted : Option UInt32

def FvbTrace.step (t : FvbTrace) (call : FvbCall) : FvbTrace where
  fvb := (call.exec g E nor t.fvb).2
  granted :=
    match call with
    | .setAttributes _ =>
      if efiError (call.exec g E nor t.fvb).1.status then t.granted
      else some (call.exec g E nor t.fvb).1.attributes
    | _ => t.granted

def fvbAttributes (s : FvbState) : UInt32 := UInt32.ofNat (fvbGetAttributes g s.ram)

/-- A call is denied, and without effect, exactly in this case. -/
def DeniedExactly (denied : Prop) (s : FvbState) (r : FvbResult × FvbState) : Prop :=
  (r.1.status = efiAccessDenied ↔ denied) ∧ (denied → r.1.data = [] ∧ r.2 = s)

/-- What was granted last is what the call goes by. -/
structure AttributesLawful (t : FvbTrace) (call : FvbCall) : Prop where
  get : call = .getAttributes → ∀ v, t.granted = some v → (call.exec g E nor t.fvb).1.attributes = v
  read : ∀ lba offset n, call = .read lba offset n → ∀ v, t.granted = some v →
    DeniedExactly (v &&& efiFvb2ReadStatus = 0) t.fvb (call.exec g E nor t.fvb)
  block : ∀ op, call = .block op → ∀ v, t.granted = some v →
    DeniedExactly (v &&& UInt32.ofNat efiFvb2WriteStatus = 0) t.fvb (call.exec g E nor t.fvb)
  locked : fvbAttributes g t.fvb &&& efiFvb2LockStatus ≠ 0 →
    fvbAttributes g (call.exec g E nor t.fvb).2 &&& efiFvb2Status
      = fvbAttributes g t.fvb &&& efiFvb2Status
  failed : ∀ attributes, call = .setAttributes attributes →
    efiError (call.exec g E nor t.fvb).1.status = true → (call.exec g E nor t.fvb).2 = t.fvb

def attributeBytes : Set ℕ :=
  Set.Ico (g.regionBaseAddress + fvHeaderAttributes) (g.regionBaseAddress + fvHeaderAttributes + 4)

/-- Memory at `i` is among the `n` bytes from `addr`, which may wrap. -/
def InBytes (addr n i : ℕ) : Prop := i < uintn ∧ ringOffset uintn addr i < n

/-- The attributes are to be kept: some were granted, or they are locked. -/
def FvbTrace.Binding (t : FvbTrace) : Prop :=
  t.granted.isSome = true ∨ fvbAttributes g t.fvb &&& efiFvb2LockStatus ≠ 0

/-- What a call must be like for the driver to do what was granted. -/
def FvbCall.Honoured (t : FvbTrace) : FvbCall → Prop
  | .setAttributes attributes => setRefused (fvbAttributes g t.fvb) attributes
      ∨ attributes &&& efiFvb2Status = fvbAttributes g t.fvb &&& efiFvb2Status
  | .getAttributes => True
  | .read _ _ _ => ∀ v, t.granted = some v → v &&& efiFvb2ReadStatus ≠ 0
  | .block (.write lba offset n buffer) =>
    (∀ v, t.granted = some v → v &&& UInt32.ofNat efiFvb2WriteStatus ≠ 0)
      ∧ (t.Binding g → ∀ i ∈ attributeBytes g, InBytes (fvbShadowAddr g lba offset) n i →
          buffer (ringOffset uintn (fvbShadowAddr g lba offset) i) = t.fvb.ram i)
  | .block (.erase args) =>
    (∀ v, t.granted = some v → v &&& UInt32.ofNat efiFvb2WriteStatus = 0 →
        t.fvb.dev.isFvbHeaderValid = true)
      ∧ (t.Binding g → fvbWriteDisabled g t.fvb ∨ (∃ p ∈ fvbErasePairs args, fvbPairRejected p)
          ∨ ∀ lba ∈ fvbEraseLbas args, ∀ i ∈ attributeBytes g,
            InBytes (fvbShadowAddr g lba 0) fvbBlockSize i → t.fvb.ram i = 0xFF)

end Protocol

section Bits

/-- The status bits put in place of the old ones are the old word just if they are its own. -/
theorem replace_eq_of_status {old asked m : UInt32} (h : asked &&& m = old &&& m) :
    old &&& (0xFFFFFFFF &&& ~~~m) ||| (asked &&& m) = old := by
  have hones : (0xFFFFFFFF : UInt32) &&& ~~~m = ~~~m := UInt32.neg_one_and
  rw [h, hones]
  apply UInt32.eq_of_toBitVec_eq
  ext i hi
  simp only [UInt32.toBitVec_or, UInt32.toBitVec_and, UInt32.toBitVec_not, BitVec.getElem_or,
    BitVec.getElem_and, BitVec.getElem_not]
  cases old.toBitVec[i] <;> cases m.toBitVec[i] <;> rfl

theorem lockStatus_of_status {a b : UInt32} (h : a &&& efiFvb2Status = b &&& efiFvb2Status) :
    a &&& efiFvb2LockStatus = b &&& efiFvb2LockStatus := by
  have hmask : efiFvb2Status &&& efiFvb2LockStatus = efiFvb2LockStatus := by decide
  rw [← hmask, ← UInt32.and_assoc, h, UInt32.and_assoc]

end Bits

section Calls

variable {g : FvbGeometry} {E : NorEnv} {nor : SpiNor} {s : FvbState} {t : FvbTrace} {i : ℕ}

theorem fvbSetAttributes_cases (ram : Cells UInt8) (attributes : UInt32) :
    (setRefused (UInt32.ofNat (fvbGetAttributes g ram)) attributes
        ∧ efiError (fvbSetAttributes g ram attributes).1 = true)
      ∨ ¬ setRefused (UInt32.ofNat (fvbGetAttributes g ram)) attributes
        ∧ fvbSetAttributes g ram attributes = (efiSuccess,
          UInt32.ofNat (fvbGetAttributes g ram) &&& (0xFFFFFFFF &&& ~~~efiFvb2Status)
            ||| (attributes &&& efiFvb2Status)) := by
  unfold fvbSetAttributes setRefused
  simp only []
  split_ifs with hunchanged hlocked hcapable
  · exact Or.inl ⟨Or.inl hunchanged, efiError_invalidParameter⟩
  · exact Or.inl ⟨Or.inr (Or.inl hlocked), efiError_accessDenied⟩
  · exact Or.inl ⟨Or.inr (Or.inr hcapable), efiError_invalidParameter⟩
  · exact Or.inr ⟨by rintro (h | h | h) <;> contradiction, rfl⟩

/-- Of bytes put into memory, one that is there already changes nothing. -/
theorem rmodify_of_same {m : Cells UInt8} {a n : ℕ} {f : ℕ → UInt8 → UInt8}
    (h : InBytes a n i → f (ringOffset uintn a i) (m i) = m i) : rmodify uintn m a n f i = m i := by
  unfold rmodify
  split_ifs with hin
  · exact h hin
  · rfl

theorem fvbWrite_ram_of_same {lba offset n : ℕ} {buffer : Cells UInt8}
    (h : InBytes (fvbShadowAddr g lba offset) n i →
      buffer (ringOffset uintn (fvbShadowAddr g lba offset) i) = s.ram i) :
    (fvbWrite g E nor s lba offset n buffer).2.ram i = s.ram i := by
  by_cases hrejected : fvbWriteRejected g nor s.dev.isSpiFlashAvailable lba offset n
  · rw [fvbWrite_rejected hrejected]
  · rw [fvbWrite_accepted hrejected]
    exact @rmodify_of_same _ _ _ _ (fun k _ => buffer k) h

theorem fvbEraseEach_ram_of_same : ∀ (lbas : List ℕ) (s : FvbState),
    (∀ lba ∈ lbas, InBytes (fvbShadowAddr g lba 0) fvbBlockSize i → s.ram i = 0xFF) →
    (fvbEraseEach g E nor s lbas).2.ram i = s.ram i
  | [], _, _ => rfl
  | lba :: lbas, s, h => by
    have hblock : (fvbEraseBlock g E nor s lba).2.ram i = s.ram i := by
      rcases fvbEraseBlock_cases g E nor s lba with ⟨-, -, -, heq⟩ | ⟨-, chip, heq, -⟩
      · rw [heq]
      · rw [heq]
        exact @rmodify_of_same _ _ _ _ (fun _ _ => 0xFF) fun hin =>
          (h lba List.mem_cons_self hin).symm
    unfold fvbEraseEach
    split_ifs
    · exact hblock
    · rw [fvbEraseEach_ram_of_same lbas _ fun lba' hl hin => by
        rw [hblock]
        exact h lba' (List.mem_cons_of_mem _ hl) hin]
      exact hblock

theorem fvbAttributes_congr {s' : FvbState} (h : ∀ i ∈ attributeBytes g, s'.ram i = s.ram i) :
    fvbAttributes g s' = fvbAttributes g s := by
  unfold fvbAttributes fvbGetAttributes
  rw [le_congr fun k hk => h _ ⟨by omega, by omega⟩]

/-- The write status, of the word and of the number it is read as. -/
theorem writeStatus_eq_zero_iff : fvbAttributes g s &&& UInt32.ofNat efiFvb2WriteStatus = 0
    ↔ fvbGetAttributes g s.ram &&& efiFvb2WriteStatus = 0 := by
  have hlt : fvbGetAttributes g s.ram < 2 ^ 32 := le_lt 4 _
  rw [← UInt32.toNat_inj, UInt32.toNat_and, fvbAttributes, UInt32.toNat_ofNat_of_lt' hlt]
  rfl

/-- What is granted is what the header has. -/
def FvbTrace.Granted (g : FvbGeometry) (t : FvbTrace) : Prop :=
  ∀ v, t.granted = some v → fvbAttributes g t.fvb = v

/-- A block operation that is honoured keeps the attributes, if they are to be kept. -/
theorem block_attributes {op : FvbOp} (h : FvbCall.Honoured g t (.block op)) (hb : t.Binding g) :
    fvbAttributes g (op.exec g E nor t.fvb).2 = fvbAttributes g t.fvb := by
  cases op with
  | write lba offset n buffer =>
    exact fvbAttributes_congr fun i hi => fvbWrite_ram_of_same (h.2 hb i hi)
  | erase args =>
    rcases fvbEraseBlocks_status g E nor t.fvb args with ⟨heq, -⟩ | ⟨heq, -⟩ | ⟨heq, hen, hval⟩
    · rw [FvbOp.exec, heq]
    · rw [FvbOp.exec, heq]
    · rw [FvbOp.exec, heq]
      rcases h.2 hb with hdis | hrej | hspares
      · exact absurd hdis hen
      · exact absurd hrej hval
      · exact fvbAttributes_congr fun i hi =>
          fvbEraseEach_ram_of_same _ _ fun lba hl => hspares lba hl i hi

/-- An operation that is not denied for the attributes has another status. -/
theorem block_denied {op : FvbOp} (h : FvbCall.Honoured g t (.block op)) (hg : t.Granted g)
    {v : UInt32} (hv : t.granted = some v) :
    DeniedExactly (v &&& UInt32.ofNat efiFvb2WriteStatus = 0) t.fvb
      ((FvbCall.block op).exec g E nor t.fvb) := by
  cases op with
  | write lba offset n buffer =>
    have hwritable := h.1 v hv
    refine ⟨⟨fun hst => ?_, fun hdis => absurd hdis hwritable⟩, fun hdis => absurd hdis hwritable⟩
    by_cases hrejected : fvbWriteRejected g nor t.fvb.dev.isSpiFlashAvailable lba offset n
    · simp only [FvbCall.exec, FvbOp.exec, fvbWrite_rejected hrejected] at hst
      exact absurd hst (by decide)
    · simp only [FvbCall.exec, FvbOp.exec, fvbWrite_accepted hrejected] at hst
      exact absurd hst (by decide)
  | erase args =>
    have hstatus := @writeStatus_eq_zero_iff g t.fvb
    rw [hg v hv] at hstatus
    rcases fvbEraseBlocks_status g E nor t.fvb args with
      ⟨heq, hdis⟩ | ⟨heq, hen, -⟩ | ⟨heq, hen, -⟩
    · have hzero := hstatus.2 hdis.2
      simp only [FvbCall.exec, FvbOp.exec, heq]
      exact ⟨⟨fun _ => hzero, fun _ => rfl⟩, fun _ => ⟨rfl, rfl⟩⟩
    · have hnot : ¬ v &&& UInt32.ofNat efiFvb2WriteStatus = 0 := fun hzero =>
        hen ⟨h.1 v hv hzero, hstatus.1 hzero⟩
      simp only [FvbCall.exec, FvbOp.exec, heq]
      refine ⟨⟨fun hst => ?_, fun hz => absurd hz hnot⟩, fun hz => absurd hz hnot⟩
      exact absurd hst (show efiInvalidParameter ≠ efiAccessDenied by decide)
    · have hnot : ¬ v &&& UInt32.ofNat efiFvb2WriteStatus = 0 := fun hzero =>
        hen ⟨h.1 v hv hzero, hstatus.1 hzero⟩
      simp only [FvbCall.exec, FvbOp.exec, heq]
      refine ⟨⟨fun hst => ?_, fun hz => absurd hz hnot⟩, fun hz => absurd hz hnot⟩
      simp only [] at hst
      rcases fvbEraseEach_status g E nor (fvbEraseLbas args) t.fvb with hok | hok <;>
        rw [hok] at hst <;> exact absurd hst (by decide)

theorem fvbRead_status (ram : Cells UInt8) (lba offset n : ℕ) :
    (fvbRead g ram lba offset n).1 ≠ efiAccessDenied := by
  have hsize : efiBadBufferSize ≠ efiAccessDenied := by decide
  have hsuccess : efiSuccess ≠ efiAccessDenied := by decide
  unfold fvbRead
  split_ifs
  · exact hsize
  · exact hsuccess
  · exact hsuccess

/-- Such a call does what was granted, and what was granted last is what the header has. -/
theorem attributesLawful_step {call : FvbCall} (hg : t.Granted g) (h : call.Honoured g t) :
    (t.step g E nor call).Granted g ∧ AttributesLawful g E nor t call := by
  cases call with
  | setAttributes attributes =>
    refine ⟨fun v hv => ?_, by simp, by simp, by simp, fun _ => rfl, fun _ _ _ => rfl⟩
    rcases fvbSetAttributes_cases (g := g) t.fvb.ram attributes with ⟨-, herr⟩ | ⟨hnot, heq⟩
    · simp only [FvbTrace.step, FvbCall.exec, herr, if_true] at hv
      exact hg v hv
    · have hstatus := h.resolve_left hnot
      simp only [FvbTrace.step, FvbCall.exec, heq, efiError_success, Bool.false_eq_true, if_false,
        Option.some.injEq] at hv
      exact (replace_eq_of_status hstatus).symm.trans hv
  | getAttributes =>
    exact ⟨hg, fun _ v hv => hg v hv, by simp, by simp, fun _ => rfl, by simp⟩
  | read lba offset n =>
    refine ⟨hg, by simp, fun lba' offset' n' heq v hv => ?_, by simp, fun _ => rfl, by simp⟩
    have hreadable := h v hv
    refine ⟨⟨fun hst => ?_, fun hdis => absurd hdis hreadable⟩, fun hdis => absurd hdis hreadable⟩
    exact absurd hst (fvbRead_status t.fvb.ram lba offset n)
  | block op =>
    have hkept : ∀ v, t.granted = some v → fvbAttributes g (op.exec g E nor t.fvb).2 = v := by
      intro v hv
      rw [block_attributes h (Or.inl (by rw [hv]; rfl))]
      exact hg v hv
    refine ⟨hkept, by simp, by simp, fun op' heq v hv => ?_, fun hlocked => ?_, by simp⟩
    · exact block_denied h hg hv
    · have heq : fvbAttributes g (op.exec g E nor t.fvb).2 = fvbAttributes g t.fvb :=
        block_attributes h (Or.inr hlocked)
      exact congrArg (· &&& efiFvb2Status) heq

def FvbTrace.init (s : FvbState) : FvbTrace := ⟨s, none⟩

/-- Where the runs get to whose calls are all honoured. -/
def FvbTrace.ReachedFrom (g : FvbGeometry) (E : NorEnv) (nor : SpiNor) (t t' : FvbTrace) : Prop :=
  Reached (FvbTrace.step g E nor) (fun t call => call.Honoured g t) t t'

theorem ReachedFrom.granted {t' : FvbTrace} (h : t.ReachedFrom g E nor t') (hg : t.Granted g) :
    t'.Granted g :=
  h.invariant hg fun _ _ hg hh => (attributesLawful_step hg hh).1

theorem ReachedFrom.locked {t' : FvbTrace} (h : t.ReachedFrom g E nor t') (hg : t.Granted g)
    (hlocked : fvbAttributes g t.fvb &&& efiFvb2LockStatus ≠ 0) :
    fvbAttributes g t'.fvb &&& efiFvb2Status = fvbAttributes g t.fvb &&& efiFvb2Status := by
  have hkept : t'.Granted g
      ∧ fvbAttributes g t'.fvb &&& efiFvb2Status = fvbAttributes g t.fvb &&& efiFvb2Status := by
    induction h with
    | start => exact ⟨hg, rfl⟩
    | next call _ hh ih =>
      obtain ⟨hnext, hlawful⟩ := attributesLawful_step ih.1 hh
      refine ⟨hnext, (hlawful.locked ?_).trans ih.2⟩
      rw [lockStatus_of_status ih.2]
      exact hlocked
  exact hkept.2

/-- In a run of such calls, each one does what was granted, and from where the lock is set on the
status bits stay. -/
theorem fvbAttributes_lawful {s : FvbState} (h : (FvbTrace.init s).ReachedFrom g E nor t) :
    (∀ call : FvbCall, call.Honoured g t → AttributesLawful g E nor t call)
      ∧ ∀ t', t.ReachedFrom g E nor t' → fvbAttributes g t.fvb &&& efiFvb2LockStatus ≠ 0 →
        fvbAttributes g t'.fvb &&& efiFvb2Status = fvbAttributes g t.fvb &&& efiFvb2Status := by
  have hinit : (FvbTrace.init s).Granted g := by simp [FvbTrace.Granted, FvbTrace.init]
  have hg := ReachedFrom.granted h hinit
  exact ⟨fun call hh => (attributesLawful_step hg hh).2, fun t' h' => ReachedFrom.locked h' hg⟩

end Calls

section Volumes

/-- A volume header with these attributes, its checksum right, and the store header. -/
def headersWith (attributes : ℕ) : List UInt8 :=
  let header := fun checksum => fieldBytes ((volumeFields rock4dGeometry checksum).set 4 (attributes, 4))
  let sum := calculateSum16 (bufferCells (header 0)) 0 (fvhSize / 2)
  header ((2 ^ 16 - sum) % 2 ^ 16) ++ fvbStoreHeader rock4dGeometry

/-- A region that starts with them. -/
def volumeWith (attributes : ℕ) : FvbState :=
  { FvbState.zeros false with
    ram := fun i => (headersWith attributes).getD (i - rock4dGeometry.regionBaseAddress) 0 }

/-- The attributes that the driver itself installs, asked for again. -/
theorem fvbAttributes_lawful_installed :
    let t := (FvbTrace.init (volumeWith fvbFeatureAttributes)).step rock4dGeometry NorEnv.healthy
      spiNor16M (.setAttributes 0xE36)
    t.granted = some 0xE36
      ∧ AttributesLawful rock4dGeometry NorEnv.healthy spiNor16M t .getAttributes := by
  intro t
  have hfirst : (FvbCall.setAttributes 0xE36).Honoured rock4dGeometry
      (FvbTrace.init (volumeWith fvbFeatureAttributes)) := Or.inr (by decide +kernel)
  have hreached : (FvbTrace.init (volumeWith fvbFeatureAttributes)).ReachedFrom rock4dGeometry
      NorEnv.healthy spiNor16M t := Reached.start.next _ hfirst
  exact ⟨by decide +kernel, (fvbAttributes_lawful hreached).1 .getAttributes trivial⟩

/-- On a valid volume that can be read disabled, disabling it is granted, and the next read reads. -/
theorem fvbAttributes_not_lawful :
    fvbValidateFvHeader rock4dGeometry (volumeWith 0xE37).ram = some efiSuccess
      ∧ ¬ ∀ t, Reached (FvbTrace.step rock4dGeometry NorEnv.healthy spiNor16M) (fun _ _ => True)
          (FvbTrace.init (volumeWith 0xE37)) t →
          ∀ call, AttributesLawful rock4dGeometry NorEnv.healthy spiNor16M t call := by
  refine ⟨by decide +kernel, fun hall => ?_⟩
  have hgranted : ((FvbTrace.init (volumeWith 0xE37)).step rock4dGeometry NorEnv.healthy spiNor16M
      (.setAttributes 0xE33)).granted = some 0xE33 := by decide +kernel
  have hlawful := hall _ (Reached.start.next (.setAttributes 0xE33) trivial) (.read 0 0 1)
  have hdenied := (hlawful.read 0 0 1 rfl 0xE33 hgranted).1.2 (by decide)
  exact @fvbRead_status rock4dGeometry (volumeWith 0xE37).ram 0 0 1 hdenied

end Volumes

end Edk2Rk3576
