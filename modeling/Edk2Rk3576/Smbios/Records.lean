import Edk2Rk3576.Efi
import Edk2Rk3576.Lib.Terminated
import Mathlib.Data.List.Basic
import Mathlib.Data.List.GetD

/-!
# SMBIOS records

`LogSmbiosData` makes a record of a fixed structure and a pack of strings, that are put behind it
with their terminators, and a terminator behind the last. A string of the record is named by its
index, which is counted by walking over the strings, to the first that is empty.

A pack that is null is sized, and then read all the same.
-/

namespace Edk2Rk3576

/-- A `CHAR8` string, without its terminator. -/
structure AsciiStr where
  chars : List UInt8
  nonzero : 0 ∉ chars

def AsciiStr.bytes (s : AsciiStr) : List UInt8 := s.chars ++ [0]

def asciiStrSize (s : AsciiStr) : ℕ := s.chars.length + 1

/-- `EFI_SMBIOS_TABLE_HEADER` and the rest of a fixed structure: its second byte is its length. -/
structure SmbiosTemplate where
  bytes : List UInt8
  header : 4 ≤ bytes.length
  length_eq : (bytes.getD 1 0).toNat = bytes.length

def smbiosHandlePiReserved : UInt16 := 0xFFFE

/-- How a call does not come to an end: it reads the null pack, or writes past the record. -/
inductive SmbiosHalt
  | nullPack
  | outside
  deriving DecidableEq

/-- How locating the protocol ends, whether there is memory, what `Smbios->Add` does with a handle
and a record, and whether `ASSERT_EFI_ERROR` is compiled in. -/
structure SmbiosEnv where
  located : EfiStatus
  allocated : Bool
  add : UInt16 → List UInt8 → EfiStatus × UInt16
  debugAssert : Bool

/-- What is returned, the record that was added, the handle that was passed out, and whether the
assertion behind the adding failed. -/
structure SmbiosRun where
  status : EfiStatus
  added : Option (List UInt8)
  handle : Option UInt16
  asserted : Bool

section Model

/-- `Template->Length`, and `Record->Length`. -/
def headerLength (bytes : List UInt8) : ℕ := (bytes.getD 1 0).toNat

variable (template : SmbiosTemplate) (stringPack : Option (List AsciiStr))

/-- `Size`. -/
def smbiosSize : ℕ :=
  match stringPack with
  | none => headerLength template.bytes + 2
  | some strings =>
    let size := strings.foldl (fun size s => size + asciiStrSize s) (headerLength template.bytes)
    let size := if strings = [] then size + 1 else size
    size + 1

/-- `CopyMem` into the record. -/
def recordCopyMem (record : List UInt8) (str : ℕ) (bytes : List UInt8) :
    Except SmbiosHalt (List UInt8) :=
  match Terminated.put record str bytes with
  | none => .error .outside
  | some record => .ok record

/-- The second loop, with the record and `Str`. -/
def appendStrings : List AsciiStr → List UInt8 × ℕ → Except SmbiosHalt (List UInt8 × ℕ)
  | [], s => .ok s
  | string :: strings, (record, str) => do
    let record ← recordCopyMem record str string.bytes
    appendStrings strings (record, str + asciiStrSize string)

/-- The record, from where it is allocated to where it is added. -/
def smbiosRecord : Except SmbiosHalt (List UInt8) := do
  let record ← recordCopyMem (List.replicate (smbiosSize template stringPack) 0) 0
    (template.bytes.take (headerLength template.bytes))
  match stringPack with
  | none => .error .nullPack
  | some strings =>
    let s ← appendStrings strings (record, headerLength record)
    recordCopyMem s.1 s.2 [0]

variable (env : SmbiosEnv)

/-- `wanted` tells whether there is a place for the new handle. -/
def logSmbiosData (wanted : Bool) : Except SmbiosHalt SmbiosRun :=
  if efiError env.located then .ok ⟨env.located, none, none, false⟩
  else if ¬ env.allocated then .ok ⟨efiOutOfResources, none, none, false⟩
  else do
    let record ← smbiosRecord template stringPack
    let added := env.add smbiosHandlePiReserved record
    return ⟨added.1, some record, if added.1 = efiSuccess ∧ wanted then some added.2 else none,
      env.debugAssert && efiError added.1⟩

end Model

section Spec

/-- What a string set takes: the strings with their terminators, and one more, or two zeros. -/
def stringSetSize (strings : List AsciiStr) : ℕ :=
  if strings = [] then 2 else (strings.map fun s => s.chars.length + 1).sum + 1

/-- The strings of a record, by a walk over what is behind its fixed part. -/
def smbiosStrings (record : List UInt8) : List (List UInt8) :=
  Terminated.read 0 [] (record.drop (headerLength record))

/-- A record of a fixed structure and its strings: index `i + 1` names the string at `i`. -/
structure IsRecord (template : SmbiosTemplate) (strings : List AsciiStr) (record : List UInt8) :
    Prop where
  length : record.length = template.bytes.length + stringSetSize strings
  fixed : record.take template.bytes.length = template.bytes
  ends : ∃ front, record = front ++ [0, 0]
  strings : ∀ i : ℕ, (smbiosStrings record)[i]? = (strings[i]?).map AsciiStr.chars

/-- Whatever record comes to be added is one of the structure and the pack's strings. -/
def RecordsPack (template : SmbiosTemplate) (stringPack : Option (List AsciiStr)) : Prop :=
  ∀ (env : SmbiosEnv) (wanted : Bool), efiError env.located = false → env.allocated = true →
    ∃ run record, logSmbiosData template stringPack env wanted = .ok run ∧
      run.added = some record ∧ IsRecord template (stringPack.getD []) record

end Spec

section Record

variable {template : SmbiosTemplate} {strings : List AsciiStr}

/-- The strings with their terminators. -/
def packedStrings (strings : List AsciiStr) : List UInt8 :=
  Terminated.pack 0 (strings.map AsciiStr.chars)

/-- The zeros that end a record. -/
def recordZeros (strings : List AsciiStr) : ℕ := if strings = [] then 2 else 1

theorem headerLength_template : headerLength template.bytes = template.bytes.length :=
  template.length_eq

theorem packedStrings_cons (s : AsciiStr) (strings : List AsciiStr) :
    packedStrings (s :: strings) = s.bytes ++ packedStrings strings := by
  rw [packedStrings, List.map_cons, Terminated.pack_cons, AsciiStr.bytes, List.append_assoc,
    List.singleton_append, packedStrings]

theorem packedStrings_length (strings : List AsciiStr) :
    (packedStrings strings).length = (strings.map fun s => s.chars.length + 1).sum := by
  rw [packedStrings, Terminated.pack_length, List.map_map]
  rfl

theorem foldl_size : ∀ (strings : List AsciiStr) (size : ℕ),
    strings.foldl (fun size s => size + asciiStrSize s) size =
      size + (packedStrings strings).length
  | [], _ => rfl
  | s :: strings, size => by
    rw [List.foldl_cons, foldl_size strings, packedStrings_cons, List.length_append, AsciiStr.bytes,
      List.length_append, List.length_singleton, asciiStrSize]
    omega

/-- The two loops agree: the first makes room for what the second writes. -/
theorem smbiosSize_eq : smbiosSize template (some strings) =
    template.bytes.length + ((packedStrings strings).length + recordZeros strings) := by
  unfold smbiosSize recordZeros
  simp only []
  rw [foldl_size, headerLength_template]
  split_ifs <;> omega

theorem recordCopyMem_append {pre old post bytes : List UInt8} (h : old.length = bytes.length) :
    recordCopyMem (pre ++ (old ++ post)) pre.length bytes = .ok (pre ++ (bytes ++ post)) := by
  rw [recordCopyMem, Terminated.put_append h]

/-- The second loop fills the zeros behind `pre`. -/
theorem appendStrings_eq : ∀ (strings : List AsciiStr) (pre : List UInt8) (k : ℕ),
    appendStrings strings
        (pre ++ List.replicate ((packedStrings strings).length + k) 0, pre.length) =
      .ok (pre ++ (packedStrings strings ++ List.replicate k 0),
        pre.length + (packedStrings strings).length)
  | [], pre, k => by
    rw [appendStrings, packedStrings, List.map_nil]
    simp [Terminated.pack]
  | s :: strings, pre, k => by
    have hlength : (packedStrings (s :: strings)).length + k =
        s.bytes.length + ((packedStrings strings).length + k) := by
      rw [packedStrings_cons, List.length_append]
      omega
    have hsize : asciiStrSize s = s.bytes.length := by
      rw [asciiStrSize, AsciiStr.bytes, List.length_append, List.length_singleton]
    have ih := appendStrings_eq strings (pre ++ s.bytes) k
    rw [List.length_append, List.append_assoc, List.append_assoc] at ih
    rw [hlength, List.replicate_add, appendStrings,
      recordCopyMem_append List.length_replicate, hsize]
    change appendStrings strings (pre ++ (s.bytes ++ List.replicate _ 0), _) = _
    rw [ih, packedStrings_cons, List.length_append, List.append_assoc, Nat.add_assoc]

/-- The record that is added. -/
theorem smbiosRecord_eq : smbiosRecord template (some strings) =
    .ok (template.bytes ++ (packedStrings strings ++ List.replicate (recordZeros strings) 0)) := by
  have hcopy : recordCopyMem (List.replicate (smbiosSize template (some strings)) 0) 0
      (template.bytes.take (headerLength template.bytes)) =
      .ok (template.bytes ++
        List.replicate ((packedStrings strings).length + recordZeros strings) 0) := by
    rw [smbiosSize_eq, headerLength_template, List.take_length, List.replicate_add]
    exact @recordCopyMem_append [] _ _ _ List.length_replicate
  have hheader (rest : List UInt8) : headerLength (template.bytes ++ rest) =
      template.bytes.length := by
    have := template.header
    rw [headerLength, List.getD_append _ _ _ _ (by omega)]
    exact template.length_eq
  have hend : recordZeros strings = 1 + (recordZeros strings - 1) := by
    unfold recordZeros
    split_ifs <;> rfl
  unfold smbiosRecord
  rw [hcopy]
  simp only [Except.bind, bind]
  rw [hheader, appendStrings_eq]
  simp only []
  rw [hend, List.replicate_add, ← List.append_assoc, ← List.length_append]
  exact recordCopyMem_append rfl

/-- The record of a structure and strings. -/
def recordOf (template : SmbiosTemplate) (strings : List AsciiStr) : List UInt8 :=
  template.bytes ++ (packedStrings strings ++ List.replicate (recordZeros strings) 0)

theorem recordOf_length : (recordOf template strings).length =
    template.bytes.length + stringSetSize strings := by
  rw [recordOf, List.length_append, List.length_append, List.length_replicate,
    packedStrings_length, recordZeros, stringSetSize]
  split_ifs with h
  · rw [h]
    rfl
  · rfl

theorem recordOf_ends : ∃ front, recordOf template strings = front ++ [0, 0] := by
  unfold recordOf recordZeros
  split_ifs with h
  · exact ⟨template.bytes ++ packedStrings strings, by rw [List.append_assoc]; rfl⟩
  · have hne : strings.map AsciiStr.chars ≠ [] := fun hnil => h (List.map_eq_nil_iff.1 hnil)
    obtain ⟨front, hfront⟩ := @Terminated.pack_ends UInt8 0 _ hne
    refine ⟨template.bytes ++ front, ?_⟩
    rw [packedStrings, hfront, List.append_assoc, List.append_assoc]
    rfl

/-- The walk over a record meets the pack, and then a terminator. -/
theorem smbiosStrings_recordOf : ∃ rest, smbiosStrings (recordOf template strings) =
    Terminated.read 0 [] (packedStrings strings ++ 0 :: rest) := by
  have hheader : headerLength (recordOf template strings) = template.bytes.length := by
    have := template.header
    rw [headerLength, recordOf, List.getD_append _ _ _ _ (by omega)]
    exact template.length_eq
  refine ⟨List.replicate (recordZeros strings - 1) 0, ?_⟩
  rw [smbiosStrings, hheader, recordOf, List.drop_left]
  unfold recordZeros
  split_ifs <;> rfl

/-- The record names its strings where none of them is empty. -/
theorem isRecord_iff : IsRecord template strings (recordOf template strings) ↔
    ∀ s ∈ strings, s.chars ≠ [] := by
  obtain ⟨rest, hwalk⟩ := @smbiosStrings_recordOf template strings
  have hnonzero : ∀ w ∈ strings.map AsciiStr.chars, (0 : UInt8) ∉ w := by
    intro w hw
    obtain ⟨s, -, rfl⟩ := List.mem_map.1 hw
    exact s.nonzero
  have hread := @Terminated.read_pack_iff UInt8 0 _ _ rest hnonzero
  rw [List.forall_mem_map, ← packedStrings, ← hwalk] at hread
  rw [← hread]
  constructor
  · intro h
    refine List.ext_getElem? fun i => ?_
    rw [h.strings i, List.getElem?_map]
  · intro h
    refine ⟨recordOf_length, ?_, recordOf_ends, fun i => ?_⟩
    · rw [recordOf, List.take_left]
    · rw [h, List.getElem?_map]

end Record

section Log

variable {template : SmbiosTemplate} {stringPack : Option (List AsciiStr)}

/-- What is added, where the protocol and memory are there. -/
theorem logSmbiosData_added {env : SmbiosEnv} {wanted : Bool} {strings : List AsciiStr}
    (hlocated : efiError env.located = false) (hallocated : env.allocated = true) :
    ∃ run, logSmbiosData template (some strings) env wanted = .ok run ∧
      run.added = some (recordOf template strings) := by
  unfold logSmbiosData
  rw [if_neg (by rw [hlocated]; decide), if_neg (not_not.2 hallocated), smbiosRecord_eq]
  exact ⟨_, rfl, rfl⟩

/-- The protocol and memory are there, and each record is added. -/
def addingEnv : SmbiosEnv := ⟨efiSuccess, true, fun handle _ => (efiSuccess, handle), false⟩

theorem RecordsPack.isRecord {strings : List AsciiStr} (h : RecordsPack template (some strings)) :
    IsRecord template strings (recordOf template strings) := by
  obtain ⟨run, record, hrun, hadded, hrecord⟩ := h addingEnv false rfl rfl
  obtain ⟨run', hrun', hadded'⟩ :=
    @logSmbiosData_added template addingEnv false strings rfl rfl
  rw [hrun] at hrun'
  rw [← Except.ok.inj hrun', hadded] at hadded'
  rwa [Option.some.inj hadded'] at hrecord

theorem smbiosRecord_null : smbiosRecord template none = .error .nullPack ∨
    smbiosRecord template none = .error .outside := by
  unfold smbiosRecord recordCopyMem
  split
  · exact .inr rfl
  · exact .inl rfl

/-- The pack is recorded where it is not null and none of its strings is empty. -/
theorem recordsPack_iff : RecordsPack template stringPack ↔
    ∃ strings, stringPack = some strings ∧ ∀ s ∈ strings, s.chars ≠ [] := by
  constructor
  · intro h
    cases stringPack with
    | none =>
      obtain ⟨run, -, hrun, -⟩ := h addingEnv false rfl rfl
      unfold logSmbiosData at hrun
      rw [if_neg (by decide), if_neg (by decide)] at hrun
      rcases @smbiosRecord_null template with hnull | hnull <;> rw [hnull] at hrun <;>
        exact nomatch hrun
    | some strings => exact ⟨strings, rfl, isRecord_iff.1 h.isRecord⟩
  · rintro ⟨strings, rfl, hnonempty⟩ env wanted hlocated hallocated
    obtain ⟨run, hrun, hadded⟩ :=
      @logSmbiosData_added template env wanted strings hlocated hallocated
    exact ⟨run, _, hrun, hadded, isRecord_iff.2 hnonempty⟩

/-- A structure that is only a header. -/
def headerTemplate : SmbiosTemplate := ⟨[11, 4, 0, 0], by decide, by decide⟩

/-- Two strings, and an empty one between them. -/
def emptyBetween : List AsciiStr := [⟨[65], by decide⟩, ⟨[], by decide⟩, ⟨[66], by decide⟩]

theorem emptyBetween_not_recorded : ¬ RecordsPack headerTemplate (some emptyBetween) := by
  intro h
  exact absurd (h.isRecord.strings 2) (by decide)

end Log

end Edk2Rk3576
