import Edk2Rk3576.Efi
import Edk2Rk3576.Lib.Cells
import Edk2Rk3576.Lib.KeyedList
import Edk2Rk3576.Lib.Runs

/-!
# The volatile variable store

`VariableStubDxe` keeps variables in a linked list, in the order they were created. A
`StubSetVariable` creates, replaces or deletes one, and the other two services only look.

Over it stands a map, `StubMap`: what each variable was last successfully set to, and the order
they were created in. Every call keeps the list equal to that map but one: replacing a variable
frees its data before it allocates the new data, and when that allocation fails the variable is
gone. That call is also the only one that fails and still changes the store.
-/

namespace Edk2Rk3576

open Cells

/-- A `CHAR16` string, without its terminator. -/
abbrev Char16Str := {chars : List UInt16 // ∀ c ∈ chars, c ≠ 0}

def strSize (s : Char16Str) : ℕ := (s.1.length + 1) * 2

def emptyStr : Char16Str := ⟨[], by simp⟩

structure StubKey where
  name : Char16Str
  guid : EfiGuid
  deriving DecidableEq

structure StubValue where
  attributes : ℕ
  data : List UInt8
  deriving DecidableEq

/-- `STUB_VAR_ENTRY`; its `DataSize` is the length of the data. -/
structure StubVarEntry where
  vendorGuid : EfiGuid
  name : Char16Str
  attributes : ℕ
  data : List UInt8
  deriving DecidableEq

namespace StubVarEntry

def key (e : StubVarEntry) : StubKey := ⟨e.name, e.vendorGuid⟩

def value (e : StubVarEntry) : StubValue := ⟨e.attributes, e.data⟩

def setValue (v : StubValue) (e : StubVarEntry) : StubVarEntry :=
  { e with attributes := v.attributes, data := v.data }

end StubVarEntry

/-- `EFI_VARIABLE_NON_VOLATILE`, `BOOTSERVICE_ACCESS` and `RUNTIME_ACCESS`. -/
def efiVariableAccess : ℕ := 0x1 ||| 0x2 ||| 0x4

/-- Which of the allocations of one call succeed. -/
structure StubAlloc where
  entry : Bool
  name : Bool
  data : Bool

/-- What a service stores through its pointers; a field left `none` is not written. -/
structure StubGetResult where
  status : EfiStatus
  attributes : Option ℕ
  dataSize : Option ℕ
  data : Option (List UInt8)
  deriving DecidableEq

structure StubNextResult where
  status : EfiStatus
  variableNameSize : Option ℕ
  next : Option StubKey
  deriving DecidableEq

section Services

variable (mVarList : List StubVarEntry)

def findVar (name : Char16Str) (guid : EfiGuid) : Option StubVarEntry :=
  KeyedList.lookup StubVarEntry.key ⟨name, guid⟩ mVarList

/-- `StubGetVariable`; a pointer argument is `none` when it is `NULL`, and of `Attributes` and
`Data` only that matters. -/
def stubGetVariable (variableName : Option Char16Str) (vendorGuid : Option EfiGuid)
    (attributes : Bool) (dataSize : Option ℕ) (data : Bool) : StubGetResult :=
  match variableName, vendorGuid, dataSize with
  | some name, some guid, some size =>
    if name = emptyStr then ⟨efiNotFound, none, none, none⟩
    else
      match findVar mVarList name guid with
      | none => ⟨efiNotFound, none, none, none⟩
      | some entry =>
        let outAttributes := if attributes then some entry.attributes else none
        if size < entry.data.length then
          ⟨efiBufferTooSmall, outAttributes, some entry.data.length, none⟩
        else if !data then ⟨efiInvalidParameter, outAttributes, none, none⟩
        else ⟨efiSuccess, outAttributes, some entry.data.length, some entry.data⟩
  | _, _, _ => ⟨efiInvalidParameter, none, none, none⟩

/-- The tail of `StubGetNextVariableName`, with the entry it comes to. -/
def stubReturnNext (size : ℕ) : Option StubVarEntry → StubNextResult
  | none => ⟨efiNotFound, none, none⟩
  | some next =>
    if size < strSize next.name then ⟨efiBufferTooSmall, some (strSize next.name), none⟩
    else ⟨efiSuccess, some (strSize next.name), some next.key⟩

/-- `StubGetNextVariableName`. -/
def stubGetNextVariableName (variableNameSize : Option ℕ) (variableName : Option Char16Str)
    (vendorGuid : Option EfiGuid) : StubNextResult :=
  match variableNameSize, variableName, vendorGuid with
  | some size, some name, some guid =>
    if name = emptyStr then stubReturnNext size mVarList.head?
    else
      match findVar mVarList name guid with
      | none => ⟨efiInvalidParameter, none, none⟩
      | some entry =>
        stubReturnNext size (KeyedList.following StubVarEntry.key entry.key mVarList)
  | _, _, _ => ⟨efiInvalidParameter, none, none⟩

/-- A call that asks to delete: no data, or no access attribute. -/
def stubDeletes (attributes dataSize : ℕ) : Prop :=
  dataSize = 0 ∨ attributes &&& efiVariableAccess = 0

instance (attributes dataSize : ℕ) : Decidable (stubDeletes attributes dataSize) := by
  unfold stubDeletes
  infer_instance

/-- `StubSetVariable`. -/
def stubSetVariable (variableName : Option Char16Str) (vendorGuid : Option EfiGuid)
    (attributes dataSize : ℕ) (data : Option (Cells UInt8)) (alloc : StubAlloc) :
    EfiStatus × List StubVarEntry :=
  match variableName, vendorGuid with
  | some name, some guid =>
    if name = emptyStr then (efiInvalidParameter, mVarList)
    else if dataSize ≠ 0 ∧ data = none then (efiInvalidParameter, mVarList)
    else
      let newData := (data.getD fun _ => 0).slice 0 dataSize
      let key := ⟨name, guid⟩
      match findVar mVarList name guid with
      | some _ =>
        if stubDeletes attributes dataSize then
          (efiSuccess, KeyedList.remove StubVarEntry.key key mVarList)
        -- the old data is freed before the new is allocated
        else if alloc.data then
          (efiSuccess, KeyedList.update StubVarEntry.key key
            (StubVarEntry.setValue ⟨attributes, newData⟩) mVarList)
        else (efiOutOfResources, KeyedList.remove StubVarEntry.key key mVarList)
      | none =>
        if stubDeletes attributes dataSize then (efiNotFound, mVarList)
        else if alloc.entry && (alloc.name && alloc.data) then
          (efiSuccess, mVarList ++ [⟨guid, name, attributes, newData⟩])
        else (efiOutOfResources, mVarList)
  | _, _ => (efiInvalidParameter, mVarList)

end Services

/-- The variables as a map, with the order they were created in. -/
@[ext] structure StubMap where
  order : List StubKey
  value : StubKey → Option StubValue

namespace StubMap

def empty : StubMap := ⟨[], fun _ => none⟩

def put (m : StubMap) (k : StubKey) (v : StubValue) : StubMap where
  order := if k ∈ m.order then m.order else m.order ++ [k]
  value k' := if k' = k then some v else m.value k'

def delete (m : StubMap) (k : StubKey) : StubMap where
  order := m.order.erase k
  value k' := if k' = k then none else m.value k'

variable (m : StubMap) (k k' : StubKey) (v : StubValue)

theorem put_order : (m.put k v).order = if k ∈ m.order then m.order else m.order ++ [k] := rfl

theorem put_value : (m.put k v).value k' = if k' = k then some v else m.value k' := rfl

theorem delete_order : (m.delete k).order = m.order.erase k := rfl

theorem delete_value : (m.delete k).value k' = if k' = k then none else m.value k' := rfl

end StubMap

inductive StubOp
  | get (variableName : Option Char16Str) (vendorGuid : Option EfiGuid) (attributes : Bool)
    (dataSize : Option ℕ) (data : Bool)
  | next (variableNameSize : Option ℕ) (variableName : Option Char16Str)
    (vendorGuid : Option EfiGuid)
  | set (variableName : Option Char16Str) (vendorGuid : Option EfiGuid) (attributes dataSize : ℕ)
    (data : Option (Cells UInt8)) (alloc : StubAlloc)

namespace StubOp

def exec (l : List StubVarEntry) : StubOp → EfiStatus × List StubVarEntry
  | get name guid attributes size data => ((stubGetVariable l name guid attributes size data).status, l)
  | next size name guid => ((stubGetNextVariableName l size name guid).status, l)
  | set name guid attributes size data alloc => stubSetVariable l name guid attributes size data alloc

/-- A call that succeeds, as the map sees it. -/
def record (m : StubMap) : StubOp → StubMap
  | set (some name) (some guid) attributes size data _ =>
    if stubDeletes attributes size then m.delete ⟨name, guid⟩
    else m.put ⟨name, guid⟩ ⟨attributes, (data.getD fun _ => 0).slice 0 size⟩
  | _ => m

/-- A call on the list, and on the map when it succeeds. -/
def step (x : List StubVarEntry × StubMap) (op : StubOp) : List StubVarEntry × StubMap :=
  ((op.exec x.1).2, if (op.exec x.1).1 = efiSuccess then op.record x.2 else x.2)

theorem step_of_success (x : List StubVarEntry × StubMap) (op : StubOp) {l : List StubVarEntry}
    (h : op.exec x.1 = (efiSuccess, l)) : op.step x = (l, op.record x.2) := by
  simp [step, h]

theorem step_of_error (x : List StubVarEntry × StubMap) (op : StubOp) {l : List StubVarEntry}
    {status : EfiStatus} (hne : status ≠ efiSuccess) (h : op.exec x.1 = (status, l)) :
    op.step x = (l, x.2) := by
  simp [step, h, hne]

/-- The call replaces the data of a variable there is. -/
def Replaces (l : List StubVarEntry) : StubOp → Prop
  | set (some name) (some guid) attributes size data _ =>
    name ≠ emptyStr ∧ ¬ (size ≠ 0 ∧ data = none) ∧ ¬ stubDeletes attributes size
      ∧ findVar l name guid ≠ none
  | _ => False

/-- The allocation for the data succeeds. -/
def AllocatesData : StubOp → Prop
  | set _ _ _ _ _ alloc => alloc.data = true
  | _ => True

end StubOp

/-- A caller asks for the name after `k`, again with the size it is told if its buffer is too
small. -/
def stubAskNext (l : List StubVarEntry) (size : ℕ) (k : StubKey) : ℕ × StubNextResult :=
  let r := stubGetNextVariableName l (some size) (some k.name) (some k.guid)
  if r.status = efiBufferTooSmall then
    (r.variableNameSize.getD size,
      stubGetNextVariableName l (some (r.variableNameSize.getD size)) (some k.name) (some k.guid))
  else (size, r)

/-- The names a caller gets that feeds each one back, and the status it stops at. -/
def stubWalk (l : List StubVarEntry) : (fuel : ℕ) → (size : ℕ) → (current : StubKey) →
    List StubKey × EfiStatus
  | 0, _, _ => ([], efiSuccess)
  | fuel + 1, size, current =>
    let (size, r) := stubAskNext l size current
    match r.next with
    | some k => (k :: (stubWalk l fuel size k).1, (stubWalk l fuel size k).2)
    | none => ([], r.status)

/-- The list holds exactly the variables of the map, each once and in its order. -/
structure StubRefines (l : List StubVarEntry) (m : StubMap) : Prop where
  nodup : (l.map StubVarEntry.key).Nodup
  order : l.map StubVarEntry.key = m.order
  value : ∀ k, (KeyedList.lookup StubVarEntry.key k l).map StubVarEntry.value = m.value k
  named : ∀ e ∈ l, e.name ≠ emptyStr

section Refines

variable {l : List StubVarEntry} {m : StubMap} {k : StubKey}

theorem StubVarEntry.key_setValue (v : StubValue) (e : StubVarEntry) :
    (e.setValue v).key = e.key := rfl

theorem StubRefines.remove (h : StubRefines l m) :
    StubRefines (KeyedList.remove StubVarEntry.key k l) (m.delete k) := by
  refine ⟨?_, ?_, fun k' => ?_, fun e he => h.named e (List.mem_of_mem_eraseP he)⟩
  · rw [KeyedList.map_key_remove]
    exact h.nodup.erase k
  · rw [KeyedList.map_key_remove, h.order, StubMap.delete_order]
  · rw [StubMap.delete_value]
    by_cases hk : k' = k
    · rw [hk, KeyedList.lookup_remove_self h.nodup, if_pos rfl]
      rfl
    · rw [KeyedList.lookup_remove_of_ne hk, h.value, if_neg hk]

theorem StubRefines.update (h : StubRefines l m) (v : StubValue)
    (hk : KeyedList.lookup StubVarEntry.key k l ≠ none) :
    StubRefines (KeyedList.update StubVarEntry.key k (StubVarEntry.setValue v) l) (m.put k v) := by
  have hmap := KeyedList.map_key_update (k := k) (StubVarEntry.key_setValue v) l
  have hmem : k ∈ m.order := by
    rw [← h.order]
    by_contra hno
    exact hk (KeyedList.lookup_eq_none.2 hno)
  refine ⟨by rw [hmap]; exact h.nodup, ?_, fun k' => ?_, fun e he hname => ?_⟩
  · rw [hmap, h.order, StubMap.put_order, if_pos hmem]
  · rw [KeyedList.lookup_update (StubVarEntry.key_setValue v), StubMap.put_value]
    by_cases hkk : k' = k
    · obtain ⟨e, he⟩ := Option.ne_none_iff_exists'.1 hk
      rw [if_pos hkk, he, hkk, if_pos rfl]
      rfl
    · rw [if_neg hkk, h.value, if_neg hkk]
  · -- an updated entry has the name of one of the old
    have hkey : e.key ∈ l.map StubVarEntry.key := by
      rw [← hmap]
      exact List.mem_map_of_mem he
    obtain ⟨e', he', hkey'⟩ := List.mem_map.1 hkey
    exact h.named e' he' ((congrArg StubKey.name hkey').trans hname)

theorem StubRefines.append (h : StubRefines l m) {e : StubVarEntry} (hname : e.name ≠ emptyStr)
    (hk : KeyedList.lookup StubVarEntry.key e.key l = none) :
    StubRefines (l ++ [e]) (m.put e.key e.value) := by
  have hnot : e.key ∉ l.map StubVarEntry.key := KeyedList.lookup_eq_none.1 hk
  refine ⟨?_, ?_, fun k' => ?_, fun e' he' => ?_⟩
  · rw [List.map_append, List.map_singleton]
    exact List.Nodup.append h.nodup (List.nodup_singleton _) (by simpa using hnot)
  · rw [List.map_append, List.map_singleton, h.order]
    rw [h.order] at hnot
    rw [StubMap.put_order, if_neg hnot]
  · rw [KeyedList.lookup_append, StubMap.put_value]
    by_cases hkk : k' = e.key
    · subst hkk
      rw [hk, if_pos rfl, if_pos rfl]
      rfl
    · rw [if_neg (Ne.symm hkk), Option.or_none, h.value, if_neg hkk]
  · rcases List.mem_append.1 he' with hl | hl
    · exact h.named e' hl
    · rw [List.mem_singleton.1 hl]
      exact hname

/-- A call keeps the list and fails, or deletes, replaces or creates a variable, or loses one. -/
theorem stubSetVariable_cases (l : List StubVarEntry) (variableName : Option Char16Str)
    (vendorGuid : Option EfiGuid) (attributes size : ℕ) (data : Option (Cells UInt8))
    (alloc : StubAlloc) :
    (∃ status, status ≠ efiSuccess
        ∧ stubSetVariable l variableName vendorGuid attributes size data alloc = (status, l))
      ∨ ∃ name guid, variableName = some name ∧ vendorGuid = some guid ∧ name ≠ emptyStr
        ∧ ¬ (size ≠ 0 ∧ data = none)
        ∧ (stubDeletes attributes size ∧ findVar l name guid ≠ none
            ∧ stubSetVariable l variableName vendorGuid attributes size data alloc
              = (efiSuccess, KeyedList.remove StubVarEntry.key ⟨name, guid⟩ l)
          ∨ ¬ stubDeletes attributes size ∧ findVar l name guid ≠ none ∧ alloc.data = true
            ∧ stubSetVariable l variableName vendorGuid attributes size data alloc
              = (efiSuccess, KeyedList.update StubVarEntry.key ⟨name, guid⟩ (StubVarEntry.setValue
                ⟨attributes, (data.getD fun _ => 0).slice 0 size⟩) l)
          ∨ ¬ stubDeletes attributes size ∧ findVar l name guid ≠ none ∧ alloc.data = false
            ∧ stubSetVariable l variableName vendorGuid attributes size data alloc
              = (efiOutOfResources, KeyedList.remove StubVarEntry.key ⟨name, guid⟩ l)
          ∨ ¬ stubDeletes attributes size ∧ findVar l name guid = none
            ∧ stubSetVariable l variableName vendorGuid attributes size data alloc
              = (efiSuccess, l ++ [⟨guid, name, attributes, (data.getD fun _ => 0).slice 0 size⟩])) := by
  rcases variableName with _ | name
  · exact Or.inl ⟨_, encodeError_ne_success 2, rfl⟩
  rcases vendorGuid with _ | guid
  · exact Or.inl ⟨_, encodeError_ne_success 2, rfl⟩
  unfold stubSetVariable
  simp only []
  by_cases hname : name = emptyStr
  · rw [if_pos hname]
    exact Or.inl ⟨_, encodeError_ne_success 2, rfl⟩
  by_cases hdata : size ≠ 0 ∧ data = none
  · rw [if_neg hname, if_pos hdata]
    exact Or.inl ⟨_, encodeError_ne_success 2, rfl⟩
  rw [if_neg hname, if_neg hdata]
  rcases hfind : findVar l name guid with _ | entry
  · simp only []
    by_cases hdel : stubDeletes attributes size
    · rw [if_pos hdel]
      exact Or.inl ⟨_, encodeError_ne_success 14, rfl⟩
    rw [if_neg hdel]
    split_ifs with halloc
    · exact Or.inr ⟨name, guid, rfl, rfl, hname, hdata,
        Or.inr (Or.inr (Or.inr ⟨hdel, hfind, rfl⟩))⟩
    · exact Or.inl ⟨_, encodeError_ne_success 9, rfl⟩
  · have hsome : findVar l name guid ≠ none := by rw [hfind]; simp
    simp only []
    by_cases hdel : stubDeletes attributes size
    · rw [if_pos hdel]
      exact Or.inr ⟨name, guid, rfl, rfl, hname, hdata, Or.inl ⟨hdel, hsome, rfl⟩⟩
    rw [if_neg hdel]
    rcases halloc : alloc.data with _ | _
    · exact Or.inr ⟨name, guid, rfl, rfl, hname, hdata,
        Or.inr (Or.inr (Or.inl ⟨hdel, hsome, rfl, rfl⟩))⟩
    · exact Or.inr ⟨name, guid, rfl, rfl, hname, hdata,
        Or.inr (Or.inl ⟨hdel, hsome, rfl, rfl⟩)⟩

/-- A call that does not replace data, or has the memory to, keeps list and map together. -/
theorem StubRefines.step {x : List StubVarEntry × StubMap} (h : StubRefines x.1 x.2) (op : StubOp)
    (hop : op.Replaces x.1 → op.AllocatesData) : StubRefines (op.step x).1 (op.step x).2 := by
  obtain ⟨l, m⟩ := x
  cases op with
  | get name guid attributes size data =>
    unfold StubOp.step StubOp.exec StubOp.record
    simpa using h
  | next size name guid =>
    unfold StubOp.step StubOp.exec StubOp.record
    simpa using h
  | set name guid attributes size data alloc =>
    rcases stubSetVariable_cases l name guid attributes size data alloc with
      ⟨status, hne, heq⟩ | ⟨name, guid, rfl, rfl, hname, hdata, hcase⟩
    · rw [StubOp.step_of_error (l, m) (.set name guid attributes size data alloc) hne heq]
      exact h
    · rcases hcase with ⟨hdel, -, heq⟩ | ⟨hdel, hfind, -, heq⟩ | ⟨hdel, hfind, hfail, -⟩ |
        ⟨hdel, hfind, heq⟩
      · rw [StubOp.step_of_success (l, m) (.set (some name) (some guid) attributes size data alloc) heq,
          StubOp.record, if_pos hdel]
        exact h.remove
      · rw [StubOp.step_of_success (l, m) (.set (some name) (some guid) attributes size data alloc) heq,
          StubOp.record, if_neg hdel]
        exact h.update _ hfind
      · have hall : alloc.data = true := hop ⟨hname, hdata, hdel, hfind⟩
        rw [hfail] at hall
        exact absurd hall (by decide)
      · rw [StubOp.step_of_success (l, m) (.set (some name) (some guid) attributes size data alloc) heq,
          StubOp.record, if_neg hdel]
        exact h.append hname hfind

end Refines

section Walk

variable {l : List StubVarEntry}

theorem stubReturnNext_some {e : StubVarEntry} {size : ℕ} (h : strSize e.name ≤ size) :
    stubReturnNext size (some e) = ⟨efiSuccess, some (strSize e.name), some e.key⟩ :=
  if_neg (by omega)

/-- What the service looks for next: the head, or the entry after the current one. -/
theorem stubGetNextVariableName_eq (l₁ l₂ : List StubVarEntry) (e : StubVarEntry)
    (hn : ((l₁ ++ e :: l₂).map StubVarEntry.key).Nodup) (hname : e.name ≠ emptyStr) (size : ℕ) :
    stubGetNextVariableName (l₁ ++ e :: l₂) (some size) (some e.name) (some e.vendorGuid)
      = stubReturnNext size l₂.head? := by
  have hfind : findVar (l₁ ++ e :: l₂) e.name e.vendorGuid ≠ none := by
    intro hnone
    have hnot : e.key ∉ (l₁ ++ e :: l₂).map StubVarEntry.key := KeyedList.lookup_eq_none.1 hnone
    exact hnot (List.mem_map_of_mem (by simp))
  obtain ⟨e', he'⟩ := Option.ne_none_iff_exists'.1 hfind
  have hkey : e'.key = e.key := KeyedList.key_of_lookup he'
  unfold stubGetNextVariableName
  simp only []
  rw [if_neg hname, he']
  simp only []
  rw [hkey, KeyedList.following_append hn]

/-- One turn of the walk, where the service looks for `next`. -/
theorem stubWalk_step {k : StubKey} {next : Option StubVarEntry}
    (h : ∀ size, stubGetNextVariableName l (some size) (some k.name) (some k.guid)
      = stubReturnNext size next) (fuel size : ℕ) :
    (∃ e size', next = some e ∧ stubWalk l (fuel + 1) size k
        = (e.key :: (stubWalk l fuel size' e.key).1, (stubWalk l fuel size' e.key).2))
      ∨ next = none ∧ stubWalk l (fuel + 1) size k = ([], efiNotFound) := by
  rcases next with _ | e
  · have hask : stubAskNext l size k = (size, ⟨efiNotFound, none, none⟩) := by
      simp only [stubAskNext, h]
      exact if_neg (show ¬ (efiNotFound = efiBufferTooSmall) by decide)
    exact Or.inr ⟨rfl, by simp only [stubWalk, hask]⟩
  · obtain ⟨size', hask⟩ : ∃ size', stubAskNext l size k
        = (size', ⟨efiSuccess, some (strSize e.name), some e.key⟩) := by
      simp only [stubAskNext, h]
      by_cases hsize : size < strSize e.name
      · have hsmall : stubReturnNext size (some e)
            = ⟨efiBufferTooSmall, some (strSize e.name), none⟩ := if_pos hsize
        rw [hsmall]
        exact ⟨_, by rw [if_pos rfl, Option.getD_some, stubReturnNext_some le_rfl]⟩
      · rw [stubReturnNext_some (by omega)]
        exact ⟨_, if_neg (show ¬ (efiSuccess = efiBufferTooSmall) by decide)⟩
    exact Or.inl ⟨e, size', rfl, by simp only [stubWalk, hask]⟩

/-- From an entry of the list, the walk goes through the entries after it. -/
theorem stubWalk_from (hn : (l.map StubVarEntry.key).Nodup) (hnamed : ∀ e ∈ l, e.name ≠ emptyStr) :
    ∀ (l₂ l₁ : List StubVarEntry) (e : StubVarEntry), l = l₁ ++ e :: l₂ →
      ∀ fuel > l₂.length, ∀ size,
        stubWalk l fuel size e.key = (l₂.map StubVarEntry.key, efiNotFound)
  | l₂, l₁, e, hl, 0, hfuel, _ => by omega
  | l₂, l₁, e, hl, fuel + 1, hfuel, size => by
    have hnext : ∀ size, stubGetNextVariableName l (some size) (some e.key.name) (some e.key.guid)
        = stubReturnNext size l₂.head? := by
      intro size
      rw [hl] at hn ⊢
      exact stubGetNextVariableName_eq l₁ l₂ e hn (hnamed e (by rw [hl]; simp)) size
    rcases stubWalk_step hnext fuel size with ⟨e', size', he', hw⟩ | ⟨hnil, hw⟩
    · obtain ⟨l₃, rfl⟩ : ∃ l₃, l₂ = e' :: l₃ := by
        cases l₂ with
        | nil => simp at he'
        | cons x l₃ =>
          obtain rfl : x = e' := by simpa using he'
          exact ⟨l₃, rfl⟩
      rw [hw, stubWalk_from hn hnamed l₃ (l₁ ++ [e]) e' (by rw [hl]; simp) fuel
        (by simp at hfuel; omega)]
      rfl
    · obtain rfl : l₂ = [] := by simpa using hnil
      rw [hw]
      rfl

theorem stubWalk_all (hn : (l.map StubVarEntry.key).Nodup) (hnamed : ∀ e ∈ l, e.name ≠ emptyStr)
    {fuel : ℕ} (hfuel : l.length < fuel) (size : ℕ) (guid : EfiGuid) :
    stubWalk l fuel size ⟨emptyStr, guid⟩ = (l.map StubVarEntry.key, efiNotFound) := by
  obtain ⟨fuel, rfl⟩ : ∃ n, fuel = n + 1 := ⟨fuel - 1, by omega⟩
  have hnext : ∀ size, stubGetNextVariableName l (some size)
      (some (StubKey.mk emptyStr guid).name) (some (StubKey.mk emptyStr guid).guid)
      = stubReturnNext size l.head? := by
    intro size
    unfold stubGetNextVariableName
    exact if_pos rfl
  rcases stubWalk_step hnext fuel size with ⟨e, size', he, hw⟩ | ⟨hnil, hw⟩
  · cases l with
    | nil => simp at he
    | cons x l' =>
      obtain rfl : x = e := by simpa using he
      rw [hw, stubWalk_from hn hnamed l' [] x rfl fuel (by simp at hfuel; omega)]
      rfl
  · obtain rfl : l = [] := by simpa using hnil
    rw [hw]
    rfl

end Walk

/-- The store is the map: no key is there twice, a variable reads back as it was last set, and a
walk goes through the variables there are in the order they were created, each once. -/
structure StubFaithful (l : List StubVarEntry) (m : StubMap) : Prop where
  nodup : (l.map StubVarEntry.key).Nodup
  once : m.order.Nodup
  stored : ∀ k, k ∈ m.order ↔ m.value k ≠ none
  notFound : ∀ name guid attributes size data, name ≠ emptyStr → m.value ⟨name, guid⟩ = none →
    stubGetVariable l (some name) (some guid) attributes (some size) data
      = ⟨efiNotFound, none, none, none⟩
  tooSmall : ∀ name guid attributes size data v, name ≠ emptyStr → m.value ⟨name, guid⟩ = some v →
    size < v.data.length →
      stubGetVariable l (some name) (some guid) attributes (some size) data
        = ⟨efiBufferTooSmall, if attributes then some v.attributes else none,
          some v.data.length, none⟩
  found : ∀ name guid attributes size v, name ≠ emptyStr → m.value ⟨name, guid⟩ = some v →
    v.data.length ≤ size →
      stubGetVariable l (some name) (some guid) attributes (some size) true
        = ⟨efiSuccess, if attributes then some v.attributes else none, some v.data.length,
          some v.data⟩
  walk : ∀ fuel > l.length, ∀ size guid,
    stubWalk l fuel size ⟨emptyStr, guid⟩ = (m.order, efiNotFound)

theorem StubRefines.faithful {l : List StubVarEntry} {m : StubMap} (h : StubRefines l m) :
    StubFaithful l m := by
  have hfind : ∀ name guid, (findVar l name guid).map StubVarEntry.value = m.value ⟨name, guid⟩ :=
    fun name guid => h.value ⟨name, guid⟩
  refine ⟨h.nodup, h.order ▸ h.nodup, fun k => ?_, ?_, ?_, ?_, ?_⟩
  · rw [← h.order, ← h.value, Ne, Option.map_eq_none_iff, KeyedList.lookup_eq_none, not_not]
  · intro name guid attributes size data hname hv
    have hnone : findVar l name guid = none := by
      rw [← hfind] at hv
      simpa using hv
    unfold stubGetVariable
    simp only [if_neg hname, hnone]
  · intro name guid attributes size data v hname hv hsize
    rw [← hfind, Option.map_eq_some_iff] at hv
    obtain ⟨e, he, rfl⟩ := hv
    unfold stubGetVariable
    simp only [if_neg hname, he]
    exact if_pos hsize
  · intro name guid attributes size v hname hv hsize
    rw [← hfind, Option.map_eq_some_iff] at hv
    obtain ⟨e, he, rfl⟩ := hv
    unfold stubGetVariable
    simp only [if_neg hname, he]
    exact if_neg (not_lt.2 hsize)
  · intro fuel hfuel size guid
    rw [stubWalk_all h.nodup h.named hfuel, h.order]

/-- In every run whose calls have the memory to replace the data they replace, the store is the
map of what was last successfully set. -/
theorem stub_refines_map {x : List StubVarEntry × StubMap}
    (h : Reached StubOp.step (fun x op => op.Replaces x.1 → op.AllocatesData)
      ([], StubMap.empty) x) : StubFaithful x.1 x.2 := by
  have hrefines : StubRefines x.1 x.2 := by
    refine h.invariant (P := fun x => StubRefines x.1 x.2) ?_ fun x op hx hop => hx.step op hop
    exact ⟨List.nodup_nil, rfl, fun k => rfl, fun e he => absurd he List.not_mem_nil⟩
  exact hrefines.faithful

/-- The name `A`, and a call that sets it to one byte, with or without memory for the data. -/
def nameA : Char16Str := ⟨[0x41], by simp⟩

def setA (ok : Bool) : StubOp :=
  .set (some nameA) (some 0) efiVariableAccess 1 (some fun _ => 7) ⟨true, true, ok⟩

/-- `A` set twice. -/
theorem stub_refines_map_twice :
    ∃ x, StubOp.Replaces x.1 (setA true) ∧ StubFaithful (StubOp.step x (setA true)).1
      (StubOp.step x (setA true)).2 :=
  ⟨StubOp.step ([], StubMap.empty) (setA true), ⟨by decide, by decide, by decide, by decide⟩,
    stub_refines_map ((Reached.start.next _ fun _ => rfl).next (setA true) fun _ => rfl)⟩

/-- `A` set, then set again without memory for the data: `A` is gone. -/
theorem stub_replace_loses :
    ¬ ∀ x, Reached StubOp.step (fun _ _ => True) ([], StubMap.empty) x → StubFaithful x.1 x.2 := by
  intro h
  have hfound := (h _ ((Reached.start.next (setA true) trivial).next (setA false) trivial)).found
    nameA 0 true 1 ⟨efiVariableAccess, [7]⟩ (by decide) (by decide) (by decide)
  exact absurd hfound (by decide)

/-- The variables a list holds. -/
def stubVariables (l : List StubVarEntry) (k : StubKey) : Option StubValue :=
  (KeyedList.lookup StubVarEntry.key k l).map StubVarEntry.value

/-- Whatever memory it has, a call leaves a list that holds some map. -/
theorem StubRefines.exec {l : List StubVarEntry} {m : StubMap} (h : StubRefines l m) (op : StubOp) :
    ∃ m', StubRefines (op.exec l).2 m' := by
  cases op with
  | get name guid attributes size data => exact ⟨m, h⟩
  | next size name guid => exact ⟨m, h⟩
  | set name guid attributes size data alloc =>
    change ∃ m', StubRefines (stubSetVariable l name guid attributes size data alloc).2 m'
    rcases stubSetVariable_cases l name guid attributes size data alloc with
      ⟨status, hne, heq⟩ | ⟨name, guid, rfl, rfl, hname, hdata, hcase⟩
    · rw [heq]
      exact ⟨m, h⟩
    · rcases hcase with ⟨-, -, heq⟩ | ⟨-, hfind, -, heq⟩ | ⟨-, hfind, -, heq⟩ | ⟨-, hfind, heq⟩ <;>
        rw [heq]
      · exact ⟨_, h.remove⟩
      · exact ⟨_, h.update _ hfind⟩
      · exact ⟨_, h.remove⟩
      · exact ⟨_, h.append hname hfind⟩

theorem StubRefines.of_reached {l : List StubVarEntry}
    (h : Reached (fun l (op : StubOp) => (op.exec l).2) (fun _ _ => True) [] l) :
    ∃ m, StubRefines l m := by
  refine h.invariant (P := fun l => ∃ m, StubRefines l m) ?_ fun l op ⟨m, hm⟩ _ => hm.exec op
  exact ⟨StubMap.empty, List.nodup_nil, rfl, fun k => rfl, fun e he => absurd he List.not_mem_nil⟩

/-- The variable whose data has been freed goes with it. -/
theorem stubSetVariable_of_replaces {l : List StubVarEntry} {name : Char16Str} {guid : EfiGuid}
    {attributes dataSize : ℕ} {data : Option (Cells UInt8)} {alloc : StubAlloc}
    (h : (StubOp.set (some name) (some guid) attributes dataSize data alloc).Replaces l)
    (hfail : alloc.data = false) :
    stubSetVariable l (some name) (some guid) attributes dataSize data alloc
      = (efiOutOfResources, KeyedList.remove StubVarEntry.key ⟨name, guid⟩ l) := by
  obtain ⟨hname, hdata, hdel, hfind⟩ := h
  obtain ⟨entry, he⟩ := Option.ne_none_iff_exists'.1 hfind
  unfold stubSetVariable
  simp only []
  rw [if_neg hname, if_neg hdata, he]
  simp only []
  rw [if_neg hdel, hfail]
  rfl

/-- Of any list there can be, a `StubSetVariable` that fails keeps every variable, unless it was to
replace the data of one and had no memory for it. -/
theorem stubSetVariable_atomic_iff {l : List StubVarEntry}
    (h : Reached (fun l (op : StubOp) => (op.exec l).2) (fun _ _ => True) [] l)
    (variableName : Option Char16Str) (vendorGuid : Option EfiGuid) (attributes dataSize : ℕ)
    (data : Option (Cells UInt8)) (alloc : StubAlloc) :
    (efiError (stubSetVariable l variableName vendorGuid attributes dataSize data alloc).1 = true →
        stubVariables (stubSetVariable l variableName vendorGuid attributes dataSize data alloc).2
          = stubVariables l)
      ↔ ¬ ((StubOp.set variableName vendorGuid attributes dataSize data alloc).Replaces l
          ∧ alloc.data = false) := by
  obtain ⟨m, hm⟩ := StubRefines.of_reached h
  constructor
  · rintro hkeep ⟨hreplaces, hfail⟩
    rcases variableName with _ | name
    · exact hreplaces
    rcases vendorGuid with _ | guid
    · exact hreplaces
    rw [stubSetVariable_of_replaces hreplaces hfail] at hkeep
    have hgone := congrFun (hkeep (efiError_encodeError 9)) ⟨name, guid⟩
    unfold stubVariables at hgone
    rw [KeyedList.lookup_remove_self hm.nodup, Option.map_none, eq_comm,
      Option.map_eq_none_iff] at hgone
    exact hreplaces.2.2.2 hgone
  · intro hno herr
    rcases stubSetVariable_cases l variableName vendorGuid attributes dataSize data alloc with
      ⟨status, -, heq⟩ | ⟨name, guid, rfl, rfl, hname, hdata, hcase⟩
    · rw [heq]
    · rcases hcase with ⟨-, -, heq⟩ | ⟨-, -, -, heq⟩ | ⟨hdel, hfind, hfail, -⟩ | ⟨-, -, heq⟩
      · rw [heq] at herr
        exact Bool.noConfusion (efiError_success.symm.trans herr)
      · rw [heq] at herr
        exact Bool.noConfusion (efiError_success.symm.trans herr)
      · exact absurd ⟨⟨hname, hdata, hdel, hfind⟩, hfail⟩ hno
      · rw [heq] at herr
        exact Bool.noConfusion (efiError_success.symm.trans herr)

/-- A second variable fails to be created, and the first is kept. -/
theorem stubSetVariable_atomic_iff_create :
    stubVariables (stubSetVariable (StubOp.exec [] (setA true)).2 (some nameA) (some 1)
        efiVariableAccess 1 (some fun _ => 7) ⟨true, true, false⟩).2
      = stubVariables (StubOp.exec [] (setA true)).2 :=
  (stubSetVariable_atomic_iff (Reached.start.next (setA true) trivial) (some nameA) (some 1)
    efiVariableAccess 1 (some fun _ => 7) ⟨true, true, false⟩).2 (fun h => h.1.2.2.2 (by decide)) (by decide)

/-- `A` set, then set again without memory for the data: the call fails and `A` is gone. -/
theorem stubSetVariable_not_atomic :
    ¬ ∀ l, Reached (fun l (op : StubOp) => (op.exec l).2) (fun _ _ => True) [] l →
      ∀ name guid attributes size data alloc,
        efiError (stubSetVariable l name guid attributes size data alloc).1 = true →
          stubVariables (stubSetVariable l name guid attributes size data alloc).2
            = stubVariables l := by
  intro h
  have hkeep := congrFun (h _ (Reached.start.next (setA true) trivial) (some nameA) (some 0)
    efiVariableAccess 1 (some fun _ => 7) ⟨true, true, false⟩ (by decide)) ⟨nameA, 0⟩
  exact absurd hkeep (by decide)

end Edk2Rk3576
