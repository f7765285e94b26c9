import Mathlib.Tactic.Common
import Mathlib.Data.List.Basic
import Mathlib.Data.List.Nodup
import Mathlib.Logic.Function.Basic

/-!
# Lists that share their tails

Items are linked each to the next one. The lists of a tree have a node each: a head, the items that
are attached to it, and then the list of the parent, so that the list from a leaf passes what is
attached on the way to the root. An item is attached behind a head, and items are unlinked on a walk
down a list.
-/

/-- From `a` on the items of the list come one after the other, and then `b`. -/
def Seg (next : ℕ → ℕ) : ℕ → List ℕ → ℕ → Prop
  | a, [], b => a = b
  | a, x :: l, b => a = x ∧ Seg next (next x) l b

namespace Seg

variable {next next' : ℕ → ℕ} {a b b' x : ℕ} {l l' : List ℕ}

theorem append_iff : ∀ {l : List ℕ} {a : ℕ},
    Seg next a (l ++ l') b ↔ ∃ m, Seg next a l m ∧ Seg next m l' b
  | [], a => ⟨fun h => ⟨a, rfl, h⟩, fun ⟨_, hm, h⟩ => hm ▸ h⟩
  | x :: l, a => by
    change a = x ∧ Seg next (next x) (l ++ l') b ↔ ∃ m, (a = x ∧ Seg next (next x) l m) ∧ _
    rw [append_iff]
    constructor
    · rintro ⟨ha, m, hm, h⟩
      exact ⟨m, ⟨ha, hm⟩, h⟩
    · rintro ⟨m, ⟨ha, hm⟩, h⟩
      exact ⟨ha, m, hm, h⟩

theorem congr : ∀ {l : List ℕ} {a : ℕ}, (∀ x ∈ l, next' x = next x) → Seg next a l b →
    Seg next' a l b
  | [], _, _, h => h
  | x :: l, _, hsame, ⟨ha, h⟩ => by
    refine ⟨ha, ?_⟩
    rw [hsame x List.mem_cons_self]
    exact h.congr fun y hy => hsame y (List.mem_cons_of_mem _ hy)

theorem first_mem (h : Seg next a l b) (hne : l ≠ []) : a ∈ l := by
  cases l with
  | nil => exact absurd rfl hne
  | cons x l => exact h.1 ▸ List.mem_cons_self

/-- What comes after the last item. -/
theorem last : ∀ {l : List ℕ} {a i : ℕ}, Seg next a l b → l[i]? = some x → i + 1 = l.length →
    next x = b
  | [], _, _, _, hx, _ => by simp at hx
  | [y], _, i, ⟨_, h⟩, hx, hi => by
    obtain rfl : i = 0 := by simpa using hi
    obtain rfl := Option.some.inj hx
    exact h
  | y :: z :: l, _, i, ⟨_, h⟩, hx, hi => by
    rw [List.length_cons] at hi
    obtain ⟨i, rfl⟩ : ∃ k, i = k + 1 := ⟨i - 1, by rw [List.length_cons] at hi; omega⟩
    exact last h hx (by omega)

/-- The second item is unlinked. -/
theorem unlink (h : Seg next a (a :: x :: l) b) (hnodup : (a :: x :: l).Nodup) :
    Seg (Function.update next a (next x)) a (a :: l) b := by
  obtain ⟨-, -, hrest⟩ := h
  rw [List.nodup_cons] at hnodup
  refine ⟨rfl, ?_⟩
  rw [Function.update_self]
  refine hrest.congr fun y hy => Function.update_of_ne ?_ _ _
  rintro rfl
  exact hnodup.1 (List.mem_cons_of_mem _ hy)

/-- An item is put behind the first one. -/
theorem insert (h : Seg next a (a :: l) b) (hx : x ∉ a :: l) (ha : a ∉ l) (ha' : next' a = x)
    (hx' : next' x = next a) (hothers : ∀ y, y ≠ a → y ≠ x → next' y = next y) :
    Seg next' a (a :: x :: l) b := by
  obtain ⟨-, hrest⟩ := h
  refine ⟨rfl, ha', ?_⟩
  rw [hx']
  refine hrest.congr fun y hy => hothers y ?_ ?_
  · rintro rfl
    exact ha hy
  · rintro rfl
    exact hx (List.mem_cons_of_mem _ hy)

/-- An item is put behind the last one. -/
theorem snoc {y z : ℕ} (h : Seg next a (l ++ [z]) 0) (hz : next' z = y) (hy : next' y = 0)
    (hothers : ∀ x ∈ l, next' x = next x) : Seg next' a (l ++ [z] ++ [y]) 0 := by
  obtain ⟨m, hl, rfl, -⟩ := append_iff.1 h
  exact append_iff.2 ⟨y, append_iff.2 ⟨m, hl.congr hothers, rfl, hz⟩, rfl, hy⟩

end Seg

section Tree

variable {ι : Type*} {nodes : List ι} {up : ι → Option ι} {head : ι → ℕ} {att att' : ι → List ℕ}
  {next next' : ℕ → ℕ} {n m : ι} {path path' : List ι} {x : ℕ} {keep : ℕ → Bool}

/-- The nodes from one to the root. -/
inductive Way (up : ι → Option ι) : ι → List ι → Prop
  | root {n : ι} : up n = none → Way up n [n]
  | node {n m : ι} {path : List ι} : up n = some m → Way up m path → Way up n (n :: path)

def items (head : ι → ℕ) (att : ι → List ℕ) (n : ι) : List ℕ := head n :: att n

/-- What comes after the items of a node. -/
def after (up : ι → Option ι) (head : ι → ℕ) (n : ι) : ℕ :=
  match up n with
  | some m => head m
  | none => 0

/-- The lists of the nodes are linked, and have their items to themselves. -/
structure Threaded (nodes : List ι) (up : ι → Option ι) (head : ι → ℕ) (att : ι → List ℕ)
    (next : ℕ → ℕ) : Prop where
  closed : ∀ n ∈ nodes, ∀ m, up n = some m → m ∈ nodes
  nodup : ∀ n ∈ nodes, (items head att n).Nodup
  disjoint : ∀ n ∈ nodes, ∀ m ∈ nodes, n ≠ m → (items head att n).Disjoint (items head att m)
  nonzero : ∀ n ∈ nodes, 0 ∉ items head att n
  seg : ∀ n ∈ nodes, Seg next (head n) (items head att n) (after up head n)

namespace Way

theorem exists_cons (h : Way up n path) : ∃ rest, path = n :: rest := by
  cases h with
  | root _ => exact ⟨[], rfl⟩
  | node _ _ => exact ⟨_, rfl⟩

theorem unique (h : Way up n path) (h' : Way up n path') : path = path' := by
  induction h generalizing path' with
  | root hup =>
    cases h' with
    | root _ => rfl
    | node hup' _ =>
      rw [hup] at hup'
      cases hup'
  | node hup _ ih =>
    cases h' with
    | root hup' =>
      rw [hup] at hup'
      cases hup'
    | node hup' hrest =>
      rw [hup] at hup'
      obtain rfl := Option.some.inj hup'
      rw [ih hrest]

/-- The way from a node on the way is shorter. -/
theorem of_mem (h : Way up n path) (hm : m ∈ path) :
    ∃ path', Way up m path' ∧ path'.length ≤ path.length := by
  induction h with
  | root hup =>
    obtain rfl := List.mem_singleton.1 hm
    exact ⟨_, .root hup, Nat.le_refl _⟩
  | node hup hrest ih =>
    rcases List.mem_cons.1 hm with rfl | hm
    · exact ⟨_, .node hup hrest, Nat.le_refl _⟩
    · obtain ⟨path', hpath', hle⟩ := ih hm
      exact ⟨path', hpath', Nat.le_trans hle (Nat.le_succ _)⟩

theorem nodup (h : Way up n path) : path.Nodup := by
  induction h with
  | root _ => exact List.nodup_singleton _
  | node hup hrest ih =>
    refine List.nodup_cons.2 ⟨fun hmem => ?_, ih⟩
    obtain ⟨path', hpath', hle⟩ := hrest.of_mem hmem
    rw [hpath'.unique (.node hup hrest), List.length_cons] at hle
    omega

theorem subset (h : Way up n path) (hclosed : ∀ n ∈ nodes, ∀ m, up n = some m → m ∈ nodes)
    (hn : n ∈ nodes) : ∀ m ∈ path, m ∈ nodes := by
  induction h with
  | root _ => exact fun m hm => List.mem_singleton.1 hm ▸ hn
  | node hup _ ih => exact List.forall_mem_cons.2 ⟨hn, ih (hclosed _ hn _ hup)⟩

/-- A list from a node, when each node leads on to the next. -/
theorem seg_of_nodes (h : Way up n path)
    (hseg : ∀ m ∈ path, Seg next (head m) (items head att m) (after up head m)) :
    Seg next (head n) (path.flatMap (items head att)) 0 := by
  induction h with
  | @root n hup =>
    have hroot := hseg n List.mem_cons_self
    rw [after, hup] at hroot
    rwa [List.flatMap_singleton]
  | @node n m path hup _ ih =>
    have hnode := hseg n List.mem_cons_self
    rw [after, hup] at hnode
    rw [List.flatMap_cons]
    exact Seg.append_iff.2
      ⟨head m, hnode, ih fun k hk => hseg k (List.mem_cons_of_mem _ hk)⟩

/-- Each node leads on to the next, when there is a list from a node. -/
theorem nodes_of_seg (h : Way up n path)
    (hseg : Seg next (head n) (path.flatMap (items head att)) 0) :
    ∀ m ∈ path, Seg next (head m) (items head att m) (after up head m) := by
  induction h with
  | @root n hup =>
    rw [List.flatMap_singleton] at hseg
    intro m hm
    rw [List.mem_singleton.1 hm, after, hup]
    exact hseg
  | @node n m path hup hrest ih =>
    rw [List.flatMap_cons, Seg.append_iff] at hseg
    obtain ⟨mid, hfirst, hseg⟩ := hseg
    obtain ⟨rest, rfl⟩ := hrest.exists_cons
    obtain rfl : mid = head m := hseg.1
    refine List.forall_mem_cons.2 ⟨?_, ih hseg⟩
    rw [after, hup]
    exact hfirst

end Way

namespace Threaded

theorem mem_unique (h : Threaded nodes up head att next) (hn : n ∈ nodes) (hm : m ∈ nodes)
    (hx : x ∈ items head att n) (hx' : x ∈ items head att m) : n = m := by
  by_contra hne
  exact h.disjoint n hn m hm hne hx hx'

/-- The list from a node passes the items on its way to the root. -/
theorem chain (h : Threaded nodes up head att next) (hn : n ∈ nodes) (hway : Way up n path) :
    Seg next (head n) (path.flatMap (items head att)) 0 :=
  hway.seg_of_nodes fun m hm => h.seg m (hway.subset h.closed hn m hm)

theorem chain_nodup (h : Threaded nodes up head att next) (hn : n ∈ nodes)
    (hway : Way up n path) : (path.flatMap (items head att)).Nodup := by
  rw [List.nodup_flatMap]
  refine ⟨fun m hm => h.nodup m (hway.subset h.closed hn m hm), ?_⟩
  refine hway.nodup.imp_of_mem fun {a b} ha hb hne => ?_
  exact h.disjoint a (hway.subset h.closed hn a ha) b (hway.subset h.closed hn b hb) hne

theorem chain_nonzero (h : Threaded nodes up head att next) (hn : n ∈ nodes)
    (hway : Way up n path) : 0 ∉ path.flatMap (items head att) := by
  rw [List.mem_flatMap]
  rintro ⟨m, hm, hzero⟩
  exact h.nonzero m (hway.subset h.closed hn m hm) hzero

/-- An item of a node is on the list from another once, or not at all. -/
theorem count_chain (h : Threaded nodes up head att next) (hn : n ∈ nodes) (hway : Way up n path)
    (hm : m ∈ nodes) (hx : x ∈ items head att m) [Decidable (m ∈ path)] :
    (path.flatMap (items head att)).count x = if m ∈ path then 1 else 0 := by
  have hmem : x ∈ path.flatMap (items head att) ↔ m ∈ path := by
    rw [List.mem_flatMap]
    constructor
    · rintro ⟨k, hk, hxk⟩
      rwa [h.mem_unique hm (hway.subset h.closed hn k hk) hx hxk]
    · exact fun hpath => ⟨m, hpath, hx⟩
  split_ifs with hpath
  · exact List.count_eq_one_of_mem (h.chain_nodup hn hway) (hmem.2 hpath)
  · exact List.count_eq_zero_of_not_mem fun hin => hpath (hmem.1 hin)

/-- Another item is attached to a node. -/
theorem insert [DecidableEq ι] (h : Threaded nodes up head att next) (hn : n ∈ nodes)
    (hnew : ∀ m ∈ nodes, x ∉ items head att m) (hx : x ≠ 0) (hhead : next' (head n) = x)
    (hitem : next' x = next (head n))
    (hothers : ∀ y, y ≠ head n → y ≠ x → next' y = next y) :
    Threaded nodes up head (Function.update att n (x :: att n)) next' := by
  have hself : items head (Function.update att n (x :: att n)) n = head n :: x :: att n := by
    rw [items, Function.update_self]
  have hother : ∀ m, m ≠ n →
      items head (Function.update att n (x :: att n)) m = items head att m := by
    intro m hne
    rw [items, Function.update_of_ne hne, items]
  have hsub : ∀ m y, y ∈ items head (Function.update att n (x :: att n)) m →
      (m = n ∧ y = x) ∨ y ∈ items head att m := by
    intro m y hy
    by_cases hmn : m = n
    · subst hmn
      rw [hself, List.mem_cons, List.mem_cons] at hy
      rcases hy with rfl | rfl | hy
      · exact .inr List.mem_cons_self
      · exact .inl ⟨rfl, rfl⟩
      · exact .inr (List.mem_cons_of_mem _ hy)
    · rw [hother m hmn] at hy
      exact .inr hy
  have hheadNodup := h.nodup n hn
  rw [items, List.nodup_cons] at hheadNodup
  constructor
  · exact h.closed
  · intro m hm
    by_cases hmn : m = n
    · subst hmn
      have hxm := hnew m hm
      rw [items, List.mem_cons, not_or] at hxm
      rw [hself, List.nodup_cons, List.nodup_cons, List.mem_cons, not_or]
      exact ⟨⟨Ne.symm hxm.1, hheadNodup.1⟩, hxm.2, hheadNodup.2⟩
    · rw [hother m hmn]
      exact h.nodup m hm
  · intro m hm k hk hne y hy hy'
    rcases hsub m y hy with ⟨hmn, hyx⟩ | hold <;> rcases hsub k y hy' with ⟨hkn, hyx'⟩ | hold'
    · exact hne (hmn.trans hkn.symm)
    · exact hnew k hk (hyx ▸ hold')
    · exact hnew m hm (hyx' ▸ hold)
    · exact h.disjoint m hm k hk hne hold hold'
  · intro m hm hzero
    rcases hsub m 0 hzero with ⟨-, hxzero⟩ | hzero
    · exact hx hxzero.symm
    · exact h.nonzero m hm hzero
  · intro m hm
    by_cases hmn : m = n
    · subst hmn
      rw [hself]
      exact (h.seg m hm).insert (hnew m hm) hheadNodup.1 hhead hitem hothers
    · rw [hother m hmn]
      refine (h.seg m hm).congr fun y hy => hothers y ?_ ?_
      · rintro rfl
        exact h.disjoint m hm n hn hmn hy List.mem_cons_self
      · rintro rfl
        exact hnew m hm hy

/-- The item behind a head is unlinked. -/
theorem unlinkFirst [DecidableEq ι] {l : List ℕ} (h : Threaded nodes up head att next)
    (hn : n ∈ nodes) (hatt : att n = x :: l) :
    Threaded nodes up head (Function.update att n l)
      (Function.update next (head n) (next x)) := by
  have hself : items head (Function.update att n l) n = head n :: l := by
    rw [items, Function.update_self]
  have hother : ∀ m, m ≠ n → items head (Function.update att n l) m = items head att m := by
    intro m hne
    rw [items, Function.update_of_ne hne, items]
  have hsub : ∀ m, (items head (Function.update att n l) m).Sublist (items head att m) := by
    intro m
    by_cases hmn : m = n
    · subst hmn
      rw [hself, items, hatt]
      exact (List.sublist_cons_self x l).cons_cons _
    · rw [hother m hmn]
  constructor
  · exact h.closed
  · exact fun m hm => (h.nodup m hm).sublist (hsub m)
  · exact fun m hm k hk hne y hy hy' =>
      h.disjoint m hm k hk hne ((hsub m).subset hy) ((hsub k).subset hy')
  · exact fun m hm hzero => h.nonzero m hm ((hsub m).subset hzero)
  · intro m hm
    by_cases hmn : m = n
    · subst hmn
      have hseg := h.seg m hm
      have hnodup := h.nodup m hm
      rw [items, hatt] at hseg hnodup
      rw [hself]
      exact hseg.unlink hnodup
    · rw [hother m hmn]
      refine (h.seg m hm).congr fun y hy => Function.update_of_ne ?_ _ _
      rintro rfl
      exact h.disjoint m hm n hn hmn hy List.mem_cons_self

/-- Items are unlinked on the list from a node. -/
theorem prune (h : Threaded nodes up head att next) (hn : n ∈ nodes) (hway : Way up n path)
    [DecidablePred (· ∈ path)] (hkeep : ∀ m ∈ nodes, keep (head m) = true)
    (hseg : Seg next' (head n) ((path.flatMap (items head att)).filter keep) 0)
    (hothers : ∀ y ∉ path.flatMap (items head att), next' y = next y) :
    Threaded nodes up head (fun m => if m ∈ path then (att m).filter keep else att m) next' := by
  have hitems : ∀ m ∈ nodes, m ∈ path →
      items head (fun m => if m ∈ path then (att m).filter keep else att m) m =
        (items head att m).filter keep := by
    intro m hm hpath
    rw [items, if_pos hpath, items, List.filter_cons_of_pos (hkeep m hm)]
  have hother : ∀ m, m ∉ path →
      items head (fun m => if m ∈ path then (att m).filter keep else att m) m =
        items head att m := by
    intro m hpath
    rw [items, if_neg hpath, items]
  have hsub : ∀ m ∈ nodes, (items head
      (fun m => if m ∈ path then (att m).filter keep else att m) m).Sublist
        (items head att m) := by
    intro m hm
    by_cases hpath : m ∈ path
    · rw [hitems m hm hpath]
      exact List.filter_sublist
    · rw [hother m hpath]
  constructor
  · exact h.closed
  · exact fun m hm => (h.nodup m hm).sublist (hsub m hm)
  · exact fun m hm k hk hne y hy hy' =>
      h.disjoint m hm k hk hne ((hsub m hm).subset hy) ((hsub k hk).subset hy')
  · exact fun m hm hzero => h.nonzero m hm ((hsub m hm).subset hzero)
  · intro m hm
    by_cases hpath : m ∈ path
    · refine hway.nodes_of_seg ?_ m hpath
      have hfilter : path.flatMap
          (items head (fun m => if m ∈ path then (att m).filter keep else att m)) =
            (path.flatMap (items head att)).filter keep := by
        rw [List.filter_flatMap]
        exact List.flatMap_congr fun k hk => hitems k (hway.subset h.closed hn k hk) hk
      rwa [hfilter]
    · rw [hother m hpath]
      refine (h.seg m hm).congr fun y hy => hothers y fun hmem => ?_
      obtain ⟨k, hk, hyk⟩ := List.mem_flatMap.1 hmem
      obtain rfl := h.mem_unique hm (hway.subset h.closed hn k hk) hy hyk
      exact hpath hk

end Threaded

end Tree
