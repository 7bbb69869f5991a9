import Mathlib.Data.List.Perm.Basic

/-!
# Sibling-linked tries

Every node links to its first child and to its next sibling.  The meaning of a trie is the list
of its items, each under the path of keys that leads to it.
-/

namespace CMsgQueue.Trie

open List

universe u v w

/-- A list of sibling nodes. -/
inductive Forest (κ : Type u) (ν : Type v) where
  | nil
  | node (key : κ) (value : ν) (children next : Forest κ ν)
  deriving DecidableEq

variable {κ : Type u} {ν : Type v} {δ : Type w}

namespace Forest

def under (key : κ) (items : List (List κ × δ)) : List (List κ × δ) :=
  items.map fun item => (key :: item.1, item.2)

def entries (items : ν → List δ) : Forest κ ν → List (List κ × δ)
  | nil => []
  | node key value children next =>
    under key ((items value).map (Prod.mk []) ++ entries items children) ++
      entries items next

def nodeEntries (items : ν → List δ) (node : ν × Forest κ ν) : List (List κ × δ) :=
  (items node.1).map (Prod.mk []) ++ entries items node.2

@[simp] lemma entries_nil (items : ν → List δ) :
    entries items (nil : Forest κ ν) = [] := rfl

lemma entries_node (items : ν → List δ) (key : κ) (value : ν)
    (children next : Forest κ ν) :
    entries items (node key value children next) =
      under key (nodeEntries items (value, children)) ++ entries items next := rfl

@[simp] lemma under_nil (key : κ) : under key ([] : List (List κ × δ)) = [] := rfl

lemma under_perm (key : κ) (perm : left.Perm right) :
    (under key left).Perm (under key right) :=
  perm.map _

variable {key : κ} {forest : Forest κ ν}

@[simp] lemma mem_under {items : List (List κ × δ)} {path : List κ} :
    (path, item) ∈ under key items ↔ ∃ rest, path = key :: rest ∧ (rest, item) ∈ items := by
  constructor
  · intro member
    obtain ⟨⟨rest, _⟩, inside, same⟩ := mem_map.mp member
    cases same
    exact ⟨rest, rfl, inside⟩
  rintro ⟨rest, rfl, inside⟩
  exact mem_map.mpr ⟨(rest, item), inside, rfl⟩

lemma nil_notMem_entries (items : ν → List δ) (forest : Forest κ ν) (item : δ) :
    ([], item) ∉ entries items forest := by
  induction forest with
  | nil => simp
  | node _ _ _ _ _ ih =>
    rw [entries_node, mem_append, mem_under]
    rintro (⟨_, same, -⟩ | later)
    · cases same
    exact ih later

@[simp] lemma nil_mem_nodeEntries {node : ν × Forest κ ν} :
    ([], item) ∈ nodeEntries items node ↔ item ∈ items node.1 := by
  simp [nodeEntries, nil_notMem_entries]

@[simp] lemma cons_mem_nodeEntries {node : ν × Forest κ ν} {path : List κ} :
    (key :: path, item) ∈ nodeEntries items node ↔ (key :: path, item) ∈ entries items node.2 := by
  simp [nodeEntries]

def total (count : ν → Nat) : Forest κ ν → Nat
  | nil => 0
  | node _ value children next => count value + total count children + total count next

lemma length_entries (items : ν → List δ) (forest : Forest κ ν) :
    (entries items forest).length = total (fun value => (items value).length) forest := by
  induction forest with
  | nil => rfl
  | node _ value _ _ below later => simp [entries, under, total, below, later, Nat.add_assoc]

variable [DecidableEq κ]

def find? (key : κ) : Forest κ ν → Option (ν × Forest κ ν)
  | nil => none
  | node other value children next => if other = key then some (value, children) else find? key next

def set (key : κ) (new : ν × Forest κ ν) : Forest κ ν → Forest κ ν
  | nil => nil
  | node other value children next =>
    if other = key then node other new.1 new.2 next
    else node other value children (set key new next)

def unlink (key : κ) : Forest κ ν → Forest κ ν
  | nil => nil
  | node other value children next =>
    if other = key then next else node other value children (unlink key next)

def Distinct : Forest κ ν → Prop
  | nil => True
  | node key _ children next => find? key next = none ∧ Distinct children ∧ Distinct next

lemma entries_perm_of_find? (items : ν → List δ) (found : find? key forest = some child) :
    (entries items forest).Perm
      (under key (nodeEntries items child) ++ entries items (unlink key forest)) := by
  induction forest with
  | nil => simp [find?] at found
  | node other value children next _ ih =>
    rw [find?] at found
    by_cases same : other = key
    · rw [if_pos same] at found
      cases found
      rw [entries_node, unlink, if_pos same, same]
    rw [if_neg same] at found
    rw [unlink, if_neg same]
    calc under other (nodeEntries items (value, children)) ++ entries items next
        |>.Perm (under other (nodeEntries items (value, children)) ++
            (under key (nodeEntries items child) ++
              entries items (unlink key next))) := (ih found).append_left _
      _ |>.Perm (under key (nodeEntries items child) ++
            (under other (nodeEntries items (value, children)) ++
              entries items (unlink key next))) := perm_append_comm_assoc _ _ _

lemma find?_set_self (found : find? key forest = some child) (new : ν × Forest κ ν) :
    find? key (set key new forest) = some new := by
  induction forest with
  | nil => simp [find?] at found
  | node other _ _ _ _ ih =>
    by_cases same : other = key
    · simp [set, find?, same]
    rw [find?, if_neg same] at found
    simp [set, find?, same, ih found]

lemma unlink_set (key : κ) (new : ν × Forest κ ν) (forest : Forest κ ν) :
    unlink key (set key new forest) = unlink key forest := by
  induction forest with
  | nil => rfl
  | node other _ _ _ _ ih =>
    by_cases same : other = key
    · simp [set, unlink, same]
    simp [set, unlink, same, ih]

lemma set_eq_self (found : find? key forest = some child) : set key child forest = forest := by
  induction forest with
  | nil => rfl
  | node other _ _ _ _ ih =>
    by_cases same : other = key
    · rw [find?, if_pos same] at found
      cases found
      simp [set, same]
    rw [find?, if_neg same] at found
    simp [set, same, ih found]

lemma entries_set_perm (items : ν → List δ) (found : find? key forest = some child)
    (new : ν × Forest κ ν) :
    (entries items (set key new forest)).Perm
      (under key (nodeEntries items new) ++ entries items (unlink key forest)) := by
  have perm := entries_perm_of_find? items (find?_set_self found new)
  rwa [unlink_set] at perm

lemma find?_set_of_ne (ne : other ≠ key) (new : ν × Forest κ ν)
    (forest : Forest κ ν) : find? other (set key new forest) = find? other forest := by
  induction forest with
  | nil => rfl
  | node this _ _ _ _ ih =>
    by_cases same : this = key
    · simp [set, find?, same, ne.symm]
    simp [set, find?, same, ih]

lemma find?_unlink_of_ne (ne : other ≠ key) (forest : Forest κ ν) :
    find? other (unlink key forest) = find? other forest := by
  induction forest with
  | nil => rfl
  | node this _ _ _ _ ih =>
    by_cases same : this = key
    · simp [unlink, find?, same, ne.symm]
    simp [unlink, find?, same, ih]

lemma notMem_of_find?_eq_none (items : ν → List δ) (missing : find? key forest = none)
    (path : List κ) (item : δ) : (key :: path, item) ∉ entries items forest := by
  induction forest with
  | nil => simp
  | node _ _ _ next _ ih =>
    rw [find?] at missing
    split at missing
    · cases missing
    next differs =>
    rw [entries_node, mem_append, mem_under]
    rintro (⟨_, same, -⟩ | later)
    · exact differs (List.cons.inj same).1.symm
    exact ih missing later

section

variable (distinct : Distinct forest)
include distinct

lemma Distinct.of_find? (found : find? key forest = some child) : Distinct child.2 := by
  induction forest with
  | nil => simp [find?] at found
  | node _ _ _ _ _ ih =>
    obtain ⟨-, childrenDistinct, nextDistinct⟩ := distinct
    rw [find?] at found
    split at found
    · cases found
      exact childrenDistinct
    exact ih nextDistinct found

lemma Distinct.set (newDistinct : Distinct new.2) : Distinct (set key new forest) := by
  induction forest with
  | nil => trivial
  | node _ _ _ next _ ih =>
    obtain ⟨fresh, childrenDistinct, nextDistinct⟩ := distinct
    rw [Forest.set]
    split
    · exact ⟨fresh, newDistinct, nextDistinct⟩
    next differs =>
      exact ⟨by rw [find?_set_of_ne differs, fresh], childrenDistinct, ih nextDistinct⟩

lemma Distinct.unlink : Distinct (unlink key forest) := by
  induction forest with
  | nil => trivial
  | node _ _ _ next _ ih =>
    obtain ⟨fresh, childrenDistinct, nextDistinct⟩ := distinct
    rw [Forest.unlink]
    split
    · exact nextDistinct
    next differs =>
      exact ⟨by rw [find?_unlink_of_ne differs, fresh], childrenDistinct, ih nextDistinct⟩

lemma Distinct.find?_unlink : find? key (Forest.unlink key forest) = none := by
  induction forest with
  | nil => rfl
  | node other _ _ _ _ ih =>
    obtain ⟨fresh, -, nextDistinct⟩ := distinct
    by_cases same : other = key
    · rw [Forest.unlink, if_pos same, ← same]
      exact fresh
    simp [Forest.unlink, same, find?, ih nextDistinct]

lemma Distinct.mem_iff (found : find? key forest = some child) (path : List κ) (item : δ) :
    (key :: path, item) ∈ entries items forest ↔ (path, item) ∈ nodeEntries items child := by
  have absent : (key :: path, item) ∉ entries items (Forest.unlink key forest) :=
    notMem_of_find?_eq_none items distinct.find?_unlink path item
  rw [(entries_perm_of_find? items found).mem_iff, mem_append, mem_under]
  constructor
  · rintro (⟨_, same, inside⟩ | elsewhere)
    · cases same
      exact inside
    exact absurd elsewhere absent
  intro inside
  exact Or.inl ⟨path, rfl, inside⟩

end

def Every (P : ν × Forest κ ν → Prop) : Forest κ ν → Prop
  | nil => True
  | node _ value children next => P (value, children) ∧ Every P children ∧ Every P next

variable {P : ν × Forest κ ν → Prop}

section

variable (every : Every P forest)
include every

lemma Every.of_find? (found : find? key forest = some child) : Every P child.2 := by
  induction forest with
  | nil => simp [find?] at found
  | node _ _ _ _ _ ih =>
    rw [find?] at found
    split at found
    · cases found
      exact every.2.1
    exact ih every.2.2 found

lemma Every.set (holds : P new) (below : Every P new.2) : Every P (set key new forest) := by
  induction forest with
  | nil => trivial
  | node _ _ _ _ _ ih =>
    rw [Forest.set]
    split
    · exact ⟨holds, below, every.2.2⟩
    exact ⟨every.1, every.2.1, ih every.2.2⟩

lemma Every.unlink : Every P (unlink key forest) := by
  induction forest with
  | nil => trivial
  | node _ _ _ _ _ ih =>
    rw [Forest.unlink]
    split
    · exact every.2.2
    exact ⟨every.1, every.2.1, ih every.2.2⟩

end

end Forest

end CMsgQueue.Trie
