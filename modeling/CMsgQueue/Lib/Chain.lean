import Mathlib.Data.Finset.Card

/-!
# Singly linked lists in memory

Cells with a body and a link to the next cell, kept at addresses that are allocated and freed.
Loops over a list take as many steps as there are addresses, so that a walk over a circular list
shows as one that does not end.
-/

namespace CMsgQueue.Chain

open List

universe u

/-- A cell of a linked list. -/
structure Cell (β : Type u) where
  body : β
  next : Option Nat
  deriving DecidableEq

/-- Memory for cells; `none` is a free address. -/
abbrev Heap (β : Type u) := List (Option (Cell β))

variable {β : Type u}

def read (heap : Heap β) (a : Nat) : Option (Cell β) := heap[a]?.join

/-- Writing the cell at an address; the address one behind the memory makes it larger. -/
def write (heap : Heap β) (a : Nat) (cell : Cell β) : Heap β :=
  if a < heap.length then heap.set a (some cell) else heap ++ [some cell]

def free (heap : Heap β) (a : Nat) : Heap β := heap.set a none

/-- An address that is not in use: the preferred one, or the one behind the memory. -/
def unused (heap : Heap β) (preferred : Nat) : Nat :=
  match heap[preferred]? with
  | some none => preferred
  | _ => heap.length

def setNext (heap : Heap β) (a : Nat) (next : Option Nat) : Heap β :=
  heap.modify a (Option.map fun cell => { cell with next })

section Memory

variable {heap : Heap β} {next : Option Nat}

lemma lt_of_read (found : read heap a = some cell) : a < heap.length := by
  unfold read at found
  by_contra outside
  rw [getElem?_eq_none (Nat.not_lt.mp outside)] at found
  cases found

lemma read_write_self (inside : a ≤ heap.length) : read (write heap a cell) a = some cell := by
  unfold read write
  split
  next below => rw [getElem?_set_self below]; rfl
  have atEnd : a = heap.length := by omega
  subst atEnd
  simp

lemma read_write_of_ne (inside : a ≤ heap.length) (different : a ≠ b) :
    read (write heap a cell) b = read heap b := by
  unfold read write
  split
  · rw [getElem?_set_ne different]
  by_cases below : b < heap.length
  · rw [getElem?_append_left below]
  by_cases b = heap.length
  · omega
  rw [getElem?_eq_none (by simp; omega), getElem?_eq_none (by omega)]

lemma read_free_of_ne (different : a ≠ b) : read (free heap a) b = read heap b := by
  unfold read free
  rw [getElem?_set_ne different]

lemma read_setNext_self (found : read heap a = some cell) :
    read (setNext heap a next) a = some { cell with next } := by
  unfold read at found ⊢
  unfold setNext
  rw [getElem?_modify_eq]
  cases content : heap[a]? with
  | none => rw [content] at found; cases found
  | some =>
    rw [content] at found
    simp only [Option.join_some] at found
    rw [found]
    rfl

lemma read_setNext_of_ne (different : a ≠ b) : read (setNext heap a next) b = read heap b := by
  unfold read setNext
  simp [different]

lemma unused_le (heap : Heap β) (preferred : Nat) : unused heap preferred ≤ heap.length := by
  unfold unused
  split
  next isFree => exact (List.getElem?_eq_some_iff.mp isFree).1.le
  exact le_refl _

lemma read_unused (heap : Heap β) (preferred : Nat) :
    read heap (unused heap preferred) = none := by
  unfold unused read
  split
  next isFree => rw [isFree]; rfl
  rw [getElem?_eq_none (le_refl _)]
  rfl

end Memory

/-- The pointer `p` leads through the cells to the pointer `q`. -/
def Linked (heap : Heap β) : Option Nat → List (Nat × β) → Option Nat → Prop
  | p, [], q => p = q
  | p, (a, body) :: cells, q =>
    p = some a ∧ ∃ next, read heap a = some ⟨body, next⟩ ∧ Linked heap next cells q

abbrev addrs (cells : List (Nat × β)) : List Nat := cells.map Prod.fst

def lastAddr (prev : Option Nat) (cells : List (Nat × β)) : Option Nat :=
  (cells.getLast?.map Prod.fst).or prev

@[simp] lemma lastAddr_concat (prev : Option Nat) (cells : List (Nat × β)) (cell : Nat × β) :
    lastAddr prev (cells ++ [cell]) = some cell.1 := by
  simp [lastAddr]

lemma lastAddr_cons (prev : Option Nat) (cell : Nat × β) (cells : List (Nat × β)) :
    lastAddr prev (cell :: cells) = lastAddr (some cell.1) cells := by
  cases cells using reverseRecOn with
  | nil => rfl
  | append_singleton cells => rw [← cons_append, lastAddr_concat, lastAddr_concat]

variable {heap : Heap β} {p q : Option Nat} {a : Nat} {cells : List (Nat × β)}

lemma linked_append :
    Linked heap p (front ++ back) q ↔ ∃ r, Linked heap p front r ∧ Linked heap r back q := by
  induction front generalizing p with
  | nil => simp [Linked]
  | cons _ front ih =>
    simp only [cons_append, Linked, ih]
    constructor
    · rintro ⟨start, next, found, r, toR, toQ⟩
      exact ⟨r, ⟨start, next, found, toR⟩, toQ⟩
    rintro ⟨r, ⟨start, next, found, toR⟩, toQ⟩
    exact ⟨start, next, found, r, toR, toQ⟩

lemma Linked.exists_first (linked : Linked heap (some a) cells none) :
    ∃ body next rest, cells = (a, body) :: rest ∧ read heap a = some ⟨body, next⟩ ∧
      Linked heap next rest none := by
  cases cells with
  | nil => cases linked
  | cons cell rest =>
    obtain ⟨same, next, found, toEnd⟩ := linked
    cases same
    exact ⟨cell.2, next, rest, rfl, found, toEnd⟩

section

variable (linked : Linked heap p cells q)
include linked

lemma Linked.congr (same : ∀ a ∈ addrs cells, read heap' a = read heap a) :
    Linked heap' p cells q := by
  induction cells generalizing p with
  | nil => exact linked
  | cons cell cells ih =>
    obtain ⟨start, next, found, rest⟩ := linked
    refine ⟨start, next, ?_, ih rest fun a inside => same a (mem_cons_of_mem _ inside)⟩
    rw [same cell.1 mem_cons_self]
    exact found

lemma Linked.exists_read (member : (a, body) ∈ cells) :
    ∃ next, read heap a = some ⟨body, next⟩ := by
  induction cells generalizing p with
  | nil => cases member
  | cons _ cells ih =>
    obtain ⟨-, next, found, rest⟩ := linked
    rcases mem_cons.mp member with rfl | member
    · exact ⟨next, found⟩
    exact ih rest member

lemma Linked.isSome_read (member : a ∈ addrs cells) : (read heap a).isSome = true := by
  obtain ⟨_, inside, rfl⟩ := mem_map.mp member
  obtain ⟨_, found⟩ := linked.exists_read inside
  rw [found]
  rfl

lemma Linked.length_le (distinct : (addrs cells).Nodup) : cells.length ≤ heap.length := by
  have below : addrs cells ⊆ List.range heap.length := by
    intro a member
    obtain ⟨_, found⟩ := Option.isSome_iff_exists.mp (linked.isSome_read member)
    exact mem_range.mpr (lt_of_read found)
  have bounded := (distinct.subperm below).length_le
  simpa using bounded

end

lemma Linked.setNext_last (linked : Linked heap p (front ++ [(a, body)]) q)
    (apart : a ∉ addrs front) (next : Option Nat) :
    Linked (setNext heap a next) p (front ++ [(a, body)]) next := by
  obtain ⟨r, toA, start, _, found, -⟩ := linked_append.mp linked
  refine linked_append.mpr ⟨r, toA.congr fun b inside => ?_, start, next, ?_, rfl⟩
  · exact read_setNext_of_ne fun same => apart (same ▸ inside)
  exact read_setNext_self found

/-- The cells that a pointer leads to; `none` if the walk does not end or leaves the memory. -/
def walkFuel (heap : Heap β) : Nat → Option Nat → Option (List (Nat × β))
  | 0, _ => none
  | _ + 1, none => some []
  | fuel + 1, some a =>
    match read heap a with
    | none => none
    | some cell => (walkFuel heap fuel cell.next).map fun cells => (a, cell.body) :: cells

def walk (heap : Heap β) (p : Option Nat) : Option (List (Nat × β)) :=
  walkFuel heap (heap.length + 1) p

lemma walkFuel_linked (linked : Linked heap p cells none) {fuel : Nat}
    (enough : cells.length < fuel) : walkFuel heap fuel p = some cells := by
  induction cells generalizing p fuel with
  | nil =>
    obtain ⟨fuel, rfl⟩ := Nat.exists_eq_add_one.mpr enough
    subst linked
    rfl
  | cons _ cells ih =>
    obtain ⟨fuel, rfl⟩ := Nat.exists_eq_add_one.mpr (Nat.zero_lt_of_lt enough)
    obtain ⟨rfl, _, found, rest⟩ := linked
    simp only [walkFuel, found]
    rw [ih rest (by simpa using enough)]
    rfl

lemma walk_linked (linked : Linked heap p cells none) (distinct : (addrs cells).Nodup) :
    walk heap p = some cells :=
  walkFuel_linked linked (Nat.lt_succ_of_le (linked.length_le distinct))

/-- The loop that follows the links up to the first cell that passes a test, with the cell
before it.  The test may fail to end; `none` is a loop that does not end or leaves the
memory. -/
def searchFuel (heap : Heap β) (test : Nat → β → Option Bool) :
    Nat → Option Nat → Option Nat → Option (Option (Option Nat × Nat))
  | 0, _, _ => none
  | _ + 1, _, none => some none
  | fuel + 1, prev, some a =>
    match read heap a with
    | none => none
    | some cell =>
      match test a cell.body with
      | none => none
      | some true => some (some (prev, a))
      | some false => searchFuel heap test fuel (some a) cell.next

def search (heap : Heap β) (test : Nat → β → Option Bool) (p : Option Nat) :
    Option (Option (Option Nat × Nat)) :=
  searchFuel heap test (heap.length + 1) none p

section Search

lemma searchFuel_skip (linked : Linked heap p front q)
    (missed : ∀ cell ∈ front, test cell.1 cell.2 = some false) (fuel : Nat) (prev : Option Nat) :
    searchFuel heap test (front.length + fuel) prev p =
      searchFuel heap test fuel (lastAddr prev front) q := by
  induction front generalizing p prev with
  | nil =>
    rw [linked, length_nil, Nat.zero_add]
    rfl
  | cons cell front ih =>
    obtain ⟨rfl, _, found, rest⟩ := linked
    rw [length_cons, Nat.succ_add, lastAddr_cons]
    simp only [searchFuel, found, missed cell mem_cons_self]
    exact ih rest (fun other inside => missed other (mem_cons_of_mem _ inside)) _

lemma search_missed (linked : Linked heap p cells none) (distinct : (addrs cells).Nodup)
    (missed : ∀ cell ∈ cells, test cell.1 cell.2 = some false) :
    search heap test p = some none := by
  obtain ⟨_, length⟩ := Nat.exists_eq_add_of_le (linked.length_le distinct)
  rw [search, length, Nat.add_assoc, searchFuel_skip linked missed]
  rfl

lemma search_found (linked : Linked heap p (front ++ (a, body) :: back) none)
    (distinct : (addrs (front ++ (a, body) :: back)).Nodup)
    (missed : ∀ cell ∈ front, test cell.1 cell.2 = some false) (hit : test a body = some true) :
    search heap test p = some (some (lastAddr none front, a)) := by
  have bounded := linked.length_le distinct
  rw [length_append] at bounded
  obtain ⟨_, length⟩ := Nat.exists_eq_add_of_le (Nat.le_of_add_right_le bounded)
  obtain ⟨q, skipped, rfl, _, found, -⟩ := linked_append.mp linked
  rw [search, length, Nat.add_assoc, searchFuel_skip skipped missed]
  simp only [searchFuel, found, hit]

/-- A search with a test that ends finds the first cell that passes, or none does. -/
lemma search_cases (linked : Linked heap p cells none) (distinct : (addrs cells).Nodup)
    (test : Nat → β → Option Bool) (passes : Nat × β → Bool)
    (ends : ∀ cell ∈ cells, test cell.1 cell.2 = some (passes cell)) :
    (search heap test p = some none ∧ ∀ cell ∈ cells, passes cell = false) ∨
      ∃ front a body back, cells = front ++ (a, body) :: back ∧
        (∀ cell ∈ front, passes cell = false) ∧ passes (a, body) = true ∧
        search heap test p = some (some (lastAddr none front, a)) := by
  cases found : cells.find? passes with
  | none =>
    have missed : ∀ cell ∈ cells, passes cell = false := by simpa using found
    refine .inl ⟨search_missed linked distinct fun cell inside => ?_, missed⟩
    rw [ends cell inside, missed cell inside]
  | some cell =>
    obtain ⟨hit, front, back, rfl, missed⟩ := find?_eq_some_iff_append.mp found
    refine .inr ⟨front, cell.1, cell.2, back, rfl, by simpa using missed, hit, ?_⟩
    refine search_found linked distinct (fun other inside => ?_) ?_
    · rw [ends other (mem_append_left _ inside)]
      simpa using missed other inside
    rw [ends cell (by simp), hit]

end Search

end CMsgQueue.Chain
