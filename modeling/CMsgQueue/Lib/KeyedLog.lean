import Mathlib.Logic.Function.Basic

/-!
# Logs of keyed writes

Some entries of a log write a value under a key, or remove it (tombstones); the others have
no key.  Replaying the log gives a map.  Compaction keeps the entries without a key and the
last write of each key; it may drop last writes that are tombstones.
-/

namespace CMsgQueue.KeyedLog

open List Option

universe u v w

variable {ρ : Type u} {κ : Type v} {ν : Type w} [DecidableEq κ]

def keyOf (read : ρ → Option (κ × Option ν)) (entry : ρ) : Option κ := (read entry).map Prod.fst

def tombstone (read : ρ → Option (κ × Option ν)) (entry : ρ) : Bool :=
  (read entry).any fun write => write.2.isNone

def replayOne (read : ρ → Option (κ × Option ν)) (map : κ → Option ν) (entry : ρ) :
    κ → Option ν :=
  match read entry with
  | none => map
  | some (key, value) => Function.update map key value

/-- The map from keys to their last values. -/
def replay (read : ρ → Option (κ × Option ν)) (entries : List ρ) : κ → Option ν :=
  entries.foldl (replayOne read) fun _ => none

/-- An entry survives in front of others: it has no key, or it is the last with its key, and
no tombstone unless these are kept. -/
def survives (read : ρ → Option (κ × Option ν)) (tombstones : Bool) (entry : ρ)
    (rest : List ρ) : Bool :=
  match keyOf read entry with
  | none => true
  | some key =>
    rest.all (fun other => keyOf read other != some key) &&
      (!tombstone read entry || tombstones)

def compact (read : ρ → Option (κ × Option ν)) (tombstones : Bool) : List ρ → List ρ
  | [] => []
  | entry :: rest =>
    if survives read tombstones entry rest then entry :: compact read tombstones rest
    else compact read tombstones rest

variable {read : ρ → Option (κ × Option ν)} {entry : ρ} {rest : List ρ}

lemma survives_of_keyless (keyless : keyOf read entry = none) :
    survives read tombstones entry rest = true := by
  rw [survives, keyless]

variable {key : κ}

lemma survives_iff (keyed : keyOf read entry = some key) :
    survives read tombstones entry rest = true ↔ (∀ other ∈ rest, keyOf read other ≠ some key) ∧
        (tombstone read entry = false ∨ tombstones = true) := by
  rw [survives, keyed]
  simp

omit [DecidableEq κ] in
lemma tombstone_of_keyless (keyless : keyOf read entry = none) :
    tombstone read entry = false := by
  have unread : read entry = none := map_eq_none_iff.mp keyless
  rw [tombstone, unread]
  rfl

lemma compact_sublist (entries : List ρ) : (compact read tombstones entries).Sublist entries := by
  induction entries with
  | nil => exact List.Sublist.refl _
  | cons entry _ ih =>
    rw [compact]
    split
    · exact ih.cons_cons entry
    exact ih.cons entry

lemma filter_keyless_compact (entries : List ρ) :
    (compact read tombstones entries).filter (fun entry => (keyOf read entry).isNone) =
      entries.filter fun entry => (keyOf read entry).isNone := by
  induction entries with
  | nil => rfl
  | cons entry _ ih =>
    rw [compact]
    cases key : keyOf read entry with
    | none => simp [survives_of_keyless key, key, ih]
    | some =>
      split <;> simp [key, ih]

def writeTo (read : ρ → Option (κ × Option ν)) (key : κ) (entry : ρ) : Option (Option ν) :=
  (read entry).bind fun write => if write.1 = key then some write.2 else none

lemma writeTo_eq_none : writeTo read key entry = none ↔ keyOf read entry ≠ some key := by
  cases written : read entry <;> simp [writeTo, keyOf, written]

def lastWrite (read : ρ → Option (κ × Option ν)) (key : κ) : List ρ → Option (Option ν)
  | [] => none
  | entry :: rest => (lastWrite read key rest).or (writeTo read key entry)

lemma lastWrite_eq_none :
    lastWrite read key entries = none ↔ ∀ entry ∈ entries, keyOf read entry ≠ some key := by
  induction entries with
  | nil => simp [lastWrite]
  | cons entry _ ih =>
    rw [lastWrite, forall_mem_cons, ← ih, or_eq_none_iff, writeTo_eq_none, and_comm]

lemma foldl_replayOne (map : κ → Option ν) (entries : List ρ) (key : κ) :
    entries.foldl (replayOne read) map key = (lastWrite read key entries).getD (map key) := by
  induction entries generalizing map with
  | nil => rfl
  | cons entry rest ih =>
    rw [foldl_cons, ih, lastWrite]
    cases lastWrite read key rest with
    | some => rfl
    | none =>
      rw [replayOne, writeTo]
      cases read entry with
      | none => rfl
      | some write =>
        by_cases same : write.1 = key
        · simp [← same]
        simp [same, Function.update_of_ne (Ne.symm same)]

lemma replay_eq (entries : List ρ) (key : κ) :
    replay read entries key = (lastWrite read key entries).getD none :=
  foldl_replayOne _ entries key

/-- An entry that does not survive in front of others without its key removes it. -/
lemma writeTo_of_not_survives (dropped : ¬ survives read tombstones entry rest = true)
    (later : lastWrite read key rest = none) : (writeTo read key entry).getD none = none := by
  by_cases keyed : keyOf read entry = some key
  · have removes : tombstone read entry ≠ false := fun written =>
      dropped ((survives_iff keyed).mpr ⟨lastWrite_eq_none.mp later, .inl written⟩)
    cases written : read entry with
    | none => simp [writeTo, written]
    | some => simp_all [writeTo, tombstone, keyOf]
  rw [writeTo_eq_none.mpr keyed]
  rfl

/-- Compaction does not change what a replay gives. -/
lemma replay_compact (entries : List ρ) :
    replay read (compact read tombstones entries) = replay read entries := by
  funext key
  induction entries with
  | nil => rfl
  | cons entry rest ih =>
    rw [replay_eq, replay_eq] at ih ⊢
    rw [compact, lastWrite]
    split
    next kept =>
      rw [lastWrite]
      by_cases later : lastWrite read key rest = none
      · -- the entry has the last write in both
        have none : lastWrite read key (compact read tombstones rest) = none :=
          lastWrite_eq_none.mpr fun other member =>
            lastWrite_eq_none.mp later other ((compact_sublist rest).subset member)
        rw [later, none]
      have other : writeTo read key entry = none := by
        rw [writeTo_eq_none]
        intro keyed
        exact later (lastWrite_eq_none.mpr ((survives_iff keyed).mp kept).1)
      rw [other, or_none, or_none, ih]
    next dropped =>
    rw [ih]
    cases later : lastWrite read key rest with
    | none =>
      rw [none_or, writeTo_of_not_survives dropped later]
      rfl
    | some => rfl

lemma compact_pairwise (entries : List ρ) :
    (compact read tombstones entries).Pairwise fun left right =>
      ∀ key, keyOf read left = some key → keyOf read right ≠ some key := by
  induction entries with
  | nil => exact List.Pairwise.nil
  | cons _ rest ih =>
    rw [compact]
    split
    next kept =>
      refine List.Pairwise.cons (fun other member key keyed => ?_) ih
      exact ((survives_iff keyed).mp kept).1 other ((compact_sublist rest).subset member)
    exact ih

/-- A log in which every key has one entry loses at most its tombstones. -/
lemma compact_of_pairwise
    (distinct : entries.Pairwise fun left right =>
      ∀ key, keyOf read left = some key → keyOf read right ≠ some key) :
    compact read tombstones entries =
      entries.filter fun entry => !tombstone read entry || tombstones := by
  induction entries with
  | nil => rfl
  | cons entry rest ih =>
    rw [pairwise_cons] at distinct
    have same : survives read tombstones entry rest =
        (!tombstone read entry || tombstones) := by
      rw [Bool.eq_iff_iff]
      cases key : keyOf read entry with
      | none => simp [survives_of_keyless key, tombstone_of_keyless key]
      | some key' =>
        rw [survives_iff key]
        simpa using fun _ other member => distinct.1 other member key' key
    rw [compact, filter_cons, same, ih distinct.2]

lemma tombstone_of_mem_compact (member : entry ∈ compact read false entries) :
    tombstone read entry = false := by
  induction entries with
  | nil => cases member
  | cons _ _ ih =>
    rw [compact] at member
    split at member
    next kept =>
      rcases mem_cons.mp member with rfl | later
      · cases key : keyOf read entry with
        | none => exact tombstone_of_keyless key
        | some => simpa using ((survives_iff key).mp kept).2
      exact ih later
    exact ih member

lemma compact_compact (first second : Bool) (entries : List ρ) :
    compact read second (compact read first entries) =
      if first && !second then
        (compact read first entries).filter fun entry => !tombstone read entry
      else compact read first entries := by
  rw [compact_of_pairwise (compact_pairwise entries)]
  cases second with
  | true => simp
  | false =>
    cases first with
    | true => simp
    | false =>
      rw [Bool.false_and, if_neg Bool.false_ne_true, filter_eq_self]
      intro entry member
      simp [tombstone_of_mem_compact member]

end CMsgQueue.KeyedLog
