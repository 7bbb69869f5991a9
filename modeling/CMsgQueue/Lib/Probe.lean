import Mathlib.Data.Nat.ModEq

/-!
# Open addressing with linear probing

The search for a key starts at the slot of its hash and goes on around the end, past the slots of
other keys and the tombstones of deleted ones, up to an empty slot.
-/

namespace CMsgQueue.Probe

open Function

universe u v

/-- A slot of a table. -/
inductive Slot (κ : Type u) (ν : Type v) where
  | empty
  | tomb
  | full (key : κ) (value : ν)

/-- The slot that a search from `start` looks at after `d` others. -/
def visit (cap start d : Nat) : Nat := (start + d) % cap

lemma visit_lt (positive : 0 < cap) (start d : Nat) : visit cap start d < cap :=
  Nat.mod_lt _ positive

lemma exists_visit (inside : i < cap) (start : Nat) : ∃ d < cap, visit cap start d = i := by
  have positive : 0 < cap := by omega
  have below := Nat.mod_lt start positive
  refine ⟨(i + (cap - start % cap)) % cap, Nat.mod_lt _ positive, ?_⟩
  unfold visit
  rw [Nat.add_mod_mod, ← Nat.mod_add_mod]
  have around : start % cap + (i + (cap - start % cap)) = i + cap := by omega
  rw [around, Nat.add_mod_right, Nat.mod_eq_of_lt inside]

variable {κ : Type u} {ν : Type v}

/-- The search for a key goes on behind the slot. -/
def Passes (key : κ) (slot : Slot κ ν) : Prop :=
  slot ≠ .empty ∧ ∀ value, slot ≠ .full key value

/-- A table holds a map: every entry has one slot, and the search for its key gets there. -/
structure Holds (cap : Nat) (hash : κ → Nat) (slot : Nat → Slot κ ν) (map : κ → Option ν) :
    Prop where
  mem_iff : ∀ key value, map key = some value ↔ ∃ i < cap, slot i = .full key value
  unique : ∀ {i j key value value'}, i < cap → j < cap → slot i = .full key value →
    slot j = .full key value' → i = j
  reached : ∀ {i key value}, i < cap → slot i = .full key value →
    ∃ d < cap, visit cap (hash key) d = i ∧ ∀ e < d, slot (visit cap (hash key) e) ≠ .empty

variable {cap : Nat} {hash : κ → Nat}

lemma holds_empty (cap : Nat) (hash : κ → Nat) :
    Holds cap hash (fun _ => .empty) (fun _ : κ => (none : Option ν)) where
  mem_iff := by simp
  unique := by simp
  reached := by simp

/-- A search that stops at an empty slot, or has looked at all, has missed nothing. -/
lemma Holds.absent (holds : Holds cap hash slot map)
    (passed : ∀ e < d, Passes key (slot (visit cap (hash key) e)))
    (stopped : d = cap ∨ slot (visit cap (hash key) d) = .empty) : map key = none := by
  cases found : map key with
  | none => rfl
  | some value =>
    obtain ⟨i, inside, full⟩ := (holds.mem_iff key value).mp found
    obtain ⟨e, below, rfl, nonempty⟩ := holds.reached inside full
    rcases Nat.lt_trichotomy e d with before | rfl | behind
    · exact absurd full ((passed e before).2 value)
    · rcases stopped with rfl | empty
      · exact absurd below (Nat.lt_irrefl _)
      cases empty.symm.trans full
    rcases stopped with rfl | empty
    · exact absurd below (Nat.lt_asymm behind)
    exact absurd empty (nonempty d behind)

lemma update_eq_full {slot : Nat → Slot κ ν} {content : Slot κ ν} :
    update slot i content j = .full key value ↔
      (j = i ∧ content = .full key value) ∨ (j ≠ i ∧ slot j = .full key value) := by
  by_cases here : j = i
  · subst here
    simp
  simp [here]

lemma update_ne_empty {slot : Nat → Slot κ ν} {content : Slot κ ν} (nonempty : content ≠ .empty)
    (before : slot j ≠ .empty) : update slot i content j ≠ .empty := by
  by_cases here : j = i
  · rwa [here, update_self]
  rwa [update_of_ne here]

variable [DecidableEq κ]

/-- A new key goes to the first empty slot of its search, or to a tombstone before it. -/
lemma Holds.insert (holds : Holds cap hash slot map) (positive : 0 < cap)
    (absent : map key = none) (below : d < cap)
    (nonempty : ∀ e < d, slot (visit cap (hash key) e) ≠ .empty)
    (vacant : ∀ other value, slot (visit cap (hash key) d) ≠ .full other value) (value : ν) :
    Holds cap hash (update slot (visit cap (hash key) d) (.full key value))
      (update map key (some value)) := by
  have place := visit_lt positive (hash key) d
  have keyAbsent : ∀ {i value}, i < cap → slot i ≠ .full key value := by
    intro i value inside full
    have found := (holds.mem_iff key value).mpr ⟨i, inside, full⟩
    rw [absent] at found
    cases found
  refine ⟨fun other content => ?_, ?_, ?_⟩
  · simp only [update_eq_full]
    by_cases same : other = key
    · subst same
      rw [update_self]
      constructor
      · rintro ⟨⟩
        exact ⟨_, place, .inl ⟨rfl, rfl⟩⟩
      rintro ⟨i, inside, ⟨-, ⟨⟩⟩ | ⟨-, full⟩⟩
      · rfl
      exact absurd full (keyAbsent inside)
    rw [update_of_ne same, holds.mem_iff]
    refine exists_congr fun i => and_congr_right fun _ => ⟨fun full => .inr ⟨?_, full⟩, ?_⟩
    · rintro rfl
      exact vacant _ _ full
    rintro (⟨-, ⟨⟩⟩ | ⟨-, full⟩)
    · exact absurd rfl same
    exact full
  · intro i j other content content' iInside jInside iFull jFull
    rcases update_eq_full.mp iFull with ⟨iHere, ⟨⟩⟩ | ⟨-, iFull⟩
    · rcases update_eq_full.mp jFull with ⟨jHere, -⟩ | ⟨-, jFull⟩
      · exact iHere.trans jHere.symm
      exact absurd jFull (keyAbsent jInside)
    rcases update_eq_full.mp jFull with ⟨-, ⟨⟩⟩ | ⟨-, jFull⟩
    · exact absurd iFull (keyAbsent iInside)
    exact holds.unique iInside jInside iFull jFull
  intro i other content inside full
  -- A slot that was not empty still is not.
  rcases update_eq_full.mp full with ⟨here, ⟨⟩⟩ | ⟨-, full⟩
  · exact ⟨d, below, here.symm, fun e before => update_ne_empty nofun (nonempty e before)⟩
  obtain ⟨e, eBelow, place, before⟩ := holds.reached inside full
  exact ⟨e, eBelow, place, fun e' earlier => update_ne_empty nofun (before e' earlier)⟩

lemma Holds.erase (holds : Holds cap hash slot map) (inside : i < cap)
    (full : slot i = .full key value) :
    Holds cap hash (update slot i .tomb) (update map key none) := by
  have kept : ∀ {j other content}, update slot i .tomb j = .full other content ↔
      j ≠ i ∧ slot j = .full other content := by
    simp [update_eq_full]
  refine ⟨fun other content => ?_, ?_, ?_⟩
  · simp only [kept]
    by_cases same : other = key
    · subst same
      rw [update_self]
      refine ⟨nofun, ?_⟩
      rintro ⟨j, jInside, different, jFull⟩
      exact absurd (holds.unique jInside inside jFull full) different
    rw [update_of_ne same, holds.mem_iff]
    refine exists_congr fun j => and_congr_right fun _ => ⟨fun jFull => ⟨?_, jFull⟩, And.right⟩
    rintro rfl
    cases full.symm.trans jFull
    exact same rfl
  · intro j k other content content' jInside kInside jFull kFull
    exact holds.unique jInside kInside (kept.mp jFull).2 (kept.mp kFull).2
  intro j other content jInside jFull
  obtain ⟨e, below, place, before⟩ := holds.reached jInside (kept.mp jFull).2
  exact ⟨e, below, place, fun e' earlier => update_ne_empty nofun (before e' earlier)⟩

end CMsgQueue.Probe
