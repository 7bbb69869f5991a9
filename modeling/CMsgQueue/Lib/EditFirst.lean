import Mathlib.Data.List.Basic

/-!
# Changing the first element that passes a test

C code finds an element of a table by a loop and then changes or removes it in place.
-/

namespace List

universe u

variable {α : Type u} {p : α → Bool} (change : α → List α) {l : List α} {x : α}

/-- The first element that passes the test is replaced. -/
def editFirst (p : α → Bool) (change : α → List α) : List α → List α
  | [] => []
  | x :: l => if p x then change x ++ l else x :: editFirst p change l

lemma editFirst_of_find? (found : l.find? p = some x) :
    ∃ before after, l = before ++ x :: after ∧ (∀ y ∈ before, p y = false) ∧
      l.editFirst p change = before ++ (change x ++ after) := by
  induction l with
  | nil => cases found
  | cons y l ih =>
    cases passes : p y with
    | true =>
      rw [find?_cons_of_pos passes, Option.some.injEq] at found
      subst found
      exact ⟨[], l, rfl, by simp, by simp [editFirst, passes]⟩
    | false =>
      rw [find?_cons_of_neg (by simp [passes])] at found
      obtain ⟨before, after, rfl, skipped, edited⟩ := ih found
      refine ⟨y :: before, after, rfl, ?_, by simp [editFirst, passes, edited]⟩
      exact forall_mem_cons.mpr ⟨passes, skipped⟩

lemma editFirst_of_find?_eq_none (missing : l.find? p = none) : l.editFirst p change = l := by
  induction l with
  | nil => rfl
  | cons y l ih =>
    rw [find?_cons] at missing
    split at missing
    · cases missing
    next passes => rw [editFirst, if_neg (by simp [passes]), ih missing]

lemma mem_or_of_mem_editFirst {change : α → List α} {y : α} (mem : y ∈ l.editFirst p change) :
    y ∈ l ∨ ∃ x ∈ l, y ∈ change x := by
  cases found : l.find? p with
  | none => exact .inl (editFirst_of_find?_eq_none change found ▸ mem)
  | some x =>
    obtain ⟨_, _, rfl, -, edited⟩ := editFirst_of_find? change found
    rw [edited] at mem
    simp only [mem_append, mem_cons] at mem ⊢
    rcases mem with mem | mem | mem
    · exact .inl (.inl mem)
    · exact .inr ⟨x, .inr (.inl rfl), mem⟩
    exact .inl (.inr (.inr mem))

end List
