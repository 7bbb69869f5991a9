import Mathlib.Data.List.Basic
import Mathlib.Data.List.TakeWhile

/-!
# Reading a separated string token by token

C code scans to the next separator and steps over it.  `head` and `tail` are these two moves; on
strings without empty tokens they enumerate `List.splitOn`.
-/

namespace CMsgQueue.Tokens

open List

universe u

variable {α : Type u} [DecidableEq α] (sep : α)

def head (text : List α) : List α := text.takeWhile fun symbol => symbol ≠ sep

/-- What is left at the end of the first token: nothing, or a separator. -/
def rest (text : List α) : List α := text.dropWhile fun symbol => symbol ≠ sep

def tail (text : List α) : List α := (rest sep text).drop 1

/-- The tokens of a string; the empty string has none. -/
def tokens (text : List α) : List (List α) :=
  if text = [] then [] else text.splitOn sep

def Separated (text : List α) : Prop := [] ∉ tokens sep text

@[simp] lemma tokens_nil : tokens sep ([] : List α) = [] := rfl

lemma separated_nil : Separated sep ([] : List α) := by
  simp [Separated]

lemma head_append_rest (text : List α) : head sep text ++ rest sep text = text :=
  takeWhile_append_dropWhile

lemma sep_notMem_head (text : List α) : sep ∉ head sep text := by
  intro member
  have passes := mem_takeWhile_imp member
  simp at passes

lemma length_tail_lt (nonempty : text ≠ []) : (tail sep text).length < text.length := by
  have bound : (rest sep text).length ≤ text.length := (dropWhile_sublist _).length_le
  have positive : 0 < text.length := length_pos_iff.mpr nonempty
  rw [tail, length_drop]
  omega

lemma rest_eq_nil_or (text : List α) :
    rest sep text = [] ∨ rest sep text = sep :: tail sep text := by
  cases restEq : rest sep text with
  | nil => exact Or.inl rfl
  | cons symbol =>
    right
    have stops := head?_dropWhile_not (fun symbol => decide (symbol ≠ sep)) text
    change (match (rest sep text).head? with
      | some symbol => (decide (symbol ≠ sep)) = false
      | none => True) at stops
    rw [restEq] at stops
    have isSep : symbol = sep := by simpa using stops
    rw [tail, restEq, isSep, drop_one, tail_cons]

lemma splitOn_eq (text : List α) :
    text.splitOn sep =
      head sep text ::
        if rest sep text = [] then [] else (tail sep text).splitOn sep := by
  have single := splitOn_eq_singleton (sep_notMem_head sep text)
  have whole := head_append_rest sep text
  rcases rest_eq_nil_or sep text with atEnd | atSep
  · rw [atEnd, append_nil] at whole
    rw [whole] at single
    rw [if_pos atEnd, whole, single]
  have more : rest sep text ≠ [] := by simp [atSep]
  rw [if_neg more]
  calc text.splitOn sep
      = (head sep text ++ sep :: tail sep text).splitOn sep := by rw [← atSep, whole]
    _ = (head sep text).splitOn sep ++ (tail sep text).splitOn sep :=
        splitOnP_append_cons _ _ (by simp)
    _ = head sep text :: (tail sep text).splitOn sep := by rw [single]; rfl

variable {sep}

lemma Separated.tokens_eq (separated : Separated sep text) (nonempty : text ≠ []) :
    tokens sep text = head sep text :: tokens sep (tail sep text) := by
  have step := splitOn_eq sep text
  have notEmpty : [] ∉ text.splitOn sep := by simpa [Separated, tokens, nonempty] using separated
  rw [tokens, if_neg nonempty, step]
  rw [step] at notEmpty
  congr 1
  by_cases atEnd : rest sep text = []
  · simp [atEnd, tail]
  rw [if_neg atEnd] at notEmpty ⊢
  have more : tail sep text ≠ [] := by
    intro none
    simp [none] at notEmpty
  rw [tokens, if_neg more]

lemma Separated.tail (separated : Separated sep text) : Separated sep (tail sep text) := by
  by_cases nonempty : text = []
  · subst nonempty
    exact separated_nil sep
  intro empty
  apply separated
  rw [separated.tokens_eq nonempty]
  exact mem_cons_of_mem _ empty

lemma tail_suffix (text : List α) : tail sep text <:+ text :=
  (drop_suffix _ _).trans (dropWhile_suffix _)

lemma mem_of_mem_tokens (member : token ∈ tokens sep text)
    (inside : symbol ∈ token) : symbol ∈ text := by
  by_cases nonempty : text = []
  · simp [nonempty] at member
  have shorter := length_tail_lt sep nonempty
  rw [tokens, if_neg nonempty, splitOn_eq] at member
  rcases mem_cons.mp member with rfl | later
  · exact (takeWhile_sublist _).subset inside
  by_cases atEnd : rest sep text = []
  · simp [atEnd] at later
  rw [if_neg atEnd] at later
  by_cases more : tail sep text = []
  · rw [more] at later
    simp only [splitOn_nil, mem_singleton] at later
    simp [later] at inside
  have member' : token ∈ tokens sep (tail sep text) := by rwa [tokens, if_neg more]
  exact (tail_suffix text).subset (mem_of_mem_tokens member' inside)
termination_by text.length

lemma splitOn_injective : Function.Injective (List.splitOn sep) := by
  intro _ _ same
  simpa only [intercalate_splitOn] using congrArg ([sep].intercalate) same

lemma separated_of_bounds (first : text.head? ≠ some sep) (last : text.getLast? ≠ some sep)
    (adjacent : ∀ left right, text ≠ left ++ sep :: sep :: right) : Separated sep text := by
  by_cases nonempty : text = []
  · subst nonempty
    exact separated_nil sep
  have whole := head_append_rest sep text
  have headNonempty : head sep text ≠ [] := by
    intro empty
    rcases rest_eq_nil_or sep text with atEnd | atSep
    · exact nonempty (by rw [← whole, empty, atEnd]; rfl)
    exact first (by rw [← whole, empty, atSep]; rfl)
  rw [Separated, tokens, if_neg nonempty, splitOn_eq]
  rcases rest_eq_nil_or sep text with atEnd | atSep
  · simpa [atEnd] using headNonempty.symm
  have more : rest sep text ≠ [] := by simp [atSep]
  rw [atSep] at whole
  have tailNonempty : tail sep text ≠ [] := by
    intro none
    rw [none] at whole
    exact last (by rw [← whole]; simp)
  have shorter := length_tail_lt sep nonempty
  have ih : Separated sep (tail sep text) := by
    apply separated_of_bounds
    · intro leading
      obtain ⟨right, tailEq⟩ := head?_eq_some_iff.mp leading
      exact adjacent (head sep text) right (by rw [← tailEq, whole])
    · intro trailing
      apply last
      rw [← whole, getLast?_append_of_ne_nil _ (cons_ne_nil _ _),
        getLast?_cons_of_ne_nil tailNonempty]
      exact trailing
    intro left right inside
    exact adjacent (head sep text ++ sep :: left) right (by
      rw [append_assoc, cons_append, ← inside, whole])
  rw [if_neg more]
  rw [Separated, tokens, if_neg tailNonempty] at ih
  intro member
  rcases mem_cons.mp member with empty | later
  · exact headNonempty empty.symm
  exact ih later
termination_by text.length

end CMsgQueue.Tokens
