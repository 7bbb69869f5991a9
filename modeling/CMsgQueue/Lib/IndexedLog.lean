import Mathlib.Data.List.Basic

/-!
# Logs with an index

A log keeps framed records one behind the other, and beside them an array of fixed-width cells
with the offset at which each record starts.  A frame carries the number of its record, but its
size does not depend on it.
-/

namespace CMsgQueue.IndexedLog

open List

universe u v

variable {α : Type u} {β : Type v}

/-- How a numbered record is framed. -/
structure Format (α : Type u) where
  frame : Nat → List α → List α
  size : List α → Nat
  length_frame : ∀ number payload, (frame number payload).length = size payload

variable {i : Nat}

namespace Format

variable (format : Format α)

/-- The frames of records that are numbered from `number` on. -/
def data : Nat → List (List α) → List α
  | _, [] => []
  | number, payload :: rest => format.frame number payload ++ data (number + 1) rest

def extent : List (List α) → Nat
  | [] => 0
  | payload :: rest => format.size payload + extent rest

/-- Where record `i` starts, counted from 0. -/
def offset (records : List (List α)) (i : Nat) : Nat := format.extent (records.take i)

def offsets (records : List (List α)) : List Nat :=
  (List.range records.length).map (format.offset records)

variable {format}

@[simp] lemma length_data (number : Nat) (records : List (List α)) :
    (format.data number records).length = format.extent records := by
  induction records generalizing number with
  | nil => rfl
  | cons _ _ ih => simp [data, extent, format.length_frame, ih]

lemma data_append (number : Nat) (left right : List (List α)) :
    format.data number (left ++ right) =
      format.data number left ++ format.data (number + left.length) right := by
  induction left generalizing number with
  | nil => simp [data]
  | cons _ _ ih =>
    rw [cons_append, data, data, ih, append_assoc, length_cons]
    congr 3
    omega

lemma extent_append (left right : List (List α)) :
    format.extent (left ++ right) = format.extent left + format.extent right := by
  induction left with
  | nil => simp [extent]
  | cons =>
    rw [cons_append, extent, extent]
    omega

lemma data_split (number : Nat) (inside : i < records.length) :
    format.data number records = format.data number (records.take i) ++
      (format.frame (number + i) records[i] ++
        format.data (number + i + 1) (records.drop (i + 1))) := by
  have length : (records.take i).length = i := by
    rw [length_take]
    omega
  conv_lhs => rw [← take_append_drop i records, data_append, length,
    drop_eq_getElem_cons inside, data]

@[simp] lemma length_offsets (records : List (List α)) :
    (format.offsets records).length = records.length := by
  simp [offsets]

lemma getElem_offsets (inside : i < (format.offsets records).length) :
    (format.offsets records)[i] = format.offset records i := by
  simp [offsets]

lemma offset_append_left (inside : i ≤ left.length) :
    format.offset (left ++ right) i = format.offset left i := by
  rw [offset, offset, take_append_of_le_length inside]

lemma offset_length (records : List (List α)) :
    format.offset records records.length = format.extent records := by
  rw [offset, take_length]

lemma offsets_concat (records : List (List α)) (payload : List α) :
    format.offsets (records ++ [payload]) = format.offsets records ++ [format.extent records] := by
  rw [offsets, length_append, length_singleton, range_succ, map_append]
  congr 1
  · apply map_congr_left
    intro i member
    exact offset_append_left (Nat.le_of_lt (mem_range.mp member))
  rw [map_singleton, offset_append_left (Nat.le_refl _), offset_length]

lemma offset_succ (inside : i < records.length) :
    format.offset records (i + 1) = format.offset records i + format.size records[i] := by
  rw [offset, take_succ_eq_append_getElem inside, extent_append, extent, extent]
  rfl

lemma offset_le_extent (records : List (List α)) (i : Nat) :
    format.offset records i ≤ format.extent records := by
  conv_rhs => rw [← take_append_drop i records, extent_append]
  exact Nat.le_add_right _ _

end Format

def cells (encode : β → List α) (values : List β) : List α := values.flatMap encode

lemma length_cells {encode : β → List α} {width : Nat}
    (each : ∀ value, (encode value).length = width) (values : List β) :
    (cells encode values).length = width * values.length := by
  induction values with
  | nil => rfl
  | cons value _ ih =>
    rw [cells, flatMap_cons, length_append, each, ← cells, ih, length_cons,
      Nat.mul_succ, Nat.add_comm]

lemma cells_append (encode : β → List α) (left right : List β) :
    cells encode (left ++ right) = cells encode left ++ cells encode right :=
  flatMap_append

lemma cells_split (encode : β → List α) (inside : i < values.length) :
    cells encode values = cells encode (values.take i) ++
      (encode values[i] ++ cells encode (values.drop (i + 1))) := by
  conv_lhs => rw [← take_append_drop i values, cells_append, drop_eq_getElem_cons inside]
  rfl

/-- Where a scan of `count` indices from `start` on stops: at the first that fails a test. -/
def leading (test : Nat → Bool) : (count start : Nat) → Nat
  | 0, start => start
  | count + 1, start => if test start then leading test count (start + 1) else start

lemma leading_spec (test : Nat → Bool) (count start : Nat) :
    start ≤ leading test count start ∧ leading test count start ≤ start + count ∧
      (∀ i, start ≤ i → i < leading test count start → test i = true) ∧
      (leading test count start < start + count → test (leading test count start) = false) := by
  induction count generalizing start with
  | zero =>
    refine ⟨Nat.le_refl _, Nat.le_refl _, fun i low high => ?_, fun less => ?_⟩
    · exact absurd high (Nat.not_lt.mpr low)
    exact absurd less (Nat.lt_irrefl _)
  | succ count ih =>
    rw [leading]
    cases passes : test start with
    | false =>
      refine ⟨Nat.le_refl _, Nat.le_add_right _ _, fun i low high => ?_, fun _ => passes⟩
      exact absurd high (Nat.not_lt.mpr low)
    | true =>
      obtain ⟨low, high, passed, ended⟩ := ih (start + 1)
      rw [if_pos rfl]
      refine ⟨by omega, by omega, fun i first last => ?_, fun less => ended (by omega)⟩
      rcases Nat.lt_or_eq_of_le first with later | rfl
      · exact passed i later last
      exact passes

lemma leading_eq {test : Nat → Bool} {count start stop : Nat} (low : start ≤ stop)
    (high : stop ≤ start + count) (passed : ∀ i, start ≤ i → i < stop → test i = true)
    (ended : stop < start + count → test stop = false) : leading test count start = stop := by
  obtain ⟨low', _, passed', ended'⟩ := leading_spec test count start
  rcases Nat.lt_trichotomy (leading test count start) stop with less | same | more
  · have fails := ended' (by omega)
    rw [passed _ low' less] at fails
    cases fails
  · exact same
  have fails := ended (by omega)
  rw [passed' stop low more] at fails
  cases fails

end CMsgQueue.IndexedLog
