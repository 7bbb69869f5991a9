import Mathlib.Data.List.Basic

/-!
# Rings of numbered cells

Numbers from 1 on are written round a ring: the cell of a number is its remainder.  Numbers
that lie closer together than the size of the ring have different cells, so the newest
numbers up to that size can be read back.
-/

namespace CMsgQueue.RingBuffer

universe u

variable {α : Type u}

/-- The place of a number in a ring of `size` cells. -/
def place (size number : Nat) : Nat := (number - 1) % size

def cell? (ring : List α) (number : Nat) : Option α := ring[place ring.length number]?

def write (ring : List α) (number : Nat) (value : α) : List α :=
  ring.set (place ring.length number) value

@[simp] lemma length_write (ring : List α) (number : Nat) (value : α) :
    (write ring number value).length = ring.length := by
  simp [write]

lemma place_lt (number : Nat) (positive : 0 < size) : place size number < size :=
  Nat.mod_lt _ positive

lemma place_ne (positive : 0 < first) (less : first < second)
    (near : second < first + size) : place size first ≠ place size second := by
  intro same
  have divides := Nat.dvd_of_mod_eq_zero (Nat.sub_mod_eq_zero_of_mod_eq same.symm)
  have bound := Nat.le_of_dvd (by omega) divides
  omega

lemma cell?_write (number other : Nat) (value : α) (positive : 0 < ring.length) :
    cell? (write ring number value) other =
      if place ring.length number = place ring.length other then some value
      else cell? ring other := by
  rw [cell?, length_write, write, List.getElem?_set]
  split
  · rw [if_pos (place_lt number positive)]
  rfl

lemma place_add_size (positive : 0 < number) :
    place size (number + size) = place size number := by
  rw [place, place, show number + size - 1 = number - 1 + size by omega, Nat.add_mod_right]

/-- A ring holds the values of the numbers from `dropped + 1` on. -/
structure Window (ring : List α) (dropped : Nat) (values : List α) : Prop where
  length_le : values.length ≤ ring.length
  cell : ∀ i value, values[i]? = some value → cell? ring (dropped + i + 1) = some value

namespace Window

lemma nil (ring : List α) (dropped : Nat) : Window ring dropped [] :=
  ⟨Nat.zero_le _, by simp⟩

lemma tail (window : Window ring dropped (first :: values)) :
    Window ring (dropped + 1) values := by
  refine ⟨Nat.le_of_succ_le window.length_le, fun i value located => ?_⟩
  have cell := window.cell (i + 1) value (by simpa using located)
  rwa [show dropped + (i + 1) + 1 = dropped + 1 + i + 1 by omega] at cell

lemma concat (window : Window ring dropped values) (value : α)
    (room : values.length < ring.length) :
    Window (write ring (dropped + values.length + 1) value) dropped (values ++ [value]) := by
  refine ⟨by simpa [Nat.add_one_le_iff] using room, fun i other located => ?_⟩
  rcases Nat.lt_trichotomy i values.length with before | last | behind
  · rw [List.getElem?_append_left before] at located
    rw [cell?_write _ _ _ (by omega),
      if_neg (place_ne (Nat.succ_pos _) (by omega) (by omega)).symm]
    exact window.cell i other located
  · subst last
    rw [List.getElem?_concat_length] at located
    rw [cell?_write _ _ _ (Nat.zero_lt_of_lt room), if_pos rfl, located]
  rw [List.getElem?_eq_none (by simpa [Nat.add_one_le_iff] using behind)] at located
  cases located

lemma turn (window : Window ring dropped (first :: values)) (value : α)
    (full : values.length + 1 = ring.length) :
    Window (write ring (dropped + ring.length + 1) value) (dropped + 1) (values ++ [value]) := by
  have written := window.tail.concat value (by omega)
  rwa [show dropped + 1 + values.length + 1 = dropped + ring.length + 1 by omega] at written

lemma write_before (window : Window ring (dropped + 1) values) (value : α)
    (room : values.length < ring.length) :
    Window (write ring (dropped + 1) value) (dropped + 1) values := by
  refine ⟨by simpa using window.length_le, fun i other located => ?_⟩
  have inside := (List.getElem?_eq_some_iff.mp located).1
  rw [cell?_write _ _ _ (by omega), if_neg (place_ne (Nat.succ_pos _) (by omega) (by omega))]
  exact window.cell i other located

end Window

end CMsgQueue.RingBuffer
