import CMsgQueue.Lib.Bytes

/-!
# Regular files

A file is its bytes.  Offsets are non-negative values of a signed 64-bit type, so a file
that would grow past them cannot be written; every other call is taken to succeed.
-/

namespace CMsgQueue

open List

/-- The sizes a file can have are below this bound. -/
def fileLimit : Nat := 2 ^ 63

/-- The bytes of a regular file. -/
@[ext] structure File where
  bytes : Bytes
  fits : bytes.length < fileLimit
  deriving DecidableEq

namespace File

def empty : File := ⟨[], by decide⟩

@[simp] lemma empty_bytes : empty.bytes = [] := rfl

def size (file : File) : Nat := file.bytes.length

/-- A seek followed by a read of `count` bytes; `none` is a failed seek or a short read. -/
def readAt (file : File) (offset count : Nat) : Option Bytes :=
  if offset + count ≤ file.size then some ((file.bytes.drop offset).take count) else none

/-- A write to a file that is open for appending; `none` if it would get too large. -/
def append (file : File) (written : Bytes) : Option File :=
  if fits : (file.bytes ++ written).length < fileLimit then some ⟨file.bytes ++ written, fits⟩
  else none

/-- `ftruncate`, which also extends a file with zeros; it refuses lengths past the bound. -/
def truncate (file : File) (length : Nat) : File :=
  if fits : length < fileLimit then
    ⟨file.bytes.take length ++ List.replicate (length - file.size) 0, by
      simp only [size, length_append, length_take, length_replicate]
      omega⟩
  else file

variable {file : File} {bytes : Bytes} {offset count length : Nat}

lemma readAt_eq_some :
    file.readAt offset count = some bytes ↔
      offset + count ≤ file.size ∧ (file.bytes.drop offset).take count = bytes := by
  simp [readAt]

lemma length_of_readAt (read : file.readAt offset count = some bytes) : bytes.length = count := by
  obtain ⟨bound, rfl⟩ := readAt_eq_some.mp read
  rw [size] at bound
  rw [length_take, length_drop]
  omega

lemma readAt_of_eq (whole : file.bytes = before ++ (front ++ rest))
    (start : before.length = offset) (length : front.length = count) :
    file.readAt offset count = some front := by
  rw [readAt_eq_some, size, whole, ← start, ← length, drop_left]
  simp

lemma append_eq_some :
    file.append bytes = some written ↔ written.bytes = file.bytes ++ bytes := by
  unfold append
  constructor
  · intro wrote
    split at wrote
    · cases wrote
      rfl
    cases wrote
  intro same
  have fits : (file.bytes ++ bytes).length < fileLimit := same ▸ written.fits
  rw [dif_pos fits, Option.some.injEq, File.ext_iff, same]

lemma append_eq_none : file.append bytes = none ↔ fileLimit ≤ file.size + bytes.length := by
  simp [append, size]

lemma append_of_fits (fits : file.size + bytes.length < fileLimit) :
    ∃ written, file.append bytes = some written ∧ written.bytes = file.bytes ++ bytes := by
  cases wrote : file.append bytes with
  | none => exact absurd fits (not_lt.mpr (append_eq_none.mp wrote))
  | some written => exact ⟨written, rfl, append_eq_some.mp wrote⟩

lemma truncate_bytes (inside : length ≤ file.size) :
    (file.truncate length).bytes = file.bytes.take length := by
  have fits : length < fileLimit := lt_of_le_of_lt inside file.fits
  have nothing : length - file.size = 0 := Nat.sub_eq_zero_of_le inside
  simp [truncate, fits, nothing]

lemma size_truncate (inside : length ≤ file.size) : (file.truncate length).size = length := by
  rw [size, truncate_bytes inside, length_take]
  exact min_eq_left inside

lemma truncate_truncate (inside : first ≤ file.size)
    (less : second ≤ first) : (file.truncate first).truncate second = file.truncate second := by
  have bound : second ≤ (file.truncate first).size := by rwa [size_truncate inside]
  rw [File.ext_iff, truncate_bytes bound, truncate_bytes inside,
    truncate_bytes (le_trans less inside), take_take, min_eq_left less]

lemma readAt_truncate (inside : length ≤ file.size) (front : offset + count ≤ length) :
    (file.truncate length).readAt offset count = file.readAt offset count := by
  rw [readAt, readAt, size_truncate inside, if_pos front, if_pos (le_trans front inside),
    truncate_bytes inside, drop_take, take_take, min_eq_left (by omega)]

lemma truncate_size (file : File) : file.truncate file.size = file := by
  rw [File.ext_iff, truncate_bytes (le_refl _), size, take_length]

end File

end CMsgQueue
