import CMsgQueue.Lib.Bytes

/-!
# The files under a directory

The part of a file system that a store uses is a map from paths to the bytes of the regular
files there.  A call changes the files by a list of operations; a crash lets only some of them
through, and possibly only a part of the bytes of one write.
-/

namespace CMsgQueue

open Function List

universe u

/-- The files of a file system by their paths. -/
structure FileMap (κ : Type u) where
  /-- The bytes of the file at a path, if there is one. -/
  at? : κ → Option Bytes

namespace FileMap

variable {κ : Type u} [DecidableEq κ]

def empty : FileMap κ := ⟨fun _ => none⟩

def write (files : FileMap κ) (path : κ) (bytes : Bytes) : FileMap κ :=
  ⟨update files.at? path (some bytes)⟩

/-- `unlink`; nothing happens if there is no file. -/
def unlink (files : FileMap κ) (path : κ) : FileMap κ := ⟨update files.at? path none⟩

/-- `rename` of an existing file; it replaces the file at the new path. -/
def rename (files : FileMap κ) (source target : κ) : FileMap κ :=
  match files.at? source with
  | none => files
  | some bytes => (files.unlink source).write target bytes

omit [DecidableEq κ] in
@[simp] lemma empty_at? (path : κ) : (empty : FileMap κ).at? path = none := rfl

lemma write_at? (files : FileMap κ) (path other : κ) (bytes : Bytes) :
    (files.write path bytes).at? other = if other = path then some bytes else files.at? other :=
  update_apply ..

lemma unlink_at? (files : FileMap κ) (path other : κ) :
    (files.unlink path).at? other = if other = path then none else files.at? other :=
  update_apply ..

@[simp] lemma write_at?_self (files : FileMap κ) (path : κ) (bytes : Bytes) :
    (files.write path bytes).at? path = some bytes := by
  rw [write_at?, if_pos rfl]

lemma rename_write_at? (files : FileMap κ) (bytes : Bytes) (other : κ) :
    ((files.write temp bytes).rename temp target).at? other =
      if other = target then some bytes else if other = temp then none else files.at? other := by
  rw [rename, write_at?_self]
  rw [write_at?, unlink_at?, write_at?]
  split
  · rfl
  split <;> rfl

end FileMap

/-- What a call does to the files. -/
inductive FileOp (κ : Type u) where
  /-- An open for writing, which empties the file. -/
  | create (path : κ)
  /-- A write at the end of a file, which is created if there is none. -/
  | append (path : κ) (bytes : Bytes)
  | unlink (path : κ)
  | rename (source target : κ)
  deriving DecidableEq

namespace FileOp

variable {κ : Type u} [DecidableEq κ]

def apply (files : FileMap κ) : FileOp κ → FileMap κ
  | .create path => files.write path []
  | .append path bytes => files.write path ((files.at? path).getD [] ++ bytes)
  | .unlink path => files.unlink path
  | .rename source target => files.rename source target

def run (files : FileMap κ) (ops : List (FileOp κ)) : FileMap κ := ops.foldl apply files

def torn (count : Nat) : FileOp κ → List (FileOp κ)
  | .append path bytes => [.append path (bytes.take count)]
  | _ => []

/-- The files after a crash: `done` operations were carried out, and of the next one, if it is a
write that was begun, only some bytes. -/
def crash (files : FileMap κ) (ops : List (FileOp κ)) (done : Nat) (begun : Option Nat) :
    FileMap κ :=
  run (run files (ops.take done))
    (match begun, ops[done]? with
    | some count, some op => op.torn count
    | _, _ => [])

section

variable (files : FileMap κ)
include files

@[simp] lemma run_nil : run files [] = files := rfl

@[simp] lemma run_cons (op : FileOp κ) (ops : List (FileOp κ)) :
    run files (op :: ops) = run (op.apply files) ops := rfl

lemma run_append (front back : List (FileOp κ)) :
    run files (front ++ back) = run (run files front) back := foldl_append ..

lemma crash_append (front back : List (FileOp κ)) (done : Nat) (begun : Option Nat) :
    crash files (front ++ back) done begun =
      if done < front.length then crash files front done begun
      else crash (run files front) back (done - front.length) begun := by
  unfold crash
  by_cases inside : done < front.length
  · rw [if_pos inside, take_append_of_le_length (Nat.le_of_lt inside), getElem?_append_left inside]
  have le := Nat.not_lt.mp inside
  rw [if_neg inside, take_append, take_of_length_le le, run_append, getElem?_append_right le]

lemma run_rename_at? (temp target : κ) (bytes : Bytes) (other : κ) :
    (run files [.create temp, .append temp bytes, .rename temp target]).at? other =
      if other = target then some bytes else if other = temp then none else files.at? other := by
  simp only [run_cons, run_nil, apply, FileMap.write_at?_self]
  rw [FileMap.rename_write_at?, FileMap.write_at?]
  split
  · rfl
  split <;> rfl

lemma run_replace_at? (apart : temp ≠ target) (bytes : Bytes) (other : κ) :
    (run files [.create temp, .append temp bytes, .unlink target, .rename temp target]).at? other =
      if other = target then some bytes else if other = temp then none else files.at? other := by
  simp only [run_cons, run_nil, apply, FileMap.write_at?_self, Option.getD_some, nil_append]
  have kept : ((((files.write temp []).write temp bytes).unlink target).at? temp) = some bytes := by
    rw [FileMap.unlink_at?, if_neg apart, FileMap.write_at?_self]
  rw [FileMap.rename, kept]
  rw [FileMap.write_at?, FileMap.unlink_at?, FileMap.unlink_at?, FileMap.write_at?,
    FileMap.write_at?]
  split
  · rfl
  split <;> rfl

lemma crash_of_length_le (all : ops.length ≤ done)
    (begun : Option Nat) : crash files ops done begun = run files ops := by
  unfold crash
  rw [take_of_length_le all, getElem?_eq_none all]
  cases begun <;> rfl

lemma crash_rename_at? (bytes : Bytes) (done : Nat) (begun : Option Nat) (apart : other ≠ temp) :
    (crash files [.create temp, .append temp bytes, .rename temp target] done begun).at? other =
      if other = target ∧ 3 ≤ done then some bytes else files.at? other := by
  match done with
  | 0 => cases begun <;> simp [crash, torn]
  | 1 | 2 => cases begun <;> simp [crash, torn, apply, FileMap.write_at?, apart]
  | done + 3 =>
    rw [crash_of_length_le _ (by simp), run_rename_at?, if_neg apart]
    simp

lemma crash_replace_at? (bytes : Bytes) (done : Nat) (begun : Option Nat) (apart : other ≠ temp)
    (different : temp ≠ target) :
    (crash files [.create temp, .append temp bytes, .unlink target, .rename temp target] done
        begun).at? other =
      if other = target ∧ 3 ≤ done then if done = 3 then none else some bytes
      else files.at? other := by
  match done with
  | 0 => cases begun <;> simp [crash, torn]
  | 1 | 2 => cases begun <;> simp [crash, torn, apply, FileMap.write_at?, apart]
  | 3 => cases begun <;> simp [crash, torn, apply, FileMap.write_at?, FileMap.unlink_at?, apart]
  | done + 4 =>
    rw [crash_of_length_le _ (by simp), run_replace_at? _ different, if_neg apart]
    simp

end

def touches (path : κ) : FileOp κ → Prop
  | .create other => other = path
  | .append other _ => other = path
  | .unlink other => other = path
  | .rename source target => source = path ∨ target = path

lemma run_at?_of_untouched {files : FileMap κ} {ops : List (FileOp κ)} {path : κ}
    (untouched : ∀ op ∈ ops, ¬ op.touches path) : (run files ops).at? path = files.at? path := by
  induction ops generalizing files with
  | nil => rfl
  | cons op ops ih =>
    rw [forall_mem_cons] at untouched
    rw [run_cons, ih untouched.2]
    have own := untouched.1
    cases op with
    | create | append => exact (files.write_at? ..).trans (if_neg fun same => own same.symm)
    | unlink => exact (files.unlink_at? ..).trans (if_neg fun same => own same.symm)
    | rename =>
      simp only [touches, not_or] at own
      simp only [apply, FileMap.rename]
      split
      · rfl
      rw [FileMap.write_at?, if_neg (Ne.symm own.2), FileMap.unlink_at?, if_neg (Ne.symm own.1)]

lemma crash_at?_of_untouched {files : FileMap κ} {ops : List (FileOp κ)} {path : κ}
    (untouched : ∀ op ∈ ops, ¬ op.touches path) (done : Nat) (begun : Option Nat) :
    (crash files ops done begun).at? path = files.at? path := by
  have front : (run files (ops.take done)).at? path = files.at? path :=
    run_at?_of_untouched fun op member => untouched op (mem_of_mem_take member)
  unfold crash
  split
  next _ op begins =>
    have own := untouched op (mem_of_getElem? begins)
    rw [run_at?_of_untouched ?_, front]
    intro _ member
    cases op with
    | append =>
      rw [mem_singleton.mp member]
      exact own
    | create | unlink | rename => cases member
  exact front

end FileOp

end CMsgQueue
