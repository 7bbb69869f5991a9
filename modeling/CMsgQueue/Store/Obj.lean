import CMsgQueue.Lib.FileMap
import CMsgQueue.Lib.Runs
import CMsgQueue.Lib.Tokens

/-!
# The object store of `store/cmq_obj.c`

An object is a file of the store's directory with the object's name.  A put writes a temporary
file and renames it; the temporary file of the object `n` is `n.tmp`, and this is a name that
objects can have as well.
-/

namespace CMsgQueue.Store

open Function List

/-- `CMQ_OBJ_NAME_MAX`. -/
def cmqObjNameMax : Nat := 128

/-- `CMQ_OBJ_VAL_MAX`. -/
def cmqObjValMax : Nat := 65536

/-- The characters that `obj_name_safe` lets through. -/
def objNameChar (c : UInt8) : Bool :=
  (0x41 ≤ c && c ≤ 0x5A) || (0x61 ≤ c && c ≤ 0x7A) || (0x30 ≤ c && c ≤ 0x39) ||
    c == 0x5F || c == 0x2D || c == chDot

/-- `obj_name_safe`. -/
def objNameSafe (name : Bytes) : Bool :=
  !name.isEmpty && name != [chDot, chDot] && name != [chDot] &&
    decide (name.length ≤ cmqObjNameMax) && name.all objNameChar

/-- `obj_dir_safe`. -/
def objDirSafe (dir : Bytes) : Bool :=
  decide (0 < dir.length) && decide (dir.length < 512) &&
    dir.all (fun c => !(c == 0x5C || c < 0x20 || c == 0x7F)) &&
    (Tokens.tokens 0x2F dir).all fun part => part != [chDot] && part != [chDot, chDot]

/-- `struct cmq_obj`. -/
structure CmqObj where
  dir : Bytes
  deriving DecidableEq

/-- `cmq_obj_create`. -/
def cmqObjCreate (dir : Bytes) : Option CmqObj := if objDirSafe dir then some ⟨dir⟩ else none

/-- `obj_path` into a buffer of `size` bytes. -/
def objPath (obj : CmqObj) (name : Bytes) (size : Nat) (suffix : Bytes) : Option Bytes :=
  let path := obj.dir ++ [0x2F] ++ name ++ suffix
  if path.length ≥ size then none else some path

def objTmpSuffix : Bytes := cstr ".tmp"

/-- The outcomes of the file operations of a put. -/
inductive ObjIo where
  /-- `fopen` of the temporary file fails. -/
  | openFails
  /-- The temporary file is opened, but `fwrite`, `fflush` or `fsync` fails. -/
  | writeFails (written : Nat)
  /-- The temporary file is written, but `rename` fails. -/
  | renameFails
  | done
  deriving DecidableEq

/-- The file operations of `cmq_obj_put` and its return value. -/
def objReplace (files : FileMap Bytes) (path tmp data : Bytes) : ObjIo → FileMap Bytes × Int
  | .openFails => (files, -3)
  | .writeFails written => ((files.write tmp (data.take written)).unlink tmp, -3)
  | .renameFails => ((files.write tmp data).unlink tmp, -3)
  | .done => ((files.write tmp data).rename tmp path, 0)

/-- `cmq_obj_put`. -/
def cmqObjPut (obj : CmqObj) (files : FileMap Bytes) (name data : Bytes) (io : ObjIo) :
    FileMap Bytes × Int :=
  if !objNameSafe name then (files, -1)
  else if data.length > cmqObjValMax then (files, -2)
  else
    match objPath obj name 640 [], objPath obj name 648 objTmpSuffix with
    | some path, some tmp => objReplace files path tmp data io
    | _, _ => (files, -1)

/-- A `size_t` read as a `long`. -/
def toLong (size : Nat) : Int := if size < 2 ^ 63 then size else size - (2 ^ 64 : Nat)

/-- `cmq_obj_get`: the return value, and the bytes if it is 0. -/
def cmqObjGet (obj : CmqObj) (files : FileMap Bytes) (name : Bytes) (outSz : Nat) :
    Int × Option Bytes :=
  if !objNameSafe name then (-1, none)
  else
    match objPath obj name 640 [] with
    | none => (-1, none)
    | some path =>
      match files.at? path with
      | none => (-1, none)
      | some bytes =>
        if bytes.length ≤ cmqObjValMax ∧ bytes.length ≤ outSz then (0, some bytes)
        else if (bytes.length : Int) > toLong outSz then (-2, none)
        else (-3, none)

/-- `cmq_obj_del`. -/
def cmqObjDel (obj : CmqObj) (files : FileMap Bytes) (name : Bytes) : FileMap Bytes × Int :=
  if !objNameSafe name then (files, -1)
  else
    match objPath obj name 640 [] with
    | none => (files, -1)
    | some path => (files.unlink path, if (files.at? path).isSome then 0 else -1)

/-! ## The files of the accepted names -/

def ObjAccepted (obj : CmqObj) (name : Bytes) : Prop :=
  objNameSafe name = true ∧ obj.dir.length + 1 + name.length < 640

instance (obj : CmqObj) (name : Bytes) : Decidable (ObjAccepted obj name) :=
  inferInstanceAs (Decidable (_ ∧ _))

def CmqObj.path (obj : CmqObj) (name : Bytes) : Bytes := obj.dir ++ [0x2F] ++ name

lemma CmqObj.path_inj (obj : CmqObj) :
    obj.path first = obj.path second ↔ first = second := append_right_inj _

lemma CmqObj.length_path (obj : CmqObj) (name : Bytes) :
    (obj.path name).length = obj.dir.length + 1 + name.length := by
  simp only [path, length_append, length_singleton]

lemma objPath_plain :
    objPath obj name 640 [] =
      if obj.dir.length + 1 + name.length < 640 then some (obj.path name) else none := by
  unfold objPath
  rw [append_nil]
  change (if (obj.path name).length ≥ 640 then none else some (obj.path name)) = _
  rw [obj.length_path]
  by_cases fits : obj.dir.length + 1 + name.length < 640
  · rw [if_neg (not_le.mpr fits), if_pos fits]
  rw [if_pos (not_lt.mp fits), if_neg fits]

lemma objPath_tmp (fits : obj.dir.length + 1 + name.length < 640) :
    objPath obj name 648 objTmpSuffix = some (obj.path (name ++ objTmpSuffix)) := by
  have suffix : objTmpSuffix.length = 4 := by decide
  unfold objPath
  rw [append_assoc]
  change (if (obj.path (name ++ objTmpSuffix)).length ≥ 648 then none
    else some (obj.path (name ++ objTmpSuffix))) = _
  rw [obj.length_path, length_append, if_neg (by omega)]

variable {data : Bytes}

lemma cmqObjPut_accepted (accepted : ObjAccepted obj name) (small : data.length ≤ cmqObjValMax)
    (files : FileMap Bytes) (io : ObjIo) :
    cmqObjPut obj files name data io =
      objReplace files (obj.path name) (obj.path (name ++ objTmpSuffix)) data io := by
  unfold cmqObjPut
  rw [accepted.1, objPath_plain, if_pos accepted.2, objPath_tmp accepted.2]
  simp [not_lt.mpr small]

lemma cmqObjPut_refused (refused : ¬ (ObjAccepted obj name ∧ data.length ≤ cmqObjValMax))
    (files : FileMap Bytes) (io : ObjIo) :
    (cmqObjPut obj files name data io).1 = files ∧ (cmqObjPut obj files name data io).2 ≠ 0 := by
  unfold cmqObjPut
  by_cases safe : objNameSafe name = true
  · by_cases large : data.length > cmqObjValMax
    · simp [safe, large]
    have long : ¬ obj.dir.length + 1 + name.length < 640 := fun fits =>
      refused ⟨⟨safe, fits⟩, not_lt.mp large⟩
    rw [objPath_plain, if_neg long]
    simp [large]
  simp [safe]

lemma cmqObjDel_accepted (accepted : ObjAccepted obj name)
    (files : FileMap Bytes) : (cmqObjDel obj files name).1 = files.unlink (obj.path name) := by
  unfold cmqObjDel
  rw [accepted.1, objPath_plain, if_pos accepted.2]
  rfl

lemma cmqObjDel_refused (refused : ¬ ObjAccepted obj name)
    (files : FileMap Bytes) : (cmqObjDel obj files name).1 = files := by
  unfold cmqObjDel
  by_cases safe : objNameSafe name = true
  · have long : ¬ obj.dir.length + 1 + name.length < 640 := fun fits => refused ⟨safe, fits⟩
    rw [objPath_plain, if_neg long]
    simp [safe]
  simp [safe]

lemma cmqObjGet_eq (accepted : ObjAccepted obj name)
    (small : ∀ bytes, files.at? (obj.path name) = some bytes → bytes.length ≤ cmqObjValMax)
    (outSz : Nat) : cmqObjGet obj files name outSz = fetched outSz (files.at? (obj.path name)) := by
  unfold cmqObjGet
  rw [accepted.1, objPath_plain, if_pos accepted.2]
  cases stored : files.at? (obj.path name) with
  | none => simp [fetched, stored]
  | some bytes =>
    by_cases fits : bytes.length ≤ outSz
    · simp [fetched, stored, small, fits]
    have larger : (bytes.length : Int) > toLong outSz := by
      unfold toLong
      split <;> omega
    simp [fetched, stored, fits, larger]

/-! ## Runs -/

/-- A call that changes the store, with the outcomes of its file operations. -/
inductive ObjEvent where
  | put (name data : Bytes) (io : ObjIo)
  | del (name : Bytes)
  deriving DecidableEq

def ObjEvent.name : ObjEvent → Bytes
  | .put name _ _ => name
  | .del name => name

/-- The files of a store, and for each name the last put that succeeded and was not followed by
a delete. -/
structure ObjSystem where
  files : FileMap Bytes
  objects : Bytes → Option Bytes

namespace ObjSystem

def start : ObjSystem := ⟨FileMap.empty, fun _ => none⟩

def step (obj : CmqObj) (s : ObjSystem) : ObjEvent → ObjSystem
  | .put name data io =>
    let put := cmqObjPut obj s.files name data io
    ⟨put.1, if put.2 = 0 then update s.objects name (some data) else s.objects⟩
  | .del name => ⟨(cmqObjDel obj s.files name).1, update s.objects name none⟩

def run (obj : CmqObj) (s : ObjSystem) (events : List ObjEvent) : ObjSystem :=
  events.foldl (step obj) s

/-- A get answers with the last value put and not deleted, for every accepted name and every
size of the buffer. -/
def Exact (obj : CmqObj) (s : ObjSystem) : Prop :=
  ∀ name outSz, ObjAccepted obj name →
    cmqObjGet obj s.files name outSz = fetched outSz (s.objects name)

def Frame (obj : CmqObj) (s : ObjSystem) (event : ObjEvent) : Prop :=
  ∀ name outSz, ObjAccepted obj name → name ≠ event.name →
    cmqObjGet obj (s.step obj event).files name outSz = cmqObjGet obj s.files name outSz

/-- A put that gets as far as opening its temporary file finds no object there. -/
def TmpFree (obj : CmqObj) (s : ObjSystem) : ObjEvent → Prop
  | .put name data io =>
    ObjAccepted obj name → data.length ≤ cmqObjValMax → io ≠ .openFails →
      ObjAccepted obj (name ++ objTmpSuffix) →
        s.files.at? (obj.path (name ++ objTmpSuffix)) = none
  | .del _ => True

instance (obj : CmqObj) (s : ObjSystem) : (event : ObjEvent) → Decidable (TmpFree obj s event)
  | .put _ _ _ => by unfold TmpFree; infer_instance
  | .del _ => inferInstanceAs (Decidable True)

structure Stores (obj : CmqObj) (s : ObjSystem) : Prop where
  at?_eq : ∀ name, ObjAccepted obj name → s.files.at? (obj.path name) = s.objects name
  small : ∀ name bytes, s.objects name = some bytes → bytes.length ≤ cmqObjValMax

variable {obj : CmqObj} {s : ObjSystem}

lemma Stores.exact (stores : Stores obj s) : Exact obj s := by
  intro name _ accepted
  rw [cmqObjGet_eq accepted, stores.at?_eq name accepted]
  intro bytes stored
  exact stores.small name bytes (stores.at?_eq name accepted ▸ stored)

lemma stores_start : Stores obj start := ⟨fun _ _ => rfl, fun _ _ stored => by cases stored⟩

lemma objReplace_at? (files : FileMap Bytes) (name data other : Bytes) (io : ObjIo) :
    (objReplace files (obj.path name) (obj.path (name ++ objTmpSuffix)) data io).1.at?
        (obj.path other) =
      if io = .done ∧ other = name then some data
      else if io ≠ .openFails ∧ other = name ++ objTmpSuffix then none
      else files.at? (obj.path other) := by
  cases io with
  | openFails => simp [objReplace]
  | writeFails | renameFails =>
    simp only [objReplace, FileMap.unlink_at?, FileMap.write_at?, obj.path_inj]
    split <;> simp_all
  | done => simp [objReplace, FileMap.rename_write_at?, obj.path_inj]

lemma objReplace_eq_zero (files : FileMap Bytes) (path tmp data : Bytes) (io : ObjIo) :
    (objReplace files path tmp data io).2 = 0 ↔ io = .done := by
  cases io <;> simp [objReplace]

lemma at?_step_put (accepted : ObjAccepted obj name) (small : data.length ≤ cmqObjValMax)
    (io : ObjIo) (other : Bytes) :
    (s.step obj (.put name data io)).files.at? (obj.path other) =
      if io = .done ∧ other = name then some data
      else if io ≠ .openFails ∧ other = name ++ objTmpSuffix then none
      else s.files.at? (obj.path other) := by
  rw [← objReplace_at?, ← cmqObjPut_accepted accepted small]
  rfl

lemma objects_step_put (accepted : ObjAccepted obj name) (small : data.length ≤ cmqObjValMax)
    (io : ObjIo) (other : Bytes) :
    (s.step obj (.put name data io)).objects other =
      if io = .done ∧ other = name then some data else s.objects other := by
  simp only [step, cmqObjPut_accepted accepted small, objReplace_eq_zero]
  by_cases finished : io = .done
  · simp [finished, update_apply]
  simp [finished]

lemma ne_append_tmp (name : Bytes) : name ≠ name ++ objTmpSuffix := by
  have nonempty : objTmpSuffix ≠ [] := by decide
  intro same
  exact nonempty (self_eq_append_right.mp same)

variable {event : ObjEvent}

/-- Calls that meet the condition keep the objects in their files. -/
lemma Stores.step (stores : Stores obj s) (free : TmpFree obj s event) :
    Stores obj (s.step obj event) := by
  cases event with
  | put name data io =>
    by_cases carried : ObjAccepted obj name ∧ data.length ≤ cmqObjValMax
    · obtain ⟨accepted, fits⟩ := carried
      refine ⟨fun other acceptedOther => ?_, fun other bytes stored => ?_⟩
      · rw [at?_step_put accepted fits, objects_step_put accepted fits]
        by_cases isTmp : io ≠ .openFails ∧ other = name ++ objTmpSuffix
        · obtain ⟨opened, rfl⟩ := isTmp
          have missing := free accepted fits opened acceptedOther
          rw [stores.at?_eq _ acceptedOther] at missing
          simp [opened, missing]
        rw [if_neg isTmp, stores.at?_eq other acceptedOther]
      rw [objects_step_put accepted fits] at stored
      split at stored
      · cases stored
        exact fits
      exact stores.small other bytes stored
    obtain ⟨same, failed⟩ := cmqObjPut_refused carried s.files io
    simp only [ObjSystem.step, same, if_neg failed]
    exact stores
  | del name =>
    refine ⟨fun other acceptedOther => ?_, fun other bytes stored => ?_⟩
    · simp only [ObjSystem.step, update_apply]
      by_cases accepted : ObjAccepted obj name
      · simp only [cmqObjDel_accepted accepted, FileMap.unlink_at?, obj.path_inj,
          stores.at?_eq other acceptedOther]
      have differs : other ≠ name := fun same => accepted (same ▸ acceptedOther)
      rw [cmqObjDel_refused accepted, if_neg differs, stores.at?_eq other acceptedOther]
    simp only [ObjSystem.step, update_apply] at stored
    split at stored
    · cases stored
    exact stores.small other bytes stored

/-- A call that does not meet the condition removes the object that has the name of its temporary
file. -/
lemma Stores.tmpFree_of_exact (stores : Stores obj s) (exact : Exact obj (s.step obj event)) :
    TmpFree obj s event := by
  cases event with
  | del name => trivial
  | put name data io =>
    intro accepted fits opened acceptedTmp
    have differs := (ne_append_tmp name).symm
    have gone : (s.step obj (.put name data io)).files.at?
        (obj.path (name ++ objTmpSuffix)) = none := by
      rw [at?_step_put accepted fits]
      simp [opened, differs]
    have kept : (s.step obj (.put name data io)).objects (name ++ objTmpSuffix) =
        s.objects (name ++ objTmpSuffix) := by
      rw [objects_step_put accepted fits, if_neg fun both => differs both.2]
    have answers : ∀ outSz, fetched outSz none =
        fetched outSz (s.objects (name ++ objTmpSuffix)) := by
      intro outSz
      rw [← kept, ← exact _ outSz acceptedTmp, cmqObjGet_eq acceptedTmp, gone]
      intro _ stored
      rw [gone] at stored
      cases stored
    rw [stores.at?_eq _ acceptedTmp, ← fetched_inj answers]

lemma objects_step_of_ne (differs : name ≠ event.name) :
    (s.step obj event).objects name = s.objects name := by
  cases event with
  | put other =>
    simp only [step]
    split
    · exact update_of_ne differs _ _
    rfl
  | del other => exact update_of_ne differs _ _

/-- Along a run of puts and deletes every get is exact, and every call leaves the objects of other
names, if and only if every put that opens its temporary file finds no object of that name. -/
theorem gets_exact_iff (obj : CmqObj) (events : List ObjEvent) :
    ((∀ n, Exact obj (start.run obj (events.take n))) ∧
      ∀ n event, events[n]? = some event → Frame obj (start.run obj (events.take n)) event) ↔
      Runs.Meets (step obj) (TmpFree obj) start events := by
  have gives : ∀ s, Stores obj s → Exact obj s := fun _ => Stores.exact
  have needed : ∀ s event, Stores obj s → Exact obj (s.step obj event) → TmpFree obj s event :=
    fun _ _ stores => stores.tmpFree_of_exact
  have exact_iff : (∀ n, Exact obj (start.run obj (events.take n))) ↔
      Runs.Meets (step obj) (TmpFree obj) start events :=
    Runs.Meets.iff_property gives (fun _ _ stores free => stores.step free) needed stores_start
  rw [← exact_iff]
  refine ⟨And.left, fun exact => ⟨exact, fun n event located => ?_⟩⟩
  have next : start.run obj (events.take (n + 1)) =
      (start.run obj (events.take n)).step obj event := by
    rw [run, take_add_one, located, foldl_append]
    rfl
  intro name outSz accepted differs
  have after := exact (n + 1) name outSz accepted
  rw [next] at after
  rw [after, exact n name outSz accepted, objects_step_of_ne differs]

/-- A put of `a` removes the object `a.tmp`. -/
theorem put_removes_tmp :
    ∃ obj, cmqObjCreate (cstr "/srv/obj") = some obj ∧
      let one := start.run obj [.put (cstr "a.tmp") [1] .done]
      let two := one.step obj (.put (cstr "a") [2] .done)
      cmqObjGet obj one.files (cstr "a.tmp") 16 = (0, some [1]) ∧
        two.objects (cstr "a.tmp") = some [1] ∧
        cmqObjGet obj two.files (cstr "a.tmp") 16 = (-1, none) := by
  refine ⟨⟨cstr "/srv/obj"⟩, by decide +kernel, ?_⟩
  decide +kernel

end ObjSystem

end CMsgQueue.Store
