import CMsgQueue.Store.JsRestart

/-!
# Crashes while publishing

A crash lets only some of the file operations of a publish through, and possibly a part of one
write; then the store is made again from the directory.
-/

namespace CMsgQueue.Store

open FileOp Option Function List

/-- What happens to a store. -/
inductive JsCrashEvent where
  | publish (nowMs : Nat) (subject val : Bytes)
  /-- A crash during a publish, and a restart. -/
  | crash (nowMs : Nat) (subject val : Bytes) (done : Nat) (begun : Option Nat)
  | restart
  | setRotateBytes (cap : Nat)
  deriving DecidableEq

/-- A store with its directory, and for each stream the messages whose publish returned 1 and
that no finished compaction removed, with the offsets of their records. -/
structure JsLedger where
  system : JsSystem
  acked : Bytes → List (Nat × Bytes)

def msgsSize (files : FileMap JsPath) (name : Bytes) : Nat :=
  ((files.at? (jsPath name .msgs)).getD []).length

/-- The operations end with the rename that finishes a compaction. -/
def Compacts (name : Bytes) (executed : List (FileOp JsPath)) : Prop :=
  executed.getLast? = some (.rename (jsPath name .msgs).temp (jsPath name .msgs))

instance (name : Bytes) (executed : List (FileOp JsPath)) : Decidable (Compacts name executed) :=
  inferInstanceAs (Decidable (_ = _))

/-- The messages whose records lie behind the first `start` bytes. -/
def cutFront (start : Nat) (entries : List (Nat × Bytes)) : List (Nat × Bytes) :=
  (entries.filter fun entry => start ≤ entry.1).map fun entry => (entry.1 - start, entry.2)

namespace JsLedger

/-- What a publish, or the part of it that was carried out, does to the messages: one more if it
returned 1, and those go whose records a finished compaction cut off. -/
def note (ledger : JsLedger) (subject val : Bytes) (executed : List (FileOp JsPath))
    (files : FileMap JsPath) (success : Bool) : Bytes → List (Nat × Bytes) :=
  match cmqJsParse subject with
  | .ok name =>
    let size := msgsSize ledger.system.files name
    let entries :=
      if success then ledger.acked name ++ [(size, val)] else ledger.acked name
    update ledger.acked name
      (if Compacts name executed then
        cutFront (size + (16 + val.length) - msgsSize files name) entries
      else entries)
  | _ => ledger.acked

def step (ledger : JsLedger) : JsCrashEvent → JsLedger
  | .publish nowMs subject val =>
    let outcome := cmqJsPublish ledger.system.js ledger.system.files nowMs subject val
    let files := run ledger.system.files outcome.ops
    ⟨⟨outcome.js, files⟩, ledger.note subject val outcome.ops files (outcome.rc == 1)⟩
  | .crash nowMs subject val done begun =>
    let outcome := cmqJsPublish ledger.system.js ledger.system.files nowMs subject val
    let files := crash ledger.system.files outcome.ops done begun
    ⟨JsSystem.restart ⟨outcome.js, files⟩,
      ledger.note subject val (outcome.ops.take done) files false⟩
  | .restart => { ledger with system := ledger.system.restart }
  | .setRotateBytes cap =>
    { ledger with
      system := ⟨cmqJsSetMsgsRotateBytes ledger.system.js cap, ledger.system.files⟩ }

def start (defParts : Nat) : JsLedger := ⟨JsSystem.start defParts, fun _ => []⟩

def run (defParts : Nat) (events : List JsCrashEvent) : JsLedger :=
  events.foldl step (start defParts)

end JsLedger

/-- The messages that `js_replay_msgs` appends to a stream after a restart. -/
def JsSystem.replayed (s : JsSystem) (nowMs : Nat) (name : Bytes) : List Bytes :=
  match jsOpenStream s.restart.js.defParts s.files name with
  | none => []
  | some (stream, _) => (jsReplay nowMs stream (jsFileMsgs (s.files.at? (jsPath name .msgs)))).2

def JsLedger.Replays (ledger : JsLedger) : Prop :=
  ∀ nowMs name, ((ledger.acked name).map Prod.snd).Sublist (ledger.system.replayed nowMs name)

def WholeFile (file : Option Bytes) : Prop :=
  recordsFile (jsCodec.read (file.getD [])) = file.getD []

/-- No publish finds a record that was cut short, and no crash falls between the `unlink` and the
`rename` of a compaction. -/
def JsLedger.Sound (ledger : JsLedger) : JsCrashEvent → Prop
  | .publish _ subject _ =>
    ∀ name, cmqJsParse subject = .ok name →
      WholeFile (ledger.system.files.at? (jsPath name .msgs))
  | .crash nowMs subject val done _ =>
    ∀ name, cmqJsParse subject = .ok name →
      WholeFile (ledger.system.files.at? (jsPath name .msgs)) ∧
      ((cmqJsPublish ledger.system.js ledger.system.files nowMs subject val).ops.take
        done).getLast? ≠ some (.unlink (jsPath name .msgs))
  | _ => True

/-! ## The records of a file -/

/-- The file has these records, and possibly a piece of one behind them. -/
structure Stored (files : FileMap JsPath) (name : Bytes) (records : List Bytes) (tail : Bytes) :
    Prop where
  whole : Whole records
  torn : jsFileMsgs (some tail) = []
  file : (files.at? (jsPath name .msgs)).getD [] = recordsFile records ++ tail
  few : records.length < uint64Max

def placedVals : (off : Nat) → List Bytes → List (Nat × Bytes)
  | _, [] => []
  | off, record :: records => (off, jsPayload record) :: placedVals (off + record.length) records

lemma map_snd_placedVals (off : Nat) (records : List Bytes) :
    (placedVals off records).map Prod.snd = records.map jsPayload := by
  induction records generalizing off with
  | nil => rfl
  | cons _ records ih => rw [placedVals, map_cons, map_cons, ih]

lemma placedVals_append (off : Nat) (front back : List Bytes) :
    placedVals off (front ++ back) =
      placedVals off front ++ placedVals (off + (recordsFile front).length) back := by
  induction front generalizing off with
  | nil => rfl
  | cons record front ih =>
    have file : recordsFile (record :: front) = record ++ recordsFile front := rfl
    rw [cons_append, placedVals, ih, placedVals, cons_append, file, length_append, Nat.add_assoc]

lemma cutFront_behind (start off : Nat) (records : List Bytes) :
    cutFront start (placedVals (start + off) records) = placedVals off records := by
  induction records generalizing off with
  | nil => rfl
  | cons record records ih =>
    have rest := ih (off + record.length)
    rw [placedVals, placedVals, Nat.add_assoc]
    unfold cutFront at rest ⊢
    rw [filter_cons_of_pos (by simp), map_cons, rest, Nat.add_sub_cancel_left]

variable {records : List Bytes}

lemma cutFront_front (whole : Whole records)
    (inside : off + (recordsFile records).length ≤ start) :
    cutFront start (placedVals off records) = [] := by
  induction records generalizing off with
  | nil => rfl
  | cons record records ih =>
    have length := (accepts_iff.mp (whole record mem_cons_self)).2
    have file : recordsFile (record :: records) = record ++ recordsFile records := rfl
    rw [file, length_append] at inside
    have rest : cutFront start (placedVals (off + record.length) records) = [] :=
      ih (fun other member => whole other (mem_cons_of_mem _ member)) (by omega)
    rw [placedVals]
    unfold cutFront at rest ⊢
    rw [filter_cons_of_neg (by simp; omega), rest]

lemma cutFront_drop (whole : Whole records) (count : Nat) :
    cutFront ((recordsFile records).length - (recordsFile (records.drop count)).length)
        (placedVals 0 records) = placedVals 0 (records.drop count) := by
  have split := recordsFile_append (records.take count) (records.drop count)
  rw [take_append_drop] at split
  have cut : (recordsFile records).length - (recordsFile (records.drop count)).length =
      (recordsFile (records.take count)).length := by
    rw [split, length_append]
    omega
  have front := cutFront_front (fun record member => whole record (mem_of_mem_take member))
    (le_of_eq (Nat.zero_add (recordsFile (records.take count)).length))
  have behind := cutFront_behind (recordsFile (records.take count)).length 0 (records.drop count)
  have placed := placedVals_append 0 (records.take count) (records.drop count)
  rw [take_append_drop, Nat.zero_add] at placed
  rw [Nat.add_zero] at behind
  rw [cut, placed]
  unfold cutFront at front behind ⊢
  rw [filter_append, map_append, front, behind, nil_append]

lemma jsFileMsgs_getD (file : Option Bytes) :
    jsFileMsgs (some (file.getD [])) = jsFileMsgs file := by
  cases file <;> rfl

variable {ops : List (FileOp JsPath)}

namespace Stored

variable {files : FileMap JsPath} {name : Bytes} {records : List Bytes} {tail : Bytes}

section

variable (stored : Stored files name records tail)
include stored

lemma jsFileMsgs_eq : jsFileMsgs (files.at? (jsPath name .msgs)) = records.map jsPayload := by
  rw [← jsFileMsgs_getD, stored.file, jsFileMsgs_records stored.whole, stored.torn, append_nil]

lemma of_wholeFile (whole : WholeFile (files.at? (jsPath name .msgs))) : tail = [] := by
  unfold WholeFile at whole
  have nothing : jsCodec.read tail = [] := by
    have torn := stored.torn
    rwa [jsFileMsgs, map_eq_nil_iff] at torn
  rw [stored.file, Framing.Codec.read_encodeAll_append stored.whole, nothing, append_nil]
    at whole
  exact self_eq_append_right.mp whole

lemma of_msgs (same : other.at? (jsPath name .msgs) = files.at? (jsPath name .msgs)) :
    Stored other name records tail :=
  ⟨stored.whole, stored.torn, by rw [same, stored.file], stored.few⟩

end

lemma size_eq (stored : Stored files name records []) :
    msgsSize files name = (recordsFile records).length := by
  rw [msgsSize, stored.file, append_nil]

end Stored

/-! ## Crashes while a stream is opened -/

/-- Operations that leave a stream without consumers as it can be opened, wherever they are
cut. -/
structure Opening (files : FileMap JsPath) (name : Bytes) (nparts : Nat)
    (ops : List (FileOp JsPath)) : Prop where
  within : Within name ops
  opens : ∀ done begun, OpensFrom (crash files ops done begun) name nparts []
  msgs : ∀ op ∈ ops, ¬ op.touches (jsPath name .msgs)

lemma crash_replaceOps_at? (files : FileMap JsPath) (name : Bytes) (kind : JsKind)
    (bytes : Bytes) (done : Nat) (begun : Option Nat) (other : Bytes) (otherKind : JsKind) :
    (crash files (replaceOps (jsPath name kind) bytes) done begun).at?
        (jsPath other otherKind) =
      if (other = name ∧ otherKind = kind) ∧ 3 ≤ done then if done = 3 then none else some bytes
      else files.at? (jsPath other otherKind) := by
  rw [replaceOps, crash_replace_at? _ _ _ _ (by simp [JsPath.temp, jsPath])
    (by simp [JsPath.temp, jsPath])]
  simp [jsPath]

lemma crash_cursorOps_at? (files : FileMap JsPath) (name : Bytes) (stream : CmqStream)
    (done : Nat) (begun : Option Nat) (other : Bytes) (kind : JsKind) :
    (crash files (cursorOps name stream) done begun).at? (jsPath other kind) =
      if (other = name ∧ kind = .cursors) ∧ 3 ≤ done then some (cursorText stream)
      else files.at? (jsPath other kind) := by
  rw [cursorOps, crash_rename_at? _ _ _ _ (by simp [JsPath.temp, jsPath])]
  simp [jsPath]

namespace Opening

variable {files : FileMap JsPath} {name : Bytes} {nparts : Nat}

lemma nil (opens : OpensFrom files name nparts []) : Opening files name nparts [] := by
  refine ⟨.nil name, fun _ _ => ?_, by simp⟩
  rw [crash_of_length_le _ (Nat.zero_le _)]
  exact opens

lemma of_opens (opens : OpensFrom files name nparts []) {loaded : CmqStream}
    (either : loaded = openedStream nparts [] ∨ [] = ([] : List ConsumerEntry) ∧
      loaded = freshStream) :
    Opening files name nparts (OpensFrom.ops files name nparts loaded) := by
  have saved := cursorFile_loaded either
  refine ⟨OpensFrom.within_ops files name nparts loaded, fun done begun => ?_, ?_⟩
  · -- The rename of the cursors comes first, then the partitions.
    have cursors : ∀ done begun,
        OpensFrom (crash files (cursorOps name loaded) done begun) name nparts [] := by
      intro done begun
      have at? := crash_cursorOps_at? files name loaded done begun name
      refine { opens with cursors := ?_, parts := ?_ }
      · rw [at? .cursors]
        split
        · exact saved
        exact opens.cursors
      rw [at? .parts, if_neg (by simp)]
      exact opens.parts
    rw [OpensFrom.ops, crash_append]
    split
    · exact cursors done begun
    have written := cursors (cursorOps name loaded).length none
    rw [crash_of_length_le _ (le_refl _)] at written
    generalize run files (cursorOps name loaded) = middle at written
    split
    next missing =>
      have at? := crash_replaceOps_at? middle name .parts (jsPartsText nparts)
        (done - (cursorOps name loaded).length) begun name
      refine { written with cursors := ?_, parts := ?_ }
      · rw [at? .cursors, if_neg (by simp)]
        exact written.cursors
      rw [at? .parts]
      split
      · split
        · exact .inl rfl
        exact .inr ⟨missing.1, rfl⟩
      exact written.parts
    rw [crash_of_length_le _ (Nat.zero_le _)]
    exact written
  refine forall_mem_append.mpr ⟨?_, ?_⟩
  · simp [cursorOps, touches, jsPath, JsPath.temp]
  split <;> simp [replaceOps, touches, jsPath, JsPath.temp]

lemma crash_msgs (opening : Opening files name nparts ops) (done : Nat) (begun : Option Nat) :
    (crash files ops done begun).at? (jsPath name .msgs) =
      files.at? (jsPath name .msgs) :=
  crash_at?_of_untouched opening.msgs done begun

end Opening

/-! ## Crashes while a record is written -/

lemma crash_publishOps_at? (files : FileMap JsPath) (name : Bytes) (seq : Nat) (val : Bytes)
    (done : Nat) (begun : Option Nat) (other : kind ≠ .last) (notMsgs : kind ≠ .msgs) :
    (crash files (publishOps name seq val) done begun).at? (jsPath name kind) =
      files.at? (jsPath name kind) := by
  refine crash_at?_of_untouched (forall_mem_append.mpr ⟨?_, ?_⟩) done begun
  · simp [jsSaveLast, replaceOps, touches, jsPath, JsPath.temp, Ne.symm other]
  simp [touches, jsPath, Ne.symm notMsgs]

variable {name : Bytes} {files : FileMap JsPath}

/-- What a publish that was cut short leaves: the records, and possibly a piece of the new one or
all of it. -/
lemma crash_publishOps_stored (stored : Stored files name records []) (seq : Nat)
    (fits : JsVal val) (few : records.length + 1 < uint64Max) (done : Nat) (begun : Option Nat) :
    (∃ tail, Stored (crash files (publishOps name seq val) done begun) name records tail) ∧
        done < (publishOps name seq val).length ∨
      Stored (crash files (publishOps name seq val) done begun) name
        (records ++ [jsRecord seq val]) [] := by
  have length : (jsSaveLast name seq val).length = 4 := rfl
  have old := stored.file
  rw [append_nil] at old
  have written : ∀ (other : FileMap JsPath) (bytes : Bytes),
      other.at? (jsPath name .msgs) = some (recordsFile records ++ bytes) →
      bytes = jsRecord seq val →
      Stored other name (records ++ [jsRecord seq val]) [] := by
    rintro other bytes file rfl
    refine ⟨stored.whole.append (forall_mem_singleton.mpr (accepts_jsRecord seq fits)), rfl, ?_, ?_⟩
    · rw [file, getD_some, recordsFile_append, recordsFile_singleton, append_nil]
    rw [length_append]
    exact few
  have untouched : ∀ op ∈ jsSaveLast name seq val, ¬ op.touches (jsPath name .msgs) := by
    simp [jsSaveLast, replaceOps, touches, jsPath, JsPath.temp]
  have total : (publishOps name seq val).length = 5 := rfl
  rw [total]
  unfold publishOps
  rw [crash_append, length]
  split
  next =>
    refine .inl ⟨⟨[], stored.of_msgs ?_⟩, by omega⟩
    exact crash_at?_of_untouched untouched done begun
  have middle : (run files (jsSaveLast name seq val)).at? (jsPath name .msgs) =
      files.at? (jsPath name .msgs) := run_at?_of_untouched untouched
  generalize run files (jsSaveLast name seq val) = saved at middle
  have bytes : (saved.at? (jsPath name .msgs)).getD [] = recordsFile records := by rw [middle, old]
  by_cases all : 1 ≤ done - 4
  · refine .inr (written _ (jsRecord seq val) ?_ rfl)
    rw [crash_of_length_le _ all, run_cons, run_nil, apply, FileMap.write_at?_self, bytes]
  have zero : done - 4 = 0 := by omega
  rw [zero]
  cases begun with
  | none => exact .inl ⟨⟨[], stored.of_msgs middle⟩, by omega⟩
  | some count =>
    have torn : (crash saved [.append (jsPath name .msgs) (jsRecord seq val)] 0
        (some count)).at? (jsPath name .msgs) =
          some (recordsFile records ++ (jsRecord seq val).take count) := by
      rw [← bytes]
      exact FileMap.write_at?_self _ _ _
    by_cases cut : count < (jsRecord seq val).length
    · refine .inl ⟨⟨(jsRecord seq val).take count, stored.whole,
        jsFileMsgs_torn seq fits cut, ?_, stored.few⟩, by omega⟩
      rw [torn, getD_some]
    refine .inr (written _ _ torn (take_of_length_le (not_lt.mp cut)))

/-! ## Crashes while a file is compacted -/

lemma OpensFrom.of_files (opens : OpensFrom files name nparts consumers)
    (cursors : other.at? (jsPath name .cursors) = files.at? (jsPath name .cursors))
    (parts : other.at? (jsPath name .parts) = files.at? (jsPath name .parts)) :
    OpensFrom other name nparts consumers := by
  exact { opens with cursors := cursors ▸ opens.cursors, parts := parts ▸ opens.parts }

lemma crash_rotate_stored
    (stored : Stored files name records [])
    (file : files.at? (jsPath name .msgs) = some (recordsFile records)) (cap done : Nat)
    (begun : Option Nat)
    (apart : done < (jsMaybeRotateMsgs cap files name).length →
      ((jsMaybeRotateMsgs cap files name).take done).getLast? ≠
        some (.unlink (jsPath name .msgs))) :
    Stored (crash files (jsMaybeRotateMsgs cap files name) done begun) name records [] ∧
        ¬ Compacts name ((jsMaybeRotateMsgs cap files name).take done) ∨
      ∃ count, Stored (crash files (jsMaybeRotateMsgs cap files name) done begun) name
          (records.drop count) [] ∧
        Compacts name ((jsMaybeRotateMsgs cap files name).take done) := by
  rcases jsMaybeRotateMsgs_whole cap stored.whole file with nothing | ⟨count, -, replaces⟩
  · rw [nothing, crash_of_length_le _ (Nat.zero_le _)]
    refine .inl ⟨stored, ?_⟩
    simp [Compacts]
  rw [replaces] at apart ⊢
  have at? := crash_replaceOps_at? files name .msgs (recordsFile (records.drop count)) done begun
    name .msgs
  unfold Compacts
  match done with
  | 0 | 1 | 2 =>
    refine .inl ⟨stored.of_msgs ?_, by simp [replaceOps]⟩
    rw [at?, if_neg (by omega)]
  | 3 => exact absurd rfl (apart (Nat.lt_succ_self 3))
  | done + 4 =>
    refine .inr ⟨count, ⟨?_, rfl, ?_, ?_⟩, by simp [replaceOps]⟩
    · exact fun record member => stored.whole record (mem_of_mem_drop member)
    · rw [at?, if_pos ⟨⟨rfl, rfl⟩, by omega⟩, if_neg (by omega), getD_some, append_nil]
    rw [length_drop]
    exact lt_of_le_of_lt (Nat.sub_le _ _) stored.few

/-- A rotation does nothing, or replaces the file with the messages. -/
lemma jsMaybeRotateMsgs_cases (cap : Nat) (files : FileMap JsPath) (name : Bytes) :
    jsMaybeRotateMsgs cap files name = [] ∨
      ∃ bytes, jsMaybeRotateMsgs cap files name = replaceOps (jsPath name .msgs) bytes := by
  unfold jsMaybeRotateMsgs jsCompactMsgs
  dsimp only
  repeat' split
  all_goals first | exact .inl rfl | exact .inr ⟨_, rfl⟩

lemma crash_rotate_at? (cap done : Nat) (begun : Option Nat) (other : kind ≠ .msgs) :
    (crash files (jsMaybeRotateMsgs cap files name) done begun).at? (jsPath name kind) =
      files.at? (jsPath name kind) := by
  rcases jsMaybeRotateMsgs_cases cap files name with nothing | ⟨_, replaces⟩
  · rw [nothing, crash_of_length_le _ (Nat.zero_le _)]
    rfl
  rw [replaces, crash_replaceOps_at?, if_neg (by simp [other])]

/-! ## A publish that is cut anywhere -/

/-- What a publish, or the part of it that was carried out, leaves of a file; the index says
whether the new record came into the file. -/
inductive Cut (files : FileMap JsPath) (name : Bytes) (executed : List (FileOp JsPath))
    (records : List Bytes) (record : Bytes) : (written : Bool) → Prop where
  | before (tail : Bytes) (stored : Stored files name records tail)
      (plain : ¬ Compacts name executed) : Cut files name executed records record false
  | written (stored : Stored files name (records ++ [record]) [])
      (plain : ¬ Compacts name executed) : Cut files name executed records record true
  | compacted (count : Nat) (stored : Stored files name ((records ++ [record]).drop count) [])
      (finished : Compacts name executed) : Cut files name executed records record true

lemma Cut.congr {executed other : List (FileOp JsPath)} {record : Bytes} {written : Bool}
    (cut : Cut files name executed records record written)
    (same : Compacts name other ↔ Compacts name executed) :
    Cut files name other records record written := by
  cases cut with
  | before tail stored plain => exact .before tail stored fun last => plain (same.mp last)
  | written stored plain => exact .written stored fun last => plain (same.mp last)
  | compacted count stored finished => exact .compacted count stored (same.mpr finished)

/-- Operations that do not finish a compaction. -/
def Plain (name : Bytes) (ops : List (FileOp JsPath)) : Prop :=
  ∀ op ∈ ops, op ≠ .rename (jsPath name .msgs).temp (jsPath name .msgs)

lemma Plain.not_compacts (plain : Plain name ops) (done : Nat) :
    ¬ Compacts name (ops.take done) := fun last =>
  plain _ (mem_of_mem_take (mem_of_getLast? last)) rfl

lemma Plain.compacts_append
    (plain : Plain name front) : Compacts name (front ++ back) ↔ Compacts name back := by
  unfold Compacts
  rw [getLast?_append]
  cases last : back.getLast? with
  | some => rfl
  | none =>
    constructor
    · intro same
      exact absurd rfl (plain _ (mem_of_getLast? same))
    rintro ⟨⟩

lemma plain_publishOps (name : Bytes) (seq : Nat) (val : Bytes) :
    Plain name (publishOps name seq val) := by
  simp [Plain, publishOps, jsSaveLast, replaceOps, jsPath]

lemma getLast?_ne_of_append {front back : List (FileOp JsPath)} {op : FileOp JsPath}
    (apart : (front ++ back).getLast? ≠ some op) : back.getLast? ≠ some op := by
  intro last
  rw [getLast?_append, last] at apart
  exact apart rfl

section Taken

variable {files : FileMap JsPath} {name : Bytes} {nparts : Nat} {records : List Bytes}
  {val : Bytes}

def slotOps (files : FileMap JsPath) (cap : Nat) (name : Bytes) (seq : Nat) (val : Bytes) :
    List (FileOp JsPath) :=
  publishOps name seq val ++
    jsMaybeRotateMsgs cap (run files (publishOps name seq val)) name

lemma within_slotOps (files : FileMap JsPath) (cap : Nat) (name : Bytes) (seq : Nat)
    (val : Bytes) : Within name (slotOps files cap name seq val) := by
  refine (within_publishOps name seq val).append ?_
  rcases jsMaybeRotateMsgs_cases cap (run files (publishOps name seq val)) name with
    nothing | ⟨bytes, replaces⟩
  · rw [nothing]
    exact .nil name
  rw [replaces]
  exact within_replaceOps rfl bytes

lemma cut_slotOps (opens : OpensFrom files name nparts [])
    (stored : Stored files name records []) (seq : Nat) (fits : JsVal val)
    (few : records.length + 1 < uint64Max) (cap done : Nat) (begun : Option Nat)
    (apart : done < (slotOps files cap name seq val).length →
      ((slotOps files cap name seq val).take done).getLast? ≠
        some (.unlink (jsPath name .msgs))) :
    OpensFrom (crash files (slotOps files cap name seq val) done begun) name nparts [] ∧ ∃ written,
        Cut (crash files (slotOps files cap name seq val) done begun) name
          ((slotOps files cap name seq val).take done) records (jsRecord seq val) written ∧
        ((slotOps files cap name seq val).length ≤ done → written = true) := by
  have plain := plain_publishOps name seq val
  have opened : ∀ done begun,
      OpensFrom (crash files (publishOps name seq val) done begun) name nparts [] := by
    intro done begun
    exact opens.of_files (crash_publishOps_at? files name seq val done begun (by simp) (by simp))
      (crash_publishOps_at? files name seq val done begun (by simp) (by simp))
  unfold slotOps at apart ⊢
  rw [crash_append]
  split
  next early =>
    rw [take_append_of_le_length (le_of_lt early)]
    have short : ¬ (publishOps name seq val ++ jsMaybeRotateMsgs cap
        (run files (publishOps name seq val)) name).length ≤ done := by
      rw [length_append]
      omega
    refine ⟨opened done begun, ?_⟩
    rcases crash_publishOps_stored stored seq fits few done begun with ⟨⟨tail, kept⟩, -⟩ | whole
    · exact ⟨false, .before tail kept (plain.not_compacts done), fun all => absurd all short⟩
    exact ⟨true, .written whole (plain.not_compacts done), fun _ => rfl⟩
  next late =>
  have all := not_lt.mp late
  have written : Stored (run files (publishOps name seq val)) name
      (records ++ [jsRecord seq val]) [] := by
    have cut := crash_publishOps_stored stored seq fits few (publishOps name seq val).length none
    exact cut.resolve_left fun before => lt_irrefl _ before.2
  have opensWritten := opened (publishOps name seq val).length none
  have file : (run files (publishOps name seq val)).at? (jsPath name .msgs) =
      some (recordsFile (records ++ [jsRecord seq val])) := by
    have bytes := stored.file
    rw [append_nil] at bytes
    rw [run_publishOps_at? files name seq val .msgs, bytes, recordsFile_append,
      recordsFile_singleton]
  rw [length_append, take_append] at apart
  rw [take_append, take_of_length_le all]
  refine ⟨opensWritten.of_files (crash_rotate_at? cap _ begun (by simp))
    (crash_rotate_at? cap _ begun (by simp)), true, ?_, fun _ => rfl⟩
  rcases crash_rotate_stored written file cap (done - (publishOps name seq val).length) begun
    (fun short => getLast?_ne_of_append (apart (by omega))) with
    ⟨kept, unfinished⟩ | ⟨count, kept, finished⟩
  · exact (Cut.written kept unfinished).congr plain.compacts_append
  exact (Cut.compacted count kept finished).congr plain.compacts_append

lemma cut_taken (opening : Opening files name nparts created)
    (stored : Stored files name records []) (seq : Nat) (fits : JsVal val)
    (few : records.length + 1 < uint64Max) (cap done : Nat) (begun : Option Nat)
    (whole : ops = created ++ slotOps (run files created) cap name seq val)
    (apart : done < ops.length → (ops.take done).getLast? ≠ some (.unlink (jsPath name .msgs))) :
    OpensFrom (crash files ops done begun) name nparts [] ∧ ∃ written,
        Cut (crash files ops done begun) name (ops.take done) records (jsRecord seq val) written ∧
        (ops.length ≤ done → written = true) := by
  subst whole
  have plain : Plain name created := by
    rintro _ member rfl
    exact opening.msgs _ member (.inr rfl)
  rw [crash_append]
  split
  next early =>
    rw [take_append_of_le_length (le_of_lt early)]
    refine ⟨opening.opens done begun, false, .before [] ?_ (plain.not_compacts done), fun all => ?_⟩
    · exact stored.of_msgs (opening.crash_msgs done begun)
    rw [length_append] at all
    omega
  next late =>
  have all := not_lt.mp late
  have opens := opening.opens created.length none
  have same := opening.crash_msgs created.length none
  rw [crash_of_length_le _ (le_refl _)] at opens same
  rw [length_append, take_append] at apart
  rw [take_append, take_of_length_le all]
  obtain ⟨opensCut, written, cut, ends⟩ := cut_slotOps opens (stored.of_msgs same) seq fits few
    cap (done - created.length) begun fun _ => getLast?_ne_of_append (apart (by omega))
  refine ⟨opensCut, written, cut.congr plain.compacts_append, fun longer => ends ?_⟩
  rw [length_append] at longer
  omega

end Taken

lemma Cut.note_sublist {executed : List (FileOp JsPath)} {seq : Nat} {val : Bytes}
    {written success : Bool} (cut : Cut other name executed records (jsRecord seq val) written)
    (stored : Stored files name records []) (fits : JsVal val) {acked : List (Nat × Bytes)}
    (sub : acked.Sublist (placedVals 0 records)) (promised : success = true → written = true) :
    ∃ left tail, Stored other name left tail ∧ left.length ≤ records.length + 1 ∧
      (if Compacts name executed then
        cutFront (msgsSize files name + (16 + val.length) - msgsSize other name)
          (if success then acked ++ [(msgsSize files name, val)] else acked)
      else if success then acked ++ [(msgsSize files name, val)] else acked).Sublist
        (placedVals 0 left) := by
  have size := stored.size_eq
  have placed : placedVals 0 (records ++ [jsRecord seq val]) =
      placedVals 0 records ++ [((recordsFile records).length, val)] := by
    rw [placedVals_append, Nat.zero_add, placedVals, placedVals, jsPayload_jsRecord]
  have entries : (if success then acked ++ [(msgsSize files name, val)] else acked).Sublist
      (placedVals 0 (records ++ [jsRecord seq val])) := by
    rw [placed, size]
    split
    · exact sub.append (List.Sublist.refl _)
    exact sub.trans (sublist_append_left _ _)
  cases cut with
  | before tail left plain =>
    have failed : success = false := Bool.eq_false_iff.mpr fun is => nomatch promised is
    refine ⟨records, tail, left, Nat.le_succ _, ?_⟩
    rw [if_neg plain, failed]
    exact sub
  | written left plain =>
    refine ⟨_, [], left, by simp, ?_⟩
    rw [if_neg plain]
    exact entries
  | compacted count left finished =>
    have whole := stored.whole.append (forall_mem_singleton.mpr (accepts_jsRecord seq fits))
    have total : msgsSize files name + (16 + val.length) =
        (recordsFile (records ++ [jsRecord seq val])).length := by
      rw [size, recordsFile_append, recordsFile_singleton, length_append, length_jsRecord]
    refine ⟨_, [], left, by simp, ?_⟩
    rw [if_pos finished, total, left.size_eq, ← cutFront_drop whole count]
    exact (entries.filter _).map _

namespace JsLedger

/-! ## The invariant -/

/-- A slot without consumers whose stream has at least as many messages as the file. -/
def SlotHolds (slot : JsSlot) (nparts count : Nat) : Prop :=
  ∃ log, slot.st.Logs nparts log ∧ slot.st.consumers = [] ∧ count ≤ log.length

def FileHolds (s : JsSystem) (nparts : Nat) (name : Bytes) (acked : List (Nat × Bytes)) : Prop :=
  ∃ records tail, Stored s.files name records tail ∧ acked.Sublist (placedVals 0 records) ∧
    ∀ slot, s.js.findSlot name = some slot → SlotHolds slot nparts records.length

/-- What was promised is in the files, and every stream can be opened from its files. -/
structure Inv (ledger : JsLedger) (nparts : Nat) : Prop where
  positive : 1 ≤ nparts
  nparts_le : nparts ≤ cmqStreamMaxParts
  defParts_eq : ledger.system.js.defParts = nparts
  opens : ∀ name, nameOk name = true → OpensFrom ledger.system.files name nparts []
  named : ∀ name, nameOk name = false → ledger.acked name = []
  holds : ∀ name, FileHolds ledger.system nparts name (ledger.acked name)

variable {ledger : JsLedger} {nparts : Nat}

section Note

variable {name : Bytes} {files : FileMap JsPath}

lemma note_self (parsed : cmqJsParse subject = .ok name) :
    ledger.note subject val executed files success name =
      if Compacts name executed then
        cutFront (msgsSize ledger.system.files name + (16 + val.length) - msgsSize files name)
          (if success then ledger.acked name ++ [(msgsSize ledger.system.files name, val)]
          else ledger.acked name)
      else
        if success then ledger.acked name ++ [(msgsSize ledger.system.files name, val)]
        else ledger.acked name := by
  unfold note
  rw [parsed]
  exact update_self _ _ _

lemma note_other (parsed : cmqJsParse subject = .ok name) {other : Bytes}
    (differs : other ≠ name) :
    ledger.note subject val executed files success other = ledger.acked other := by
  unfold note
  rw [parsed]
  exact update_of_ne differs _ _

end Note

section

variable (inv : ledger.Inv nparts)
include inv

lemma Inv.cut (ok : nameOk name = true) {js : CmqJs} {acked : Bytes → List (Nat × Bytes)}
    (parts : js.defParts = ledger.system.js.defParts) (within : Within name ops)
    (others : ∀ other, other ≠ name → js.findSlot other = ledger.system.js.findSlot other)
    (ackedOthers : ∀ other, other ≠ name → acked other = ledger.acked other) (done : Nat)
    (begun : Option Nat)
    (opens : OpensFrom (crash ledger.system.files ops done begun) name nparts [])
    (holds : FileHolds ⟨js, crash ledger.system.files ops done begun⟩ nparts name (acked name)) :
    Inv ⟨⟨js, crash ledger.system.files ops done begun⟩, acked⟩ nparts := by
  have frame : ∀ other, other ≠ name → ∀ kind,
      (crash ledger.system.files ops done begun).at? (jsPath other kind) =
        ledger.system.files.at? (jsPath other kind) := by
    intro other differs kind
    refine crash_at?_of_untouched (fun op member touched => differs ?_) done begun
    exact within op member _ touched
  refine ⟨inv.positive, inv.nparts_le, parts.trans inv.defParts_eq, ?_, ?_, ?_⟩
  · intro other otherOk
    by_cases same : other = name
    · exact same ▸ opens
    exact (inv.opens other otherOk).of_files (frame other same .cursors)
      (frame other same .parts)
  · intro other notOk
    have differs : other ≠ name := by
      rintro rfl
      rw [ok] at notOk
      cases notOk
    exact (ackedOthers other differs).trans (inv.named other notOk)
  intro other
  by_cases same : other = name
  · subst same
    exact holds
  obtain ⟨records, tail, stored, sub, slots⟩ := inv.holds other
  refine ⟨records, tail, stored.of_msgs (frame other same .msgs), ?_, ?_⟩
  · dsimp only
    rw [ackedOthers other same]
    exact sub
  intro slot found
  rw [others other same] at found
  exact slots slot found

lemma Inv.getOrCreate (ok : nameOk name = true) (nowMs : Nat) {tail : Bytes}
    (stored : Stored ledger.system.files name records tail)
    (slots : ∀ slot, ledger.system.js.findSlot name = some slot →
      SlotHolds slot nparts records.length) :
    jsGetOrCreateSlot ledger.system.js ledger.system.files nowMs name = none ∨ ∃ js slot ops,
        jsGetOrCreateSlot ledger.system.js ledger.system.files nowMs name = some (js, slot, ops) ∧
        js.defParts = ledger.system.js.defParts ∧
        Opening ledger.system.files name nparts ops ∧ slot.name = name ∧
        js.findSlot name = some slot ∧
        (∀ other, other ≠ name → js.findSlot other = ledger.system.js.findSlot other) ∧
        SlotHolds slot nparts records.length := by
  have opens := inv.opens name ok
  cases found : ledger.system.js.findSlot name with
  | some slot =>
    refine .inr ⟨ledger.system.js, slot, [], ?_, rfl, .nil opens,
      CmqJs.name_of_findSlot found, found, fun _ _ => rfl, slots slot found⟩
    rw [jsGetOrCreateSlot, found]
  | none =>
    by_cases full : ledger.system.js.slots.length ≥ cmqJsMax
    · refine .inl ?_
      rw [jsGetOrCreateSlot, found]
      exact if_pos full
    obtain ⟨slot, _, either, created, named, stream⟩ :=
      opens.getOrCreate inv.defParts_eq found (not_le.mp full) nowMs
    subst named
    have made := CmqJs.findSlot_append found
    refine .inr ⟨_, slot, _, created, rfl, .of_opens opens either, rfl,
      (made slot.name).trans (if_pos rfl), fun other differs => (made other).trans (if_neg differs),
      ?_⟩
    have bound : ([] : List Bytes).length + (records.map jsPayload).length < uint64Max := by
      simpa using stored.few
    obtain ⟨-, consumers, replayed⟩ :=
      (openedStream_logs opens.positive opens.nparts_le []).replay nowMs
        stored.whole.jsVal bound (by simp [openedStream])
    rw [stored.jsFileMsgs_eq] at stream
    refine ⟨records.map jsPayload, ?_, ?_, ?_⟩
    · rw [stream]
      exact replayed
    · rw [stream, consumers.consumers]
      rfl
    rw [length_map]

/-! ## Publishing -/

/-- The ledger when the operations of a publish are cut short. -/
abbrev cutShort (ledger : JsLedger) (subject val : Bytes) (outcome : JsOutcome) (done : Nat)
    (begun : Option Nat) (success : Bool) : JsLedger :=
  let files := crash ledger.system.files outcome.ops done begun
  ⟨⟨outcome.js, files⟩, ledger.note subject val (outcome.ops.take done) files success⟩

lemma Inv.skip (subject val : Bytes) (rc : Int) (done : Nat) (begun : Option Nat) :
    (ledger.cutShort subject val (.skip ledger.system.js rc) done begun false).Inv nparts := by
  have same : ∀ files, ledger.note subject val [] files false = ledger.acked := by
    intro files
    unfold note
    split
    next => exact update_eq_self _ _
    rfl
  rw [cutShort, JsOutcome.skip, take_nil, same, crash_of_length_le _ (Nat.zero_le _)]
  exact inv

lemma Inv.publishMsg (nowMs : Nat) {subject : Bytes} (val : Bytes)
    (parsed : cmqJsParse subject = .ok name)
    (whole : WholeFile (ledger.system.files.at? (jsPath name .msgs)))
    (published : outcome = jsPublishMsg ledger.system.js ledger.system.files nowMs name val)
    (done : Nat) (begun : Option Nat)
    (apart : done < outcome.ops.length →
      (outcome.ops.take done).getLast? ≠ some (.unlink (jsPath name .msgs))) {success : Bool}
    (promised : success = true → outcome.ops.length ≤ done ∧ outcome.rc = 1) :
    (ledger.cutShort subject val outcome done begun success).Inv nparts := by
  have ok := nameOk_of_parse parsed
  have failed : outcome.rc ≠ 1 → success = false := fun other =>
    Bool.eq_false_iff.mpr fun is => other (promised is).2
  have skipped : ∀ rc, rc ≠ 1 → outcome = .skip ledger.system.js rc →
      (ledger.cutShort subject val outcome done begun success).Inv nparts := by
    rintro rc differs rfl
    rw [failed differs]
    exact inv.skip subject val rc done begun
  obtain ⟨records, tail, stored, sub, slots⟩ := inv.holds name
  obtain rfl := stored.of_wholeFile whole
  unfold jsPublishMsg at published
  split at published
  · exact skipped _ (by decide) published
  rcases inv.getOrCreate ok nowMs stored slots with
    none | ⟨js, slot, created, made, parts, opening, rfl, found, others, log, logs, consumers, count⟩
  · rw [none] at published
    exact skipped _ (by decide) published
  rw [made] at published
  dsimp only at published
  have setSlot : ∀ changed : JsSlot, changed.name = slot.name →
      (js.setSlot changed).findSlot slot.name = some changed ∧
        ∀ other, other ≠ slot.name →
          (js.setSlot changed).findSlot other = ledger.system.js.findSlot other := by
    intro changed same
    refine ⟨?_, fun other differs => ?_⟩
    · rw [CmqJs.findSlot_setSlot, if_pos same.symm, found]
      rfl
    rw [CmqJs.findSlot_setSlot, if_neg (same ▸ differs), others other differs]
  -- A publish that fails has only opened the stream.
  have unwritten : ∀ changed : JsSlot, changed.name = slot.name →
      SlotHolds changed nparts records.length →
      outcome = ⟨js.setSlot changed, created ++ [], -1, []⟩ →
      (ledger.cutShort subject val outcome done begun success).Inv nparts := by
    intro changed same holds outcomeEq
    rw [failed (by simp [outcomeEq]), outcomeEq, append_nil]
    have plain : Plain slot.name created := by
      rintro _ member rfl
      exact opening.msgs _ member (.inr rfl)
    have sameParts : (js.setSlot changed).defParts = ledger.system.js.defParts := parts
    refine inv.cut ok sameParts opening.within (setSlot changed same).2
      (fun other differs => note_other parsed differs) done begun (opening.opens done begun) ?_
    refine ⟨records, [], stored.of_msgs (opening.crash_msgs done begun), ?_, fun _ found =>
      Option.some.inj ((setSlot changed same).1.symm.trans found) ▸ holds⟩
    rw [note_self parsed, if_neg (plain.not_compacts done)]
    exact sub
  by_cases takes : Takes slot.st val
  · by_cases large : cmqJsValMax < val.length
    · obtain ⟨other, same, logs', large'⟩ := logs.publish_large
        (FileOp.run ledger.system.files created) js.rotateBytes nowMs takes large
      rw [large'] at published
      refine unwritten { slot with st := other } rfl
        ⟨_, logs', same.consumers.trans consumers, ?_⟩ published
      rw [length_append]
      omega
    obtain ⟨other, same, logs', taken⟩ := logs.publish_taken
      (FileOp.run ledger.system.files created) js.rotateBytes nowMs takes (not_lt.mp large)
    rw [taken] at published
    have fits : JsVal val := ⟨takes.nonempty, not_lt.mp large⟩
    have longer := logs'.log_lt
    rw [length_append, length_singleton] at longer
    have ops : outcome.ops = created ++
        slotOps (FileOp.run ledger.system.files created) js.rotateBytes slot.name
          (log.length + 1) val := by
      rw [published]
      rfl
    obtain ⟨opens, _, cut, ends⟩ := cut_taken opening stored (log.length + 1) fits
      (by omega) js.rotateBytes done begun ops apart
    obtain ⟨left, tail, kept, _, entries⟩ := cut.note_sublist stored fits sub
      fun success => ends (promised success).1
    have jsEq : outcome.js = js.setSlot
        { slot with st := other, last := some (log.length + 1, val) } := by
      rw [published]
    have within : Within slot.name outcome.ops := by
      rw [ops]
      exact opening.within.append (within_slotOps _ _ _ _ _)
    have slotEq := setSlot { slot with st := other, last := some (log.length + 1, val) } rfl
    refine inv.cut ok (by rw [jsEq]; exact parts) within (by rw [jsEq]; exact slotEq.2)
      (fun other differs => note_other parsed differs) done begun opens
      ⟨left, tail, kept, ?_, ?_⟩
    · rw [note_self parsed]
      exact entries
    intro changed changedFound
    rw [jsEq, slotEq.1] at changedFound
    rw [← some_inj.mp changedFound]
    refine ⟨_, logs', same.consumers.trans consumers, ?_⟩
    rw [length_append, length_singleton]
    omega
  rw [logs.publish_refused _ js.rotateBytes nowMs takes] at published
  exact unwritten slot rfl ⟨log, logs, consumers, count⟩ published

/-- An acknowledgement finds no consumer, but may open the stream. -/
lemma Inv.publishAck (nowMs : Nat) {cons : Bytes} (val : Bytes) (ok : nameOk name = true)
    (published : outcome = jsPublishAck ledger.system.js ledger.system.files nowMs name cons val)
    (done : Nat) (begun : Option Nat) :
    Inv ⟨⟨outcome.js, crash ledger.system.files outcome.ops done begun⟩, ledger.acked⟩
        nparts ∧ outcome.rc = -1 := by
  have skipped : outcome = .skip ledger.system.js (-1) →
      Inv ⟨⟨outcome.js, crash ledger.system.files outcome.ops done begun⟩, ledger.acked⟩
        nparts ∧ outcome.rc = -1 := by
    rintro rfl
    refine ⟨?_, rfl⟩
    rw [crash_of_length_le _ (Nat.zero_le _)]
    exact inv
  obtain ⟨records, tail, stored, sub, slots⟩ := inv.holds name
  unfold jsPublishAck at published
  split at published
  · exact skipped published
  have lookup : jsLookup ledger.system.js ledger.system.files nowMs name = none ∨
      jsLookup ledger.system.js ledger.system.files nowMs name =
        jsGetOrCreateSlot ledger.system.js ledger.system.files nowMs name := by
    unfold jsLookup
    cases found : ledger.system.js.findSlot name with
    | some slot =>
      rw [jsGetOrCreateSlot, found]
      exact .inr rfl
    | none =>
      dsimp only
      split
      · exact .inr rfl
      exact .inl rfl
  rcases lookup with absent | same
  · rw [absent] at published
    exact skipped published
  rw [same] at published
  rcases inv.getOrCreate ok nowMs stored slots with
    absent | ⟨js, slot, _, made, parts, opening, rfl, found, others, log, logs, consumers, count⟩
  · rw [absent] at published
    exact skipped published
  rw [made] at published
  have refused : streamConsumerAck slot.st cons (getBe val) = (slot.st, false) := by
    rw [streamConsumerAck, if_pos (.inr (by simp [CmqStream.consumer?, consumers]))]
  simp only [refused] at published
  rw [published]
  refine ⟨inv.cut ok parts opening.within others (fun _ _ => rfl) done begun
    (opening.opens done begun) ⟨records, tail, ?_, sub, ?_⟩, rfl⟩
  · exact stored.of_msgs (opening.crash_msgs done begun)
  intro _ otherFound
  exact Option.some.inj (found.symm.trans otherFound) ▸ ⟨log, logs, consumers, count⟩

lemma Inv.publish (nowMs : Nat) (subject val : Bytes)
    (whole : ∀ name, cmqJsParse subject = .ok name →
      WholeFile (ledger.system.files.at? (jsPath name .msgs)))
    (published : outcome = cmqJsPublish ledger.system.js ledger.system.files nowMs subject val)
    (done : Nat) (begun : Option Nat)
    (apart : ∀ name, cmqJsParse subject = .ok name → done < outcome.ops.length →
      (outcome.ops.take done).getLast? ≠ some (.unlink (jsPath name .msgs))) {success : Bool}
    (promised : success = true → outcome.ops.length ≤ done ∧ outcome.rc = 1) :
    (ledger.cutShort subject val outcome done begun success).Inv nparts := by
  have unnamed : (∀ name, cmqJsParse subject ≠ .ok name) → ∀ executed files,
      ledger.note subject val executed files success = ledger.acked := by
    intro other executed files
    unfold note
    split
    next name parsed => exact absurd parsed (other name)
    rfl
  have skipped : ∀ rc, (∀ name, cmqJsParse subject ≠ .ok name) →
      outcome = .skip ledger.system.js rc →
      (ledger.cutShort subject val outcome done begun success).Inv nparts := by
    rintro rc other rfl
    rw [cutShort, unnamed other, crash_of_length_le _ (Nat.zero_le _)]
    exact inv
  unfold cmqJsPublish at published
  split at published
  next parsed => exact skipped 0 (by simp [parsed]) published
  next name parsed =>
    exact inv.publishMsg nowMs val parsed (whole name parsed) published done begun
      (apart name parsed) promised
  next parsed =>
  split at published
  next name _ parsedCons =>
    rw [cutShort, unnamed (by simp [parsed])]
    exact (inv.publishAck nowMs val (nameOk_of_parseCons parsedCons).1 published done begun).1
  exact skipped (-1) (by simp [parsed]) published

lemma Inv.restart : Inv ⟨ledger.system.restart, ledger.acked⟩ nparts := by
  have parts := JsSystem.restart_defParts inv.positive inv.nparts_le inv.defParts_eq
  refine ⟨inv.positive, inv.nparts_le, parts, inv.opens, inv.named, fun name => ?_⟩
  obtain ⟨records, tail, stored, sub, -⟩ := inv.holds name
  refine ⟨records, tail, stored, sub, fun _ found => ?_⟩
  rw [CmqJs.findSlot, JsSystem.restart_slots] at found
  cases found

lemma Inv.step (sound : ledger.Sound event) : (ledger.step event).Inv nparts := by
  cases event with
  | publish nowMs subject val =>
    generalize published :
      cmqJsPublish ledger.system.js ledger.system.files nowMs subject val = outcome
    have all := inv.publish nowMs subject val sound published.symm outcome.ops.length none
      (fun _ _ short => absurd short (lt_irrefl _))
      (fun success => ⟨le_refl _, beq_iff_eq.mp success⟩)
    rw [cutShort, crash_of_length_le _ (le_refl _), take_length] at all
    simp only [JsLedger.step, published]
    exact all
  | crash nowMs subject val done begun =>
    have cut := inv.publish nowMs subject val (fun name parsed => (sound name parsed).1) rfl done
      begun (fun name parsed _ => (sound name parsed).2) (fun success : false = true => nomatch success)
    exact cut.restart
  | restart => exact inv.restart
  | setRotateBytes => exact { inv with }

end

lemma inv_start (defParts : Nat) : ∃ nparts, (start defParts).Inv nparts := by
  obtain ⟨nparts, inv⟩ := JsSystem.inv_start defParts
  refine ⟨nparts, inv.positive, inv.nparts_le, inv.defParts_eq, ?_, fun _ _ => rfl, ?_⟩
  · exact fun name ok => ⟨ok, inv.positive, inv.nparts_le, .none, .inl rfl⟩
  intro name
  refine ⟨[], [], ⟨by simp [Whole], rfl, rfl, by decide⟩, .slnil, fun _ found => ?_⟩
  have absent := JsSystem.start_findSlot defParts name
  cases found.symm.trans absent

lemma Inv.replays (inv : ledger.Inv nparts) : ledger.Replays := by
  intro nowMs name
  by_cases ok : nameOk name = true
  · obtain ⟨records, _, stored, sub, -⟩ := inv.holds name
    have opens := inv.opens name ok
    obtain ⟨_, -, opened⟩ := opens.jsOpenStream_eq
    have bound : ([] : List Bytes).length + (records.map jsPayload).length < uint64Max := by
      simpa using stored.few
    obtain ⟨all, -, -⟩ :=
      (openedStream_logs opens.positive opens.nparts_le []).replay nowMs stored.whole.jsVal bound
        (by simp [openedStream])
    have parts := inv.restart.defParts_eq
    unfold JsSystem.replayed
    rw [parts, opened]
    dsimp only
    rw [stored.jsFileMsgs_eq, all, ← map_snd_placedVals 0 records]
    exact sub.map _
  rw [inv.named name (Bool.not_eq_true _ ▸ ok)]
  exact nil_sublist _

/-- In every run whose publishes find whole files, and whose crashes leave out the gap in a
compaction, every restart replays every message whose publish returned 1, in order, unless a
finished compaction removed it. -/
theorem run_replays (defParts : Nat) (events : List JsCrashEvent)
    (sound : Runs.Meets step Sound (start defParts) events) : (run defParts events).Replays := by
  obtain ⟨nparts, inv⟩ := inv_start defParts
  have steps : ∀ (state : JsLedger) (event : JsCrashEvent), state.Inv nparts →
      state.Sound event → (state.step event).Inv nparts := fun _ _ inv sound => inv.step sound
  exact (Runs.Meets.invariant steps inv sound).replays

/-- The second publish is cut in the middle of its record; the first message is replayed. -/
theorem run_replays_torn :
    let events : List JsCrashEvent :=
      [.publish 5 (cstr "$JS.a") [1], .crash 6 (cstr "$JS.a") [2] 4 (some 7), .restart]
    (run 1 events).Replays ∧ (run 1 events).system.replayed 7 (cstr "a") = [[1]] := by
  have named : ∀ name, cmqJsParse (cstr "$JS.a") = .ok name → name = cstr "a" := by
    intro name parsed
    have subject : cmqJsParse (cstr "$JS.a") = .ok (cstr "a") := by decide +kernel
    exact (JsParse.ok.inj (subject.symm.trans parsed)).symm
  refine ⟨run_replays 1 _ ⟨?_, ?_, trivial, trivial⟩, by decide +kernel⟩
  · intro name parsed
    obtain rfl := named name parsed
    unfold WholeFile
    decide +kernel
  intro name parsed
  obtain rfl := named name parsed
  unfold WholeFile
  decide +kernel

/-- A crash leaves three bytes of a record.  The next publish appends its record behind them and
returns 1, and no restart reads it. -/
theorem torn_record_hides_later :
    ¬ (run 1 [.crash 5 (cstr "$JS.a") [1] 7 (some 3), .publish 6 (cstr "$JS.a") [2]]).Replays := by
  intro replays
  have hidden := replays 7 (cstr "a")
  revert hidden
  decide +kernel

end JsLedger

end CMsgQueue.Store
