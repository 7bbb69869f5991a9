import CMsgQueue.Lib.FileMap
import CMsgQueue.Lib.Framing
import CMsgQueue.Store.Cursor

/-!
# Durable streams by subject

`store/cmq_js.c` with a directory for its files.  A publish on `$JS.name` appends to a stream and
to a file of records from which a later process replays the stream.  A call returns the operations
that it does on the files, in their order.  Allocations and calls to the system succeed, and each
call reads the clock once.
-/

namespace CMsgQueue.Store

open Text
open Server (isDigit strtoull)
open Framing (Verdict)

/-- `CMQ_JS_NAME_MAX`. -/
def cmqJsNameMax : Nat := 32
/-- `CMQ_JS_MAX`. -/
def cmqJsMax : Nat := 8
/-- `CMQ_JS_VAL_MAX`. -/
def cmqJsValMax : Nat := 65536
/-- `CMQ_JS_MSGS_KEEP`. -/
def cmqJsMsgsKeep : Nat := 1024

/-! ## Subjects -/

def nameChar (c : UInt8) : Bool :=
  (0x41 ≤ c && c ≤ 0x5A) || (0x61 ≤ c && c ≤ 0x7A) || (0x30 ≤ c && c ≤ 0x39) ||
    c == 0x5F || c == 0x2D

/-- `name_ok`. -/
def nameOk (name : Bytes) : Bool :=
  !(decide (name.length = 0) || decide (name.length ≥ cmqJsNameMax)) && name.all nameChar

/-- What a parser of subjects returns: 0 with the parts, -1 or -2. -/
inductive JsParse (α : Type) where
  | ok (value : α)
  | notJs
  | malformed
  deriving DecidableEq

/-- `cmq_js_parse`: the stream. -/
def cmqJsParse (subject : Bytes) : JsParse Bytes :=
  if subject.take 4 ≠ cstr "$JS." then .notJs
  else
    let rest := subject.drop 4
    if rest = [] ∨ chDot ∈ rest ∨ nameOk rest = false then .malformed else .ok rest

/-- `cmq_js_parse_cons`: the stream and the consumer. -/
def cmqJsParseCons (subject : Bytes) : JsParse (Bytes × Bytes) :=
  if subject.take 4 ≠ cstr "$JS." then .notJs
  else
    let rest := subject.drop 4
    let name := rest.takeWhile (· != chDot)
    let cons := rest.drop (name.length + 1)
    if rest = [] ∨ chDot ∉ rest ∨ cons = [] ∨ chDot ∈ cons ∨
        nameOk name = false ∨ nameOk cons = false then .malformed
    else .ok (name, cons)

/-- `cmq_js_parse_part`: the stream, the consumer and the partition. -/
def cmqJsParsePart (subject : Bytes) : JsParse (Bytes × Bytes × Nat) :=
  if subject.take 4 ≠ cstr "$JS." then .notJs
  else
    let rest := subject.drop 4
    if rest = [] then .malformed
    else if chDot ∉ rest then .notJs
    else
      let name := rest.takeWhile (· != chDot)
      let more := rest.drop (name.length + 1)
      let cons := more.takeWhile (· != chDot)
      let text := more.drop (cons.length + 1)
      if more = [] ∨ chDot ∉ more ∨ text = [] ∨ chDot ∈ text ∨
          nameOk name = false ∨ nameOk cons = false ∨ text.all isDigit = false then .malformed
      else
        let part := (strtoull text).1
        if part > 15 then .malformed else .ok (name, cons, part)

/-! ## Files -/

/-- The files of a stream. -/
inductive JsKind where
  | cursors
  | last
  | msgs
  | parts
  deriving DecidableEq

def JsKind.ending : JsKind → Bytes
  | .cursors => cstr ".cursors"
  | .last => cstr ".last"
  | .msgs => cstr ".msgs"
  | .parts => cstr ".parts"

/-- A path in the directory; with `tmp`, that of the file that is to replace it. -/
structure JsPath where
  stream : Bytes
  kind : JsKind
  tmp : Bool
  deriving DecidableEq

namespace JsPath

def text (dir : Bytes) (path : JsPath) : Bytes :=
  dir ++ cstr "/" ++ path.stream ++ path.kind.ending ++ if path.tmp then cstr ".tmp" else []

/-- The path with `.tmp` behind it. -/
def temp (path : JsPath) : JsPath := { path with tmp := true }

end JsPath

def jsPath (name : Bytes) (kind : JsKind) : JsPath := ⟨name, kind, false⟩

/-- A file is written aside, the old one is removed, and the new one takes its place. -/
def replaceOps (path : JsPath) (bytes : Bytes) : List (FileOp JsPath) :=
  [.create path.temp, .append path.temp bytes, .unlink path, .rename path.temp path]

/-- `cursor_save_locked`: here the rename replaces the old file. -/
def cursorOps (name : Bytes) (stream : CmqStream) : List (FileOp JsPath) :=
  let path := jsPath name .cursors
  [.create path.temp, .append path.temp (cursorText stream), .rename path.temp path]

def jsHeader (magic : Bytes) (seq len : Nat) : Bytes := magic ++ putBe 8 seq ++ putBe 4 len

def jsHeaderLen (header : Bytes) : Nat := getBe ((header.drop 12).take 4)

/-! ## The store -/

/-- `cmq_js_slot_t`; there is a last value unless `last_len` is 0. -/
structure JsSlot where
  name : Bytes
  st : CmqStream
  last : Option (Nat × Bytes)
  deriving DecidableEq

/-- `struct cmq_js`, apart from its directory. -/
structure CmqJs where
  slots : List JsSlot
  defParts : Nat
  rotateBytes : Nat
  deriving DecidableEq

namespace CmqJs

/-- `js_find_slot`. -/
def findSlot (js : CmqJs) (name : Bytes) : Option JsSlot :=
  js.slots.find? fun slot => slot.name == name

def setSlot (js : CmqJs) (slot : JsSlot) : CmqJs :=
  { js with slots := js.slots.map fun old => if old.name = slot.name then slot else old }

end CmqJs

/-- `cmq_js_create`. -/
def cmqJsCreate : CmqJs := ⟨[], 1, 0⟩

/-- `cmq_js_set_default_partitions`. -/
def cmqJsSetDefaultPartitions (js : CmqJs) (n : Nat) : CmqJs :=
  if n < 1 ∨ n > cmqStreamMaxParts then js else { js with defParts := n }

/-- `cmq_js_set_msgs_rotate_bytes`. -/
def cmqJsSetMsgsRotateBytes (js : CmqJs) (cap : Nat) : CmqJs := { js with rotateBytes := cap }

/-- `js_slot_set_last`; `none` is the return value -1. -/
def jsSlotSetLast (slot : JsSlot) (seq : Nat) (val : Bytes) : Option JsSlot :=
  if val.length = 0 ∨ val.length > cmqJsValMax then none
  else some { slot with last := some (seq, val) }

/-- `js_save_last` of a slot with a last value. -/
def jsSaveLast (name : Bytes) (seq : Nat) (val : Bytes) : List (FileOp JsPath) :=
  replaceOps (jsPath name .last) (jsHeader (cstr "CMQL") seq val.length ++ val)

/-- `js_load_last` into a slot without a last value. -/
def jsLoadLast : Option Bytes → Option (Nat × Bytes)
  | none => none
  | some file =>
    let seq := getBe ((file.drop 4).take 8)
    let len := jsHeaderLen file
    if file.length < 16 ∨ file.take 4 ≠ cstr "CMQL" ∨ seq = 0 ∨ len = 0 ∨ len > cmqJsValMax ∨
        file.length < 16 + len then none
    else some (seq, (file.drop 16).take len)

/-- `js_stream_append`. -/
def jsStreamAppend (stream : CmqStream) (nowMs : Nat) (val : Bytes) : CmqStream × Nat :=
  if stream.nparts > 1 then cmqStreamAppendKey stream nowMs val val
  else cmqStreamAppend stream nowMs val

/-! ### Records -/

def jsRecord (seq : Nat) (val : Bytes) : Bytes := jsHeader (cstr "CMQM") seq val.length ++ val

def jsPayload (record : Bytes) : Bytes := record.drop 16

def jsHeaderOk (header : Bytes) : Bool :=
  header.take 4 == cstr "CMQM" && decide (0 < jsHeaderLen header) &&
    decide (jsHeaderLen header ≤ cmqJsValMax)

/-- What `js_replay_msgs` finds next in the file. -/
def jsPeel (file : Bytes) : Verdict Bytes :=
  if file.length < 16 then .more
  else if jsHeaderOk file = false then .bad
  else if file.length < 16 + jsHeaderLen file then .more
  else .item (file.take (16 + jsHeaderLen file)) (16 + jsHeaderLen file)

lemma jsHeaderLen_append (long : 16 ≤ front.length) (tail : Bytes) :
    jsHeaderLen (front ++ tail) = jsHeaderLen front := by
  have inside : 4 ≤ (front.drop 12).length := by
    rw [List.length_drop]
    omega
  rw [jsHeaderLen, jsHeaderLen, List.drop_append_of_le_length (by omega),
    List.take_append_of_le_length inside]

lemma jsHeaderOk_append (long : 16 ≤ front.length) (tail : Bytes) :
    jsHeaderOk (front ++ tail) = jsHeaderOk front := by
  rw [jsHeaderOk, jsHeaderOk, jsHeaderLen_append long, List.take_append_of_le_length (by omega)]

lemma jsPeel_eq_item :
    jsPeel file = .item frame size ↔
      jsHeaderOk file = true ∧ size = 16 + jsHeaderLen file ∧ size ≤ file.length ∧
        frame = file.take size := by
  unfold jsPeel
  by_cases short : file.length < 16
  · simp only [if_pos short, reduceCtorEq, false_iff]
    rintro ⟨-, rfl, long, -⟩
    omega
  by_cases ok : jsHeaderOk file = true
  · by_cases cut : file.length < 16 + jsHeaderLen file
    · simp only [if_neg short, ok, if_false, if_pos cut, reduceCtorEq, false_iff]
      rintro ⟨-, rfl, long, -⟩
      omega
    simp only [if_neg short, ok, Bool.true_eq_false, if_false, if_neg cut, Verdict.item.injEq,
      true_and]
    constructor
    · rintro ⟨rfl, rfl⟩
      exact ⟨rfl, not_lt.mp cut, rfl⟩
    rintro ⟨rfl, -, rfl⟩
    exact ⟨rfl, rfl⟩
  simp [if_neg short, ok]

lemma jsPeel_eq_bad : jsPeel file = .bad ↔ 16 ≤ file.length ∧ jsHeaderOk file = false := by
  unfold jsPeel
  split
  next short => simp [not_le.mpr short]
  next long =>
  split
  next bad => simp [bad, not_lt.mp long]
  next ok =>
    have good := Bool.not_eq_false _ ▸ ok
    split <;> simp [good]

def jsCodec : Framing.Codec UInt8 Bytes where
  peel := jsPeel
  encode := id
  item_pos verdict := by
    obtain ⟨-, rfl, -, -⟩ := jsPeel_eq_item.mp verdict
    omega
  item_le verdict := (jsPeel_eq_item.mp verdict).2.2.1
  item_local := by
    intro buffer frame size verdict tail
    obtain ⟨ok, rfl, le, rfl⟩ := jsPeel_eq_item.mp verdict
    have length : (buffer.take (16 + jsHeaderLen buffer)).length = 16 + jsHeaderLen buffer := by
      rw [List.length_take, min_eq_left le]
    have long : 16 ≤ (buffer.take (16 + jsHeaderLen buffer)).length := by omega
    have whole := List.take_append_drop (16 + jsHeaderLen buffer) buffer
    have sameOk : jsHeaderOk (buffer.take (16 + jsHeaderLen buffer)) = jsHeaderOk buffer := by
      rw [← jsHeaderOk_append long, whole]
    have sameLen : jsHeaderLen (buffer.take (16 + jsHeaderLen buffer)) = jsHeaderLen buffer := by
      rw [← jsHeaderLen_append long, whole]
    refine jsPeel_eq_item.mpr ⟨?_, ?_, ?_, ?_⟩
    · rw [jsHeaderOk_append long, sameOk, ok]
    · rw [jsHeaderLen_append long, sameLen]
    · rw [List.length_append, length]
      omega
    exact (List.take_left' length).symm
  encode_item verdict := (jsPeel_eq_item.mp verdict).2.2.2
  bad_append := by
    intro buffer verdict tail
    obtain ⟨long, bad⟩ := jsPeel_eq_bad.mp verdict
    refine jsPeel_eq_bad.mpr ⟨?_, ?_⟩
    · rw [List.length_append]
      omega
    rw [jsHeaderOk_append long, bad]

/-- The messages that `js_replay_msgs` reads from its file, if there is one. -/
def jsFileMsgs : Option Bytes → List Bytes
  | none => []
  | some file => (jsCodec.read file).map jsPayload

/-- `js_append_msg`; `none` is the return value -1. -/
def jsAppendMsg (name : Bytes) (seq : Nat) (val : Bytes) : Option (List (FileOp JsPath)) :=
  if val.length = 0 ∨ val.length > cmqJsValMax ∨ seq = 0 then none
  else some [.append (jsPath name .msgs) (jsRecord seq val)]

/-- The messages that the loop of `js_replay_msgs` reads and appends, up to one that the stream
refuses: the stream, and those that were appended. -/
def jsReplay (nowMs : Nat) : CmqStream → List Bytes → CmqStream × List Bytes
  | stream, [] => (stream, [])
  | stream, val :: vals =>
    let appended := jsStreamAppend stream nowMs val
    if appended.2 = 0 then (appended.1, [])
    else
      let rest := jsReplay nowMs appended.1 vals
      (rest.1, val :: rest.2)

/-! ### Compaction -/

/-- The loop of `js_compact_msgs` over the headers: the offsets and lengths of the records.
A payload is passed over and may end behind the file; `none` is the return value -1. -/
def scanMsgs : (fuel off : Nat) → Bytes → Option (List (Nat × Nat))
  | 0, _, _ => some []
  | fuel + 1, off, rest =>
    if rest = [] then some []
    else if rest.length < 16 ∨ jsHeaderOk rest = false then none
    else
      let size := 16 + jsHeaderLen rest
      (scanMsgs fuel (off + size) (rest.drop size)).map ((off, size) :: ·)

/-- The records that fit under the cap behind newer ones of `bytes` bytes, the newest first. -/
def fitting (cap : Nat) : (bytes : Nat) → List (Nat × Nat) → List (Nat × Nat)
  | _, [] => []
  | bytes, record :: records =>
    if bytes + record.2 > cap then []
    else record :: fitting cap (bytes + record.2) records

/-- Where the tail starts that `js_compact_msgs` keeps: the newest record, and those before it
that fit. -/
def tailStart (cap : Nat) (records : List (Nat × Nat)) : Nat :=
  match records.reverse.take cmqJsMsgsKeep with
  | [] => 0
  | newest :: older => ((newest :: fitting cap newest.2 older).getLast (List.cons_ne_nil _ _)).1

/-- `js_compact_msgs`. -/
def jsCompactMsgs (cap : Nat) (files : FileMap JsPath) (name : Bytes) : List (FileOp JsPath) :=
  if cap = 0 then []
  else
    match files.at? (jsPath name .msgs) with
    | none => []
    | some file =>
      match scanMsgs file.length 0 file with
      | none => []
      | some records =>
        let start := tailStart cap records
        if start = 0 then [] else replaceOps (jsPath name .msgs) (file.drop start)

/-- `js_maybe_rotate_msgs`. -/
def jsMaybeRotateMsgs (cap : Nat) (files : FileMap JsPath) (name : Bytes) :
    List (FileOp JsPath) :=
  if cap = 0 then []
  else
    match files.at? (jsPath name .msgs) with
    | none => []
    | some file => if file.length < cap then [] else jsCompactMsgs cap files name

/-! ### Slots -/

def jsPartsText (n : Nat) : Bytes := cstr "CMQP\n" ++ (decimal n ++ [newline])

/-- `js_parts_file_n`; 0 if there is no number. -/
def jsPartsFileN : Option Bytes → Nat
  | none => 0
  | some text =>
    if text.take 4 ≠ cstr "CMQP" then 0
    else
      match scanNumber (text.drop 4) with
      | none => 0
      | some (number, _) =>
        let n := number % 2 ^ 32
        if n < 1 ∨ n > cmqStreamMaxParts then 0 else n

/-- `js_save_parts`. -/
def jsSaveParts (name : Bytes) (stream : CmqStream) : List (FileOp JsPath) :=
  replaceOps (jsPath name .parts) (jsPartsText stream.nparts)

/-- The partitions of a new stream: those of the file, or else the default ones. -/
def jsOpenParts (defParts : Nat) (files : FileMap JsPath) (name : Bytes) (stream : CmqStream) :
    CmqStream × List (FileOp JsPath) :=
  let n := jsPartsFileN (files.at? (jsPath name .parts))
  let loaded := if n = 0 then (stream, false) else cmqStreamSetPartitions stream n
  if loaded.2 = false ∧ defParts > 1 then
    let set := cmqStreamSetPartitions loaded.1 defParts
    (set.1, if set.2 then jsSaveParts name set.1 else [])
  else (loaded.1, [])

/-- The stream of a new slot before its messages are replayed; `none` if the slot is not
made. -/
def jsOpenStream (defParts : Nat) (files : FileMap JsPath) (name : Bytes) :
    Option (CmqStream × List (FileOp JsPath)) := do
  let stream ← cmqStreamCreate name 1024 0
  if cursorTokenSafe name = false then none
  else
    let stream ← cursorLoad stream (files.at? (jsPath name .cursors))
    let opened := jsOpenParts defParts files name stream
    return (opened.1, cursorOps name stream ++ opened.2)

/-- `js_get_or_create_slot`: the store with the slot, the slot, and the operations. -/
def jsGetOrCreateSlot (js : CmqJs) (files : FileMap JsPath) (nowMs : Nat) (name : Bytes) :
    Option (CmqJs × JsSlot × List (FileOp JsPath)) :=
  match js.findSlot name with
  | some slot => some (js, slot, [])
  | none =>
    if js.slots.length ≥ cmqJsMax then none
    else
      match jsOpenStream js.defParts files name with
      | none => none
      | some (stream, ops) =>
        let stream :=
          if stream.store.lastSeq = 0 then
            (jsReplay nowMs stream (jsFileMsgs (files.at? (jsPath name .msgs)))).1
          else stream
        let slot : JsSlot := ⟨name, stream, jsLoadLast (files.at? (jsPath name .last))⟩
        some ({ js with slots := js.slots ++ [slot] }, slot, ops)

/-- The slot of a stream that is known, or that has a file of messages or of partitions. -/
def jsLookup (js : CmqJs) (files : FileMap JsPath) (nowMs : Nat) (name : Bytes) :
    Option (CmqJs × JsSlot × List (FileOp JsPath)) :=
  match js.findSlot name with
  | some slot => some (js, slot, [])
  | none =>
    if (files.at? (jsPath name .msgs)).isSome ∨ (files.at? (jsPath name .parts)).isSome then
      jsGetOrCreateSlot js files nowMs name
    else none

/-! ## Calls -/

/-- What a call does: the store, the operations on the files, the return value and the bytes
that it hands out. -/
structure JsOutcome where
  js : CmqJs
  ops : List (FileOp JsPath)
  rc : Int
  out : Bytes
  deriving DecidableEq

def JsOutcome.skip (js : CmqJs) (rc : Int) : JsOutcome := ⟨js, [], rc, []⟩

/-- The part of `cmq_js_publish` behind the lookup of the slot: the slot, the operations and the
return value. -/
def jsPublishSlot (rotateBytes nowMs : Nat) (files : FileMap JsPath) (slot : JsSlot)
    (val : Bytes) : JsSlot × List (FileOp JsPath) × Int :=
  let appended := jsStreamAppend slot.st nowMs val
  let slot := { slot with st := appended.1 }
  let seq := slot.st.store.lastSeq
  if appended.2 = 0 then (slot, [], -1)
  else
    match jsSlotSetLast slot seq val with
    | none => (slot, [], -1)
    | some slot =>
      let saved := jsSaveLast slot.name seq val
      match jsAppendMsg slot.name seq val with
      | none => (slot, saved, -1)
      | some written =>
        let ops := saved ++ written
        (slot, ops ++ jsMaybeRotateMsgs rotateBytes (FileOp.run files ops) slot.name, 1)

/-- The message of `cmq_js_publish` on a stream. -/
def jsPublishMsg (js : CmqJs) (files : FileMap JsPath) (nowMs : Nat) (name val : Bytes) :
    JsOutcome :=
  if val.length = 0 then .skip js (-1)
  else
    match jsGetOrCreateSlot js files nowMs name with
    | none => .skip js (-2)
    | some (js, slot, created) =>
      let done := jsPublishSlot js.rotateBytes nowMs (FileOp.run files created) slot val
      ⟨js.setSlot done.1, created ++ done.2.1, done.2.2, []⟩

/-- The acknowledgement of `cmq_js_publish` for a consumer. -/
def jsPublishAck (js : CmqJs) (files : FileMap JsPath) (nowMs : Nat) (name cons val : Bytes) :
    JsOutcome :=
  if val.length ≠ 8 ∨ getBe val = 0 then .skip js (-1)
  else
    match jsLookup js files nowMs name with
    | none => .skip js (-1)
    | some (js, slot, created) =>
      let acked := streamConsumerAck slot.st cons (getBe val)
      if acked.2 = false then ⟨js, created, -1, []⟩
      else
        ⟨js.setSlot { slot with st := acked.1 }, created ++ cursorOps name acked.1, 1, []⟩

/-- `cmq_js_publish`. -/
def cmqJsPublish (js : CmqJs) (files : FileMap JsPath) (nowMs : Nat) (subject val : Bytes) :
    JsOutcome :=
  match cmqJsParse subject with
  | .notJs => .skip js 0
  | .ok name => jsPublishMsg js files nowMs name val
  | .malformed =>
    match cmqJsParseCons subject with
    | .ok (name, cons) => jsPublishAck js files nowMs name cons val
    | _ => .skip js (-1)

/-- The sequence number and the message that a consumer is handed, if they fit. -/
def jsHandOut (stream : CmqStream) (seq outSz : Nat) : Option Bytes :=
  if seq > 0 then
    match cmqStoreGet stream.store seq with
    | none => none
    | some (data, _) => if 8 + data.length ≤ outSz then some (putBe 8 seq ++ data) else none
  else none

/-- The part that `cmq_js_consume` and `cmq_js_consume_part` share; `next` finds the number of
the message. -/
def jsConsumeNext (js : CmqJs) (files : FileMap JsPath) (nowMs : Nat) (name cons : Bytes)
    (next : CmqStream → Nat) (outSz : Nat) : JsOutcome :=
  match jsLookup js files nowMs name with
  | none => .skip js 0
  | some (js, slot, created) =>
    let added :=
      if cursorTokenSafe cons = false then (slot.st, false) else streamAddConsumer slot.st cons
    if added.2 = false then ⟨js, created, 0, []⟩
    else
      let js := js.setSlot { slot with st := added.1 }
      let ops := created ++ cursorOps name added.1
      match jsHandOut added.1 (next added.1) outSz with
      | none => ⟨js, ops, 0, []⟩
      | some out => ⟨js, ops, 1, out⟩

/-- `cmq_js_consume_part`. -/
def cmqJsConsumePart (js : CmqJs) (files : FileMap JsPath) (nowMs : Nat) (subject : Bytes)
    (part outSz : Nat) : JsOutcome :=
  match cmqJsParsePart subject with
  | .ok (name, cons, part) =>
    jsConsumeNext js files nowMs name cons (streamConsumerNextPart · cons part) outSz
  | _ =>
    match cmqJsParseCons subject with
    | .ok (name, cons) =>
      jsConsumeNext js files nowMs name cons (streamConsumerNextPart · cons part) outSz
    | _ => .skip js (-1)

/-- `cmq_js_consume`. -/
def cmqJsConsume (js : CmqJs) (files : FileMap JsPath) (nowMs : Nat) (subject : Bytes)
    (outSz : Nat) : JsOutcome :=
  match cmqJsParseCons subject with
  | .ok (name, cons) => jsConsumeNext js files nowMs name cons (streamConsumerNext · cons) outSz
  | _ =>
    match cmqJsParsePart subject with
    | .ok (_, _, part) => cmqJsConsumePart js files nowMs subject part outSz
    | _ => .skip js (-1)

end CMsgQueue.Store
