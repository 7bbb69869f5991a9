import CMsgQueue.Store.JsOpen

/-!
# Consumers over a restart

A store is destroyed and made again from its directory.  In the replay a message gets the number
of its place, and the consumers take up their watermarks from before.
-/

namespace CMsgQueue.Store

open FileOp Option List

/-- Calls on a store. -/
inductive JsEvent where
  | publish (nowMs : Nat) (subject val : Bytes)
  | consume (nowMs : Nat) (subject : Bytes) (outSz : Nat)
  | consumePart (nowMs : Nat) (subject : Bytes) (part outSz : Nat)
  | setRotateBytes (cap : Nat)
  deriving DecidableEq

structure JsSystem where
  js : CmqJs
  files : FileMap JsPath

namespace JsSystem

def call (s : JsSystem) : JsEvent → JsOutcome
  | .publish nowMs subject val => cmqJsPublish s.js s.files nowMs subject val
  | .consume nowMs subject outSz => cmqJsConsume s.js s.files nowMs subject outSz
  | .consumePart nowMs subject part outSz => cmqJsConsumePart s.js s.files nowMs subject part outSz
  | .setRotateBytes cap => .skip (cmqJsSetMsgsRotateBytes s.js cap) 0

def step (s : JsSystem) (event : JsEvent) : JsSystem :=
  ⟨(s.call event).js, run s.files (s.call event).ops⟩

def start (defParts : Nat) : JsSystem :=
  ⟨cmqJsSetDefaultPartitions cmqJsCreate defParts, .empty⟩

def run (defParts : Nat) (events : List JsEvent) : JsSystem := events.foldl step (start defParts)

def restart (s : JsSystem) : JsSystem :=
  ⟨cmqJsSetMsgsRotateBytes (cmqJsSetDefaultPartitions cmqJsCreate s.js.defParts)
    s.js.rotateBytes, s.files⟩

def reply (s : JsSystem) (event : JsEvent) : Int × Bytes := ((s.call event).rc, (s.call event).out)

def SamePositions (s : JsSystem) : Prop :=
  ∀ nowMs subject outSz,
    s.restart.reply (.consume nowMs subject outSz) = s.reply (.consume nowMs subject outSz) ∧
    ∀ part, s.restart.reply (.consumePart nowMs subject part outSz) =
      s.reply (.consumePart nowMs subject part outSz)

end JsSystem

/-! ## Replies to consumers -/

/-- The reply to a consumer of a stream; `next` finds the number of the message. -/
def consumeReply (stream : CmqStream) (cons : Bytes) (next : CmqStream → Nat) (outSz : Nat) :
    Int × Bytes :=
  let added :=
    if cursorTokenSafe cons = false then (stream, false) else streamAddConsumer stream cons
  if added.2 = false then (0, [])
  else
    match jsHandOut added.1 (next added.1) outSz with
    | none => (0, [])
    | some out => (1, out)

lemma jsConsumeNext_reply (js : CmqJs) (files : FileMap JsPath) (nowMs : Nat)
    (name cons : Bytes) (next : CmqStream → Nat) (outSz : Nat) :
    ((jsConsumeNext js files nowMs name cons next outSz).rc,
        (jsConsumeNext js files nowMs name cons next outSz).out) =
      match jsLookup js files nowMs name with
      | none => (0, [])
      | some found => consumeReply found.2.1.st cons next outSz := by
  unfold jsConsumeNext consumeReply
  cases jsLookup js files nowMs name with
  | none => rfl
  | some found =>
    obtain ⟨js, slot, _⟩ := found
    dsimp only
    generalize (if cursorTokenSafe cons = false then (slot.st, false)
      else streamAddConsumer slot.st cons) = added
    by_cases refused : added.2 = false
    · simp only [if_pos refused]
    simp only [if_neg refused]
    cases jsHandOut added.1 (next added.1) outSz <;> rfl

/-- A search for the next message that does not tell streams with the same log and the same
cursors apart. -/
def Finds (next : CmqStream → Nat) : Prop :=
  ∀ nparts log stream other, Alike nparts log stream other → next other = next stream

lemma finds_next (cons : Bytes) : Finds (streamConsumerNext · cons) :=
  fun _ _ _ _ alike => alike.next cons

lemma finds_nextPart (cons : Bytes) (part : Nat) : Finds (streamConsumerNextPart · cons part) :=
  fun _ _ _ _ alike => alike.nextPart cons part

namespace Alike

variable {nparts : Nat} {log : List Bytes}

lemma consumeReply_eq (alike : Alike nparts log stream other) (cons : Bytes)
    {next : CmqStream → Nat} (finds : Finds next) (outSz : Nat) :
    consumeReply other cons next outSz = consumeReply stream cons next outSz := by
  obtain ⟨sameResult, added⟩ := alike.add cons
  unfold consumeReply
  by_cases unsafeName : cursorTokenSafe cons = false
  · simp only [if_pos unsafeName, if_true]
  simp only [if_neg unsafeName, sameResult]
  rw [finds _ _ _ _ added, added.handOut]

end Alike

lemma consumeReply_empty (logs : stream.Logs nparts []) (cons : Bytes) (next : CmqStream → Nat)
    (outSz : Nat) : consumeReply stream cons next outSz = (0, []) := by
  have nothing : ∀ other : CmqStream, other.store = stream.store → ∀ seq,
      jsHandOut other seq outSz = none := by
    intro other same seq
    have data := logs.get_eq seq
    simp only [List.getElem?_nil, ite_self, map_eq_none_iff] at data
    unfold jsHandOut
    rw [same, data]
    split <;> rfl
  have store : (streamAddConsumer stream cons).1.store = stream.store := by
    unfold streamAddConsumer
    split
    · rfl
    split
    · rfl
    split <;> rfl
  unfold consumeReply
  by_cases unsafeName : cursorTokenSafe cons = false
  · simp only [if_pos unsafeName, if_true]
  simp only [if_neg unsafeName]
  split
  · rfl
  rw [nothing _ store]

/-! ## Slots and their files -/

/-- A slot whose stream can be made again from its files. -/
structure JsSlot.Durable (slot : JsSlot) (files : FileMap JsPath) (nparts : Nat)
    (log : List Bytes) : Prop where
  opens : OpensFrom files slot.name nparts slot.st.consumers
  logs : slot.st.Logs nparts log
  follows : slot.st.Follows log
  records : ∃ records, Whole records ∧ records.map jsPayload = log ∧
    files.at? (jsPath slot.name .msgs) = if log = [] then none else some (recordsFile records)

lemma Whole.jsVal (whole : Whole records) : ∀ val ∈ records.map jsPayload, JsVal val := by
  intro val member
  obtain ⟨record, inside, rfl⟩ := mem_map.mp member
  obtain ⟨ok, _⟩ := accepts_iff.mp (whole record inside)
  simp only [jsHeaderOk, Bool.and_eq_true, decide_eq_true_eq] at ok
  rw [JsVal, jsPayload, length_drop]
  omega

namespace JsSlot.Durable

variable {slot : JsSlot} {files : FileMap JsPath} {nparts : Nat} {log : List Bytes}

section

variable (durable : slot.Durable files nparts log)
include durable

lemma of_files
    (same : ∀ kind, other.at? (jsPath slot.name kind) = files.at? (jsPath slot.name kind)) :
    slot.Durable other nparts log := by
  obtain ⟨⟨ok, positive, nparts_le, cursors, parts⟩, logs, follows, records⟩ := durable
  refine ⟨⟨ok, positive, nparts_le, ?_, ?_⟩, logs, follows, ?_⟩
  · rw [same]
    exact cursors
  · rw [same]
    exact parts
  rw [same]
  exact records

lemma jsFileMsgs_eq :
    jsFileMsgs (files.at? (jsPath slot.name .msgs)) = log ∧ ∀ val ∈ log, JsVal val := by
  obtain ⟨records, whole, rfl, file⟩ := durable.records
  refine ⟨?_, whole.jsVal⟩
  rw [file]
  split
  next none =>
    rw [none]
    rfl
  exact jsFileMsgs_whole whole

/-- The stream is made again: the log is replayed, and every consumer is where it was. -/
lemma reopen (parts : js.defParts = nparts) (absent : js.findSlot slot.name = none)
    (room : js.slots.length < cmqJsMax) (nowMs : Nat) :
    ∃ found, jsGetOrCreateSlot js files nowMs slot.name = some found ∧
      Alike nparts log slot.st found.2.1.st := by
  obtain ⟨_, _, -, created, -, stream⟩ := durable.opens.getOrCreate parts absent room nowMs
  refine ⟨_, created, ?_⟩
  obtain ⟨msgs, fits⟩ := durable.jsFileMsgs_eq
  have positive := durable.opens.positive
  have nparts_le := durable.opens.nparts_le
  have partsEq := durable.logs.nparts_eq
  have cursor : ∀ entry ∈ slot.st.consumers, SameCursor nparts entry (entry.reload nparts) := by
    intro entry member
    refine sameCursor_reload nparts_le fun several => ?_
    have synced := durable.follows.synced
    rw [partsEq] at synced
    exact synced several entry member
  have past : ∀ entry ∈ (openedStream nparts slot.st.consumers).consumers, ∀ part < nparts,
      gone ([] ++ log) ≤ (openedStream nparts slot.st.consumers).watermark entry part := by
    intro entry member part part_lt
    obtain ⟨old, before, rfl⟩ := mem_map.mp member
    have same := cursor old before
    have reached := durable.follows.past old before part (partsEq.symm ▸ part_lt)
    have openedParts : (openedStream nparts slot.st.consumers).nparts = nparts := rfl
    rw [CmqStream.watermark, partsEq] at reached
    rw [CmqStream.watermark, openedParts]
    split
    next single =>
      rw [if_pos single] at reached
      rw [same.ackedSeq]
      exact reached
    next several =>
    rw [if_neg several] at reached
    rw [same.acked (not_le.mp several) part part_lt]
    exact reached
  obtain ⟨-, consumers, replayed⟩ :=
    (openedStream_logs positive nparts_le slot.st.consumers).replay nowMs fits
      (by simpa using durable.logs.log_lt) past
  rw [msgs] at stream
  rw [stream]
  refine ⟨durable.logs, replayed, ?_⟩
  rw [consumers.consumers]
  exact forall₂_map_right_iff.mpr (forall₂_same.mpr cursor)

end

end JsSlot.Durable

variable {name : Bytes}

lemma OpensFrom.durable_new {files : FileMap JsPath} {nparts : Nat}
    (opens : OpensFrom files name nparts []) (missing : files.at? (jsPath name .msgs) = none)
    {slot : JsSlot} {loaded : CmqStream}
    (either : loaded = openedStream nparts [] ∨ [] = ([] : List ConsumerEntry) ∧
      loaded = freshStream) (named : slot.name = name) (stream : slot.st = openedStream nparts []) :
    slot.Durable (run files (OpensFrom.ops files name nparts loaded)) nparts [] := by
  have cursors := opens.run_ops_at? loaded .cursors
  have parts := opens.run_ops_at? loaded .parts
  have msgs := opens.run_ops_at? loaded .msgs
  dsimp only at cursors parts msgs
  refine ⟨⟨named ▸ opens.nameOk, opens.positive, opens.nparts_le, ?_, ?_⟩, ?_, ?_, ?_⟩
  · rw [named, stream, cursors]
    exact cursorFile_loaded either
  · rw [named, parts]
    split
    next several => exact .inr ⟨several, rfl⟩
    exact .inl rfl
  · rw [stream]
    exact openedStream_logs opens.positive opens.nparts_le []
  · rw [stream]
    exact .of_nil rfl
  rw [named, msgs, missing]
  exact ⟨[], by simp [Whole], rfl, rfl⟩

namespace JsSystem

/-! ## The invariant -/

/-- The streams of a store are in its directory, and nothing else is. -/
structure Inv (s : JsSystem) (nparts : Nat) : Prop where
  positive : 1 ≤ nparts
  nparts_le : nparts ≤ cmqStreamMaxParts
  defParts_eq : s.js.defParts = nparts
  durable : ∀ name slot, s.js.findSlot name = some slot →
    ∃ log, slot.Durable s.files nparts log
  absent : ∀ name, s.js.findSlot name = none → ∀ kind, s.files.at? (jsPath name kind) = none

variable {s : JsSystem} {nparts : Nat}

variable {log : List Bytes}

section

variable (inv : s.Inv nparts)
include inv

lemma Inv.update {js : CmqJs} {ops : List (FileOp JsPath)} {slot : JsSlot}
    (parts : js.defParts = s.js.defParts) (within : Within name ops)
    (found : js.findSlot name = some slot)
    (others : ∀ other, other ≠ name → js.findSlot other = s.js.findSlot other)
    (durable : slot.Durable (FileOp.run s.files ops) nparts log) :
    Inv ⟨js, FileOp.run s.files ops⟩ nparts := by
  refine ⟨inv.positive, inv.nparts_le, parts.trans inv.defParts_eq, ?_, ?_⟩
  · intro other otherSlot otherFound
    by_cases same : other = name
    · subst same
      obtain rfl := some_inj.mp (found.symm.trans otherFound)
      exact ⟨log, durable⟩
    dsimp only at otherFound
    rw [others other same] at otherFound
    obtain ⟨otherLog, otherDurable⟩ := inv.durable other otherSlot otherFound
    have named := CmqJs.name_of_findSlot otherFound
    refine ⟨otherLog, otherDurable.of_files fun kind => within.at?_eq s.files ?_⟩
    rw [named]
    exact same
  intro other none kind
  have differs : other ≠ name := by
    rintro rfl
    rw [found] at none
    cases none
  rw [others other differs] at none
  rw [within.at?_eq s.files differs]
  exact inv.absent other none kind

lemma Inv.setSlot (found : s.js.findSlot slot.name = some slot) (same : changed.name = slot.name)
    (within : Within slot.name ops)
    (durable : changed.Durable (FileOp.run s.files ops) nparts log) :
    Inv ⟨s.js.setSlot changed, FileOp.run s.files ops⟩ nparts := by
  refine inv.update rfl within ?_ ?_ durable
  · rw [CmqJs.findSlot_setSlot, if_pos same.symm, found]
    rfl
  intro _ differs
  rw [CmqJs.findSlot_setSlot, if_neg (same ▸ differs)]

lemma Inv.getOrCreate (ok : nameOk name = true) (nowMs : Nat) :
    jsGetOrCreateSlot s.js s.files nowMs name = none ∨
      ∃ js slot ops, jsGetOrCreateSlot s.js s.files nowMs name = some (js, slot, ops) ∧
        Inv ⟨js, FileOp.run s.files ops⟩ nparts ∧ js.findSlot name = some slot ∧
        js.rotateBytes = s.js.rotateBytes ∧
        (FileOp.run s.files ops).at? (jsPath name .msgs) = s.files.at? (jsPath name .msgs) := by
  cases found : s.js.findSlot name with
  | some slot =>
    refine .inr ⟨s.js, slot, [], ?_, inv, found, rfl, rfl⟩
    rw [jsGetOrCreateSlot, found]
  | none =>
    by_cases full : s.js.slots.length ≥ cmqJsMax
    · refine .inl ?_
      rw [jsGetOrCreateSlot, found]
      exact if_pos full
    have missing := inv.absent name found
    have opens : OpensFrom s.files name nparts [] :=
      ⟨ok, inv.positive, inv.nparts_le, missing .cursors ▸ .none, .inl (missing .parts)⟩
    obtain ⟨slot, loaded, either, created, named, stream⟩ :=
      opens.getOrCreate inv.defParts_eq found (not_le.mp full) nowMs
    rw [missing .msgs] at stream
    have durable := opens.durable_new (missing .msgs) either named stream
    subst named
    have made := CmqJs.findSlot_append found
    have here := (made slot.name).trans (if_pos rfl)
    refine .inr ⟨_, slot, _, created, ?_, here, rfl, opens.run_ops_at? loaded .msgs⟩
    exact inv.update rfl (OpensFrom.within_ops s.files slot.name nparts loaded) here
      (fun other differs => (made other).trans (if_neg differs)) durable

lemma Inv.lookup_eq (nowMs : Nat) (name : Bytes) :
    jsLookup s.js s.files nowMs name = (s.js.findSlot name).map fun slot => (s.js, slot, []) := by
  unfold jsLookup
  cases found : s.js.findSlot name with
  | some slot => rfl
  | none => simp [inv.absent name found]

/-! ## Steps -/

lemma Inv.saveCursors (found : s.js.findSlot slot.name = some slot)
    (durable : slot.Durable s.files nparts log) (logs : stream.Logs nparts log)
    (follows : stream.Follows log) :
    Inv ⟨s.js.setSlot { slot with st := stream },
      FileOp.run s.files (cursorOps slot.name stream)⟩ nparts := by
  have at? := run_cursorOps_at? s.files slot.name stream slot.name
  have changed : JsSlot.Durable { slot with st := stream }
      (FileOp.run s.files (cursorOps slot.name stream)) nparts log := by
    obtain ⟨⟨ok, positive, nparts_le, -, parts⟩, -, -, records⟩ := durable
    refine ⟨⟨ok, positive, nparts_le, ?_, ?_⟩, logs, follows, ?_⟩
    · dsimp only
      rw [at? .cursors, if_pos ⟨rfl, rfl⟩]
      exact .saved stream logs.nparts_eq (follows.loadable logs.log_lt rfl)
    · dsimp only
      rw [at? .parts, if_neg (by simp)]
      exact parts
    dsimp only
    rw [at? .msgs, if_neg (by simp)]
    exact records
  exact inv.setSlot found rfl (within_cursorOps slot.name stream) changed

lemma Inv.consumeNext (nowMs : Nat) (name cons : Bytes) (next : CmqStream → Nat) (outSz : Nat) :
    Inv ⟨(jsConsumeNext s.js s.files nowMs name cons next outSz).js,
      FileOp.run s.files (jsConsumeNext s.js s.files nowMs name cons next outSz).ops⟩ nparts := by
  unfold jsConsumeNext
  rw [inv.lookup_eq]
  cases found : s.js.findSlot name with
  | none => exact inv
  | some slot =>
    obtain rfl := CmqJs.name_of_findSlot found
    obtain ⟨log, durable⟩ := inv.durable _ slot found
    simp only [map_some]
    by_cases refused : cursorTokenSafe cons = false
    · simp only [if_pos refused]
      exact inv
    simp only [if_neg refused]
    split
    · exact inv
    have logs : (streamAddConsumer slot.st cons).1.Logs nparts log := by
      unfold streamAddConsumer
      split
      · exact durable.logs
      split
      · exact durable.logs
      split
      · exact durable.logs
      exact durable.logs.of_consumers _
    have kept := inv.saveCursors found durable logs
      (durable.follows.add durable.logs (Bool.not_eq_false _ ▸ refused))
    split <;> exact kept

lemma Inv.consumePart (nowMs : Nat) (subject : Bytes) (part outSz : Nat) :
    Inv ⟨(cmqJsConsumePart s.js s.files nowMs subject part outSz).js,
      FileOp.run s.files (cmqJsConsumePart s.js s.files nowMs subject part outSz).ops⟩ nparts := by
  unfold cmqJsConsumePart
  split
  · exact inv.consumeNext nowMs _ _ _ outSz
  split
  · exact inv.consumeNext nowMs _ _ _ outSz
  exact inv

lemma Inv.publishAck (nowMs : Nat) (name cons val : Bytes) :
    Inv ⟨(jsPublishAck s.js s.files nowMs name cons val).js,
      FileOp.run s.files (jsPublishAck s.js s.files nowMs name cons val).ops⟩ nparts := by
  unfold jsPublishAck
  split
  · exact inv
  rw [inv.lookup_eq]
  cases found : s.js.findSlot name with
  | none => exact inv
  | some slot =>
    obtain rfl := CmqJs.name_of_findSlot found
    obtain ⟨log, durable⟩ := inv.durable _ slot found
    simp only [map_some]
    split
    · exact inv
    have logs : (streamConsumerAck slot.st cons (getBe val)).1.Logs nparts log := by
      unfold streamConsumerAck
      split
      · exact durable.logs
      exact durable.logs.of_consumers _
    exact inv.saveCursors found durable logs (durable.follows.ack durable.logs cons _)

end

/-- With one more message, the file is not compacted, or nothing of it is cut off: there is no
limit, the file stays below it, it has no record yet, or it just reaches the limit with at most
1024 records. -/
def KeepsAll (cap : Nat) (file : Option Bytes) (val : Bytes) : Prop :=
  let size := (file.getD []).length + (16 + val.length)
  cap = 0 ∨ size < cap ∨ (file.getD []).length = 0 ∨
    size = cap ∧ (jsFileMsgs file).length < cmqJsMsgsKeep

lemma Inv.publishSlot (inv : s.Inv nparts) (found : s.js.findSlot slot.name = some slot)
    (durable : slot.Durable s.files nparts log) (nowMs : Nat)
    (small : val.length ≤ cmqJsValMax ∨ storeMaxLen < val.length)
    (keepsAll : KeepsAll s.js.rotateBytes (s.files.at? (jsPath slot.name .msgs)) val) :
    Inv ⟨s.js.setSlot (jsPublishSlot s.js.rotateBytes nowMs s.files slot val).1,
      FileOp.run s.files (jsPublishSlot s.js.rotateBytes nowMs s.files slot val).2.1⟩ nparts := by
  by_cases takes : Takes slot.st val
  · have short : val.length ≤ cmqJsValMax :=
      small.resolve_right (not_lt.mpr takes.length_le)
    obtain ⟨other, same, logs, published⟩ :=
      durable.logs.publish_taken s.files s.js.rotateBytes nowMs takes short
    obtain ⟨records, whole, payloads, file⟩ := durable.records
    have getD : (s.files.at? (jsPath slot.name .msgs)).getD [] = recordsFile records := by
      rw [file]
      split
      next none =>
        rw [none, map_eq_nil_iff] at payloads
        rw [payloads]
        rfl
      rfl
    have written := run_publishOps_at? s.files slot.name (log.length + 1) val
    have record := accepts_jsRecord (log.length + 1) ⟨takes.nonempty, short⟩
    have whole' : Whole (records ++ [jsRecord (log.length + 1) val]) :=
      whole.append fun other member => mem_singleton.mp member ▸ record
    have msgs : (FileOp.run s.files (publishOps slot.name (log.length + 1) val)).at?
        (jsPath slot.name .msgs) =
          some (recordsFile (records ++ [jsRecord (log.length + 1) val])) := by
      rw [written .msgs, getD, recordsFile_append, recordsFile_singleton]
    -- Nothing is rotated away.
    have stays : jsMaybeRotateMsgs s.js.rotateBytes
        (FileOp.run s.files (publishOps slot.name (log.length + 1) val)) slot.name = [] := by
      have size : (recordsFile (records ++ [jsRecord (log.length + 1) val])).length =
          (recordsFile records).length + (16 + val.length) := by
        rw [recordsFile_append, recordsFile_singleton, length_append, length_jsRecord]
      have few := length_le_recordsFile whole
      refine jsMaybeRotateMsgs_eq_nil whole' msgs ?_
      rw [KeepsAll, getD, durable.jsFileMsgs_eq.1, ← payloads, length_map] at keepsAll
      rw [size, length_append, length_singleton]
      rcases keepsAll with off | below | _ | ⟨reaches, room⟩
      · exact .inl off
      · exact .inr (.inl below)
      · exact .inr (.inr (.inl (by omega)))
      exact .inr (.inr (.inr ⟨room, le_of_eq reaches⟩))
    rw [stays] at published
    rw [published]
    have changed : JsSlot.Durable
        { slot with st := other, last := some (log.length + 1, val) }
        (FileOp.run s.files (publishOps slot.name (log.length + 1) val)) nparts (log ++ [val]) := by
      obtain ⟨⟨ok, positive, nparts_le, cursors, parts⟩, before, follows, -⟩ := durable
      refine ⟨⟨ok, positive, nparts_le, ?_, ?_⟩, logs, follows.append before takes same,
        records ++ [jsRecord (log.length + 1) val], whole', ?_, ?_⟩
      · dsimp only
        rw [written .cursors, same.consumers]
        exact cursors
      · dsimp only
        rw [written .parts]
        exact parts
      · rw [map_append, payloads, map_singleton, jsPayload_jsRecord]
      rw [if_neg (by simp)]
      exact msgs
    exact inv.setSlot found rfl (within_publishOps slot.name _ val) changed
  rw [durable.logs.publish_refused s.files s.js.rotateBytes nowMs takes]
  exact inv.setSlot found rfl (.nil _) durable

lemma Inv.publishMsg (inv : s.Inv nparts) (ok : nameOk name = true) (nowMs : Nat)
    (small : val.length ≤ cmqJsValMax ∨ storeMaxLen < val.length)
    (keepsAll : KeepsAll s.js.rotateBytes (s.files.at? (jsPath name .msgs)) val) :
    Inv ⟨(jsPublishMsg s.js s.files nowMs name val).js,
      FileOp.run s.files (jsPublishMsg s.js s.files nowMs name val).ops⟩ nparts := by
  unfold jsPublishMsg
  split
  · exact inv
  rcases inv.getOrCreate ok nowMs with none | ⟨js, slot, ops, created, made, found, rotate, msgs⟩
  · rw [none]
    exact inv
  rw [created]
  obtain rfl := CmqJs.name_of_findSlot found
  obtain ⟨_, durable⟩ := made.durable _ slot found
  rw [run_append]
  refine made.publishSlot found durable nowMs small ?_
  rw [rotate, msgs]
  exact keepsAll

/-- A publish with a value that a record can have, or that the stream refuses, and after which
nothing is cut off from the file. -/
def Kept (s : JsSystem) : JsEvent → Prop
  | .publish _ subject val =>
    ∀ name, cmqJsParse subject = .ok name →
      (val.length ≤ cmqJsValMax ∨ storeMaxLen < val.length) ∧
        KeepsAll s.js.rotateBytes (s.files.at? (jsPath name .msgs)) val
  | _ => True

lemma Inv.step (inv : s.Inv nparts) (kept : s.Kept event) : (s.step event).Inv nparts := by
  unfold JsSystem.step
  cases event with
  | publish nowMs subject val =>
    simp only [call, cmqJsPublish]
    split
    · exact inv
    next name parsed =>
      obtain ⟨small, keepsAll⟩ := kept name parsed
      exact inv.publishMsg (nameOk_of_parse parsed) nowMs small keepsAll
    split
    · exact inv.publishAck nowMs _ _ val
    exact inv
  | consume nowMs subject outSz =>
    simp only [call, cmqJsConsume]
    split
    · exact inv.consumeNext nowMs _ _ _ outSz
    split
    · exact inv.consumePart nowMs subject _ outSz
    exact inv
  | consumePart nowMs subject part outSz => exact inv.consumePart nowMs subject part outSz
  | setRotateBytes => exact { inv with }

lemma start_findSlot (defParts : Nat) (name : Bytes) :
    (start defParts).js.findSlot name = none := by
  unfold start cmqJsSetDefaultPartitions
  split <;> rfl

lemma inv_start (defParts : Nat) : ∃ nparts, (start defParts).Inv nparts := by
  have range : 1 ≤ (start defParts).js.defParts ∧
      (start defParts).js.defParts ≤ cmqStreamMaxParts := by
    unfold start cmqJsSetDefaultPartitions
    split
    · decide
    dsimp only
    omega
  refine ⟨_, range.1, range.2, rfl, fun _ _ found => ?_, fun _ _ _ => rfl⟩
  rw [start_findSlot] at found
  cases found

/-! ## Over a restart -/

lemma restart_defParts (positive : 1 ≤ nparts) (nparts_le : nparts ≤ cmqStreamMaxParts)
    (parts : s.js.defParts = nparts) : s.restart.js.defParts = nparts := by
  simp only [restart, cmqJsSetMsgsRotateBytes, cmqJsSetDefaultPartitions, parts]
  rw [if_neg (by omega)]

lemma restart_slots (s : JsSystem) : s.restart.js.slots = [] := by
  simp only [restart, cmqJsSetDefaultPartitions]
  split <;> rfl

/-- A consumer gets the same from the old store and from the new one. -/
lemma Inv.consumeNext_restart (inv : s.Inv nparts) (nowMs : Nat) (name cons : Bytes)
    {next : CmqStream → Nat} (finds : Finds next) (outSz : Nat) :
    ((jsConsumeNext s.restart.js s.restart.files nowMs name cons next outSz).rc,
        (jsConsumeNext s.restart.js s.restart.files nowMs name cons next outSz).out) =
      ((jsConsumeNext s.js s.files nowMs name cons next outSz).rc,
        (jsConsumeNext s.js s.files nowMs name cons next outSz).out) := by
  have slots := restart_slots s
  have absent : s.restart.js.findSlot name = none := by
    rw [CmqJs.findSlot, slots]
    rfl
  have room : s.restart.js.slots.length < cmqJsMax := by
    rw [slots]
    decide
  rw [jsConsumeNext_reply, jsConsumeNext_reply, inv.lookup_eq]
  cases found : s.js.findSlot name with
  | none =>
    have missing := inv.absent name found
    have nothing : jsLookup s.restart.js s.restart.files nowMs name = none := by
      unfold jsLookup
      rw [absent]
      simp only [restart, missing]
      rfl
    rw [nothing]
    rfl
  | some slot =>
    obtain rfl := CmqJs.name_of_findSlot found
    obtain ⟨log, durable⟩ := inv.durable _ slot found
    obtain ⟨reopened, created, alike⟩ :=
      durable.reopen (restart_defParts inv.positive inv.nparts_le inv.defParts_eq) absent room nowMs
    by_cases there : (s.files.at? (jsPath slot.name .msgs)).isSome ∨
        (s.files.at? (jsPath slot.name .parts)).isSome
    · have opened : jsLookup s.restart.js s.restart.files nowMs slot.name = some reopened := by
        unfold jsLookup
        rw [absent]
        exact (if_pos there).trans created
      rw [opened]
      exact alike.consumeReply_eq cons finds outSz
    have nothing : jsLookup s.restart.js s.restart.files nowMs slot.name = none := by
      unfold jsLookup
      rw [absent]
      exact if_neg there
    -- Without its file there is no message in the stream either.
    obtain ⟨records, -, -, file⟩ := durable.records
    have empty : log = [] := by
      by_contra some
      rw [if_neg some] at file
      refine there (.inl ?_)
      rw [file]
      rfl
    subst empty
    rw [nothing]
    exact (consumeReply_empty durable.logs cons next outSz).symm

lemma Inv.samePositions (inv : s.Inv nparts) : s.SamePositions := by
  intro nowMs subject outSz
  have part : ∀ part, s.restart.reply (.consumePart nowMs subject part outSz) =
      s.reply (.consumePart nowMs subject part outSz) := by
    intro part
    simp only [reply, call, cmqJsConsumePart]
    split
    · exact inv.consumeNext_restart nowMs _ _ (finds_nextPart _ _) outSz
    split
    · exact inv.consumeNext_restart nowMs _ _ (finds_nextPart _ _) outSz
    rfl
  refine ⟨?_, part⟩
  simp only [reply, call, cmqJsConsume]
  split
  · exact inv.consumeNext_restart nowMs _ _ (finds_next _) outSz
  split
  · exact part _
  rfl

/-- In every run in which each publish is kept, a restart at any time leaves every consumer at
its message. -/
theorem restart_samePositions (defParts : Nat) (events : List JsEvent)
    (kept : Runs.Meets step Kept (start defParts) events) : (run defParts events).SamePositions := by
  obtain ⟨nparts, inv⟩ := inv_start defParts
  have steps : ∀ (state : JsSystem) (event : JsEvent), state.Inv nparts → state.Kept event →
      (state.step event).Inv nparts := fun _ _ inv kept => inv.step kept
  exact (Runs.Meets.invariant steps inv kept).samePositions

/-- After an acknowledgement, the second message is the next one with and without a restart. -/
theorem restart_samePositions_acked :
    let events : List JsEvent :=
      [.publish 5 (cstr "$JS.a") [1], .publish 6 (cstr "$JS.a") [2],
        .consume 7 (cstr "$JS.a.c") 100, .publish 8 (cstr "$JS.a.c") [0, 0, 0, 0, 0, 0, 0, 1]]
    (run 1 events).SamePositions ∧
      (run 1 events).restart.reply (.consume 9 (cstr "$JS.a.c") 100) =
        (1, [0, 0, 0, 0, 0, 0, 0, 2, 2]) := by
  refine ⟨restart_samePositions 1 _ ⟨?_, ?_, ?_, ?_, trivial⟩, by decide +kernel⟩
  · exact fun name _ => ⟨.inl (by decide), .inl (by decide +kernel)⟩
  · exact fun name _ => ⟨.inl (by decide), .inl (by decide +kernel)⟩
  · trivial
  exact fun name _ => ⟨.inl (by decide), .inl (by decide +kernel)⟩

/-- A consumer has acknowledged two messages, and a compaction keeps the record of the third one
only, which a restart then numbers 1: the consumer, at 2, does not get it any more. -/
theorem restart_skips_message :
    ¬ (run 1 [.publish 5 (cstr "$JS.a") [1], .publish 6 (cstr "$JS.a") [2],
      .consume 7 (cstr "$JS.a.c") 100, .publish 8 (cstr "$JS.a.c") [0, 0, 0, 0, 0, 0, 0, 2],
      .setRotateBytes 1, .publish 9 (cstr "$JS.a") [3]]).SamePositions := by
  intro same
  have consumed := (same 10 (cstr "$JS.a.c") 100).1
  revert consumed
  decide +kernel

end JsSystem

end CMsgQueue.Store
