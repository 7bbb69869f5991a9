import CMsgQueue.Store.JsLog
import CMsgQueue.Store.StreamBytes

/-!
# What a durable stream holds

A stream has the newest messages of the log of all that were published on it.  An append fails
only if the ring is full and a consumer has not got past its oldest message; what consumers are
handed depends on the log and their watermarks only.
-/

namespace CMsgQueue.Store

open ConsumerEntry Option List RingBuffer

/-! ## Appending without a limit on the bytes -/

def jsRing : Nat := 1024

variable {part : Nat} {val : Bytes}

section NoLimit

variable {stream : CmqStream} {dropped : Nat} {messages : List StreamMessage}

structure Takes (stream : CmqStream) (data : Bytes) : Prop where
  nonempty : 0 < data.length
  length_le : data.length ≤ storeMaxLen
  number : stream.store.headSeq ≠ uint64Max
  room : stream.maxMsgs ≤ stream.store.count → stream.store.firstSeq < retainFloor stream

section

variable (keeps : stream.Keeps dropped messages) (noLimit : stream.maxBytes = 0) (nowMs : Nat)
include keeps noLimit

lemma streamAppend_noLimit (part : Nat) (nonempty : 0 < data.length) :
    ((streamAppend stream nowMs data part).2 = 0 ↔ ¬ Takes stream data) ∧
      ((streamAppend stream nowMs data part).2 = 0 →
        (streamAppend stream nowMs data part).1 = stream) := by
  have unlimited : makeRoom stream data.length (retainFloor stream) = (stream, true) := by
    simp [makeRoom, noLimit]
  have room : wrapDebit stream (retainFloor stream) = none ↔
      ¬ (stream.maxMsgs ≤ stream.store.count → stream.store.firstSeq < retainFloor stream) := by
    have count : stream.store.count = messages.length := by simpa using keeps.store.count_eq
    rw [wrapDebit_eq_none_iff keeps, Classical.not_imp, count, keeps.firstSeq_eq, not_lt]
    refine and_congr_right fun full => ?_
    rw [if_neg (ne_nil_of_length_pos (lt_of_lt_of_le keeps.store.positive full))]
  obtain ⟨zero, same⟩ := streamAppend_snd_eq_zero_iff keeps nowMs part nonempty
  rw [unlimited] at zero same
  refine ⟨zero.trans ⟨?_, fun refused => ?_⟩, same⟩
  · rintro (full | long | last) takes
    · exact full ⟨rfl, fun none => room.mp none takes.room⟩
    · exact not_lt.mpr takes.length_le long
    exact takes.number last
  by_contra accepted
  rw [not_or, not_or, not_not, not_lt] at accepted
  obtain ⟨⟨-, some⟩, length_le, number⟩ := accepted
  exact refused ⟨nonempty, length_le, number, not_not.mp fun full => some (room.mpr full)⟩

lemma streamAppend_refused (part : Nat) (refused : ¬ Takes stream data) :
    streamAppend stream nowMs data part = (stream, 0) := by
  rcases Nat.eq_zero_or_pos data.length with none | nonempty
  · rw [streamAppend, if_pos none]
  obtain ⟨zero, same⟩ := streamAppend_noLimit keeps noLimit nowMs part nonempty
  exact Prod.ext (same (zero.mpr refused)) (zero.mpr refused)

lemma streamAppend_taken (part_lt : part < stream.nparts) (takes : Takes stream data) :
    ∃ other count, streamAppend stream nowMs data part = (other, dropped + messages.length + 1) ∧
      count = (if messages.length < stream.maxMsgs then 0 else 1) ∧
      SameConsumers stream other ∧
      other.Keeps (dropped + count) (messages.drop count ++ [⟨data, nowMs, part⟩]) := by
  obtain ⟨count, ⟨same, -, -, outcome⟩, -, counted, -⟩ := streamAppend_bytes keeps nowMs data part_lt
  have taken := fun zero =>
    (streamAppend_noLimit keeps noLimit nowMs part takes.nonempty).1.mp zero takes
  rcases outcome with ⟨zero, -⟩ | ⟨number, kept⟩
  · exact absurd zero taken
  exact ⟨_, count, Prod.ext rfl number, counted noLimit taken, same, kept⟩

end

end NoLimit

/-! ## The log of a stream -/

def jsPart (nparts : Nat) (val : Bytes) : Nat :=
  if nparts > 1 then cmqStreamPartitionOf val nparts else 0

lemma jsPart_lt (positive : 1 ≤ nparts) (val : Bytes) :
    jsPart nparts val < nparts := StreamSystem.keyPart_lt val positive

lemma jsStreamAppend_eq (stream : CmqStream) (nowMs : Nat) (nonempty : 0 < val.length) :
    jsStreamAppend stream nowMs val =
      streamAppend stream nowMs val (jsPart stream.nparts val) := by
  unfold jsStreamAppend jsPart
  split
  next several =>
    unfold cmqStreamAppendKey
    rw [if_neg (by omega)]
    simp only [if_pos several]
  rfl

def gone (log : List Bytes) : Nat := log.length - jsRing

/-- The stream has the newest messages of a log. -/
structure CmqStream.Logs (stream : CmqStream) (nparts : Nat) (log : List Bytes) : Prop where
  maxMsgs_eq : stream.maxMsgs = jsRing
  maxBytes_eq : stream.maxBytes = 0
  nparts_eq : stream.nparts = nparts
  log_lt : log.length < uint64Max
  messages : ∃ messages : List StreamMessage, stream.Keeps (gone log) messages ∧
    messages.map StreamMessage.data = log.drop (gone log) ∧
    ∀ message ∈ messages, message.part = jsPart nparts message.data

namespace CmqStream.Logs

variable {stream : CmqStream} {nparts : Nat} {log : List Bytes}

lemma nparts_pos (logs : stream.Logs nparts log) : 1 ≤ nparts := by
  obtain ⟨messages, keeps, -, -⟩ := logs.messages
  exact logs.nparts_eq ▸ keeps.nparts_pos

lemma nparts_le (logs : stream.Logs nparts log) : nparts ≤ cmqStreamMaxParts := by
  obtain ⟨messages, keeps, -, -⟩ := logs.messages
  exact logs.nparts_eq ▸ keeps.nparts_le

lemma gone_add_length {messages : List StreamMessage}
    (same : messages.map StreamMessage.data = log.drop (gone log)) :
    gone log + messages.length = log.length := by
  have lengths := congrArg List.length same
  rw [length_map, length_drop, gone] at lengths
  rw [gone]
  omega

lemma eq_nil_iff {messages : List StreamMessage}
    (same : messages.map StreamMessage.data = log.drop (gone log)) : messages = [] ↔ log = [] := by
  have total := gone_add_length same
  rw [← length_eq_zero_iff, ← length_eq_zero_iff]
  unfold gone jsRing at total
  omega

variable (logs : stream.Logs nparts log)
include logs

lemma firstSeq_eq : stream.store.firstSeq = if log = [] then 0 else gone log + 1 := by
  obtain ⟨messages, keeps, same, -⟩ := logs.messages
  rw [keeps.firstSeq_eq]
  simp only [eq_nil_iff same]

lemma lastSeq_eq : stream.store.lastSeq = log.length := by
  obtain ⟨messages, keeps, same, -⟩ := logs.messages
  rw [keeps.lastSeq_eq, gone_add_length same]
  simp only [eq_nil_iff same]
  split
  next none => rw [none, length_nil]
  rfl

lemma headSeq_eq : stream.store.headSeq = log.length + 1 := by
  obtain ⟨messages, keeps, same, -⟩ := logs.messages
  rw [keeps.headSeq_eq, gone_add_length same]

lemma count_eq : stream.store.count = log.length - gone log := by
  obtain ⟨messages, keeps, same, -⟩ := logs.messages
  have total := gone_add_length same
  rw [keeps.store.count_eq, length_map]
  omega

lemma held_eq (seq : Nat) :
    (stream.held seq).map (fun message => (message.data, message.part)) =
      if gone log < seq then log[seq - 1]?.map fun val => (val, jsPart nparts val) else none := by
  obtain ⟨messages, keeps, same, parts⟩ := logs.messages
  rw [keeps.held_eq]
  split
  next =>
    have read := congrArg (fun list => list[seq - gone log - 1]?) same
    simp only [getElem?_map, getElem?_drop] at read
    rw [show gone log + (seq - gone log - 1) = seq - 1 by omega] at read
    rw [← read]
    cases located : messages[seq - gone log - 1]? with
    | none => rfl
    | some message => simp [parts message (mem_of_getElem? located)]
  rfl

lemma get_eq (seq : Nat) :
    (cmqStoreGet stream.store seq).map Prod.fst =
      if gone log < seq then log[seq - 1]? else none := by
  have data := congrArg (Option.map Prod.fst) (logs.held_eq seq)
  rw [apply_ite (Option.map Prod.fst)] at data
  simpa [CmqStream.held, Function.comp_def] using data

lemma partAt_eq (kept : gone log < seq) (inside : seq ≤ log.length) :
    stream.partAt seq = (log[seq - 1]?.map (jsPart nparts)).getD 0 := by
  obtain ⟨messages, keeps, same, parts⟩ := logs.messages
  have total := gone_add_length same
  have bound : seq - gone log - 1 < messages.length := by omega
  have read := congrArg (fun list => list[seq - gone log - 1]?) same
  simp only [getElem?_map, getElem?_drop] at read
  rw [show gone log + (seq - gone log - 1) = seq - 1 by omega, getElem?_eq_getElem bound] at read
  have part := keeps.partAt_eq (getElem?_eq_getElem bound)
  rw [show gone log + (seq - gone log - 1) + 1 = seq by omega] at part
  rw [part, parts _ (getElem_mem bound), ← read]
  rfl

lemma append_refused (nowMs : Nat) (refused : ¬ Takes stream val) :
    jsStreamAppend stream nowMs val = (stream, 0) := by
  obtain ⟨messages, keeps, -⟩ := logs.messages
  unfold jsStreamAppend
  split
  · unfold cmqStreamAppendKey
    split
    · rfl
    exact streamAppend_refused keeps logs.maxBytes_eq nowMs _ refused
  exact streamAppend_refused keeps logs.maxBytes_eq nowMs _ refused

lemma append_taken (nowMs : Nat) (takes : Takes stream val) :
    ∃ other, jsStreamAppend stream nowMs val = (other, log.length + 1) ∧
      SameConsumers stream other ∧ other.Logs nparts (log ++ [val]) := by
  have number := takes.number
  rw [logs.headSeq_eq] at number
  have positive := logs.nparts_pos
  have log_lt := logs.log_lt
  obtain ⟨messages, keeps, same, parts⟩ := logs.messages
  have total := gone_add_length same
  have length := congrArg List.length same
  rw [length_map, length_drop] at length
  obtain ⟨other, count, appended, counted, consumers, kept⟩ :=
    streamAppend_taken keeps logs.maxBytes_eq nowMs
      (logs.nparts_eq ▸ jsPart_lt positive val : jsPart nparts val < stream.nparts) takes
  have moved : gone (log ++ [val]) = gone log + count := by
    rw [counted, logs.maxMsgs_eq]
    simp only [gone, length_append, length_singleton] at length ⊢
    split <;> omega
  refine ⟨other, ?_, consumers, ?_, ?_, ?_, ?_, ?_⟩
  · rw [jsStreamAppend_eq stream nowMs takes.nonempty, logs.nparts_eq, appended, total]
  · rw [consumers.maxMsgs, logs.maxMsgs_eq]
  · rw [consumers.maxBytes, logs.maxBytes_eq]
  · rw [consumers.nparts, logs.nparts_eq]
  · rw [length_append, length_singleton]
    omega
  refine ⟨messages.drop count ++ [⟨val, nowMs, jsPart nparts val⟩], ?_, ?_, ?_⟩
  · rw [moved]
    exact kept
  · have le : gone log + count ≤ log.length := by
      rw [← moved, gone, length_append, length_singleton, jsRing]
      omega
    rw [moved, drop_append_of_le_length le, ← drop_drop, ← same, map_append,
      map_drop, map_singleton]
  exact forall_mem_append.mpr ⟨fun message old => parts message (mem_of_mem_drop old),
    forall_mem_singleton.mpr rfl⟩

lemma of_consumers (consumers : List ConsumerEntry) :
    Logs { stream with consumers } nparts log := by
  obtain ⟨messages, keeps, same, parts⟩ := logs.messages
  exact { logs with messages := ⟨messages, keeps.of_consumers consumers, same, parts⟩ }

end CmqStream.Logs

/-! ## Floors and replays -/

namespace CmqStream.Logs

variable {stream : CmqStream} {nparts : Nat} {log : List Bytes}

section

variable (logs : stream.Logs nparts log)
include logs

lemma full_iff : stream.maxMsgs ≤ stream.store.count ↔ jsRing ≤ log.length := by
  rw [logs.maxMsgs_eq, logs.count_eq, gone]
  omega

/-- A message is taken if all consumers are past the one that has to go. -/
lemma takes (nonempty : 0 < val.length) (length_le : val.length ≤ storeMaxLen)
    (number : log.length + 1 < uint64Max)
    (past : jsRing ≤ log.length → ∀ entry ∈ stream.consumers, ∀ part < nparts,
      gone log + 1 ≤ stream.watermark entry part) : Takes stream val := by
  have ring : jsRing = 1024 := rfl
  refine ⟨nonempty, length_le, ?_, fun full => ?_⟩
  · rw [logs.headSeq_eq]
    omega
  have long := logs.full_iff.mp full
  have some : log ≠ [] := by
    rintro rfl
    rw [length_nil] at long
    omega
  rw [logs.firstSeq_eq, if_neg some]
  refine lt_retainFloor ?_ ?_ ?_ (logs.nparts_eq ▸ logs.nparts_pos)
  · rw [gone]
    omega
  · rw [logs.lastSeq_eq, gone]
    omega
  rw [logs.nparts_eq]
  exact past long

lemma past_of_takes (takes : Takes stream val) (full : jsRing ≤ log.length)
    (member : entry ∈ stream.consumers) (part_lt : part < nparts) :
    gone log + 1 ≤ stream.watermark entry part := by
  have some : log ≠ [] := by
    rintro rfl
    exact absurd full (by decide)
  have floor := takes.room (logs.full_iff.mpr full)
  have first := logs.firstSeq_eq
  rw [if_neg some] at first
  rw [first] at floor
  exact le_watermark_of_lt_retainFloor floor (le_of_eq first) member
    (logs.nparts_eq ▸ part_lt)

/-- A replay takes all messages, if the consumers are past those that have to go. -/
lemma replay (nowMs : Nat) {vals : List Bytes} (fits : ∀ val ∈ vals, JsVal val)
    (number : log.length + vals.length < uint64Max)
    (past : ∀ entry ∈ stream.consumers, ∀ part < nparts,
      gone (log ++ vals) ≤ stream.watermark entry part) :
    (jsReplay nowMs stream vals).2 = vals ∧ SameConsumers stream (jsReplay nowMs stream vals).1 ∧
      (jsReplay nowMs stream vals).1.Logs nparts (log ++ vals) := by
  induction vals generalizing stream log with
  | nil => exact ⟨rfl, .refl stream, by simpa [jsReplay] using logs⟩
  | cons val vals ih =>
    rw [forall_mem_cons] at fits
    rw [length_cons] at number
    have taken : Takes stream val := by
      refine logs.takes fits.1.1 (le_trans fits.1.2 (by decide)) (by omega) ?_
      intro _ entry member part part_lt
      refine le_trans ?_ (past entry member part part_lt)
      rw [gone, gone, length_append, length_cons]
      omega
    obtain ⟨other, appended, same, logs'⟩ := logs.append_taken nowMs taken
    have past' : ∀ entry ∈ other.consumers, ∀ part < nparts,
        gone ((log ++ [val]) ++ vals) ≤ other.watermark entry part := by
      intro entry member part part_lt
      rw [same.consumers] at member
      rw [append_assoc, CmqStream.watermark, same.nparts]
      exact past entry member part part_lt
    obtain ⟨all, consumers, replayed⟩ := ih logs' fits.2 (by simp; omega) past'
    have step : jsReplay nowMs stream (val :: vals) =
        ((jsReplay nowMs other vals).1, val :: (jsReplay nowMs other vals).2) := by
      rw [jsReplay, appended]
      exact if_neg (Nat.succ_ne_zero _)
    rw [step]
    refine ⟨by rw [all], same.trans consumers, ?_⟩
    rw [append_assoc] at replayed
    exact replayed

end

end CmqStream.Logs

/-! ## Consumers -/

/-- The consumers of a stream with a log. -/
structure CmqStream.Follows (stream : CmqStream) (log : List Bytes) : Prop where
  names : (stream.consumers.map name).Nodup
  count_le : stream.consumers.length ≤ cmqMaxConsumers
  safe : ∀ entry ∈ stream.consumers,
    cursorTokenSafe entry.name = true ∧ entry.name.length < cmqMaxName
  ackedSeq_le : ∀ entry ∈ stream.consumers, entry.ackedSeq ≤ log.length
  acked_le : ∀ entry ∈ stream.consumers, ∀ part, entry.acked part ≤ log.length
  synced : 1 < stream.nparts → ∀ entry ∈ stream.consumers,
    entry.ackedSeq = entry.lowest stream.nparts
  past : ∀ entry ∈ stream.consumers, ∀ part < stream.nparts, gone log ≤ stream.watermark entry part

namespace CmqStream.Follows

variable {stream : CmqStream} {nparts : Nat} {log : List Bytes}

lemma of_nil (none : stream.consumers = []) : stream.Follows log := by
  refine ⟨by simp [none], by simp [none], ?_, ?_, ?_, ?_, ?_⟩ <;> simp [none]

lemma append (follows : stream.Follows log) (logs : stream.Logs nparts log)
    (takes : Takes stream val) (same : SameConsumers stream other) :
    other.Follows (log ++ [val]) := by
  have longer : log.length ≤ (log ++ [val]).length := by simp
  refine ⟨?_, ?_, ?_, ?_, ?_, ?_, ?_⟩
  · exact same.consumers ▸ follows.names
  · exact same.consumers ▸ follows.count_le
  · exact same.consumers ▸ follows.safe
  · intro entry member
    exact le_trans (follows.ackedSeq_le entry (same.consumers ▸ member)) longer
  · intro entry member part
    exact le_trans (follows.acked_le entry (same.consumers ▸ member) part) longer
  · rw [same.nparts, same.consumers]
    exact follows.synced
  intro entry member part part_lt
  rw [same.consumers] at member
  rw [same.nparts] at part_lt
  rw [CmqStream.watermark, same.nparts]
  by_cases full : jsRing ≤ log.length
  · have reached := logs.past_of_takes takes full member (logs.nparts_eq ▸ part_lt)
    refine le_trans (le_of_eq ?_) reached
    simp only [gone, length_append, length_singleton]
    omega
  refine Nat.le_trans (Nat.le_of_eq ?_) (Nat.zero_le _)
  simp only [gone, length_append, length_singleton]
  omega

lemma lowest_initParts (entry : ConsumerEntry) (seq : Nat)
    (le : nparts ≤ cmqStreamMaxParts) : (entry.initParts seq).lowest nparts = seq := by
  have same : ∀ (range : List Nat) start, (∀ part ∈ range, part < nparts) → start = seq →
      range.foldl (fun lowest part =>
        if (entry.initParts seq).acked part < lowest then (entry.initParts seq).acked part
        else lowest) start = seq := by
    intro range
    induction range with
    | nil => exact fun _ _ done => done
    | cons part range ih =>
      intro start inside _
      rw [forall_mem_cons] at inside
      rw [foldl_cons, acked_initParts _ _ (lt_of_lt_of_le inside.1 le)]
      exact ih _ inside.2 (by split <;> omega)
  refine same _ _ (fun part member => mem_range.mp member) ?_
  exact acked_initParts _ _ (by decide)

lemma add (follows : stream.Follows log) (logs : stream.Logs nparts log) {name : Bytes}
    (safe : cursorTokenSafe name = true) : (streamAddConsumer stream name).1.Follows log := by
  unfold streamAddConsumer
  split
  · exact follows
  next length =>
  split
  · exact follows
  next absent =>
  split
  · exact follows
  next =>
  have start : (if stream.store.firstSeq > 0 then stream.store.firstSeq - 1 else 0) =
      gone log := by
    rw [logs.firstSeq_eq]
    by_cases none : log = []
    · simp [none, gone]
    simp [none]
  have gone_le : gone log ≤ log.length := Nat.sub_le _ _
  dsimp only
  rw [start]
  generalize entryEq :
    initParts ⟨name, 0, Vector.replicate cmqStreamMaxParts 0⟩ (gone log) = new
  have named : new.name = name := by rw [← entryEq, initParts]
  have acked : ∀ part < cmqStreamMaxParts, new.acked part = gone log := by
    intro part inside
    rw [← entryEq, acked_initParts _ _ inside]
  have ackedSeq : new.ackedSeq = gone log := by rw [← entryEq, initParts]
  have members : ∀ property : ConsumerEntry → Prop, (∀ old ∈ stream.consumers, property old) →
      property new → ∀ entry ∈ stream.consumers ++ [new], property entry := by
    intro property old last
    exact forall_mem_append.mpr ⟨old, forall_mem_singleton.mpr last⟩
  have parts_le := logs.nparts_eq.symm ▸ logs.nparts_le
  refine ⟨?_, ?_, members _ follows.safe ?_, members _ follows.ackedSeq_le ?_,
    members _ follows.acked_le ?_, fun several => members _ (follows.synced several) ?_,
    members _ follows.past ?_⟩
  · exact CmqStream.nodup_concat follows.names absent named
  · rw [length_append, length_singleton]
    omega
  · rw [named]
    exact ⟨safe, by omega⟩
  · rw [ackedSeq]
    exact gone_le
  · intro part
    rw [← entryEq]
    exact le_trans (acked_initParts_le _ _ _) gone_le
  · rw [← entryEq, lowest_initParts _ _ parts_le, initParts]
  intro part part_lt
  unfold CmqStream.watermark
  split
  · rw [ackedSeq]
  rw [acked part (lt_of_lt_of_le part_lt parts_le)]

lemma watermark_le_ackEntry (stream : CmqStream) (seq : Nat) (entry : ConsumerEntry)
    (nparts_le : stream.nparts ≤ cmqStreamMaxParts) :
    stream.watermark entry part ≤ stream.watermark (ackEntry stream seq entry) part := by
  unfold CmqStream.watermark
  by_cases several : stream.nparts > 1
  · rw [if_neg (not_le.mpr several), if_neg (not_le.mpr several)]
    simp only [ackEntry, if_pos several, acked_syncAcked]
    split
    next inside =>
      rw [acked_raisePart _ _ _ (lt_of_lt_of_le inside nparts_le), acked_raise, acked_raise]
      split
      next same =>
        rw [same]
        exact le_max_left _ _
      exact le_refl _
    rw [acked_raise]
  rw [if_pos (not_lt.mp several), if_pos (not_lt.mp several)]
  simp only [ackEntry, if_neg several, ackedSeq_raise]
  exact le_max_left _ _

lemma ack (follows : stream.Follows log) (logs : stream.Logs nparts log) (name : Bytes)
    (seq : Nat) : (streamConsumerAck stream name seq).1.Follows log := by
  unfold streamConsumerAck
  split
  · exact follows
  next accepted =>
  have inside := (not_or.mp accepted).1
  have bounds : gone log < seq ∧ seq ≤ log.length := by
    simp only [ackInside, logs.firstSeq_eq, logs.lastSeq_eq] at inside
    by_cases none : log = []
    · simp [none] at inside
    simp [none] at inside
    omega
  have parts_le := logs.nparts_eq.symm ▸ logs.nparts_le
  have part_lt : stream.partAt seq < stream.nparts := by
    rw [logs.partAt_eq bounds.1 bounds.2, logs.nparts_eq, getElem?_eq_getElem (by omega)]
    exact jsPart_lt logs.nparts_pos _
  have raises := ackEntry_raises seq parts_le part_lt
  have members : ∀ property : ConsumerEntry → Prop, (∀ old ∈ stream.consumers, property old) →
      (∀ old ∈ stream.consumers, property (ackEntry stream seq old)) →
      ∀ entry ∈ (stream.updateConsumer name (ackEntry stream seq)).consumers, property entry := by
    intro property old changed entry member
    rcases CmqStream.mem_updateConsumer member with before | ⟨entry, before, -, rfl⟩
    · exact old entry before
    exact changed entry before
  refine ⟨?_, ?_, members _ follows.safe ?_, members _ follows.ackedSeq_le ?_,
    members _ follows.acked_le ?_, fun several => members _ (follows.synced several) ?_,
    members _ follows.past ?_⟩
  · rw [CmqStream.names_updateConsumer _ _ raises.name_eq]
    exact follows.names
  · simpa [CmqStream.updateConsumer] using follows.count_le
  · intro entry member
    rw [raises.name_eq]
    exact follows.safe entry member
  · intro entry member
    exact raises.ackedSeq_le entry _ bounds.2 (follows.ackedSeq_le entry member)
      (follows.acked_le entry member)
  · intro entry member part
    exact le_trans (raises.acked_le entry part)
      (Nat.max_le.mpr ⟨follows.acked_le entry member part, bounds.2⟩)
  · intro entry member
    change 1 < stream.nparts at several
    simp only [ackEntry, if_pos several]
    exact ackedSeq_syncAcked _ several
  intro entry member part below
  exact le_trans (follows.past entry member part below)
    (watermark_le_ackEntry stream seq entry parts_le)

lemma loadable (follows : stream.Follows log) (log_lt : log.length < uint64Max)
    (none : fresh.consumers = []) : Loadable fresh stream.consumers := by
  have bound : log.length < 2 ^ 64 := lt_of_lt_of_le log_lt (by decide)
  refine ⟨?_, by simpa [none] using follows.names, by simpa [none] using follows.count_le⟩
  intro entry member
  exact ⟨(follows.safe entry member).1, (follows.safe entry member).2,
    lt_of_le_of_lt (follows.ackedSeq_le entry member) bound,
    fun part => lt_of_le_of_lt (follows.acked_le entry member part) bound⟩

end CmqStream.Follows

/-! ## The same position -/

/-- Two entries from which a consumer goes on at the same place. -/
structure SameCursor (nparts : Nat) (entry other : ConsumerEntry) : Prop where
  name : other.name = entry.name
  ackedSeq : other.ackedSeq = entry.ackedSeq
  acked : 1 < nparts → ∀ part < nparts, other.acked part = entry.acked part

lemma SameCursor.refl (nparts : Nat) (entry : ConsumerEntry) : SameCursor nparts entry entry :=
  ⟨rfl, rfl, fun _ _ _ => rfl⟩

lemma sameCursor_reload (nparts_le : nparts ≤ cmqStreamMaxParts)
    (synced : 1 < nparts → entry.ackedSeq = entry.lowest nparts) :
    SameCursor nparts entry (entry.reload nparts) := by
  unfold reload
  split
  next several =>
    have acked : ∀ part < nparts,
        acked ⟨entry.name, 0, entry.parts nparts⟩ part = entry.acked part := by
      intro part part_lt
      rw [acked_parts, if_pos ⟨part_lt, lt_of_lt_of_le part_lt nparts_le⟩]
    refine ⟨by rw [name_syncAcked], ?_, fun _ part part_lt => ?_⟩
    · rw [syncAcked, if_neg (not_le.mpr several), synced several]
      dsimp only [lowest]
      rw [acked 0 (by omega)]
      refine foldl_ext _ _ _ fun lowest part member => ?_
      rw [acked part (mem_range.mp member)]
    rw [acked_syncAcked, acked part part_lt]
  next single => exact ⟨rfl, rfl, fun several => absurd several single⟩

/-- Two streams with the same log, on which every consumer is at the same place. -/
structure Alike (nparts : Nat) (log : List Bytes) (stream other : CmqStream) : Prop where
  logs : stream.Logs nparts log
  otherLogs : other.Logs nparts log
  consumers : List.Forall₂ (SameCursor nparts) stream.consumers other.consumers

lemma find?_sameCursor (same : List.Forall₂ (SameCursor nparts) entries others) (name : Bytes) :
    Option.Rel (SameCursor nparts) (entries.find? fun entry => entry.name == name)
      (others.find? fun entry => entry.name == name) := by
  induction same with
  | nil => exact .none
  | cons first rest ih =>
    rename_i entry other entries others
    rw [find?_cons, find?_cons, first.name]
    cases entry.name == name with
    | true => exact .some first
    | false => exact ih

namespace Alike

variable {nparts : Nat} {log : List Bytes} {stream other : CmqStream}

variable (alike : Alike nparts log stream other)
include alike

lemma firstSeq : other.store.firstSeq = stream.store.firstSeq := by
  rw [alike.logs.firstSeq_eq, alike.otherLogs.firstSeq_eq]

lemma lastSeq : other.store.lastSeq = stream.store.lastSeq := by
  rw [alike.logs.lastSeq_eq, alike.otherLogs.lastSeq_eq]

lemma consumer? (name : Bytes) :
    Option.Rel (SameCursor nparts) (stream.consumer? name) (other.consumer? name) :=
  find?_sameCursor alike.consumers name

lemma add (name : Bytes) :
    (streamAddConsumer other name).2 = (streamAddConsumer stream name).2 ∧
      Alike nparts log (streamAddConsumer stream name).1 (streamAddConsumer other name).1 := by
  have length := alike.consumers.length_eq
  have found : (other.consumer? name).isSome = (stream.consumer? name).isSome := by
    have entries := alike.consumer? name
    generalize stream.consumer? name = entry, other.consumer? name = otherEntry at entries
    cases entries <;> rfl
  unfold streamAddConsumer
  rw [found, ← length, alike.firstSeq]
  split
  · exact ⟨rfl, alike⟩
  split
  · exact ⟨rfl, alike⟩
  split
  · exact ⟨rfl, alike⟩
  refine ⟨rfl, alike.logs.of_consumers _, alike.otherLogs.of_consumers _, ?_⟩
  exact rel_append alike.consumers (.cons (SameCursor.refl _ _) .nil)

lemma next (name : Bytes) : streamConsumerNext other name = streamConsumerNext stream name := by
  have entries := alike.consumer? name
  unfold streamConsumerNext
  generalize stream.consumer? name = entry, other.consumer? name = otherEntry at entries
  cases entries with
  | none => rfl
  | some same => simp only [same.ackedSeq, alike.firstSeq, alike.lastSeq]

lemma nextInPart (part rounds : Nat) (kept : gone log < seq)
    (inside : seq + rounds ≤ log.length + 1) :
    nextInPart other part rounds seq = nextInPart stream part rounds seq := by
  induction rounds generalizing seq with
  | zero => rfl
  | succ rounds ih =>
    unfold CMsgQueue.Store.nextInPart
    rw [alike.logs.partAt_eq kept (by omega), alike.otherLogs.partAt_eq kept (by omega),
      ih (by omega) (by omega)]

lemma nextPart (name : Bytes) (part : Nat) :
    streamConsumerNextPart other name part = streamConsumerNextPart stream name part := by
  unfold streamConsumerNextPart
  rw [alike.logs.nparts_eq, alike.otherLogs.nparts_eq, alike.firstSeq, alike.lastSeq]
  split
  · rfl
  next part_lt =>
  have first := alike.logs.firstSeq_eq
  have last := alike.logs.lastSeq_eq
  have entries := alike.consumer? name
  generalize stream.consumer? name = found, other.consumer? name = otherFound at entries
  cases entries with
  | none => rfl
  | some same =>
    rename_i entry otherEntry
    have acked : (if nparts > 1 then otherEntry.acked part else otherEntry.ackedSeq) =
        if nparts > 1 then entry.acked part else entry.ackedSeq := by
      split
      next several => exact same.acked several part (not_le.mp part_lt)
      exact same.ackedSeq
    dsimp only
    rw [acked]
    generalize (if nparts > 1 then entry.acked part else entry.ackedSeq) + 1 = after
    generalize starts :
      (if stream.store.firstSeq > 0 ∧ after < stream.store.firstSeq then stream.store.firstSeq
        else after) = start
    split
    · rfl
    next more =>
    split
    · rfl
    refine alike.nextInPart part _ ?_ (by omega)
    have some : log ≠ [] := by
      rintro rfl
      exact more (.inl last)
    rw [if_neg some] at first
    split at starts <;> omega

lemma handOut (seq outSz : Nat) : jsHandOut other seq outSz = jsHandOut stream seq outSz := by
  have data := alike.logs.get_eq seq
  have otherData := alike.otherLogs.get_eq seq
  rw [← data] at otherData
  unfold jsHandOut
  split
  · cases found : cmqStoreGet stream.store seq with
    | none =>
      rw [found, map_none, map_eq_none_iff] at otherData
      rw [otherData]
    | some =>
      rw [found] at otherData
      obtain ⟨otherMessage, otherFound, sameData⟩ := map_eq_some_iff.mp otherData
      rw [otherFound]
      obtain ⟨_, _⟩ := otherMessage
      dsimp only at sameData
      rw [sameData]
  rfl

end Alike

end CMsgQueue.Store
