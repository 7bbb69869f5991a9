import CMsgQueue.Store.StreamRun

/-!
# A consumer that reads a stream

A consumer asks for the next number and acknowledges it, again and again.  In a stream with
partitions its position is the lowest of its watermarks, and an acknowledgement raises only one of
them: it gets the same message for ever.
-/

namespace CMsgQueue.Store

open StreamSystem ConsumerEntry List

/-! ## The entry of one consumer -/

section Find

variable {α : Type}

lemma find?_modify_self (keeps : ∀ item, first (change item) = first item) (items : List α) :
    (items.modify (items.findIdx first) change).find? first = (items.find? first).map change := by
  induction items with
  | nil => rfl
  | cons item items ih =>
    rw [findIdx_cons]
    cases found : first item with
    | true => simp [found, keeps]
    | false => simp [found, ih]

lemma find?_modify_other (keeps : ∀ item, second (change item) = second item)
    (apart : ∀ item, first item = true → second item = false) (items : List α) :
    (items.modify (items.findIdx first) change).find? second = items.find? second := by
  induction items with
  | nil => rfl
  | cons item items ih =>
    rw [findIdx_cons]
    cases found : first item with
    | true => simp [keeps, apart item found]
    | false => cases other : second item <;> simp [other, ih]

lemma find?_eraseP_other (apart : ∀ item, first item = true → second item = false)
    (items : List α) : (items.eraseP first).find? second = items.find? second := by
  induction items with
  | nil => rfl
  | cons item items ih =>
    rw [eraseP_cons]
    cases found : first item with
    | true => simp [apart item found]
    | false => cases other : second item <;> simp [other, ih]

end Find

namespace CmqStream

variable {stream : CmqStream} {name other : Bytes} {entry : ConsumerEntry}
  {change : ConsumerEntry → ConsumerEntry}

lemma consumer?_updateConsumer (keeps : ∀ entry, (change entry).name = entry.name)
    (registered : stream.consumer? name = some entry) :
    (stream.updateConsumer name change).consumer? name = some (change entry) := by
  unfold consumer? updateConsumer at *
  rw [find?_modify_self (fun entry => by rw [keeps]), registered, Option.map_some]

lemma consumer?_updateConsumer_other (keeps : ∀ entry, (change entry).name = entry.name)
    (differs : other ≠ name) :
    (stream.updateConsumer other change).consumer? name = stream.consumer? name := by
  refine find?_modify_other (fun entry => by rw [keeps]) (fun entry found => ?_) _
  rw [beq_iff_eq.mp found]
  exact beq_eq_false_iff_ne.mpr differs

lemma mem_of_consumer? (registered : stream.consumer? name = some entry) :
    entry ∈ stream.consumers ∧ entry.name = name := by
  have named := find?_some registered
  exact ⟨mem_of_find?_eq_some registered, beq_iff_eq.mp named⟩

end CmqStream

/-- Calls of others: they neither acknowledge for a consumer nor remove it. -/
def Foreign (name : Bytes) : StreamEvent → Prop
  | .removeConsumer other => other ≠ name
  | .setPartitions _ => False
  | .ack other _ => other ≠ name
  | .ackPart other _ _ => other ≠ name
  | _ => True

instance (name : Bytes) (event : StreamEvent) : Decidable (Foreign name event) := by
  cases event <;> unfold Foreign <;> infer_instance

variable {event : StreamEvent}

lemma StreamSystem.step_foreign {s : StreamSystem} {name : Bytes} {entry : ConsumerEntry}
    (foreign : Foreign name event) {dropped : Nat} {messages : List StreamMessage}
    (inv : StreamSystem.Inv s dropped messages)
    (registered : s.stream.consumer? name = some entry) :
    (s.step event).stream.consumer? name = some entry ∧
      (s.step event).stream.nparts = s.stream.nparts := by
  have appended : ∀ nowMs data part, part < s.stream.nparts →
      (streamAppend s.stream nowMs data part).1.consumer? name = some entry ∧
        (streamAppend s.stream nowMs data part).1.nparts = s.stream.nparts := by
    intro nowMs data part part_lt
    obtain ⟨_, done⟩ := streamAppend_appended inv.keeps nowMs data part_lt
    unfold CmqStream.consumer? at *
    rw [done.same.consumers]
    exact ⟨registered, done.same.nparts⟩
  cases event with
  | addConsumer other =>
    simp only [step, streamAddConsumer]
    split
    · exact ⟨registered, rfl⟩
    split
    · exact ⟨registered, rfl⟩
    split
    · exact ⟨registered, rfl⟩
    unfold CmqStream.consumer? at *
    rw [find?_append, registered]
    exact ⟨rfl, rfl⟩
  | removeConsumer other =>
    simp only [step, streamRemoveConsumer]
    split
    · unfold CmqStream.consumer? at *
      refine ⟨?_, rfl⟩
      rw [find?_eraseP_other, registered]
      intro _ found
      rw [beq_iff_eq.mp found]
      exact beq_eq_false_iff_ne.mpr foreign
    exact ⟨registered, rfl⟩
  | setPartitions n => exact foreign.elim
  | append nowMs data => exact appended nowMs data 0 inv.keeps.nparts_pos
  | appendKey nowMs key data =>
    simp only [step, cmqStreamAppendKey]
    split
    · exact ⟨registered, rfl⟩
    exact appended nowMs data _ (keyPart_lt key inv.keeps.nparts_pos)
  | next other => exact ⟨registered, rfl⟩
  | ack other seq =>
    simp only [step, acknowledge, streamConsumerAck]
    split
    · exact ⟨registered, rfl⟩
    rw [CmqStream.consumer?_updateConsumer_other (name_ackEntry _ _) foreign]
    exact ⟨registered, rfl⟩
  | nextPart other part => exact ⟨registered, rfl⟩
  | ackPart other part seq =>
    simp only [step, acknowledge, streamConsumerAckPart]
    split
    · exact ⟨registered, rfl⟩
    rw [CmqStream.consumer?_updateConsumer_other (fun entry => ?_) foreign]
    · exact ⟨registered, rfl⟩
    · unfold ackPartEntry
      split <;> simp

/-! ## Polling -/

/-- A stream that a consumer reads, and the numbers it got. -/
structure PollSystem where
  system : StreamSystem
  returned : List Nat
  deriving DecidableEq

/-- A run of a consumer: its own calls, and those of others. -/
inductive PollEvent where
  | poll
  | other (event : StreamEvent)
  deriving DecidableEq

namespace PollSystem

/-- `cmq_stream_consumer_next`, and `cmq_stream_consumer_ack` of a number that it returns. -/
def poll (name : Bytes) (s : PollSystem) : PollSystem :=
  let seq := streamConsumerNext s.system.stream name
  if seq = 0 then s else ⟨s.system.step (.ack name seq), s.returned ++ [seq]⟩

def step (name : Bytes) (s : PollSystem) : PollEvent → PollSystem
  | .poll => s.poll name
  | .other event => { s with system := s.system.step event }

/-- The numbers grow, and if the consumer goes on it gets every message that the stream has
exactly once. -/
structure ReturnsEach (name : Bytes) (s : PollSystem) : Prop where
  increasing : s.returned.Pairwise (· < ·)
  once : ∀ seq, s.system.stream.held seq ≠ none →
    ∃ enough, ∀ polls, enough ≤ polls → ((poll name)^[polls] s).returned.count seq = 1

/-! ## One partition -/

/-- The consumer has got the `got` messages behind `base`, which are all it was behind. -/
structure Single (name : Bytes) (base got : Nat) (s : PollSystem) (dropped : Nat)
    (messages : List StreamMessage) : Prop where
  inv : s.system.Inv dropped messages
  single : s.system.stream.nparts ≤ 1
  entry : ∃ entry, s.system.stream.consumer? name = some entry ∧
    entry.ackedSeq ≤ base + got ∧ (0 < got → entry.ackedSeq = base + got)
  returned_eq : s.returned = List.range' (base + 1) got
  base_le : base ≤ dropped
  dropped_le : dropped ≤ base + got
  within : base + got ≤ dropped + messages.length

variable {name : Bytes} {base got : Nat} {s : PollSystem} {dropped : Nat}
  {messages : List StreamMessage}

section

variable (reads : Single name base got s dropped messages)
include reads

lemma Single.next_eq :
    streamConsumerNext s.system.stream name =
      if base + got < dropped + messages.length then base + got + 1 else 0 := by
  obtain ⟨entry, registered, _, acked_eq⟩ := reads.entry
  have base_le := reads.base_le
  have dropped_le := reads.dropped_le
  unfold streamConsumerNext
  rw [registered]
  simp only [reads.inv.keeps.firstSeq_eq, reads.inv.keeps.lastSeq_eq]
  cases messages with
  | nil =>
    simp only [if_true, true_or, length_nil]
    rw [if_neg (by omega)]
  | cons _ messages =>
    simp only [cons_ne_nil, if_false, length_cons]
    have start : (if dropped + 1 > 0 ∧ entry.ackedSeq + 1 < dropped + 1 then dropped + 1
        else entry.ackedSeq + 1) = base + got + 1 := by
      by_cases none : got = 0
      · split <;> omega
      have eq := acked_eq (Nat.pos_of_ne_zero none)
      rw [if_neg (by omega), eq]
    rw [start]
    by_cases more : base + got < dropped + (messages.length + 1)
    · rw [if_pos more, if_neg (by omega)]
    rw [if_neg more, if_pos (by omega)]

lemma Single.poll_more (more : base + got < dropped + messages.length) :
    Single name base (got + 1) (s.poll name) dropped messages := by
  obtain ⟨entry, registered, _, -⟩ := reads.entry
  have first := reads.inv.keeps.firstSeq_eq
  have last := reads.inv.keeps.lastSeq_eq
  have some : messages ≠ [] := by
    rintro rfl
    have := reads.dropped_le
    simp only [length_nil] at more
    omega
  rw [if_neg some] at first last
  have accepted : streamConsumerAck s.system.stream name (base + got + 1) =
      (s.system.stream.updateConsumer name (ackEntry s.system.stream (base + got + 1)), true) := by
    rw [streamConsumerAck, if_neg]
    rw [registered, not_or]
    refine ⟨?_, by simp⟩
    have dropped_le := reads.dropped_le
    simp only [ackInside, last]
    simp
    omega
  have polled : s.poll name =
      ⟨s.system.step (.ack name (base + got + 1)), s.returned ++ [base + got + 1]⟩ := by
    unfold poll
    rw [reads.next_eq, if_pos more]
    simp
  have stepped := inv_ack reads.inv name (base + got + 1)
  rw [polled]
  refine ⟨stepped, ?_, ?_, ?_, reads.base_le, Nat.le_succ_of_le reads.dropped_le, more⟩
  · simp only [StreamSystem.step, accepted]
    exact reads.single
  · refine ⟨ackEntry s.system.stream (base + got + 1) entry, ?_, ?_⟩
    · simp only [StreamSystem.step, accepted]
      exact CmqStream.consumer?_updateConsumer (name_ackEntry _ _) registered
    have raised : (ackEntry s.system.stream (base + got + 1) entry).ackedSeq = base + (got + 1) := by
      simp only [ackEntry]
      rw [if_neg (not_lt.mpr reads.single), ackedSeq_raise]
      omega
    exact ⟨le_of_eq raised, fun _ => raised⟩
  rw [List.range'_concat, reads.returned_eq]
  simp only [Nat.one_mul]
  rw [show base + 1 + got = base + got + 1 by omega]

lemma Single.poll_none (none : ¬ base + got < dropped + messages.length) : s.poll name = s := by
  unfold poll
  rw [reads.next_eq, if_neg none]
  simp

lemma Single.polls (polls : Nat) :
    Single name base (min (got + polls) (dropped + messages.length - base)) ((poll name)^[polls] s)
      dropped messages := by
  have within := reads.within
  induction polls with
  | zero =>
    rw [min_eq_left (by omega)]
    exact reads
  | succ polls ih =>
    rw [Function.iterate_succ_apply']
    by_cases more : base + min (got + polls) (dropped + messages.length - base) <
        dropped + messages.length
    · rw [show min (got + (polls + 1)) (dropped + messages.length - base) =
        min (got + polls) (dropped + messages.length - base) + 1 by omega]
      exact ih.poll_more more
    rw [ih.poll_none more, show min (got + (polls + 1)) (dropped + messages.length - base) =
      min (got + polls) (dropped + messages.length - base) by omega]
    exact ih

lemma Single.other (foreign : Foreign name event) :
    ∃ dropped' messages', Single name base got (s.step name (.other event)) dropped' messages' := by
  obtain ⟨entry, registered, acked_le, acked_eq⟩ := reads.entry
  obtain ⟨count, more, moves⟩ := step_moves reads.inv event
  have kept := step_foreign foreign reads.inv registered
  have base_le := reads.base_le
  have within := reads.within
  refine ⟨dropped + count, messages.drop count ++ more, moves.inv, ?_, ⟨entry, kept.1, acked_le,
    acked_eq⟩, reads.returned_eq, by omega, ?_, ?_⟩
  · exact kept.2 ▸ reads.single
  · by_cases none : count = 0
    · exact none ▸ reads.dropped_le
    have passed := moves.passed (count - 1) (by omega) entry
      (CmqStream.mem_of_consumer? registered).1 0 reads.inv.keeps.nparts_pos
    rw [CmqStream.watermark, if_pos reads.single] at passed
    omega
  rw [length_append, length_drop]
  omega

lemma Single.returnsEach : ReturnsEach name s := by
  refine ⟨?_, fun seq held => ⟨dropped + messages.length - base, fun polls _ => ?_⟩⟩
  · rw [reads.returned_eq]
    exact pairwise_lt_range'
  have inside := (reads.inv.keeps.held_ne_none_iff seq).mp held
  have base_le := reads.base_le
  rw [(reads.polls polls).returned_eq]
  refine count_eq_one_of_mem nodup_range' (mem_range'_1.mpr ?_)
  omega

end

/-! ## Several partitions -/

/-- The consumer has got the first message behind `base` again and again.  Only the watermark of
its partition has moved, and so has not the position. -/
structure Several (name : Bytes) (base got : Nat) (s : PollSystem)
    (messages : List StreamMessage) : Prop where
  inv : s.system.Inv base messages
  several : 1 < s.system.stream.nparts
  entry : ∃ entry, s.system.stream.consumer? name = some entry ∧ entry.ackedSeq ≤ base ∧
    ∀ part, part < s.system.stream.nparts →
      (∀ first, messages[0]? = some first → part ≠ first.part) → entry.acked part ≤ base
  returned_eq : s.returned = List.replicate got (base + 1)
  some_got : 0 < got → messages ≠ []

lemma exists_other_part (several : 1 < nparts) (part : Nat) :
    ∃ other, other < nparts ∧ other ≠ part := by
  by_cases zero : part = 0
  · exact ⟨1, several, by omega⟩
  exact ⟨0, by omega, Ne.symm zero⟩

section

variable (reads : Several name base got s messages)
include reads

lemma Several.next_eq :
    streamConsumerNext s.system.stream name = if messages = [] then 0 else base + 1 := by
  obtain ⟨entry, registered, _, -⟩ := reads.entry
  unfold streamConsumerNext
  rw [registered]
  simp only [reads.inv.keeps.firstSeq_eq, reads.inv.keeps.lastSeq_eq]
  cases messages with
  | nil => rfl
  | cons _ messages =>
    simp only [cons_ne_nil, if_false, length_cons]
    have start : (if base + 1 > 0 ∧ entry.ackedSeq + 1 < base + 1 then base + 1
        else entry.ackedSeq + 1) = base + 1 := by
      split <;> omega
    rw [start, if_neg (by omega)]

lemma Several.poll_again (some : messages ≠ []) :
    Several name base (got + 1) (s.poll name) messages := by
  obtain ⟨entry, registered, _, low⟩ := reads.entry
  obtain ⟨first, _, rfl⟩ := exists_cons_of_ne_nil some
  have part : s.system.stream.partAt (base + 1) = first.part :=
    reads.inv.keeps.partAt_eq (i := 0) rfl
  have part_lt : first.part < s.system.stream.nparts :=
    reads.inv.keeps.part_lt first mem_cons_self
  have inside := lt_of_lt_of_le part_lt reads.inv.keeps.nparts_le
  have accepted : streamConsumerAck s.system.stream name (base + 1) =
      (s.system.stream.updateConsumer name (ackEntry s.system.stream (base + 1)), true) := by
    rw [streamConsumerAck, if_neg]
    rw [registered, not_or]
    refine ⟨?_, by simp⟩
    simp [ackInside, reads.inv.keeps.firstSeq_eq, reads.inv.keeps.lastSeq_eq]
  have polled : s.poll name = ⟨s.system.step (.ack name (base + 1)), s.returned ++ [base + 1]⟩ := by
    unfold poll
    rw [reads.next_eq, if_neg some]
    simp
  have stepped := inv_ack reads.inv name (base + 1)
  have acked : ∀ other, other ≠ first.part →
      (ackEntry s.system.stream (base + 1) entry).acked other = entry.acked other := by
    intro other differs
    simp only [ackEntry]
    rw [if_pos reads.several, part, if_pos part_lt, acked_syncAcked,
      acked_raisePart _ _ _ inside, if_neg differs, acked_raise]
  have lowered : (ackEntry s.system.stream (base + 1) entry).ackedSeq ≤ base := by
    obtain ⟨free, free_lt, differs⟩ := exists_other_part reads.several first.part
    have synced : (ackEntry s.system.stream (base + 1) entry).ackedSeq =
        (ackEntry s.system.stream (base + 1) entry).lowest s.system.stream.nparts := by
      simp only [ackEntry]
      rw [if_pos reads.several]
      exact ackedSeq_syncAcked _ reads.several
    rw [synced]
    refine le_trans (lowest_le _ free_lt) ?_
    rw [acked free differs]
    exact low free free_lt fun other located => by
      cases located
      exact differs
  rw [polled]
  refine ⟨stepped, ?_, ⟨_, ?_, lowered, ?_⟩, ?_, fun _ => some⟩
  · simp only [StreamSystem.step, StreamSystem.acknowledge, accepted]
    exact reads.several
  · simp only [StreamSystem.step, StreamSystem.acknowledge, accepted]
    exact CmqStream.consumer?_updateConsumer (name_ackEntry _ _) registered
  · intro other other_lt differs
    have nparts : (s.system.step (.ack name (base + 1))).stream.nparts =
        s.system.stream.nparts := by
      simp only [StreamSystem.step, StreamSystem.acknowledge, accepted]
      rfl
    rw [acked other (differs first rfl)]
    exact low other (nparts ▸ other_lt) differs
  rw [reads.returned_eq, replicate_succ']

lemma Several.polls (some : messages ≠ []) (polls : Nat) :
    Several name base (got + polls) ((poll name)^[polls] s) messages := by
  induction polls with
  | zero => exact reads
  | succ polls ih =>
    rw [Function.iterate_succ_apply']
    exact ih.poll_again some

lemma Several.poll : ∃ got', Several name base got' (s.poll name) messages := by
  by_cases none : messages = []
  · refine ⟨got, ?_⟩
    rw [PollSystem.poll, reads.next_eq, if_pos none]
    exact reads
  exact ⟨got + 1, reads.poll_again none⟩

/-- Nothing is dropped any more: one of the watermarks stays where it was. -/
lemma Several.other (foreign : Foreign name event) :
    ∃ messages', Several name base got (s.step name (.other event)) messages' := by
  obtain ⟨entry, registered, acked_le, low⟩ := reads.entry
  obtain ⟨count, more, moves⟩ := step_moves reads.inv event
  have kept := step_foreign foreign reads.inv registered
  have none : count = 0 := by
    by_contra some
    have count_le := moves.count_le
    cases messages with
    | nil => exact some (Nat.le_zero.mp count_le)
    | cons first =>
      obtain ⟨free, free_lt, differs⟩ := exists_other_part reads.several first.part
      have passed := moves.passed 0 (Nat.pos_of_ne_zero some) entry
        (CmqStream.mem_of_consumer? registered).1 free free_lt
      rw [CmqStream.watermark, if_neg (not_le.mpr reads.several)] at passed
      have stays := low free free_lt fun other located => by
        cases located
        exact differs
      omega
  subst none
  refine ⟨messages ++ more, by simpa [step] using moves.inv, kept.2 ▸ reads.several,
    ⟨entry, kept.1, acked_le, ?_⟩, reads.returned_eq, ?_⟩
  · intro part part_lt differs
    refine low part (kept.2 ▸ part_lt) fun first located => differs first ?_
    rw [List.getElem?_append_left (List.getElem?_eq_some_iff.mp located).1]
    exact located
  intro positive
  exact append_ne_nil_of_left_ne_nil (reads.some_got positive) more

lemma Several.returnsEach_iff : ReturnsEach name s ↔ messages = [] := by
  constructor
  · intro each
    by_contra some
    have held := (reads.inv.keeps.held_ne_none_iff (base + 1)).mpr
      ⟨Nat.lt_succ_self _, Nat.add_le_add_left (length_pos_of_ne_nil some) base⟩
    obtain ⟨enough, once⟩ := each.once (base + 1) held
    have twice := once (enough + 2) (Nat.le_add_right _ _)
    rw [(reads.polls some (enough + 2)).returned_eq, count_replicate_self] at twice
    omega
  rintro rfl
  have none : got = 0 := by
    by_contra positive
    exact reads.some_got (Nat.pos_of_ne_zero positive) rfl
  refine ⟨by simp [reads.returned_eq, none], fun seq held => ?_⟩
  have inside := (reads.inv.keeps.held_ne_none_iff seq).mp held
  simp only [length_nil] at inside
  omega

end

/-! ## Runs -/

/-- What holds of a consumer that was registered behind `base` messages. -/
def Reads (name : Bytes) (base : Nat) (s : PollSystem) : Prop :=
  (∃ got dropped messages, Single name base got s dropped messages) ∨
    ∃ got messages, Several name base got s messages

def Own (name : Bytes) : PollEvent → Prop
  | .poll => True
  | .other event => Foreign name event

lemma Reads.step (reads : Reads name base s) {event : PollEvent} (own : Own name event) :
    Reads name base (s.step name event) := by
  cases event with
  | poll =>
    rcases reads with ⟨got, dropped, messages, single⟩ | ⟨got, messages, several⟩
    · left
      by_cases more : base + got < dropped + messages.length
      · exact ⟨_, _, _, single.poll_more more⟩
      refine ⟨got, dropped, messages, ?_⟩
      rw [PollSystem.step, single.poll_none more]
      exact single
    obtain ⟨got', polled⟩ := several.poll
    exact .inr ⟨got', messages, polled⟩
  | other event =>
    rcases reads with ⟨got, dropped, messages, single⟩ | ⟨got, messages, several⟩
    · obtain ⟨dropped', messages', kept⟩ := single.other own
      exact .inl ⟨got, dropped', messages', kept⟩
    obtain ⟨messages', kept⟩ := several.other own
    exact .inr ⟨got, messages', kept⟩

lemma streamAddConsumer_new {stream : CmqStream}
    (fresh : stream.consumer? name = none) (added : (streamAddConsumer stream name).2 = true) :
    (streamAddConsumer stream name).1 = { stream with
      consumers := stream.consumers ++
        [initParts ⟨name, 0, Vector.replicate cmqStreamMaxParts 0⟩
          (if stream.store.firstSeq > 0 then stream.store.firstSeq - 1 else 0)] } := by
  simp only [streamAddConsumer, fresh, Option.isSome_none, if_neg Bool.false_ne_true] at added ⊢
  split at added
  · cases added
  next valid =>
  split at added
  · cases added
  next room => rw [if_neg valid, if_neg room]

lemma reads_registered {system : StreamSystem} (inv : system.Inv dropped messages)
    (fresh : system.stream.consumer? name = none)
    (added : (streamAddConsumer system.stream name).2 = true) :
    Reads name dropped ⟨system.step (.addConsumer name), []⟩ := by
  have stepped := inv_addConsumer inv name
  simp only [StreamSystem.step, streamAddConsumer_new fresh added] at stepped ⊢
  generalize starts : (if system.stream.store.firstSeq > 0 then
    system.stream.store.firstSeq - 1 else 0) = start at stepped ⊢
  have start_le : start ≤ dropped := by
    rw [← starts, inv.keeps.firstSeq_eq]
    split <;> split <;> omega
  have entry : CmqStream.consumer? { system.stream with
      consumers := system.stream.consumers ++
        [initParts ⟨name, 0, Vector.replicate cmqStreamMaxParts 0⟩ start] } name =
      some (initParts ⟨name, 0, Vector.replicate cmqStreamMaxParts 0⟩ start) := by
    unfold CmqStream.consumer? at fresh ⊢
    rw [find?_append, fresh]
    simp [initParts]
  by_cases single : system.stream.nparts ≤ 1
  · refine .inl ⟨0, dropped, messages, stepped, single, ⟨_, entry, start_le, by simp⟩, rfl,
      le_refl _, le_refl _, Nat.le_add_right _ _⟩
  refine .inr ⟨0, messages, stepped, not_le.mp single, ⟨_, entry, start_le, ?_⟩, rfl, by simp⟩
  exact fun _ _ _ => le_trans (acked_initParts_le _ _ _) start_le

lemma Reads.returnsEach_iff (reads : Reads name base s) :
    ReturnsEach name s ↔ s.system.stream.nparts ≤ 1 ∨ s.system.stream.store.count = 0 := by
  rcases reads with ⟨got, _, messages, single⟩ | ⟨got, messages, several⟩
  · exact iff_of_true single.returnsEach (.inl single.single)
  rw [several.returnsEach_iff, several.inv.keeps.store.count_eq]
  have parts := several.several
  simp [not_le.mpr parts]

/-- A consumer is registered in a state that a run of the stream reaches.  Whatever the others
do, it gets each message once and in order if and only if the stream has one partition or no
message. -/
theorem polls_return_each_iff {created : CmqStream} {stream : Bytes} {maxMsgs maxBytes : Nat}
    (creates : cmqStreamCreate stream maxMsgs maxBytes = some created)
    (history : List StreamEvent) (name : Bytes)
    (fresh : (run created history).stream.consumer? name = none)
    (added : (streamAddConsumer (run created history).stream name).2 = true)
    (events : List PollEvent) (own : ∀ event ∈ events, Own name event) :
    let registered := (run created history).step (.addConsumer name)
    let s := events.foldl (step name) ⟨registered, []⟩
    ReturnsEach name s ↔ s.system.stream.nparts ≤ 1 ∨ s.system.stream.store.count = 0 := by
  obtain ⟨_, _, counted⟩ := counted_run creates history
  have reads := reads_registered counted.toInv fresh added
  simp only
  generalize (⟨(run created history).step (.addConsumer name), []⟩ : PollSystem) = s
    at reads
  induction events generalizing s with
  | nil => exact reads.returnsEach_iff
  | cons event events ih =>
    rw [forall_mem_cons] at own
    exact ih own.2 _ (reads.step own.1)

/-- One partition: a consumer that reads while another message is appended. -/
theorem polls_return_each_iff_single :
    let created : CmqStream := ⟨⟨[.zeroed, .zeroed], 1, 0⟩, [], 2, 0, 0, 1, []⟩
    let registered := (run created [.append 1 [5]]).step (.addConsumer [97])
    let s := [PollEvent.poll, .other (.append 2 [6])].foldl (step [97]) ⟨registered, []⟩
    ReturnsEach [97] s ↔ s.system.stream.nparts ≤ 1 ∨ s.system.stream.store.count = 0 := by
  intro created
  have creates : cmqStreamCreate [115] 2 0 = some created := by decide
  exact polls_return_each_iff creates [.append 1 [5]] [97] (by decide) (by decide) _
    (by simp [Own, Foreign])

/-- With two partitions the consumer gets the first message twice. -/
theorem polls_return_twice :
    ∃ (created : CmqStream) (history : List StreamEvent),
      cmqStreamCreate [115] 2 0 = some created ∧
        (run created history).stream.consumer? [97] = none ∧
        (let registered := (run created history).step (.addConsumer [97])
          let s := [PollEvent.poll, .poll].foldl (step [97]) ⟨registered, []⟩
          s.system.stream.nparts = 2 ∧ s.returned = [1, 1] ∧ ¬ ReturnsEach [97] s) := by
  refine ⟨⟨⟨[.zeroed, .zeroed], 1, 0⟩, [], 2, 0, 0, 1, []⟩, [.setPartitions 2, .append 1 [5]],
    by decide, by decide, by decide, by decide, fun each => ?_⟩
  exact absurd each.increasing (by decide)

end PollSystem

end CMsgQueue.Store
