import Mathlib.Data.List.Nodup
import Mathlib.Order.MinMax
import CMsgQueue.Lib.Runs
import CMsgQueue.Store.StreamSpec

/-!
# Runs of a stream

A watermark covers a message only through an acknowledgement in its partition, so what an append
evicts was acknowledged by every consumer.
-/

namespace CMsgQueue.Store

open ConsumerEntry Option List RingBuffer

/-- Calls on a stream. -/
inductive StreamEvent where
  | addConsumer (name : Bytes)
  | removeConsumer (name : Bytes)
  | setPartitions (n : Nat)
  | append (nowMs : Nat) (data : Bytes)
  | appendKey (nowMs : Nat) (key data : Bytes)
  | next (name : Bytes)
  | ack (name : Bytes) (seq : Nat)
  | nextPart (name : Bytes) (part : Nat)
  | ackPart (name : Bytes) (part seq : Nat)
  deriving DecidableEq

/-- An acknowledgement that was accepted, with the partition of its message. -/
structure Ack where
  consumer : Bytes
  part : Nat
  seq : Nat
  deriving DecidableEq

/-- A consumer has acknowledged a message, or a later one of its partition. -/
def Acked (acks : List Ack) (consumer : Bytes) (part seq : Nat) : Prop :=
  ∃ ack ∈ acks, ack.consumer = consumer ∧ ack.part = part ∧ seq ≤ ack.seq

variable {part seq : Nat} {stream : CmqStream} {change : ConsumerEntry → ConsumerEntry}

lemma Acked.mono
    (acked : Acked acks consumer part seq) : Acked (acks ++ more) consumer part seq := by
  obtain ⟨ack, member, facts⟩ := acked
  exact ⟨ack, mem_append_left _ member, facts⟩

/-- A stream, and the acknowledgements of its consumers since they were registered. -/
structure StreamSystem where
  stream : CmqStream
  acks : List Ack
  deriving DecidableEq

namespace StreamSystem

def acknowledge (s : StreamSystem) (result : CmqStream × Bool) (ack : Ack) : StreamSystem :=
  ⟨result.1, if result.2 then s.acks ++ [ack] else s.acks⟩

def step (s : StreamSystem) : StreamEvent → StreamSystem
  | .addConsumer name => { s with stream := (streamAddConsumer s.stream name).1 }
  | .removeConsumer name =>
    ⟨(streamRemoveConsumer s.stream name).1, s.acks.filter fun ack => ack.consumer != name⟩
  | .setPartitions n => { s with stream := (cmqStreamSetPartitions s.stream n).1 }
  | .append nowMs data => { s with stream := (cmqStreamAppend s.stream nowMs data).1 }
  | .appendKey nowMs key data => { s with stream := (cmqStreamAppendKey s.stream nowMs key data).1 }
  | .next _ => s
  | .ack name seq =>
    s.acknowledge (streamConsumerAck s.stream name seq) ⟨name, s.stream.partAt seq, seq⟩
  | .nextPart _ _ => s
  | .ackPart name part seq =>
    s.acknowledge (streamConsumerAckPart s.stream name part seq) ⟨name, part, seq⟩

def run (created : CmqStream) (events : List StreamEvent) : StreamSystem :=
  events.foldl step ⟨created, []⟩

/-- The messages below the watermarks were acknowledged, and no watermark is ahead of the
stream. -/
structure Inv (s : StreamSystem) (dropped : Nat) (messages : List StreamMessage) : Prop where
  keeps : s.stream.Keeps dropped messages
  names : (s.stream.consumers.map name).Nodup
  ackedSeq_le : ∀ entry ∈ s.stream.consumers, entry.ackedSeq ≤ dropped + messages.length
  acked_le : ∀ entry ∈ s.stream.consumers, ∀ part, entry.acked part ≤ dropped + messages.length
  acked : ∀ entry ∈ s.stream.consumers, ∀ i message, messages[i]? = some message →
    dropped + i + 1 ≤ s.stream.watermark entry message.part →
      Acked s.acks entry.name message.part (dropped + i + 1)

end StreamSystem

/-! ## Entries of consumers -/

namespace ConsumerEntry

variable (entry : ConsumerEntry)
include entry

@[simp] lemma acked_raise (seq part : Nat) : (entry.raise seq).acked part = entry.acked part := by
  unfold raise
  split <;> rfl

@[simp] lemma acked_syncAcked (nparts part : Nat) :
    (entry.syncAcked nparts).acked part = entry.acked part := by
  unfold syncAcked
  split <;> rfl

@[simp] lemma name_raise (seq : Nat) : (entry.raise seq).name = entry.name := by
  unfold raise
  split <;> rfl

@[simp] lemma name_raisePart (part seq : Nat) : (entry.raisePart part seq).name = entry.name := by
  unfold raisePart
  split <;> rfl

@[simp] lemma name_syncAcked (nparts : Nat) : (entry.syncAcked nparts).name = entry.name := by
  unfold syncAcked
  split <;> rfl

lemma ackedSeq_raise (seq : Nat) : (entry.raise seq).ackedSeq = max entry.ackedSeq seq := by
  unfold raise
  split
  next more => exact (max_eq_right (le_of_lt more)).symm
  next less => exact (max_eq_left (not_lt.mp less)).symm

lemma acked_raisePart (seq other : Nat) (inside : part < cmqStreamMaxParts) :
    (entry.raisePart part seq).acked other =
      if other = part then max (entry.acked part) seq else entry.acked other := by
  unfold raisePart
  split
  next more =>
    by_cases same : other = part
    · rw [max_eq_right (le_of_lt more), same]
      simp [acked, inside]
    rw [if_neg same]
    simp [acked, Vector.getElem?_setIfInBounds_ne (Ne.symm same)]
  next less =>
  by_cases same : other = part
  · rw [if_pos same, same, max_eq_left (not_lt.mp less)]
  rw [if_neg same]

@[simp] lemma acked_initParts (seq : Nat) (inside : part < cmqStreamMaxParts) :
    (entry.initParts seq).acked part = seq := by
  simp [acked, initParts, inside]

lemma acked_initParts_le (seq part : Nat) : (entry.initParts seq).acked part ≤ seq := by
  by_cases inside : part < cmqStreamMaxParts
  · rw [acked_initParts entry seq inside]
  simp [acked, inside]

lemma ackedSeq_syncAcked (several : 1 < nparts) :
    (entry.syncAcked nparts).ackedSeq = (entry.syncAcked nparts).lowest nparts := by
  simp only [lowest, acked_syncAcked]
  rw [syncAcked, if_neg (not_le.mpr several), lowest]

lemma lowest_le (part_lt : part < nparts) : entry.lowest nparts ≤ entry.acked part := by
  by_contra above
  have lower := ((lt_foldl_lower _ _ _ _).mp (not_le.mp above)).2 part
    (mem_range.mpr part_lt)
  exact lt_irrefl _ lower

end ConsumerEntry

namespace CmqStream

lemma mem_updateConsumer {name : Bytes} {entry : ConsumerEntry}
    (member : entry ∈ (stream.updateConsumer name change).consumers) :
    entry ∈ stream.consumers ∨ ∃ old ∈ stream.consumers, old.name = name ∧ entry = change old := by
  obtain ⟨i, located⟩ := mem_iff_getElem?.mp member
  simp only [updateConsumer, getElem?_modify] at located
  obtain ⟨old, oldLocated, rfl⟩ := map_eq_some_iff.mp located
  have oldMember := mem_of_getElem? oldLocated
  split
  next found =>
    refine .inr ⟨old, oldMember, ?_, rfl⟩
    obtain ⟨inside, rfl⟩ := List.getElem?_eq_some_iff.mp oldLocated
    subst found
    exact beq_iff_eq.mp (findIdx_getElem (w := inside))
  exact .inl oldMember

lemma names_updateConsumer (stream : CmqStream) (name : Bytes)
    (keeps : ∀ entry, (change entry).name = entry.name) :
    (stream.updateConsumer name change).consumers.map ConsumerEntry.name =
      stream.consumers.map ConsumerEntry.name := by
  refine ext_getElem? fun i => ?_
  simp only [updateConsumer, getElem?_map, getElem?_modify]
  cases stream.consumers[i]? with
  | none => rfl
  | some entry =>
    simp only [Option.map_eq_map, Option.map_some, Option.some.injEq]
    split
    · exact keeps entry
    rfl

lemma nodup_concat (names : (stream.consumers.map ConsumerEntry.name).Nodup) {name : Bytes}
    (absent : ¬ (stream.consumer? name).isSome) {added : ConsumerEntry}
    (named : added.name = name) : ((stream.consumers ++ [added]).map ConsumerEntry.name).Nodup := by
  rw [map_append, map_singleton, ← concat_eq_append, List.nodup_concat, List.mem_map]
  refine ⟨?_, names⟩
  rintro ⟨entry, member, same⟩
  refine absent (find?_isSome.mpr ⟨entry, member, ?_⟩)
  rw [same, named]
  exact beq_self_eq_true name

lemma Keeps.of_consumers (keeps : stream.Keeps dropped messages)
    (consumers : List ConsumerEntry) :
    Keeps { stream with consumers } dropped messages :=
  { keeps with }

end CmqStream

/-! ## Acknowledgements -/

/-- A change of an entry that raises no watermark but that of one partition, and that one at
most to `seq`. -/
structure Raises (stream : CmqStream) (part seq : Nat) (change : ConsumerEntry → ConsumerEntry) :
    Prop where
  name_eq : ∀ entry, (change entry).name = entry.name
  ackedSeq_le : ∀ entry bound, seq ≤ bound → entry.ackedSeq ≤ bound →
    (∀ other, entry.acked other ≤ bound) → (change entry).ackedSeq ≤ bound
  acked_le : ∀ entry other, (change entry).acked other ≤ max (entry.acked other) seq
  watermark : ∀ entry other reached, other < stream.nparts →
    reached ≤ stream.watermark (change entry) other →
      reached ≤ stream.watermark entry other ∨ other = part ∧ reached ≤ seq

lemma ackPartEntry_raises (seq : Nat) (nparts_le : stream.nparts ≤ cmqStreamMaxParts)
    (part_lt : part < stream.nparts) : Raises stream part seq (ackPartEntry stream part seq) := by
  have inside : part < cmqStreamMaxParts := lt_of_lt_of_le part_lt nparts_le
  unfold ackPartEntry
  by_cases several : stream.nparts > 1
  · simp only [if_pos several]
    refine ⟨by simp, ?_, ?_, ?_⟩
    · intro entry bound seq_le _ acked_le
      unfold syncAcked
      rw [if_neg (by omega)]
      refine le_trans (lowest_le _ part_lt) ?_
      rw [acked_raisePart _ _ _ inside]
      split
      · exact Nat.max_le.mpr ⟨acked_le _, seq_le⟩
      exact acked_le _
    · intro entry other
      rw [acked_syncAcked, acked_raisePart _ _ _ inside]
      split
      next same => rw [same]
      exact le_max_left _ _
    intro entry other reached _ le
    unfold CmqStream.watermark at le ⊢
    rw [if_neg (by omega)] at le ⊢
    rw [acked_syncAcked, acked_raisePart _ _ _ inside] at le
    split at le
    next same =>
      rcases le_max_iff.mp le with old | new
      · exact .inl (same ▸ old)
      exact .inr ⟨same, new⟩
    exact .inl le
  simp only [if_neg several]
  refine ⟨by simp, ?_, ?_, ?_⟩
  · intro entry bound seq_le ackedSeq_le _
    rw [ackedSeq_raise]
    exact Nat.max_le.mpr ⟨ackedSeq_le, seq_le⟩
  · intro entry other
    rw [acked_raise]
    exact le_max_left _ _
  intro entry other reached _ le
  unfold CmqStream.watermark at le ⊢
  rw [if_pos (by omega)] at le ⊢
  rw [ackedSeq_raise] at le
  rcases le_max_iff.mp le with old | new
  · exact .inl old
  exact .inr ⟨by omega, new⟩

lemma name_ackEntry (stream : CmqStream) (seq : Nat) (entry : ConsumerEntry) :
    (ackEntry stream seq entry).name = entry.name := by
  simp only [ackEntry]
  split
  · split <;> simp
  simp

lemma ackEntry_raises (seq : Nat) (nparts_le : stream.nparts ≤ cmqStreamMaxParts)
    (part_lt : stream.partAt seq < stream.nparts) :
    Raises stream (stream.partAt seq) seq (ackEntry stream seq) := by
  have parts := ackPartEntry_raises seq nparts_le part_lt
  by_cases several : stream.nparts > 1
  · have same : ackEntry stream seq =
        fun entry => ackPartEntry stream (stream.partAt seq) seq (entry.raise seq) := by
      funext entry
      simp only [ackEntry, ackPartEntry, if_pos several, if_pos part_lt]
    rw [same]
    refine ⟨fun entry => by rw [parts.name_eq, name_raise], ?_, ?_, ?_⟩
    · intro entry bound seq_le ackedSeq_le acked_le
      refine parts.ackedSeq_le _ bound seq_le ?_ (by simpa using acked_le)
      rw [ackedSeq_raise]
      exact Nat.max_le.mpr ⟨ackedSeq_le, seq_le⟩
    · intro entry other
      simpa using parts.acked_le (entry.raise seq) other
    intro entry other reached other_lt le
    have raised := parts.watermark (entry.raise seq) other reached other_lt le
    simpa [CmqStream.watermark, if_neg (not_le.mpr several)] using raised
  have same : ackEntry stream seq = ackPartEntry stream (stream.partAt seq) seq := by
    funext entry
    simp only [ackEntry, ackPartEntry, if_neg several]
  rw [same]
  exact parts

namespace StreamSystem

variable {s : StreamSystem} {dropped : Nat} {messages : List StreamMessage}

variable {name : Bytes}

lemma name_ne_of_mem_eraseP {consumers : List ConsumerEntry}
    (names : (consumers.map ConsumerEntry.name).Nodup) {entry : ConsumerEntry}
    (kept : entry ∈ consumers.eraseP fun entry => entry.name == name) : entry.name ≠ name := by
  induction consumers with
  | nil => cases kept
  | cons _ consumers ih =>
    rw [map_cons, nodup_cons] at names
    rw [eraseP_cons, cond_eq_ite] at kept
    split at kept
    next found =>
      rw [← beq_iff_eq.mp found]
      exact fun same => names.1 (same ▸ mem_map_of_mem kept)
    next other =>
    rcases mem_cons.mp kept with rfl | later
    · exact fun same => other (beq_iff_eq.mpr same)
    exact ih names.2 later

lemma inv_repartition (inv : Inv s dropped []) (nparts_pos : 1 ≤ nparts)
    (nparts_le : nparts ≤ cmqStreamMaxParts)
    (cells : 1 < nparts → msgPart.length = s.stream.maxMsgs) :
    Inv ⟨{ s.stream with
      nparts, msgPart
      consumers := s.stream.consumers.map fun entry => entry.initParts entry.ackedSeq }, s.acks⟩
      dropped [] := by
  refine ⟨⟨inv.keeps.store, nparts_pos, nparts_le, by simp, fun several => ?_⟩, ?_, ?_, ?_, ?_⟩
  · exact ⟨cells several, Window.nil _ _⟩
  · simpa [initParts, Function.comp_def] using inv.names
  · intro entry member
    obtain ⟨old, oldMember, rfl⟩ := mem_map.mp member
    exact inv.ackedSeq_le old oldMember
  · intro entry member part
    obtain ⟨old, oldMember, rfl⟩ := mem_map.mp member
    exact le_trans (acked_initParts_le _ _ part) (inv.ackedSeq_le old oldMember)
  intro entry member i _ located
  cases located

/-- The same messages, bytes and limit. -/
structure SameRing (stream other : CmqStream) : Prop where
  store : other.store = stream.store
  maxBytes : other.maxBytes = stream.maxBytes
  totalBytes : other.totalBytes = stream.totalBytes

/-- What a step leaves of the messages.  Those it drops are below every watermark. -/
structure Moves (s s' : StreamSystem) (dropped : Nat) (messages : List StreamMessage)
    (count : Nat) (more : List StreamMessage) : Prop where
  inv : Inv s' (dropped + count) (messages.drop count ++ more)
  count_le : count ≤ messages.length
  passed : ∀ i, i < count → ∀ entry ∈ s.stream.consumers, ∀ part, part < s.stream.nparts →
    dropped + i + 1 ≤ s.stream.watermark entry part

lemma Inv.moves (inv : Inv s' dropped messages) :
    ∃ count more, Moves s s' dropped messages count more :=
  ⟨0, [], by simpa using inv, Nat.zero_le _, by simp⟩

lemma keyPart_lt (key : Bytes) (positive : 1 ≤ nparts) :
    (if nparts > 1 then cmqStreamPartitionOf key nparts else 0) < nparts := by
  split
  · unfold cmqStreamPartitionOf
    split
    · exact positive
    exact Nat.mod_lt _ positive
  exact positive

section

variable (inv : Inv s dropped messages)
include inv

lemma Inv.acknowledge (raises : Raises s.stream part seq change)
    (seq_le : seq ≤ dropped + messages.length) :
    Inv ⟨s.stream.updateConsumer name change, s.acks ++ [⟨name, part, seq⟩]⟩ dropped messages := by
  refine ⟨inv.keeps.of_consumers _, ?_, ?_, ?_, ?_⟩
  · rw [CmqStream.names_updateConsumer _ _ raises.name_eq]
    exact inv.names
  · intro entry member
    rcases CmqStream.mem_updateConsumer member with old | ⟨old, oldMember, -, rfl⟩
    · exact inv.ackedSeq_le entry old
    exact raises.ackedSeq_le old _ seq_le (inv.ackedSeq_le old oldMember)
      (inv.acked_le old oldMember)
  · intro entry member other
    rcases CmqStream.mem_updateConsumer member with old | ⟨old, oldMember, -, rfl⟩
    · exact inv.acked_le entry old other
    exact le_trans (raises.acked_le old other)
      (Nat.max_le.mpr ⟨inv.acked_le old oldMember other, seq_le⟩)
  intro entry member i message located le
  rcases CmqStream.mem_updateConsumer member with old | ⟨old, oldMember, named, rfl⟩
  · exact (inv.acked entry old i message located le).mono
  have part_lt := inv.keeps.part_lt message (mem_of_getElem? located)
  rw [raises.name_eq]
  rcases raises.watermark old message.part _ part_lt le with before | ⟨samePart, reached⟩
  · exact (inv.acked old oldMember i message located before).mono
  exact ⟨⟨name, part, seq⟩, by simp, named.symm, samePart.symm, reached⟩

lemma Inv.inside (checked : ackInside s.stream seq ≠ false) :
    dropped < seq ∧ seq ≤ dropped + messages.length := by
  simp only [ackInside, inv.keeps.firstSeq_eq, inv.keeps.lastSeq_eq] at checked
  cases messages with
  | nil => simp at checked
  | cons _ messages =>
    simp at checked
    simp only [length_cons]
    omega

lemma Inv.partAt_lt (kept : dropped < seq) (last : seq ≤ dropped + messages.length) :
    s.stream.partAt seq < s.stream.nparts := by
  obtain ⟨i, rfl⟩ := Nat.exists_eq_add_of_lt kept
  have bound : i < messages.length := by omega
  rw [inv.keeps.partAt_eq (getElem?_eq_getElem bound)]
  exact inv.keeps.part_lt _ (getElem_mem bound)

lemma inv_ack (name : Bytes) (seq : Nat) : Inv (s.step (.ack name seq)) dropped messages := by
  simp only [step, streamConsumerAck, StreamSystem.acknowledge]
  split
  · simpa using inv
  next accepted =>
  have inside := inv.inside (not_or.mp accepted).1
  simpa using inv.acknowledge
    (ackEntry_raises seq inv.keeps.nparts_le (inv.partAt_lt inside.1 inside.2)) inside.2

lemma inv_ackPart (name : Bytes) (part seq : Nat) :
    Inv (s.step (.ackPart name part seq)) dropped messages := by
  simp only [step, streamConsumerAckPart, StreamSystem.acknowledge]
  split
  · simpa using inv
  next accepted =>
  simp only [not_or] at accepted
  have inside := inv.inside accepted.2.1
  simpa using inv.acknowledge
    (ackPartEntry_raises seq inv.keeps.nparts_le (not_le.mp accepted.1)) inside.2

/-! ## The other steps -/

lemma inv_addConsumer (name : Bytes) : Inv (s.step (.addConsumer name)) dropped messages := by
  simp only [step, streamAddConsumer]
  split
  · exact inv
  split
  · exact inv
  next absent =>
  split
  · exact inv
  generalize starts : (if s.stream.store.firstSeq > 0 then s.stream.store.firstSeq - 1 else 0) =
    start
  have start_le : start ≤ dropped := by
    rw [← starts, inv.keeps.firstSeq_eq]
    split <;> split <;> omega
  refine ⟨inv.keeps.of_consumers _, ?_, ?_, ?_, ?_⟩
  · exact CmqStream.nodup_concat inv.names absent rfl
  · exact forall_mem_append.mpr ⟨inv.ackedSeq_le, forall_mem_singleton.mpr
      (le_trans start_le (Nat.le_add_right _ _))⟩
  · exact forall_mem_append.mpr ⟨inv.acked_le, forall_mem_singleton.mpr fun part =>
      le_trans (acked_initParts_le _ _ part) (le_trans start_le (Nat.le_add_right _ _))⟩
  refine forall_mem_append.mpr ⟨inv.acked, forall_mem_singleton.mpr ?_⟩
  intro i _ _ reached
  unfold CmqStream.watermark at reached
  split at reached
  · exact absurd (le_trans reached start_le) (by omega)
  have low := le_trans reached (acked_initParts_le _ _ _)
  omega

lemma inv_removeConsumer (name : Bytes) :
    Inv (s.step (.removeConsumer name)) dropped messages := by
  simp only [step, streamRemoveConsumer]
  -- The acknowledgements of the others stay.
  have others : ∀ entry ∈ s.stream.consumers, entry.name ≠ name →
      ∀ i message, messages[i]? = some message →
        dropped + i + 1 ≤ s.stream.watermark entry message.part →
          Acked (s.acks.filter fun ack => ack.consumer != name) entry.name message.part
            (dropped + i + 1) := by
    intro entry member other i message located reached
    obtain ⟨ack, ackMember, by_entry, facts⟩ := inv.acked entry member i message located reached
    refine ⟨ack, mem_filter.mpr ⟨ackMember, bne_iff_ne.mpr ?_⟩, by_entry, facts⟩
    rw [by_entry]
    exact other
  split
  next =>
    have sub := eraseP_sublist (p := fun entry => entry.name == name)
      (l := s.stream.consumers)
    refine ⟨inv.keeps.of_consumers _, inv.names.sublist (sub.map _), ?_, ?_, ?_⟩
    · exact fun entry kept => inv.ackedSeq_le entry (sub.mem kept)
    · exact fun entry kept => inv.acked_le entry (sub.mem kept)
    intro entry kept
    exact others entry (sub.mem kept) (name_ne_of_mem_eraseP inv.names kept)
  next absent =>
  refine ⟨inv.keeps, inv.names, inv.ackedSeq_le, inv.acked_le, fun entry member => ?_⟩
  refine others entry member fun same => absent (find?_isSome.mpr ⟨entry, member, ?_⟩)
  rw [same]
  exact beq_self_eq_true name

lemma inv_setPartitions (n : Nat) : Inv (s.step (.setPartitions n)) dropped messages := by
  simp only [step, cmqStreamSetPartitions, partsAlloc]
  split
  · exact inv
  next =>
  split
  · exact inv
  next =>
  split
  · exact inv
  next empty =>
  -- The stream is empty, so there is no message that a watermark could cover.
  have none : messages = [] := by
    by_contra some
    rw [inv.keeps.lastSeq_eq, if_neg some] at empty
    exact some (eq_nil_of_length_eq_zero (by omega))
  subst none
  have least : 1 ≤ n := by omega
  have most : n ≤ cmqStreamMaxParts := by omega
  by_cases single : n = 1
  · rw [if_pos single]
    exact inv_repartition inv (le_refl 1) (single ▸ most) (by simp)
  rw [if_neg single]
  exact inv_repartition inv least most (by simp)

/-- Messages are dropped from the front and added at the end, where no watermark reaches. -/
lemma Inv.move (same : SameConsumers s.stream stream) {count : Nat}
    (count_le : count ≤ messages.length) {more : List StreamMessage}
    (keeps : stream.Keeps (dropped + count) (messages.drop count ++ more)) :
    Inv ⟨stream, s.acks⟩ (dropped + count) (messages.drop count ++ more) := by
  have grown : dropped + messages.length ≤
      dropped + count + (messages.drop count ++ more).length := by
    rw [length_append, length_drop]
    omega
  refine ⟨keeps, by simpa [same.consumers] using inv.names, ?_, ?_, ?_⟩
  · intro entry member
    exact le_trans (inv.ackedSeq_le entry (same.consumers ▸ member)) grown
  · intro entry member part
    exact le_trans (inv.acked_le entry (same.consumers ▸ member) part) grown
  intro entry member i message located reached
  have oldMember : entry ∈ s.stream.consumers := same.consumers ▸ member
  have watermark : stream.watermark entry message.part =
      s.stream.watermark entry message.part := by
    simp only [CmqStream.watermark, same.nparts]
  rw [show dropped + count + i + 1 = dropped + (count + i) + 1 by omega] at reached ⊢
  rw [watermark] at reached
  by_cases old : i < (messages.drop count).length
  · rw [getElem?_append_left old, getElem?_drop] at located
    exact inv.acked entry oldMember (count + i) message located reached
  have behind : s.stream.watermark entry message.part ≤ dropped + messages.length := by
    unfold CmqStream.watermark
    split
    · exact inv.ackedSeq_le entry oldMember
    exact inv.acked_le entry oldMember _
  rw [length_drop] at old
  omega

lemma append_moves (nowMs : Nat) (data : Bytes) (part_lt : part < s.stream.nparts) :
    ∃ count more, Moves s { s with stream := (streamAppend s.stream nowMs data part).1 } dropped
      messages count more := by
  obtain ⟨count, same, count_le, below, outcome⟩ :=
    streamAppend_appended inv.keeps nowMs data part_lt
  have passed : ∀ i, i < count → ∀ entry ∈ s.stream.consumers, ∀ part, part < s.stream.nparts →
      dropped + i + 1 ≤ s.stream.watermark entry part := by
    intro i less entry member part inside
    have kept : s.stream.store.firstSeq ≤ dropped + i + 1 := by
      rw [inv.keeps.firstSeq_eq]
      split <;> omega
    exact le_watermark_of_lt_retainFloor (below i less) kept member inside
  rcases outcome with ⟨-, keeps⟩ | ⟨-, keeps⟩
  · exact ⟨count, [], inv.move same count_le (by simpa using keeps), count_le, passed⟩
  exact ⟨count, _, inv.move same count_le keeps, count_le, passed⟩

lemma step_cases (event : StreamEvent) :
    (SameRing s.stream (s.step event).stream ∧ Inv (s.step event) dropped messages) ∨
    ∃ nowMs data part, part < s.stream.nparts ∧
      s.step event = { s with stream := (streamAppend s.stream nowMs data part).1 } := by
  have several := inv.keeps.nparts_pos
  cases event with
  | addConsumer name =>
    refine .inl ⟨?_, inv_addConsumer inv name⟩
    dsimp only [step, streamAddConsumer]
    split_ifs <;> exact ⟨rfl, rfl, rfl⟩
  | removeConsumer name =>
    refine .inl ⟨?_, inv_removeConsumer inv name⟩
    dsimp only [step, streamRemoveConsumer]
    split <;> exact ⟨rfl, rfl, rfl⟩
  | setPartitions n =>
    refine .inl ⟨?_, inv_setPartitions inv n⟩
    dsimp only [step, cmqStreamSetPartitions, partsAlloc]
    split_ifs <;> exact ⟨rfl, rfl, rfl⟩
  | append nowMs data => exact .inr ⟨nowMs, data, 0, several, rfl⟩
  | appendKey nowMs key data =>
    by_cases keyed : key.length = 0
    · have same : s.step (.appendKey nowMs key data) = s := by
        rw [step, cmqStreamAppendKey, if_pos keyed]
      rw [same]
      exact .inl ⟨⟨rfl, rfl, rfl⟩, inv⟩
    refine .inr ⟨nowMs, data, _, keyPart_lt key several, ?_⟩
    rw [step, cmqStreamAppendKey, if_neg keyed]
  | next name => exact .inl ⟨⟨rfl, rfl, rfl⟩, inv⟩
  | ack name seq =>
    refine .inl ⟨?_, inv_ack inv name seq⟩
    dsimp only [step, acknowledge, streamConsumerAck]
    split <;> exact ⟨rfl, rfl, rfl⟩
  | nextPart name part => exact .inl ⟨⟨rfl, rfl, rfl⟩, inv⟩
  | ackPart name part seq =>
    refine .inl ⟨?_, inv_ackPart inv name part seq⟩
    dsimp only [step, acknowledge, streamConsumerAckPart]
    split <;> exact ⟨rfl, rfl, rfl⟩

lemma step_moves (event : StreamEvent) :
    ∃ count more, Moves s (s.step event) dropped messages count more := by
  rcases step_cases inv event with ⟨-, after⟩ | ⟨nowMs, data, _, part_lt, appends⟩
  · exact after.moves
  rw [appends]
  exact append_moves inv nowMs data part_lt

end

lemma inv_create
    (creates : cmqStreamCreate name maxMsgs maxBytes = some created) : Inv ⟨created, []⟩ 0 [] := by
  simp only [cmqStreamCreate, ite_none_left_eq_some, map_eq_some_iff] at creates
  obtain ⟨-, _, stored, rfl⟩ := creates
  have keeps := cmqStoreCreate_keeps stored
  rw [if_neg (by split <;> omega)] at keeps
  have fits : 1 ≤ cmqStreamMaxParts := by decide
  exact ⟨⟨keeps, le_refl 1, fits, by simp, by simp⟩, by simp, by simp, by simp, by simp⟩

/-- What holds of the bytes and the numbers in a state of a run. -/
structure Counted (s : StreamSystem) (maxBytes : Nat) (dropped : Nat)
    (messages : List StreamMessage) : Prop extends Inv s dropped messages where
  maxBytes_eq : s.stream.maxBytes = maxBytes
  small : s.stream.store.headSeq ≤ uint64Max
  accounts : 0 < maxBytes → Accounts s.stream messages

lemma Counted.step (counted : Counted s maxBytes dropped messages) (event : StreamEvent) :
    ∃ dropped messages, Counted (s.step event) maxBytes dropped messages := by
  rcases step_cases counted.toInv event with
    ⟨⟨store, limit, total⟩, inv⟩ | ⟨nowMs, data, part, part_lt, appends⟩
  · refine ⟨dropped, messages, inv, limit.trans counted.maxBytes_eq, store ▸ counted.small,
      fun limited => ?_⟩
    have accounts := counted.accounts limited
    exact ⟨total.trans accounts.total, by rw [total, limit]; exact accounts.limit⟩
  rw [appends]
  obtain ⟨count, ⟨same, count_le, -, outcome⟩, kept, -, numbers⟩ :=
    streamAppend_bytes counted.keeps nowMs data part_lt
  have small := numbers counted.small
  have limit := same.maxBytes.trans counted.maxBytes_eq
  have accounts : 0 < maxBytes → _ := fun limited =>
    kept (counted.maxBytes_eq ▸ limited) (counted.accounts limited)
  rcases outcome with ⟨refused, keeps⟩ | ⟨_, keeps⟩
  · simp only [if_pos refused] at accounts
    rw [← append_nil (messages.drop count)] at keeps
    exact ⟨_, _, counted.toInv.move same count_le keeps, limit, small, by simpa using accounts⟩
  simp only [if_neg (ne_of_gt (by omega : 0 < (streamAppend s.stream nowMs data part).2))]
    at accounts
  exact ⟨_, _, counted.toInv.move same count_le keeps, limit, small, accounts⟩

lemma counted_run (creates : cmqStreamCreate name maxMsgs maxBytes = some created)
    (events : List StreamEvent) :
    ∃ dropped messages, Counted (run created events) maxBytes dropped messages := by
  have start : Counted ⟨created, []⟩ maxBytes 0 [] := by
    have inv := inv_create creates
    have head := inv.keeps.headSeq_eq
    simp only [cmqStreamCreate, Option.ite_none_left_eq_some, Option.map_eq_some_iff] at creates
    obtain ⟨-, _, -, rfl⟩ := creates
    exact ⟨inv, rfl, head ▸ by decide, fun _ => ⟨rfl, Nat.zero_le _⟩⟩
  have kept : ∀ s, (∃ dropped messages, Counted s maxBytes dropped messages) →
      ∃ dropped messages, Counted (events.foldl step s) maxBytes dropped messages := by
    induction events with
    | nil => exact fun _ counted => counted
    | cons event events ih => exact fun s ⟨_, _, counted⟩ => ih _ (counted.step event)
  exact kept _ ⟨0, [], start⟩

/-- In every state that a run reaches, the next call leaves each message in its place, unless
every consumer has acknowledged it in its partition. -/
theorem run_keeps_unacknowledged {name : Bytes} {maxMsgs maxBytes : Nat} {created : CmqStream}
    (creates : cmqStreamCreate name maxMsgs maxBytes = some created) (events : List StreamEvent)
    (event : StreamEvent) (seq : Nat) (message : StreamMessage)
    (held : (run created events).stream.held seq = some message) :
    ((run created events).step event).stream.held seq = some message ∨
      ∀ entry ∈ (run created events).stream.consumers,
        Acked (run created events).acks entry.name message.part seq := by
  obtain ⟨dropped, _, counted⟩ := counted_run creates events
  have inv := counted.toInv
  obtain ⟨count, _, moves⟩ := step_moves inv event
  rw [inv.keeps.held_eq, ite_none_right_eq_some] at held
  obtain ⟨_, located⟩ := held
  by_cases stays : count ≤ seq - dropped - 1
  · -- The message is behind those that were dropped.
    left
    have inside := (List.getElem?_eq_some_iff.mp located).1
    rw [moves.inv.keeps.held_eq, if_pos (by omega), getElem?_append_left, getElem?_drop, ← located]
    · congr 1
      omega
    rw [length_drop]
    omega
  right
  intro entry member
  have part_lt := inv.keeps.part_lt message (mem_of_getElem? located)
  have passed := moves.passed _ (not_le.mp stays) entry member message.part part_lt
  have acked := inv.acked entry member _ message located passed
  rwa [show dropped + (seq - dropped - 1) + 1 = seq by omega] at acked

/-- A stream for one message refuses the second one until the first is acknowledged. -/
theorem run_keeps_unacknowledged_full :
    let created : CmqStream := ⟨⟨[.zeroed], 1, 0⟩, [], 1, 0, 0, 1, []⟩
    let events : List StreamEvent := [.addConsumer [97], .append 5 [1]]
    ((run created events).step (.append 6 [2])).stream.held 1 = some ⟨[1], 5, 0⟩ ∨
      ∀ entry ∈ (run created events).stream.consumers,
        Acked (run created events).acks entry.name 0 1 := by
  intro created events
  have creates : cmqStreamCreate [115] 1 0 = some created := by decide
  exact run_keeps_unacknowledged creates events (.append 6 [2]) 1 ⟨[1], 5, 0⟩ (by decide)

/-- In no run has a consumer acknowledged more than was appended, in all or in a partition. -/
theorem run_not_ahead (name : Bytes) (maxMsgs maxBytes : Nat) (events : List StreamEvent) :
    match cmqStreamCreate name maxMsgs maxBytes with
    | none => True
    | some created => ∀ entry ∈ (run created events).stream.consumers, ∀ part,
        max entry.ackedSeq (entry.acked part) < (run created events).stream.store.headSeq := by
  split
  · trivial
  next creates =>
  obtain ⟨_, _, counted⟩ := counted_run creates events
  intro entry member part
  have position := counted.ackedSeq_le entry member
  have inPart := counted.acked_le entry member part
  rw [counted.keeps.headSeq_eq]
  omega

end StreamSystem

end CMsgQueue.Store
