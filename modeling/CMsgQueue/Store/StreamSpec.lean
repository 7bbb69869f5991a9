import CMsgQueue.Store.Stream

/-!
# What a stream keeps

The messages of a stream are a window of all that were appended.  An append drops messages
from its front, all of them below the floor of the consumers, and adds the new one at its end
unless it is refused.
-/

namespace CMsgQueue.Store

open List RingBuffer

structure StreamMessage where
  data : Bytes
  timestampMs : Nat
  part : Nat
  deriving DecidableEq

def StreamMessage.stamped (message : StreamMessage) : Stamped := (message.data, message.timestampMs)

def CmqStream.held (stream : CmqStream) (seq : Nat) : Option StreamMessage :=
  (cmqStoreGet stream.store seq).map fun message => ⟨message.1, message.2, stream.partAt seq⟩

/-- The stream keeps `messages`, numbered from `dropped + 1` on. -/
structure CmqStream.Keeps (stream : CmqStream) (dropped : Nat) (messages : List StreamMessage) :
    Prop where
  store : stream.store.Keeps stream.maxMsgs dropped (messages.map StreamMessage.stamped)
  nparts_pos : 1 ≤ stream.nparts
  nparts_le : stream.nparts ≤ cmqStreamMaxParts
  part_lt : ∀ message ∈ messages, message.part < stream.nparts
  /-- With several partitions there is a cell for each slot of the ring. -/
  parts : 1 < stream.nparts → stream.msgPart.length = stream.maxMsgs ∧
    Window stream.msgPart dropped (messages.map StreamMessage.part)

/-- Two streams with the same consumers and limits. -/
structure SameConsumers (stream other : CmqStream) : Prop where
  consumers : other.consumers = stream.consumers
  nparts : other.nparts = stream.nparts
  maxMsgs : other.maxMsgs = stream.maxMsgs
  maxBytes : other.maxBytes = stream.maxBytes

lemma SameConsumers.refl (stream : CmqStream) : SameConsumers stream stream :=
  ⟨rfl, rfl, rfl, rfl⟩

lemma SameConsumers.trans (left : SameConsumers first second)
    (right : SameConsumers second third) : SameConsumers first third :=
  ⟨right.consumers.trans left.consumers, right.nparts.trans left.nparts,
    right.maxMsgs.trans left.maxMsgs, right.maxBytes.trans left.maxBytes⟩

namespace CmqStream.Keeps

variable {stream : CmqStream} {dropped : Nat} {messages : List StreamMessage}

section

variable (keeps : stream.Keeps dropped messages)
include keeps

lemma firstSeq_eq : stream.store.firstSeq = if messages = [] then 0 else dropped + 1 := by
  simpa using keeps.store.firstSeq_eq

lemma lastSeq_eq :
    stream.store.lastSeq = if messages = [] then 0 else dropped + messages.length := by
  simpa using keeps.store.lastSeq_eq

lemma headSeq_eq : stream.store.headSeq = dropped + messages.length + 1 := by
  simpa using keeps.store.headSeq_eq

lemma length_le : messages.length ≤ stream.maxMsgs := by
  simpa using keeps.store.length_le

end

section

variable (keeps : stream.Keeps dropped messages)
include keeps

lemma partAt_eq (located : messages[i]? = some message) :
    stream.partAt (dropped + i + 1) = message.part := by
  have less := keeps.part_lt message (mem_of_getElem? located)
  unfold partAt
  by_cases several : 1 < stream.nparts
  · have cell := (keeps.parts several).2.cell i message.part (by simp [located])
    rw [if_neg (by omega), cell, Option.getD_some]
  rw [if_pos (.inl (by omega))]
  omega

lemma held_eq (seq : Nat) :
    stream.held seq = if dropped < seq then messages[seq - dropped - 1]? else none := by
  unfold held cmqStoreGet
  rw [keeps.store.slot?_eq]
  by_cases kept : dropped < seq
  · rw [if_pos kept, if_pos kept]
    cases located : messages[seq - dropped - 1]? with
    | none => simp [located]
    | some =>
      have part := keeps.partAt_eq located
      rw [show dropped + (seq - dropped - 1) + 1 = seq by omega] at part
      simp [located, part, StreamMessage.stamped]
  rw [if_neg kept, if_neg kept]
  rfl

lemma held_ne_none_iff (seq : Nat) :
    stream.held seq ≠ none ↔ dropped < seq ∧ seq ≤ dropped + messages.length := by
  rw [keeps.held_eq]
  by_cases kept : dropped < seq
  · rw [if_pos kept, ne_eq, List.getElem?_eq_none_iff]
    omega
  simp [kept]

end

lemma cmqStoreSeqLen_eq (keeps : stream.Keeps dropped (message :: messages)) :
    cmqStoreSeqLen stream.store (dropped + 1) = some message.data.length := by
  unfold cmqStoreSeqLen
  rw [keeps.store.slot?_eq]
  simp [StreamMessage.stamped]

lemma evict (keeps : stream.Keeps dropped (message :: messages))
    (totalBytes : Nat) :
    ∃ store, cmqStoreEvictSeq stream.store (dropped + 1) = some store ∧
      Keeps { stream with store, totalBytes } (dropped + 1) messages := by
  obtain ⟨store, evicted, kept⟩ := CmqStore.Keeps.cmqStoreEvictSeq_first keeps.store
  refine ⟨store, evicted, kept, keeps.nparts_pos, keeps.nparts_le, ?_, ?_⟩
  · exact fun other member => keeps.part_lt other (mem_cons_of_mem _ member)
  intro several
  obtain ⟨length, window⟩ := keeps.parts several
  exact ⟨length, Window.tail window⟩

end CmqStream.Keeps

/-! ## Floors -/

lemma lt_foldl_lower {α : Type} (value : α → Nat) (bound start : Nat) (items : List α) :
    bound < items.foldl (fun lowest item => if value item < lowest then value item else lowest)
        start ↔
      bound < start ∧ ∀ item ∈ items, bound < value item := by
  induction items generalizing start with
  | nil => simp
  | cons item items ih =>
    rw [foldl_cons, ih, forall_mem_cons, ← and_assoc]
    refine and_congr_left fun _ => ?_
    split <;> omega

def CmqStream.watermark (stream : CmqStream) (entry : ConsumerEntry) (part : Nat) : Nat :=
  if stream.nparts ≤ 1 then entry.ackedSeq else entry.acked part

lemma le_of_lt_floorOf (below : seq < floorOf first last acked)
    (kept : first ≤ seq) : seq ≤ acked := by
  unfold floorOf at below
  simp only at below
  split at below <;> split at below <;> omega

variable {stream : CmqStream}

/-- A message below the floor is below every consumer's watermark of every partition. -/
lemma le_watermark_of_lt_retainFloor (below : seq < retainFloor stream)
    (kept : stream.store.firstSeq ≤ seq) (member : entry ∈ stream.consumers)
    (part_lt : part < stream.nparts) : seq ≤ stream.watermark entry part := by
  have floor := ((lt_foldl_lower _ _ _ _).mp below).2 entry member
  unfold consumerFloor at floor
  unfold CmqStream.watermark
  split at floor
  next single =>
    rw [if_pos single]
    exact le_of_lt_floorOf floor kept
  next several =>
  rw [if_neg several]
  have lower := ((lt_foldl_lower _ _ _ _).mp floor).2 part (mem_range.mpr part_lt)
  exact le_of_lt_floorOf lower kept

lemma lt_retainFloor (small : seq < uint64Max) (inside : seq ≤ stream.store.lastSeq)
    (past : ∀ entry ∈ stream.consumers, ∀ part < stream.nparts, seq ≤ stream.watermark entry part)
    (positive : 1 ≤ stream.nparts) : seq < retainFloor stream := by
  have above : ∀ first last acked, seq ≤ last → seq ≤ acked → seq < floorOf first last acked := by
    intro first last acked _ _
    simp only [floorOf]
    split <;> split <;> omega
  refine (lt_foldl_lower _ _ _ _).mpr ⟨small, fun entry member => ?_⟩
  have marks := past entry member
  unfold CmqStream.watermark at marks
  unfold consumerFloor
  split
  next single =>
    simp only [if_pos single] at marks
    exact above _ _ _ inside (marks 0 positive)
  next several =>
  simp only [if_neg several] at marks
  refine (lt_foldl_lower _ _ _ _).mpr ⟨small, fun part range => ?_⟩
  exact above _ _ _ inside (marks part (mem_range.mp range))

/-! ## The eviction loop -/

/-- Evictions drop messages below the floor from the front. -/
structure DropsFront (stream other : CmqStream) (floor dropped count : Nat)
    (messages : List StreamMessage) : Prop where
  same : SameConsumers stream other
  count_le : count ≤ messages.length
  below : ∀ i, i < count → dropped + i + 1 < floor
  keeps : other.Keeps (dropped + count) (messages.drop count)

variable {messages : List StreamMessage}

def bytes (messages : List StreamMessage) : Nat :=
  (messages.map fun message => message.data.length).sum

@[simp] lemma bytes_cons (message : StreamMessage) (messages : List StreamMessage) :
    bytes (message :: messages) = message.data.length + bytes messages := rfl

@[simp] lemma bytes_append (front back : List StreamMessage) :
    bytes (front ++ back) = bytes front + bytes back := by simp [bytes]

/-- Evictions for `len` bytes: as many as are needed, and no more. -/
structure Evicts (stream other : CmqStream) (len floor dropped count : Nat)
    (messages : List StreamMessage) : Prop
    extends DropsFront stream other floor dropped count messages where
  total : stream.totalBytes = bytes messages → other.totalBytes = bytes (messages.drop count)
  limited : 0 < count → 0 < stream.maxBytes
  needed : stream.totalBytes = bytes messages → ∀ i < count,
    overBytes { stream with totalBytes := bytes (messages.drop i) } len = true
  stops : 0 < stream.maxBytes →
    overBytes other len = false ∨ count = messages.length ∨ floor ≤ dropped + count + 1

lemma Evicts.none {len floor dropped : Nat} (keeps : stream.Keeps dropped messages)
    (stops : 0 < stream.maxBytes →
      overBytes stream len = false ∨ 0 = messages.length ∨ floor ≤ dropped + 0 + 1) :
    Evicts stream stream len floor dropped 0 messages :=
  ⟨⟨.refl _, Nat.zero_le _, by simp, by simpa using keeps⟩, id, by simp, by simp, stops⟩

lemma evictBytes_evicts (len floor rounds : Nat) (keeps : stream.Keeps dropped messages)
    (first : Nat) (front : messages ≠ [] → first = dropped + 1) (enough : messages.length ≤ rounds)
    (limited : 0 < stream.maxBytes) :
    ∃ count, Evicts stream (evictBytes len floor rounds first stream) len floor dropped count
      messages := by
  -- Each round drops the oldest message, so the messages get shorter with the rounds.
  induction rounds generalizing stream dropped messages first with
  | zero => exact ⟨0, .none keeps fun _ => .inr (.inl (by omega))⟩
  | succ rounds ih =>
    unfold evictBytes
    cases messages with
    | nil =>
      have nothing : cmqStoreSeqLen stream.store first = none := by
        unfold cmqStoreSeqLen
        rw [keeps.store.slot?_eq]
        split <;> rfl
      rw [nothing]
      split <;> exact ⟨0, .none keeps fun _ => .inr (.inl rfl)⟩
    | cons message messages =>
      obtain rfl := front (cons_ne_nil _ _)
      split
      next enough => exact ⟨0, .none keeps fun _ => enough.imp_right .inr⟩
      next goes =>
      obtain ⟨store, evicted, kept⟩ := keeps.evict (stream.totalBytes - message.data.length)
      rw [keeps.cmqStoreSeqLen_eq, evicted]
      obtain ⟨count, ⟨same, count_le, below, rest⟩, total, -, needed, stops⟩ :=
        ih kept (dropped + 1 + 1) (fun _ => rfl) (Nat.le_of_succ_le_succ enough) limited
      have debited : stream.totalBytes = bytes (message :: messages) →
          stream.totalBytes - message.data.length = bytes messages := by
        intro total
        rw [total, bytes_cons, Nat.add_sub_cancel_left]
      have shifted : dropped + (count + 1) = dropped + 1 + count := by omega
      refine ⟨count + 1, ⟨⟨same.1, same.2, same.3, same.4⟩, Nat.succ_le_succ count_le,
        fun i less => ?_, shifted ▸ rest⟩, fun accounted => total (debited accounted),
        fun _ => limited, fun accounted i less => ?_, fun _ => ?_⟩
      · cases i with
        | zero => omega
        | succ i =>
          have bound := below i (by omega)
          omega
      · cases i with
        | zero =>
          rw [drop_zero, ← accounted]
          exact Bool.not_eq_false _ ▸ (not_or.mp goes).1
        | succ i => exact needed (debited accounted) i (Nat.lt_of_succ_lt_succ less)
      rw [shifted, length_cons, Nat.add_right_cancel_iff]
      exact stops limited

lemma makeRoom_evicts (keeps : stream.Keeps dropped messages) (len floor : Nat) :
    ∃ count, Evicts stream (makeRoom stream len floor).1 len floor dropped count messages ∧
        ((makeRoom stream len floor).2 = true ↔
          stream.maxBytes = 0 ∨ overBytes (makeRoom stream len floor).1 len = false) := by
  unfold makeRoom
  split
  next limited =>
    obtain ⟨count, evicts⟩ := evictBytes_evicts len floor
      (stream.store.lastSeq + 1 - stream.store.firstSeq) keeps stream.store.firstSeq
      (fun some => by rw [keeps.firstSeq_eq, if_neg some])
      (by rw [keeps.firstSeq_eq, keeps.lastSeq_eq]; split <;> simp_all) limited.1
    exact ⟨count, evicts, by simp [ne_of_gt limited.1]⟩
  next fits =>
  refine ⟨0, .none keeps fun limited => .inl (Bool.eq_false_iff.mpr fun above =>
    fits ⟨limited, above⟩), iff_of_true rfl ?_⟩
  by_contra neither
  rw [not_or, Bool.not_eq_false] at neither
  exact fits ⟨Nat.pos_of_ne_zero neither.1, neither.2⟩

/-! ## Appending -/

namespace CmqStream.Keeps

variable {stream : CmqStream} {dropped : Nat} {messages : List StreamMessage}

lemma part_lt_concat (part_lt : message.part < stream.nparts)
    (old : ∀ other ∈ messages, other.part < stream.nparts) :
    ∀ other ∈ messages ++ [message], other.part < stream.nparts := by
  simpa [or_imp, forall_and, part_lt] using old

lemma put_room (keeps : stream.Keeps dropped messages) (message : StreamMessage)
    (part_lt : message.part < stream.nparts) (totalBytes : Nat)
    (room : messages.length < stream.maxMsgs) {store : CmqStore}
    (kept : store.Keeps stream.maxMsgs dropped
      (messages.map StreamMessage.stamped ++ [message.stamped])) :
    Keeps
      { stream with
        store, totalBytes
        msgPart := write stream.msgPart (dropped + messages.length + 1) message.part }
      dropped (messages ++ [message]) := by
  refine ⟨by simpa using kept, keeps.nparts_pos, keeps.nparts_le,
    part_lt_concat part_lt keeps.part_lt, fun several => ?_⟩
  obtain ⟨length, window⟩ := keeps.parts several
  have written := window.concat message.part (by simpa [length] using room)
  exact ⟨by simpa using length, by simpa using written⟩

lemma put_full {oldest : StreamMessage} (keeps : stream.Keeps dropped (oldest :: messages))
    (message : StreamMessage) (part_lt : message.part < stream.nparts) (totalBytes : Nat)
    (full : messages.length + 1 = stream.maxMsgs) {store : CmqStore}
    (kept : store.Keeps stream.maxMsgs (dropped + 1)
      (messages.map StreamMessage.stamped ++ [message.stamped])) :
    Keeps
      { stream with
        store, totalBytes
        msgPart := write stream.msgPart (dropped + stream.maxMsgs + 1) message.part }
      (dropped + 1) (messages ++ [message]) := by
  refine ⟨by simpa using kept, keeps.nparts_pos, keeps.nparts_le,
    part_lt_concat part_lt fun other old => keeps.part_lt other (.tail _ old), fun several => ?_⟩
  obtain ⟨length, window⟩ := keeps.parts several
  have written := Window.turn window message.part (by simpa [length] using full)
  rw [length] at written
  exact ⟨by simpa using length, by simpa using written⟩

end CmqStream.Keeps

/-- An append drops `count` messages below the floor and adds its message, unless it is
refused. -/
structure Appended (stream : CmqStream) (result : CmqStream × Nat) (dropped count : Nat)
    (messages : List StreamMessage) (message : StreamMessage) : Prop where
  same : SameConsumers stream result.1
  count_le : count ≤ messages.length
  below : ∀ i, i < count → dropped + i + 1 < retainFloor stream
  outcome : result.2 = 0 ∧ result.1.Keeps (dropped + count) (messages.drop count) ∨
    result.2 = dropped + messages.length + 1 ∧
      result.1.Keeps (dropped + count) (messages.drop count ++ [message])

/-- The stream counts the bytes of its messages, and they are within its limit. -/
structure Accounts (stream : CmqStream) (messages : List StreamMessage) : Prop where
  total : stream.totalBytes = bytes messages
  limit : stream.totalBytes ≤ stream.maxBytes

lemma bytes_drop_le (messages : List StreamMessage) (count : Nat) :
    bytes (messages.drop count) ≤ bytes messages := by
  conv_rhs => rw [← take_append_drop count messages, bytes_append]
  exact Nat.le_add_left _ _

lemma overBytes_eq_false_iff (positive : 0 < len) :
    overBytes stream len = false ↔ stream.totalBytes + len ≤ min stream.maxBytes sizeMax := by
  simp only [overBytes, Bool.or_eq_false_iff, decide_eq_false_iff_not]
  omega

lemma creditBytes_eq (fits : total + len ≤ sizeMax) :
    creditBytes total debit len = total - debit + len := by
  simp only [creditBytes]
  split <;> omega

/-- An append, with the bytes on a stream that has a limit for them. -/
structure AppendedBytes (stream : CmqStream) (result : CmqStream × Nat) (dropped count : Nat)
    (messages : List StreamMessage) (message : StreamMessage) : Prop
    extends Appended stream result dropped count messages message where
  accounts : 0 < stream.maxBytes → Accounts stream messages →
    Accounts result.1
      (if result.2 = 0 then messages.drop count else messages.drop count ++ [message])
  unlimited : stream.maxBytes = 0 → result.2 ≠ 0 →
    count = if messages.length < stream.maxMsgs then 0 else 1
  small : stream.store.headSeq ≤ uint64Max → result.1.store.headSeq ≤ uint64Max

lemma streamAppend_bytes (keeps : stream.Keeps dropped messages) (nowMs : Nat) (data : Bytes)
    (part_lt : part < stream.nparts) :
    ∃ count, AppendedBytes stream (streamAppend stream nowMs data part) dropped count messages
      ⟨data, nowMs, part⟩ := by
  unfold streamAppend
  split
  · exact ⟨0, ⟨.refl _, Nat.zero_le _, by simp, .inl ⟨rfl, by simpa using keeps⟩⟩, by simp,
      by simp, id⟩
  next nonempty =>
  obtain ⟨count, ⟨⟨same, count_le, below, kept⟩, total, _, -, -⟩, fits⟩ :=
    makeRoom_evicts keeps data.length (retainFloor stream)
  simp only
  generalize (makeRoom stream data.length (retainFloor stream)).1 = roomy
    at same kept total fits ⊢
  have head := kept.headSeq_eq
  rw [length_drop, show dropped + count + (messages.length - count) + 1 =
    dropped + messages.length + 1 by omega] at head
  have same_head := head.trans keeps.headSeq_eq.symm
  have refused : ∃ count, AppendedBytes stream (roomy, 0) dropped count messages
      ⟨data, nowMs, part⟩ := by
    refine ⟨count, ⟨same, count_le, below, .inl ⟨rfl, kept⟩⟩, fun _ accounts => ⟨?_, ?_⟩,
      fun _ accepted => absurd rfl accepted, fun small => same_head ▸ small⟩
    · exact total accounts.total
    dsimp only
    rw [total accounts.total, same.maxBytes]
    exact le_trans (bytes_drop_le _ _) (accounts.total ▸ accounts.limit)
  split
  · exact refused
  next room =>
  have credited : 0 < stream.maxBytes → Accounts stream messages → ∀ debit,
      creditBytes roomy.totalBytes debit data.length =
          bytes (messages.drop count) - debit + data.length ∧
        creditBytes roomy.totalBytes debit data.length ≤ roomy.maxBytes := by
    intro limited accounts debit
    have free := (fits.mp (Bool.not_eq_false _ ▸ room)).resolve_left (ne_of_gt limited)
    rw [overBytes_eq_false_iff (Nat.pos_of_ne_zero nonempty), total accounts.total] at free
    rw [total accounts.total, creditBytes_eq (by omega)]
    exact ⟨rfl, by omega⟩
  have small : part % 256 = part := by
    have parts := keeps.nparts_le
    unfold cmqStreamMaxParts at parts
    omega
  have roomy_lt : part < roomy.nparts := same.nparts ▸ part_lt
  split
  · exact refused
  next debit debited =>
  unfold cmqStorePutOwned
  split
  · exact refused
  next accepted =>
  have next : stream.store.headSeq ≤ uint64Max → roomy.store.headSeq + 1 ≤ uint64Max := by omega
  have numbered : roomy.store.headSeq ≠ 0 := by omega
  rw [if_neg numbered]
  by_cases full : (messages.drop count).length < roomy.maxMsgs
  · have written := kept.put_room ⟨data, nowMs, part⟩ roomy_lt
      (creditBytes roomy.totalBytes debit data.length) full
      (kept.store.put_room (data, nowMs) (by simpa using full))
    rw [show dropped + count + (messages.drop count).length + 1 = roomy.store.headSeq by
      rw [length_drop]; omega] at written
    rw [small]
    refine ⟨count, ⟨⟨same.1, same.2, same.3, same.4⟩, count_le, below, .inr ⟨head, written⟩⟩,
      fun limited accounts => ?_, fun unlimited _ => ?_, next⟩
    swap
    · rw [length_drop, same.maxMsgs] at full
      split <;> omega
    have none : debit = 0 := by
      rw [wrapDebit, if_neg (by rw [kept.store.count_eq, length_map]; omega)] at debited
      exact (Option.some.inj debited).symm
    obtain ⟨sum, limit⟩ := credited limited accounts debit
    refine ⟨?_, limit⟩
    rw [if_neg numbered, sum, none, bytes_append]
    rfl
  -- The ring is full, so the wrap takes the oldest message, which is below the floor.
  have whole := le_antisymm kept.length_le (not_lt.mp full)
  have positive := kept.store.positive
  have front := kept.firstSeq_eq
  cases rest : messages.drop count with
  | nil =>
    rw [rest, length_nil] at whole
    omega
  | cons =>
    rw [rest] at kept front whole
    rw [if_neg (cons_ne_nil _ _)] at front
    rw [wrapDebit, if_pos (by rw [kept.store.count_eq, length_map, whole]), front,
      kept.cmqStoreSeqLen_eq, Option.ite_none_left_eq_some, Option.some_inj] at debited
    obtain ⟨floored, debited⟩ := debited
    have written := kept.put_full ⟨data, nowMs, part⟩ roomy_lt
      (creditBytes roomy.totalBytes debit data.length) whole
      (CmqStore.Keeps.put_full kept.store (data, nowMs) (by simpa using whole))
    have lengths := congrArg List.length rest
    rw [length_drop, length_cons] at lengths
    rw [show dropped + count + roomy.maxMsgs + 1 = roomy.store.headSeq by
      rw [← whole, length_cons]; omega] at written
    rw [small]
    refine ⟨count + 1, ⟨⟨same.1, same.2, same.3, same.4⟩, by omega, fun i less => ?_,
      .inr ⟨head, ?_⟩⟩, fun limited accounts => ?_, fun unlimited _ => ?_, next⟩
    · rcases lt_or_eq_of_le (Nat.lt_succ_iff.mp less) with before | last
      · exact below i before
      rw [last]
      exact not_le.mp floored
    · rw [← drop_drop, rest]
      exact written
    · obtain ⟨sum, limit⟩ := credited limited accounts debit
      refine ⟨?_, limit⟩
      rw [if_neg numbered, sum, ← drop_drop, rest, bytes_cons, ← debited,
        Nat.add_sub_cancel_left, drop_one, bytes_append]
      rfl
    rw [length_cons, same.maxMsgs] at whole
    split <;> omega

lemma streamAppend_appended (keeps : stream.Keeps dropped messages) (nowMs : Nat) (data : Bytes)
    (part_lt : part < stream.nparts) :
    ∃ count, Appended stream (streamAppend stream nowMs data part) dropped count messages
      ⟨data, nowMs, part⟩ :=
  (streamAppend_bytes keeps nowMs data part_lt).imp fun _ appended => appended.toAppended

end CMsgQueue.Store
