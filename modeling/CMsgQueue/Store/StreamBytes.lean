import CMsgQueue.Store.StreamRun

/-!
# The bytes of a stream

What `stream_append_impl` counts in `total_bytes`, when it refuses a message, and what a refusal
leaves behind.
-/

namespace CMsgQueue.Store

open List

variable {stream created : CmqStream} {dropped maxMsgs maxBytes : Nat}
  {messages : List StreamMessage} {name : Bytes}

def CmqStream.retained (stream : CmqStream) : List StreamMessage :=
  (List.range stream.store.count).filterMap fun i => stream.held (stream.store.firstSeq + i)

lemma filterMap_getElem?_range {α : Type} (items : List α) :
    (List.range items.length).filterMap (items[·]?) = items := by
  induction items with
  | nil => rfl
  | cons item items ih =>
    rw [length_cons, range_succ_eq_map, filterMap_cons, filterMap_map]
    exact congrArg (item :: ·) ih

lemma CmqStream.Keeps.retained_eq (keeps : stream.Keeps dropped messages) :
    stream.retained = messages := by
  have count : stream.store.count = messages.length := by simpa using keeps.store.count_eq
  rw [retained, count]
  refine Eq.trans (filterMap_congr fun i inside => ?_) (filterMap_getElem?_range messages)
  have less := mem_range.mp inside
  rw [keeps.firstSeq_eq, if_neg (ne_nil_of_length_pos (by omega)), keeps.held_eq, if_pos (by omega)]
  congr 1
  omega

lemma streamAppend_snd_eq_zero_iff (keeps : stream.Keeps dropped messages) (nowMs : Nat)
    (part : Nat) (nonempty : 0 < data.length) :
    let room := makeRoom stream data.length (retainFloor stream)
    ((streamAppend stream nowMs data part).2 = 0 ↔
      ¬ (room.2 = true ∧ wrapDebit room.1 (retainFloor stream) ≠ none) ∨
        data.length > storeMaxLen ∨ stream.store.headSeq = uint64Max) ∧
      ((streamAppend stream nowMs data part).2 = 0 →
        (streamAppend stream nowMs data part).1 = room.1) := by
  obtain ⟨count, ⟨⟨-, _, -, kept⟩, -⟩, -⟩ :=
    makeRoom_evicts keeps data.length (retainFloor stream)
  have number := keeps.headSeq_eq
  have head := kept.headSeq_eq
  rw [length_drop, show dropped + count + (messages.length - count) + 1 =
    dropped + messages.length + 1 by omega, ← number] at head
  unfold streamAppend
  dsimp only
  rw [if_neg (by omega)]
  split
  next refused => simp [refused]
  next room =>
  rw [Bool.not_eq_false] at room
  split
  next wraps => simp [wraps]
  next _ debited =>
  rw [room, debited]
  unfold cmqStorePutOwned
  rw [head]
  split
  next refused => exact ⟨iff_of_true rfl (.inr (refused.resolve_left (by omega))), fun _ => rfl⟩
  next accepted =>
  have numbered : stream.store.headSeq ≠ 0 := by omega
  rw [if_neg numbered]
  refine ⟨iff_of_false numbered ?_, fun zero => absurd zero numbered⟩
  simpa using (not_or.mp accepted).2

namespace StreamSystem

/-- On a stream with a limit, the bytes are those of the messages it has, and within the limit. -/
theorem totalBytes_run
    (creates : cmqStreamCreate name maxMsgs maxBytes = some created) (limited : 0 < maxBytes)
    (events : List StreamEvent) :
    let stream := (run created events).stream
    stream.totalBytes = (stream.retained.map fun message => message.data.length).sum ∧
      stream.totalBytes ≤ maxBytes := by
  obtain ⟨_, _, counted⟩ := counted_run creates events
  have accounts := counted.accounts limited
  dsimp only
  rw [counted.keeps.retained_eq]
  exact ⟨accounts.total, counted.maxBytes_eq ▸ accounts.limit⟩

theorem totalBytes_run_evicts :
    let created : CmqStream := ⟨⟨[.zeroed, .zeroed], 1, 0⟩, [], 2, 3, 0, 1, []⟩
    let stream := (run created [.append 5 [1, 1], .append 6 [2, 2]]).stream
    stream.totalBytes = (stream.retained.map fun message => message.data.length).sum ∧
      stream.totalBytes ≤ 3 := by
  intro created
  have creates : cmqStreamCreate [115] 2 3 = some created := by decide
  exact totalBytes_run creates (by decide) [.append 5 [1, 1], .append 6 [2, 2]]

end StreamSystem

/-! ## Refusals -/

namespace CmqStream

def Passed (stream : CmqStream) (seq : Nat) : Prop :=
  ∀ entry ∈ stream.consumers, ∀ part < stream.nparts, seq ≤ stream.watermark entry part

/-- Every consumer is past a message in the partitions that it does not belong to. -/
def PassedElsewhere (stream : CmqStream) (seq : Nat) : Prop :=
  ∀ entry ∈ stream.consumers, ∀ part < stream.nparts, part ≠ stream.partAt seq →
    seq ≤ stream.watermark entry part

instance (stream : CmqStream) (seq : Nat) : Decidable (stream.Passed seq) :=
  inferInstanceAs (Decidable (∀ entry ∈ _, ∀ part < _, _))

instance (stream : CmqStream) (seq : Nat) : Decidable (stream.PassedElsewhere seq) :=
  inferInstanceAs (Decidable (∀ entry ∈ _, ∀ part < _, _))

/-- There is room for `len` bytes once some of the oldest messages are gone, which may go. -/
def RoomFor (stream : CmqStream) (mayGo : Nat → Prop) (len : Nat) : Prop :=
  ∃ n ≤ stream.retained.length, (∀ i < n, mayGo (stream.store.firstSeq + i)) ∧
    (stream.maxBytes = 0 ∨
      bytes (stream.retained.drop n) + len ≤ min stream.maxBytes sizeMax) ∧
    stream.retained.length - n < stream.maxMsgs

end CmqStream

section Refusals

variable (keeps : stream.Keeps dropped messages)
include keeps

lemma lt_retainFloor_iff (small : stream.store.headSeq ≤ uint64Max)
    (inside : i < messages.length) :
    dropped + i + 1 < retainFloor stream ↔ stream.Passed (dropped + i + 1) := by
  have head := keeps.headSeq_eq
  have some := ne_nil_of_length_pos (Nat.zero_lt_of_lt inside)
  have first := keeps.firstSeq_eq
  have last := keeps.lastSeq_eq
  rw [if_neg some] at first last
  constructor
  · intro below _ member _ part_lt
    exact le_watermark_of_lt_retainFloor below (by omega) member part_lt
  intro passed
  exact lt_retainFloor (by omega) (by omega) passed keeps.nparts_pos

lemma roomFor_iff {mayGo goes : Nat → Prop}
    (same : ∀ i < messages.length, goes i ↔ mayGo (dropped + i + 1)) :
    stream.RoomFor mayGo len ↔ ∃ n ≤ messages.length, (∀ i < n, goes i) ∧
        (stream.maxBytes = 0 ∨ bytes (messages.drop n) + len ≤ min stream.maxBytes sizeMax) ∧
        messages.length - n < stream.maxMsgs := by
  unfold CmqStream.RoomFor
  rw [keeps.retained_eq]
  refine exists_congr fun n => and_congr_right fun _ => and_congr_left fun _ => ?_
  refine forall₂_congr fun i _ => ?_
  rw [same i (by omega), keeps.firstSeq_eq, if_neg (ne_nil_of_length_pos (by omega)),
    Nat.add_right_comm]

lemma wrapDebit_eq_none_iff (floor : Nat) :
    wrapDebit stream floor = none ↔ stream.maxMsgs ≤ messages.length ∧ floor ≤ dropped + 1 := by
  have positive := keeps.store.positive
  have count : stream.store.count = messages.length := by simpa using keeps.store.count_eq
  unfold wrapDebit
  rw [count]
  cases messages with
  | nil => simp [not_le.mpr positive]
  | cons _ messages =>
    rw [keeps.firstSeq_eq, if_neg (cons_ne_nil _ _), keeps.cmqStoreSeqLen_eq]
    split <;> simp_all

/-- The evictions make room if any number of evictions below the floor does. -/
lemma evicts_room_iff {roomy : CmqStream} {len floor count : Nat} (positive : 0 < len)
    (evicts : Evicts stream roomy len floor dropped count messages)
    (total : 0 < stream.maxBytes → stream.totalBytes = bytes messages) :
    (stream.maxBytes = 0 ∨ overBytes roomy len = false) ∧ wrapDebit roomy floor ≠ none ↔
      ∃ n ≤ messages.length, (∀ i < n, dropped + i + 1 < floor) ∧
        (stream.maxBytes = 0 ∨ bytes (messages.drop n) + len ≤ min stream.maxBytes sizeMax) ∧
        messages.length - n < stream.maxMsgs := by
  obtain ⟨⟨same, count_le, below, kept⟩, left, limits, needed, stops⟩ := evicts
  have bound := keeps.length_le
  have filled := keeps.store.positive
  have room : stream.maxBytes = 0 ∨ overBytes roomy len = false ↔
      stream.maxBytes = 0 ∨ bytes (messages.drop count) + len ≤ min stream.maxBytes sizeMax := by
    rcases Nat.eq_zero_or_pos stream.maxBytes with none | limited
    · simp [none]
    rw [overBytes_eq_false_iff positive, left (total limited), same.maxBytes]
  rw [room, ne_eq, wrapDebit_eq_none_iff kept, same.maxMsgs, length_drop]
  constructor
  · rintro ⟨fits, _⟩
    by_cases tight : messages.length - count < stream.maxMsgs
    · exact ⟨count, count_le, below, fits, tight⟩
    -- The ring is full, so the put itself drops one more message.
    refine ⟨count + 1, by omega, fun i less => ?_, fits.imp_right fun fits => ?_, by omega⟩
    · rcases lt_or_eq_of_le (Nat.lt_succ_iff.mp less) with before | rfl
      · exact below i before
      omega
    have fewer := bytes_drop_le (messages.drop count) 1
    rw [drop_drop] at fewer
    omega
  rintro ⟨n, _, goes, fits, tight⟩
  have count_le_n : count ≤ n := by
    by_contra more
    have limited := limits (by omega)
    have above := needed (total limited) n (not_le.mp more)
    rw [← Bool.not_eq_false, overBytes_eq_false_iff positive] at above
    exact above (fits.resolve_left (ne_of_gt limited))
  rcases lt_or_eq_of_le count_le_n with fewer | rfl
  · have free := goes count fewer
    refine ⟨?_, by omega⟩
    rcases Nat.eq_zero_or_pos stream.maxBytes with none | limited
    · exact .inl none
    refine room.mp (.inr ?_)
    rcases stops limited with enough | _ | _
    · exact enough
    · omega
    omega
  exact ⟨fits, by omega⟩

variable (small : stream.store.headSeq ≤ uint64Max)
  (total : 0 < stream.maxBytes → stream.totalBytes = bytes messages)
include small total

lemma streamAppend_snd_ne_zero_iff (nowMs : Nat) (nonempty : 0 < data.length) :
    (streamAppend stream nowMs data part).2 ≠ 0 ↔
      data.length ≤ storeMaxLen ∧ stream.store.headSeq ≠ uint64Max ∧
        stream.RoomFor stream.Passed data.length := by
  obtain ⟨_, evicts, fits⟩ := makeRoom_evicts keeps data.length (retainFloor stream)
  have room := evicts_room_iff keeps nonempty evicts total
  rw [← fits, ← roomFor_iff keeps fun i inside => lt_retainFloor_iff keeps small inside] at room
  rw [ne_eq, (streamAppend_snd_eq_zero_iff keeps nowMs part nonempty).1, room, not_or, not_or,
    not_not, not_lt]
  exact and_rotate

/-- A refusal that drops messages: the oldest one may go, and more has to. -/
lemma makeRoom_same_iff (positive : 0 < len) :
    let other := (makeRoom stream len (retainFloor stream)).1
    (∀ seq, other.held seq = stream.held seq) ∧ other.totalBytes = stream.totalBytes ∧
        other.consumers = stream.consumers ↔
      ¬ (0 < stream.maxBytes ∧ min stream.maxBytes sizeMax < stream.totalBytes + len ∧
        stream.held stream.store.firstSeq ≠ none ∧ stream.Passed stream.store.firstSeq) := by
  obtain ⟨count, ⟨⟨same, _, below, kept⟩, left, _, needed, stops⟩, -⟩ :=
    makeRoom_evicts keeps len (retainFloor stream)
  have first := keeps.firstSeq_eq
  have held := keeps.held_ne_none_iff
  constructor
  · rintro ⟨holds, -, -⟩ ⟨limited, above, oldest, passed⟩
    have some : messages ≠ [] := by
      rintro rfl
      rw [if_pos rfl] at first
      have inside := (held _).mp oldest
      omega
    rw [if_neg some] at first
    have none : count = 0 := by
      by_contra goes
      have gone := (kept.held_ne_none_iff (dropped + 1)).not.mpr (by omega)
      rw [holds, ← first] at gone
      exact gone oldest
    subst none
    rcases stops limited with enough | all | _
    · rw [overBytes_eq_false_iff positive, left (total limited), drop_zero, ← total limited,
        same.maxBytes] at enough
      omega
    · exact some (length_eq_zero_iff.mp all.symm)
    rw [first] at passed
    have below := (lt_retainFloor_iff keeps small (length_pos_iff.mpr some)).mpr passed
    omega
  intro stays
  rcases Nat.eq_zero_or_pos stream.maxBytes with none | limited
  · simp [makeRoom, none]
  have none : count = 0 := by
    by_contra goes
    have above := needed (total limited) 0 (by omega)
    rw [← Bool.not_eq_false, overBytes_eq_false_iff positive, drop_zero, ← total limited] at above
    have inside : 0 < messages.length := by omega
    rw [if_neg (ne_nil_of_length_pos inside)] at first
    refine stays ⟨limited, not_le.mp above, ?_, ?_⟩
    · exact (held _).mpr (by omega)
    rw [first]
    exact (lt_retainFloor_iff keeps small inside).mp (below 0 (by omega))
  subst none
  refine ⟨fun seq => ?_, ?_, same.consumers⟩
  · rw [kept.held_eq, keeps.held_eq, Nat.add_zero, drop_zero]
  rw [left (total limited), drop_zero, total limited]

end Refusals

namespace StreamSystem

/-- A refused append leaves the stream as it was, unless there is no room for the message even
when the oldest messages are gone, which are dropped all the same. -/
theorem append_refused_unchanged_iff
    (creates : cmqStreamCreate name maxMsgs maxBytes = some created) (events : List StreamEvent)
    (nowMs : Nat) (data : Bytes) :
    let stream := (run created events).stream
    let result := cmqStreamAppend stream nowMs data
    (result.2 = 0 → (∀ seq, result.1.held seq = stream.held seq) ∧
        result.1.totalBytes = stream.totalBytes ∧ result.1.consumers = stream.consumers) ↔
      data = [] ∨
        (data.length ≤ storeMaxLen ∧ stream.store.headSeq ≠ uint64Max ∧
          stream.RoomFor stream.Passed data.length) ∨
        ¬ (0 < stream.maxBytes ∧
          min stream.maxBytes sizeMax < stream.totalBytes + data.length ∧
          stream.held stream.store.firstSeq ≠ none ∧ stream.Passed stream.store.firstSeq) := by
  obtain ⟨_, _, counted⟩ := counted_run creates events
  dsimp only
  rcases eq_or_ne data [] with rfl | nonempty
  · exact iff_of_true (fun _ => ⟨fun _ => rfl, rfl, rfl⟩) (.inl rfl)
  have positive := length_pos_iff.mpr nonempty
  have total := fun limited => (counted.accounts (counted.maxBytes_eq ▸ limited)).total
  have unchanged := (streamAppend_snd_eq_zero_iff counted.keeps nowMs 0 positive).2
  have same := makeRoom_same_iff counted.keeps counted.small total positive
  dsimp only at same
  rw [or_iff_right nonempty, ← same,
    ← streamAppend_snd_ne_zero_iff counted.keeps counted.small total nowMs positive,
    ← imp_iff_not_or]
  refine forall_congr' fun refused => ?_
  rw [cmqStreamAppend, unchanged refused]

/-- Three bytes on a stream for two are refused, and the byte it had is gone. -/
theorem append_refused_drops :
    let created : CmqStream := ⟨⟨[.zeroed, .zeroed], 1, 0⟩, [], 2, 2, 0, 1, []⟩
    let stream := (run created [.append 5 [1]]).stream
    let result := cmqStreamAppend stream 6 [1, 2, 3]
    cmqStreamCreate [115] 2 2 = some created ∧ result.2 = 0 ∧
      stream.held 1 = some ⟨[1], 5, 0⟩ ∧ stream.totalBytes = 1 ∧
      result.1.held 1 = none ∧ result.1.totalBytes = 0 := by
  decide

/-- The byte that a consumer has not read keeps two more out, and stays. -/
theorem append_refused_unchanged_iff_unread :
    let created : CmqStream := ⟨⟨[.zeroed, .zeroed], 1, 0⟩, [], 2, 2, 0, 1, []⟩
    let stream := (run created [.addConsumer [97], .append 5 [1]]).stream
    let result := cmqStreamAppend stream 6 [2, 3]
    stream.held 1 = some ⟨[1], 5, 0⟩ ∧ result.2 = 0 ∧
      (∀ seq, result.1.held seq = stream.held seq) ∧
      result.1.totalBytes = stream.totalBytes ∧ result.1.consumers = stream.consumers := by
  have creates : cmqStreamCreate [115] 2 2 =
      some ⟨⟨[.zeroed, .zeroed], 1, 0⟩, [], 2, 2, 0, 1, []⟩ := by decide
  refine ⟨by decide +kernel, by decide +kernel, (append_refused_unchanged_iff creates
    [.addConsumer [97], .append 5 [1]] 6 [2, 3]).mpr (.inr (.inr ?_)) (by decide +kernel)⟩
  rintro ⟨-, -, -, passed⟩
  revert passed
  decide +kernel

/-- When every consumer has acknowledged every message in its partition, an append succeeds
exactly if the messages that have to go are also below the watermarks of the other partitions. -/
theorem append_of_acknowledged_iff
    (creates : cmqStreamCreate name maxMsgs maxBytes = some created) (events : List StreamEvent)
    (acknowledged : ∀ entry ∈ (run created events).stream.consumers, ∀ seq message,
      (run created events).stream.held seq = some message →
        seq ≤ (run created events).stream.watermark entry message.part)
    (nowMs : Nat) {data : Bytes} (nonempty : 0 < data.length)
    (length_le : data.length ≤ storeMaxLen) :
    let stream := (run created events).stream
    (cmqStreamAppend stream nowMs data).2 ≠ 0 ↔
      stream.store.headSeq ≠ uint64Max ∧ stream.RoomFor stream.PassedElsewhere data.length := by
  obtain ⟨dropped, messages, counted⟩ := counted_run creates events
  dsimp only
  have total := fun limited => (counted.accounts (counted.maxBytes_eq ▸ limited)).total
  rw [cmqStreamAppend,
    streamAppend_snd_ne_zero_iff counted.keeps counted.small total nowMs nonempty,
    and_iff_right length_le]
  refine and_congr_right fun _ => ?_
  rw [roomFor_iff counted.keeps (fun _ _ => Iff.rfl), roomFor_iff counted.keeps fun i inside => ?_]
  refine forall₂_congr fun entry member => forall₂_congr fun part _ => ?_
  have located := List.getElem?_eq_getElem inside
  have own := acknowledged entry member (dropped + i + 1) messages[i] (by
    rw [counted.keeps.held_eq, if_pos (by omega), ← located]
    congr 1
    omega)
  rw [counted.keeps.partAt_eq located]
  refine ⟨fun passed _ => passed, fun passed => ?_⟩
  by_cases same : part = messages[i].part
  · exact same ▸ own
  exact passed same

/-- The only message is acknowledged in its partition 0, but nothing ever is in partition 1. -/
theorem append_of_acknowledged_refused :
    let created : CmqStream := ⟨⟨[.zeroed], 1, 0⟩, [], 1, 0, 0, 1, []⟩
    let stream := (run created [.setPartitions 2, .addConsumer [97], .append 5 [1],
      .ackPart [97] 0 1]).stream
    cmqStreamCreate [115] 1 0 = some created ∧ stream.held 1 = some ⟨[1], 5, 0⟩ ∧
      stream.store.count = 1 ∧ stream.consumers.map (stream.watermark · 0) = [1] ∧
      (cmqStreamAppend stream 6 [2]).2 = 0 := by
  decide

/-- A consumer has acknowledged the only message, which goes for the next one. -/
theorem append_of_acknowledged_iff_only :
    let created : CmqStream := ⟨⟨[.zeroed], 1, 0⟩, [], 1, 0, 0, 1, []⟩
    let stream := (run created [.addConsumer [97], .append 5 [1], .ackPart [97] 0 1]).stream
    stream.held 1 = some ⟨[1], 5, 0⟩ ∧ stream.consumers.map (stream.watermark · 0) = [1] ∧
      (cmqStreamAppend stream 6 [2]).2 ≠ 0 := by
  have creates : cmqStreamCreate [115] 1 0 = some ⟨⟨[.zeroed], 1, 0⟩, [], 1, 0, 0, 1, []⟩ := by
    decide
  refine ⟨by decide +kernel, by decide +kernel, (append_of_acknowledged_iff creates
    [.addConsumer [97], .append 5 [1], .ackPart [97] 0 1] ?_ 6 (by decide) (by decide)).mpr
    ⟨by decide +kernel, 1, by decide +kernel, by decide +kernel, .inl (by decide +kernel),
      by decide +kernel⟩⟩
  -- there is one partition, and message 1 is the only one
  intro entry member seq message held
  have acked : ∀ entry ∈ (run ⟨⟨[.zeroed], 1, 0⟩, [], 1, 0, 0, 1, []⟩
      [.addConsumer [97], .append 5 [1], .ackPart [97] 0 1]).stream.consumers,
      1 ≤ entry.ackedSeq := by decide +kernel
  obtain ⟨_, _, counted⟩ := counted_run creates [.addConsumer [97], .append 5 [1], .ackPart [97] 0 1]
  have last := (counted.keeps.held_ne_none_iff seq).mp (by rw [held]; exact nofun)
  have head := counted.keeps.headSeq_eq
  rw [show CmqStore.headSeq _ = 2 by decide +kernel] at head
  exact le_trans (by omega) (acked entry member)

end StreamSystem

end CMsgQueue.Store
