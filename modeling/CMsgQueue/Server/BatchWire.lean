import CMsgQueue.Server.Batch

/-!
# The entries of a batch on the wire

A well-formed entry, its bytes in a batch, and the publish that carries the same message.
Both handlers read back what was written.
-/

namespace CMsgQueue.Server

open Crc32c Proto

/-- A well-formed entry. -/
structure BatchItem where
  subject : Bytes
  replyTo : Bytes
  payload : Bytes
  subject_ne : subject ≠ []
  subject_short : subject.length < cmqMaxSubject
  subject_ok : wireSubjectOk subject = true
  reply_short : replyTo.length < cmqMaxSubject
  reply_ok : replyTo ≠ [] → wireSubjectOk replyTo = true
  payload_short : payload.length < 2 ^ 32

namespace BatchItem

def encode (item : BatchItem) : Bytes :=
  putBe 2 item.subject.length ++ (item.subject ++ (putBe 2 item.replyTo.length ++
    (item.replyTo ++ (putBe 4 item.payload.length ++ item.payload))))

def record (item : BatchItem) : Bytes :=
  putBe 2 item.subject.length ++ (item.subject ++ (putBe 2 item.replyTo.length ++
    (item.replyTo ++ item.payload)))

def frame (item : BatchItem) : Frame where
  hdr := ⟨cmqProtoMagic0, cmqProtoMagic1, cmqProtoVersion, 0, CmqOp.publish.code,
    item.record.length % 2 ^ 32⟩
  payload := item.record

def msg (item : BatchItem) : PublishMsg := ⟨item.subject, item.replyTo, [], item.payload⟩

lemma length_encode (item : BatchItem) :
    item.encode.length = 2 + item.subject.length + 2 + item.replyTo.length + 4 +
      item.payload.length := by
  simp only [encode, List.length_append, length_putBe]
  omega

lemma subject_length_pos (item : BatchItem) : 0 < item.subject.length :=
  List.length_pos_iff.2 item.subject_ne

lemma subject_length_lt (item : BatchItem) : item.subject.length < 256 ^ 2 :=
  lt_trans item.subject_short (by decide)

lemma reply_length_lt (item : BatchItem) : item.replyTo.length < 256 ^ 2 :=
  lt_trans item.reply_short (by decide)

end BatchItem

def batchBytes (items : List BatchItem) : Bytes :=
  putBe 2 items.length ++ items.flatMap BatchItem.encode

def batchFrame (items : List BatchItem) : Frame where
  hdr := ⟨cmqProtoMagic0, cmqProtoMagic1, cmqProtoVersion, 0, CmqOp.batch.code,
    (batchBytes items).length % 2 ^ 32⟩
  payload := batchBytes items

section Entry

variable {body : Bytes} {offset : Nat} {item : BatchItem} {rest : Bytes}

/-- The parts of an entry one behind the other. -/
structure EntryAt (body : Bytes) (offset : Nat) (item : BatchItem) (rest : Bytes) : Prop where
  subjectLen : ∃ more, ReadsAt body offset (putBe 2 item.subject.length) more
  subject : ∃ more, ReadsAt body (offset + 2) item.subject more
  replyLen : ∃ more,
    ReadsAt body (offset + 2 + item.subject.length) (putBe 2 item.replyTo.length) more
  replyTo : ∃ more, ReadsAt body (offset + 2 + item.subject.length + 2) item.replyTo more
  payloadLen : ∃ more, ReadsAt body (offset + 2 + item.subject.length + 2 + item.replyTo.length)
    (putBe 4 item.payload.length) more
  payload : ReadsAt body
    (offset + 2 + item.subject.length + 2 + item.replyTo.length + 4) item.payload rest

lemma entryAt (reads : ReadsAt body offset item.encode rest) :
    EntryAt body offset item rest := by
  have subjectLen := reads.split
  have subject := subjectLen.next.split
  have replyLen := subject.next.split
  have replyTo := replyLen.next.split
  have payloadLen := replyTo.next.split
  have payload := payloadLen.next
  exact ⟨⟨_, subjectLen⟩, ⟨_, subject⟩, ⟨_, replyLen⟩, ⟨_, replyTo⟩, ⟨_, payloadLen⟩, payload⟩

lemma wireLen_of_reads {value : Nat} {more : Bytes} (bound : value < 256 ^ 2)
    (reads : ReadsAt body offset (putBe 2 value) more) : wireLen (body.drop offset) = value :=
  reads.getBe_take bound

variable (at_ : EntryAt body offset item rest)
include at_

lemma batchWire_encode :
    batchWire body offset =
      ⟨offset, item.subject.length, item.replyTo.length,
        offset + 2 + item.subject.length + 2 + item.replyTo.length + 4,
        item.payload.length⟩ := by
  obtain ⟨_, subjectReads⟩ := at_.subjectLen
  obtain ⟨_, replyReads⟩ := at_.replyLen
  obtain ⟨_, payloadReads⟩ := at_.payloadLen
  have payloadLen : wireLen32
      (body.drop (offset + 2 + item.subject.length + 2 + item.replyTo.length)) =
      item.payload.length := payloadReads.getBe_take item.payload_short
  simp only [batchWire, wireLen_of_reads item.subject_length_lt subjectReads,
    wireLen_of_reads item.reply_length_lt replyReads, payloadLen]

lemma batchWire_next : (batchWire body offset).next = offset + item.encode.length := by
  rw [batchWire_encode at_, BatchWire.next, item.length_encode]
  simp only
  omega

end Entry

lemma parseSubject_record (item : BatchItem) :
    parseSubject item.record = .ok (item.subject,
      putBe 2 item.replyTo.length ++ (item.replyTo ++ item.payload)) := by
  have reads : ReadsAt item.record 0 (putBe 2 item.subject.length) _ := ⟨Nat.zero_le _, rfl⟩
  have subject := reads.next
  have len : wireLen item.record = item.subject.length :=
    wireLen_of_reads item.subject_length_lt reads
  have lenFits := reads.le
  have fits := subject.le
  have positive := item.subject_length_pos
  have short := item.subject_short
  have dropped := subject.drop_behind
  simp only [length_putBe] at lenFits fits subject dropped
  rw [parseSubject, if_neg (by omega)]
  simp only [len]
  rw [if_neg (by omega), if_neg (by omega), subject.take, if_pos item.subject_ok, dropped]

lemma parseReplyTo_record (item : BatchItem) :
    parseReplyTo (putBe 2 item.replyTo.length ++ (item.replyTo ++ item.payload)) =
      .ok (item.replyTo, item.payload) := by
  have reads : ReadsAt (putBe 2 item.replyTo.length ++ (item.replyTo ++ item.payload)) 0
      (putBe 2 item.replyTo.length) _ := ⟨Nat.zero_le _, rfl⟩
  have reply := reads.next
  have len : wireLen (putBe 2 item.replyTo.length ++ (item.replyTo ++ item.payload)) =
      item.replyTo.length := wireLen_of_reads item.reply_length_lt reads
  have lenFits := reads.le
  have fits := reply.le
  have short := item.reply_short
  have unrefused : ¬ (item.replyTo.length > 0 ∧ wireSubjectOk item.replyTo = false) := by
    rintro ⟨positive, refused⟩
    rw [item.reply_ok (List.length_pos_iff.1 positive)] at refused
    cases refused
  have dropped := reply.drop_behind
  simp only [length_putBe] at lenFits fits reply dropped
  rw [parseReplyTo, if_neg (by omega)]
  simp only [len]
  rw [if_neg (by omega), if_neg (by omega), reply.take, if_neg unrefused, dropped]

lemma readPlain_record (item : BatchItem) :
    readPlain 0 item.record = .ok (item.record, item.msg) := by
  have parsed : parsePublish 0 item.record = .ok item.msg := by
    simp only [parsePublish, parseSubject_record, parseReplyTo_record, bind, Except.bind]
    rfl
  have whole : cmqChecksumConsume 0 item.record = some item.record := rfl
  simp only [readPlain, whole, parsed]
  rfl

end CMsgQueue.Server
