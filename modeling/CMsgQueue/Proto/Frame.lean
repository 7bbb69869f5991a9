import CMsgQueue.Lib.Bytes
import CMsgQueue.Lib.Framing

/-!
# Wire frames

The frame encoder and the reference reader, with the header checks of `proto/cmq_parser.c`.
-/

namespace CMsgQueue.Proto

open List Framing

def cmqProtoMagic0 : UInt8 := 0xCA
def cmqProtoMagic1 : UInt8 := 0xFE
def cmqProtoVersion : UInt8 := 0x01

/-- `CMQ_HEADER_LEN`, the size of the packed `cmq_frame_hdr_t`. -/
def cmqHeaderLen : Nat := 9

def cmqFlagCompressed : UInt8 := 0x01
def cmqFlagChecksum : UInt8 := 0x02
def cmqFlagHeaders : UInt8 := 0x04

/-- Protocol operations, `cmq_op_t`. -/
inductive CmqOp where
  | connect | connack | publish | puback | subscribe | suback | unsubscribe
  | unsuback | message | ping | pong | disconnect | error | info | request
  | response | stats | batch
  deriving DecidableEq

def CmqOp.code : CmqOp → UInt8
  | .connect => 0x01
  | .connack => 0x02
  | .publish => 0x03
  | .puback => 0x04
  | .subscribe => 0x05
  | .suback => 0x06
  | .unsubscribe => 0x07
  | .unsuback => 0x08
  | .message => 0x09
  | .ping => 0x0A
  | .pong => 0x0B
  | .disconnect => 0x0C
  | .error => 0x0D
  | .info => 0x0E
  | .request => 0x0F
  | .response => 0x10
  | .stats => 0x11
  | .batch => 0x12

/-- `cmq_frame_hdr_t`. -/
structure FrameHdr where
  magic0 : UInt8
  magic1 : UInt8
  version : UInt8
  flags : UInt8
  op : UInt8
  length : Nat
  deriving DecidableEq

/-- `cmq_frame_t`; the length of `payload` is `payload_len`. -/
structure Frame where
  hdr : FrameHdr
  payload : Bytes
  deriving DecidableEq

/-- `cmq_frame_encode`: the bytes written to a buffer of `bufSize` bytes, none when
the function returns 0. -/
def cmqFrameEncode (bufSize : Nat) (op flags : UInt8) (payload : Bytes) : Bytes :=
  if payload.length > 2 ^ 32 - 1 then []
  else if payload.length > sizeMax - cmqHeaderLen then []
  else if bufSize < cmqHeaderLen + payload.length then []
  else
    [cmqProtoMagic0, cmqProtoMagic1, cmqProtoVersion, flags, op] ++
      putLe32 payload.length ++ payload

def Frame.wire (frame : Frame) : Bytes :=
  cmqFrameEncode (cmqHeaderLen + frame.payload.length) frame.hdr.op
    frame.hdr.flags frame.payload

def badPrefix : Bytes → Bool
  | b0 :: b1 :: b2 :: _ => b0 != cmqProtoMagic0 || b1 != cmqProtoMagic1 || b2 != cmqProtoVersion
  | _ => false

/-- A compressed frame whose operation is not one of the data-path operations. -/
def compressedControl (flags op : UInt8) : Bool :=
  flags &&& cmqFlagCompressed != 0 &&
    op != CmqOp.batch.code && op != CmqOp.publish.code &&
    op != CmqOp.message.code && op != CmqOp.request.code &&
    op != CmqOp.response.code

/-- Header fields the parser fills in for a frame it has accepted. -/
def acceptedHdr (flags op : UInt8) (length : Nat) : FrameHdr where
  magic0 := cmqProtoMagic0
  magic1 := cmqProtoMagic1
  version := cmqProtoVersion
  flags
  op
  length

/-- Reference reader: what the front of a buffer says about the next frame under a
payload cap. -/
def peelFrame (maxPayload : Nat) (buffer : Bytes) : Verdict Frame :=
  if badPrefix buffer then .bad
  else
    match buffer with
    | _ :: _ :: _ :: flags :: op :: l0 :: l1 :: l2 :: l3 :: body =>
      if compressedControl flags op then .bad
      else if le32 l0 l1 l2 l3 > maxPayload then .bad
      else if body.length < le32 l0 l1 l2 l3 then .more
      else
        .item
          { hdr := acceptedHdr flags op (le32 l0 l1 l2 l3)
            payload := body.take (le32 l0 l1 l2 l3) }
          (cmqHeaderLen + le32 l0 l1 l2 l3)
    | _ => .more

/-- A frame as `cmq_frame_encode` sends it and as the parser fills it in: the header
constants, the payload length, the payload cap and the compression rule. -/
structure Frame.Valid (maxPayload : Nat) (frame : Frame) : Prop where
  hdr_eq : frame.hdr =
    acceptedHdr frame.hdr.flags frame.hdr.op frame.payload.length
  payload_le : frame.payload.length ≤ maxPayload
  payload_lt : frame.payload.length < 2 ^ 32
  control : compressedControl frame.hdr.flags frame.hdr.op = false

variable {frame : Frame}

lemma Frame.wire_eq (bound : frame.payload.length < 2 ^ 32) :
    frame.wire = [cmqProtoMagic0, cmqProtoMagic1, cmqProtoVersion, frame.hdr.flags,
        frame.hdr.op] ++ putLe32 frame.payload.length ++ frame.payload := by
  have noOverflow : ¬ frame.payload.length > 2 ^ 32 - 1 := by omega
  have inSize : ¬ frame.payload.length > sizeMax - cmqHeaderLen := by
    simp only [sizeMax, cmqHeaderLen]
    omega
  rw [Frame.wire, cmqFrameEncode, if_neg noOverflow, if_neg inSize, if_neg (lt_irrefl _)]

lemma Frame.length_wire (bound : frame.payload.length < 2 ^ 32) :
    frame.wire.length = cmqHeaderLen + frame.payload.length := by
  rw [Frame.wire_eq bound]
  simp [putLe32, cmqHeaderLen]
  omega

variable {buffer : Bytes}

lemma exists_header (long : cmqHeaderLen ≤ buffer.length) :
    ∃ b0 b1 b2 flags op l0 l1 l2 l3 body,
      buffer = b0 :: b1 :: b2 :: flags :: op :: l0 :: l1 :: l2 :: l3 :: body := by
  unfold cmqHeaderLen at long
  rcases buffer with
    _ | ⟨b0, _ | ⟨b1, _ | ⟨b2, _ | ⟨flags, _ | ⟨op, _ | ⟨l0, _ | ⟨l1, _ | ⟨l2, _ |
      ⟨l3, body⟩⟩⟩⟩⟩⟩⟩⟩⟩
  case cons.cons.cons.cons.cons.cons.cons.cons.cons =>
    exact ⟨b0, b1, b2, flags, op, l0, l1, l2, l3, body, rfl⟩
  all_goals exact absurd long (by simp)

variable {maxPayload : Nat}

lemma peelFrame_of_short
    (short : buffer.length < cmqHeaderLen) :
    peelFrame maxPayload buffer = if badPrefix buffer then .bad else .more := by
  unfold peelFrame
  split
  · rfl
  split
  · simp only [length_cons, cmqHeaderLen] at short
    omega
  rfl

lemma badPrefix_append (bad : badPrefix buffer = true)
    (tail : Bytes) : badPrefix (buffer ++ tail) = true := by
  match buffer, bad with
  | _ :: _ :: _ :: _, bad => simpa [badPrefix] using bad

lemma badPrefix_wire (valid : frame.Valid maxPayload) (tail : Bytes) :
    badPrefix (frame.wire ++ tail) = false := by
  rw [Frame.wire_eq valid.payload_lt]
  simp [badPrefix]

lemma peelFrame_wire (valid : frame.Valid maxPayload) (tail : Bytes) :
    peelFrame maxPayload (frame.wire ++ tail) =
      .item frame (cmqHeaderLen + frame.payload.length) := by
  have size := le32_ofNat valid.payload_lt
  have small := valid.payload_le
  unfold peelFrame
  rw [if_neg (by simp [badPrefix_wire valid tail]), Frame.wire_eq valid.payload_lt]
  simp only [putLe32, cons_append, nil_append, size, valid.control,
    Bool.false_eq_true, if_false, length_append, take_left]
  rw [if_neg (by omega), if_neg (by omega), ← valid.hdr_eq]

lemma valid_of_header {flags op l0 l1 l2 l3 : UInt8}
    {body : Bytes} (control : compressedControl flags op = false)
    (small : le32 l0 l1 l2 l3 ≤ maxPayload)
    (complete : le32 l0 l1 l2 l3 ≤ body.length) :
    Frame.Valid maxPayload
      { hdr := acceptedHdr flags op (le32 l0 l1 l2 l3)
        payload := body.take (le32 l0 l1 l2 l3) } := by
  have length : (body.take (le32 l0 l1 l2 l3)).length = le32 l0 l1 l2 l3 := by
    rw [length_take, min_eq_left complete]
  constructor
  · simp only [acceptedHdr, length]
  · simp only [length]
    exact small
  · simp only [length]
    exact le32_lt l0 l1 l2 l3
  exact control

lemma wire_header_append {flags op l0 l1 l2 l3 : UInt8} {length : Nat}
    {body : Bytes} (header : putLe32 length = [l0, l1, l2, l3])
    (bound : length < 2 ^ 32) (complete : length ≤ body.length) :
    Frame.wire { hdr := acceptedHdr flags op length, payload := body.take length } ++
        body.drop length =
      cmqProtoMagic0 :: cmqProtoMagic1 :: cmqProtoVersion :: flags :: op ::
        l0 :: l1 :: l2 :: l3 :: body := by
  have cut : (body.take length).length = length := by rw [length_take, min_eq_left complete]
  rw [Frame.wire_eq (by simpa only [cut] using bound)]
  simp only [cut, header, acceptedHdr, cons_append, nil_append, take_append_drop]

/-- A complete frame at the front of a buffer is valid and is its own wire form
followed by the rest of the buffer. -/
lemma peelFrame_item (verdict : peelFrame maxPayload buffer = .item frame size) :
    frame.Valid maxPayload ∧ size = cmqHeaderLen + frame.payload.length ∧
      ∃ tail, buffer = frame.wire ++ tail := by
  unfold peelFrame at verdict
  split at verdict
  · cases verdict
  next good =>
  split at verdict
  next b0 b1 b2 _ _ l0 l1 l2 l3 body =>
    simp only [badPrefix] at good
    obtain ⟨rfl, rfl, rfl⟩ : b0 = cmqProtoMagic0 ∧ b1 = cmqProtoMagic1 ∧ b2 = cmqProtoVersion := by
      simpa [and_assoc] using good
    split at verdict
    · cases verdict
    next control =>
    split at verdict
    · cases verdict
    next small =>
    split at verdict
    · cases verdict
    next complete =>
    injection verdict with frameEq sizeEq
    subst frameEq sizeEq
    have valid := valid_of_header (by simpa using control)
      (Nat.le_of_not_lt small) (Nat.le_of_not_lt complete)
    have length :
        (body.take (le32 l0 l1 l2 l3)).length = le32 l0 l1 l2 l3 := by
      rw [length_take, min_eq_left (Nat.le_of_not_lt complete)]
    refine ⟨valid, by rw [length], body.drop (le32 l0 l1 l2 l3), ?_⟩
    exact (wire_header_append (putLe32_le32 l0 l1 l2 l3)
      (le32_lt l0 l1 l2 l3) (Nat.le_of_not_lt complete)).symm
  cases verdict

lemma peelFrame_bad_append (verdict : peelFrame maxPayload buffer = .bad) (tail : Bytes) :
    peelFrame maxPayload (buffer ++ tail) = .bad := by
  unfold peelFrame at verdict
  split at verdict
  next bad =>
    unfold peelFrame
    rw [if_pos (badPrefix_append bad tail)]
  next good =>
  split at verdict
  next b0 b1 b2 flags op l0 l1 l2 l3 body =>
    have stillGood : ¬ badPrefix
        (b0 :: b1 :: b2 :: flags :: op :: l0 :: l1 :: l2 :: l3 :: body ++ tail) := by
      simpa [badPrefix] using good
    unfold peelFrame
    rw [if_neg stillGood]
    simp only [cons_append]
    split at verdict
    next control => rw [if_pos control]
    next control =>
    split at verdict
    next large => rw [if_neg control, if_pos large]
    next => split at verdict <;> cases verdict
  cases verdict

/-- The frame reader of a connection with the given payload cap. -/
def frameCodec (maxPayload : Nat) : Codec UInt8 Frame where
  peel := peelFrame maxPayload
  encode := Frame.wire
  item_pos := by
    intro buffer frame size verdict
    obtain ⟨-, rfl, -⟩ := peelFrame_item verdict
    exact Nat.add_pos_left (by decide) _
  item_le := by
    intro buffer frame size verdict
    obtain ⟨valid, rfl, tail, rfl⟩ := peelFrame_item verdict
    rw [length_append, Frame.length_wire valid.payload_lt]
    exact Nat.le_add_right _ _
  item_local := by
    intro buffer frame size verdict tail
    obtain ⟨valid, rfl, rest, rfl⟩ := peelFrame_item verdict
    rw [← Frame.length_wire valid.payload_lt, take_left, Frame.length_wire valid.payload_lt]
    exact peelFrame_wire valid tail
  encode_item := by
    intro buffer frame size verdict
    obtain ⟨valid, rfl, rest, rfl⟩ := peelFrame_item verdict
    rw [← Frame.length_wire valid.payload_lt, take_left]
  bad_append := peelFrame_bad_append

/-- Frame-by-frame decoding of a byte stream up to its first malformed or incomplete
frame. -/
def decodeFrames (maxPayload : Nat) (stream : Bytes) : List Frame :=
  (frameCodec maxPayload).read stream

def encodeFrames (frames : List Frame) : Bytes := frames.flatMap Frame.wire

lemma accepts_iff_valid : (frameCodec maxPayload).Accepts frame ↔ frame.Valid maxPayload := by
  constructor
  · intro accepted
    exact (peelFrame_item (accepted [])).1
  intro valid tail
  change peelFrame maxPayload (frame.wire ++ tail) = .item frame frame.wire.length
  rw [Frame.length_wire valid.payload_lt]
  exact peelFrame_wire valid tail

lemma decodeFrames_encodeFrames_append (valid : ∀ frame ∈ frames, frame.Valid maxPayload)
    (tail : Bytes) :
    decodeFrames maxPayload (encodeFrames frames ++ tail) =
      frames ++ decodeFrames maxPayload tail := by
  apply (frameCodec maxPayload).read_encodeAll_append
  intro frame member
  exact accepts_iff_valid.mpr (valid frame member)

end CMsgQueue.Proto
