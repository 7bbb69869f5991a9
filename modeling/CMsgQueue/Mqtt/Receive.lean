import CMsgQueue.Lib.Bytes

/-!
# Packets out of the received segments

The loop of `mqtt_handle_client` in `enterprise/cmq_mqtt_server.c`.  Each `recv` fills the buffer
from its start, and one packet is read from what it returned.
-/

namespace CMsgQueue.Mqtt

open List

/-- `MQTT_MAX_PACKET`. -/
def mqttMaxPacket : Nat := 65536

/-- The loop of `decode_remaining_length`, after `n` bytes. -/
def decodeRemainingLengthLoop (multiplier value n : Nat) : Bytes → Option (Nat × Nat)
  | [] => none
  | b :: rest =>
    if n ≥ 4 then none
    else
      let value := value + (b.toNat % 128) * multiplier
      if b.toNat < 128 then some (value, n + 1)
      else decodeRemainingLengthLoop (multiplier * 128) value (n + 1) rest

/-- `decode_remaining_length`: the length and the number of bytes it takes.  Four bytes hold less
than 28 bits, so nothing is lost in a `uint32_t`. -/
def decodeRemainingLength (buf : Bytes) : Option (Nat × Nat) :=
  decodeRemainingLengthLoop 1 0 0 buf

/-- What the loop does with a received segment. -/
inductive Received where
  | ignored
  | closed
  /-- The branch of its type is taken for a packet. -/
  | packet (bytes : Bytes)
deriving DecidableEq

/-- The checks in front of the branches, on one segment. -/
def receive (buf : Bytes) : Received :=
  if buf.length < 2 then .ignored
  else
    match decodeRemainingLength (buf.drop 1) with
    | none => .closed
    | some (remLen, rlOff) =>
      if rlOff + 1 + remLen > buf.length then .closed
      else .packet (buf.take (rlOff + 1 + remLen))

/-- What the branches read besides the packet. -/
structure MqttEnv where
  /-- `cmq_mqtt_parse_connect` and the credentials accept a CONNECT. -/
  accepted : Bytes → Bool
  /-- No call of the branch of a packet fails: the sends, and the rate limit of a PUBLISH. -/
  succeeds : Nat → Bool

/-- The branch taken for a packet, the one with this number: whether the client is connected
afterwards, or `none` if it leaves the loop. -/
def branch (env : MqttEnv) (number : Nat) (connected : Bool) (packet : Bytes) : Option Bool :=
  let type := packet.headD 0 &&& 0xF0
  if type = 0x10 ∧ connected = false then
    if env.accepted packet ∧ env.succeeds number then some true else none
  -- DISCONNECT is taken from a client that has not sent a CONNECT, too.
  else if type = 0xE0 then none
  else if connected = false then none
  else if type ∈ [0xC0, 0x80, 0x30, 0x60] then if env.succeeds number then some true else none
  else some true

/-- `mqtt_handle_client` on the segments that `recv` returns: the packets for which a branch is
taken, each with its place in the stream. -/
def mqttHandleClient (env : MqttEnv) (number : Nat) (connected : Bool) (pos : Nat) :
    List Bytes → List (Nat × Bytes)
  | [] => []
  | buf :: segments =>
    match receive buf with
    | .ignored => mqttHandleClient env number connected (pos + buf.length) segments
    | .closed => []
    | .packet bytes =>
      (pos, bytes) ::
        match branch env number connected bytes with
        | none => []
        | some connected =>
          mqttHandleClient env (number + 1) connected (pos + buf.length) segments

/-- Each packet once and in order, up to the one whose branch leaves the loop. -/
def served (env : MqttEnv) (number : Nat) (connected : Bool) (pos : Nat) :
    List Bytes → List (Nat × Bytes)
  | [] => []
  | packet :: packets =>
    (pos, packet) ::
      match branch env number connected packet with
      | none => []
      | some connected => served env (number + 1) connected (pos + packet.length) packets

/-- Each `recv` returns exactly the next packet.  The packet that ends the connection need only be
at the start of its segment. -/
def InStep (env : MqttEnv) (number : Nat) (connected : Bool) : List Bytes → List Bytes → Prop
  | [], _ => True
  | _ :: _, [] => False
  | packet :: packets, segment :: segments =>
    match branch env number connected packet with
    | none => packet <+: segment
    | some connected => segment = packet ∧ InStep env (number + 1) connected packets segments

/-- A packet: a type, a remaining length and that many bytes. -/
def IsPacket (packet : Bytes) : Prop :=
  receive packet = .packet packet ∧ packet.length ≤ mqttMaxPacket

instance (packet : Bytes) : Decidable (IsPacket packet) := inferInstanceAs (Decidable (_ ∧ _))

/-- What `recv` may return for a stream. -/
structure Cuts (segments : List Bytes) (stream : Bytes) : Prop where
  flatten_eq : segments.flatten = stream
  filled : ∀ segment ∈ segments, segment ≠ [] ∧ segment.length ≤ mqttMaxPacket

lemma prefix_of_receive (read : receive buf = .packet bytes) : bytes <+: buf := by
  unfold receive at read
  split at read
  · cases read
  split at read
  · cases read
  split at read
  · cases read
  cases read
  exact take_prefix _ _

lemma decodeRemainingLengthLoop_append (more : Bytes)
    (read : decodeRemainingLengthLoop multiplier value n buf = some result) :
    decodeRemainingLengthLoop multiplier value n (buf ++ more) = some result := by
  induction buf generalizing multiplier value n with
  | nil => cases read
  | cons b rest ih =>
    simp only [decodeRemainingLengthLoop, cons_append] at read ⊢
    split
    next long => simp [long] at read
    next short =>
      rw [if_neg short] at read
      split
      next last => rwa [if_pos last] at read
      next more =>
        rw [if_neg more] at read
        exact ih read

lemma receive_append (whole : receive packet = .packet packet) (more : Bytes) :
    receive (packet ++ more) = .packet packet := by
  unfold receive at whole ⊢
  split at whole
  · cases whole
  next long =>
    have first : (packet ++ more).drop 1 = packet.drop 1 ++ more :=
      drop_append_of_le_length (by omega)
    rw [if_neg (by rw [length_append]; omega), first]
    split at whole
    · cases whole
    next remLen rlOff read =>
      rw [decodeRemainingLength, decodeRemainingLengthLoop_append more read]
      split at whole
      · cases whole
      next fits =>
        have all := congrArg length (Received.packet.inj whole)
        rw [length_take] at all
        dsimp only
        rw [if_neg (by rw [length_append]; omega), take_append_of_le_length (by omega),
          take_of_length_le (by omega)]

lemma le_of_mem_mqttHandleClient
    (mem : (place, bytes) ∈ mqttHandleClient env number connected pos segments) :
    pos ≤ place := by
  induction segments generalizing number connected pos with
  | nil => cases mem
  | cons buf segments ih =>
    rw [mqttHandleClient] at mem
    split at mem
    · exact Nat.le_of_add_right_le (ih mem)
    · cases mem
    rcases mem_cons.mp mem with first | later
    · cases first
      exact Nat.le_refl _
    split at later
    · cases later
    exact Nat.le_of_add_right_le (ih later)

/-- If the loop goes on behind a packet, the next one tells that nothing followed it. -/
lemma eq_of_served (part : bytes <+: buf)
    (cuts : Cuts (buf :: segments) (bytes :: packets).flatten)
    (same : mqttHandleClient env number connected (pos + buf.length) segments =
      served env number connected (pos + bytes.length) packets) : buf = bytes := by
  refine (part.eq_of_length ?_).symm
  have short := part.length_le
  cases packets with
  | nil =>
    have all := congrArg length cuts.flatten_eq
    simp only [flatten_cons, flatten_nil, length_append, length_nil] at all
    omega
  | cons next packets =>
    rw [served] at same
    have behind := le_of_mem_mqttHandleClient (same ▸ mem_cons_self)
    omega

def pingSession : List Bytes :=
  [[0x10, 0x0C, 0x00, 0x04, 0x4D, 0x51, 0x54, 0x54, 0x04, 0x02, 0x00, 0x3C, 0x00, 0x00],
    [0xC0, 0x00], [0xE0, 0x00]]

end CMsgQueue.Mqtt
