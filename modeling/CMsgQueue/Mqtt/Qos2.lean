import CMsgQueue.Lib.Bytes

/-!
# QoS 2 messages of the clients

The table of QoS 2 packet ids in `enterprise/cmq_mqtt_server.c`, shared by all connections, and what
`mqtt_handle_client` does with QoS 2 PUBLISH and PUBREL packets.
-/

namespace CMsgQueue.Mqtt

open List

/-- `MQTT_QOS2_MAX`. -/
def mqttQos2Max : Nat := 128

/-- A `struct qos2_entry`. -/
structure Qos2Entry where
  packetId : UInt16
  /-- 1 when PUBREC was sent, 2 when PUBCOMP was. -/
  phase : Nat
deriving DecidableEq

/-- The loop of `qos2_record_or_lookup`, with whether it found the id. -/
def qos2SetPhase (packetId : UInt16) (phase : Nat) : List Qos2Entry → List Qos2Entry × Bool
  | [] => ([], false)
  | entry :: table =>
    if entry.packetId = packetId then ({ entry with phase := phase } :: table, true)
    else
      let rest := qos2SetPhase packetId phase table
      (entry :: rest.1, rest.2)

/-- `qos2_record_or_lookup`. -/
def qos2RecordOrLookup (table : List Qos2Entry) (packetId : UInt16) (phase : Nat) :
    List Qos2Entry × Bool :=
  let looked := qos2SetPhase packetId phase table
  if looked.2 = false ∧ table.length < mqttQos2Max then
    (table ++ [⟨packetId, phase⟩], looked.2)
  else looked

/-- `qos2_get_phase`. -/
def qos2GetPhase (table : List Qos2Entry) (packetId : UInt16) : Nat :=
  match table.find? (·.packetId = packetId) with
  | none => 0
  | some entry => entry.phase

/-- A QoS 2 message with the exchange it belongs to. -/
structure Qos2Message where
  client : Nat
  packetId : UInt16
  topic : Bytes
  payload : Bytes
deriving DecidableEq

def fansOut (message : Qos2Message) : Bool :=
  0 < message.topic.length && message.topic.length < 128

/-- A packet from one of the clients. -/
inductive Qos2Packet where
  | publish (message : Qos2Message)
  | pubrel (client : Nat) (packetId : UInt16)
deriving DecidableEq

def Qos2Packet.client : Qos2Packet → Nat
  | publish message => message.client
  | pubrel client _ => client

/-- What the clients share, with the calls of `cmq_mqtt_fanout` and the packets sent back. -/
structure Qos2Server where
  table : List Qos2Entry
  fanned : List Qos2Message
  pubrecs : List (Nat × UInt16)
  pubcomps : List (Nat × UInt16)

namespace Qos2Server

def init : Qos2Server := ⟨[], [], [], []⟩

/-- The branches of `mqtt_handle_client` for a QoS 2 PUBLISH and for PUBREL.  The phase of the id is
looked up after the fan-out, and not used. -/
def handle (s : Qos2Server) : Qos2Packet → Qos2Server
  | .publish message =>
    let fanned := if fansOut message then s.fanned ++ [message] else s.fanned
    let _phase := qos2GetPhase s.table message.packetId
    { s with
      fanned := fanned
      table := (qos2RecordOrLookup s.table message.packetId 1).1
      pubrecs := s.pubrecs ++ [(message.client, message.packetId)] }
  | .pubrel client packetId =>
    { s with
      table := (qos2RecordOrLookup s.table packetId 2).1
      pubcomps := s.pubcomps ++ [(client, packetId)] }

def run (packets : List Qos2Packet) : Qos2Server := packets.foldl handle init

end Qos2Server

/-- The messages that open an exchange, which are to be fanned out: PUBLISH opens an exchange of its
client and packet id, and PUBREL ends it. -/
def firstMessages (started : List (Nat × UInt16)) : List Qos2Packet → List Qos2Message
  | [] => []
  | .publish message :: packets =>
    let rest := firstMessages ((message.client, message.packetId) :: started) packets
    if (message.client, message.packetId) ∈ started then rest else message :: rest
  | .pubrel client packetId :: packets =>
    firstMessages (started.filter (· ≠ (client, packetId))) packets

/-- Each PUBLISH that opens an exchange has a topic of 1 to 127 bytes, and no PUBLISH with such a
topic is repeated before its PUBREL. -/
def NeverRepeated (started : List (Nat × UInt16)) : List Qos2Packet → Prop
  | [] => True
  | .publish message :: packets =>
    ((message.client, message.packetId) ∉ started ↔ fansOut message = true) ∧
      NeverRepeated ((message.client, message.packetId) :: started) packets
  | .pubrel client packetId :: packets =>
    NeverRepeated (started.filter (· ≠ (client, packetId))) packets

def published : List Qos2Packet → List Qos2Message
  | [] => []
  | .publish message :: packets => message :: published packets
  | .pubrel _ _ :: packets => published packets

lemma firstMessages_sublist (started : List (Nat × UInt16)) (packets : List Qos2Packet) :
    (firstMessages started packets).Sublist (published packets) := by
  fun_induction firstMessages started packets with
  | case1 => exact List.Sublist.refl _
  | case2 started message packets rest _ ih => exact ih.cons message
  | case3 started message packets rest _ ih => exact ih.cons_cons message
  | case4 started _ _ packets ih => exact ih

lemma fanned_eq_firstMessages_iff (started : List (Nat × UInt16)) (packets : List Qos2Packet) :
    (published packets).filter fansOut = firstMessages started packets ↔
      NeverRepeated started packets := by
  induction packets generalizing started with
  | nil => simp [published, firstMessages, NeverRepeated]
  | cons packet packets ih =>
    cases packet with
    | pubrel client packetId => exact ih _
    | publish message =>
      have step := ih ((message.client, message.packetId) :: started)
      have part := firstMessages_sublist ((message.client, message.packetId) :: started) packets
      rw [published, firstMessages, NeverRepeated, filter_cons, ← step]
      cases goes : fansOut message with
      | true =>
        by_cases repeated : (message.client, message.packetId) ∈ started
        · -- a message of its own too many: all the first ones pass the filter
          rw [if_pos rfl, if_pos repeated]
          simp only [repeated, not_true_eq_false, false_iff, false_and, iff_false]
          intro same
          have all : ∀ other ∈ firstMessages ((message.client, message.packetId) :: started) packets,
              fansOut other = true := by
            rw [← same]
            exact forall_mem_cons.mpr ⟨goes, fun other mem => (mem_filter.mp mem).2⟩
          have short := (part.filter fansOut).length_le
          rw [filter_eq_self.mpr all, ← same, length_cons] at short
          omega
        simp [repeated]
      | false =>
        by_cases repeated : (message.client, message.packetId) ∈ started
        · simp [repeated]
        rw [if_neg Bool.false_ne_true]
        simp only [repeated, not_false_eq_true, Bool.false_eq_true, not_true_eq_false,
          false_and, iff_false]
        intro same
        have mem : message ∈ (published packets).filter fansOut := same ▸ mem_cons_self
        rw [(mem_filter.mp mem).2] at goes
        cases goes

namespace Qos2Server

lemma fanned_foldl (s : Qos2Server) (packets : List Qos2Packet) :
    (packets.foldl handle s).fanned = s.fanned ++ (published packets).filter fansOut := by
  induction packets generalizing s with
  | nil => simp [published]
  | cons packet packets ih =>
    rw [foldl_cons, ih]
    cases packet with
    | pubrel => rfl
    | publish message =>
      cases goes : fansOut message <;> simp [handle, published, goes]

def about (s : Qos2Server) (client : Nat) :
    List Qos2Message × List (Nat × UInt16) × List (Nat × UInt16) :=
  (s.fanned.filter (·.client = client), s.pubrecs.filter (·.1 = client),
    s.pubcomps.filter (·.1 = client))

/-- The packets of the other clients change nothing for a client. -/
lemma about_foldl {s t : Qos2Server} {client : Nat} (same : s.about client = t.about client)
    (packets : List Qos2Packet) :
    (packets.foldl handle s).about client =
      ((packets.filter (·.client = client)).foldl handle t).about client := by
  induction packets generalizing s t with
  | nil => exact same
  | cons packet packets ih =>
    simp only [about, Prod.mk.injEq] at same
    rw [filter_cons]
    by_cases own : packet.client = client
    · rw [if_pos (by simpa using own), foldl_cons]
      refine ih ?_
      cases packet with
      | publish message =>
        cases goes : fansOut message <;>
          simp [about, handle, goes, same]
      | pubrel from_ packetId => simp [about, handle, same]
    rw [if_neg (by simpa using own)]
    refine ih ?_
    cases packet with
    | publish message =>
      have other : ¬ message.client = client := own
      cases goes : fansOut message <;>
        simp [about, handle, goes, same, other]
    | pubrel from_ packetId =>
      have other : ¬ from_ = client := own
      simp [about, handle, same, other]

/-- Each exchange is fanned out exactly once if and only if no PUBLISH is repeated within its
exchange and the topics can be fanned out; no client affects another. -/
theorem run_fans_once_iff (packets : List Qos2Packet) :
    ((run packets).fanned = firstMessages [] packets ∧ ∀ client, (run packets).about client =
        (run (packets.filter (·.client = client))).about client) ↔
      NeverRepeated [] packets := by
  have all := fanned_foldl init packets
  rw [run, all]
  simp only [init, nil_append, fanned_eq_firstMessages_iff]
  exact and_iff_left fun client => about_foldl rfl packets

/-- The client sends its PUBLISH again before PUBREL, and it is fanned out again. -/
theorem repeated_publish_fanned :
    let message : Qos2Message := ⟨1, 7, cstr "t", cstr "x"⟩
    (run [.publish message, .publish message, .pubrel 1 7]).fanned = [message, message] ∧
      firstMessages [] [.publish message, .publish message, .pubrel 1 7] = [message] := by
  decide

end Qos2Server

end CMsgQueue.Mqtt
