import CMsgQueue.Server.PublishRun
import CMsgQueue.Store.Filestore

/-!
# What a replay makes of a record

The records of client publishes are the bytes behind the header of a PUBLISH frame, and come back
through `handle_publish` with a frame and a client that the replay makes up.  Those of the MQTT
bridge begin with `CMQB` and go to `cmq_server_publish`.
-/

namespace CMsgQueue.Server

open List Crc32c Enterprise Proto Store Util

/-! ## Dispatches -/

/-- A publish that is handed on behind the checks in front: its parts, and the account it is
published under. -/
structure PublishDispatch where
  msg : PublishMsg
  account : Bytes
  deriving DecidableEq

/-- What `handle_publish` hands on. -/
def publishDispatch (env : PublishEnv) (srv : CmqServer) (logs : PublishLogs) (c : CmqClient)
    (frame : Frame) : Option PublishDispatch :=
  match publishFront env srv c frame with
  | .error _ => none
  | .ok (_, msg) =>
    if (idempoGate logs msg.headers).2 = none ∧ txnGate env msg.headers = none then
      some ⟨msg, c.accountName⟩
    else none

/-- What `replay_one_record` hands on: for a bridge record to `cmq_server_publish`. -/
def replayDispatch (env : PublishEnv) (srv : CmqServer) (logs : PublishLogs)
    (record : Bytes) : Option PublishDispatch :=
  match replayCall record with
  | .drop | .outside => none
  | .bridge subject payload => some ⟨⟨subject, [], [], payload⟩, cstr "mqtt_bridge_replay"⟩
  | .publish => publishDispatch env srv logs (replayClient srv) (replayFrame record)

variable {e : PublishEvent}

section Dispatch

lemma handlePublish_of_dispatch
    (dispatched : publishDispatch env srv logs c frame = some dispatch) :
    dispatch.account = c.accountName ∧
      (handlePublish env srv logs c frame).1 = (publishBehind env srv c dispatch.msg).1 ∧
      (handlePublish env srv logs c frame).2.2 = (publishBehind env srv c dispatch.msg).2 := by
  unfold publishDispatch at dispatched
  cases front : publishFront env srv c frame with
  | error =>
    rw [front] at dispatched
    cases dispatched
  | ok =>
    simp only [front] at dispatched
    split at dispatched
    next passed =>
      cases dispatched
      simp only [handlePublish, front, passed.1, passed.2, and_self]
    cases dispatched

lemma publishDispatch_of_reaches (reached : e.reaches logs = some (record, msg)) :
    publishDispatch e.env e.srv logs e.client e.frame = some ⟨msg, e.client.accountName⟩ := by
  unfold PublishEvent.reaches PublishEvent.front at reached
  unfold publishDispatch
  cases front : publishFront e.env e.srv e.client e.frame with
  | error =>
    rw [front] at reached
    cases reached
  | ok =>
    simp only [front] at reached ⊢
    split at reached
    next passed =>
      cases reached
      rw [if_pos passed]
    cases reached

/-! ## Records of client publishes -/

/-- The record of a publish is parsed with the flags of its frame, of which inflating takes
away one. -/
lemma parsePublish_of_reaches (reached : e.reaches logs = some (record, msg)) :
    ∃ flags, (e.frame.hdr.flags &&& cmqFlagHeaders = 0 → flags &&& cmqFlagHeaders = 0) ∧
      parsePublish flags record = .ok msg := by
  have front : publishFront e.env e.srv e.client e.frame = .ok (record, msg) := by
    unfold PublishEvent.reaches PublishEvent.front at reached
    split at reached
    · cases reached
    next passed =>
    split at reached
    · cases reached
      exact passed
    cases reached
  obtain ⟨⟨flags, _⟩, inflated, plain⟩ := bind_eq_ok (readPublish_of_front front)
  refine ⟨flags, ?_, ?_⟩
  · intro headers
    unfold inflateFrame at inflated
    split at inflated
    · cases inflated
      exact headers
    split at inflated
    · cases inflated
    cases inflated
    rw [UInt8.and_assoc, UInt8.and_comm (~~~ _), ← UInt8.and_assoc, headers, UInt8.zero_and]
  simp only [readPlain] at plain
  split at plain
  · cases plain
  obtain ⟨_, parsed, same⟩ := bind_eq_ok plain
  cases same
  exact parsed

lemma parsePublish_plain (plain : flags &&& cmqFlagHeaders = 0)
    (record : Bytes) : parsePublish flags record = parsePublish 0 record := by
  have headers : ∀ rest, parseHeaders flags rest = parseHeaders 0 rest := by
    intro rest
    rw [parseHeaders, parseHeaders, if_pos plain, if_pos (by decide)]
  simp only [parsePublish, headers]

/-- A subject is shorter than 256 bytes, so the record of a publish begins with a zero. -/
lemma ne_bridge_of_parsePublish (parsed : parsePublish flags record = .ok msg) :
    record.take 4 ≠ cstr "CMQB" := by
  intro bridge
  obtain ⟨⟨_, _⟩, parsedSubject, -⟩ := bind_eq_ok parsed
  have magic : record.take 2 = (cstr "CMQB").take 2 := by
    rw [← bridge, take_take]
    rfl
  have length : cmqMaxSubject ≤ wireLen record := by
    rw [wireLen, magic]
    decide
  unfold parseSubject at parsedSubject
  split at parsedSubject
  · cases parsedSubject
  simp only [length, or_true] at parsedSubject
  cases parsedSubject

lemma headers_of_parsePublish (parsed : parsePublish 0 record = .ok msg) : msg.headers = [] := by
  obtain ⟨⟨_, rest⟩, -, parsed⟩ := bind_eq_ok parsed
  obtain ⟨⟨_, rest⟩, -, parsed⟩ := bind_eq_ok parsed
  obtain ⟨⟨headers, rest⟩, parsedHeaders, same⟩ := bind_eq_ok parsed
  cases same
  cases parsedHeaders
  rfl

lemma gates_nil (env : PublishEnv) (logs : PublishLogs) :
    (idempoGate logs []).2 = none ∧ txnGate env [] = none := by
  have noKey : cmqIdempoParse [] = none := by decide
  have noVote : cmqTxnParseVote [] = none := by decide
  have noTxn : cmqTxnParse [] = none := by decide
  constructor
  · simp [idempoGate, noKey]
  simp [txnGate, noVote, noTxn]

lemma publishDispatch_replay (parsed : parsePublish 0 record = .ok msg)
    (live : (cmqAccountGet srv.accounts (cstr "$default")).isSome = true)
    (small : srv.maxPayloadSize = 0 ∨ msg.payload.length ≤ srv.maxPayloadSize)
    (exported : cmqAccountCanExport srv.accounts (cstr "$default") msg.subject = true) :
    publishDispatch env srv logs (replayClient srv) (replayFrame record) =
      some ⟨msg, cstr "$default"⟩ := by
  have caps : payloadExceedsCaps srv (replayClient srv) msg.payload.length = false := by
    simp [payloadExceedsCaps, replayClient]
    omega
  have whole : (0 : UInt8) &&& cmqFlagCompressed = 0 := by decide
  have inflated : inflateFrame env (replayFrame record) = .ok (0, record) := if_pos whole
  have unchecked : cmqChecksumConsume 0 record = some record := if_pos (by decide)
  have plain : readPlain 0 record = .ok (record, msg) := by
    simp only [readPlain, unchecked, parsed]
    rfl
  have name : (replayClient srv).accountName = cstr "$default" := rfl
  have flags : ¬ (replayFrame record).hdr.flags &&& cmqFlagCompressed ≠ 0 := not_not_intro whole
  have front : publishFront env srv (replayClient srv) (replayFrame record) =
      .ok (record, msg) := by
    obtain ⟨_, found⟩ := Option.isSome_iff_exists.mp live
    have named : ¬ cstr "$default" = [] := by decide
    have liveClient : clientAccountLive srv (replayClient srv) = true := by
      simp [clientAccountLive, replayClient, found, named]
    rw [publishFront, liveClient, Bool.not_true, inflated]
    simp only [flags, false_and, if_false, bind, Except.bind, plain, caps, name, exported,
      Bool.not_true, Bool.false_eq_true]
  have gates := gates_nil env logs
  rw [← headers_of_parsePublish parsed] at gates
  simp only [publishDispatch, front, gates, and_self, if_true, name]

end Dispatch

/-- Let a publish get to the write-ahead log, without headers and with a record of at least 9
bytes.  On any server with the account `$default` that takes such payloads, the replay of the
record hands on the same subject, reply subject and payload, under `$default`. -/
theorem replay_dispatches_record (e : PublishEvent) (logs : PublishLogs) (record : Bytes)
    (msg : PublishMsg) (reached : e.reaches logs = some (record, msg))
    (plain : e.frame.hdr.flags &&& cmqFlagHeaders = 0) (long : 9 ≤ record.length) (env : PublishEnv)
    (srv : CmqServer) (logs' : PublishLogs)
    (live : (cmqAccountGet srv.accounts (cstr "$default")).isSome = true)
    (small : srv.maxPayloadSize = 0 ∨ msg.payload.length ≤ srv.maxPayloadSize)
    (exported : cmqAccountCanExport srv.accounts (cstr "$default") msg.subject = true) :
    publishDispatch e.env e.srv logs e.client e.frame = some ⟨msg, e.client.accountName⟩ ∧
      replayDispatch env srv logs' record = some ⟨msg, cstr "$default"⟩ := by
  obtain ⟨flags, keyless, parsed⟩ := parsePublish_of_reaches reached
  refine ⟨publishDispatch_of_reaches reached, ?_⟩
  rw [replayDispatch, replayCall, if_neg fun bridge => ne_bridge_of_parsePublish parsed bridge.2,
    if_neg (not_lt.mpr long)]
  rw [parsePublish_plain (keyless plain)] at parsed
  exact publishDispatch_replay parsed live small exported

/-- A server with the accounts `acme` and `$default`. -/
def sampleAccounts : CmqServer where
  __ := oneSubscriber (cstr "acme")
  accounts := ⟨[⟨cstr "acme", true, 1, 0, 0⟩, ⟨cstr "$default", true, 1, 0, 0⟩], [], 0⟩

/-- A client of an account publishes `hello` on `a`. -/
def sampleAccountPublish (account : Bytes) : PublishEvent where
  env := .granted
  srv := sampleAccounts
  client := ⟨9, 1, 4, .connected, [], account, 1, 0, 0, false, -1⟩
  frame := ⟨⟨cmqProtoMagic0, cmqProtoMagic1, cmqProtoVersion, 0, CmqOp.publish.code,
    sampleRecord.length⟩, sampleRecord⟩
  connected := (by decide : (4 : Int) ≠ -1)

theorem replay_dispatches_record_default :
    (sampleAccountPublish (cstr "$default")).reaches ⟨none, some []⟩ =
        some (sampleRecord, ⟨cstr "a", [], [], cstr "hello"⟩) ∧
      replayDispatch .granted sampleAccounts ⟨none, some [sampleRecord]⟩ sampleRecord =
        some ⟨⟨cstr "a", [], [], cstr "hello"⟩, cstr "$default"⟩ := by
  have reached : (sampleAccountPublish (cstr "$default")).reaches ⟨none, some []⟩ =
      some (sampleRecord, ⟨cstr "a", [], [], cstr "hello"⟩) := by decide
  exact ⟨reached, (replay_dispatches_record (sampleAccountPublish (cstr "$default"))
    ⟨none, some []⟩ sampleRecord _ reached (by decide) (by decide) .granted sampleAccounts
    ⟨none, some [sampleRecord]⟩ (by decide) (by decide) (by decide)).2⟩

/-- The publish of another account is in the log, and comes back under `$default`. -/
theorem replay_changes_account :
    let e := sampleAccountPublish (cstr "acme")
    (handlePublish e.env e.srv ⟨none, some []⟩ e.client e.frame).2.1.filestore =
        some [sampleRecord] ∧
      publishDispatch e.env e.srv ⟨none, some []⟩ e.client e.frame =
        some ⟨⟨cstr "a", [], [], cstr "hello"⟩, cstr "acme"⟩ ∧
      replayDispatch e.env e.srv ⟨none, some [sampleRecord]⟩ sampleRecord =
        some ⟨⟨cstr "a", [], [], cstr "hello"⟩, cstr "$default"⟩ := by
  decide

/-! ## Records of the bridge -/

/-- The tag by which `replay_one_record` tells the records of the bridge. -/
def isBridgeRecord (record : Bytes) : Bool :=
  record.length ≥ 7 && record.take 4 == cstr "CMQB"

/-- The record of a topic and a payload is published again with exactly these, and with a
subject that `cmq_server_publish` takes. -/
def BridgeExact (topic payload : Bytes) : Prop :=
  isBridgeRecord (bridgeRecord topic payload) = true ∧
    replayCall (bridgeRecord topic payload) = .bridge topic payload ∧
    topic.length < cmqMaxSubject

/-- The topic is a C string of at most 255 bytes, and the payload happens to begin with its
terminator. -/
def BridgeTerminated (topic payload : Bytes) : Prop :=
  0 ∉ topic ∧ topic.length < cmqMaxSubject ∧ payload.head? = some 0

instance (topic payload : Bytes) : Decidable (BridgeTerminated topic payload) :=
  inferInstanceAs (Decidable (_ ∧ _))

section Bridge

lemma bridgeRecord_eq (topic payload : Bytes) :
    bridgeRecord topic payload =
      67 :: 77 :: 81 :: 66 :: 1 :: (putBe 2 topic.length ++ (topic ++ payload)) := by
  rfl

lemma length_bridgeRecord (topic payload : Bytes) :
    (bridgeRecord topic payload).length = 7 + topic.length + payload.length := by
  rw [bridgeRecord_eq]
  simp
  omega

lemma isBridgeRecord_bridgeRecord (topic payload : Bytes) :
    isBridgeRecord (bridgeRecord topic payload) = true := by
  have magic : (bridgeRecord topic payload).take 4 = cstr "CMQB" := by rfl
  rw [isBridgeRecord, magic, length_bridgeRecord]
  simp
  omega

lemma drop_bridgeRecord (topic payload : Bytes) :
    (bridgeRecord topic payload).drop 7 = topic ++ payload := by
  rw [bridgeRecord_eq]
  simp

/-- The fields of a bridge record are found again, except for the end of the topic. -/
lemma replayCall_bridgeRecord (some : 0 < topic.length) (short : topic.length ≤ 0xFFFF) :
    replayCall (bridgeRecord topic payload) =
      (replayTopic (bridgeRecord topic payload)).elim .outside fun subject =>
        .bridge subject payload := by
  have tag : (bridgeRecord topic payload).length ≥ 7 ∧
      (bridgeRecord topic payload).take 4 = cstr "CMQB" := by
    simpa [isBridgeRecord] using isBridgeRecord_bridgeRecord topic payload
  have topicLen : getBe (((bridgeRecord topic payload).drop 5).take 2) = topic.length := by
    have field : ((bridgeRecord topic payload).drop 5).take 2 = putBe 2 topic.length := by
      rw [bridgeRecord_eq]
      simp
    rw [field, getBe_putBe (by omega)]
  have valid : ¬ ((bridgeRecord topic payload).getD 4 0 ≠ 1 ∨ topic.length = 0 ∨
      7 + topic.length > (bridgeRecord topic payload).length) := by
    rw [length_bridgeRecord]
    rintro (other | _ | _)
    · exact other rfl
    · omega
    omega
  have behind : (bridgeRecord topic payload).drop (7 + topic.length) = payload := by
    rw [← drop_drop, drop_bridgeRecord, drop_left]
  rw [replayCall, if_pos tag]
  simp only [topicLen]
  rw [if_neg valid, behind]

lemma take_topic (short : topic.length < cmqMaxSubject) (first : UInt8) (rest : Bytes) :
    (topic ++ first :: rest).take cmqMaxSubject =
      topic ++ first :: rest.take (cmqMaxSubject - topic.length - 1) := by
  obtain ⟨more, length⟩ := Nat.exists_eq_add_of_lt short
  have left : cmqMaxSubject - topic.length = more + 1 := by omega
  rw [take_append, take_of_length_le (le_of_lt short), left, take_succ_cons, Nat.add_sub_cancel]

lemma takeWhile_topic (plain : 0 ∉ topic) (rest : Bytes) :
    (topic ++ rest).takeWhile (· != 0) = topic ++ rest.takeWhile (· != 0) := by
  apply takeWhile_append_of_pos
  intro _ member
  rw [bne_iff_ne]
  rintro rfl
  exact plain member

/-- The topic is read up to the first zero, which its record does not put there. -/
lemma replayTopic_bridgeRecord_iff (short : topic.length < cmqMaxSubject) :
    replayTopic (bridgeRecord topic payload) = some topic ↔ 0 ∉ topic ∧ payload.head? = some 0 := by
  simp only [replayTopic, drop_bridgeRecord]
  constructor
  · intro read
    split at read
    next ended =>
      rw [Option.some.injEq] at read
      have plain : 0 ∉ topic := by
        intro member
        rw [← read] at member
        exact absurd (mem_takeWhile_imp member) (by decide)
      refine ⟨plain, ?_⟩
      cases payload with
      | nil =>
        -- nothing ends the topic inside the record
        rw [append_nil, take_of_length_le (le_of_lt short)] at ended
        rcases ended with zero | _
        · exact absurd (contains_iff_mem.mp zero) plain
        omega
      | cons _ rest =>
        rw [take_topic short, takeWhile_topic plain] at read
        by_contra other
        rw [head?_cons, Option.some.injEq] at other
        simp [other] at read
    cases read
  rintro ⟨plain, zero⟩
  obtain ⟨rest, rfl⟩ := head?_eq_some_iff.mp zero
  rw [take_topic short, takeWhile_topic plain]
  simp

end Bridge

/-- Let the bridge write a record.  The replay publishes its payload under its topic if and
only if the topic is a C string of less than 256 bytes and the payload begins with a zero
byte.  And no record of a client publish is taken for one of the bridge. -/
theorem replay_bridge_iff (disk : Disk) (fs : CmqFilestore) (nowMs : Nat) (topic payload : Bytes)
    (written : (cmqFilestoreAppendBridge disk fs nowMs topic payload).seq ≠ none) :
    (BridgeExact topic payload ↔ BridgeTerminated topic payload) ∧
      ∀ (e : PublishEvent) (logs : PublishLogs) (record : Bytes) (msg : PublishMsg),
        e.reaches logs = some (record, msg) → isBridgeRecord record = false := by
  refine ⟨?_, fun e logs record msg reached => ?_⟩
  rotate_left
  · obtain ⟨_, -, parsed⟩ := parsePublish_of_reaches reached
    simp [isBridgeRecord, ne_bridge_of_parsePublish parsed]
  have lengths : 0 < topic.length ∧ topic.length ≤ 0xFFFF := by
    by_contra outside
    rw [cmqFilestoreAppendBridge, if_pos (by omega)] at written
    exact written rfl
  rw [BridgeExact, replayCall_bridgeRecord lengths.1 lengths.2]
  constructor
  · rintro ⟨-, call, short⟩
    cases read : replayTopic (bridgeRecord topic payload) with
    | none =>
      rw [read] at call
      cases call
    | some =>
      rw [read] at call
      cases call
      obtain ⟨plain, zero⟩ := (replayTopic_bridgeRecord_iff short).mp read
      exact ⟨plain, short, zero⟩
  rintro ⟨plain, short, zero⟩
  have read := (replayTopic_bridgeRecord_iff short).mpr ⟨plain, zero⟩
  exact ⟨isBridgeRecord_bridgeRecord topic payload, by rw [read]; rfl, short⟩

theorem replay_bridge_iff_terminated :
    BridgeTerminated (cstr "t") [0, 1] ∧ BridgeExact (cstr "t") [0, 1] := by
  have terminated : BridgeTerminated (cstr "t") [0, 1] := by decide
  have written : (cmqFilestoreAppendBridge .empty (.opened 0) 0 (cstr "t") [0, 1]).seq ≠ none := by
    decide +kernel
  exact ⟨terminated, (replay_bridge_iff _ _ _ _ _ written).1.mpr terminated⟩

/-- The payload `x` with a zero behind it is published on `tx` instead of `t`, and for a
payload without a zero the subject is read past the end of the record. -/
theorem replay_misreads_topic :
    (cmqFilestoreAppendBridge .empty (.opened 0) 0 (cstr "t") [120, 0]).seq = some 1 ∧
      replayCall (bridgeRecord (cstr "t") [120, 0]) = .bridge (cstr "tx") [120, 0] ∧
      replayCall (bridgeRecord (cstr "t") (cstr "hello")) = .outside ∧
      ¬ BridgeExact (cstr "t") [120, 0] := by
  refine ⟨by decide +kernel, by decide, by decide, fun exact => ?_⟩
  have call := exact.2.1
  revert call
  decide

end CMsgQueue.Server
