import CMsgQueue.Lib.Runs
import CMsgQueue.Server.Publish

/-!
# The inbox budget

The counter `inbox_pending` of a connection under `handle_request` and `handle_response`.  The calls
that do not touch it are outcomes given with each frame.  Beside the counter stands the number of
REQUESTs that it is meant to count.
-/

namespace CMsgQueue.Server

open Crc32c Proto Util

/-- What the stores of `$KV`, `$OBJ` and `$JS` say to a REQUEST. -/
inductive LocalGet where
  | miss
  /-- There is no buffer for `$OBJ`, or for `$JS`. -/
  | noMemory (js : Bool)
  /-- A store has it; `built` is whether there is memory for the answer. -/
  | hit (built : Bool)

/-- Outcomes of the calls of one `handle_request`. -/
structure RequestEnv where
  isRoute : Bool
  inflate : Bytes → Option Bytes
  exceedsCaps : Nat → Bool
  canExport : Bytes → Bool
  rewrite : Bytes → Option Bytes
  localGet : Bytes → LocalGet
  hold : Bool
  /-- The number of targets, if the match and the snapshot succeed. -/
  targets : Option Nat
  /-- `client_account_live` after the snapshot, and after the delivery or without targets. -/
  live : Bool
  liveAfter : Bool
  /-- What `deliver_request_targets` returns. -/
  delivered : Nat
  ambiguous : Bool
  /-- The peers that `route_forward_if_live` reaches, unless the account is gone. -/
  routed : Option Nat
  missed : Bool

/-- How `handle_request` ends behind the budget. -/
inductive RequestEnd where
  | error (text : Bytes)
  | answered
  | acked
  deriving DecidableEq

/-- The payload behind the compression and the checksum; `kind` is the frame's name in the texts. -/
def openFrame (inflate : Bytes → Option Bytes) (kind : String) (flags : UInt8) (payload : Bytes) :
    Except Bytes Bytes :=
  match if flags &&& cmqFlagCompressed = 0 then some payload else inflate payload with
  | none => .error (cstr ("compressed " ++ kind ++ " rejected"))
  | some payload =>
    match cmqChecksumConsume flags payload with
    | none => .error (cstr "checksum mismatch")
    | some payload => if payload.length < 4 then .error (cstr ("invalid " ++ kind)) else .ok payload

/-- The subject, the reply subject and the message, read as those of a publish with other texts. -/
def parseRequest (payload : Bytes) : Except Bytes (Bytes × Bytes × Bytes) :=
  match parseSubject payload with
  | .error _ => .error (cstr "invalid subject")
  | .ok (subject, rest) =>
    match parseReplyTo rest with
    | .error text => .error (if text = cstr "invalid publish" then cstr "invalid request" else text)
    | .ok (replyTo, message) => .ok (subject, replyTo, message)

namespace RequestEnv

/-- `handle_request` behind the stores. -/
def deliver (env : RequestEnv) : RequestEnd :=
  if env.hold = false then .error (cstr "account memory")
  else
    match env.targets with
    | none => .error (cstr "delivery failed")
    | some targets =>
      if env.live = false then .error accountInactive
      else if targets = 0 ∧ env.isRoute = false ∧ env.routed = none then .error accountInactive
      else if env.liveAfter = false then .error accountInactive
      else if targets ≠ 0 ∧ env.delivered ≠ 0 then .acked
      else if targets ≠ 0 ∧ (env.ambiguous ∨ env.isRoute) then .error (cstr "delivery failed")
      else if env.isRoute then .error (cstr "no responders")
      else
        match env.routed with
        | none => .error accountInactive
        | some 0 =>
          .error (cstr (if env.missed then "route failed"
            else if targets = 0 then "no responders" else "delivery failed"))
        | some _ => .acked

/-- `handle_request` from the subject on: how it ends, and whether it lowers the counter again. -/
def handle (env : RequestEnv) (payload : Bytes) : RequestEnd × Bool :=
  match parseRequest payload with
  | .error text => (.error text, false)
  | .ok (subject, replyTo, message) =>
    if env.exceedsCaps message.length then (.error (cstr "payload too large"), false)
    else if env.canExport subject = false then (.error (cstr "permission denied"), false)
    else
      match env.rewrite subject with
      | none => (.error (cstr "subject map failed"), false)
      | some subject =>
        match if subject.head? = some 36 then env.localGet subject else .miss with
        | .noMemory js => (.error (cstr (if js then "js get" else "obj get")), true)
        | .hit built =>
          (if replyTo = [] then .error (cstr "no reply-to")
            else if built then .answered else .error (cstr "kv get"), true)
        | .miss => (env.deliver, false)

def Delivers (env : RequestEnv) : Prop :=
  env.hold = true ∧ env.live = true ∧ env.liveAfter = true ∧
    ∃ targets, env.targets = some targets ∧
      (targets ≠ 0 ∧ env.delivered ≠ 0 ∨
        env.isRoute = false ∧ (targets ≠ 0 → env.ambiguous = false) ∧
          ∃ peers, env.routed = some (peers + 1))

/-- The request is well formed and allowed, and it reaches a store or a responder. -/
def Admits (env : RequestEnv) (payload : Bytes) : Prop :=
  ∃ subject replyTo message mapped, parseRequest payload = .ok (subject, replyTo, message) ∧
    env.exceedsCaps message.length = false ∧ env.canExport subject = true ∧
    env.rewrite subject = some mapped ∧
    (mapped.head? = some 36 ∧ env.localGet mapped ≠ .miss ∨ env.Delivers)

variable {env : RequestEnv}

lemma Delivers.acked (delivers : env.Delivers) : env.deliver = .acked := by
  obtain ⟨hold, live, liveAfter, targets, found, way⟩ := delivers
  rcases way with ⟨some, taken⟩ | ⟨_, _, _, _⟩
  · simp [deliver, hold, live, liveAfter, found, some, taken]
  by_cases targets = 0 <;> simp_all [deliver]

lemma Admits.settles (admits : env.Admits payload) :
    (env.handle payload).1 = .acked ∨ (env.handle payload).2 = true := by
  obtain ⟨_, _, _, _, parsed, caps, exported, rewritten, way⟩ := admits
  simp only [handle, parsed, caps, exported, rewritten, Bool.false_eq_true, Bool.true_eq_false,
    if_false]
  split
  · exact .inr rfl
  · exact .inr rfl
  next missed =>
  rcases way with ⟨dollar, stored⟩ | delivers
  · exact absurd ((if_pos dollar).symm.trans missed) stored
  exact .inl delivers.acked

end RequestEnv

/-- `inbox_pending`, and the REQUESTs passed on whose RESPONSE is outstanding. -/
structure InboxCount where
  pending : Int
  unfinished : Nat

def InboxCount.lower (c : InboxCount) : InboxCount :=
  if 0 < c.pending then { c with pending := c.pending - 1 } else c

/-- `handle_request`; without an end it refuses with `inbox full`.  The counter is an `int`. -/
def handleRequest (maxPending : Int) (env : RequestEnv) (flags : UInt8) (payload : Bytes)
    (c : InboxCount) : InboxCount × Option RequestEnd :=
  match openFrame env.inflate "request" flags payload with
  | .error text => (c, some (.error text))
  | .ok payload =>
    if 0 < maxPending ∧ maxPending ≤ c.pending then (c, none)
    else
      let (ends, lowers) := env.handle payload
      let raised := { c with pending := (c.pending + 1).bmod (2 ^ 32) }
      (if ends = .acked then { raised with unfinished := c.unfinished + 1 }
        else if lowers then raised.lower else raised, some ends)

/-- `handle_response` for the count of a client: did it send the frame, and is it the one whose
REQUEST the frame finishes? -/
def handleResponse (inflate : Bytes → Option Bytes) (flags : UInt8) (payload : Bytes)
    (sent finishes : Bool) (c : InboxCount) : InboxCount :=
  match openFrame inflate "response" flags payload with
  | .error _ => c
  | .ok _ =>
    let c := if sent then c.lower else c
    if finishes then { c with unfinished := c.unfinished - 1 } else c

/-- A frame of a client. -/
inductive InboxFrame where
  | request (client : Nat) (flags : UInt8) (payload : Bytes) (env : RequestEnv)
  /-- `receiver` is the client whose REQUEST the frame finishes. -/
  | response (client : Nat) (flags : UInt8) (payload : Bytes) (inflate : Bytes → Option Bytes)
    (receiver : Option Nat)

def inboxStep (maxPending : Int) (counts : Nat → InboxCount) : InboxFrame → Nat → InboxCount
  | .request client flags payload env => Function.update counts client
      (handleRequest maxPending env flags payload (counts client)).1
  | .response client flags payload inflate receiver => fun other =>
      handleResponse inflate flags payload (other = client) (receiver = some other) (counts other)

/-- A REQUEST that is read finds the inbox full or is admitted, and a RESPONSE that is read comes
from the client whose REQUEST it finishes, or from one without REQUESTs if it finishes none. -/
def InboxInTurn (maxPending : Int) (counts : Nat → InboxCount) : InboxFrame → Prop
  | .request client flags payload env => ∀ opened,
      openFrame env.inflate "request" flags payload = .ok opened →
      (0 < maxPending ∧ maxPending ≤ (counts client).pending) ∨
      ((counts client).unfinished + 1 < 2 ^ 31 ∧ env.Admits opened)
  | .response client flags payload inflate receiver => ∀ opened,
      openFrame inflate "response" flags payload = .ok opened →
      (receiver = some client ∧ 0 < (counts client).unfinished) ∨
      (receiver = none ∧ (counts client).unfinished = 0)

def InboxCount.Exact (c : InboxCount) : Prop := c.pending = c.unfinished ∧ c.unfinished < 2 ^ 31

variable {maxPending : Int} {counts : Nat → InboxCount}

lemma exact_step (frame : InboxFrame) (holds : ∀ client, (counts client).Exact)
    (inTurn : InboxInTurn maxPending counts frame) (other : Nat) :
    (inboxStep maxPending counts frame other).Exact := by
  have same := holds other
  have ⟨pending, small⟩ := same
  cases frame with
  | request client flags payload env =>
    rw [inboxStep, Function.update_apply]
    split
    swap
    · exact same
    next sender =>
    subst sender
    rw [handleRequest]
    split
    · exact same
    next opened whole =>
    split
    · exact same
    next budget =>
    obtain ⟨room, admits⟩ := (inTurn opened whole).resolve_left budget
    have raised : ((counts other).pending + 1).bmod (2 ^ 32) = (counts other).pending + 1 :=
      Int.bmod_eq_of_le (by omega) (by omega)
    dsimp only
    rw [raised, pending]
    split
    · exact ⟨rfl, room⟩
    next kept =>
    rw [if_pos (admits.settles.resolve_left kept), InboxCount.lower, if_pos (by dsimp only; omega)]
    exact ⟨Int.add_sub_cancel .., small⟩
  | response client flags payload inflate receiver =>
    simp only [inboxStep, handleResponse]
    split
    · exact same
    next opened whole =>
    have read := inTurn opened whole
    by_cases sender : other = client
    · subst sender
      rcases read with ⟨rfl, unfinished⟩ | ⟨rfl, finished⟩
      · have positive : 0 < (counts other).pending := by omega
        simp only [InboxCount.lower, decide_true, if_true, if_pos positive]
        exact ⟨by dsimp only; omega, by dsimp only; omega⟩
      simpa [InboxCount.lower, pending, finished] using same
    rcases read with ⟨rfl, -⟩ | ⟨rfl, -⟩ <;> simpa [sender, Ne.symm sender] using same

/-- In a run whose frames all come in turn, the counter of a client is 0 once its REQUESTs are
finished, and a REQUEST is refused with `inbox full` only if as many are unfinished as the budget
allows. -/
theorem inbox_budget {frames : List InboxFrame} (client : Nat)
    (met : Runs.Meets (inboxStep maxPending) (InboxInTurn maxPending) (fun _ => ⟨0, 0⟩) frames) :
    let c := frames.foldl (inboxStep maxPending) (fun _ => ⟨0, 0⟩) client
    (c.unfinished = 0 → c.pending = 0) ∧ ∀ env flags payload,
      (handleRequest maxPending env flags payload c).2 = none → maxPending ≤ c.unfinished := by
  have holds := met.invariant (fun _ frame => exact_step frame) (fun _ => ⟨rfl, Nat.two_pow_pos 31⟩)
  obtain ⟨pending, -⟩ := holds client
  refine ⟨fun finished => by rw [pending, finished]; rfl, fun env flags payload refused => ?_⟩
  rw [handleRequest] at refused
  split at refused
  · cases refused
  split at refused
  next full => exact pending ▸ full.2
  cases refused

def RequestEnv.granted : RequestEnv :=
  ⟨false, some, fun _ => false, fun _ => true, some, fun _ => .miss, true, some 1, true, true, 1,
    false, some 0, false⟩

/-- Client 0 sends two REQUESTs, a client without any sends a RESPONSE to nobody, and client 0
finishes its first REQUEST. -/
def sampleInbox : List InboxFrame :=
  [.request 0 0 [0, 1, 97, 0] .granted, .request 0 0 [0, 1, 97, 0] .granted,
    .response 1 0 [0, 1, 97, 0] some none, .response 0 0 [0, 1, 97, 0] some (some 0)]

/-- With a budget of 1 the second REQUEST is refused, and in the end the counter is 0 again. -/
theorem inbox_budget_finished :
    let first := (sampleInbox.take 1).foldl (inboxStep 1) (fun _ => ⟨0, 0⟩) 0
    let last := sampleInbox.foldl (inboxStep 1) (fun _ => ⟨0, 0⟩) 0
    ((handleRequest 1 .granted 0 [0, 1, 97, 0] first).2 = none ∧ 1 ≤ first.unfinished) ∧
      last.unfinished = 0 ∧ last.pending = 0 := by
  have delivers : RequestEnv.granted.Delivers := ⟨rfl, rfl, rfl, 1, rfl, .inl ⟨by decide, by decide⟩⟩
  have admitted : InboxInTurn 1 (fun _ => ⟨0, 0⟩) (.request 0 0 [0, 1, 97, 0] .granted) := by
    rintro _ ⟨⟩
    exact .inr ⟨by decide, [97], [], [0], [97], by decide, rfl, rfl, rfl, .inr delivers⟩
  have refused := (@inbox_budget 1 (sampleInbox.take 1) 0 ⟨admitted, trivial⟩).2 .granted 0
    [0, 1, 97, 0] (by decide)
  have finished := (@inbox_budget 1 sampleInbox 0 ⟨admitted, fun _ _ => .inl (by decide),
    fun _ _ => .inr ⟨rfl, by decide⟩, fun _ _ => .inl ⟨rfl, by decide⟩, trivial⟩).1 (by decide)
  exact ⟨⟨by decide, Int.ofNat_le.mp refused⟩, by decide, finished⟩

/-- A REQUEST without a subject leaves the counter raised, and so does one that another client
responds to.  With a budget of 1, the next REQUEST is refused. -/
theorem inbox_budget_leaks :
    ([[.request 0 0 [0, 0, 0, 0] .granted],
      [.request 0 0 [0, 1, 97, 0] .granted, .response 1 0 [0, 1, 97, 0] some (some 0)]].map
        fun frames =>
          let c := frames.foldl (inboxStep 1) (fun _ => ⟨0, 0⟩) 0
          (c.unfinished, c.pending, (handleRequest 1 .granted 0 [0, 1, 97, 0] c).2)) =
      [(0, 1, none), (0, 1, none)] := by
  decide

/-! ## What the requester is sent -/

/-- `cmq_frame_encode` into a local buffer, and `cmq_client_send` of what it wrote. -/
def sendFrame (bufSize : Nat) (op : CmqOp) (payload : Bytes) : List Bytes :=
  let frame := cmqFrameEncode bufSize op.code 0 payload
  if frame.length > 0 then [frame] else []

/-- The ERROR of `cmq_send_error`, or the PUBACK, which is encoded into `ack[8]` for an answer
from a store and into `ack[4]` otherwise. -/
def RequestEnd.sent : RequestEnd → List Bytes
  | .error text => sendFrame 256 .error text
  | .answered => sendFrame 8 .puback []
  | .acked => sendFrame 4 .puback []

def requestSent (maxPending : Int) (env : RequestEnv) (flags : UInt8) (payload : Bytes)
    (c : InboxCount) : List Bytes :=
  ((handleRequest maxPending env flags payload c).2.getD (.error (cstr "inbox full"))).sent

def hasOp (op : CmqOp) (frame : Bytes) : Bool := frame[4]? == some op.code

/-- The end is an error with a short text, or the request was `reached`. -/
def RequestEnd.Means (reached : Prop) : RequestEnd → Prop
  | .error text => text.length ≤ 32
  | _ => reached

lemma RequestEnd.Means.mono {ends : RequestEnd} {passes reached : Prop}
    (means : ends.Means passes) (implies : passes → reached) : ends.Means reached := by
  cases ends with
  | error => exact means
  | answered => exact implies means
  | acked => exact implies means

lemma parseRequest_error (failed : parseRequest payload = .error text) : text.length ≤ 32 := by
  unfold parseRequest at failed
  split at failed
  · cases failed
    decide
  split at failed
  next _ refused =>
    unfold parseReplyTo at refused
    dsimp only at refused
    split_ifs at refused <;> cases refused <;> cases failed <;> decide
  cases failed

namespace RequestEnv

/-- A responder is reached, or a peer: with local targets only if none of them took the request. -/
def Passes (env : RequestEnv) : Prop :=
  env.hold = true ∧ env.live = true ∧ ∃ targets, env.targets = some targets ∧
    (targets ≠ 0 ∧ env.delivered ≠ 0 ∨
      env.isRoute = false ∧ (∃ peers, env.routed = some (peers + 1)) ∧
        (targets ≠ 0 → env.liveAfter = true ∧ env.ambiguous = false))

/-- The request is answered from a store, or passes on to a responder or a peer. -/
def Reaches (env : RequestEnv) (payload : Bytes) : Prop :=
  ∃ subject replyTo message mapped, parseRequest payload = .ok (subject, replyTo, message) ∧
    env.exceedsCaps message.length = false ∧ env.canExport subject = true ∧
    env.rewrite subject = some mapped ∧
    match if mapped.head? = some 36 then env.localGet mapped else .miss with
    | .noMemory _ => False
    | .hit built => replyTo ≠ [] ∧ built = true
    | .miss => env.Passes

variable {env : RequestEnv} {payload : Bytes}

lemma deliver_means : env.deliver.Means env.Passes := by
  have short : ∀ {text : Bytes}, text.length ≤ 32 → (RequestEnd.error text).Means env.Passes := id
  unfold deliver
  split
  · exact short (by decide)
  next hold =>
  rw [Bool.not_eq_false] at hold
  split
  · exact short (by decide)
  next targets found =>
  split
  · exact short (by decide)
  next live =>
  rw [Bool.not_eq_false] at live
  split
  · exact short (by decide)
  split
  · exact short (by decide)
  next liveAfter =>
  rw [Bool.not_eq_false] at liveAfter
  split
  next taken => exact ⟨hold, live, targets, found, .inl taken⟩
  split
  · exact short (by decide)
  next sure =>
  split
  · exact short (by decide)
  next own =>
  split
  · exact short (by decide)
  · split_ifs <;> exact short (by decide)
  next _ some routed =>
  obtain ⟨k, rfl⟩ := Nat.exists_eq_succ_of_ne_zero some
  refine ⟨hold, live, targets, found, .inr ⟨Bool.not_eq_true _ ▸ own, ⟨k, routed⟩, fun targeted =>
    ⟨liveAfter, ?_⟩⟩⟩
  exact Bool.not_eq_true _ ▸ fun vague => sure ⟨targeted, .inl vague⟩

lemma handle_means : (env.handle payload).1.Means (env.Reaches payload) := by
  have short : ∀ {text : Bytes}, text.length ≤ 32 →
      (RequestEnd.error text).Means (env.Reaches payload) := id
  unfold handle
  split
  next text failed => exact short (parseRequest_error failed)
  next subject replyTo message parsed =>
  split
  · exact short (by decide)
  next caps =>
  split
  · exact short (by decide)
  next exported =>
  split
  · exact short (by decide)
  next mapped rewritten =>
  have reached := fun way => (⟨subject, replyTo, message, mapped, parsed,
    Bool.not_eq_true _ ▸ caps, Bool.not_eq_false _ ▸ exported, rewritten, way⟩ :
      env.Reaches payload)
  split
  next js stored => cases js <;> exact short (by decide)
  next _ stored =>
    split
    · exact short (by decide)
    next replies =>
    split
    next done => exact reached (by rw [stored]; exact ⟨replies, done⟩)
    exact short (by decide)
  next missed => exact env.deliver_means.mono fun passes => reached (by rw [missed]; exact passes)

end RequestEnv

/-- The request is read within the budget, and reaches a store, a responder or a peer. -/
def RequestReached (maxPending : Int) (env : RequestEnv) (flags : UInt8) (payload : Bytes)
    (c : InboxCount) : Prop :=
  ¬ (0 < maxPending ∧ maxPending ≤ c.pending) ∧
    ∃ opened, openFrame env.inflate "request" flags payload = .ok opened ∧ env.Reaches opened

lemma RequestEnd.sent_error (short : text.length ≤ 32) :
    ∃ frame, (RequestEnd.error text).sent = [frame] ∧ hasOp .puback frame = false ∧
      hasOp .error frame = true := by
  have fits : cmqFrameEncode 256 CmqOp.error.code 0 text =
      [cmqProtoMagic0, cmqProtoMagic1, cmqProtoVersion, 0, CmqOp.error.code] ++
        putLe32 text.length ++ text := by
    rw [cmqFrameEncode, if_neg (by omega), if_neg (by simp only [sizeMax, cmqHeaderLen]; omega),
      if_neg (by simp only [cmqHeaderLen]; omega)]
  refine ⟨cmqFrameEncode 256 CmqOp.error.code 0 text, ?_, by rw [fits]; rfl, by rw [fits]; rfl⟩
  simp [sent, sendFrame, fits]

lemma request_means (maxPending : Int) (env : RequestEnv) (flags : UInt8) (payload : Bytes)
    (c : InboxCount) :
    ((handleRequest maxPending env flags payload c).2.getD (.error (cstr "inbox full"))).Means
      (RequestReached maxPending env flags payload c) := by
  unfold handleRequest
  cases opens : openFrame env.inflate "request" flags payload with
  | error text =>
    have short : text.length ≤ 32 := by
      unfold openFrame at opens
      split at opens
      · cases opens
        decide
      split at opens
      · cases opens
        decide
      split_ifs at opens
      cases opens
      decide
    exact short
  | ok opened =>
    dsimp only
    split
    · exact (by decide : (cstr "inbox full").length ≤ 32)
    next free => exact env.handle_means.mono fun reaches => ⟨free, opened, opens, reaches⟩

/-- The buffers for a PUBACK are shorter than the header of a frame: a request that reaches nobody
is answered with one ERROR, and any other with nothing or an ERROR. -/
theorem request_answered_iff (maxPending : Int) (env : RequestEnv) (flags : UInt8)
    (payload : Bytes) (c : InboxCount) :
    let sent := requestSent maxPending env flags payload c
    let reached := RequestReached maxPending env flags payload c
    (sent.countP fun frame => hasOp .puback frame || hasOp .error frame) = 1 ∧
        (reached → ∃ frame ∈ sent, hasOp .puback frame = true) ↔
      ¬ reached := by
  have means := request_means maxPending env flags payload c
  dsimp only [requestSent]
  generalize (handleRequest maxPending env flags payload c).2.getD (.error (cstr "inbox full")) =
    ends at means ⊢
  cases ends with
  | error =>
    obtain ⟨frame, sent, other, error⟩ := RequestEnd.sent_error means
    simp [sent, other, error]
  | answered => exact iff_of_false (fun answered => absurd answered.1 (by decide)) (· means)
  | acked => exact iff_of_false (fun answered => absurd answered.1 (by decide)) (· means)

/-- A request that a responder takes, and one that a store answers: nothing is sent. -/
theorem request_unanswered :
    requestSent 0 .granted 0 [0, 1, 97, 0] ⟨0, 0⟩ = [] ∧
      requestSent 0 { RequestEnv.granted with localGet := fun _ => .hit true } 0
        [0, 1, 36, 0, 1, 97] ⟨0, 0⟩ = [] ∧
      RequestReached 0 .granted 0 [0, 1, 97, 0] ⟨0, 0⟩ := by
  refine ⟨by decide, by decide, by decide, _, rfl, [97], [], [0], [97], by decide, rfl, rfl,
    rfl, ?_⟩
  exact ⟨rfl, rfl, 1, rfl, .inl ⟨by decide, by decide⟩⟩

end CMsgQueue.Server
