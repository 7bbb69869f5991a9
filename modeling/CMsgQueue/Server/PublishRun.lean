import CMsgQueue.Server.DeliverSpec
import CMsgQueue.Server.PublishSpec

/-!
# Runs of publishes

The duplicate window and the write-ahead log go from one publish to the next; everything else may
change in between, so each event brings the server as it finds it.
-/

namespace CMsgQueue.Server

open List Enterprise Proto Runs Util

/-- A PUBLISH frame of a connected client and the server that handles it. -/
structure PublishEvent where
  env : PublishEnv
  srv : CmqServer
  client : CmqClient
  frame : Frame
  connected : client.fd ≠ -1

namespace PublishEvent

variable {e : PublishEvent} {logs : PublishLogs}

def front (e : PublishEvent) : Except Bytes (Bytes × PublishMsg) :=
  publishFront e.env e.srv e.client e.frame

/-- The logs and the reply that `handle_publish` leaves. -/
def handle (e : PublishEvent) (logs : PublishLogs) : PublishLogs × PublishReply :=
  (handlePublish e.env e.srv logs e.client e.frame).2

def reaches (e : PublishEvent) (logs : PublishLogs) : Option (Bytes × PublishMsg) :=
  match e.front with
  | .error _ => none
  | .ok (record, msg) =>
    if (idempoGate logs msg.headers).2 = none ∧ txnGate e.env msg.headers = none then
      some (record, msg)
    else none

/-- Where a publish ends. -/
inductive Handled (e : PublishEvent) (logs : PublishLogs) : PublishLogs × PublishReply → Prop
  | front (text : Bytes) (failed : e.front = .error text) (missed : e.reaches logs = none) :
      Handled e logs (logs, .only (.error text))
  | window (record : Bytes) (msg : PublishMsg) (answer : PublishAnswer)
      (passed : e.front = .ok (record, msg))
      (stopped : (idempoGate logs msg.headers).2 = some answer)
      (missed : e.reaches logs = none) :
      Handled e logs ((idempoGate logs msg.headers).1, .only answer)
  | txn (record : Bytes) (msg : PublishMsg) (answer : PublishAnswer)
      (passed : e.front = .ok (record, msg)) (isNew : (idempoGate logs msg.headers).2 = none)
      (stopped : txnGate e.env msg.headers = some answer) (missed : e.reaches logs = none) :
      Handled e logs ((idempoGate logs msg.headers).1, .only answer)
  | behind (record : Bytes) (msg : PublishMsg) (passed : e.front = .ok (record, msg))
      (isNew : (idempoGate logs msg.headers).2 = none)
      (plain : txnGate e.env msg.headers = none) (reached : e.reaches logs = some (record, msg)) :
      Handled e logs (walAppend e.env (idempoGate logs msg.headers).1 e.client record,
        (publishBehind e.env e.srv e.client msg).2)

lemma handle_handled (e : PublishEvent) (logs : PublishLogs) :
    Handled e logs (e.handle logs) := by
  unfold handle handlePublish
  cases passed : publishFront e.env e.srv e.client e.frame with
  | error text => exact .front text passed (by simp [reaches, front, passed])
  | ok pair =>
    obtain ⟨record, msg⟩ := pair
    cases stopped : (idempoGate logs msg.headers).2 with
    | some answer =>
      simp only [stopped]
      exact .window record msg answer passed stopped
        (by simp [reaches, front, passed, stopped])
    | none =>
      cases plain : txnGate e.env msg.headers with
      | some answer =>
        simp only [stopped, plain]
        exact .txn record msg answer passed stopped plain
          (by simp [reaches, front, passed, plain])
      | none =>
        simp only [stopped, plain]
        exact .behind record msg passed stopped plain
          (by simp [reaches, front, passed, stopped, plain])

end PublishEvent

structure Attempt where
  event : PublishEvent
  before : PublishLogs
  after : PublishLogs
  reply : PublishReply

namespace Attempt

def record (a : Attempt) : Bytes := (a.event.reaches a.before).elim [] Prod.fst

def admitted (a : Attempt) : Bool :=
  (a.event.reaches a.before).any fun publish =>
    Admits a.event.env a.event.srv a.event.client publish.2.subject

def persisted (a : Attempt) : Bool := a.after.filestore != a.before.filestore

def failed (a : Attempt) : Bool := a.reply.answer.isError

def accepted (a : Attempt) : Bool := a.reply.answer == .accepted

/-- The message was handed on: to a client, a coroutine or a route, or to all of its no
subscribers. -/
def delivered (a : Attempt) : Bool :=
  a.accepted || a.reply.deliveries != [] || a.reply.queued != [] || 0 < a.reply.routed

def key (a : Attempt) : Option (Nat × Nat) :=
  match readPublish a.event.env a.event.frame with
  | .error _ => none
  | .ok (_, msg) => cmqIdempoParse msg.headers

def passes (a : Attempt) : Bool :=
  (a.event.handle { a.before with idempo := none }).2.answer == .accepted

end Attempt

/-- The logs, and what became of the publishes so far. -/
structure PublishSystem where
  logs : PublishLogs
  history : List Attempt

namespace PublishSystem

variable {s : PublishSystem} {e : PublishEvent}

def start (logs : PublishLogs) : PublishSystem := ⟨logs, []⟩

def attempt (s : PublishSystem) (e : PublishEvent) : Attempt :=
  ⟨e, s.logs, (e.handle s.logs).1, (e.handle s.logs).2⟩

/-- `handle_publish` on one frame. -/
def step (s : PublishSystem) (e : PublishEvent) : PublishSystem :=
  ⟨(e.handle s.logs).1, s.history ++ [s.attempt e]⟩

def run (logs : PublishLogs) (events : List PublishEvent) : PublishSystem :=
  events.foldl step (start logs)

/-- The log holds the admitted publishes in order, none of them was answered with an error,
and so a replay of the log on any server handles none that was. -/
structure WalExact (wal : List Bytes) (s : PublishSystem) : Prop where
  exact : s.logs.filestore =
    some (wal ++ (s.history.filter Attempt.admitted).map Attempt.record)
  accounted : ∀ a ∈ s.history, a.persisted = a.admitted
  errors : ∀ a ∈ s.history, a.failed = true → a.persisted = false
  replay : ∀ (env : Nat → PublishEnv) (srv : CmqServer) (logs : PublishLogs),
    logs.filestore = s.logs.filestore →
    ∀ replayed ∈ replayRecords env 0 srv logs (logs.filestore.getD []),
      replayed.1 ∈ wal ∨ ∃ a ∈ s.history, a.record = replayed.1 ∧ a.failed = false

/-- A publish that gets to the append and is appended passes every check behind it; one whose
append fails is not admitted. -/
def WalStep (s : PublishSystem) (e : PublishEvent) : Prop :=
  ∀ record msg, e.reaches s.logs = some (record, msg) →
    if e.env.append = true then PassesBehind e.env e.srv e.client msg
    else ¬ Admits e.env e.srv e.client msg.subject

lemma mem_replayRecords {env : Nat → PublishEnv} {i : Nat} {srv : CmqServer}
    {logs : PublishLogs} {records : List Bytes} {replayed : Bytes × Option (List Delivery)}
    (member : replayed ∈ replayRecords env i srv logs records) : replayed.1 ∈ records := by
  induction records generalizing i srv logs with
  | nil => cases member
  | cons _ records ih =>
    rcases mem_cons.mp member with rfl | member
    · exact mem_cons_self
    exact mem_cons_of_mem _ (ih member)

variable {wal : List Bytes}

lemma WalExact.of (exact : s.logs.filestore =
      some (wal ++ (s.history.filter Attempt.admitted).map Attempt.record))
    (accounted : ∀ a ∈ s.history, a.persisted = a.admitted)
    (errors : ∀ a ∈ s.history, a.failed = true → a.persisted = false) : WalExact wal s := by
  refine ⟨exact, accounted, errors, fun _ _ logs same _ member => ?_⟩
  have located := mem_replayRecords member
  rw [same, exact, Option.getD_some, mem_append, mem_map] at located
  refine located.imp_right fun ⟨a, kept, eq⟩ => ?_
  obtain ⟨inHistory, admitted⟩ := mem_filter.mp kept
  refine ⟨a, inHistory, eq, ?_⟩
  by_contra failed
  rw [Bool.not_eq_false] at failed
  have refused := errors a inHistory failed
  rw [accounted a inHistory, admitted] at refused
  cases refused

lemma idempoGate_filestore (logs : PublishLogs) (headers : Bytes) :
    (idempoGate logs headers).1.filestore = logs.filestore := by
  unfold idempoGate
  split <;> rfl

lemma handle_filestore (attached : s.logs.filestore = some wal) :
    (e.handle s.logs).1.filestore = some (wal ++
      if (e.reaches s.logs).isSome && e.env.append then [(s.attempt e).record] else []) := by
  have recordEq : (s.attempt e).record = (e.reaches s.logs).elim [] Prod.fst := rfl
  have handled := e.handle_handled s.logs
  generalize e.handle s.logs = result at handled
  cases handled with
  | front _ _ missed => simp [missed, attached]
  | window record msg answer passed stopped missed => simp [missed, idempoGate_filestore, attached]
  | txn record msg answer passed isNew stopped missed =>
    simp [missed, idempoGate_filestore, attached]
  | behind record msg passed isNew _ reached =>
    have stored : (idempoGate s.logs msg.headers).1.filestore = some wal := by
      rw [idempoGate_filestore, attached]
    rw [recordEq, reached, walAppend]
    cases e.env.append <;> simp [e.connected, stored]

lemma attempt_persisted (attached : s.logs.filestore = some wal) :
    (s.attempt e).persisted = ((e.reaches s.logs).isSome && e.env.append) := by
  have after : (s.attempt e).after.filestore = (e.handle s.logs).1.filestore := rfl
  have before : (s.attempt e).before.filestore = s.logs.filestore := rfl
  rw [Attempt.persisted, after, before, handle_filestore attached, attached]
  cases (e.reaches s.logs).isSome && e.env.append <;> simp

lemma walExact_step_iff (inv : WalExact wal s) :
    WalExact wal (s.step e) ↔ (s.attempt e).persisted = (s.attempt e).admitted ∧
        ((s.attempt e).failed = true → (s.attempt e).persisted = false) := by
  have last : s.attempt e ∈ (s.step e).history :=
    mem_append_right _ (mem_singleton.mpr rfl)
  constructor
  · intro after
    exact ⟨after.accounted _ last, after.errors _ last⟩
  rintro ⟨accounted, errors⟩
  have split : ∀ a ∈ (s.step e).history, a ∈ s.history ∨ a = s.attempt e := by
    intro a member
    exact (mem_append.mp member).imp_right mem_singleton.mp
  apply WalExact.of
  · have filter : (s.step e).history.filter Attempt.admitted =
        s.history.filter Attempt.admitted ++
          if (s.attempt e).admitted = true then [s.attempt e] else [] := by
      simp [step, filter_cons]
    have appended := handle_filestore (e := e) inv.exact
    rw [← attempt_persisted inv.exact, accounted] at appended
    rw [filter, map_append, ← append_assoc]
    apply appended.trans
    split <;> rfl
  · intro a member
    rcases split a member with old | rfl
    · exact inv.accounted a old
    exact accounted
  intro a member
  rcases split a member with old | rfl
  · exact inv.errors a old
  exact errors

lemma walExact_step (inv : WalExact wal s) : WalExact wal (s.step e) ↔ WalStep s e := by
  have persisted := attempt_persisted (e := e) inv.exact
  have admittedEq : (s.attempt e).admitted = (e.reaches s.logs).any fun publish =>
    Admits e.env e.srv e.client publish.2.subject := rfl
  have replyEq : (s.attempt e).reply = (e.handle s.logs).2 := rfl
  rw [walExact_step_iff inv, persisted, admittedEq, Attempt.failed, replyEq, WalStep]
  have handled := e.handle_handled s.logs
  generalize e.handle s.logs = result at handled
  cases handled with
  | front _ failed missed => simp [missed]
  | window record msg answer passed stopped missed => simp [missed]
  | txn record msg answer passed isNew stopped missed => simp [missed]
  | behind record msg passed isNew _ reached =>
    rw [reached, Option.isSome_some, Option.any_some]
    cases e.env.append with
    | false => simp
    | true => simp [passesBehind_iff_no_error]

/-- The log is exact in every state of a run if and only if every publish that gets to the
append and is appended passes the checks behind it. -/
theorem run_wal_exact_iff (window : Option CmqIdempo) (wal : List Bytes)
    (events : List PublishEvent) :
    (∀ n, WalExact wal (run ⟨window, some wal⟩ (events.take n))) ↔
      Meets step WalStep (start ⟨window, some wal⟩) events := by
  have initial : WalExact wal (start ⟨window, some wal⟩) :=
    .of (by simp [start]) (by simp [start]) (by simp [start])
  exact Meets.iff_invariant (fun _ _ inv => walExact_step inv) initial

end PublishSystem

def PublishEnv.granted : PublishEnv where
  deliver := .granted
  inflate := fun _ => none
  stays := fun _ => true
  txn := none
  append := true
  quota := true
  subjectRl := true
  kvb := 0
  obj := 0
  js := 0
  route := (0, 0)
  routes := none
  routeCount := 0
  coroPayload := true
  coroHeaders := true
  coro := true

/-- A client of the default account publishes on a server with one subscriber. -/
def samplePublish (env : PublishEnv) (flags : UInt8) (record : Bytes) : PublishEvent where
  env := env
  srv := oneSubscriber (cstr "$default")
  client := ⟨9, 1, 4, .connected, [], cstr "$default", 1, 0, 0, false, -1⟩
  frame := ⟨⟨cmqProtoMagic0, cmqProtoMagic1, cmqProtoVersion, flags, CmqOp.publish.code,
    record.length⟩, record⟩
  connected := by decide

/-- The subject `a`, no reply subject and a payload. -/
def sampleRecord : Bytes := putBe 2 1 ++ cstr "a" ++ putBe 2 0 ++ cstr "hello"

namespace PublishSystem

/-- A publish over quota is answered with an error, is in the log, and is delivered by a
replay of the log. -/
theorem run_wal_keeps_rejected :
    let s := run ⟨none, some []⟩ [samplePublish { PublishEnv.granted with quota := false } 0
      sampleRecord]
    (s.history.map fun a => a.reply.answer) = [.error (cstr "quota exceeded")] ∧
      s.logs.filestore = some [sampleRecord] ∧
      ((replayRecords (fun _ => .granted) 0 (oneSubscriber (cstr "$default")) s.logs
        [sampleRecord]).map fun replayed => replayed.2.map List.length) = [some 1] ∧
      ¬ WalExact [] s := by
  refine ⟨by decide, by decide, by decide, fun exact => ?_⟩
  have refused := exact.accounted _ (mem_singleton.mpr rfl)
  revert refused
  decide

end PublishSystem

end CMsgQueue.Server
