import CMsgQueue.Server.IdempoSpec
import CMsgQueue.Server.PublishRun

/-!
# Exactly once

The duplicate window marks a number before the checks that may still refuse the publish, so a
refused publish is taken for a duplicate when it is sent again.
-/

namespace CMsgQueue.Server

open List Enterprise Proto Runs

variable {key : Nat × Nat} {pid seq : Nat} {t : CmqIdempo} {answer : PublishAnswer}

lemma txnGate_of_key (parsed : cmqIdempoParse headers = some key) :
    txnGate env headers = none := by
  have magic : headers.take 4 = cmqIdempoMagic := by
    unfold cmqIdempoParse at parsed
    split at parsed
    · cases parsed
    split at parsed
    · cases parsed
    next same => exact not_ne_iff.mp same
  have other : headers.take 4 ≠ cmqTxnMagic := by
    rw [magic]
    decide
  unfold txnGate cmqTxnParseVote cmqTxnParse
  cases env.txn <;> simp [other]

lemma pid_ne_zero (parsed : cmqIdempoParse headers = some (pid, seq)) : pid ≠ 0 := by
  unfold cmqIdempoParse at parsed
  simp only at parsed
  repeat' split at parsed
  · cases parsed
  · cases parsed
  · cases parsed
  next nonzero =>
    simp only [Option.some.injEq, Prod.mk.injEq] at parsed
    exact parsed.1 ▸ nonzero

lemma idempoGate_of_none
    (unkeyed : cmqIdempoParse headers = none) : idempoGate logs headers = (logs, none) := by
  unfold idempoGate
  split
  · simp_all
  rfl

/-- What the window does with a key. -/
inductive Windowed (t : CmqIdempo) (pid seq : Nat) : CmqIdempo × Option PublishAnswer → Prop
  | full (missing : idempoFind t pid = none) :
      Windowed t pid seq (t, some (.error (cstr "idempo full")))
  | known (old : t.Marked pid seq ∨ t.TooOld pid seq) : Windowed t pid seq (t, some .duplicate)
  | fresh (after : CmqIdempo) (checked : t.Checked pid seq (after, 1)) :
      Windowed t pid seq (after, none)

lemma idempoGate_windowed (attached : logs.idempo = some t)
    (parsed : cmqIdempoParse headers = some (pid, seq)) :
    ∃ after answer, idempoGate logs headers = ({ logs with idempo := some after }, answer) ∧
      Windowed t pid seq (after, answer) := by
  have checked := t.cmqIdempoCheck_checked seq (pid_ne_zero parsed)
  refine ⟨_, _, by rw [idempoGate, attached, parsed], ?_⟩
  generalize cmqIdempoCheck t pid seq = result at checked
  cases checked with
  | full missing => exact .full missing
  | known old => exact .known old
  | fresh after unmarked recent marks keeps =>
    exact .fresh after (.fresh after unmarked recent marks keeps)

lemma Windowed.refused {after : CmqIdempo} (stopped : Windowed t pid seq (after, some answer)) :
    answer ≠ .accepted := by
  cases stopped <;> exact nofun

namespace PublishSystem

variable {s : PublishSystem} {e : PublishEvent}

/-- A publish that is handed on has no earlier one of the same key that was. -/
def Once (earlier : List Attempt) (a : Attempt) : Prop :=
  ∀ key, a.key = some key → a.delivered = true →
    ∀ b ∈ earlier, b.key = some key → b.delivered = false

def AcceptedBefore (earlier : List Attempt) (key : Nat × Nat) : Prop :=
  ∃ b ∈ earlier, b.key = some key ∧ b.accepted = true

/-- A duplicate has an earlier publish of the same key that was accepted, and a publish
without one that passes the other checks is accepted. -/
structure NeverLost (earlier : List Attempt) (a : Attempt) : Prop where
  duplicate : ∀ key, a.key = some key → a.reply.answer = .duplicate →
    AcceptedBefore earlier key
  retry : ∀ key, a.key = some key → ¬ AcceptedBefore earlier key → a.passes = true →
    a.accepted = true

/-- The window has room for the producer, a number before the window was accepted, and a
number it does not know passes the checks behind it. -/
def WindowStep (s : PublishSystem) (e : PublishEvent) : Prop :=
  ∀ record msg pid seq t, e.front = .ok (record, msg) →
    cmqIdempoParse msg.headers = some (pid, seq) → s.logs.idempo = some t →
    idempoFind t pid ≠ none ∧ (t.TooOld pid seq → AcceptedBefore s.history (pid, seq)) ∧
      (¬ t.Marked pid seq → ¬ t.TooOld pid seq → PassesBehind e.env e.srv e.client msg)

/-! ## What a step does to the window -/

/-- What becomes of a publish, as far as the window sees it. -/
inductive Seen (t : CmqIdempo) (s : PublishSystem) (e : PublishEvent) : Prop
  | refused (text : Bytes) (kept : (s.step e).logs.idempo = some t)
      (reply : (s.attempt e).reply = .only (.error text))
      (fails : (s.attempt e).passes = false)
  | unkeyed (noKey : (s.attempt e).key = none) (kept : (s.step e).logs.idempo = some t)
  | stopped (record : Bytes) (msg : PublishMsg) (pid seq : Nat) (answer : PublishAnswer)
      (passed : e.front = .ok (record, msg))
      (parsed : cmqIdempoParse msg.headers = some (pid, seq))
      (key : (s.attempt e).key = some (pid, seq)) (kept : (s.step e).logs.idempo = some t)
      (stopped : Windowed t pid seq (t, some answer))
      (reply : (s.attempt e).reply = .only answer)
  | fresh (record : Bytes) (msg : PublishMsg) (pid seq : Nat) (after : CmqIdempo)
      (passed : e.front = .ok (record, msg))
      (parsed : cmqIdempoParse msg.headers = some (pid, seq))
      (key : (s.attempt e).key = some (pid, seq))
      (marked : (s.step e).logs.idempo = some after) (checked : t.Checked pid seq (after, 1))
      (reply : (s.attempt e).reply = (publishBehind e.env e.srv e.client msg).2)

lemma attempt_key_of_ok (passed : e.front = .ok (record, msg)) :
    (s.attempt e).key = cmqIdempoParse msg.headers := by
  have eventEq : (s.attempt e).event = e := rfl
  rw [Attempt.key, eventEq, readPublish_of_front passed]

lemma attempt_passes_of_error (failed : e.front = .error text) :
    (s.attempt e).passes = false := by
  have eventEq : (s.attempt e).event = e := rfl
  rw [PublishEvent.front] at failed
  rw [Attempt.passes, eventEq, PublishEvent.handle, handlePublish, failed]
  rfl

lemma step_seen (attached : s.logs.idempo = some t) : Seen t s e := by
  have logsEq : (s.step e).logs = (e.handle s.logs).1 := rfl
  have replyEq : (s.attempt e).reply = (e.handle s.logs).2 := rfl
  have handled := e.handle_handled s.logs
  generalize e.handle s.logs = result at handled logsEq replyEq
  cases handled with
  | front text failed missed =>
    exact .refused text (by rw [logsEq, attached]) replyEq (attempt_passes_of_error failed)
  | window record msg answer passed stopped missed =>
    have key := attempt_key_of_ok (s := s) passed
    cases parsed : cmqIdempoParse msg.headers with
    | none =>
      rw [idempoGate_of_none parsed] at stopped
      cases stopped
    | some pair =>
      obtain ⟨pid, seq⟩ := pair
      obtain ⟨after, _, gate, windowed⟩ := idempoGate_windowed attached parsed
      rw [gate] at stopped logsEq
      subst stopped
      have same : after = t := by
        cases windowed <;> rfl
      subst same
      exact .stopped record msg pid seq answer passed parsed (key.trans parsed)
        (by rw [logsEq]) windowed replyEq
  | txn record msg answer passed isNew stopped missed =>
    have key := attempt_key_of_ok (s := s) passed
    cases parsed : cmqIdempoParse msg.headers with
    | none =>
      apply Seen.unkeyed (key.trans parsed)
      rw [logsEq, idempoGate_of_none parsed, attached]
    | some pair =>
      rw [txnGate_of_key parsed] at stopped
      cases stopped
  | behind record msg passed isNew =>
    have key := attempt_key_of_ok (s := s) passed
    have logsEq : (s.step e).logs.idempo = (idempoGate s.logs msg.headers).1.idempo := by
      rw [logsEq]
      unfold walAppend
      repeat' split
      all_goals rfl
    cases parsed : cmqIdempoParse msg.headers with
    | none =>
      apply Seen.unkeyed (key.trans parsed)
      rw [logsEq, idempoGate_of_none parsed, attached]
    | some pair =>
      obtain ⟨pid, seq⟩ := pair
      obtain ⟨after, _, gate, windowed⟩ := idempoGate_windowed attached parsed
      rw [gate] at isNew logsEq
      subst isNew
      cases windowed with
      | fresh _ checked =>
        exact .fresh record msg pid seq after passed parsed (key.trans parsed) logsEq
          checked replyEq

/-! ## At most once -/

def Knows (t : CmqIdempo) (history : List Attempt) : Prop :=
  ∀ b ∈ history, ∀ pid seq, b.key = some (pid, seq) → b.delivered = true →
    t.Marked pid seq ∨ t.TooOld pid seq

def OnceInv (s : PublishSystem) : Prop :=
  ∃ t, s.logs.idempo = some t ∧ Knows t s.history ∧ Along Once s.history

lemma delivered_of_only {a : Attempt} (reply : a.reply = .only answer)
    (refused : answer ≠ .accepted) : a.delivered = false := by
  simp [Attempt.delivered, Attempt.accepted, reply, PublishReply.only, refused]

lemma onceInv_quiet (kept : (s.step e).logs.idempo = some t) (knows : Knows t s.history)
    (once : Along Once s.history)
    (quiet : ∀ key, (s.attempt e).key = some key → (s.attempt e).delivered = false) :
    OnceInv (s.step e) := by
  refine ⟨t, kept, fun b member pid seq key delivered => ?_, along_concat.mpr ⟨once, ?_⟩⟩
  · rcases mem_append.mp member with old | new
    · exact knows b old pid seq key delivered
    rw [mem_singleton.mp new] at key delivered
    rw [quiet (pid, seq) key] at delivered
    cases delivered
  intro key keyed delivered
  rw [quiet key keyed] at delivered
  cases delivered

lemma step_onceInv (inv : OnceInv s) : OnceInv (s.step e) := by
  obtain ⟨t, attached, knows, once⟩ := inv
  cases step_seen (e := e) attached with
  | refused _ kept reply =>
    exact onceInv_quiet kept knows once fun _ _ => delivered_of_only reply nofun
  | unkeyed noKey kept =>
    exact onceInv_quiet kept knows once fun key keyed => by simp [noKey] at keyed
  | stopped record msg pid seq _ passed parsed key kept stopped reply =>
    exact onceInv_quiet kept knows once fun _ _ => delivered_of_only reply stopped.refused
  | fresh record msg pid seq after passed parsed key marked checked reply =>
    cases checked with
    | fresh _ unmarked recent _ keeps =>
      refine ⟨after, marked, fun b member pid' seq' key' delivered => ?_,
        along_concat.mpr ⟨once, fun _ keyed delivered b member sameKey => ?_⟩⟩
      · apply keeps
        rcases mem_append.mp member with old | new
        · exact .inr (knows b old pid' seq' key' delivered)
        rw [mem_singleton.mp new, key] at key'
        cases key'
        exact .inl ⟨rfl, rfl⟩
      rw [key] at keyed
      cases keyed
      by_contra twice
      rw [Bool.not_eq_false] at twice
      exact (knows b member pid seq sameKey twice).elim unmarked recent

/-! ## Nothing lost -/

lemma AcceptedBefore.concat {history : List Attempt} (before : AcceptedBefore history key)
    (a : Attempt) : AcceptedBefore (history ++ [a]) key :=
  before.imp fun _ found => ⟨mem_append_left _ found.1, found.2⟩

def MarksAccepted (t : CmqIdempo) (history : List Attempt) : Prop :=
  ∀ pid seq, t.Marked pid seq → AcceptedBefore history (pid, seq)

def LostInv (s : PublishSystem) : Prop :=
  ∃ t, s.logs.idempo = some t ∧ MarksAccepted t s.history ∧ Along NeverLost s.history

lemma step_lostInv (inv : LostInv s) (met : WindowStep s e) : LostInv (s.step e) := by
  obtain ⟨t, attached, marksAccepted, along⟩ := inv
  have older : ∀ pid seq, t.Marked pid seq → AcceptedBefore (s.step e).history (pid, seq) :=
    fun pid seq marked => (marksAccepted pid seq marked).concat _
  cases step_seen (e := e) attached with
  | refused _ kept reply fails =>
    refine ⟨t, kept, older, along_concat.mpr ⟨along, fun key _ duplicate => ?_,
      fun key _ _ passes => ?_⟩⟩
    · rw [reply] at duplicate
      cases duplicate
    rw [fails] at passes
    cases passes
  | unkeyed noKey kept =>
    exact ⟨t, kept, older, along_concat.mpr ⟨along, fun key keyed => by simp [noKey] at keyed,
      fun key keyed => by simp [noKey] at keyed⟩⟩
  | stopped record msg pid seq answer passed parsed key kept stopped reply =>
    obtain ⟨room, oldAccepted, -⟩ := met record msg pid seq t passed parsed attached
    -- with room for the producer the window only stops what it knows
    have before : AcceptedBefore s.history (pid, seq) := by
      cases stopped with
      | full missing => exact absurd missing room
      | known old => exact old.elim (marksAccepted pid seq) oldAccepted
    refine ⟨t, kept, older, along_concat.mpr ⟨along, fun other keyed _ => ?_,
      fun other keyed never => ?_⟩⟩
    · rw [key, Option.some.injEq] at keyed
      exact keyed ▸ before
    rw [key, Option.some.injEq] at keyed
    exact absurd (keyed ▸ before) never
  | fresh record msg pid seq after passed parsed key marked checked reply =>
    obtain ⟨-, -, passes⟩ := met record msg pid seq t passed parsed attached
    cases checked with
    | fresh _ unmarked recent marks =>
      have answer : (s.attempt e).reply.answer = .accepted := by
        rw [reply]
        exact accepted_iff_passesBehind.mpr (passes unmarked recent)
      have accepted : (s.attempt e).accepted = true := by
        rw [Attempt.accepted, answer]
        rfl
      refine ⟨after, marked, fun pid' seq' marked' => ?_, along_concat.mpr
        ⟨along, fun _ _ duplicate => ?_, fun _ _ _ _ => accepted⟩⟩
      · rcases marks pid' seq' marked' with ⟨rfl, rfl⟩ | old
        · exact ⟨s.attempt e, mem_append_right _ (mem_singleton.mpr rfl), key, accepted⟩
        exact older pid' seq' old
      rw [answer] at duplicate
      cases duplicate

/-- Along every run each key is handed on at most once.  If every step meets the condition on the
window, a publish is taken for a duplicate only after an accepted one. -/
theorem run_exactly_once (filestore : Option (List Bytes)) (events : List PublishEvent) :
    Along Once (run ⟨some cmqIdempoCreate, filestore⟩ events).history ∧
      (Meets step WindowStep (start ⟨some cmqIdempoCreate, filestore⟩) events →
        Along NeverLost (run ⟨some cmqIdempoCreate, filestore⟩ events).history) := by
  have nothing : ∀ pid seq, ¬ CmqIdempo.Marked cmqIdempoCreate pid seq := by
    rintro pid seq ⟨_, located, -⟩
    rw [CmqIdempo.slotOf_create] at located
    cases located
  constructor
  · have initial : OnceInv (start ⟨some cmqIdempoCreate, filestore⟩) :=
      ⟨_, rfl, fun _ member => absurd member not_mem_nil, along_nil _⟩
    obtain ⟨-, -, -, once⟩ := List.foldlRecOn (motive := OnceInv) events step initial
      fun _ inv _ _ => step_onceInv inv
    exact once
  intro met
  have initial : LostInv (start ⟨some cmqIdempoCreate, filestore⟩) :=
    ⟨_, rfl, fun pid seq marked => absurd marked (nothing pid seq), along_nil _⟩
  obtain ⟨-, -, -, along⟩ := Meets.invariant (fun _ _ => step_lostInv) initial met
  exact along

end PublishSystem

def keyHeader (pid seq : Nat) : Bytes := (cmqIdempoEncode cmqIdempoHdrLen pid seq).getD []

/-- A record on `a` with the number of a producer in its headers. -/
def keyedRecord (pid seq : Nat) : Bytes :=
  putBe 2 1 ++ cstr "a" ++ putBe 2 0 ++ putBe 2 cmqIdempoHdrLen ++ keyHeader pid seq ++
    cstr "hello"

def keyedPublish (env : PublishEnv) (pid seq : Nat) : PublishEvent :=
  samplePublish env cmqFlagHeaders (keyedRecord pid seq)

namespace PublishSystem

/-- A number that a fresh window does not know meets the condition if the publish is
accepted. -/
lemma windowStep_of_create (msg : PublishMsg) (attached : s.logs.idempo = some cmqIdempoCreate)
    (read : (readPublish e.env e.frame).toOption.map Prod.snd = some msg)
    (answer : (publishBehind e.env e.srv e.client msg).2.answer = .accepted) : WindowStep s e := by
  intro _ _ pid _ t passed _ attached'
  rw [attached] at attached'
  cases attached'
  rw [readPublish_of_front passed] at read
  cases read
  refine ⟨CmqIdempo.idempoFind_create pid, ?_, fun _ _ => accepted_iff_passesBehind.mp answer⟩
  rintro ⟨_, located, -⟩
  rw [CmqIdempo.slotOf_create] at located
  cases located

/-- A publish that is too large at first and sent again when the limit was raised. -/
theorem run_exactly_once_retried :
    let small := { oneSubscriber (cstr "$default") with maxPayloadSize := 4 }
    let s := run ⟨some cmqIdempoCreate, none⟩
      [{ keyedPublish .granted 1 1 with srv := small }, keyedPublish .granted 1 1]
    (s.history.map fun a => (a.key, a.reply.answer)) =
        [(some (1, 1), .error (cstr "payload too large")), (some (1, 1), .accepted)] ∧
      Along NeverLost s.history := by
  have accepted : (publishBehind .granted (oneSubscriber (cstr "$default"))
      (keyedPublish .granted 1 1).client ⟨cstr "a", [], keyHeader 1 1, cstr "hello"⟩).2.answer =
      .accepted := by
    decide +kernel
  refine ⟨by decide +kernel, (run_exactly_once none _).2 ⟨?_, ?_, trivial⟩⟩
  · exact windowStep_of_create ⟨cstr "a", [], keyHeader 1 1, cstr "hello"⟩ rfl
      (by decide +kernel) (by decide +kernel)
  exact windowStep_of_create ⟨cstr "a", [], keyHeader 1 1, cstr "hello"⟩ (by decide +kernel)
    (by decide +kernel) accepted

lemma not_neverLost_of_duplicate {history : List Attempt} {first : Option (Nat × Nat)}
    {p q : Bool}
    (view : (history.map fun a => (a.key, a.reply.answer, a.passes)) =
      [(first, answer, p), (some key, .duplicate, q)])
    (never : ¬ (first = some key ∧ answer = .accepted)) : ¬ Along NeverLost history := by
  intro along
  obtain ⟨a, rest, rfl, viewFirst, view⟩ := map_eq_cons_iff.mp view
  obtain ⟨b, rest, rfl, viewSecond, -⟩ := map_eq_cons_iff.mp view
  simp only [Prod.mk.injEq] at viewFirst viewSecond
  obtain ⟨_, member, sameKey, accepted⟩ :=
    (along [a] b rest rfl).duplicate key viewSecond.1 viewSecond.2.1
  rw [mem_singleton.mp member] at sameKey accepted
  refine never ⟨viewFirst.1.symm.trans sameKey, viewFirst.2.1.symm.trans ?_⟩
  exact beq_iff_eq.mp accepted

/-- A publish over quota is lost when it is sent again, and so is a first publish whose
number is far behind the last one. -/
theorem run_loses_publish :
    let retried := run ⟨some cmqIdempoCreate, none⟩
      [keyedPublish { PublishEnv.granted with quota := false } 1 1, keyedPublish .granted 1 1]
    let late := run ⟨some cmqIdempoCreate, none⟩
      [keyedPublish .granted 1 100, keyedPublish .granted 1 1]
    (retried.history.map fun a => (a.key, a.reply.answer, a.passes)) =
        [(some (1, 1), .error (cstr "quota exceeded"), false), (some (1, 1), .duplicate, true)] ∧
      (late.history.map fun a => (a.key, a.reply.answer, a.passes)) =
        [(some (1, 100), .accepted, true), (some (1, 1), .duplicate, true)] ∧
      ¬ Along NeverLost retried.history ∧ ¬ Along NeverLost late.history := by
  intro retried late
  have retriedView : (retried.history.map fun a => (a.key, a.reply.answer, a.passes)) =
      [(some (1, 1), .error (cstr "quota exceeded"), false), (some (1, 1), .duplicate, true)] := by
    decide +kernel
  have lateView : (late.history.map fun a => (a.key, a.reply.answer, a.passes)) =
      [(some (1, 100), .accepted, true), (some (1, 1), .duplicate, true)] := by
    decide +kernel
  exact ⟨retriedView, lateView, not_neverLost_of_duplicate retriedView (by simp),
    not_neverLost_of_duplicate lateView (by simp)⟩

end PublishSystem

end CMsgQueue.Server
