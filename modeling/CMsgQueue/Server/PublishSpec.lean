import CMsgQueue.Server.Publish

/-!
# When a publish is accepted

The checks behind the append to the log, read as a condition on the server and on the
outcomes of the calls: they all pass if and only if the publish is accepted, and otherwise
the publisher gets an error.
-/

namespace CMsgQueue.Server

open Enterprise Proto Util

variable {env : PublishEnv} {srv : CmqServer} {c : CmqClient} {msg : PublishMsg}
  {mapped : Bytes}

def PublishAnswer.isError : PublishAnswer → Bool
  | .error _ => true
  | _ => false

/-- The answer is a success if a condition holds, and an error if it does not. -/
inductive Answers (condition : Prop) : PublishAnswer → Prop
  | accepted (holds : condition) : Answers condition .accepted
  | error (text : Bytes) (fails : ¬ condition) : Answers condition (.error text)

lemma Answers.accepted_iff {condition : Prop}
    (answers : Answers condition answer) : answer = .accepted ↔ condition := by
  cases answers with
  | accepted holds => simp [holds]
  | error _ fails => simp [fails]

lemma Answers.iff {condition condition' : Prop} (answers : Answers condition answer)
    (same : condition ↔ condition') :
    Answers condition' answer :=
  propext same ▸ answers

/-- What a frame says, whatever the server makes of it: its record and its parts. -/
def readPublish (env : PublishEnv) (frame : Frame) : Except Bytes (Bytes × PublishMsg) := do
  let (flags, payload) ← inflateFrame env frame
  readPlain flags payload

lemma bind_eq_ok {ε α β : Type} {x : Except ε α} {next : α → Except ε β} {result : β}
    (passed : x >>= next = .ok result) : ∃ value, x = .ok value ∧ next value = .ok result := by
  cases x with
  | error => cases passed
  | ok value => exact ⟨value, rfl, passed⟩

lemma readPublish_of_front {frame : Frame} {publish : Bytes × PublishMsg}
    (passed : publishFront env srv c frame = .ok publish) :
    readPublish env frame = .ok publish := by
  unfold publishFront at passed
  split at passed
  · cases passed
  obtain ⟨⟨_, _⟩, inflated, passed⟩ := bind_eq_ok passed
  simp only at passed
  split at passed
  · cases passed
  obtain ⟨⟨_, _⟩, readOk, passed⟩ := bind_eq_ok passed
  repeat' split at passed
  · cases passed
  · cases passed
  rw [readPublish, inflated]
  exact readOk.trans passed

def Forwards (env : PublishEnv) (srv : CmqServer) (c : CmqClient) : Prop :=
  (routeForwardIfLive env srv c).1 ≠ -2 ∧ (c.isRoute = true ∨
    cmqRouteForwardMissed env (routeForwardIfLive env srv c).1
      (routeForwardIfLive env srv c).2 = false)

def DeliversSync (env : PublishEnv) (srv : CmqServer) (c : CmqClient) (msg : PublishMsg)
    (mapped : Bytes) (tgts : List CmqDeliverTgt) : Prop :=
  (deliverTargetsSync env.deliver srv tgts mapped c.accountName c.accountEpoch msg.payload
    msg.headers).2.2 = 0

def TakenLocally (env : PublishEnv) (srv : CmqServer) (c : CmqClient) (msg : PublishMsg)
    (mapped : Bytes) (tgts : List CmqDeliverTgt) : Prop :=
  if tgts.length > cmqCoroDeliverBatch ∧ srv.numWorkers > 0 then
    env.coroPayload = true ∧ (msg.headers = [] ∨ env.coroHeaders = true) ∧
      (env.coro = true ∨ DeliversSync env srv c msg mapped tgts)
  else DeliversSync env srv c msg mapped tgts

/-- The message finds its way: to the routes if there is no local target, else to the routes
or a local target. -/
def FansOut (env : PublishEnv) (srv : CmqServer) (c : CmqClient) (msg : PublishMsg)
    (mapped : Bytes) : Prop :=
  match cmqSublistMatch env.deliver.realloc srv.sublist mapped with
  | none => False
  | some result =>
    if result.entries = [] then accountStays env .unmatched srv c = true ∧ Forwards env srv c
    else
      match snapshotDeliverTargets env.deliver srv result.entries with
      | none => False
      | some (tgts, counter) =>
        accountStays env .snapshot srv c = true ∧
          if tgts = [] then accountStays env .noTargets srv c = true ∧ Forwards env srv c
          else
            accountStays env .beforeForward srv c = true ∧
              (routeForwardIfLive env srv c).1 ≠ -2 ∧
              accountStays env .afterForward srv c = true ∧
              (0 < (routeForwardIfLive env srv c).2 ∨
                TakenLocally env { srv with qgRrCounter := counter } c msg mapped tgts)

lemma forwardOnly_answers : Answers (Forwards env srv c) (forwardOnly env srv c).2.answer := by
  unfold forwardOnly Forwards
  simp only
  split
  next gone => exact .error _ fun forwards => forwards.1 gone
  next stays =>
  split
  next missed => exact .error _ fun forwards => by simp [missed] at forwards
  next taken => exact .accepted ⟨stays, by simpa [or_iff_not_imp_left] using taken⟩

lemma missedAnswer_answers (sent : Nat) : Answers (0 < sent) (missedAnswer sent) := by
  unfold missedAnswer
  split
  next positive => exact .accepted positive
  next zero => exact .error _ zero

lemma fanOutSync_answers :
    Answers (0 < sent ∨ DeliversSync env srv c msg mapped tgts)
      (fanOutSync env srv c msg mapped tgts sent).2.answer := by
  unfold fanOutSync DeliversSync
  simp only
  split
  next failed => exact (missedAnswer_answers sent).iff (by simp [failed])
  next reached => exact .accepted (.inr (not_ne_iff.mp reached))

lemma fanOut_answers :
    Answers (0 < sent ∨ TakenLocally env srv c msg mapped tgts)
      (fanOut env srv c msg mapped tgts sent).2.answer := by
  unfold fanOut TakenLocally
  split
  · split
    next refused =>
      apply (missedAnswer_answers sent).iff
      rcases refused with payload | ⟨headers, copy⟩
      · simp [payload]
      simp [headers, copy]
    next copied =>
    rw [not_or, not_and_or, not_not, Bool.not_eq_false, Bool.not_eq_false] at copied
    split
    next spawned => exact .accepted (.inr ⟨copied.1, copied.2, .inl spawned⟩)
    next refused => exact fanOutSync_answers.iff (by simp [copied, refused])
  exact fanOutSync_answers

lemma Answers.recheck {condition : Prop} {stays : Bool} {text : Bytes}
    {failed passed : CmqServer × PublishReply} (errs : failed.2.answer = .error text)
    (answers : stays = true → Answers condition passed.2.answer) :
    Answers (stays = true ∧ condition) (if !stays then failed else passed).2.answer := by
  cases stays with
  | false =>
    rw [Bool.not_false, if_pos rfl, errs]
    exact .error text (by simp)
  | true => exact (answers rfl).iff (by simp)

lemma publishFanOut_answers :
    Answers (FansOut env srv c msg mapped) (publishFanOut env srv c msg mapped).2.answer := by
  unfold publishFanOut FansOut
  cases cmqSublistMatch env.deliver.realloc srv.sublist mapped with
  | none => exact .error _ id
  | some result =>
    simp only
    by_cases nobody : result.entries = []
    · rw [if_pos nobody, if_pos nobody]
      exact .recheck rfl fun _ => forwardOnly_answers
    rw [if_neg nobody, if_neg nobody]
    cases snapshotDeliverTargets env.deliver srv result.entries with
    | none => exact .error _ id
    | some pair =>
      obtain ⟨tgts, counter⟩ := pair
      apply Answers.recheck rfl
      intro _
      by_cases empty : tgts = []
      · rw [if_pos empty, if_pos empty]
        exact .recheck rfl fun _ =>
          @forwardOnly_answers env { srv with qgRrCounter := counter } c
      rw [if_neg empty, if_neg empty]
      apply Answers.recheck rfl
      intro _
      have forwarded : routeForwardIfLive env { srv with qgRrCounter := counter } c =
          routeForwardIfLive env srv c := rfl
      simp only [forwarded]
      by_cases gone : (routeForwardIfLive env srv c).1 = -2
      · rw [if_pos gone]
        exact .error _ fun fans => fans.1 gone
      rw [if_neg gone]
      apply Answers.iff (.recheck rfl fun _ => fanOut_answers)
      exact ⟨fun fans => ⟨gone, fans⟩, And.right⟩

def Admits (env : PublishEnv) (srv : CmqServer) (c : CmqClient) (subject : Bytes) : Prop :=
  (aclAdmit srv.aclHeap srv.aclH subject).2 = some true ∧ env.quota = true ∧
    env.subjectRl = true ∧ (accountApplyRewrite srv c.accountName subject).isSome = true

instance : Decidable (Admits env srv c mapped) := inferInstanceAs (Decidable (_ ∧ _))

def PassesBehind (env : PublishEnv) (srv : CmqServer) (c : CmqClient) (msg : PublishMsg) :
    Prop :=
  Admits env srv c msg.subject ∧
    ∃ mapped accounts held, accountApplyRewrite srv c.accountName msg.subject = some mapped ∧
      storeGate env mapped = none ∧
      accountLiveHold srv.accounts c msg.payload.length = some (accounts, held) ∧
      FansOut env { (admitGate env srv c msg.subject).1 with accounts } c msg mapped

lemma admitGate_cases (env : PublishEnv) (srv : CmqServer) (c : CmqClient) (subject : Bytes) :
    (∃ mapped, (admitGate env srv c subject).2 = .ok mapped ∧ Admits env srv c subject ∧
      accountApplyRewrite srv c.accountName subject = some mapped) ∨
    (∃ text, (admitGate env srv c subject).2 = .error (.error text) ∧ ¬ Admits env srv c subject) ∨
    ((admitGate env srv c subject).2 = .error .undefined ∧ ¬ Admits env srv c subject) := by
  unfold admitGate Admits
  simp only
  split
  next faulted => exact .inr (.inr ⟨rfl, by simp [faulted]⟩)
  next denied => exact .inr (.inl ⟨_, rfl, by simp [denied]⟩)
  next admitted =>
  split
  next exceeded => exact .inr (.inl ⟨_, rfl, by simp [exceeded]⟩)
  next quota =>
  split
  next limited => exact .inr (.inl ⟨_, rfl, by simp [limited]⟩)
  next calm =>
  split
  next unmapped => exact .inr (.inl ⟨_, rfl, by simp [unmapped]⟩)
  next mapped rewritten =>
  refine .inl ⟨mapped, rfl, ⟨admitted, ?_, ?_, by rw [rewritten]; rfl⟩, rewritten⟩
  · simpa using quota
  simpa using calm

/-- Behind the log a publish is accepted if every check passes, refused with an error if an
admitted one meets a later obstacle, and refused or undefined if it is not admitted. -/
lemma publishBehind_cases (env : PublishEnv) (srv : CmqServer) (c : CmqClient)
    (msg : PublishMsg) :
    Answers (PassesBehind env srv c msg) (publishBehind env srv c msg).2.answer ∨
      (publishBehind env srv c msg).2 = .only .undefined ∧ ¬ Admits env srv c msg.subject := by
  unfold publishBehind
  rcases admitGate_cases env srv c msg.subject with
    ⟨mapped, passed, admits, rewritten⟩ | ⟨text, refused, admits⟩ | ⟨faulted, admits⟩
  · left
    simp only [passed]
    have accounts : (admitGate env srv c msg.subject).1.accounts = srv.accounts := rfl
    cases stored : storeGate env mapped with
    | some text =>
      apply Answers.error
      rintro ⟨-, _, _, _, rewritten', _, -⟩
      simp_all
    | none =>
      simp only [accounts]
      cases held : accountLiveHold srv.accounts c msg.payload.length with
      | none =>
        apply Answers.error
        rintro ⟨-, _, _, _, -, -, holds, -⟩
        simp_all
      | some pair =>
        refine publishFanOut_answers.iff ⟨fun fans => ?_, ?_⟩
        · exact ⟨admits, mapped, pair.1, pair.2, rewritten, stored, held, fans⟩
        rintro ⟨-, _, _, _, rewritten', -, holds, fans⟩
        rw [rewritten, Option.some.injEq] at rewritten'
        rw [held, Option.some.injEq] at holds
        subst rewritten' holds
        exact fans
  · left
    simp only [refused]
    exact .error _ fun passes => admits passes.1
  right
  simp only [faulted]
  exact ⟨trivial, admits⟩

lemma accepted_iff_passesBehind :
    (publishBehind env srv c msg).2.answer = .accepted ↔ PassesBehind env srv c msg := by
  rcases publishBehind_cases env srv c msg with answers | ⟨faulted, refused⟩
  · exact answers.accepted_iff
  rw [faulted]
  exact ⟨nofun, fun passes => absurd passes.1 refused⟩

lemma passesBehind_iff_no_error :
    PassesBehind env srv c msg ↔ Admits env srv c msg.subject ∧
      (publishBehind env srv c msg).2.answer.isError = false := by
  constructor
  · intro passes
    rw [accepted_iff_passesBehind.mpr passes]
    exact ⟨passes.1, rfl⟩
  rintro ⟨admits, noError⟩
  rcases publishBehind_cases env srv c msg with answers | ⟨-, refused⟩
  · generalize (publishBehind env srv c msg).2.answer = answer at answers noError
    cases answers with
    | accepted passes => exact passes
    | error => cases noError
  exact absurd admits refused

end CMsgQueue.Server
