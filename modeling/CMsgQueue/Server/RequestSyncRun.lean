import CMsgQueue.Server.MailboxSpec
import CMsgQueue.Server.RequestSync

/-!
# Runs of a REQUEST to a client of another worker

At most one message of the request is in the mailbox or with the worker, and it is the one of the
current attempt.  The publisher and that message hold the references to the slot.
-/

namespace CMsgQueue.Server

open List RequestState Runs Chain

/-! ## What is known of the current attempt -/

/-- The slot is settled: the request was sent and drained, or it failed; in the second case
`buffered` tells if bytes were queued. -/
def Resolved (i : Nat) (slot : CmqReqSync) (wire drained : List Nat) : Prop :=
  (slot.result = .ok ∧ wire = [i] ∧ drained = [i]) ∨
    (slot.result = .fail ∧ drained = [] ∧ (wire = [] ∨ (wire = [i] ∧ slot.buffered = true)))

/-- Nothing of the request was put on the wire, and the publisher may have given up. -/
def Untouched (slot : CmqReqSync) (wire drained : List Nat) : Prop :=
  (slot.result = .pending ∨ slot.result = .fail) ∧ slot.buffered = false ∧ wire = [] ∧
    drained = []

def Undelivered (i : Nat) (slot : CmqReqSync) (wire drained : List Nat) : Prop :=
  drained = [] ∧ ((slot.result = .claimed ∧ (wire = [] ∨ (wire = [i] ∧ slot.buffered = true))) ∨
    ((slot.result = .pending ∨ slot.result = .fail) ∧ wire = []))

/-- What holds when the worker is at a place of `worker_deliver_send_msg`. -/
def WorkerFact (i : Nat) (slot : CmqReqSync) (wire drained : List Nat) :
    RequestWorkerPc → Prop
  | .idle => False
  | .claim j => j = i ∧ Untouched slot wire drained
  | .send j => j = i ∧ slot.result = .claimed ∧ wire = [] ∧ drained = []
  | .mark j => j = i ∧ slot.result = .claimed ∧ wire = [i] ∧ drained = []
  | .drain j => j = i ∧ slot.result = .claimed ∧ slot.buffered = true ∧ wire = [i] ∧ drained = []
  | .complete j .ok => j = i ∧ slot.result = .claimed ∧ wire = [i] ∧ drained = [i]
  | .complete j .fail => j = i ∧ Undelivered i slot wire drained
  | .complete _ _ => False
  | .resolve j .ok cur =>
    j = i ∧ cur = .claimed ∧ slot.result = .claimed ∧ wire = [i] ∧ drained = [i]
  | .resolve j .fail cur => j = i ∧ reqSyncTerminal cur = false ∧ Undelivered i slot wire drained
  | .resolve _ _ _ => False
  | .release j => j = i ∧ Resolved i slot wire drained

/-- Where the message of the current attempt is. -/
inductive MessagePlace where
  | gone
  | queued
  | taken
  | working

def MessagePlace.isGone : MessagePlace → Bool
  | .gone => true
  | _ => false

def Placed (s : RequestState) (i : Nat) (slot : CmqReqSync) : MessagePlace → Prop
  | .gone => s.queued = [] ∧ s.taken = [] ∧ s.worker = .idle
  | .queued => s.queued = [i] ∧ s.taken = [] ∧ s.worker = .idle ∧
      Untouched slot s.wire s.drained
  | .taken => s.queued = [] ∧ s.taken = [i] ∧ s.worker = .idle ∧
      Untouched slot s.wire s.drained
  | .working => s.queued = [] ∧ s.taken = [] ∧ WorkerFact i slot s.wire s.drained s.worker

def Held (i : Nat) (slot : CmqReqSync) (wire drained : List Nat) (gone : Bool) : Prop :=
  slot.freed = 0 ∧
    if gone then slot.refs = 1 ∧ Resolved i slot wire drained else slot.refs = 2

def Means (i : Nat) (slot : CmqReqSync) (wire drained : List Nat) (gone : Bool) (ret : Int) :
    Prop :=
  (ret = 1 → wire = [i] ∧ drained = [i]) ∧
    (ret = 0 → wire = [] ∧ (gone = false → slot.result = .fail))

/-- What holds when the publisher is at a place of `deliver_request_via_worker` behind the
allocation of the slot. -/
def PublisherFact (i : Nat) (slot : CmqReqSync) (wire drained : List Nat) (gone : Bool) :
    PublisherPc → Prop
  | .start => False
  | .push j => j = i ∧ gone = true ∧ slot = .new ∧ wire = [] ∧ drained = []
  | .complete j | .resolve j _ | .release j =>
    j = i ∧ gone = true ∧ slot.freed = 0 ∧ slot.refs = 2 ∧ wire = [] ∧ drained = []
  | .pushFailed j | .cancelled j => j = i ∧ gone = true ∧ slot.freed = 0 ∧ wire = [] ∧ drained = []
  | .finish j v => j = i ∧ Held i slot wire drained gone ∧ slot.result = v ∧
      reqSyncTerminal v = true
  | .leave j ret => j = i ∧ Held i slot wire drained gone ∧ Means i slot wire drained gone ret
  | .done ret =>
    (if gone then slot.freed = 1 else slot.freed = 0 ∧ slot.refs = 1) ∧
      Means i slot wire drained gone ret
  | .signal j | .relock j | .wait j _ | .cancel j | .extra j _ | .hard j _ | .abandon j _
  | .last j | .lastAbandon j => j = i ∧ Held i slot wire drained gone

namespace RequestState

structure Between (s : RequestState) : Prop where
  publisher : s.publisher = .start ∨ s.publisher = .done 0
  freed : ∀ slot ∈ s.slots, slot.freed = 1
  queued : s.queued = []
  taken : s.taken = []
  worker : s.worker = .idle
  wire : s.wire = []
  drained : s.drained = []

structure During (s : RequestState) (old : List CmqReqSync) (slot : CmqReqSync)
    (place : MessagePlace) : Prop where
  slots : s.slots = old ++ [slot]
  freed : ∀ slot ∈ old, slot.freed = 1
  placed : Placed s old.length slot place
  publisher : PublisherFact old.length slot s.wire s.drained place.isGone s.publisher

def Inv (s : RequestState) : Prop :=
  s.faulted = false ∧ (s.Between ∨ ∃ old slot place, s.During old slot place)

end RequestState

section Facts

variable {i : Nat} {slot slot' : CmqReqSync} {wire drained : List Nat} {pc : PublisherPc}

section

variable (fact : PublisherFact i slot wire drained false pc)
include fact

/-- What a publisher with a message around knows carries over with its reference, a settled
result and the meaning of what it returns. -/
lemma PublisherFact.imp {gone : Bool}
    (held : Held i slot wire drained false → Held i slot' wire' drained' gone)
    (settled : reqSyncTerminal slot.result = true → slot'.result = slot.result)
    (means : ∀ ret, Means i slot wire drained false ret → Means i slot' wire' drained' gone ret)
    (counts : slot.freed = 0 ∧ slot.refs = 1 →
      if gone then slot'.freed = 1 else slot'.freed = 0 ∧ slot'.refs = 1) :
    PublisherFact i slot' wire' drained' gone pc := by
  cases pc with
  | start => exact fact.elim
  | push j | complete j | resolve j _ | release j | pushFailed j | cancelled j => cases fact.2.1
  | finish j v =>
    obtain ⟨same, holds, value, terminal⟩ := fact
    exact ⟨same, held holds, (settled (value ▸ terminal)).trans value, terminal⟩
  | leave j ret => exact ⟨fact.1, held fact.2.1, means ret fact.2.2⟩
  | done ret => exact ⟨counts fact.1, means ret fact.2⟩
  | _ => exact ⟨fact.1, held fact.2⟩

/-- What the worker does while it has the message is seen by the publisher only through the
result, and not once that is settled. -/
lemma PublisherFact.mono (refs : slot'.refs = slot.refs) (freed : slot'.freed = slot.freed)
    (settled : reqSyncTerminal slot.result = true → slot'.result = slot.result)
    (unsent : slot.result = .fail → wire = [] → wire' = [])
    (sent : wire = [i] → drained = [i] → wire' = [i] ∧ drained' = [i]) :
    PublisherFact i slot' wire' drained' false pc := by
  refine fact.imp (fun held => ?_) settled (fun _ => ?_) (fun counts => ?_)
  · unfold Held
    rw [refs, freed]
    exact held
  · rintro ⟨one, zero⟩
    refine ⟨fun is => sent (one is).1 (one is).2, fun is => ⟨?_, fun _ => ?_⟩⟩
    · exact unsent ((zero is).2 rfl) (zero is).1
    have failed := (zero is).2 rfl
    rw [settled (by rw [failed]; rfl), failed]
  exact ⟨freed.trans counts.1, refs.trans counts.2⟩

lemma PublisherFact.released (resolved : Resolved i slot wire drained) :
    PublisherFact i (reqSyncRelease slot) wire drained true pc := by
  refine fact.imp ?_ (fun _ => rfl) ?_ (fun counts => ?_)
  · rintro ⟨unfreed, refs⟩
    simp only [Bool.false_eq_true, if_false] at refs
    exact ⟨by simp [reqSyncRelease, refs, unfreed], by simp [reqSyncRelease, refs], resolved⟩
  · rintro _ ⟨one, zero⟩
    exact ⟨one, fun is => ⟨(zero is).1, by simp⟩⟩
  simp [reqSyncRelease, counts.1, counts.2]

end

lemma WorkerFact.complete (fact : WorkerFact i slot wire drained (.complete j v)) :
    j = i ∧ WorkerFact i slot wire drained
      (if reqSyncTerminal slot.result then .release i else .resolve i v slot.result) := by
  cases v with
  | pending | claimed => exact fact.elim
  | ok =>
    obtain ⟨rfl, result, sent⟩ := fact
    refine ⟨rfl, ?_⟩
    simp only [result, reqSyncTerminal, Bool.false_eq_true, if_false]
    exact ⟨rfl, rfl, result, sent⟩
  | fail =>
    obtain ⟨rfl, drained, how⟩ := fact
    refine ⟨rfl, ?_⟩
    split
    next terminal =>
      rcases how with claimed | ⟨pending | failed, unsent⟩
      · simp [claimed.1, reqSyncTerminal] at terminal
      · simp [pending, reqSyncTerminal] at terminal
      exact ⟨rfl, .inr ⟨failed, drained, .inl unsent⟩⟩
    next unsettled => exact ⟨rfl, Bool.eq_false_iff.mpr unsettled, drained, how⟩

lemma WorkerFact.resolve (fact : WorkerFact i slot wire drained (.resolve j v cur)) :
    j = i ∧ reqSyncTerminal cur = false ∧
      (slot.result = cur →
        WorkerFact i { slot with result := v } wire drained (.release i)) ∧
      (slot.result ≠ cur → WorkerFact i slot wire drained (.complete i v)) := by
  cases v with
  | pending | claimed => exact fact.elim
  | ok =>
    obtain ⟨rfl, rfl, result, sent⟩ := fact
    exact ⟨rfl, rfl, fun _ => ⟨rfl, .inl ⟨rfl, sent⟩⟩, fun different => absurd result different⟩
  | fail =>
    obtain ⟨rfl, open_, drained, how⟩ := fact
    refine ⟨rfl, open_, fun _ => ⟨rfl, .inr ⟨rfl, drained, ?_⟩⟩, fun _ => ⟨rfl, drained, how⟩⟩
    rcases how with ⟨-, sent⟩ | ⟨-, unsent⟩
    · exact sent
    exact .inl unsent

section

variable (result : slot'.result = slot.result ∨ (slot.result = .pending ∧ slot'.result = .fail))
  (buffered : slot'.buffered = slot.buffered)
include result buffered

/-- What the publisher does to a slot leaves what the worker knows of it: the result stays, or
goes from pending to failed. -/
lemma Untouched.mono (untouched : Untouched slot wire drained) :
    Untouched slot' wire drained := by
  obtain ⟨before, unbuffered, sent⟩ := untouched
  refine ⟨?_, buffered.trans unbuffered, sent⟩
  rcases result with same | ⟨-, failed⟩
  · rw [same]
    exact before
  exact .inr failed

lemma Undelivered.mono (undelivered : Undelivered i slot wire drained) :
    Undelivered i slot' wire drained := by
  obtain ⟨undrained, how⟩ := undelivered
  refine ⟨undrained, ?_⟩
  rcases result with same | ⟨pending, failed⟩
  · rw [same, buffered]
    exact how
  rcases how with ⟨claimed, -⟩ | ⟨-, unsent⟩
  · cases pending.symm.trans claimed
  exact .inr ⟨.inr failed, unsent⟩

lemma Resolved.mono (resolved : Resolved i slot wire drained) :
    Resolved i slot' wire drained := by
  rcases result with same | ⟨pending, -⟩
  · unfold Resolved
    rw [same, buffered]
    exact resolved
  rcases resolved with ⟨ok, -⟩ | ⟨failed, -⟩
  · cases pending.symm.trans ok
  cases pending.symm.trans failed

lemma WorkerFact.mono {pc : RequestWorkerPc} (fact : WorkerFact i slot wire drained pc) :
    WorkerFact i slot' wire drained pc := by
  have claimed : slot.result = .claimed → slot'.result = .claimed := by
    intro before
    rcases result with same | ⟨pending, -⟩
    · exact same.trans before
    cases pending.symm.trans before
  cases pc with
  | idle => exact fact
  | claim j => exact ⟨fact.1, fact.2.mono result buffered⟩
  | send | mark => exact ⟨fact.1, claimed fact.2.1, fact.2.2⟩
  | drain j => exact ⟨fact.1, claimed fact.2.1, buffered.trans fact.2.2.1, fact.2.2.2⟩
  | complete j v =>
    cases v with
    | ok => exact ⟨fact.1, claimed fact.2.1, fact.2.2⟩
    | fail => exact ⟨fact.1, fact.2.mono result buffered⟩
    | _ => exact fact
  | resolve j v =>
    cases v with
    | ok => exact ⟨fact.1, fact.2.1, claimed fact.2.2.1, fact.2.2.2⟩
    | fail => exact ⟨fact.1, fact.2.1, fact.2.2.mono result buffered⟩
    | _ => exact fact
  | release j => exact ⟨fact.1, fact.2.mono result buffered⟩

end

variable {s : RequestState} {place : MessagePlace}

lemma Placed.mono (placed : Placed s i slot place)
    (result : slot'.result = slot.result ∨ (slot.result = .pending ∧ slot'.result = .fail))
    (buffered : slot'.buffered = slot.buffered) : Placed s i slot' place := by
  cases place with
  | gone => exact placed
  | queued | taken => exact ⟨placed.1, placed.2.1, placed.2.2.1, placed.2.2.2.mono result buffered⟩
  | working => exact ⟨placed.1, placed.2.1, placed.2.2.mono result buffered⟩

lemma Held.around (held : Held i slot wire drained gone)
    (unsettled : reqSyncTerminal slot.result = false) : gone = false := by
  cases gone with
  | false => rfl
  | true =>
    rcases held.2.2 with ⟨ok, -⟩ | ⟨failed, -⟩
    · rw [ok] at unsettled
      cases unsettled
    rw [failed] at unsettled
    cases unsettled

lemma WorkerFact.of_not_claimed {pc : RequestWorkerPc} (fact : WorkerFact i slot wire drained pc)
    (unclaimed : slot.result ≠ .claimed) :
    ((slot.result = .pending ∨ slot.result = .fail) ∧ wire = [] ∧ drained = []) ∨
      Resolved i slot wire drained := by
  have undelivered : Undelivered i slot wire drained →
      (slot.result = .pending ∨ slot.result = .fail) ∧ wire = [] ∧ drained = [] := by
    rintro ⟨undrained, ⟨claimed, -⟩ | ⟨result, unsent⟩⟩
    · exact absurd claimed unclaimed
    exact ⟨result, unsent, undrained⟩
  cases pc with
  | idle => exact fact.elim
  | claim j => exact .inl ⟨fact.2.1, fact.2.2.2⟩
  | send j | mark j | drain j => exact absurd fact.2.1 unclaimed
  | complete j v =>
    cases v with
    | ok => exact absurd fact.2.1 unclaimed
    | fail => exact .inl (undelivered fact.2)
    | _ => exact fact.elim
  | resolve j v =>
    cases v with
    | ok => exact absurd fact.2.2.1 unclaimed
    | fail => exact .inl (undelivered fact.2.2)
    | _ => exact fact.elim
  | release j => exact .inr fact.2

lemma WorkerFact.unsent {pc : RequestWorkerPc} (fact : WorkerFact i slot wire drained pc)
    (pending : slot.result = .pending) : wire = [] := by
  rcases fact.of_not_claimed (by simp [pending]) with ⟨-, unsent, -⟩ | ⟨ok, -⟩ | ⟨failed, -⟩
  · exact unsent
  · cases pending.symm.trans ok
  cases pending.symm.trans failed

lemma Placed.unsent (placed : Placed s i slot place) (around : place.isGone = false)
    (pending : slot.result = .pending) : s.wire = [] := by
  cases place with
  | gone => cases around
  | queued | taken => exact placed.2.2.2.2.2.1
  | working => exact placed.2.2.unsent pending

lemma resolved_of_unsent (terminal : reqSyncTerminal slot.result = true)
    (how : (slot.result = .pending ∨ slot.result = .fail) ∧ wire = [] ∧ drained = []) :
    Resolved i slot wire drained := by
  obtain ⟨pending | failed, unsent, undrained⟩ := how
  · rw [pending] at terminal
    cases terminal
  exact .inr ⟨failed, undrained, .inl unsent⟩

/-- A result that is settled while the message is around comes from the publisher, or the worker
is about to give up its reference. -/
lemma WorkerFact.resolved {pc : RequestWorkerPc} (fact : WorkerFact i slot wire drained pc)
    (terminal : reqSyncTerminal slot.result = true) : Resolved i slot wire drained := by
  have unclaimed : slot.result ≠ .claimed := by
    intro claimed
    rw [claimed] at terminal
    cases terminal
  exact (fact.of_not_claimed unclaimed).elim (resolved_of_unsent terminal) id

lemma Placed.resolved (placed : Placed s i slot place) (around : place.isGone = false)
    (terminal : reqSyncTerminal slot.result = true) : Resolved i slot s.wire s.drained := by
  have untouched : Untouched slot s.wire s.drained → Resolved i slot s.wire s.drained :=
    fun ⟨result, _, sent⟩ => resolved_of_unsent terminal ⟨result, sent⟩
  cases place with
  | gone => cases around
  | queued | taken => exact untouched placed.2.2.2
  | working => exact placed.2.2.resolved terminal

lemma PublisherFact.freed_le (fact : PublisherFact i slot wire drained gone pc) :
    slot.freed ≤ 1 := by
  have unfreed : slot.freed = 0 → slot.freed ≤ 1 := by omega
  cases pc with
  | start => exact fact.elim
  | push j =>
    rw [fact.2.2.1]
    decide
  | complete j | resolve j _ | release j | pushFailed j | cancelled j => exact unfreed fact.2.2.1
  | finish j _ | leave j => exact unfreed fact.2.1.1
  | done =>
    cases gone with
    | true => exact Nat.le_of_eq fact.1
    | false => exact unfreed fact.1.1
  | _ => exact unfreed fact.2.1

lemma Placed.isGone (placed : Placed s i slot place) (queued : s.queued = [])
    (taken : s.taken = []) (worker : s.worker = .idle) : place.isGone = true := by
  cases place with
  | gone => rfl
  | queued => cases queued.symm.trans placed.1
  | taken => cases taken.symm.trans placed.2.1
  | working =>
    have fact := placed.2.2
    rw [worker] at fact
    exact fact.elim

end Facts

namespace RequestState

variable {env : PushEnv} {s : RequestState} {old : List CmqReqSync} {slot : CmqReqSync}
  {place : MessagePlace}

lemma access_current (slots : s.slots = old ++ [slot]) (unfreed : slot.freed = 0)
    (use : CmqReqSync → RequestState) : s.access old.length use = use slot := by
  rw [access, slots, getElem?_concat_length]
  simp only [unfreed, if_true]

lemma put_current (slots : s.slots = old ++ [slot]) (slot' : CmqReqSync) :
    (s.put old.length slot').slots = old ++ [slot'] := by
  rw [put, slots]
  simp

lemma During.unfreed (during : s.During old slot place)
    (around : place.isGone = false) : slot.freed = 0 := by
  have fact := during.publisher
  rw [around] at fact
  generalize s.publisher = pc at fact
  cases pc with
  | start => exact fact.elim
  | push j | complete j | resolve j _ | release j | pushFailed j | cancelled j => cases fact.2.1
  | finish j _ | leave j => exact fact.2.1.1
  | done => exact fact.1.1
  | _ => exact fact.2.1

/-! ## Steps of the worker -/

lemma put_self (slots : s.slots = old ++ [slot]) : s.put old.length slot = s := by
  have same : s.slots.set old.length slot = s.slots := (put_current slots slot).trans slots.symm
  rw [put, same]

section

variable (during : s.During old slot .working)
include during

lemma During.work (slot' : CmqReqSync) (wire drained : List Nat) (pc : RequestWorkerPc)
    (refs : slot'.refs = slot.refs) (freed : slot'.freed = slot.freed)
    (settled : reqSyncTerminal slot.result = true → slot'.result = slot.result)
    (unsent : slot.result = .fail → s.wire = [] → wire = [])
    (sent : s.wire = [old.length] → s.drained = [old.length] →
      wire = [old.length] ∧ drained = [old.length])
    (fact : WorkerFact old.length slot' wire drained pc) :
    During { s.put old.length slot' with wire, drained, worker := pc } old slot' .working where
  slots := put_current during.slots slot'
  freed := during.freed
  placed := ⟨during.placed.1, during.placed.2.1, fact⟩
  publisher := during.publisher.mono refs freed settled unsent sent

lemma During.workQuiet (pc : RequestWorkerPc)
    (fact : WorkerFact old.length slot s.wire s.drained pc) :
    During { s with worker := pc } old slot .working := by
  have next := during.work slot s.wire s.drained pc rfl rfl (fun _ => rfl) (fun _ => id)
    .intro fact
  rw [put_self during.slots] at next
  exact next

lemma During.workerStep (turn : WorkerTurn) (success : Bool) :
    ∃ slot' place', (s.workerStep turn success).During old slot' place' ∧
      (s.workerStep turn success).faulted = s.faulted := by
  have use := fun use => access_current during.slots (during.unfreed rfl) use
  have fact := during.placed.2.2
  unfold RequestState.workerStep
  cases pc : s.worker with (rw [pc] at fact; dsimp only)
  | idle => exact fact.elim
  | claim j =>
    obtain ⟨rfl, result | result, -, wire, drained⟩ := fact
    · simp only [use, CmqReqSync.exchange, result, if_true]
      refine ⟨{ slot with result := .claimed }, .working, ?_, rfl⟩
      exact during.work _ _ _ _ rfl rfl (by simp [result, reqSyncTerminal])
        (fun _ => id) .intro ⟨rfl, rfl, wire, drained⟩
    simp only [use, CmqReqSync.exchange, result, reduceCtorEq, if_false, put_self during.slots]
    exact ⟨slot, .working, during.workQuiet _ ⟨rfl, drained, .inr ⟨.inr result, wire⟩⟩, trivial⟩
  | send j =>
    obtain ⟨rfl, result, wire, drained⟩ := fact
    cases success with
    | true =>
      have next := during.work slot (s.wire ++ [old.length]) s.drained (.mark old.length)
        rfl rfl (fun _ => rfl) (fun failed => by simp [result] at failed)
        (fun sent => by simp [wire] at sent) ⟨rfl, result, by simp [wire], drained⟩
      rw [put_self during.slots] at next
      exact ⟨slot, .working, next, rfl⟩
    | false =>
      exact ⟨slot, .working, during.workQuiet _ ⟨rfl, drained, .inl ⟨result, .inl wire⟩⟩, rfl⟩
  | mark j =>
    obtain ⟨rfl, result, wire, drained⟩ := fact
    simp only [use]
    exact ⟨{ slot with buffered := true }, .working,
      during.work _ _ _ _ rfl rfl (fun _ => rfl) (fun _ => id)
        .intro ⟨rfl, result, rfl, wire, drained⟩, rfl⟩
  | drain j =>
    obtain ⟨rfl, result, buffered, wire, drained⟩ := fact
    cases success with
    | true =>
      have next := during.work slot s.wire (s.drained ++ [old.length])
        (.complete old.length .ok) rfl rfl (fun _ => rfl) (fun _ => id)
        (fun _ two => by simp [drained] at two) ⟨rfl, result, wire, by simp [drained]⟩
      rw [put_self during.slots] at next
      exact ⟨slot, .working, next, rfl⟩
    | false =>
      exact ⟨slot, .working,
        during.workQuiet _ ⟨rfl, drained, .inl ⟨result, .inr ⟨wire, buffered⟩⟩⟩, rfl⟩
  | complete j v =>
    obtain ⟨rfl, next⟩ := fact.complete
    simp only [use]
    exact ⟨slot, .working, during.workQuiet _ next, trivial⟩
  | resolve j v cur =>
    obtain ⟨rfl, unsettled, replaced, failed⟩ := fact.resolve
    simp only [use, CmqReqSync.exchange]
    by_cases same : slot.result = cur
    · simp only [same, if_true]
      refine ⟨{ slot with result := v }, .working, ?_, rfl⟩
      exact during.work _ _ _ _ rfl rfl (by simp [same, unsettled])
        (fun _ => id) .intro (replaced same)
    simp only [same, if_false, put_self during.slots]
    exact ⟨slot, .working, during.workQuiet _ (failed same), trivial⟩
  | release j =>
    obtain ⟨rfl, resolved⟩ := fact
    simp only [use]
    exact ⟨reqSyncRelease slot, .gone, ⟨put_current during.slots _, during.freed,
      ⟨during.placed.1, during.placed.2.1, rfl⟩, during.publisher.released resolved⟩, rfl⟩

end

lemma workerStep_of_nothing (turn : WorkerTurn) (success : Bool) (queued : s.queued = [])
    (taken : s.taken = []) (worker : s.worker = .idle) : s.workerStep turn success = s := by
  cases turn <;> simp [RequestState.workerStep, worker, queued, taken]

lemma Inv.workerStep (inv : s.Inv) (turn : WorkerTurn) (success : Bool) :
    (s.workerStep turn success).Inv := by
  obtain ⟨unfaulted, between | ⟨old, slot, place, during⟩⟩ := inv
  · -- There is no message to handle.
    rw [workerStep_of_nothing turn success between.queued between.taken between.worker]
    exact ⟨unfaulted, .inl between⟩
  cases place with
  | gone =>
    obtain ⟨queued, taken, worker⟩ := during.placed
    rw [workerStep_of_nothing turn success queued taken worker]
    exact ⟨unfaulted, .inr ⟨old, slot, .gone, during⟩⟩
  | queued =>
    obtain ⟨queued, taken, worker, untouched⟩ := during.placed
    cases turn with
    | take =>
      simp only [RequestState.workerStep, worker, queued, taken]
      exact ⟨unfaulted, .inr ⟨old, slot, .taken, during.slots, during.freed,
        ⟨rfl, rfl, rfl, untouched⟩, during.publisher⟩⟩
    | handle =>
      simp only [RequestState.workerStep, worker, taken]
      exact ⟨unfaulted, .inr ⟨old, slot, .queued, during⟩⟩
    | purge =>
      simp only [RequestState.workerStep, worker, queued]
      exact ⟨unfaulted, .inr ⟨old, slot, .working, during.slots, during.freed,
        ⟨rfl, taken, rfl, untouched.2.2.2, .inr ⟨untouched.1, untouched.2.2.1⟩⟩, during.publisher⟩⟩
  | taken =>
    obtain ⟨queued, taken, worker, untouched⟩ := during.placed
    cases turn with
    | take | purge =>
      simp only [RequestState.workerStep, worker, queued]
      exact ⟨unfaulted, .inr ⟨old, slot, .taken, during⟩⟩
    | handle =>
      simp only [RequestState.workerStep, worker, taken]
      refine ⟨unfaulted, .inr ⟨old, slot, .working, during.slots, during.freed,
        ⟨queued, rfl, ?_⟩, during.publisher⟩⟩
      cases success with
      | true => exact ⟨rfl, untouched⟩
      | false => exact ⟨rfl, untouched.2.2.2, .inr ⟨untouched.1, untouched.2.2.1⟩⟩
  | working =>
    obtain ⟨slot', place', next, same⟩ := during.workerStep turn success
    exact ⟨same.trans unfaulted, .inr ⟨old, slot', place', next⟩⟩

/-! ## Steps of the publisher -/

/-- No message of somebody else is at the address of a message whose wakeup failed, and a message
that is cancelled has a buffer from `malloc`. -/
def Orderly (env : PushEnv) (s : RequestState) : RequestEvent → Prop
  | .publisher success =>
    match s.publisher with
    | .relock i => s.freedMsg i = true → success = false
    | .cancel i => i ∈ s.queued → env.fromPool i = false
    | _ => True
  | .worker .. => True

instance (env : PushEnv) (s : RequestState) :
    (event : RequestEvent) → Decidable (Orderly env s event)
  | .publisher _ => by unfold Orderly; dsimp only; split <;> infer_instance
  | .worker .. => inferInstanceAs (Decidable True)

lemma During.write (during : s.During old slot .gone) (slot' : CmqReqSync) (pc : PublisherPc)
    (fact : PublisherFact old.length slot' s.wire s.drained true pc) :
    During { s.put old.length slot' with publisher := pc } old slot' .gone where
  slots := put_current during.slots slot'
  freed := during.freed
  placed := during.placed
  publisher := fact

lemma During.between (during : s.During old slot .gone) (wire : s.wire = [])
    (drained : s.drained = []) (unfreed : slot.freed = 0) (attempt : Nat)
    (publisher : pc = .start ∨ pc = .done 0) :
    Between { s.put old.length { slot with freed := slot.freed + 1 } with
      publisher := pc, attempt } where
  publisher := publisher
  freed := by
    rw [put_current during.slots]
    exact forall_mem_append.mpr ⟨during.freed, by simp [unfreed]⟩
  queued := during.placed.1
  taken := during.placed.2.1
  worker := during.placed.2.2
  wire := wire
  drained := drained

lemma eq_gone_of_isGone (gone : place.isGone = true) : place = .gone := by
  cases place <;> first | rfl | cases gone

section

variable (during : s.During old slot place)
include during

lemma During.publish (slot' : CmqReqSync) (pc : PublisherPc)
    (result : slot'.result = slot.result ∨ (slot.result = .pending ∧ slot'.result = .fail))
    (buffered : slot'.buffered = slot.buffered)
    (fact : PublisherFact old.length slot' s.wire s.drained place.isGone pc) :
    During { s.put old.length slot' with publisher := pc } old slot' place where
  slots := put_current during.slots slot'
  freed := during.freed
  placed := by
    have placed := during.placed.mono result buffered
    cases place <;> exact placed
  publisher := fact

lemma During.goOn (pc : PublisherPc)
    (fact : PublisherFact old.length slot s.wire s.drained place.isGone pc) :
    During { s with publisher := pc } old slot place := by
  have next := during.publish slot pc (.inl rfl) rfl fact
  rw [put_self during.slots] at next
  exact next

section

variable (held : Held old.length slot s.wire s.drained place.isGone)
include held

lemma During.abandoned (pending : slot.result = .pending) :
    During { s.put old.length { slot with result := .fail } with
      publisher := .leave old.length 0 } old { slot with result := .fail } place := by
  have around := held.around (by rw [pending]; rfl)
  refine during.publish _ _ (.inr ⟨pending, rfl⟩) rfl ⟨rfl, ?_, by simp, fun _ => ⟨?_, fun _ => rfl⟩⟩
  · rw [around] at held ⊢
    exact held
  exact during.placed.unsent around pending

lemma During.withdraw (inside : old.length ∈ s.queued) (pc : PublisherPc)
    (fact : slot.freed = 0 → slot.refs = 2 → s.wire = [] → s.drained = [] →
      PublisherFact old.length slot s.wire s.drained true pc) :
    During { s with queued := s.queued.erase old.length, publisher := pc } old slot .gone := by
  have placed := during.placed
  cases place with
  | queued =>
    obtain ⟨queued, taken, worker, -, -, wire, drained⟩ := placed
    refine ⟨during.slots, during.freed, ⟨?_, taken, worker⟩, fact held.1 held.2 wire drained⟩
    rw [queued, erase_cons_head]
  | gone | taken | working => rw [placed.1] at inside; cases inside

lemma During.finish (terminal : reqSyncTerminal slot.result = true) :
    Means old.length slot s.wire s.drained place.isGone (reqSyncFinish slot slot.result) := by
  have resolved : Resolved old.length slot s.wire s.drained := by
    cases gone : place.isGone with
    | true =>
      rw [gone] at held
      exact held.2.2
    | false => exact during.placed.resolved gone terminal
  rcases resolved with ⟨ok, sent⟩ | ⟨failed, -, how⟩
  · rw [ok]
    exact ⟨fun _ => sent, by simp [reqSyncFinish]⟩
  rw [failed]
  refine ⟨?_, fun zero => ⟨?_, fun _ => failed⟩⟩
  · simp only [reqSyncFinish]
    split <;> simp
  rcases how with unsent | ⟨-, buffered⟩
  · exact unsent
  simp [reqSyncFinish, buffered] at zero

end

lemma During.publisherStep (success : Bool) (orderly : Orderly env s (.publisher success)) :
    (s.publisherStep env success).faulted = s.faulted ∧ ((s.publisherStep env success).Between ∨
        ∃ old' slot' place', (s.publisherStep env success).During old' slot' place') := by
  have fact := during.publisher
  have use := access_current during.slots
  have goOn := fun pc fact => (⟨old, slot, place, during.goOn pc fact⟩ :
    ∃ old' slot' place', During { s with publisher := pc } old' slot' place')
  unfold RequestState.publisherStep
  simp only [Orderly] at orderly
  cases pc : s.publisher with (rw [pc] at fact orderly; dsimp only)
  | start => exact fact.elim
  | push j =>
    obtain ⟨rfl, gone, rfl, wire, drained⟩ := fact
    cases eq_gone_of_isGone gone
    obtain ⟨queued, taken, worker⟩ := during.placed
    cases success with
    | true =>
      refine ⟨rfl, .inr ⟨old, .new, .queued, during.slots, during.freed,
        ⟨?_, taken, worker, ⟨.inl rfl, rfl, wire, drained⟩⟩, rfl, rfl, rfl⟩⟩
      simp [queued]
    | false => exact ⟨rfl, .inr ⟨old, .new, .gone, during.goOn _ ⟨rfl, rfl, rfl, wire, drained⟩⟩⟩
  | signal j =>
    obtain ⟨rfl, held⟩ := fact
    refine ⟨rfl, .inr (goOn _ ?_)⟩
    cases success <;> exact ⟨rfl, held⟩
  | relock j =>
    obtain ⟨rfl, held⟩ := fact
    split
    next inside =>
      exact ⟨rfl, .inr ⟨old, slot, .gone, during.withdraw held inside _
        fun unfreed refs wire drained => ⟨rfl, rfl, unfreed, refs, wire, drained⟩⟩⟩
    rw [if_neg fun reused => by simp [orderly reused.1] at reused]
    exact ⟨rfl, .inr (goOn _ ⟨rfl, held⟩)⟩
  | complete j =>
    obtain ⟨rfl, gone, unfreed, fact⟩ := fact
    simp only [use unfreed]
    refine ⟨trivial, .inr (goOn _ ?_)⟩
    split <;> exact ⟨rfl, gone, unfreed, fact⟩
  | resolve j =>
    obtain ⟨rfl, gone, unfreed, fact⟩ := fact
    cases eq_gone_of_isGone gone
    simp only [use unfreed]
    refine ⟨rfl, .inr ⟨old, _, .gone, during.write _ _ ?_⟩⟩
    unfold CmqReqSync.exchange
    split <;> exact ⟨rfl, rfl, unfreed, fact⟩
  | release j =>
    obtain ⟨rfl, gone, unfreed, refs, fact⟩ := fact
    cases eq_gone_of_isGone gone
    simp only [use unfreed]
    refine ⟨rfl, .inr ⟨old, _, .gone, during.write _ _ ⟨rfl, rfl, ?_, fact⟩⟩⟩
    simp [reqSyncRelease, refs, unfreed]
  | pushFailed j | cancelled j =>
    obtain ⟨rfl, gone, unfreed, wire, drained⟩ := fact
    cases eq_gone_of_isGone gone
    simp only [RequestState.freeSync, use unfreed]
    exact ⟨rfl, .inl (during.between wire drained unfreed _ (by simp))⟩
  | wait j =>
    obtain ⟨rfl, held⟩ := fact
    simp only [use held.1]
    refine ⟨trivial, .inr (goOn _ ?_)⟩
    split
    next terminal => exact ⟨rfl, held, rfl, terminal⟩
    split <;> exact ⟨rfl, held⟩
  | cancel j =>
    obtain ⟨rfl, held⟩ := fact
    split
    next inside =>
      rw [orderly inside, Bool.or_false]
      exact ⟨rfl, .inr ⟨old, slot, .gone, during.withdraw held inside _
        fun unfreed _ wire drained => ⟨rfl, rfl, unfreed, wire, drained⟩⟩⟩
    exact ⟨rfl, .inr (goOn _ ⟨rfl, held⟩)⟩
  | extra j n | hard j n =>
    obtain ⟨rfl, held⟩ := fact
    simp only [use held.1]
    split
    · refine ⟨rfl, .inr (goOn _ ?_)⟩
      split
      next terminal => exact ⟨rfl, held, rfl, terminal⟩
      all_goals (try split) <;> exact ⟨rfl, held⟩
    exact ⟨rfl, .inr (goOn _ ⟨rfl, held⟩)⟩
  | abandon j n =>
    obtain ⟨rfl, held⟩ := fact
    simp only [use held.1, CmqReqSync.exchange]
    by_cases pending : slot.result = .pending
    · simp only [pending, if_true]
      exact ⟨rfl, .inr ⟨old, _, place, during.abandoned held pending⟩⟩
    simp only [pending, if_false, put_self during.slots]
    exact ⟨trivial, .inr (goOn _ ⟨rfl, held⟩)⟩
  | last j =>
    obtain ⟨rfl, held⟩ := fact
    simp only [use held.1]
    refine ⟨trivial, .inr (goOn _ ?_)⟩
    split
    next terminal => exact ⟨rfl, held, rfl, terminal⟩
    split
    · exact ⟨rfl, held, by simp [Means]⟩
    exact ⟨rfl, held⟩
  | lastAbandon j =>
    obtain ⟨rfl, held⟩ := fact
    simp only [use held.1, CmqReqSync.exchange]
    by_cases pending : slot.result = .pending
    · simp only [pending, if_true]
      exact ⟨rfl, .inr ⟨old, _, place, during.abandoned held pending⟩⟩
    simp only [pending, if_false, put_self during.slots]
    refine ⟨trivial, .inr (goOn _ ?_)⟩
    cases result : slot.result with
    | pending => exact absurd result pending
    | claimed => exact ⟨rfl, held, by simp [Means]⟩
    | ok | fail => exact ⟨rfl, held, result, rfl⟩
  | finish j v =>
    obtain ⟨rfl, held, rfl, terminal⟩ := fact
    simp only [use held.1]
    exact ⟨trivial, .inr ⟨old, slot, place, during.goOn _ ⟨rfl, held, during.finish held terminal⟩⟩⟩
  | leave j ret =>
    obtain ⟨rfl, held, means⟩ := fact
    simp only [use held.1]
    refine ⟨rfl, .inr ⟨old, _, place, during.publish _ _ (.inl rfl) rfl ⟨?_, means⟩⟩⟩
    obtain ⟨unfreed, refs⟩ := held
    cases gone : place.isGone with rw [gone] at refs
    | true => simp [reqSyncRelease, refs.1, unfreed]
    | false =>
      simp only [Bool.false_eq_true, if_false] at refs
      simp [reqSyncRelease, refs, unfreed]
  | done ret => exact ⟨rfl, .inr ⟨old, slot, place, during⟩⟩

end

/-! ## Runs -/

lemma Inv.publisherStep (inv : s.Inv) (success : Bool)
    (orderly : Orderly env s (.publisher success)) : (s.publisherStep env success).Inv := by
  obtain ⟨unfaulted, between | ⟨_, _, _, during⟩⟩ := inv
  · rcases between.publisher with publisher | publisher
    · simp only [RequestState.publisherStep, publisher]
      split
      · refine ⟨unfaulted, .inr ⟨s.slots, .new, .gone, rfl, between.freed,
          ⟨between.queued, between.taken, between.worker⟩, ?_⟩⟩
        exact ⟨rfl, rfl, rfl, between.wire, between.drained⟩
      exact ⟨unfaulted, .inl ⟨.inr rfl, between.freed, between.queued, between.taken,
        between.worker, between.wire, between.drained⟩⟩
    simp only [RequestState.publisherStep, publisher]
    exact ⟨unfaulted, .inl between⟩
  obtain ⟨same, next⟩ := during.publisherStep success orderly
  exact ⟨same.trans unfaulted, next⟩

lemma inv_start : start.Inv :=
  ⟨rfl, .inl ⟨.inl rfl, by simp [start], rfl, rfl, rfl, rfl, rfl⟩⟩

lemma Inv.run (orderly : Meets (step env) (Orderly env) start events) : (run env events).Inv := by
  refine orderly.invariant (fun s event inv met => ?_) inv_start
  cases event with
  | publisher success => exact inv.publisherStep success met
  | worker turn success => exact inv.workerStep turn success

/-- In a mailbox that has the message, or another one at its address, the critical section after a
failed wakeup is `workerUnlinkMsg`. -/
lemma relock_waits_iff {w : CmqWorker τ} {s : RequestState} {env : PushEnv}
    {queue : List (Nat × CmqWorkerMsg τ)} (holds : w.Holds queue)
    (at_ : a ∈ addrs queue ↔ i ∈ s.queued ∨ s.freedMsg i = true ∧ success = true)
    (pc : s.publisher = .relock i) :
    (s.publisherStep env success).publisher = .wait i 0 ↔ w.workerUnlinkMsg a = some (w, false) := by
  simp only [publisherStep, pc]
  by_cases inside : a ∈ addrs queue
  · obtain ⟨front, m, back, rfl⟩ : ∃ front m back, queue = front ++ (a, m) :: back := by
      obtain ⟨⟨_, m⟩, member, rfl⟩ := mem_map.mp inside
      obtain ⟨front, back, split⟩ := append_of_mem member
      exact ⟨front, m, back, split⟩
    obtain ⟨_, unlinked, -⟩ := holds.workerUnlinkMsg_some
    rw [unlinked]
    rcases at_.mp inside with queued | reused
    · simp [queued]
    by_cases queued : i ∈ s.queued <;> simp [queued, reused]
  rw [holds.workerUnlinkMsg_none inside]
  have neither := not_or.mp (at_.not.mp inside)
  rw [if_neg neither.1, if_neg neither.2]
  simp

/-- What a request to a client of another worker promises. -/
structure Kept (s : RequestState) : Prop where
  /-- No slot is used after it was freed, or freed twice. -/
  unfaulted : s.faulted = false
  freedOnce : ∀ slot ∈ s.slots, slot.freed ≤ 1
  /-- When the publisher has returned and no message is left, every slot is freed. -/
  freed : ∀ ret, s.publisher = .done ret → s.queued = [] → s.taken = [] → s.worker = .idle →
    ∀ slot ∈ s.slots, slot.freed = 1
  /-- A request that is reported as failed was not put on the wire. -/
  failed : s.publisher = .done 0 → s.wire = []
  /-- A request that is reported as delivered was sent and drained once. -/
  delivered : s.publisher = .done 1 → ∃ i, s.wire = [i] ∧ s.drained = [i]

lemma During.kept (during : s.During old slot place) (unfaulted : s.faulted = false) :
    s.Kept where
  unfaulted := unfaulted
  freedOnce := by
    rw [during.slots]
    exact forall_mem_append.mpr ⟨fun other inside => Nat.le_of_eq (during.freed other inside),
      forall_mem_singleton.mpr during.publisher.freed_le⟩
  freed := by
    intro _ done queued taken worker
    have fact := during.publisher
    rw [done, during.placed.isGone queued taken worker] at fact
    rw [during.slots]
    exact forall_mem_append.mpr ⟨during.freed, forall_mem_singleton.mpr fact.1⟩
  failed := by
    intro done
    have fact := during.publisher
    rw [done] at fact
    exact (fact.2.2 rfl).1
  delivered := by
    intro done
    have fact := during.publisher
    rw [done] at fact
    exact ⟨old.length, fact.2.1 rfl⟩

/-- In every interleaving of orderly steps a request that is reported as failed is never put on the
wire, one that is reported as delivered is sent and drained exactly once, and every slot is freed
exactly once and not used afterwards. -/
theorem run_kept (env : PushEnv) (events : List RequestEvent)
    (orderly : Meets (step env) (Orderly env) start events) : (run env events).Kept := by
  obtain ⟨unfaulted, between | ⟨old, slot, place, during⟩⟩ := Inv.run orderly
  · exact {
      unfaulted := unfaulted
      freedOnce := fun slot inside => Nat.le_of_eq (between.freed slot inside)
      freed := fun _ _ _ _ _ => between.freed
      failed := fun _ => between.wire
      delivered := by
        intro done
        rcases between.publisher with publisher | publisher <;> cases publisher.symm.trans done }
  exact during.kept unfaulted

/-- The first attempt is pushed, the wakeup fails, and the worker delivers it all the same. -/
def unwoken : List RequestEvent :=
  [.publisher true, .publisher true, .publisher false, .worker .take true, .worker .handle true] ++
    replicate 7 (.worker .take true)

/-- The message is found to be gone, and the publisher waits and reads its result. -/
theorem run_kept_unwoken :
    (run ⟨100, fun _ => true⟩ (unwoken ++ .publisher false :: replicate 3 (.publisher true))).Kept ∧
      (run ⟨100, fun _ => true⟩
        (unwoken ++ .publisher false :: replicate 3 (.publisher true))).publisher = .done 1 :=
  ⟨run_kept _ _ (by decide +kernel), by decide +kernel⟩

lemma run_wait (pending : s.slots[i]? = some .new) (waiting : s.publisher = .wait i k)
    (early : k + n ≤ 100000) :
    (replicate n (RequestEvent.publisher true)).foldl (step env) s =
      { s with publisher := .wait i (k + n) } := by
  induction n generalizing s k with
  | zero => simp [← waiting]
  | succ n ih =>
    have once : s.step env (.publisher true) = { s with publisher := .wait i (k + 1) } := by
      have soon : ¬ k ≥ 100000 := by omega
      simp [step, publisherStep, waiting, access, pending, CmqReqSync.new, reqSyncTerminal, soon]
    rw [replicate_succ, foldl_cons, once, ih (s := { s with publisher := .wait i (k + 1) }) pending rfl
      (by omega), Nat.add_assoc, Nat.add_comm 1]

/-- A delivered request is reported as failed when the message of somebody else is at the address of
its message, and the message cancelled at the soft deadline has its pooled buffer freed. -/
theorem delivered_and_failed :
    ((run ⟨100, fun _ => true⟩ (unwoken ++ [.publisher true, .publisher true, .publisher false])).wire
        = [0] ∧
      (run ⟨100, fun _ => true⟩
        (unwoken ++ [.publisher true, .publisher true, .publisher false])).publisher = .done 0) ∧
    (run ⟨100, fun _ => true⟩ (replicate 3 (.publisher true) ++ replicate 100000 (.publisher true) ++
      replicate 2 (.publisher true))).faulted = true := by
  refine ⟨by decide +kernel, ?_⟩
  rw [run, foldl_append, foldl_append, run_wait (i := 0) (n := 100000) rfl rfl (Nat.le_refl _)]
  rfl

end RequestState

end CMsgQueue.Server
