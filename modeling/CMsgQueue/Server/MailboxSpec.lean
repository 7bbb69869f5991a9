import CMsgQueue.Server.MailOrder

/-!
# What the critical sections of a mailbox do

Each critical section is described by what the list is afterwards; the memory outside the list
stays as it is.
-/

namespace CMsgQueue.Server

open Option List Chain

universe u

variable {τ : Type u}

namespace CmqWorker

/-- The list consists of these messages; its counter agrees. -/
structure Chained (w : CmqWorker τ) (queue : List (Nat × CmqWorkerMsg τ)) : Prop where
  linked : Linked w.heap w.msgHead queue none
  pending : w.msgPending = queue.length
  distinct : (addrs queue).Nodup

/-- The list consists of these messages; its counter and its tail agree. -/
structure Holds (w : CmqWorker τ) (queue : List (Nat × CmqWorkerMsg τ)) : Prop
    extends Chained w queue where
  tail : w.msgTail = lastAddr none queue

/-- Nothing but the cells at the given addresses changes outside the list. -/
structure Keeps (touched : List Nat) (w w' : CmqWorker τ) : Prop where
  memory : ∀ a ∉ touched, read w'.heap a = read w.heap a
  freelist : w'.msgFreelist = w.msgFreelist

variable {w : CmqWorker τ} {queue front back : List (Nat × CmqWorkerMsg τ)} {a : Nat}
  {m : CmqWorkerMsg τ}

lemma Keeps.refl (touched : List Nat) (w : CmqWorker τ) : Keeps touched w w :=
  ⟨fun _ _ => rfl, rfl⟩

lemma apart_of_nodup (distinct : (addrs (front ++ (a, m) :: back)).Nodup) :
    a ∉ addrs front ∧ a ∉ addrs back := by
  unfold addrs at distinct
  rw [map_append, map_cons, nodup_middle, nodup_cons] at distinct
  simpa [not_or] using distinct.1

lemma nodup_remove (distinct : (addrs (front ++ (a, m) :: back)).Nodup) :
    (addrs (front ++ back)).Nodup := by
  unfold addrs at distinct ⊢
  rw [map_append, map_cons, nodup_middle, nodup_cons] at distinct
  rw [map_append]
  exact distinct.2

/-! ## Links -/

@[simp] lemma setLink_msgTail (prev next : Option Nat) :
    (w.setLink prev next).msgTail = w.msgTail := by
  cases prev <;> rfl

@[simp] lemma setLink_msgPending (prev next : Option Nat) :
    (w.setLink prev next).msgPending = w.msgPending := by
  cases prev <;> rfl

@[simp] lemma setLink_msgFreelist (prev next : Option Nat) :
    (w.setLink prev next).msgFreelist = w.msgFreelist := by
  cases prev <;> rfl

lemma read_setLink (apart : b ∉ addrs front) (next : Option Nat) :
    read (w.setLink (lastAddr none front) next).heap b = read w.heap b := by
  cases front using reverseRecOn with
  | nil => rfl
  | append_singleton front =>
    rw [lastAddr_concat]
    refine read_setNext_of_ne fun same => apart ?_
    simp [← same]

lemma linked_setLink {next : Option Nat} (toFront : Linked w.heap w.msgHead front r)
    (toBack : Linked w.heap next back none) (distinct : (addrs (front ++ back)).Nodup) :
    Linked (w.setLink (lastAddr none front) next).heap
        (w.setLink (lastAddr none front) next).msgHead front next ∧
      Linked (w.setLink (lastAddr none front) next).heap next back none := by
  unfold addrs at distinct
  rw [map_append] at distinct
  constructor
  · cases front using reverseRecOn with
    | nil => rfl
    | append_singleton front =>
      rw [lastAddr_concat]
      refine Linked.setNext_last toFront (fun inside => ?_) next
      rw [map_append] at distinct
      have nodup := (nodup_append.mp distinct).1
      exact (disjoint_of_nodup_append nodup) inside (by simp)
  refine toBack.congr fun b inside => read_setLink (fun inFront => ?_) next
  exact disjoint_of_nodup_append distinct inFront inside

/-! ## Putting in and taking out -/

lemma Holds.enqueue (holds : w.Holds queue) (fresh : a ∉ addrs queue)
    (ready : read w.heap a = some ⟨m, none⟩) :
    ∃ w', w.enqueue a = some w' ∧ w'.Holds (queue ++ [(a, m)]) ∧ Keeps (addrs queue) w w' := by
  have distinct : (addrs (queue ++ [(a, m)])).Nodup := by
    unfold addrs at fresh ⊢
    rw [map_append]
    exact nodup_append_comm.mp (nodup_cons.mpr ⟨fresh, holds.distinct⟩)
  cases queue using reverseRecOn with
  | nil =>
    refine ⟨{ w with msgHead := some a, msgTail := some a, msgPending := w.msgPending + 1 },
      ?_, ⟨⟨⟨rfl, none, ready, rfl⟩, ?_, distinct⟩, rfl⟩, ⟨fun _ _ => rfl, rfl⟩⟩
    · rw [CmqWorker.enqueue, holds.tail]
      rfl
    rw [holds.pending]
    rfl
  | append_singleton queue last =>
    have linked := holds.linked
    have apart := (apart_of_nodup holds.distinct).1
    have found : (read w.heap last.1).isSome := linked.isSome_read (by simp)
    have tail : w.msgTail = some last.1 := by rw [holds.tail, lastAddr_concat]
    refine ⟨{ w with
        heap := setNext w.heap last.1 (some a)
        msgTail := some a
        msgPending := w.msgPending + 1 }, ?_, ⟨⟨?_, ?_, distinct⟩, ?_⟩, ⟨?_, rfl⟩⟩
    · rw [CmqWorker.enqueue, tail]
      exact if_pos found
    · refine linked_append.mpr ⟨some a, linked.setNext_last apart (some a), rfl, none, ?_, rfl⟩
      rw [read_setNext_of_ne fun same => fresh (by simp [← same])]
      exact ready
    · rw [holds.pending]
      simp
    · rw [lastAddr_concat]
    exact fun b outside => read_setNext_of_ne fun same => outside (by simp [← same])

lemma lastAddr_remove (distinct : (addrs (front ++ (a, m) :: back)).Nodup) :
    (if lastAddr none (front ++ (a, m) :: back) = some a then lastAddr none front
      else lastAddr none (front ++ (a, m) :: back)) = lastAddr none (front ++ back) := by
  cases back using reverseRecOn with
  | nil => rw [lastAddr_concat, if_pos rfl, append_nil]
  | append_singleton back last =>
    have different : last.1 ≠ a := by
      intro same
      exact (apart_of_nodup distinct).2 (by simp [← same])
    rw [← append_assoc, ← cons_append, ← append_assoc, lastAddr_concat, lastAddr_concat, if_neg]
    simpa using different

lemma eq_nil_of_linked {heap : Heap (CmqWorkerMsg τ)} (linked : Linked heap none queue none) :
    queue = [] := by
  cases queue with
  | nil => rfl
  | cons _ queue => cases linked.1

lemma Holds.unlinkAt (holds : w.Holds (front ++ (a, m) :: back)) :
    ∃ w', w.unlinkAt (lastAddr none front) a = some w' ∧ w'.Holds (front ++ back) ∧
      read w'.heap a = some ⟨m, none⟩ ∧ Keeps (addrs (front ++ (a, m) :: back)) w w' := by
  have distinct := nodup_remove holds.distinct
  obtain ⟨apartFront, apartBack⟩ := apart_of_nodup holds.distinct
  obtain ⟨r, toFront, _, next, found, toBack⟩ := linked_append.mp holds.linked
  have redirected := linked_append.mpr ⟨next, linked_setLink toFront toBack distinct⟩
  have foundStill : read (w.setLink (lastAddr none front) next).heap a = some ⟨m, next⟩ := by
    rw [read_setLink apartFront]
    exact found
  have linked : Linked (setNext (w.setLink (lastAddr none front) next).heap a none)
      (w.setLink (lastAddr none front) next).msgHead (front ++ back) none := by
    refine redirected.congr fun b inside => read_setNext_of_ne fun same => ?_
    subst same
    simp only [addrs, map_append, mem_append] at inside
    exact inside.elim apartFront apartBack
  have tail := lastAddr_remove holds.distinct
  refine ⟨{ w.setLink (lastAddr none front) next with
      heap := setNext (w.setLink (lastAddr none front) next).heap a none
      msgTail := lastAddr none (front ++ back)
      msgPending := w.msgPending - 1 }, ?_, ⟨⟨linked, ?_, distinct⟩, rfl⟩,
    read_setNext_self foundStill, ⟨fun b outside => ?_, setLink_msgFreelist _ _⟩⟩
  · simp only [CmqWorker.unlinkAt, found, setLink_msgTail, setLink_msgPending, holds.tail, tail]
    split
    next noHead =>
      rw [noHead] at linked
      rw [eq_nil_of_linked linked]
      rfl
    rfl
  · rw [holds.pending]
    simp
  rw [read_setNext_of_ne fun same => outside (by simp [← same])]
  refine read_setLink (fun inside => outside ?_) next
  simp only [addrs, map_append, mem_append]
  exact .inl inside

lemma Holds.dequeueFirst (holds : w.Holds queue) (test : Nat → CmqWorkerMsg τ → Option Bool)
    (passes : Nat × CmqWorkerMsg τ → Bool)
    (ends : ∀ cell ∈ queue, test cell.1 cell.2 = some (passes cell)) :
    w.dequeueFirst test = some (w, none) ∨ ∃ front a m back w', queue = front ++ (a, m) :: back ∧
        (∀ cell ∈ front, passes cell = false) ∧ passes (a, m) = true ∧
        w.dequeueFirst test = some (w', some a) ∧ w'.Holds (front ++ back) ∧
        read w'.heap a = some ⟨m, none⟩ ∧ Keeps (addrs queue) w w' := by
  rcases search_cases holds.linked holds.distinct test passes ends with
    ⟨searched, -⟩ | ⟨front, a, m, back, rfl, missed, hit, searched⟩
  · exact .inl (by rw [CmqWorker.dequeueFirst, searched])
  obtain ⟨w', unlinked, holds', found, keeps⟩ := holds.unlinkAt
  refine .inr ⟨front, a, m, back, w', rfl, missed, hit, ?_, holds', found, keeps⟩
  rw [CmqWorker.dequeueFirst, searched]
  simp only [unlinked, map_some]

lemma Holds.teardownAhead (holds : w.Holds (front ++ (a, m) :: back)) :
    w.teardownAhead a m = some (front.any fun cell =>
      cell.2.kind == .teardown && cell.2.aims m.targetId m.targetGen) := by
  have apart := (apart_of_nodup holds.distinct).1
  have different : ∀ cell ∈ front, (cell.1 == a) = false := by
    intro cell inside
    exact beq_eq_false_iff_ne.mpr fun same => apart (same ▸ mem_map_of_mem inside)
  rw [CmqWorker.teardownAhead]
  cases found : front.find? fun cell =>
      cell.2.kind == .teardown && cell.2.aims m.targetId m.targetGen with
  | none =>
    have missed := find?_eq_none.mp found
    rw [search_found holds.linked holds.distinct (fun cell inside => ?_) (by simp)]
    · rw [any_eq_false.mpr missed]
      simp
    rw [different cell inside, Bool.false_or, Bool.eq_false_iff.mpr (missed cell inside)]
  | some cell =>
    obtain ⟨hit, _, _, rfl, missed⟩ := find?_eq_some_iff_append.mp found
    have linked := holds.linked
    have distinct := holds.distinct
    rw [append_assoc, cons_append] at linked distinct
    rw [search_found linked distinct (fun other inside => ?_) (by rw [hit, Bool.or_true])]
    · rw [any_append, any_cons, hit]
      simpa using different cell (by simp)
    rw [different other (by simp [inside]), Bool.false_or]
    exact congrArg some (by simpa only [Bool.not_eq_true'] using missed other inside)

/-- What `worker_pop_send` does: it takes a SEND that no message for the same target stands
before. -/
lemma Holds.workerPopSend (holds : w.Holds queue) :
    w.workerPopSend = some (w, none) ∨
      ∃ front a m back w', queue = front ++ (a, m) :: back ∧ m.kind = .send ∧
        (∀ cell ∈ front, ¬ cell.2.SameTarget m) ∧
        w.workerPopSend = some (w', some a) ∧ w'.Holds (front ++ back) ∧
        read w'.heap a = some ⟨m, none⟩ ∧ Keeps (addrs queue) w w' := by
  -- The test ends on every message of the list; its value depends on what stands before.
  let blocked : Nat × CmqWorkerMsg τ → Bool := fun cell =>
    (w.teardownAhead cell.1 cell.2).getD true
  have ahead : ∀ front a m back, queue = front ++ (a, m) :: back →
      w.teardownAhead a m = some (front.any fun cell =>
        cell.2.kind == .teardown && cell.2.aims m.targetId m.targetGen) := by
    rintro front a m back rfl
    exact holds.teardownAhead
  have ends : ∀ cell ∈ queue, (if cell.2.kind = .teardown then some false
      else (w.teardownAhead cell.1 cell.2).map fun ahead => !ahead) =
        some (cell.2.kind == .send && !blocked cell) := by
    intro cell inside
    obtain ⟨front, back, split⟩ := append_of_mem inside
    have value := ahead front cell.1 cell.2 back split
    cases kind : cell.2.kind <;> simp [blocked, value]
  rcases holds.dequeueFirst (fun a m => if m.kind = .teardown then some false
      else (w.teardownAhead a m).map fun ahead => !ahead) _ ends with
    nothing | ⟨front, a, m, back, w', split, missed, hit, popped, holds', found, keeps⟩
  · exact .inl nothing
  have value := ahead front a m back split
  simp only [blocked, value, getD_some, Bool.and_eq_true, beq_iff_eq, Bool.not_eq_true'] at hit
  refine .inr ⟨front, a, m, back, w', split, hit.1, ?_, popped, holds', found, keeps⟩
  -- A message before it for the same target is a SEND behind a TEARDOWN, which stands before.
  intro cell inside target
  have notTeardown := any_eq_false.mp hit.2
  have send : cell.2.kind = .send := by
    cases kind : cell.2.kind with
    | send => rfl
    | teardown =>
      refine absurd ?_ (notTeardown cell inside)
      simp [kind, CmqWorkerMsg.aims, target.1, target.2]
  obtain ⟨before, after, rfl⟩ := append_of_mem inside
  have passed := missed cell inside
  have valueBefore := ahead before cell.1 cell.2 (after ++ (a, m) :: back)
    (by rw [split]; simp)
  simp only [blocked, valueBefore, send, getD_some, beq_self_eq_true, Bool.true_and,
    Bool.not_eq_false'] at passed
  obtain ⟨t, earlier, isTeardown⟩ := any_eq_true.mp passed
  refine notTeardown t (mem_append_left _ earlier) ?_
  rw [← target.1, ← target.2]
  exact isTeardown

lemma Holds.workerPopTeardown (holds : w.Holds queue) (skipId skipGen : Nat) :
    w.workerPopTeardown skipId skipGen = some (w, none) ∨
      ∃ front a m back w', queue = front ++ (a, m) :: back ∧ m.kind = .teardown ∧
        w.workerPopTeardown skipId skipGen = some (w', some a) ∧ w'.Holds (front ++ back) ∧
        read w'.heap a = some ⟨m, none⟩ ∧ Keeps (addrs queue) w w' := by
  rcases holds.dequeueFirst
      (fun _ m => some (m.kind == .teardown && !(skipId != 0 && m.aims skipId skipGen)))
      (fun cell => cell.2.kind == .teardown && !(skipId != 0 && cell.2.aims skipId skipGen))
      (fun _ _ => rfl) with
    nothing | ⟨front, a, m, back, w', split, -, hit, popped, holds', found, keeps⟩
  · exact .inl nothing
  refine .inr ⟨front, a, m, back, w', split, ?_, popped, holds', found, keeps⟩
  exact beq_iff_eq.mp (Bool.and_eq_true_iff.mp hit).1

lemma Holds.workerUnlinkMsg_none (holds : w.Holds queue) (absent : a ∉ addrs queue) :
    w.workerUnlinkMsg a = some (w, false) := by
  rw [CmqWorker.workerUnlinkMsg, search_missed holds.linked holds.distinct]
  intro cell inside
  have different : cell.1 ≠ a := fun same => absent (same ▸ mem_map_of_mem inside)
  simpa using different

lemma Holds.workerUnlinkMsg_some (holds : w.Holds (front ++ (a, m) :: back)) :
    ∃ w', w.workerUnlinkMsg a = some (w', true) ∧ w'.Holds (front ++ back) ∧
      (∃ next, read w'.heap a = some ⟨m, next⟩) ∧ Keeps (addrs (front ++ (a, m) :: back)) w w' := by
  have distinct := nodup_remove holds.distinct
  obtain ⟨apartFront, _⟩ := apart_of_nodup holds.distinct
  obtain ⟨r, toFront, _, next, found, toBack⟩ := linked_append.mp holds.linked
  have searched : search w.heap (fun b _ => some (b == a)) w.msgHead =
      some (some (lastAddr none front, a)) := by
    refine search_found holds.linked holds.distinct (fun cell inside => ?_) (by simp)
    have different : cell.1 ≠ a := fun same => apartFront (same ▸ mem_map_of_mem inside)
    simpa using different
  refine ⟨{ w.setLink (lastAddr none front) next with
      msgTail := lastAddr none (front ++ back)
      msgPending := w.msgPending - 1 }, ?_,
    ⟨⟨linked_append.mpr ⟨next, linked_setLink toFront toBack distinct⟩, ?_, distinct⟩, rfl⟩,
    ⟨next, (read_setLink apartFront next).trans found⟩,
    ⟨fun b outside => read_setLink (fun inside => outside ?_) next, setLink_msgFreelist _ _⟩⟩
  · simp only [CmqWorker.workerUnlinkMsg, searched, found, setLink_msgTail, setLink_msgPending,
      holds.tail, lastAddr_remove holds.distinct]
  · rw [holds.pending]
    simp
  simp only [addrs, map_append, mem_append]
  exact .inl inside

lemma Holds.teardownQueued (holds : w.Holds queue) (id gen : Nat) :
    w.teardownQueued id gen = some (queue.any fun cell =>
      cell.2.kind == .teardown && cell.2.aims id gen) := by
  rw [CmqWorker.teardownQueued]
  rcases search_cases holds.linked holds.distinct
      (fun _ m => some (m.kind == .teardown && m.aims id gen))
      (fun cell => cell.2.kind == .teardown && cell.2.aims id gen) (fun _ _ => rfl) with
    ⟨searched, missed⟩ | ⟨_, a, m, _, rfl, -, hit, searched⟩
  · rw [searched, any_eq_false.mpr fun cell inside => by simp [missed cell inside]]
    rfl
  rw [searched, any_append, any_cons, hit]
  simp

/-! ## The batch and the purge -/

lemma batchLoop_linked {heap : Heap (CmqWorkerMsg τ)} {p : Option Nat}
    (linked : Linked heap p queue none) (n : Nat) (last : Option Nat) :
    ∃ front back r, queue = front ++ back ∧ (0 < n → front = [] → back = []) ∧
      Linked heap p front r ∧ Linked heap r back none ∧
      batchLoop heap n last p = some (lastAddr last front, r, front.length) := by
  induction n generalizing p queue last with
  | zero => exact ⟨[], queue, p, rfl, by simp, rfl, linked, rfl⟩
  | succ n ih =>
    cases queue with
    | nil =>
      subst linked
      exact ⟨[], [], none, rfl, fun _ _ => rfl, rfl, rfl, rfl⟩
    | cons cell queue =>
      obtain ⟨rfl, next, found, rest⟩ := linked
      obtain ⟨front, back, r, rfl, -, toR, toEnd, looped⟩ := ih rest (some cell.1)
      refine ⟨cell :: front, back, r, rfl, by simp, ⟨rfl, next, found, toR⟩, toEnd, ?_⟩
      simp only [batchLoop, found, looped, map_some, lastAddr_cons, length_cons]

lemma lastAddr_append (prev : Option Nat) (front back : List (Nat × CmqWorkerMsg τ)) :
    lastAddr prev (front ++ back) = lastAddr (lastAddr prev front) back := by
  induction front generalizing prev with
  | nil => rfl
  | cons _ front ih => rw [cons_append, lastAddr_cons, lastAddr_cons, ih]

lemma Holds.workerTakeBatch (holds : w.Holds queue) :
    ∃ front back w', queue = front ++ back ∧ w.workerTakeBatch = some (w', w.msgHead) ∧
      w'.Holds back ∧ Linked w'.heap w.msgHead front none ∧ Keeps (addrs queue) w w' := by
  obtain ⟨front, back, r, rfl, nonempty, toR, toEnd, looped⟩ :=
    batchLoop_linked holds.linked cmqWorkerWakeBatch none
  have distinct : (addrs front ++ addrs back).Nodup := by
    have distinct := holds.distinct
    unfold addrs at distinct ⊢
    rwa [map_append] at distinct
  have pending : w.msgPending = front.length + back.length := by simp [holds.pending]
  refine ⟨front, back, { w with
      heap := cutBehind w.heap (lastAddr none front)
      msgHead := r
      msgTail := if r = none then none else w.msgTail
      msgPending := if w.msgPending ≥ front.length then w.msgPending - front.length else 0 },
    rfl, by rw [CmqWorker.workerTakeBatch, looped]; rfl,
    ⟨⟨?_, ?_, (nodup_append.mp distinct).2.1⟩, ?_⟩, ?_, ⟨?_, rfl⟩⟩
  · refine toEnd.congr fun b inside => ?_
    cases front using reverseRecOn with
    | nil => rfl
    | append_singleton front last =>
      rw [lastAddr_concat]
      refine read_setNext_of_ne fun same => ?_
      exact disjoint_of_nodup_append distinct (by simp [← same]) inside
  · simp only [pending]
    split <;> omega
  · dsimp only
    rw [holds.tail, lastAddr_append]
    split
    next atEnd =>
      rw [atEnd] at toEnd
      rw [eq_nil_of_linked toEnd]
      rfl
    next more =>
    cases back with
    | nil => exact absurd toEnd more
    | cons _ back => rw [lastAddr_cons, lastAddr_cons]
  · cases front using reverseRecOn with
    | nil =>
      have empty := nonempty (by decide) rfl
      subst empty
      exact holds.linked
    | append_singleton front last =>
      simp only [lastAddr_concat]
      refine toR.setNext_last (fun inside => ?_) none
      have nodup := (nodup_append.mp distinct).1
      unfold addrs at nodup inside
      rw [map_append] at nodup
      exact disjoint_of_nodup_append nodup inside (by simp)
  intro b outside
  cases front using reverseRecOn with
  | nil => rfl
  | append_singleton front last =>
    simp only [lastAddr_concat]
    exact read_setNext_of_ne fun same => outside (by simp [← same])

/-- The messages that `worker_purge_send_for_id` drops. -/
def purged (id gen : Nat) (m : CmqWorkerMsg τ) : Bool :=
  decide (m.kind ≠ .teardown) && m.aims id gen

/-- The loop of the purge: `front` was kept, `back` is still ahead. -/
lemma purgeLoop_chained (id gen : Nat) (dropped : List (CmqWorkerMsg τ))
    (front : List (Nat × CmqWorkerMsg τ)) (pending : w.msgPending = front.length + back.length)
    (distinct : (addrs (front ++ back)).Nodup) (toCur : Linked w.heap w.msgHead front cur)
    (fromCur : Linked w.heap cur back none) (enough : back.length < fuel) :
    ∃ w', purgeLoop id gen fuel w (lastAddr none front) cur dropped =
        some (w', dropped ++ (back.map Prod.snd).filter (purged id gen)) ∧
      w'.Holds (front ++ back.filter fun cell => !purged id gen cell.2) ∧
      Keeps (addrs (front ++ back)) w w' := by
  induction back generalizing w front cur dropped fuel with
  | nil =>
    obtain ⟨fuel, rfl⟩ := Nat.exists_eq_add_one.mpr enough
    subst fromCur
    refine ⟨{ w with msgTail := lastAddr none front }, ?_, ⟨⟨?_, ?_, ?_⟩, ?_⟩,
      ⟨fun _ _ => rfl, rfl⟩⟩
    · simp [purgeLoop]
    · simpa using toCur
    · simpa using pending
    · exact distinct
    simp
  | cons cell back ih =>
    obtain ⟨fuel, rfl⟩ := Nat.exists_eq_add_one.mpr (Nat.zero_lt_of_lt enough)
    obtain ⟨rfl, next, found, rest⟩ := fromCur
    have enough' : back.length < fuel := by simpa using enough
    by_cases drop : purged id gen cell.2 = true
    · obtain ⟨apartFront, apartBack⟩ := apart_of_nodup distinct
      have distinct' := nodup_remove distinct
      obtain ⟨toNext, fromNext⟩ := linked_setLink toCur rest distinct'
      -- Freeing the cell leaves the lists before and behind it.
      obtain ⟨w', looped, holds, keeps⟩ := ih (dropped ++ [cell.2]) front
        (w := { w.setLink (lastAddr none front) next with
          heap := free (w.setLink (lastAddr none front) next).heap cell.1
          msgPending := (w.setLink (lastAddr none front) next).msgPending - 1 })
        (by simp [pending]) distinct'
        (toNext.congr fun b inside => read_free_of_ne fun same => apartFront (same ▸ inside))
        (fromNext.congr fun b inside => read_free_of_ne fun same => apartBack (same ▸ inside))
        enough'
      refine ⟨w', ?_, ?_, ⟨fun b outside => ?_, ?_⟩⟩
      · have test : cell.2.kind ≠ .teardown ∧ cell.2.aims id gen = true := by
          simpa [purged] using drop
        simp only [purgeLoop, found, if_pos test]
        rw [looped, map_cons, filter_cons_of_pos drop]
        simp
      · rw [filter_cons_of_neg (by simp [drop])]
        exact holds
      · have different : cell.1 ≠ b := fun same => outside (by simp [← same])
        have outside' : b ∉ addrs (front ++ back) := fun inside => outside (by
          simp only [addrs, map_append, mem_append, map_cons, mem_cons] at inside ⊢
          tauto)
        rw [keeps.memory b outside', read_free_of_ne different]
        refine read_setLink (fun inside => outside ?_) next
        simp only [addrs, map_append, mem_append]
        exact .inl inside
      rw [keeps.freelist]
      exact setLink_msgFreelist _ _
    have append : front ++ cell :: back = (front ++ [cell]) ++ back := by simp
    rw [append] at distinct
    obtain ⟨w', looped, holds, keeps⟩ := ih dropped
      (front ++ [cell]) (by simp [pending]; omega) distinct
      (linked_append.mpr ⟨some cell.1, toCur, rfl, next, found, rfl⟩) rest enough'
    refine ⟨w', ?_, ?_, ?_⟩
    · have test : ¬ (cell.2.kind ≠ .teardown ∧ cell.2.aims id gen = true) := by
        simpa [purged] using drop
      simp only [purgeLoop, found, if_neg test]
      rw [lastAddr_concat] at looped
      rw [looped, map_cons, filter_cons_of_neg drop]
    · rw [filter_cons_of_pos (by simpa using drop)]
      simpa using holds
    rw [append]
    exact keeps

lemma Holds.workerPurgeSendForId (holds : w.Holds queue) (id gen : Nat) :
    ∃ w' drop, w.workerPurgeSendForId id gen = some (w', (queue.map Prod.snd).filter drop) ∧
      (∀ m, drop m = true → m.kind = .send) ∧
      w'.Holds (queue.filter fun cell => !drop cell.2) ∧ Keeps (addrs queue) w w' := by
  rw [CmqWorker.workerPurgeSendForId]
  split
  · exact ⟨w, fun _ => false, by simp, by simp, by simpa using holds, Keeps.refl _ _⟩
  obtain ⟨w', looped, holds', keeps⟩ := purgeLoop_chained id gen [] []
    (by simpa using holds.pending) holds.distinct rfl holds.linked
    (Nat.lt_succ_of_le (holds.linked.length_le holds.distinct))
  refine ⟨w', purged id gen, looped, fun m drop => ?_, holds', keeps⟩
  cases kind : m.kind with
  | send => rfl
  | teardown => simp [purged, kind] at drop

end CmqWorker

end CMsgQueue.Server
