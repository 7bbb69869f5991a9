import Mathlib.Data.List.Pairwise
import CMsgQueue.Server.MailboxRep

/-!
# Runs of a mailbox

In a run in which no thread is disturbed between its accesses to the free list the mailbox is
sound.
-/

namespace CMsgQueue.Server

open List Chain

universe u

variable {τ : Type u}

namespace Mailbox

variable {s : Mailbox τ}

/-! ## Steps of the worker's thread -/

variable {a : Nat}

lemma Rep.outside (rep : s.Rep layout) (keeps : CmqWorker.Keeps (addrs layout.queue) s.worker w')
    (used : 0 < layout.parts s.pc a + (s.threads.flatMap PushPc.owned).count a) :
    read w'.heap a = read s.worker.heap a := by
  have bound := rep.distinct a
  refine keeps.memory a fun inside => ?_
  have counted := count_pos_iff.mpr inside
  omega

lemma Rep.content_of (rep : s.Rep layout) {heap' : Heap (CmqWorkerMsg τ)}
    (same : ∀ a, 0 < (s.threads.flatMap PushPc.owned).count a →
      read heap' a = read s.worker.heap a) : ∀ pc ∈ s.threads, pc.Content heap' := by
  intro pc member
  refine (rep.content pc member).congr fun a owned => same a ?_
  exact count_pos_iff.mpr (mem_flatMap.mpr ⟨pc, member, owned⟩)

lemma Returns.log (returns : s.Returns) (worker : CmqWorker τ) (pc : WorkerPc)
    (silent : returnedOf entries = []) :
    Returns { s with worker, pc, log := s.log ++ entries } := by
  refine returns.perm ?_ rfl
  have same : returnedOf (s.log ++ entries) = returnedOf s.log := by
    unfold returnedOf at silent ⊢
    rw [filterMap_append, silent, append_nil]
  rw [same]

section

variable (inv : s.Inv)
include inv

lemma Inv.toBatch (idle : s.pc = .idle) {w' : CmqWorker τ} {p : Option Nat}
    (moved : ∀ queue, s.worker.Holds queue → ∃ queue' batch, w'.Holds queue' ∧
      Linked w'.heap p batch none ∧ CmqWorker.Keeps (addrs queue) s.worker w' ∧
      (∀ a, (addrs queue').count a + (addrs batch).count a = (addrs queue).count a) ∧
      ∀ stamp log, MailState.Steps ⟨queue.map Prod.snd, [], stamp, log⟩
        ⟨queue'.map Prod.snd, batch.map Prod.snd, stamp, log⟩) :
    Inv { s with worker := w', pc := .batch p } := by
  obtain ⟨⟨queue, batch, current, spare⟩, rep, mail, returns⟩ := inv
  obtain ⟨queue', batch', holds, linked, keeps, counts, steps⟩ := moved queue rep.queue
  have outside := fun a => rep.outside keeps (a := a)
  have parts := rep.parts
  have distinct := rep.distinct
  rw [idle] at parts outside distinct
  -- Nothing is in the hands of the worker.
  have noBatch : batch = [] := CmqWorker.eq_nil_of_linked parts.batch
  have noCurrent : current = [] := map_eq_nil_iff.mp parts.held
  subst noBatch noCurrent
  refine ⟨⟨queue', batch', [], spare⟩, ⟨rep.unfaulted, holds, ⟨linked, by simp, rfl, by simp,
    ?_, by simp [WorkerPc.owned]⟩, ?_, fun a => ?_⟩, mail.steps (steps _ _),
    returns.perm (List.Perm.refl _) rfl⟩
  · dsimp only
    rw [keeps.freelist]
    exact parts.spare.congr fun a inside => outside a
      (Nat.add_pos_left (Layout.mem_parts.mpr (.inr (.inr (.inl inside)))) _)
  · exact rep.content_of fun a used => outside a (Nat.add_pos_right _ used)
  have bound := distinct a
  have same := counts a
  unfold Layout.parts at bound ⊢
  simp only [WorkerPc.owned, count_nil] at bound same ⊢
  omega

lemma Inv.workerTakeBatch (idle : s.pc = .idle) : (s.workerStep .wake).Inv := by
  obtain ⟨queue, holds⟩ := inv.holds
  obtain ⟨front, back, w', -, taken, -⟩ := holds.workerTakeBatch
  have stepped : s.workerStep .wake =
      { s with worker := w', pc := .batch s.worker.msgHead } := by
    simp only [workerStep, idle, taken]
  rw [stepped]
  refine inv.toBatch idle fun queue holds => ?_
  obtain ⟨front, back, _, rfl, taken', holds', linked, keeps⟩ := holds.workerTakeBatch
  rw [taken, Option.some.injEq, Prod.mk.injEq] at taken'
  obtain ⟨rfl, -⟩ := taken'
  refine ⟨back, front, holds', linked, keeps, fun a => ?_, fun _ _ => ?_⟩
  · simp only [addrs, map_append, count_append]
    omega
  rw [map_append]
  exact .single .take

lemma Inv.popped (idle : s.pc = .idle) {result : Option (CmqWorker τ × Option Nat)}
    (popped : ∀ queue, s.worker.Holds queue → result = some (s.worker, none) ∨
      ∃ front a m back w', queue = front ++ (a, m) :: back ∧
        (m.kind = .send → ∀ cell ∈ front, ¬ cell.2.SameTarget m) ∧ result = some (w', some a) ∧
        w'.Holds (front ++ back) ∧ read w'.heap a = some ⟨m, none⟩ ∧
        CmqWorker.Keeps (addrs queue) s.worker w') :
    ∃ w' p, result = some (w', p) ∧ Inv { s with worker := w', pc := .batch p } := by
  obtain ⟨w', p, rfl⟩ : ∃ w' p, result = some (w', p) := by
    obtain ⟨queue, holds⟩ := inv.holds
    rcases popped queue holds with same | ⟨-, a, -, -, w', -, -, same, -⟩ <;> exact ⟨_, _, same⟩
  refine ⟨w', p, rfl, inv.toBatch idle fun queue holds => ?_⟩
  rcases popped queue holds with
    same | ⟨front, a, m, back, _, rfl, first, same, holds', found, keeps⟩
  · cases same
    exact ⟨queue, [], holds, rfl, CmqWorker.Keeps.refl _ _, by simp, fun _ _ => .refl⟩
  cases same
  refine ⟨front ++ back, [(a, m)], holds', ⟨rfl, none, found, rfl⟩, keeps, fun b => ?_,
    fun _ _ => ?_⟩
  · simp only [map_append, map_cons, map_nil, count_append, count_cons, count_nil]
    omega
  rw [map_append, map_append]
  refine .single (.pop m fun send _ member => ?_)
  obtain ⟨cell, inside, rfl⟩ := mem_map.mp member
  exact first send cell inside

lemma Inv.workerPopSend (idle : s.pc = .idle) : (s.workerStep .popSend).Inv := by
  obtain ⟨w', p, popped, inv'⟩ := inv.popped idle fun _ holds =>
    holds.workerPopSend.imp_right fun ⟨front, a, m, back, w', eq, _, first, rest⟩ =>
      ⟨front, a, m, back, w', eq, fun _ => first, rest⟩
  simp only [workerStep, idle, popped]
  exact inv'

lemma Inv.workerPopTeardown (idle : s.pc = .idle) (skipId skipGen : Nat) :
    (s.workerStep (.popTeardown skipId skipGen)).Inv := by
  obtain ⟨w', p, popped, inv'⟩ := inv.popped idle fun _ holds =>
    (holds.workerPopTeardown skipId skipGen).imp_right
      fun ⟨front, a, m, back, w', eq, teardown, rest⟩ =>
        ⟨front, a, m, back, w', eq, fun send => absurd (teardown.symm.trans send) (by decide), rest⟩
  simp only [workerStep, idle, popped]
  exact inv'

/-- The purge of the messages for a client; where the worker's thread is may change with the
same cells in its hands. -/
lemma Inv.purge (id gen : Nat) (pc : WorkerPc) (pointer : pc.pointer = s.pc.pointer)
    (current : pc.current = s.pc.current) (owned : pc.owned = s.pc.owned) :
    ∃ worker dropped, s.worker.workerPurgeSendForId id gen = some (worker, dropped) ∧
      Inv { { s with worker }.note (dropped.map .dropped) with pc } := by
  obtain ⟨layout, rep, mail, returns⟩ := inv
  obtain ⟨w', drop, purged, sends, holds, keeps⟩ := rep.queue.workerPurgeSendForId id gen
  have outside := fun a => rep.outside keeps (a := a)
  have parts := rep.parts.congr fun a used => outside a (Nat.add_pos_left used _)
  refine ⟨w', _, purged, { layout with queue := layout.queue.filter fun cell => !drop cell.2 },
    ⟨rep.unfaulted, holds, ?_, ?_, fun a => ?_⟩, mail.steps ?_, returns.log _ _ ?_⟩
  · dsimp only [note]
    rw [keeps.freelist]
    exact ⟨pointer ▸ parts.batch, parts.current, current ▸ parts.held, parts.teardown,
      parts.spare, owned ▸ parts.owned⟩
  · exact rep.content_of fun a used => outside a (Nat.add_pos_right _ used)
  · have bound := rep.distinct a
    have fewer : (addrs (layout.queue.filter fun cell => !drop cell.2)).count a ≤
        (addrs layout.queue).count a :=
      List.Sublist.count_le _ (List.Sublist.map _ filter_sublist)
    unfold Layout.parts at bound ⊢
    dsimp only [note]
    rw [owned]
    omega
  · have steps := MailState.steps_purge sends [] (layout.queue.map Prod.snd)
      ((layout.current ++ layout.batch).map Prod.snd) s.stamp s.log
    rw [filter_map] at steps
    exact steps
  simp [returnedOf, MailEntry.returned?, Function.comp_def]

end

variable {cell : Cell (CmqWorkerMsg τ)}

section

variable (inv : s.Inv)
include inv

section

variable (pc : s.pc = .batch (some a)) (found : read s.worker.heap a = some cell)
include pc found

lemma Inv.front :
    ∃ queue rest spare, s.Rep ⟨queue, (a, cell.body) :: rest, [], spare⟩ ∧
      Linked s.worker.heap cell.next rest none ∧
      (s.mail ⟨queue, (a, cell.body) :: rest, [], spare⟩).Inv ∧ s.Returns := by
  obtain ⟨⟨queue, batch, current, spare⟩, rep, mail, returns⟩ := inv
  have parts := rep.parts
  rw [pc] at parts
  obtain rfl : current = [] := map_eq_nil_iff.mp parts.held
  obtain ⟨_, _, rest, rfl, found', toEnd⟩ := parts.batch.exists_first
  cases found.symm.trans found'
  exact ⟨queue, rest, spare, rep, toEnd, mail, returns⟩

lemma Inv.deliver (send : cell.body.kind = .send) (success : Bool) :
    Inv { (s.withHeap (free s.worker.heap a)).note
        [if success then .delivered cell.body else .dropped cell.body] with
      pc := .batch cell.next } := by
  obtain ⟨queue, rest, spare, rep, toEnd, mail, returns⟩ := inv.front pc found
  have distinct := rep.distinct
  rw [pc] at distinct
  -- Only the cell that is freed changes.
  have unchanged : ∀ b, b ∈ addrs queue ∨ b ∈ addrs rest ∨ b ∈ addrs spare ∨
      0 < (s.threads.flatMap PushPc.owned).count b →
      read (free s.worker.heap a) b = read s.worker.heap b := by
    refine fun b used => read_free_of_ne ?_
    rintro rfl
    have bound := distinct a
    unfold Layout.parts at bound
    simp only [← count_pos_iff] at used
    simp only [addrs, map_cons, count_cons_self] at bound used
    omega
  refine ⟨⟨queue, rest, [], spare⟩,
    ⟨rep.unfaulted, rep.queue.congr fun b inside => unchanged b (.inl inside),
    ⟨toEnd.congr fun b inside => unchanged b (.inr (.inl inside)), by simp, rfl, by simp,
      rep.parts.spare.congr fun b inside => unchanged b (.inr (.inr (.inl inside))),
      by simp [WorkerPc.owned]⟩,
    rep.content_of fun b used => unchanged b (.inr (.inr (.inr used))), fun b => ?_⟩,
    mail.step ?_, returns.log _ _ ?_⟩
  · have bound := distinct b
    unfold Layout.parts at bound ⊢
    simp only [note, withHeap, addrs, map_cons, count_cons, WorkerPc.owned] at bound ⊢
    omega
  · refine .finish cell.body _ ?_ ?_
    · cases success <;> exact send
    cases success <;> simp
  cases success <;> rfl

lemma Inv.beginTeardown (teardown : cell.body.kind = .teardown) :
    Inv { s with pc := .purge a cell.next } := by
  obtain ⟨queue, rest, spare, rep, toEnd, mail, returns⟩ := inv.front pc found
  have distinct := rep.distinct
  refine ⟨⟨queue, rest, [(a, cell.body)], spare⟩, ⟨rep.unfaulted, rep.queue,
    ⟨toEnd, forall_mem_singleton.mpr ⟨cell.next, found⟩, rfl,
      forall_mem_singleton.mpr teardown, rep.parts.spare, by simp [WorkerPc.owned]⟩,
    rep.content, fun b => ?_⟩, mail, returns.perm (List.Perm.refl _) rfl⟩
  have bound := distinct b
  unfold Layout.parts at bound ⊢
  simp only [addrs, map_cons, count_cons, count_nil, WorkerPc.owned] at bound ⊢
  omega

end

lemma Inv.current (pc : s.pc.current = [a]) : ∃ cell, read s.worker.heap a = some cell := by
  obtain ⟨layout, rep, -⟩ := inv
  have held := rep.parts.held.trans pc
  obtain ⟨cell, member, rfl⟩ : ∃ cell ∈ layout.current, cell.1 = a :=
    mem_map.mp (show a ∈ addrs layout.current by rw [held]; exact mem_cons_self)
  obtain ⟨_, found⟩ := rep.parts.current cell member
  exact ⟨_, found⟩

lemma Inv.handle (pc : s.pc = .close a rest) (found : read s.worker.heap a = some cell) :
    Inv { s.note [.handled cell.body] with pc := .recycle a rest } := by
  obtain ⟨⟨queue, batch, current, spare⟩, rep, mail, returns⟩ := inv
  have parts := rep.parts
  have distinct := rep.distinct
  rw [pc] at parts distinct
  obtain ⟨first, rfl, rfl⟩ := map_eq_singleton_iff.mp parts.held
  obtain ⟨_, found'⟩ := parts.current first mem_cons_self
  cases found.symm.trans found'
  refine ⟨⟨queue, batch, [], spare⟩, ⟨rep.unfaulted, rep.queue,
    ⟨parts.batch, by simp, rfl, by simp, parts.spare,
      forall_mem_singleton.mpr (Option.isSome_of_eq_some found)⟩, rep.content, fun b => ?_⟩,
    mail.step ?_, returns.log _ _ rfl⟩
  · have bound := distinct b
    unfold Layout.parts at bound ⊢
    simp only [note, map_cons, map_nil, count_cons, count_nil, WorkerPc.owned] at bound ⊢
    omega
  exact .finish first.2 _ (parts.teardown first mem_cons_self) (.inr (.inr rfl))

lemma Inv.giveBack (owned : s.pc.owned = [a]) {pc : WorkerPc} {heap' : Heap (CmqWorkerMsg τ)}
    (pointer : pc.pointer = s.pc.pointer) (current : pc.current = s.pc.current)
    (fewer : pc.owned.Sublist [a]) (same : ∀ b, a ≠ b → read heap' b = read s.worker.heap b)
    (content : ∀ b ∈ pc.owned, (read heap' b).isSome = true) :
    Inv { s.withHeap heap' with pc } := by
  obtain ⟨layout, rep, mail, returns⟩ := inv
  have distinct := rep.distinct
  unfold Layout.parts at distinct
  rw [owned] at distinct
  have unchanged : ∀ b, b ∈ addrs layout.queue ∨ b ∈ addrs layout.batch ∨
      b ∈ addrs layout.current ∨ b ∈ addrs layout.spare ∨
      0 < (s.threads.flatMap PushPc.owned).count b → read heap' b = read s.worker.heap b := by
    refine fun b used => same b ?_
    rintro rfl
    have bound := distinct a
    rw [count_singleton_self] at bound
    simp only [← count_pos_iff] at used
    omega
  refine ⟨layout, ⟨rep.unfaulted, rep.queue.congr fun b inside => unchanged b (.inl inside),
    ⟨?_, fun cell member => ?_, current ▸ rep.parts.held, rep.parts.teardown,
      rep.parts.spare.congr fun b inside => unchanged b (.inr (.inr (.inr (.inl inside)))),
      content⟩,
    rep.content_of fun b used => unchanged b (.inr (.inr (.inr (.inr used)))), fun b => ?_⟩,
    mail, returns.perm (List.Perm.refl _) rfl⟩
  · dsimp only
    rw [pointer]
    exact rep.parts.batch.congr fun b inside => unchanged b (.inr (.inl inside))
  · obtain ⟨next, found⟩ := rep.parts.current cell member
    have inside := unchanged cell.1 (.inr (.inr (.inl (mem_map_of_mem member))))
    exact ⟨next, inside.trans found⟩
  have bound := distinct b
  have fewerHere := fewer.count_le b
  unfold Layout.parts
  dsimp only [withHeap]
  omega

lemma Inv.workerStore (pc : s.pc = .store a rest) (still : s.pc.Undisturbed s.worker) :
    Inv { s.storeFreelist a true with pc := .batch rest } := by
  obtain ⟨⟨queue, batch, current, spare⟩, rep, mail, returns⟩ := inv
  have parts := rep.parts
  have distinct := rep.distinct
  rw [pc] at parts distinct still
  cases found : read s.worker.heap a with
  | none => simp [WorkerPc.Undisturbed, found] at still
  | some cell =>
    obtain ⟨body, next⟩ := cell
    have atHead : next = s.worker.msgFreelist := by simpa [WorkerPc.Undisturbed, found] using still
    refine ⟨⟨queue, batch, current, (a, body) :: spare⟩, ⟨rep.unfaulted, ?_,
      ⟨parts.batch, parts.current, parts.held, parts.teardown,
        ⟨rfl, next, found, atHead ▸ parts.spare⟩, by simp [WorkerPc.owned]⟩, rep.content,
      fun b => ?_⟩, mail, returns.perm (List.Perm.refl _) rfl⟩
    · exact ⟨⟨rep.queue.linked, rep.queue.pending, rep.queue.distinct⟩, rep.queue.tail⟩
    have bound := distinct b
    unfold Layout.parts at bound ⊢
    simp only [storeFreelist, addrs, map_cons, count_cons, WorkerPc.owned] at bound ⊢
    omega

lemma Inv.owned_isSome (owned : s.pc.owned = [a]) : (read s.worker.heap a).isSome = true := by
  obtain ⟨_, rep, -⟩ := inv
  exact rep.parts.owned a (by rw [owned]; exact mem_cons_self)

lemma Inv.batch_cons (pc : s.pc = .batch (some a)) :
    ∃ cell, read s.worker.heap a = some cell := by
  obtain ⟨_, rep, -⟩ := inv
  have linked := rep.parts.batch
  rw [pc] at linked
  obtain ⟨_, _, _, -, found, -⟩ := linked.exists_first
  exact ⟨_, found⟩

lemma Inv.batch_nil (pc : s.pc = .batch none) : Inv { s with pc := .idle } := by
  obtain ⟨layout, rep, mail, returns⟩ := inv
  have parts := rep.parts
  have distinct := rep.distinct
  rw [pc] at parts distinct
  exact ⟨layout, ⟨rep.unfaulted, rep.queue, ⟨parts.batch, parts.current, parts.held,
    parts.teardown, parts.spare, parts.owned⟩, rep.content, distinct⟩, mail,
    returns.perm (List.Perm.refl _) rfl⟩

lemma Inv.workerStep (choice : WorkerChoice) (still : s.pc.Undisturbed s.worker) :
    (s.workerStep choice).Inv := by
  cases pc : s.pc with
  | idle =>
    cases choice with
    | wake => exact inv.workerTakeBatch pc
    | popSend => exact inv.workerPopSend pc
    | popTeardown skipId skipGen => exact inv.workerPopTeardown pc skipId skipGen
    | deliver success =>
      simp only [Mailbox.workerStep, pc]
      exact inv
  | batch p =>
    cases p with
    | none =>
      simp only [Mailbox.workerStep, pc]
      exact inv.batch_nil pc
    | some a =>
      obtain ⟨cell, found⟩ := inv.batch_cons pc
      simp only [Mailbox.workerStep, pc, found]
      cases kind : cell.body.kind with
      | teardown => exact inv.beginTeardown pc found kind
      | send =>
        cases choice with
        | deliver success => exact inv.deliver pc found kind success
        | _ => exact inv
  | purge a rest =>
    obtain ⟨cell, found⟩ := inv.current (a := a) (by rw [pc]; rfl)
    obtain ⟨worker, _, purged, inv'⟩ := inv.purge cell.body.targetId cell.body.targetGen
      (.close a rest) (by rw [pc]; rfl) (by rw [pc]; rfl) (by rw [pc]; rfl)
    simp only [Mailbox.workerStep, pc, found, purged]
    exact inv'
  | close a rest =>
    obtain ⟨cell, found⟩ := inv.current (a := a) (by rw [pc]; rfl)
    simp only [Mailbox.workerStep, pc, found]
    exact inv.handle pc found
  | recycle a rest =>
    have owned : s.pc.owned = [a] := by rw [pc]; rfl
    have allocated := inv.owned_isSome owned
    obtain ⟨cell, found⟩ := Option.isSome_iff_exists.mp allocated
    simp only [Mailbox.workerStep, pc]
    split
    · rw [pointToFreelist, if_pos allocated]
      exact inv.giveBack owned (by rw [pc]; rfl) (by rw [pc]; rfl) (List.Sublist.refl _)
        (fun b => read_setNext_of_ne)
        (forall_mem_singleton.mpr (Option.isSome_of_eq_some (read_setNext_self found)))
    exact inv.giveBack owned (by rw [pc]; rfl) (by rw [pc]; rfl) (nil_sublist _)
      (fun b => read_free_of_ne) (by simp [WorkerPc.owned])
  | store a rest =>
    simp only [Mailbox.workerStep, pc]
    exact inv.workerStore pc still

/-! ## Runs -/

lemma Inv.step (event : MailEvent τ) (still : s.Undisturbed event) : (s.step event).Inv := by
  cases event with
  | push thread choice =>
    simp only [Mailbox.step]
    cases at? : s.threads[thread]? with
    | none => exact inv
    | some q =>
      obtain ⟨inside, here⟩ := List.getElem?_eq_some_iff.mp at?
      have threads : s.threads =
          s.threads.take thread ++ q :: s.threads.drop (thread + 1) := by
        rw [← here, getElem_cons_drop, take_append_drop]
      have stepped := inv.pushStep threads choice (still q at?)
      dsimp only
      rw [set_eq_take_append_cons_drop, if_pos inside]
      exact stepped
  | worker choice => exact inv.workerStep choice still
  | purge id gen =>
    obtain ⟨worker, _, purged, inv'⟩ := inv.purge id gen s.pc rfl rfl rfl
    simp only [Mailbox.step, purged]
    exact inv'

end

lemma inv_start (threads : Nat) : (start threads : Mailbox τ).Inv := by
  have nothing : ∀ part : PushPc τ → List Nat, part .idle = [] →
      (List.replicate threads .idle).flatMap part = [] := by
    intro part empty
    refine flatMap_eq_nil_iff.mpr fun pc member => ?_
    rw [eq_of_mem_replicate member]
    exact empty
  refine ⟨⟨[], [], [], []⟩, ⟨rfl, ⟨⟨rfl, rfl, nodup_nil⟩, rfl⟩,
    ⟨rfl, by simp, rfl, by simp, rfl, by simp [start, WorkerPc.owned]⟩, ?_, ?_⟩,
    MailState.inv_start, ?_, ?_⟩
  · intro pc member
    rw [eq_of_mem_replicate member]
    exact PushPc.content_of_owned_nil rfl
  · intro a
    simp [start, Layout.parts, WorkerPc.owned, nothing PushPc.owned rfl]
  · simp [start, returnedOf, nothing PushPc.stamps rfl]
  simp [start, returnedOf, nothing PushPc.stamps rfl]

def queued (s : Mailbox τ) : List (CmqWorkerMsg τ) :=
  ((walk s.worker.heap s.worker.msgHead).getD []).map Prod.snd

/-- The messages that the worker's thread has taken out of the list and not ended. -/
def inHand (s : Mailbox τ) : List (CmqWorkerMsg τ) :=
  (s.pc.current.filterMap fun a => (read s.worker.heap a).map Cell.body) ++
    ((walk s.worker.heap s.pc.pointer).getD []).map Prod.snd

structure Sound (s : Mailbox τ) : Prop where
  unfaulted : s.faulted = false
  /-- The list ends, and the tail and the counter agree with it. -/
  consistent : ∃ queue, walk s.worker.heap s.worker.msgHead = some queue ∧
    s.worker.msgTail = lastAddr none queue ∧ s.worker.msgPending = queue.length
  /-- Stamps number the messages in the order of their pushes. -/
  stamps : (linkedOf s.log).map (·.stamp) = List.range s.stamp
  inOrder : (deliveredOf s.log).Pairwise fun a b => a.SameTarget b → a.stamp < b.stamp
  teardownFirst : Runs.Along TeardownFirst s.log
  /-- No message is lost, doubled or ended twice. -/
  once : (linkedOf s.log).Perm (s.queued ++ s.inHand ++ endedOf s.log)
  endedOnce : (endedOf s.log).Nodup
  /-- What was pushed with success and is no longer in the mailbox was delivered or dropped; a
  TEARDOWN was handled. -/
  settled : ∀ m, .linked m ∈ s.log → .accepted m.stamp ∈ s.log → m ∉ s.queued → m ∉ s.inHand →
    match m.kind with
    | .send => .delivered m ∈ s.log ∨ .dropped m ∈ s.log
    | .teardown => .handled m ∈ s.log
  singleTeardown : s.queued.Pairwise SingleTeardown

lemma Rep.queued (rep : s.Rep layout) : s.queued = layout.queue.map Prod.snd := by
  rw [Mailbox.queued, walk_linked rep.queue.linked rep.queue.distinct]
  rfl

lemma Rep.inHand (rep : s.Rep layout) :
    s.inHand = (layout.current ++ layout.batch).map Prod.snd := by
  have distinct : (addrs layout.batch).Nodup := by
    refine nodup_iff_count_le_one.mpr fun a => ?_
    have bound := rep.distinct a
    unfold Layout.parts at bound
    omega
  rw [Mailbox.inHand, walk_linked rep.parts.batch distinct, ← rep.parts.held, map_append]
  congr 1
  rw [filterMap_map]
  have current := rep.parts.current
  revert current
  generalize layout.current = cells
  intro current
  induction cells with
  | nil => rfl
  | cons cell cells ih =>
    obtain ⟨_, found⟩ := current cell mem_cons_self
    rw [filterMap_cons_some (b := cell.2) (by simp [found]),
      ih fun other inside => current other (mem_cons_of_mem _ inside)]
    rfl

lemma Returns.not_withdrawn (returns : s.Returns)
    (accepted : .accepted m.stamp ∈ s.log) : .withdrawn m ∉ s.log := by
  intro withdrawn
  have once := (nodup_append.mp returns.once).2.1
  have apart : s.log.Pairwise fun a b => ∀ k ∈ a.returned?, ∀ k' ∈ b.returned?, k ≠ k' := by
    have pairs := pairwise_filterMap.mp once
    exact pairs.imp fun related k first k' second => related k first k' second
  have symmetric : Std.Symm fun a b : MailEntry τ =>
      ∀ k ∈ a.returned?, ∀ k' ∈ b.returned?, k ≠ k' :=
    ⟨fun a b related k first k' second => (related k' second k first).symm⟩
  exact apart.forall accepted withdrawn (by simp) m.stamp rfl m.stamp rfl rfl

lemma Inv.sound (inv : s.Inv) : s.Sound := by
  obtain ⟨layout, rep, mail, returns⟩ := inv
  have once : (linkedOf s.log).Perm (s.queued ++ s.inHand ++ endedOf s.log) := by
    rw [rep.queued, rep.inHand]
    exact mail.once
  have linkedNodup : (linkedOf s.log).Nodup := by
    refine List.Nodup.of_map (fun m : CmqWorkerMsg τ => m.stamp) ?_
    have stamps := mail.stamps
    dsimp only [Mailbox.mail] at stamps
    rw [stamps]
    exact nodup_range
  exact {
    unfaulted := rep.unfaulted
    consistent := ⟨layout.queue, walk_linked rep.queue.linked rep.queue.distinct,
      rep.queue.tail, rep.queue.pending⟩
    stamps := mail.stamps
    inOrder := by
      have ordered := (pairwise_append.mp (pairwise_append.mp mail.ordered).1).1
      refine ordered.imp_of_mem fun inside _ related target => related ?_ target
      obtain ⟨entry, member, found⟩ := mem_filterMap.mp inside
      cases entry <;> cases found
      exact mail.proper _ member
    teardownFirst := mail.teardownFirst
    once := once
    endedOnce := (nodup_append.mp (once.nodup_iff.mp linkedNodup)).2.1
    settled := by
      intro m linked accepted notQueued notInHand
      have place := once.mem_iff.mp (mem_linkedOf.mpr linked)
      simp only [mem_append, notQueued, notInHand, false_or] at place
      obtain ⟨entry, member, found⟩ := mem_filterMap.mp place
      have proper := mail.proper entry member
      cases entry <;> cases found
      case delivered =>
        rw [show m.kind = _ from proper]
        exact .inl member
      case dropped =>
        rw [show m.kind = _ from proper]
        exact .inr member
      case handled =>
        rw [show m.kind = _ from proper]
        exact member
      case withdrawn => exact absurd member (returns.not_withdrawn accepted)
    singleTeardown := by
      rw [rep.queued]
      exact mail.single }

/-- In every run in which no thread is disturbed between its accesses to the free list, and in
which a message found again after a failed wakeup is the thread's own, the mailbox is sound. -/
theorem run_sound (threads : Nat) (events : List (MailEvent τ))
    (undisturbed : Runs.Meets step Undisturbed (start threads) events) :
    (run threads events).Sound :=
  (undisturbed.invariant (fun _ event inv still => inv.step event still)
    (inv_start threads)).sound

/-- A SEND and a TEARDOWN for a client, then a SEND in the cell of the TEARDOWN. -/
def recycledRun : List (MailEvent Nat) :=
  [.push 0 (.send ⟨1, 1, 7⟩), .push 0 (.addr (some 0)), .push 0 (.ok true), .push 0 (.ok true),
    .push 0 (.ok true), .push 0 (.teardown 1 1), .push 0 (.addr (some 5)), .push 0 (.ok true),
    .push 0 (.ok true), .worker .wake, .worker (.deliver true), .worker .wake, .worker .wake,
    .worker .wake, .worker .wake, .worker .wake, .worker .wake, .push 0 (.send ⟨2, 1, 8⟩),
    .push 0 (.addr none), .push 0 (.ok true), .push 0 (.ok true), .push 0 (.ok true),
    .push 0 (.ok true), .push 0 (.ok true), .worker .popSend, .worker (.deliver true)]

theorem run_sound_recycled :
    deliveredOf (run 1 recycledRun).log =
        [⟨1, 1, .send, some 7, 0⟩, ⟨2, 1, .send, some 8, 2⟩] ∧
      (run 1 recycledRun).Sound :=
  ⟨by decide +kernel, run_sound 1 recycledRun (by decide +kernel)⟩

/-- Two threads take the cell of a handled TEARDOWN from the free list at the same time, and
both put it into the list of the worker. -/
def takenTwice : List (MailEvent Nat) :=
  [.push 0 (.teardown 1 1), .push 0 (.addr (some 0)), .push 0 (.ok true), .push 0 (.ok true),
    .worker .wake, .worker .wake, .worker .wake, .worker .wake, .worker .wake, .worker .wake,
    .push 0 (.send ⟨2, 1, 7⟩), .push 1 (.send ⟨3, 1, 8⟩), .push 0 (.addr none),
    .push 1 (.addr none), .push 0 (.ok true), .push 1 (.ok true), .push 0 (.ok true),
    .push 1 (.ok true), .push 0 (.ok true), .push 1 (.ok true), .push 0 (.ok true),
    .push 1 (.ok true)]

/-- The list is then circular. -/
theorem takenTwice_not_sound : ¬ (run 2 takenTwice).Sound := by
  intro sound
  obtain ⟨_, ends, -⟩ := sound.consistent
  cases ends

end Mailbox

end CMsgQueue.Server
