import CMsgQueue.Server.MailboxSpec

/-!
# The memory of a mailbox

If no thread is disturbed between its accesses to the free list, the cells of the memory are
divided among their holders, and the messages move as `MailStep` says.
-/

namespace CMsgQueue.Server

open List Chain

universe u

variable {τ : Type u}

/-! ## Undisturbed steps -/

/-- What a thread has seen of the free list is still so when it goes on, and a message that it
finds again in the list is still its own. -/
def PushPc.Undisturbed (w : CmqWorker τ) : PushPc τ → Prop
  | .loaded _ n => w.msgFreelist = some n
  | .advance _ n next => w.msgFreelist = some n ∧ (read w.heap n).map Cell.next = some next
  | .store n _ => (read w.heap n).map Cell.next = some w.msgFreelist
  | .relock _ n stamp => ∀ cell ∈ (walk w.heap w.msgHead).getD [], cell.1 = n → cell.2.stamp = stamp
  | _ => True

instance (w : CmqWorker τ) (pc : PushPc τ) : Decidable (pc.Undisturbed w) := by
  cases pc <;> unfold PushPc.Undisturbed <;> infer_instance

/-- What the worker's thread has seen of the free list is still so. -/
def WorkerPc.Undisturbed (w : CmqWorker τ) : WorkerPc → Prop
  | .store a _ => (read w.heap a).map Cell.next = some w.msgFreelist
  | _ => True

instance (w : CmqWorker τ) (pc : WorkerPc) : Decidable (pc.Undisturbed w) := by
  cases pc <;> unfold WorkerPc.Undisturbed <;> infer_instance

def Mailbox.Undisturbed (s : Mailbox τ) : MailEvent τ → Prop
  | .push thread _ => ∀ pc ∈ s.threads[thread]?, pc.Undisturbed s.worker
  | .worker _ => s.pc.Undisturbed s.worker
  | .purge _ _ => True

instance (s : Mailbox τ) (event : MailEvent τ) : Decidable (s.Undisturbed event) := by
  cases event <;> unfold Mailbox.Undisturbed <;> infer_instance

/-! ## Who has which cell -/

def PushPc.owned : PushPc τ → List Nat
  | .fill _ n | .ready n | .giveBack n _ | .store n _ | .teardownReady _ _ n => [n]
  | _ => []

def PushPc.stamps : PushPc τ → List Nat
  | .signal _ _ stamp | .relock _ _ stamp => [stamp]
  | _ => []

def PushPc.Content (heap : Heap (CmqWorkerMsg τ)) : PushPc τ → Prop
  | .ready n => ∃ m, read heap n = some ⟨m, none⟩ ∧ m.kind = .send
  | .teardownReady id gen n => read heap n = some ⟨teardownMsg id gen, none⟩
  | pc => ∀ a ∈ pc.owned, (read heap a).isSome = true

def WorkerPc.pointer : WorkerPc → Option Nat
  | .idle => none
  | .batch p => p
  | .purge _ rest | .close _ rest | .recycle _ rest | .store _ rest => rest

def WorkerPc.current : WorkerPc → List Nat
  | .purge a _ | .close a _ => [a]
  | _ => []

def WorkerPc.owned : WorkerPc → List Nat
  | .recycle a _ | .store a _ => [a]
  | _ => []

/-- The messages at their addresses: in the list of the worker, in its batch, in its hands, and
in the free list. -/
structure Layout (τ : Type u) where
  queue : List (Nat × CmqWorkerMsg τ)
  batch : List (Nat × CmqWorkerMsg τ)
  current : List (Nat × CmqWorkerMsg τ)
  spare : List (Nat × CmqWorkerMsg τ)

/-- How often an address is used outside the list of the worker and by the pushing threads. -/
def Layout.parts (layout : Layout τ) (pc : WorkerPc) (a : Nat) : Nat :=
  (addrs layout.batch).count a + (addrs layout.current).count a +
    (addrs layout.spare).count a + pc.owned.count a

/-- The batch, the TEARDOWN in hand and the free list are in the memory. -/
structure Parts (heap : Heap (CmqWorkerMsg τ)) (freelist : Option Nat) (pc : WorkerPc)
    (layout : Layout τ) : Prop where
  batch : Linked heap pc.pointer layout.batch none
  current : ∀ cell ∈ layout.current, ∃ next, read heap cell.1 = some ⟨cell.2, next⟩
  held : addrs layout.current = pc.current
  teardown : ∀ cell ∈ layout.current, cell.2.kind = .teardown
  spare : Linked heap freelist layout.spare none
  owned : ∀ a ∈ pc.owned, (read heap a).isSome = true

namespace Mailbox

/-- The memory is divided among the list, the parts beside it and the pushing threads. -/
structure Rep (s : Mailbox τ) (layout : Layout τ) : Prop where
  unfaulted : s.faulted = false
  queue : s.worker.Holds layout.queue
  parts : Parts s.worker.heap s.worker.msgFreelist s.pc layout
  content : ∀ pc ∈ s.threads, pc.Content s.worker.heap
  distinct : ∀ a, (addrs layout.queue).count a + layout.parts s.pc a +
    (s.threads.flatMap PushPc.owned).count a ≤ 1

def mail (s : Mailbox τ) (layout : Layout τ) : MailState τ where
  queue := layout.queue.map Prod.snd
  hand := (layout.current ++ layout.batch).map Prod.snd
  stamp := s.stamp
  log := s.log

/-- Every message put into the list has at most one push that returns for it. -/
structure Returns (s : Mailbox τ) : Prop where
  once : (s.threads.flatMap PushPc.stamps ++ returnedOf s.log).Nodup
  given : ∀ stamp ∈ s.threads.flatMap PushPc.stamps ++ returnedOf s.log, stamp < s.stamp

/-- What holds at any time of an undisturbed run. -/
def Inv (s : Mailbox τ) : Prop :=
  ∃ layout, s.Rep layout ∧ (s.mail layout).Inv ∧ s.Returns

end Mailbox

section Frames

variable {heap : Heap (CmqWorkerMsg τ)}

lemma PushPc.Content.congr {pc : PushPc τ} (content : pc.Content heap)
    (same : ∀ a ∈ pc.owned, read heap' a = read heap a) : pc.Content heap' := by
  cases pc with
  | ready n =>
    obtain ⟨m, found, send⟩ := content
    exact ⟨m, (same n mem_cons_self).trans found, send⟩
  | teardownReady _ _ n => exact (same n mem_cons_self).trans content
  | _ =>
    intro a inside
    rw [same a inside]
    exact content a inside

lemma PushPc.Content.isSome {pc : PushPc τ} (content : pc.Content heap)
    (inside : a ∈ pc.owned) : (read heap a).isSome = true := by
  cases pc with
  | ready n =>
    obtain ⟨m, found, -⟩ := content
    exact mem_singleton.mp inside ▸ Option.isSome_of_eq_some found
  | teardownReady _ _ n => exact mem_singleton.mp inside ▸ Option.isSome_of_eq_some content
  | _ => exact content a inside

lemma PushPc.content_of_owned_nil {pc : PushPc τ} (nothing : pc.owned = []) :
    pc.Content heap := by
  cases pc with
  | ready | teardownReady => cases nothing
  | _ =>
    intro a inside
    rw [nothing] at inside
    cases inside

variable {freelist : Option Nat} {pc : WorkerPc} {layout : Layout τ}

lemma Layout.mem_parts : 0 < layout.parts pc a ↔ a ∈ addrs layout.batch ∨
    a ∈ addrs layout.current ∨ a ∈ addrs layout.spare ∨ a ∈ pc.owned := by
  simp only [Layout.parts, ← count_pos_iff]
  omega

section

variable (parts : Parts heap freelist pc layout)
include parts

lemma Parts.congr (same : ∀ a, 0 < layout.parts pc a → read heap' a = read heap a) :
    Parts heap' freelist pc layout where
  batch := parts.batch.congr fun a inside => same a (Layout.mem_parts.mpr (.inl inside))
  current := by
    intro cell inside
    obtain ⟨next, found⟩ := parts.current cell inside
    refine ⟨next, (same cell.1 (Layout.mem_parts.mpr ?_)).trans found⟩
    exact .inr (.inl (mem_map_of_mem inside))
  held := parts.held
  teardown := parts.teardown
  spare := parts.spare.congr fun a inside =>
    same a (Layout.mem_parts.mpr (.inr (.inr (.inl inside))))
  owned := by
    intro a inside
    rw [same a (Layout.mem_parts.mpr (.inr (.inr (.inr inside))))]
    exact parts.owned a inside

lemma Parts.requeue (queue : List (Nat × CmqWorkerMsg τ)) :
    Parts heap freelist pc { layout with queue } :=
  ⟨parts.batch, parts.current, parts.held, parts.teardown, parts.spare, parts.owned⟩

lemma Parts.isSome (used : 0 < layout.parts pc a) : (read heap a).isSome = true := by
  rcases Layout.mem_parts.mp used with inside | inside | inside | inside
  · exact parts.batch.isSome_read inside
  · obtain ⟨cell, member, rfl⟩ := mem_map.mp inside
    obtain ⟨_, found⟩ := parts.current cell member
    exact Option.isSome_of_eq_some found
  · exact parts.spare.isSome_read inside
  exact parts.owned a inside

end

lemma CmqWorker.Holds.congr {w : CmqWorker τ} {queue : List (Nat × CmqWorkerMsg τ)}
    (holds : w.Holds queue) (same : ∀ a ∈ addrs queue, read heap' a = read w.heap a) :
    CmqWorker.Holds { w with heap := heap' } queue :=
  { holds with linked := holds.linked.congr same }

end Frames

namespace Mailbox

variable {s : Mailbox τ} {layout : Layout τ}

lemma Rep.isSome (rep : s.Rep layout) {a : Nat}
    (used : 0 < (addrs layout.queue).count a + layout.parts s.pc a +
      (s.threads.flatMap PushPc.owned).count a) : (read s.worker.heap a).isSome = true := by
  rcases Nat.add_pos_iff_pos_or_pos.mp used with used | used
  · rcases Nat.add_pos_iff_pos_or_pos.mp used with used | used
    · exact rep.queue.linked.isSome_read (count_pos_iff.mp used)
    exact rep.parts.isSome used
  obtain ⟨pc, member, owned⟩ := mem_flatMap.mp (count_pos_iff.mp used)
  exact (rep.content pc member).isSome owned

/-! ## Steps of a pushing thread -/

section Push

variable {l r : List (PushPc τ)} {q q' : PushPc τ}

/-- The thread at `q` goes on to `q'`. -/
def goOn (s : Mailbox τ) (l r : List (PushPc τ)) (q' : PushPc τ) : Mailbox τ :=
  { s with threads := l ++ q' :: r }

lemma Returns.perm (returns : s.Returns) {t : Mailbox τ}
    (same : (t.threads.flatMap PushPc.stamps ++ returnedOf t.log).Perm
      (s.threads.flatMap PushPc.stamps ++ returnedOf s.log))
    (stamp : t.stamp = s.stamp) : t.Returns where
  once := same.nodup_iff.mpr returns.once
  given := by
    intro number inside
    rw [stamp]
    exact returns.given number (same.mem_iff.mp inside)

lemma Returns.same (returns : s.Returns) (threads : s.threads = l ++ q :: r)
    (stamps : q'.stamps = q.stamps) (worker : CmqWorker τ) :
    Returns { s with worker, threads := l ++ q' :: r } := by
  refine returns.perm ?_ rfl
  rw [threads, flatMap_append, flatMap_append, flatMap_cons, flatMap_cons, stamps]

lemma Returns.back (returns : s.Returns) (threads : s.threads = l ++ q :: r)
    (waits : q.stamps = [number]) (done : q'.stamps = []) (returned : entry.returned? = some number)
    (worker : CmqWorker τ) :
    Returns { s with worker, threads := l ++ q' :: r, log := s.log ++ [entry] } := by
  refine returns.perm (perm_iff_count.mpr fun a => ?_) rfl
  simp only [threads, flatMap_append, flatMap_cons, count_append, waits, done,
    returnedOf_concat, returned, Option.toList_some, count_nil]
  omega

lemma Returns.link (returns : s.Returns) (threads : s.threads = l ++ q :: r)
    (before : q.stamps = []) (waits : q'.stamps = [s.stamp]) (m : CmqWorkerMsg τ)
    (worker : CmqWorker τ) :
    Returns { s with
      worker
      threads := l ++ q' :: r
      stamp := s.stamp + 1
      log := s.log ++ [.linked m] } := by
  have same : ((l ++ q' :: r).flatMap PushPc.stamps ++ returnedOf (s.log ++ [.linked m])).Perm
      (s.stamp :: (s.threads.flatMap PushPc.stamps ++ returnedOf s.log)) := by
    refine perm_iff_count.mpr fun a => ?_
    simp only [threads, flatMap_append, flatMap_cons, count_append, before, waits,
      returnedOf_concat, MailEntry.returned?, Option.toList_none, count_nil, count_cons]
    omega
  constructor
  · refine same.nodup_iff.mpr (nodup_cons.mpr ⟨fun inside => ?_, returns.once⟩)
    exact Nat.lt_irrefl _ (returns.given _ inside)
  simp only [same.mem_iff]
  exact forall_mem_cons.mpr ⟨Nat.lt_succ_self _, fun number inside =>
    Nat.lt_succ_of_lt (returns.given number inside)⟩

lemma content_replace {heap : Heap (CmqWorkerMsg τ)}
    (others : ∀ pc ∈ l ++ q :: r, pc.Content heap)
    (same : ∀ a, 0 < (l.flatMap PushPc.owned).count a + (r.flatMap PushPc.owned).count a →
      read heap' a = read heap a) (content : q'.Content heap') :
    ∀ pc ∈ l ++ q' :: r, pc.Content heap' := by
  have unchanged : ∀ pc, pc ∈ l ∨ pc ∈ r → pc.Content heap' := by
    intro pc place
    refine (others pc (by simp; tauto)).congr fun a owned => same a ?_
    rcases place with place | place
    · exact Nat.add_pos_left (count_pos_iff.mpr (mem_flatMap.mpr ⟨pc, place, owned⟩)) _
    exact Nat.add_pos_right _ (count_pos_iff.mpr (mem_flatMap.mpr ⟨pc, place, owned⟩))
  exact forall_mem_append.mpr ⟨fun pc place => unchanged pc (.inl place),
    forall_mem_cons.mpr ⟨content, fun pc place => unchanged pc (.inr place)⟩⟩

def elsewhere (layout : Layout τ) (pc : WorkerPc) (l r : List (PushPc τ)) (a : Nat) : Nat :=
  (addrs layout.queue).count a + layout.parts pc a +
    ((l.flatMap PushPc.owned).count a + (r.flatMap PushPc.owned).count a)

section

variable (threads : s.threads = l ++ q :: r)
include threads

lemma Rep.elsewhere_add (rep : s.Rep layout) (a : Nat) :
    elsewhere layout s.pc l r a + q.owned.count a ≤ 1 := by
  have bound := rep.distinct a
  rw [threads] at bound
  simp only [flatMap_append, flatMap_cons, count_append] at bound
  unfold elsewhere
  omega

/-- What is needed of the state after a step of a thread that changes the memory in cells that
nobody else uses. -/
lemma Rep.alone (rep : s.Rep layout)
    (same : ∀ a, 0 < elsewhere layout s.pc l r a → read heap' a = read s.worker.heap a)
    (content : q'.Content heap')
    (distinct : ∀ a, elsewhere layout s.pc l r a + q'.owned.count a ≤ 1) :
    ((s.withHeap heap').goOn l r q').Rep layout where
  unfaulted := rep.unfaulted
  queue := rep.queue.congr fun a inside => same a (by
    have counted := count_pos_iff.mpr inside
    unfold elsewhere
    omega)
  parts := rep.parts.congr fun a used => same a (by
    unfold elsewhere
    omega)
  content := by
    refine content_replace (threads ▸ rep.content) (fun a used => same a ?_) content
    unfold elsewhere
    omega
  distinct := by
    intro a
    have bound := distinct a
    unfold elsewhere at bound
    simp only [goOn, withHeap, flatMap_append, flatMap_cons, count_append]
    omega

lemma Inv.alone (inv : s.Inv) (stamps : q'.stamps = q.stamps)
    (same : ∀ a, a ∉ q.owned → a ∉ q'.owned → read heap' a = read s.worker.heap a)
    (content : q'.Content heap') (nodup : q'.owned.Nodup)
    (taken : ∀ a ∈ q'.owned, a ∈ q.owned ∨ read s.worker.heap a = none) :
    ((s.withHeap heap').goOn l r q').Inv := by
  obtain ⟨layout, rep, mail, returns⟩ := inv
  -- The cells of the others are not the thread's.
  have apart : ∀ a, 0 < elsewhere layout s.pc l r a → a ∉ q.owned ∧ a ∉ q'.owned := by
    intro a used
    have bound := rep.elsewhere_add threads a
    have notOwned : a ∉ q.owned := fun inside => by
      have counted := count_pos_iff.mpr inside
      omega
    refine ⟨notOwned, fun inside => ?_⟩
    rcases taken a inside with owned | unallocated
    · exact notOwned owned
    have allocated := rep.isSome (a := a) (by
      rw [threads]
      simp only [flatMap_append, flatMap_cons, count_append]
      unfold elsewhere at used
      omega)
    rw [unallocated] at allocated
    cases allocated
  refine ⟨layout, rep.alone threads (fun a used => same a (apart a used).1 (apart a used).2)
    content fun a => ?_, mail, returns.same threads stamps _⟩
  have single : q'.owned.count a ≤ 1 := nodup_iff_count_le_one.mp nodup a
  by_cases used : 0 < elsewhere layout s.pc l r a
  · have zero := count_eq_zero.mpr (apart a used).2
    have bound := rep.elsewhere_add threads a
    omega
  omega

lemma Inv.quiet (inv : s.Inv) (stamps : q'.stamps = q.stamps) (owned : q'.owned = []) :
    (s.goOn l r q').Inv :=
  inv.alone threads stamps (fun _ _ _ => rfl) (PushPc.content_of_owned_nil owned)
    (by rw [owned]; exact nodup_nil) (by rw [owned]; simp)

lemma Inv.link (inv : s.Inv) (owned : q.owned = [n]) (before : q.stamps = [])
    (free : q'.owned = []) (waits : q'.stamps = [s.stamp]) {m : CmqWorkerMsg τ}
    (ready : read s.worker.heap n = some ⟨m, none⟩)
    (single : m.kind = .teardown → s.worker.teardownQueued m.targetId m.targetGen = some false) :
    ((s.link n).goOn l r q').Inv := by
  obtain ⟨layout, rep, mail, returns⟩ := inv
  let stamped : CmqWorkerMsg τ := { m with stamp := s.stamp }
  let heap' := write s.worker.heap n ⟨stamped, none⟩
  have inside := (lt_of_read ready).le
  have bound := fun a => rep.elsewhere_add threads a
  simp only [owned] at bound
  have apart : ∀ a, 0 < elsewhere layout s.pc l r a → n ≠ a := by
    rintro a used rfl
    have once := bound n
    rw [count_singleton_self] at once
    omega
  have inQueue : ∀ a ∈ addrs layout.queue, 0 < elsewhere layout s.pc l r a := by
    intro a member
    have counted := count_pos_iff.mpr member
    unfold elsewhere
    omega
  have holds : CmqWorker.Holds { s.worker with heap := heap' } layout.queue :=
    rep.queue.congr fun a member => read_write_of_ne inside (apart a (inQueue a member))
  have fresh : n ∉ addrs layout.queue := fun member => apart n (inQueue n member) rfl
  obtain ⟨w', enqueued, holds', keeps⟩ := holds.enqueue fresh (read_write_self inside)
  have linked : s.link n =
      { s with worker := w', stamp := s.stamp + 1, log := s.log ++ [.linked stamped] } := by
    rw [Mailbox.link, ready]
    simp only [stamped, heap'] at enqueued
    simp only [enqueued, stamped]
  -- Outside the list only the cell of the thread has changed.
  have same : ∀ a, a ∉ addrs layout.queue → n ≠ a →
      read w'.heap a = read s.worker.heap a := by
    intro a outside different
    exact (keeps.memory a outside).trans (read_write_of_ne inside different)
  have outside : ∀ a, 0 < layout.parts s.pc a + ((l.flatMap PushPc.owned).count a +
      (r.flatMap PushPc.owned).count a) → read w'.heap a = read s.worker.heap a := by
    intro a used
    have once := bound a
    refine same a (fun member => ?_) (apart a (by unfold elsewhere; omega))
    have counted := count_pos_iff.mpr member
    unfold elsewhere at once
    omega
  rw [linked]
  refine ⟨{ layout with queue := layout.queue ++ [(n, stamped)] },
    ⟨rep.unfaulted, holds', ?_, ?_, fun a => ?_⟩, mail.step ?_, returns.link threads before waits _ _⟩
  · dsimp only [goOn]
    rw [keeps.freelist]
    exact (rep.parts.congr fun a used => outside a (Nat.add_pos_left used _)).requeue _
  · exact content_replace (threads ▸ rep.content)
      (fun a used => outside a (Nat.add_pos_right _ used)) (PushPc.content_of_owned_nil free)
  · have once := bound a
    unfold elsewhere at once
    simp only [goOn, flatMap_append, flatMap_cons, count_append, free, addrs,
      map_append, map_cons, map_nil, count_nil] at once ⊢
    unfold Layout.parts at once ⊢
    simp only [addrs] at once ⊢
    omega
  have after : (({ s with
      worker := w'
      stamp := s.stamp + 1
      log := s.log ++ [.linked stamped] } : Mailbox τ).goOn l r q').mail
        { layout with queue := layout.queue ++ [(n, stamped)] } =
      ⟨layout.queue.map Prod.snd ++ [stamped], (layout.current ++ layout.batch).map Prod.snd,
        s.stamp + 1, s.log ++ [.linked stamped]⟩ := by
    simp [Mailbox.mail, goOn]
  rw [after]
  refine .link stamped rfl ?_
  intro teardown t member isTeardown target
  obtain ⟨cell, inside, rfl⟩ := mem_map.mp member
  have none := single teardown
  rw [rep.queue.teardownQueued, Option.some.injEq, any_eq_false] at none
  refine none cell inside ?_
  simp [isTeardown, CmqWorkerMsg.aims, target.1, target.2, stamped]

lemma Inv.accept (inv : s.Inv) (owned : q.owned = []) (waits : q.stamps = [number]) :
    ((s.note [.accepted number]).goOn l r .idle).Inv := by
  obtain ⟨layout, rep, mail, returns⟩ := inv
  have moved : (s.goOn l r .idle).Rep layout := by
    refine rep.alone threads (fun _ _ => rfl) (PushPc.content_of_owned_nil rfl) fun a => ?_
    have bound := rep.elsewhere_add threads a
    rw [owned] at bound
    exact bound
  exact ⟨layout, ⟨moved.unfaulted, moved.queue, moved.parts, moved.content, moved.distinct⟩,
    mail.step (.accept number), returns.back threads waits rfl rfl _⟩

lemma Inv.withdraw (inv : s.Inv) (waits : q.stamps = [number]) {w' : CmqWorker τ}
    (unlinked : s.worker.workerUnlinkMsg n = some (w', true))
    (still : ∀ cell ∈ (walk s.worker.heap s.worker.msgHead).getD [],
      cell.1 = n → cell.2.stamp = number) :
    ∃ cell, read w'.heap n = some cell ∧
      (({ s with worker := w' }.note [.withdrawn cell.body]).goOn l r (.giveBack n false)).Inv := by
  obtain ⟨layout, rep, mail, returns⟩ := inv
  have present : n ∈ addrs layout.queue := by
    by_contra absent
    rw [rep.queue.workerUnlinkMsg_none absent] at unlinked
    cases unlinked
  obtain ⟨⟨n, m⟩, member, rfl⟩ := mem_map.mp present
  obtain ⟨queue, batch, current, spare⟩ := layout
  obtain ⟨front, back, rfl⟩ := append_of_mem member
  rw [walk_linked rep.queue.linked rep.queue.distinct] at still
  have stamp : m.stamp = number := still (n, m) member rfl
  obtain ⟨w'', unlinked', holds, ⟨_, found⟩, keeps⟩ := rep.queue.workerUnlinkMsg_some
  rw [unlinked', Option.some.injEq, Prod.mk.injEq] at unlinked
  obtain ⟨rfl, -⟩ := unlinked
  have bound := fun a => rep.elsewhere_add threads a
  have outside : ∀ a, 0 < Layout.parts ⟨front ++ (n, m) :: back, batch, current, spare⟩ s.pc a +
      ((l.flatMap PushPc.owned).count a + (r.flatMap PushPc.owned).count a) →
      read w''.heap a = read s.worker.heap a := by
    intro a used
    have once := bound a
    refine keeps.memory a fun inside => ?_
    have counted := count_pos_iff.mpr inside
    unfold elsewhere at once
    dsimp only at once
    omega
  refine ⟨_, found, ⟨front ++ back, batch, current, spare⟩,
    ⟨rep.unfaulted, holds, ?_, ?_, fun a => ?_⟩, mail.step ?_,
    returns.back threads waits rfl (by rw [← stamp]; rfl) _⟩
  · dsimp only [goOn, note]
    rw [keeps.freelist]
    exact (rep.parts.congr fun a used => outside a (Nat.add_pos_left used _)).requeue _
  · refine content_replace (threads ▸ rep.content)
      (fun a used => outside a (Nat.add_pos_right _ used)) ?_
    exact forall_mem_singleton.mpr (Option.isSome_of_eq_some found)
  · have once := bound a
    unfold elsewhere Layout.parts at once
    simp only [goOn, note, Layout.parts, flatMap_append, flatMap_cons,
      count_append, addrs, map_append, map_cons, count_cons, PushPc.owned, count_nil] at once ⊢
    omega
  have before : s.mail ⟨front ++ (n, m) :: back, batch, current, spare⟩ =
      ⟨front.map Prod.snd ++ m :: back.map Prod.snd, (current ++ batch).map Prod.snd, s.stamp,
        s.log⟩ := by
    simp [Mailbox.mail]
  have after : (({ s with worker := w'' }.note [.withdrawn m]).goOn l r
      (.giveBack n false)).mail ⟨front ++ back, batch, current, spare⟩ =
      ⟨front.map Prod.snd ++ back.map Prod.snd, (current ++ batch).map Prod.snd, s.stamp,
        s.log ++ [.withdrawn m]⟩ := by
    simp [Mailbox.mail, goOn, note]
  rw [before, after]
  exact .remove m _ trivial (.inr rfl)

lemma Inv.respare (inv : s.Inv) (q' : PushPc τ) (stamps : q'.stamps = q.stamps)
    {freelist : Option Nat} (count : Nat) (content : q'.Content s.worker.heap)
    (change : ∀ spare, Linked s.worker.heap s.worker.msgFreelist spare none →
      ∃ spare', Linked s.worker.heap freelist spare' none ∧
        ∀ a, (addrs spare').count a + q'.owned.count a =
          (addrs spare).count a + q.owned.count a) :
    (({ s with worker := { s.worker with
        msgFreelist := freelist, msgFreelistCount := count } } : Mailbox τ).goOn l r q').Inv := by
  obtain ⟨⟨queue, batch, current, spare⟩, rep, mail, returns⟩ := inv
  obtain ⟨spare', linked, counts⟩ := change spare rep.parts.spare
  refine ⟨⟨queue, batch, current, spare'⟩, ⟨rep.unfaulted, ?_, ?_, ?_, fun a => ?_⟩, mail,
    returns.same threads stamps _⟩
  · exact ⟨⟨rep.queue.linked, rep.queue.pending, rep.queue.distinct⟩, rep.queue.tail⟩
  · exact ⟨rep.parts.batch, rep.parts.current, rep.parts.held, rep.parts.teardown, linked,
      rep.parts.owned⟩
  · exact content_replace (threads ▸ rep.content) (fun _ _ => rfl) content
  have once := rep.elsewhere_add threads a
  have moved := counts a
  unfold elsewhere Layout.parts at once
  simp only [goOn, Layout.parts, flatMap_append, flatMap_cons, count_append]
    at once ⊢
  omega

lemma goOn_self : s.goOn l r q = s := by
  unfold goOn
  rw [← threads]

end

section

variable (inv : s.Inv)
include inv

lemma Inv.holds : ∃ queue, s.worker.Holds queue :=
  let ⟨layout, rep, _⟩ := inv
  ⟨layout.queue, rep.queue⟩

lemma Inv.spare_cons (first : s.worker.msgFreelist = some n) :
    ∃ cell, read s.worker.heap n = some cell := by
  obtain ⟨_, rep, -⟩ := inv
  have linked := rep.parts.spare
  rw [first] at linked
  obtain ⟨_, _, _, -, found, -⟩ := linked.exists_first
  exact ⟨_, found⟩

section

variable (threads : s.threads = l ++ q :: r)
include threads

lemma Inv.content : q.Content s.worker.heap := by
  obtain ⟨_, rep, -⟩ := inv
  exact rep.content q (by rw [threads]; simp)

lemma Inv.malloc (preferred : Nat) (m : CmqWorkerMsg τ)
    (owned : q'.owned = [unused s.worker.heap preferred]) (stamps : q'.stamps = q.stamps)
    (content : q'.Content (write s.worker.heap (unused s.worker.heap preferred) ⟨m, none⟩)) :
    ((s.withHeap (write s.worker.heap (unused s.worker.heap preferred) ⟨m, none⟩)).goOn l r
      q').Inv := by
  refine inv.alone threads stamps (fun a _ outside => ?_) content (by simp [owned])
    fun a inside => ?_
  · refine read_write_of_ne (unused_le _ _) fun same => outside ?_
    rw [owned, same]
    exact mem_cons_self
  rw [owned, mem_singleton] at inside
  rw [inside]
  exact .inr (read_unused _ _)

lemma Inv.freed (before : q.owned = [n]) (stamps : q.stamps = []) :
    ((s.withHeap (free s.worker.heap n)).goOn l r .idle).Inv := by
  refine inv.alone threads stamps.symm (fun a outside _ => ?_)
    (PushPc.content_of_owned_nil rfl) nodup_nil (by simp [PushPc.owned])
  refine read_free_of_ne fun same => outside ?_
  rw [before, same]
  exact mem_cons_self

lemma Inv.rewrite (before : q.owned = [n]) (owned : q'.owned = [n])
    (stamps : q'.stamps = q.stamps) (same : ∀ a, n ≠ a → read heap' a = read s.worker.heap a)
    (content : q'.Content heap') : ((s.withHeap heap').goOn l r q').Inv := by
  refine inv.alone threads stamps (fun a outside _ => same a fun eq => outside ?_) content
    (by simp [owned]) (fun a inside => .inl ?_)
  · rw [before, eq]
    exact mem_cons_self
  rw [before, ← owned]
  exact inside

end

lemma Inv.relock (threads : s.threads = l ++ .relock kind n number :: r) (choice : PushChoice τ)
    (still : PushPc.Undisturbed s.worker (.relock kind n number : PushPc τ)) :
    ((s.pushStep (.relock kind n number) choice).1.goOn l r
      (s.pushStep (.relock kind n number) choice).2).Inv := by
  obtain ⟨queue, holds⟩ := inv.holds
  by_cases present : n ∈ addrs queue
  · obtain ⟨⟨n, m⟩, member, rfl⟩ := mem_map.mp present
    obtain ⟨_, _, rfl⟩ := append_of_mem member
    obtain ⟨_, unlinked, -⟩ := holds.workerUnlinkMsg_some
    obtain ⟨_, found, inv'⟩ := inv.withdraw threads rfl unlinked still
    cases kind with
    | send =>
      simp only [pushStep, unlinked, found]
      exact inv'
    | teardown =>
      simp only [pushStep, unlinked, found]
      exact inv'.freed rfl rfl rfl
  simp only [pushStep, holds.workerUnlinkMsg_none present]
  exact inv.accept threads rfl rfl

lemma Inv.pushStep (threads : s.threads = l ++ q :: r) (choice : PushChoice τ)
    (still : q.Undisturbed s.worker) :
    ((s.pushStep q choice).1.goOn l r (s.pushStep q choice).2).Inv := by
  have nothing : (s.goOn l r q).Inv := by
    rw [goOn_self threads]
    exact inv
  cases q with
  | idle =>
    cases choice with
    | send req =>
      simp only [Mailbox.pushStep]
      split
      · exact nothing
      exact inv.quiet threads rfl rfl
    | teardown id gen =>
      obtain ⟨queue, holds⟩ := inv.holds
      simp only [Mailbox.pushStep, holds.teardownQueued]
      cases queue.any _ with
      | true => exact nothing
      | false =>
        dsimp only
        split
        · exact nothing
        exact inv.quiet threads rfl rfl
    | addr | ok => exact nothing
  | alloc req =>
    cases choice with
    | addr preferred =>
      simp only [Mailbox.pushStep]
      cases s.worker.msgFreelist with
      | some n => exact inv.quiet threads rfl rfl
      | none =>
        cases preferred with
        | none => exact inv.quiet threads rfl rfl
        | some preferred =>
          exact inv.malloc threads preferred _ rfl rfl (forall_mem_singleton.mpr
            (Option.isSome_of_eq_some (read_write_self (unused_le _ _))))
    | send | teardown | ok => exact nothing
  | loaded req n =>
    obtain ⟨cell, found⟩ := inv.spare_cons still
    simp only [Mailbox.pushStep, found]
    exact inv.quiet threads rfl rfl
  | advance req n next =>
    obtain ⟨first, sees⟩ := still
    obtain ⟨cell, found⟩ := inv.spare_cons first
    refine inv.respare threads (.fill req n) rfl _ ?_ fun spare linked => ?_
    · exact forall_mem_singleton.mpr (Option.isSome_of_eq_some found)
    rw [first] at linked
    obtain ⟨_, _, rest, rfl, found', toEnd⟩ := linked.exists_first
    rw [found', Option.map_some, Option.some.injEq] at sees
    cases sees
    refine ⟨rest, toEnd, fun a => ?_⟩
    simp only [PushPc.owned, addrs, map_cons, count_cons, count_nil]
    omega
  | fill req n =>
    cases choice with
    | ok success =>
      obtain ⟨cell, found⟩ := Option.isSome_iff_exists.mp (inv.content threads n mem_cons_self)
      have inside := (lt_of_read found).le
      have same : ∀ a, n ≠ a → read (write s.worker.heap n ⟨req.msg, none⟩) a =
          read s.worker.heap a := fun a => read_write_of_ne inside
      have written : read (write s.worker.heap n ⟨req.msg, none⟩) n = some ⟨req.msg, none⟩ :=
        read_write_self inside
      simp only [Mailbox.pushStep, found, Option.isSome_some, if_true]
      cases success with
      | true => exact inv.rewrite threads rfl rfl rfl same ⟨req.msg, written, rfl⟩
      | false =>
        exact inv.rewrite threads rfl rfl rfl same
          (forall_mem_singleton.mpr (Option.isSome_of_eq_some written))
    | send | teardown | addr => exact nothing
  | ready n =>
    obtain ⟨m, found, send⟩ := inv.content threads
    simp only [Mailbox.pushStep]
    split
    · exact inv.rewrite threads rfl rfl rfl (fun _ _ => rfl)
        (forall_mem_singleton.mpr (Option.isSome_of_eq_some found))
    refine inv.link threads rfl rfl rfl rfl found fun teardown => ?_
    exact absurd (teardown.symm.trans send) (by decide)
  | giveBack n counted =>
    have allocated := inv.content threads n mem_cons_self
    simp only [Mailbox.pushStep]
    split
    · exact inv.freed threads rfl rfl
    obtain ⟨cell, found⟩ := Option.isSome_iff_exists.mp allocated
    rw [pointToFreelist, if_pos allocated]
    exact inv.rewrite threads rfl rfl rfl (fun a => read_setNext_of_ne)
      (forall_mem_singleton.mpr (Option.isSome_of_eq_some (read_setNext_self found)))
  | store n counted =>
    refine inv.respare threads .idle rfl _ (PushPc.content_of_owned_nil rfl) fun spare linked => ?_
    cases found : read s.worker.heap n with
    | none => simp [PushPc.Undisturbed, found] at still
    | some cell =>
      obtain ⟨body, next⟩ := cell
      have atHead : next = s.worker.msgFreelist := by simpa [PushPc.Undisturbed, found] using still
      refine ⟨(n, body) :: spare, ⟨rfl, next, found, atHead ▸ linked⟩, fun a => ?_⟩
      simp only [PushPc.owned, addrs, map_cons, count_cons, count_nil]
      omega
  | signal kind n number =>
    cases choice with
    | ok success =>
      cases success with
      | true => exact inv.accept threads rfl rfl
      | false => exact inv.quiet threads rfl rfl
    | send | teardown | addr => exact nothing
  | relock kind n number => exact inv.relock threads choice still
  | teardownAlloc id gen =>
    cases choice with
    | addr preferred =>
      cases preferred with
      | none => exact inv.quiet threads rfl rfl
      | some preferred =>
        exact inv.malloc threads preferred _ rfl rfl (read_write_self (unused_le _ _))
    | send | teardown | ok => exact nothing
  | teardownReady id gen n =>
    obtain ⟨queue, holds⟩ := inv.holds
    have queued := holds.teardownQueued id gen
    have found := inv.content threads
    simp only [Mailbox.pushStep, queued]
    split
    · exact inv.freed threads rfl rfl
    next room =>
    refine inv.link threads rfl rfl rfl rfl found fun _ => ?_
    rw [not_or, Bool.not_eq_true] at room
    rw [← room.1]
    exact queued

end

end Push

end Mailbox

end CMsgQueue.Server
