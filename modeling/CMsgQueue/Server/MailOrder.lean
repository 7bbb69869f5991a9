import CMsgQueue.Server.Mailbox

/-!
# The order of the messages of a mailbox

What the mailbox of a worker is for, without the memory: a queue of messages, the messages in the
hands of the worker, and the history.
-/

namespace CMsgQueue.Server

open Option List

universe u

variable {τ : Type u}

def CmqWorkerMsg.SameTarget (a b : CmqWorkerMsg τ) : Prop :=
  a.targetId = b.targetId ∧ a.targetGen = b.targetGen

instance (a b : CmqWorkerMsg τ) : Decidable (a.SameTarget b) :=
  inferInstanceAs (Decidable (_ ∧ _))

def MailEntry.linked? : MailEntry τ → Option (CmqWorkerMsg τ)
  | .linked m => some m
  | _ => none

def MailEntry.delivered? : MailEntry τ → Option (CmqWorkerMsg τ)
  | .delivered m => some m
  | _ => none

def MailEntry.ended? : MailEntry τ → Option (CmqWorkerMsg τ)
  | .delivered m | .dropped m | .handled m | .withdrawn m => some m
  | _ => none

def MailEntry.returned? : MailEntry τ → Option Nat
  | .withdrawn m => some m.stamp
  | .accepted stamp => some stamp
  | _ => none

def linkedOf (log : List (MailEntry τ)) : List (CmqWorkerMsg τ) :=
  log.filterMap MailEntry.linked?

def deliveredOf (log : List (MailEntry τ)) : List (CmqWorkerMsg τ) :=
  log.filterMap MailEntry.delivered?

def endedOf (log : List (MailEntry τ)) : List (CmqWorkerMsg τ) :=
  log.filterMap MailEntry.ended?

def returnedOf (log : List (MailEntry τ)) : List Nat :=
  log.filterMap MailEntry.returned?

/-- A SEND is delivered only when every TEARDOWN that was put into the queue before it for the
same target was handled or taken back. -/
def TeardownFirst (before : List (MailEntry τ)) (entry : MailEntry τ) : Prop :=
  ∀ m, entry = .delivered m → ∀ t, .linked t ∈ before → t.kind = .teardown →
    t.SameTarget m → t.stamp < m.stamp → .handled t ∈ before ∨ .withdrawn t ∈ before

def MailEntry.Proper : MailEntry τ → Prop
  | .delivered m | .dropped m => m.kind = .send
  | .handled m => m.kind = .teardown
  | _ => True

/-- A queue, the messages in the hands of the worker, and the history with the number of
messages put into the queue. -/
structure MailState (τ : Type u) where
  queue : List (CmqWorkerMsg τ)
  hand : List (CmqWorkerMsg τ)
  stamp : Nat
  log : List (MailEntry τ)

/-- What can happen to the messages. -/
inductive MailStep : MailState τ → MailState τ → Prop where
  | link {queue hand stamp log} (m : CmqWorkerMsg τ) (stamped : m.stamp = stamp)
      (single : m.kind = .teardown → ∀ t ∈ queue, t.kind = .teardown → ¬ t.SameTarget m) :
      MailStep ⟨queue, hand, stamp, log⟩
        ⟨queue ++ [m], hand, stamp + 1, log ++ [.linked m]⟩
  | take {front rest stamp log} :
      MailStep ⟨front ++ rest, [], stamp, log⟩ ⟨rest, front, stamp, log⟩
  | pop {ahead behind stamp log} (m : CmqWorkerMsg τ)
      (first : m.kind = .send → ∀ other ∈ ahead, ¬ other.SameTarget m) :
      MailStep ⟨ahead ++ m :: behind, [], stamp, log⟩ ⟨ahead ++ behind, [m], stamp, log⟩
  | finish {queue hand stamp log} (m : CmqWorkerMsg τ) (entry : MailEntry τ)
      (proper : entry.Proper)
      (ends : entry = .delivered m ∨ entry = .dropped m ∨ entry = .handled m) :
      MailStep ⟨queue, m :: hand, stamp, log⟩ ⟨queue, hand, stamp, log ++ [entry]⟩
  | remove {ahead behind hand stamp log} (m : CmqWorkerMsg τ) (entry : MailEntry τ)
      (proper : entry.Proper) (ends : entry = .dropped m ∨ entry = .withdrawn m) :
      MailStep ⟨ahead ++ m :: behind, hand, stamp, log⟩
        ⟨ahead ++ behind, hand, stamp, log ++ [entry]⟩
  | accept {queue hand stamp log} (number : Nat) :
      MailStep ⟨queue, hand, stamp, log⟩ ⟨queue, hand, stamp, log ++ [.accepted number]⟩

/-- A SEND comes before the messages for the same target that were put into the queue after
it. -/
def Ordered (a b : CmqWorkerMsg τ) : Prop :=
  a.kind = .send → a.SameTarget b → a.stamp < b.stamp

def SingleTeardown (a b : CmqWorkerMsg τ) : Prop :=
  ¬ (a.kind = .teardown ∧ b.kind = .teardown ∧ a.SameTarget b)

/-- What holds of the messages of a mailbox at any time. -/
structure MailState.Inv (s : MailState τ) : Prop where
  stamps : (linkedOf s.log).map (·.stamp) = List.range s.stamp
  once : (linkedOf s.log).Perm (s.queue ++ s.hand ++ endedOf s.log)
  ordered : (deliveredOf s.log ++ s.hand ++ s.queue).Pairwise Ordered
  single : s.queue.Pairwise SingleTeardown
  proper : ∀ entry ∈ s.log, entry.Proper
  teardownFirst : Runs.Along TeardownFirst s.log

section Projections

variable (log : List (MailEntry τ)) (m : CmqWorkerMsg τ)

@[simp] lemma linkedOf_concat (entry : MailEntry τ) :
    linkedOf (log ++ [entry]) = linkedOf log ++ entry.linked?.toList := by
  cases entry <;> simp [linkedOf, MailEntry.linked?]

@[simp] lemma deliveredOf_concat (entry : MailEntry τ) :
    deliveredOf (log ++ [entry]) = deliveredOf log ++ entry.delivered?.toList := by
  cases entry <;> simp [deliveredOf, MailEntry.delivered?]

@[simp] lemma endedOf_concat (entry : MailEntry τ) :
    endedOf (log ++ [entry]) = endedOf log ++ entry.ended?.toList := by
  cases entry <;> simp [endedOf, MailEntry.ended?]

@[simp] lemma returnedOf_concat (entry : MailEntry τ) :
    returnedOf (log ++ [entry]) = returnedOf log ++ entry.returned?.toList := by
  cases entry <;> simp [returnedOf, MailEntry.returned?]

variable {log m}

lemma mem_linkedOf : m ∈ linkedOf log ↔ .linked m ∈ log := by
  unfold linkedOf
  rw [mem_filterMap]
  constructor
  · rintro ⟨entry, inside, found⟩
    cases entry <;> cases found
    exact inside
  exact fun inside => ⟨_, inside, rfl⟩

lemma teardown_ended (proper : ∀ entry ∈ log, entry.Proper) (teardown : m.kind = .teardown)
    (ended : m ∈ endedOf log) : .handled m ∈ log ∨ .withdrawn m ∈ log := by
  obtain ⟨entry, inside, found⟩ := mem_filterMap.mp ended
  have properEntry := proper entry inside
  cases entry <;> cases found
  case delivered => exact absurd (teardown.symm.trans properEntry) (by decide)
  case dropped => exact absurd (teardown.symm.trans properEntry) (by decide)
  case handled => exact .inl inside
  case withdrawn => exact .inr inside

end Projections

namespace MailState

lemma inv_start : Inv (⟨[], [], 0, []⟩ : MailState τ) where
  stamps := rfl
  once := List.Perm.nil
  ordered := List.Pairwise.nil
  single := List.Pairwise.nil
  proper := by simp
  teardownFirst := Runs.along_nil _

variable {s : MailState τ} {m : CmqWorkerMsg τ}

lemma delivered_sublist_ended (log : List (MailEntry τ)) :
    (deliveredOf log).Sublist (endedOf log) := by
  induction log with
  | nil => exact List.Sublist.refl _
  | cons entry log ih =>
    cases entry with
    | delivered m => exact ih.cons_cons m
    | dropped m => exact ih.cons m
    | handled m => exact ih.cons m
    | withdrawn m => exact ih.cons m
    | linked | accepted => exact ih

section

variable (inv : s.Inv)
include inv

lemma Inv.stamp_lt (inside : m ∈ s.queue ++ s.hand ++ endedOf s.log) : m.stamp < s.stamp := by
  have linked := inv.once.mem_iff.mpr inside
  have listed := mem_map_of_mem (f := fun m : CmqWorkerMsg τ => m.stamp) linked
  rw [inv.stamps] at listed
  exact mem_range.mp listed

/-- When a SEND in front of the hands of the worker is delivered, what has to be handled
before was. -/
lemma Inv.teardownFirst_front (front : s.hand = m :: rest)
    (send : m.kind = .send) : TeardownFirst s.log (.delivered m) := by
  intro _ same t linked teardown target _
  cases same
  have place := inv.once.mem_iff.mp (mem_linkedOf.mpr linked)
  have ordered := inv.ordered
  rw [front, append_assoc] at ordered
  have behind := (pairwise_cons.mp (pairwise_append.mp ordered).2.1).1
  -- A message behind the SEND for the same target has a larger stamp.
  have notBehind : t ∉ rest ++ s.queue := by
    intro inside
    have larger := behind t inside send ⟨target.1.symm, target.2.symm⟩
    omega
  have notSelf : t ≠ m := by
    rintro rfl
    exact absurd (teardown.symm.trans send) (by decide)
  apply teardown_ended inv.proper teardown
  rw [front] at place
  simp only [mem_append, mem_cons] at place notBehind
  tauto

lemma Inv.link (stamped : m.stamp = s.stamp)
    (single : m.kind = .teardown → ∀ t ∈ s.queue, t.kind = .teardown → ¬ t.SameTarget m) :
    Inv ⟨s.queue ++ [m], s.hand, s.stamp + 1, s.log ++ [.linked m]⟩ where
  stamps := by
    simp only [linkedOf_concat, MailEntry.linked?, toList_some, map_append, map_cons, map_nil]
    rw [inv.stamps, stamped, range_succ]
  once := by
    simp only [linkedOf_concat, endedOf_concat, MailEntry.ended?, toList_none, append_nil]
    refine (inv.once.append_right [m]).trans ?_
    rw [append_assoc, append_assoc, append_assoc, append_assoc]
    refine List.Perm.append_left _ ?_
    rw [← append_assoc]
    exact perm_append_comm
  ordered := by
    simp only [deliveredOf_concat, MailEntry.delivered?, toList_none, append_nil]
    rw [← append_assoc, pairwise_append]
    refine ⟨inv.ordered, pairwise_singleton _ _, fun other inside last isLast _ _ => ?_⟩
    rw [mem_singleton.mp isLast, stamped]
    apply inv.stamp_lt
    have sub := (delivered_sublist_ended s.log).subset (a := other)
    simp only [mem_append] at inside ⊢
    tauto
  single := by
    rw [pairwise_append]
    refine ⟨inv.single, pairwise_singleton _ _, fun other inside last isLast both => ?_⟩
    rw [mem_singleton.mp isLast] at both
    exact single both.2.1 other inside both.1 both.2.2
  proper := forall_mem_append.mpr ⟨inv.proper, forall_mem_singleton.mpr trivial⟩
  teardownFirst := Runs.along_concat.mpr ⟨inv.teardownFirst, fun other same => by cases same⟩

lemma Inv.move (empty : s.hand = []) {queue hand : List (CmqWorkerMsg τ)}
    (same : s.queue.Perm (queue ++ hand)) (sub : queue.Sublist s.queue)
    (ordered : (deliveredOf s.log ++ hand ++ queue).Pairwise Ordered) :
    Inv ⟨queue, hand, s.stamp, s.log⟩ where
  stamps := inv.stamps
  once := by
    refine inv.once.trans ?_
    rw [empty, append_nil]
    exact same.append_right _
  ordered := ordered
  single := inv.single.sublist sub
  proper := inv.proper
  teardownFirst := inv.teardownFirst

lemma Inv.finish {queue hand : List (CmqWorkerMsg τ)} {entry : MailEntry τ}
    (proper : entry.Proper) (notLinked : entry.linked? = none)
    (same : (s.queue ++ s.hand).Perm (queue ++ hand ++ entry.ended?.toList))
    (sub : queue.Sublist s.queue)
    (ordered : (deliveredOf s.log ++ entry.delivered?.toList ++ hand ++ queue).Pairwise Ordered)
    (first : TeardownFirst s.log entry) :
    Inv ⟨queue, hand, s.stamp, s.log ++ [entry]⟩ where
  stamps := by
    rw [linkedOf_concat, notLinked]
    simpa using inv.stamps
  once := by
    rw [linkedOf_concat, notLinked, endedOf_concat, toList_none, append_nil]
    refine inv.once.trans ((same.append_right _).trans ?_)
    rw [append_assoc (queue ++ hand)]
    exact List.Perm.append_left _ perm_append_comm
  ordered := by
    rw [deliveredOf_concat]
    exact ordered
  single := inv.single.sublist sub
  proper := forall_mem_append.mpr ⟨inv.proper, forall_mem_singleton.mpr proper⟩
  teardownFirst := Runs.along_concat.mpr ⟨inv.teardownFirst, first⟩

lemma Inv.step (taken : MailStep s s') : s'.Inv := by
  cases taken with
  | link m stamped single => exact inv.link stamped single
  | @take front rest stamp log =>
    refine inv.move rfl perm_append_comm (sublist_append_right _ _) ?_
    have ordered := inv.ordered
    rw [append_nil, ← append_assoc] at ordered
    exact ordered
  | @pop ahead behind stamp log m first =>
    refine inv.move rfl ?_ (List.Sublist.append_left (sublist_cons_self _ _) _) ?_
    · exact perm_middle.trans (perm_append_singleton m _).symm
    have ordered := inv.ordered
    rw [append_nil, pairwise_append] at ordered
    obtain ⟨delivered, queued, between⟩ := ordered
    rw [append_assoc, pairwise_append]
    refine ⟨delivered, ?_, fun a inside b member => between a inside b ?_⟩
    · rw [singleton_append, pairwise_cons]
      rw [pairwise_append, pairwise_cons] at queued
      refine ⟨fun other member send target => ?_, ?_⟩
      · rcases mem_append.mp member with member | member
        · exact absurd ⟨target.1.symm, target.2.symm⟩ (first send other member)
        exact queued.2.1.1 other member send target
      rw [pairwise_append]
      exact ⟨queued.1, queued.2.1.2, fun a inside b member =>
        queued.2.2 a inside b (mem_cons_of_mem _ member)⟩
    simp only [mem_append, mem_cons] at member ⊢
    tauto
  | @finish queue hand stamp log m entry proper ends =>
    have ordered := inv.ordered
    have same : (queue ++ m :: hand).Perm (queue ++ hand ++ [m]) :=
      perm_middle.trans (perm_append_singleton m _).symm
    -- What the worker drops or handles leaves the order as it is.
    have shorter : (deliveredOf log ++ hand ++ queue).Pairwise Ordered := by
      refine ordered.sublist (List.Sublist.append_right ?_ _)
      exact List.Sublist.append_left (sublist_cons_self _ _) _
    rcases ends with rfl | rfl | rfl
    · refine inv.finish proper rfl same (List.Sublist.refl _) ?_ (inv.teardownFirst_front rfl proper)
      simpa [MailEntry.delivered?] using ordered
    all_goals
      refine inv.finish proper rfl same (List.Sublist.refl _) ?_ (fun other same => by cases same)
      simpa [MailEntry.delivered?] using shorter
  | @remove ahead behind hand stamp log m entry proper ends =>
    have ordered := inv.ordered
    have sub : (ahead ++ behind).Sublist (ahead ++ m :: behind) :=
      List.Sublist.append_left (sublist_cons_self _ _) _
    have same : (ahead ++ m :: behind ++ hand).Perm (ahead ++ behind ++ hand ++ [m]) := by
      refine (perm_middle.append_right hand).trans ?_
      exact (perm_append_singleton m _).symm
    have shorter := ordered.sublist (List.Sublist.append_left sub _)
    rcases ends with rfl | rfl <;>
    · refine inv.finish proper rfl same sub ?_ (fun other same => by cases same)
      simpa [MailEntry.delivered?] using shorter
  | accept =>
    refine inv.finish trivial rfl ?_ (List.Sublist.refl _) ?_ (fun other same => by cases same)
    · simp [MailEntry.ended?]
    simpa [MailEntry.delivered?] using inv.ordered

abbrev Steps : MailState τ → MailState τ → Prop := Relation.ReflTransGen MailStep

lemma Inv.steps (taken : Steps s s') : s'.Inv := by
  induction taken with
  | refl => exact inv
  | tail _ last ih => exact ih.step last

end

lemma steps_purge {drop : CmqWorkerMsg τ → Bool} (sends : ∀ m, drop m = true → m.kind = .send)
    (ahead queue hand : List (CmqWorkerMsg τ)) (stamp : Nat) (log : List (MailEntry τ)) :
    Steps ⟨ahead ++ queue, hand, stamp, log⟩ ⟨ahead ++ queue.filter (fun m => !drop m), hand, stamp,
        log ++ (queue.filter drop).map .dropped⟩ := by
  induction queue generalizing ahead log with
  | nil =>
    simp only [filter_nil, map_nil, append_nil]
    exact .refl
  | cons m queue ih =>
    by_cases dropped : drop m = true
    · rw [filter_cons_of_neg (by simp [dropped]), filter_cons_of_pos dropped]
      refine .head (.remove m (.dropped m) (sends m dropped) (.inl rfl)) ?_
      have rest := ih ahead (log ++ [.dropped m])
      rw [append_assoc] at rest
      exact rest
    rw [filter_cons_of_pos (by simpa using dropped), filter_cons_of_neg dropped]
    have rest := ih (ahead ++ [m]) log
    rw [append_assoc, append_assoc, singleton_append] at rest
    exact rest

end MailState

end CMsgQueue.Server
