import CMsgQueue.Server.TxnSpec

/-!
# Sequences of calls of the transaction coordinator

Beside the coordinator a history keeps, for each transaction, the operations that were added since
it was opened and those that were applied.
-/

namespace CMsgQueue.Server

open Function CmqTxn

/-- A call of the coordinator with what the disk and the callback answer. -/
inductive TxnCall where
  | begin (id : UInt64)
  | add (id : UInt64) (subject data : Bytes)
  | addPart (id : UInt64) (node : Bytes)
  | prepare (id : UInt64)
  | vote (id : UInt64) (node : Bytes) (yes : Bool)
  | commit (id : UInt64) (write : LogWrite) (fn : Option (Nat → Int))
  | abort (id : UInt64)

/-- The coordinator, the file of its log, and what happened to each transaction. -/
structure TxnHistory where
  txn : CmqTxn
  file : File
  /-- The operations for which `cmq_txn_add` returned 0 since the transaction was opened. -/
  added : UInt64 → List CmqTxnOp
  /-- The operations that commits have applied since then. -/
  applied : UInt64 → List CmqTxnOp

namespace TxnHistory

def start (log : Option File) : TxnHistory where
  txn := log.elim create create.setLog
  file := log.getD .empty
  added := fun _ => []
  applied := fun _ => []

def commit (h : TxnHistory) (id : UInt64) (write : LogWrite) (fn : Option (Nat → Int)) :
    CommitResult :=
  h.txn.commit h.file write fn id

def step (h : TxnHistory) : TxnCall → TxnHistory
  | .begin id =>
    let txn := (h.txn.begin id).1
    if h.txn.slot id = none ∧ txn.slot id ≠ none then
      { h with
        txn
        added := update h.added id []
        applied := update h.applied id [] }
    else { h with txn }
  | .add id subject data =>
    let result := h.txn.add id subject data
    { h with
      txn := result.1
      added :=
        match CmqTxnOp.check subject data with
        | .ok op => if result.2 = 0 then update h.added id (h.added id ++ [op]) else h.added
        | .error _ => h.added }
  | .addPart id node => { h with txn := (h.txn.addPart id node).1 }
  | .prepare id => { h with txn := (h.txn.prepare id).1 }
  | .vote id node yes => { h with txn := (h.txn.vote id node yes).1 }
  | .commit id write fn =>
    let result := h.commit id write fn
    { h with
      txn := result.txn
      file := result.file
      applied := update h.applied id (h.applied id ++ result.applied) }
  | .abort id => { h with txn := (h.txn.abort id).1 }

/-- A commit that returns 0 has applied what was added; one that returns -1 has applied nothing
and leaves the transaction as it was. -/
def Atomic (h : TxnHistory) : TxnCall → Prop
  | .commit id write fn =>
    ((h.commit id write fn).ret = 0 →
      (h.step (.commit id write fn)).applied id = h.added id) ∧
    ((h.commit id write fn).ret = -1 →
      (h.commit id write fn).applied = [] ∧
        (h.commit id write fn).txn.slot id = h.txn.slot id)
  | _ => True

def CallbacksSucceed (h : TxnHistory) : TxnCall → Prop
  | .commit id write fn => ∀ slot ∈ h.txn.reaches h.file write id, AppliesAll fn slot.ops
  | _ => True

instance (h : TxnHistory) : (call : TxnCall) → Decidable (h.Atomic call)
  | .commit _ _ _ => inferInstanceAs (Decidable ((_ → _) ∧ (_ → _ ∧ _)))
  | .begin _ | .add _ _ _ | .addPart _ _ | .prepare _ | .vote _ _ _ | .abort _ =>
    inferInstanceAs (Decidable True)

/-- The buffer of an open transaction holds what was added, and nothing of it has been applied.
All of a transaction that is done has been applied. -/
structure Settled (h : TxnHistory) (id : UInt64) : Prop where
  opened : ∀ slot, h.txn.slot id = some slot → slot.ops = h.added id ∧ h.applied id = []
  done : id ∈ h.txn.done → h.txn.slot id = none ∧ h.applied id = h.added id

def Inv (h : TxnHistory) : Prop := ∀ id, h.Settled id

lemma inv_start (log : Option File) : (start log).Inv := by
  intro id
  have closed : (start log).txn.slot id = none := by
    cases log with
    | none => exact slot_create id
    | some file => exact congrFun (slot_setLog create file) id
  refine ⟨fun slot open_ => ?_, fun _ => ⟨closed, rfl⟩⟩
  rw [closed] at open_
  cases open_

/-- Nothing happens to the transactions other than `id`. -/
structure Frame (h h' : TxnHistory) (id : UInt64) : Prop where
  slot_eq : ∀ other, other ≠ id → h'.txn.slot other = h.txn.slot other
  done_of : ∀ other, other ≠ id → other ∈ h'.txn.done → other ∈ h.txn.done
  added_eq : ∀ other, other ≠ id → h'.added other = h.added other
  applied_eq : ∀ other, other ≠ id → h'.applied other = h.applied other

variable {h : TxnHistory} {id : UInt64}

lemma Inv.of_frame (inv : h.Inv) (frame : Frame h h' id) (settled : h'.Settled id) : h'.Inv := by
  intro other
  by_cases same : other = id
  · exact same ▸ settled
  constructor
  · rw [frame.slot_eq other same, frame.added_eq other same, frame.applied_eq other same]
    exact (inv other).opened
  rw [frame.slot_eq other same, frame.added_eq other same, frame.applied_eq other same]
  exact fun member => (inv other).done (frame.done_of other same member)

lemma frame_of_updates {value : Option CmqTxnSlot} {added applied : List CmqTxnOp}
    (updates : Updates h.txn h'.txn id value) (adds : h'.added = update h.added id added)
    (applies : h'.applied = update h.applied id applied) : Frame h h' id := by
  constructor
  · intro other different
    rw [updates.slot_eq, update_of_ne different]
  · intro other different member
    rwa [updates.done_eq] at member
  · intro other different
    rw [adds, update_of_ne different]
  intro other different
  rw [applies, update_of_ne different]

lemma Settled.fresh {slot : CmqTxnSlot} (settled : h.Settled id)
    (open_ : h.txn.slot id = some slot) : id ∉ h.txn.done := by
  intro member
  rw [(settled.done member).1] at open_
  cases open_

lemma settled_of_open {slot : CmqTxnSlot} (open_ : h.txn.slot id = some slot)
    (ops : slot.ops = h.added id) (nothing : h.applied id = []) (fresh : id ∉ h.txn.done) :
    h.Settled id := by
  refine ⟨fun _ same => ?_, fun member => absurd member fresh⟩
  rw [open_, Option.some_inj] at same
  exact ⟨same ▸ ops, nothing⟩

lemma settled_of_closed (closed : h.txn.slot id = none)
    (all : id ∈ h.txn.done → h.applied id = h.added id) : h.Settled id := by
  refine ⟨fun _ same => ?_, fun member => ⟨closed, all member⟩⟩
  rw [closed] at same
  cases same

lemma step_of_stops (fn : Option (Nat → Int)) (stops : h.txn.reaches h.file write id = none) :
    h.step (.commit id write fn) = { h with file := (h.commit id write fn).file } := by
  obtain ⟨same, nothing, -⟩ := commit_of_stops fn stops
  rw [step]
  dsimp only [commit]
  rw [same, nothing, List.append_nil, update_eq_self]

section

variable (inv : h.Inv)
include inv

lemma Inv.of_keepsOps {txn : CmqTxn} (keeps : KeepsOps h.txn txn id) : Inv { h with txn } := by
  rcases keeps with rfl | ⟨slot, _, open_, ops, updates⟩
  · exact inv
  have frame : Frame h { h with txn } id :=
    frame_of_updates updates (update_eq_self ..).symm (update_eq_self ..).symm
  obtain ⟨buffered, nothing⟩ := (inv id).opened slot open_
  refine inv.of_frame frame (settled_of_open ?_ (ops.trans buffered) nothing ?_)
  · rw [updates.slot_eq, update_self]
  rw [updates.done_eq]
  exact (inv id).fresh open_

lemma Inv.begin (id : UInt64) : (h.step (.begin id)).Inv := by
  rw [step]
  rcases begin_cases h.txn id with same | ⟨-, fresh, absent, updates⟩
  · rw [same, if_neg fun opens => opens.2 opens.1]
    exact inv
  have opens : (h.txn.begin id).1.slot id = some .zero := by rw [updates.slot_eq, update_self]
  have opened : h.txn.slot id = none ∧ (h.txn.begin id).1.slot id ≠ none := by
    rw [opens]
    exact ⟨absent, Option.some_ne_none _⟩
  rw [if_pos opened]
  refine inv.of_frame (frame_of_updates updates rfl rfl) (settled_of_open opens ?_ ?_ ?_)
  · exact (update_self id [] h.added).symm
  · exact update_self id [] h.applied
  rw [updates.done_eq]
  exact fresh

lemma Inv.add (id : UInt64) (subject data : Bytes) : (h.step (.add id subject data)).Inv := by
  rw [step]
  rcases add_cases h.txn id subject data with
    ⟨same, refused⟩ | ⟨op, slot, checked, open_, -, room, zero, updates⟩
  · rw [same]
    cases CmqTxnOp.check subject data with
    | ok op =>
      dsimp only
      rw [if_neg refused]
      exact inv
    | error => exact inv
  rw [checked]
  dsimp only
  rw [if_pos zero]
  obtain ⟨buffered, nothing⟩ := (inv id).opened slot open_
  have opened : (h.txn.add id subject data).1.slot id = some (slot.push op) := by
    rw [updates.slot_eq, update_self]
  refine inv.of_frame (frame_of_updates updates rfl (update_eq_self ..).symm)
    (settled_of_open opened ?_ nothing ?_)
  · rw [CmqTxnSlot.push, dif_pos room]
    dsimp only
    rw [buffered]
    exact (update_self id _ h.added).symm
  rw [updates.done_eq]
  exact (inv id).fresh open_

lemma Inv.abort (id : UInt64) : (h.step (.abort id)).Inv := by
  rw [step]
  rcases abort_cases h.txn id with same | updates
  · rw [same]
    exact inv
  have frame : Frame h { h with txn := (h.txn.abort id).1 } id :=
    frame_of_updates updates (update_eq_self ..).symm (update_eq_self ..).symm
  refine inv.of_frame frame (settled_of_closed ?_ fun member => ?_)
  · rw [updates.slot_eq, update_self]
  rw [updates.done_eq] at member
  exact ((inv id).done member).2

lemma Inv.commit
    (succeed : h.CallbacksSucceed (.commit id write fn)) : (h.step (.commit id write fn)).Inv := by
  cases reached : h.txn.reaches h.file write id with
  | none =>
    rw [step_of_stops fn reached]
    exact fun other => ⟨(inv other).opened, (inv other).done⟩
  | some slot =>
    have commits := commit_of_reaches fn reached
    obtain ⟨-, _, open_, -, -⟩ := reaches_eq_some.mp reached
    obtain ⟨buffered, nothing⟩ := (inv id).opened slot open_
    have all : (applyOps fn slot.ops).1 = slot.ops := by
      rcases applyOps_cases fn slot.ops with ⟨-, loop⟩ | ⟨fails, -⟩
      · rw [loop]
      exact absurd (succeed slot reached) fails
    have frame : Frame h (h.step (.commit id write fn)) id := by
      refine ⟨?_, ?_, fun _ _ => rfl, ?_⟩
      · intro other different
        exact (congrFun commits.slot_eq other).trans (update_of_ne different ..)
      · intro other different member
        have member : other ∈ doneAdded h.txn.done id := commits.done_eq ▸ member
        exact (mem_doneAdded member).resolve_right different
      intro other different
      exact update_of_ne different ..
    refine inv.of_frame frame (settled_of_closed ?_ fun _ => ?_)
    · exact (congrFun commits.slot_eq id).trans (update_self ..)
    refine (update_self ..).trans ?_
    rw [nothing]
    exact commits.applied_eq.trans (all.trans buffered)

lemma Inv.step (succeed : h.CallbacksSucceed call) : (h.step call).Inv := by
  cases call with
  | begin id => exact inv.begin id
  | add id subject data => exact inv.add id subject data
  | addPart id node => exact inv.of_keepsOps (addPart_keepsOps h.txn id node)
  | prepare id => exact inv.of_keepsOps (prepare_keepsOps h.txn id)
  | vote id node yes => exact inv.of_keepsOps (vote_keepsOps h.txn id node yes)
  | commit id => exact inv.commit succeed
  | abort id => exact inv.abort id

lemma Inv.atomic_iff (call : TxnCall) : h.Atomic call ↔ h.CallbacksSucceed call := by
  cases call with
  | begin | add | addPart | prepare | vote | abort => exact Iff.rfl
  | commit id write fn =>
    rw [Atomic, CallbacksSucceed]
    cases reached : h.txn.reaches h.file write id with
    | none =>
      obtain ⟨same, nothing, returned⟩ := commit_of_stops fn reached
      rw [step_of_stops fn reached]
      refine iff_of_true ⟨fun zero => ?_, fun _ => ⟨nothing, ?_⟩⟩ (by simp)
      · rcases returned with ⟨-, -, member⟩ | failed
        · exact ((inv id).done member).2
        exact absurd (failed.symm.trans zero) (by decide)
      exact congrArg (·.slot id) same
    | some slot =>
      have commits := commit_of_reaches fn reached
      obtain ⟨-, _, open_, -, -⟩ := reaches_eq_some.mp reached
      obtain ⟨buffered, nothing⟩ := (inv id).opened slot open_
      have applied : (h.step (.commit id write fn)).applied id = (applyOps fn slot.ops).1 := by
        refine (update_self ..).trans ?_
        rw [nothing]
        exact commits.applied_eq
      have returned : (h.commit id write fn).ret = (applyOps fn slot.ops).2 := commits.ret_eq
      have closed : (h.commit id write fn).txn.slot id = none :=
        (congrFun commits.slot_eq id).trans (update_self ..)
      rw [applied, returned, closed, open_, ← buffered]
      simp only [Option.mem_some_iff, forall_eq', reduceCtorEq, and_false]
      rcases applyOps_cases fn slot.ops with ⟨all, loop⟩ | ⟨fails, short⟩
      · rw [loop]
        exact iff_of_true ⟨fun _ => rfl, by simp⟩ all
      refine iff_of_false (fun ⟨complete, failed⟩ => ?_) fails
      rcases short with minus | ⟨zero, missing⟩
      · exact failed minus
      exact missing (complete zero)

end

/-- Every commit of a sequence of calls is atomic if and only if no callback of a commit
fails. -/
theorem run_atomic_iff (log : Option File) (calls : List TxnCall) :
    Runs.Meets step Atomic (start log) calls ↔
      Runs.Meets step CallbacksSucceed (start log) calls :=
  Runs.Meets.iff_of_invariant (fun _ call (inv : Inv _) => inv.atomic_iff call)
    (fun _ _ inv => inv.step) (inv_start log)

def sampleAdds : List TxnCall :=
  [.begin 1, .add 1 (cstr "a") (cstr "x"), .add 1 (cstr "b") (cstr "y")]

def sampleOp : CmqTxnOp := ⟨cstr "a", cstr "x", rfl, by decide, by decide⟩

def secondFails (i : Nat) : Int := if i = 1 then -1 else 0

/-- A commit whose second callback fails returns -1 with the first operation applied and the
transaction closed, and a second commit then returns 0. -/
theorem applied_in_part :
    let h := sampleAdds.foldl step (start none)
    let after := h.step (.commit 1 .synced (some secondFails))
    (h.commit 1 .synced (some secondFails)).ret = -1 ∧
      (h.commit 1 .synced (some secondFails)).applied = [sampleOp] ∧
      (h.txn.slot 1).isSome = true ∧ after.txn.slot 1 = none ∧
      (after.commit 1 .synced (some fun _ => 0)).ret = 0 ∧
      (after.commit 1 .synced (some fun _ => 0)).applied = [] ∧
      ¬ Runs.Meets step Atomic (start none)
        (sampleAdds ++ [.commit 1 .synced (some secondFails)]) := by
  decide +kernel

end TxnHistory

end CMsgQueue.Server
