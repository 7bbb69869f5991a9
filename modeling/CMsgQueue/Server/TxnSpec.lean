import CMsgQueue.Server.Txn

/-!
# What the calls of the transaction coordinator do

The table of slots holds a map from the open transactions to their buffers.  Every call but a
commit changes this map in one place; a commit that gets behind its log also enters the
transaction in `done`.
-/

namespace CMsgQueue.Server.CmqTxn

open Option SlotTable

/-- One transaction is opened, changed or closed, and nothing else happens. -/
structure Updates (t t' : CmqTxn) (id : UInt64) (value : Option CmqTxnSlot) : Prop where
  slot_eq : t'.slot = Function.update t.slot id value
  done_eq : t'.done = t.done
  logged_eq : t'.logged = t.logged

variable {t : CmqTxn} {id : UInt64}

lemma updates_clear (found : t.txnFind id = some idx) : Updates t (t.clear idx) id none := by
  refine ⟨?_, rfl, rfl⟩
  obtain ⟨front, slot, back, split, length⟩ := exists_of_find_key found
  have tabulates := t.tabulates
  rw [split] at tabulates
  have cleared := tabulates.clear
  rw [← set_middle front back (some (id, slot)) none, ← split, length] at cleared
  exact cleared.lookup_eq

variable {slot : CmqTxnSlot}

lemma updates_change (found : t.txnFind id = some idx) (open_ : t.slot id = some slot)
    (f : CmqTxnSlot → CmqTxnSlot) : Updates t (t.change idx f) id (some (f slot)) := by
  refine ⟨?_, rfl, rfl⟩
  obtain ⟨front, held, back, split, length⟩ := exists_of_find_key found
  have tabulates := t.tabulates
  have same : held = slot := by
    rw [split, tabulates_some, open_, some_inj] at tabulates
    exact tabulates.1.symm
  rw [split] at tabulates
  have changed := tabulates.replace (f held)
  have middle := modify_middle front back (some (id, held)) (Option.map (Prod.map (fun key => key) f))
  rw [← split, length] at middle
  rw [← same, ← changed.lookup_eq]
  exact congrArg lookup middle

lemma txnDoneHas_iff : t.txnDoneHas id = true ↔ id ∈ t.done := List.contains_iff_mem

lemma exists_of_txnFind (found : t.txnFind id = some idx) : ∃ slot, t.slot id = some slot := by
  rw [← ne_none_iff_exists']
  intro absent
  rw [txnFind_none.mpr absent] at found
  cases found

lemma begin_result (t : CmqTxn) (id : UInt64) :
    (t.begin id).1 = t ∧ (t.begin id).2 ≠ 0 ∨
      (t.begin id).1 = t ∧ (t.begin id).2 = 0 ∧ t.slot id ≠ none ∨
      id ≠ 0 ∧ id ∉ t.done ∧ t.slot id = none ∧ (t.begin id).2 = 0 ∧
        Updates t (t.begin id).1 id (some .zero) := by
  unfold begin
  split
  · exact .inl ⟨rfl, by simp⟩
  rename_i nonzero
  split
  · exact .inl ⟨rfl, by simp⟩
  rename_i fresh
  split
  · rename_i idx found
    refine .inr (.inl ⟨rfl, rfl, fun absent => ?_⟩)
    rw [txnFind_none.mpr absent] at found
    cases found
  rename_i absent
  split
  · exact .inl ⟨rfl, by simp⟩
  rename_i idx free
  rw [txnDoneHas_iff] at fresh
  exact .inr (.inr ⟨nonzero, fresh, txnFind_none.mp absent, rfl,
    (distinct_take absent free).lookup_eq, rfl, rfl⟩)

lemma begin_cases (t : CmqTxn) (id : UInt64) :
    (t.begin id).1 = t ∨
      id ≠ 0 ∧ id ∉ t.done ∧ t.slot id = none ∧ Updates t (t.begin id).1 id (some .zero) := by
  rcases begin_result t id with ⟨same, -⟩ | ⟨same, -⟩ | ⟨nonzero, fresh, absent, -, updates⟩
  · exact .inl same
  · exact .inl same
  exact .inr ⟨nonzero, fresh, absent, updates⟩

lemma add_cases (t : CmqTxn) (id : UInt64) (subject data : Bytes) :
    (t.add id subject data).1 = t ∧ (t.add id subject data).2 ≠ 0 ∨
      ∃ (op : CmqTxnOp) (slot : CmqTxnSlot), CmqTxnOp.check subject data = .ok op ∧
        t.slot id = some slot ∧ slot.prepared = false ∧ slot.ops.length < cmqTxnOps ∧
          (t.add id subject data).2 = 0 ∧
            Updates t (t.add id subject data).1 id (some (slot.push op)) := by
  unfold add
  split
  · exact .inl ⟨rfl, by simp⟩
  split
  · rename_i ret refused
    exact .inl ⟨rfl, CmqTxnOp.error_ne_zero refused⟩
  rename_i op checked
  split
  · rename_i idx slot found open_
    split
    · rename_i room
      exact .inr ⟨op, slot, checked, open_, room.1, room.2, rfl, updates_change found open_ _⟩
    exact .inl ⟨rfl, by simp⟩
  exact .inl ⟨rfl, by simp⟩

lemma abort_cases (t : CmqTxn) (id : UInt64) :
    (t.abort id).1 = t ∨ Updates t (t.abort id).1 id none := by
  unfold abort
  split
  · exact .inl rfl
  split
  · exact .inl rfl
  rename_i idx found
  exact .inr (updates_clear found)

/-- A call changes at most the votes and the flag of one open transaction. -/
def KeepsOps (t t' : CmqTxn) (id : UInt64) : Prop :=
  t' = t ∨ ∃ slot slot' : CmqTxnSlot, t.slot id = some slot ∧ slot'.ops = slot.ops ∧
    Updates t t' id (some slot')

lemma addPart_keepsOps (t : CmqTxn) (id : UInt64) (node : Bytes) :
    KeepsOps t (t.addPart id node).1 id := by
  unfold addPart
  split
  · exact .inl rfl
  split
  · rename_i idx slot found open_
    split
    · rename_i room
      split
      · exact .inl rfl
      refine .inr ⟨slot, slot.join node, open_, ?_, updates_change found open_ _⟩
      rw [CmqTxnSlot.join, dif_pos room]
    exact .inl rfl
  exact .inl rfl

lemma prepare_keepsOps (t : CmqTxn) (id : UInt64) : KeepsOps t (t.prepare id).1 id := by
  unfold prepare
  split
  · exact .inl rfl
  split
  · exact .inl rfl
  rename_i idx found
  obtain ⟨slot, open_⟩ := exists_of_txnFind found
  exact .inr ⟨slot, { slot with prepared := true }, open_, rfl, updates_change found open_ _⟩

lemma vote_keepsOps (t : CmqTxn) (id : UInt64) (node : Bytes) (yes : Bool) :
    KeepsOps t (t.vote id node yes).1 id := by
  unfold vote
  split
  · exact .inl rfl
  split
  · rename_i idx slot found open_
    split
    · exact .inr ⟨slot, slot.cast node yes, open_, rfl, updates_change found open_ _⟩
    exact .inl rfl
  exact .inl rfl

lemma KeepsOps.done_eq (keeps : KeepsOps t t' id) : t'.done = t.done := by
  rcases keeps with rfl | ⟨_, _, _, _, updates⟩
  · rfl
  exact updates.done_eq

lemma KeepsOps.logged_eq (keeps : KeepsOps t t' id) : t'.logged = t.logged := by
  rcases keeps with rfl | ⟨_, _, _, _, updates⟩
  · rfl
  exact updates.logged_eq

def reaches (t : CmqTxn) (file : File) (write : LogWrite) (id : UInt64) : Option CmqTxnSlot :=
  if id = 0 ∨ t.txnDoneHas id = true then none
  else (t.slot id).filter fun slot => slot.mayCommit && (t.txnLogCommit file write id).2

variable {write : LogWrite} {file : File}

lemma reaches_eq_some :
    t.reaches file write id = some slot ↔
      id ≠ 0 ∧ id ∉ t.done ∧ t.slot id = some slot ∧ slot.mayCommit = true ∧
        (t.txnLogCommit file write id).2 = true := by
  unfold reaches
  split
  · rename_i refused
    rw [txnDoneHas_iff] at refused
    tauto
  rename_i passed
  rw [txnDoneHas_iff] at passed
  rw [filter_eq_some_iff, Bool.and_eq_true]
  tauto

def writes (t : CmqTxn) (id : UInt64) : Bool :=
  id != 0 && !t.txnDoneHas id && (t.slot id).any (·.mayCommit)

lemma writes_of_reaches (reaches : t.reaches file write id = some slot) : t.writes id = true := by
  obtain ⟨nonzero, fresh, open_, may, -⟩ := reaches_eq_some.mp reaches
  rw [← txnDoneHas_iff] at fresh
  simp [writes, nonzero, fresh, open_, may]

lemma commit_file (t : CmqTxn) (file : File) (write : LogWrite) (fn : Option (Nat → Int))
    (id : UInt64) :
    (t.commit file write fn id).file =
      if t.writes id then (t.txnLogCommit file write id).1 else file := by
  unfold commit writes
  split
  · rename_i zero
    simp [zero]
  rename_i nonzero
  split
  · rename_i known
    simp [known]
  rename_i fresh
  split
  · rename_i idx slot found open_
    split
    · rename_i may
      simp [open_, may]
    rename_i may
    dsimp only
    split <;> simp [nonzero, fresh, open_, may]
  rename_i missing
  have absent : t.slot id = none := by
    rw [← txnFind_none]
    cases found : t.txnFind id with
    | none => rfl
    | some idx =>
      obtain ⟨slot, open_⟩ := exists_of_txnFind found
      exact absurd open_ (missing idx slot found)
  simp [absent]

/-- A commit that stops before it applies anything leaves the coordinator as it was. -/
lemma commit_of_stops (fn : Option (Nat → Int)) (stops : t.reaches file write id = none) :
    (t.commit file write fn id).txn = t ∧ (t.commit file write fn id).applied = [] ∧
      ((t.commit file write fn id).ret = 0 ∧ id ≠ 0 ∧ id ∈ t.done ∨
        (t.commit file write fn id).ret = -1) := by
  unfold commit
  split
  · exact ⟨rfl, rfl, .inr rfl⟩
  rename_i nonzero
  split
  · rename_i known
    exact ⟨rfl, rfl, .inl ⟨rfl, nonzero, txnDoneHas_iff.mp known⟩⟩
  rename_i fresh
  rw [txnDoneHas_iff] at fresh
  split
  · rename_i idx slot found open_
    split
    · exact ⟨rfl, rfl, .inr rfl⟩
    rename_i may
    dsimp only
    split
    · exact ⟨rfl, rfl, .inr rfl⟩
    rename_i wrote
    rw [Bool.not_eq_false] at may wrote
    rw [reaches_eq_some.mpr ⟨nonzero, fresh, open_, may, wrote⟩] at stops
    cases stops
  exact ⟨rfl, rfl, .inr rfl⟩

/-- A commit that gets behind its log closes the transaction whatever the callback returns. -/
structure Commits (t : CmqTxn) (file : File) (write : LogWrite) (fn : Option (Nat → Int))
    (id : UInt64) (slot : CmqTxnSlot) (result : CommitResult) : Prop where
  slot_eq : result.txn.slot = Function.update t.slot id none
  done_eq : result.txn.done = doneAdded t.done id
  logged_eq : result.txn.logged = t.logged
  file_eq : result.file = (t.txnLogCommit file write id).1
  applied_eq : result.applied = (applyOps fn slot.ops).1
  ret_eq : result.ret = (applyOps fn slot.ops).2

lemma commit_of_reaches (fn : Option (Nat → Int))
    (reaches : t.reaches file write id = some slot) :
    Commits t file write fn id slot (t.commit file write fn id) := by
  obtain ⟨nonzero, fresh, open_, may, wrote⟩ := reaches_eq_some.mp reaches
  obtain ⟨idx, found⟩ : ∃ idx, t.txnFind id = some idx := by
    rw [← ne_none_iff_exists', ne_eq, txnFind_none, open_]
    simp
  have unknown : t.txnDoneHas id = false := by
    rw [← Bool.not_eq_true, txnDoneHas_iff]
    exact fresh
  have result : t.commit file write fn id = ⟨(t.txnDoneAdd id).clear idx,
      (t.txnLogCommit file write id).1, (applyOps fn slot.ops).1, (applyOps fn slot.ops).2⟩ := by
    simp [commit, nonzero, unknown, found, open_, may, wrote]
  rw [result]
  -- the search does not read `done`
  have cleared := updates_clear found
  exact ⟨cleared.slot_eq, rfl, rfl, rfl, rfl, rfl⟩

lemma mem_doneAdded {done : List UInt64} {other : UInt64} (member : other ∈ doneAdded done id) :
    other ∈ done ∨ other = id := by
  unfold doneAdded at member
  split at member
  · exact .inl member
  split at member
  · simpa using member
  exact List.mem_or_eq_of_mem_set member

lemma slot_setLog (t : CmqTxn) (file : File) : (t.setLog file).slot = t.slot := by
  have kept : ∀ (ids : List UInt64) (t : CmqTxn), (ids.foldl txnDoneAdd t).slot = t.slot := by
    intro ids
    induction ids with
    | nil => exact fun _ => rfl
    | cons id ids ih => exact fun t => ih (t.txnDoneAdd id)
  exact kept _ _

lemma slot_create (id : UInt64) : create.slot id = none :=
  congrFun (tabulates_replicate cmqTxnMax).lookup_eq id

/-- The callback returns 0 for every operation; without operations it is not needed. -/
def AppliesAll (fn : Option (Nat → Int)) (ops : List CmqTxnOp) : Prop :=
  ops = [] ∨ ∃ f ∈ fn, ∀ i < ops.length, f i = 0

instance (fn : Option (Nat → Int)) (ops : List CmqTxnOp) : Decidable (AppliesAll fn ops) :=
  inferInstanceAs (Decidable (_ ∨ _))

lemma applyLoop_cases (f : Nat → Int) (i : Nat) (ops : List CmqTxnOp) :
    (∀ k, i ≤ k → k < i + ops.length → f k = 0) ∧ applyLoop f i ops = (ops, 0) ∨
      (∃ k, i ≤ k ∧ k < i + ops.length ∧ f k ≠ 0) ∧ (applyLoop f i ops).2 = -1 := by
  induction ops generalizing i with
  | nil =>
    left
    exact ⟨fun k low high => absurd high (not_lt.mpr low), rfl⟩
  | cons _ ops ih =>
    rw [applyLoop, List.length_cons]
    by_cases fails : f i ≠ 0
    · rw [if_pos fails]
      exact .inr ⟨⟨i, le_refl _, by omega, fails⟩, rfl⟩
    rw [if_neg fails]
    rcases ih (i + 1) with ⟨all, loop⟩ | ⟨⟨k, low, high, bad⟩, loop⟩
    · left
      refine ⟨fun k low high => ?_, by rw [loop]⟩
      rcases Nat.eq_or_lt_of_le low with first | later
      · exact first ▸ not_not.mp fails
      exact all k later (by omega)
    right
    exact ⟨⟨k, by omega, by omega, bad⟩, loop⟩

/-- A commit applies all operations, or it returns -1, or there is no callback for them. -/
lemma applyOps_cases (fn : Option (Nat → Int)) (ops : List CmqTxnOp) :
    AppliesAll fn ops ∧ applyOps fn ops = (ops, 0) ∨ ¬ AppliesAll fn ops ∧
        ((applyOps fn ops).2 = -1 ∨ (applyOps fn ops).2 = 0 ∧ (applyOps fn ops).1 ≠ ops) := by
  cases fn with
  | none =>
    by_cases empty : ops = []
    · exact .inl ⟨.inl empty, by rw [empty]; rfl⟩
    refine .inr ⟨?_, .inr ⟨rfl, Ne.symm empty⟩⟩
    rintro (none | ⟨f, given, -⟩)
    · exact empty none
    cases given
  | some f =>
    rcases applyLoop_cases f 0 ops with ⟨all, loop⟩ | ⟨⟨k, -, high, bad⟩, loop⟩
    · left
      exact ⟨.inr ⟨f, rfl, fun i _ => all i (Nat.zero_le _) (by omega)⟩, loop⟩
    refine .inr ⟨?_, .inl loop⟩
    rw [Nat.zero_add] at high
    rintro (none | ⟨g, given, all⟩)
    · rw [none] at high
      exact absurd high (Nat.not_lt_zero k)
    cases given
    exact bad (all k high)

end CMsgQueue.Server.CmqTxn
