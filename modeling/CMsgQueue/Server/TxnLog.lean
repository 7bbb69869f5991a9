import CMsgQueue.Server.TxnRun

/-!
# The log of the commits over crashes and restarts

As long as records are appended only behind whole records, and the file has at most 256 different
transactions, every commit is remembered.
-/

namespace CMsgQueue.Server

open List CmqTxn

variable {write : LogWrite}

namespace CmqTxn

/-! ## Reading the log -/

lemma length_txnRecord (id : UInt64) : (txnRecord id).length = 9 := by
  simp [txnRecord]

lemma txnRecordId_txnRecord (id : UInt64) : txnRecordId (txnRecord id) = some id := by
  have bound : id.toNat < 256 ^ 8 := id.toNat_lt
  simp [txnRecordId, txnRecord, getBe_putBe bound]

variable {bytes : Bytes}

lemma readRecords_append {count : Nat} (whole : count * 9 = bytes.length) (more : Nat)
    (rest : Bytes) :
    readRecords (count + more) (bytes ++ rest) = readRecords count bytes ++ readRecords more rest := by
  induction count generalizing bytes with
  | zero =>
    have empty : bytes = [] := length_eq_zero_iff.mp (by omega)
    rw [empty, Nat.zero_add]
    rfl
  | succ count ih =>
    have first : 9 ≤ bytes.length := by omega
    have behind : count * 9 = (bytes.drop 9).length := by rw [length_drop]; omega
    rw [Nat.succ_add, readRecords, readRecords, take_append_of_le_length first,
      drop_append_of_le_length first, ih behind, append_assoc]

lemma logIds_append (whole : 9 ∣ bytes.length) (rest : Bytes) :
    logIds (bytes ++ rest) = logIds bytes ++ logIds rest := by
  obtain ⟨count, length⟩ := whole
  have split : (bytes ++ rest).length / 9 = count + rest.length / 9 := by
    rw [length_append, length, Nat.mul_add_div (by decide)]
  have front : bytes.length / 9 = count := by rw [length, Nat.mul_div_cancel_left count (by decide)]
  rw [logIds, logIds, split, front]
  exact readRecords_append (by omega) _ _

lemma logIds_txnRecord (id : UInt64) : logIds (txnRecord id) = [id] := by
  have all := take_of_length_le (le_of_eq (length_txnRecord id))
  rw [logIds, length_txnRecord]
  change (txnRecordId ((txnRecord id).take 9)).toList ++ [] = [id]
  rw [all, txnRecordId_txnRecord]
  rfl

lemma logIds_short (short : bytes.length < 9) : logIds bytes = [] := by
  rw [logIds, Nat.div_eq_of_lt short]
  rfl

lemma logIds_take_txnRecord (id : UInt64) (count : Nat) :
    logIds ((txnRecord id).take count) = [] ∨ logIds ((txnRecord id).take count) = [id] := by
  rcases lt_or_ge count 9 with part | whole
  · left
    apply logIds_short
    rw [length_take]
    exact lt_of_le_of_lt (min_le_left ..) part
  right
  rw [take_of_length_le (by rw [length_txnRecord]; exact whole), logIds_txnRecord]

def txnCount (bytes : Bytes) : Nat := (logIds bytes).toFinset.card

lemma lt_of_card_le {done : List UInt64} {all : Finset UInt64} {id : UInt64} (nodup : done.Nodup)
    (fresh : id ∉ done) (sub : (id :: done).toFinset ⊆ all) (few : all.card ≤ txnDoneMax) :
    done.length < txnDoneMax := by
  have card := Finset.card_le_card sub
  rw [toFinset_card_of_nodup (nodup_cons.mpr ⟨fresh, nodup⟩)] at card
  exact lt_of_lt_of_le card few

lemma mem_doneAdded_iff {done : List UInt64} {id : UInt64}
    (room : id ∉ done → done.length < txnDoneMax) (other : UInt64) :
    other ∈ doneAdded done id ↔ other ∈ done ∨ other = id := by
  unfold doneAdded
  by_cases member : id ∈ done
  · rw [if_pos (contains_iff_mem.mpr member)]
    exact ⟨.inl, fun either => either.elim (fun h => h) fun same => same ▸ member⟩
  rw [if_neg (mt contains_iff_mem.mp member), if_pos (room member), mem_append, mem_singleton]

lemma mem_done_foldl (ids : List UInt64) (t : CmqTxn)
    (room : (t.done ++ ids).toFinset.card ≤ txnDoneMax) (id : UInt64) :
    id ∈ (ids.foldl txnDoneAdd t).done ↔ id ∈ t.done ∨ id ∈ ids := by
  induction ids generalizing t with
  | nil => simp
  | cons first ids ih =>
    have entered : ∀ other, other ∈ (t.txnDoneAdd first).done ↔
        other ∈ t.done ∨ other = first := by
      refine mem_doneAdded_iff fun fresh => lt_of_card_le t.done_nodup fresh ?_ room
      intro other member
      simp only [mem_toFinset, mem_append, mem_cons] at member ⊢
      tauto
    have rest : ((t.txnDoneAdd first).done ++ ids).toFinset =
        (t.done ++ first :: ids).toFinset := by
      ext other
      simp only [mem_toFinset, mem_append, mem_cons, entered]
      tauto
    rw [foldl_cons, ih _ (rest ▸ room), entered, mem_cons, or_assoc]

variable {file : File}

lemma mem_done_setLog (few : txnCount file.bytes ≤ txnDoneMax) (id : UInt64) :
    id ∈ (create.setLog file).done ↔ id ∈ logIds file.bytes := by
  have all := mem_done_foldl (logIds file.bytes) { create with logged := true } few id
  exact all.trans (by simp [create])

lemma logged_setLog (t : CmqTxn) (file : File) : (t.setLog file).logged = true := by
  have kept : ∀ (ids : List UInt64) (t : CmqTxn), (ids.foldl txnDoneAdd t).logged = t.logged := by
    intro ids
    induction ids with
    | nil => exact fun _ => rfl
    | cons id ids ih => exact fun t => ih (t.txnDoneAdd id)
  exact kept _ _

/-! ## Writing the log -/

def Grows (file file' : File) (id : UInt64) : Prop :=
  logIds file'.bytes = logIds file.bytes ∨ logIds file'.bytes = logIds file.bytes ++ [id]

lemma grows_append (whole : 9 ∣ file.size) (id : UInt64) (count : Nat) :
    Grows file ((file.append ((txnRecord id).take count)).getD file) id := by
  cases wrote : file.append ((txnRecord id).take count) with
  | none => exact .inl rfl
  | some =>
    rw [Option.getD_some, Grows, File.append_eq_some.mp wrote, logIds_append whole]
    rcases logIds_take_txnRecord id count with part | all
    · exact .inl (by rw [part, append_nil])
    exact .inr (by rw [all])

lemma grows_txnLogCommit {t : CmqTxn} (logged : t.logged = true) (whole : 9 ∣ file.size)
    (write : LogWrite) (id : UInt64) : Grows file (t.txnLogCommit file write id).1 id := by
  have full := take_of_length_le (le_of_eq (length_txnRecord id))
  rw [txnLogCommit.eq_def, if_neg (by rw [logged]; decide)]
  cases write with
  | fails count => exact grows_append whole id count
  | synced =>
    have grows := grows_append whole id 9
    rw [full] at grows
    cases wrote : file.append (txnRecord id) with
    | none => exact .inl rfl
    | some => rwa [wrote] at grows

lemma mem_of_txnLogCommit {t : CmqTxn} {id : UInt64} (logged : t.logged = true)
    (whole : 9 ∣ file.size) (wrote : (t.txnLogCommit file write id).2 = true) :
    id ∈ logIds (t.txnLogCommit file write id).1.bytes := by
  rw [txnLogCommit.eq_def, if_neg (by rw [logged]; decide)] at wrote ⊢
  cases write with
  | fails => cases wrote
  | synced =>
    cases appended : file.append (txnRecord id) with
    | none =>
      rw [appended] at wrote
      cases wrote
    | some =>
      rw [File.append_eq_some.mp appended, logIds_append whole, logIds_txnRecord]
      exact mem_append_right _ (mem_singleton_self id)

end CmqTxn

/-! ## Runs with crashes -/

/-- What happens to a server with a log. -/
inductive LifeEvent where
  | call (call : TxnCall)
  /-- A crash between two calls, and the next start. -/
  | crash
  /-- A crash in the commit of a transaction with some bytes of the record in the file. -/
  | crashWriting (id : UInt64) (count : Nat)
  /-- A crash in the commit of a transaction behind the write of the record. -/
  | crashApplying (id : UInt64)

/-- A history of calls with the outcome of the commits. -/
structure TxnLife where
  h : TxnHistory
  /-- The transactions whose commit returned 0. -/
  returned : List UInt64
  /-- The transactions that were applied, once for each time. -/
  applications : List UInt64

namespace TxnLife

def start : TxnLife := ⟨.start (some .empty), [], []⟩

def restart (s : TxnLife) (file : File) : TxnLife := { s with h := .start (some file) }

def step (s : TxnLife) : LifeEvent → TxnLife
  | .call call =>
    match call with
    | .commit id write fn =>
      { h := s.h.step call
        returned := if (s.h.commit id write fn).ret = 0 then id :: s.returned else s.returned
        applications :=
          if (s.h.txn.reaches s.h.file write id).isSome then id :: s.applications
          else s.applications }
    | _ => { s with h := s.h.step call }
  | .crash => s.restart s.h.file
  | .crashWriting id count =>
    if s.h.txn.writes id then
      s.restart ((s.h.file.append ((txnRecord id).take count)).getD s.h.file)
    else s.restart s.h.file
  | .crashApplying id =>
    match s.h.txn.reaches s.h.file .synced id with
    | some _ =>
      { s with applications := id :: s.applications }.restart
        (s.h.txn.txnLogCommit s.h.file .synced id).1
    | none => s.restart s.h.file

def writing (s : TxnLife) : LifeEvent → Option UInt64
  | .call (.commit id _ _) | .crashWriting id _ | .crashApplying id =>
    if s.h.txn.writes id then some id else none
  | _ => none

/-- The record of a transaction comes behind whole records, and if the transaction is a new one
the log has fewer than 256 of them. -/
def WriteInOrder (s : TxnLife) (id : UInt64) : Prop :=
  9 ∣ s.h.file.size ∧ (id ∈ logIds s.h.file.bytes ∨ txnCount s.h.file.bytes < txnDoneMax)

def LogInOrder (s : TxnLife) (event : LifeEvent) : Prop :=
  ∀ id ∈ s.writing event, s.WriteInOrder id

instance (s : TxnLife) : DecidablePred s.WriteInOrder :=
  fun _ => inferInstanceAs (Decidable (_ ∧ (_ ∨ _)))

instance (s : TxnLife) (event : LifeEvent) : Decidable (s.LogInOrder event) :=
  Option.decidableForallMem (s.writing event)

/-- The commits that returned 0 are remembered, and no transaction is applied twice. -/
def Durable (s : TxnLife) : Prop :=
  (∀ id ∈ s.returned, s.h.txn.wasCommitted id = true) ∧ s.applications.Nodup

/-! ## The invariant -/

/-- The array `done` holds what was applied, and the log holds what is in `done`. -/
structure Inv (s : TxnLife) : Prop where
  logged : s.h.txn.logged = true
  few : txnCount s.h.file.bytes ≤ txnDoneMax
  done_logged : ∀ id ∈ s.h.txn.done, id ∈ logIds s.h.file.bytes
  returned_done : ∀ id ∈ s.returned, id ≠ 0 ∧ id ∈ s.h.txn.done
  applied_done : ∀ id ∈ s.applications, id ∈ s.h.txn.done
  nodup : s.applications.Nodup

lemma inv_start : start.Inv := by
  refine ⟨rfl, Nat.zero_le _, ?_, ?_, ?_, nodup_nil⟩
  all_goals
    intro _ member
    exact absurd member not_mem_nil

lemma Inv.durable {s : TxnLife} (inv : s.Inv) : s.Durable := by
  refine ⟨fun id member => ?_, inv.nodup⟩
  obtain ⟨nonzero, done⟩ := inv.returned_done id member
  rw [wasCommitted, txnDoneHas_iff.mpr done, Bool.and_true, bne_iff_ne]
  exact nonzero

variable {s : TxnLife}

variable {id : UInt64}

variable {file : File}

lemma few_of_grows (grows : Grows file file' id) (few : txnCount file.bytes ≤ txnDoneMax)
    (room : id ∈ logIds file.bytes ∨ txnCount file.bytes < txnDoneMax) :
    txnCount file'.bytes ≤ txnDoneMax := by
  rcases grows with same | more
  · rw [txnCount, same]
    exact few
  have insert : (logIds file'.bytes).toFinset = insert id (logIds file.bytes).toFinset := by
    ext other
    simp [more]
  rw [txnCount, insert]
  rcases room with known | less
  · rw [Finset.insert_eq_of_mem (mem_toFinset.mpr known)]
    exact few
  exact le_trans (Finset.card_insert_le ..) less

lemma mem_of_grows (grows : Grows file file' id)
    (member : other ∈ logIds file.bytes) : other ∈ logIds file'.bytes := by
  rcases grows with same | more
  · rwa [same]
  rw [more]
  exact mem_append_left _ member

lemma inv_restart (few : txnCount file.bytes ≤ txnDoneMax)
    (returned : ∀ id ∈ s.returned, id ≠ 0 ∧ id ∈ logIds file.bytes)
    (applied : ∀ id ∈ s.applications, id ∈ logIds file.bytes) (nodup : s.applications.Nodup) :
    (s.restart file).Inv := by
  have known := mem_done_setLog few
  refine ⟨logged_setLog .., few, fun id member => (known id).mp member, ?_, ?_, nodup⟩
  · exact fun id member => ⟨(returned id member).1, (known id).mpr (returned id member).2⟩
  exact fun id member => (known id).mpr (applied id member)

section

variable (inv : s.Inv)
include inv

lemma Inv.restart (grows : Grows s.h.file file id) (few : txnCount file.bytes ≤ txnDoneMax) :
    (s.restart file).Inv := by
  apply inv_restart few
  · intro other member
    obtain ⟨nonzero, done⟩ := inv.returned_done other member
    exact ⟨nonzero, mem_of_grows grows (inv.done_logged other done)⟩
  · exact fun other member => mem_of_grows grows (inv.done_logged other (inv.applied_done other member))
  exact inv.nodup

lemma Inv.of_same {h : TxnHistory} (done : h.txn.done = s.h.txn.done)
    (logged : h.txn.logged = s.h.txn.logged) (file : h.file = s.h.file) : Inv { s with h } := by
  refine ⟨logged.trans inv.logged, ?_, ?_, ?_, ?_, inv.nodup⟩
  · rw [file]
    exact inv.few
  · rw [done, file]
    exact inv.done_logged
  · rw [done]
    exact inv.returned_done
  rw [done]
  exact inv.applied_done

lemma Inv.begin (id : UInt64) : (s.step (.call (.begin id))).Inv := by
  have kept : (s.h.txn.begin id).1.done = s.h.txn.done ∧
      (s.h.txn.begin id).1.logged = s.h.txn.logged := by
    rcases begin_cases s.h.txn id with same | ⟨_, _, _, updates⟩
    · rw [same]
      exact ⟨rfl, rfl⟩
    exact ⟨updates.done_eq, updates.logged_eq⟩
  change Inv { s with h := s.h.step (.begin id) }
  rw [TxnHistory.step]
  split
  · exact inv.of_same kept.1 kept.2 rfl
  exact inv.of_same kept.1 kept.2 rfl

lemma Inv.add (id : UInt64) (subject data : Bytes) :
    (s.step (.call (.add id subject data))).Inv := by
  rcases add_cases s.h.txn id subject data with ⟨same, -⟩ | ⟨_, _, _, _, _, _, _, updates⟩
  · exact inv.of_same (congrArg CmqTxn.done same) (congrArg CmqTxn.logged same) rfl
  exact inv.of_same updates.done_eq updates.logged_eq rfl

lemma Inv.abort (id : UInt64) : (s.step (.call (.abort id))).Inv := by
  rcases abort_cases s.h.txn id with same | updates
  · exact inv.of_same (congrArg CmqTxn.done same) (congrArg CmqTxn.logged same) rfl
  exact inv.of_same updates.done_eq updates.logged_eq rfl

lemma Inv.grows (order : s.WriteInOrder id) (write : LogWrite) :
    Grows s.h.file (s.h.txn.txnLogCommit s.h.file write id).1 id ∧
      txnCount (s.h.txn.txnLogCommit s.h.file write id).1.bytes ≤ txnDoneMax := by
  have grows := grows_txnLogCommit inv.logged order.1 write id
  exact ⟨grows, few_of_grows grows inv.few order.2⟩

lemma Inv.room (grows : Grows s.h.file file id) (few : txnCount file.bytes ≤ txnDoneMax)
    (logged : id ∈ logIds file.bytes) (fresh : id ∉ s.h.txn.done) :
    s.h.txn.done.length < txnDoneMax := by
  refine lt_of_card_le s.h.txn.done_nodup fresh (fun other member => ?_) few
  rw [mem_toFinset, mem_cons] at member
  rw [mem_toFinset]
  rcases member with rfl | member
  · exact logged
  exact mem_of_grows grows (inv.done_logged other member)

end

variable {fn : Option (Nat → Int)}

section

variable (inv : s.Inv)
include inv

lemma Inv.commit_grows (order : s.LogInOrder (.call (.commit id write fn))) :
    Grows s.h.file (s.h.commit id write fn).file id ∧
      txnCount (s.h.commit id write fn).file.bytes ≤ txnDoneMax := by
  have file_eq : (s.h.commit id write fn).file = _ := commit_file s.h.txn s.h.file write fn id
  rw [file_eq]
  by_cases writes : s.h.txn.writes id = true
  · rw [if_pos writes]
    exact inv.grows (order id (if_pos writes)) write
  rw [if_neg writes]
  exact ⟨.inl rfl, inv.few⟩

lemma Inv.commit_of_stops (order : s.LogInOrder (.call (.commit id write fn)))
    (stops : s.h.txn.reaches s.h.file write id = none) :
    (s.step (.call (.commit id write fn))).Inv := by
  obtain ⟨grows, few⟩ := inv.commit_grows order
  obtain ⟨-, -, ended⟩ := CmqTxn.commit_of_stops fn stops
  rw [step, TxnHistory.step_of_stops fn stops, stops]
  refine ⟨inv.logged, few, ?_, ?_, inv.applied_done, inv.nodup⟩
  · exact fun other member => mem_of_grows grows (inv.done_logged other member)
  intro other member
  rcases ended with ⟨zero, known⟩ | failed
  · rw [TxnHistory.commit, if_pos zero, mem_cons] at member
    rcases member with rfl | member
    · exact known
    exact inv.returned_done other member
  rw [TxnHistory.commit, failed, if_neg (by decide)] at member
  exact inv.returned_done other member

lemma Inv.commit_of_reaches (order : s.LogInOrder (.call (.commit id write fn)))
    {slot : CmqTxnSlot} (reached : s.h.txn.reaches s.h.file write id = some slot) :
    (s.step (.call (.commit id write fn))).Inv := by
  obtain ⟨grows, few⟩ := inv.commit_grows order
  obtain ⟨nonzero, fresh, -, -, wrote⟩ := reaches_eq_some.mp reached
  have commits := CmqTxn.commit_of_reaches fn reached
  have file_eq : (s.h.commit id write fn).file = _ := commits.file_eq
  have inOrder := order id (if_pos (writes_of_reaches reached))
  have recorded : id ∈ logIds (s.h.commit id write fn).file.bytes := by
    rw [file_eq]
    exact mem_of_txnLogCommit inv.logged inOrder.1 wrote
  have entered : ∀ other, other ∈ (s.h.commit id write fn).txn.done ↔
      other ∈ s.h.txn.done ∨ other = id := by
    intro other
    rw [show (s.h.commit id write fn).txn.done = _ from commits.done_eq]
    exact mem_doneAdded_iff (inv.room grows few recorded) other
  rw [step, reached, Option.isSome_some, if_pos rfl]
  refine ⟨commits.logged_eq.trans inv.logged, few, ?_, ?_, ?_, ?_⟩
  · intro other member
    rcases (entered other).mp member with member | rfl
    · exact mem_of_grows grows (inv.done_logged other member)
    exact recorded
  · intro other member
    have either : other = id ∨ other ∈ s.returned := by
      split at member
      · exact mem_cons.mp member
      exact .inr member
    rcases either with rfl | member
    · exact ⟨nonzero, (entered other).mpr (.inr rfl)⟩
    obtain ⟨nonzero, done⟩ := inv.returned_done other member
    exact ⟨nonzero, (entered other).mpr (.inl done)⟩
  · exact forall_mem_cons.mpr ⟨(entered id).mpr (.inr rfl), fun other member =>
      (entered other).mpr (.inl (inv.applied_done other member))⟩
  exact nodup_cons.mpr ⟨fun member => fresh (inv.applied_done id member), inv.nodup⟩

lemma Inv.crashWriting {count : Nat} (order : s.LogInOrder (.crashWriting id count)) :
    (s.step (.crashWriting id count)).Inv := by
  rw [step]
  split
  · rename_i writes
    have inOrder := order id (if_pos writes)
    have grows := grows_append inOrder.1 id count
    exact inv.restart grows (few_of_grows grows inv.few inOrder.2)
  exact inv.restart (.inl rfl : Grows s.h.file s.h.file id) inv.few

lemma Inv.crashApplying (order : s.LogInOrder (.crashApplying id)) :
    (s.step (.crashApplying id)).Inv := by
  rw [step]
  split
  · rename_i slot reached
    obtain ⟨-, fresh, -, -, wrote⟩ := reaches_eq_some.mp reached
    have inOrder := order id (if_pos (writes_of_reaches reached))
    obtain ⟨grows, few⟩ := inv.grows inOrder .synced
    have recorded := mem_of_txnLogCommit inv.logged inOrder.1 wrote
    refine inv_restart few ?_ ?_ ?_
    · intro other member
      obtain ⟨nonzero, done⟩ := inv.returned_done other member
      exact ⟨nonzero, mem_of_grows grows (inv.done_logged other done)⟩
    · exact forall_mem_cons.mpr ⟨recorded, fun other member =>
        mem_of_grows grows (inv.done_logged other (inv.applied_done other member))⟩
    exact nodup_cons.mpr ⟨fun member => fresh (inv.applied_done id member), inv.nodup⟩
  exact inv.restart (.inl rfl : Grows s.h.file s.h.file id) inv.few

lemma Inv.step (order : s.LogInOrder event) : (s.step event).Inv := by
  cases event with
  | crash => exact inv.restart (.inl rfl : Grows s.h.file s.h.file 0) inv.few
  | crashWriting id => exact inv.crashWriting order
  | crashApplying id => exact inv.crashApplying order
  | call call =>
    cases call with
    | begin id => exact inv.begin id
    | add id subject data => exact inv.add id subject data
    | addPart id node =>
      have keeps := addPart_keepsOps s.h.txn id node
      exact inv.of_same keeps.done_eq keeps.logged_eq rfl
    | prepare id =>
      have keeps := prepare_keepsOps s.h.txn id
      exact inv.of_same keeps.done_eq keeps.logged_eq rfl
    | vote id node yes =>
      have keeps := vote_keepsOps s.h.txn id node yes
      exact inv.of_same keeps.done_eq keeps.logged_eq rfl
    | commit id write =>
      cases reached : s.h.txn.reaches s.h.file write id with
      | none => exact inv.commit_of_stops order reached
      | some => exact inv.commit_of_reaches order reached
    | abort id => exact inv.abort id

end

/-- In a history whose writes to the log are all in order, every commit that returned 0 is
remembered and no transaction is applied twice. -/
theorem run_durable (events : List LifeEvent)
    (order : Runs.Meets step LogInOrder start events) : (events.foldl step start).Durable := by
  have inv := Runs.Meets.invariant (fun s event (inv : Inv s) => inv.step) inv_start order
  exact inv.durable

/-- A commit that a crash interrupts behind its record, and a second try. -/
def sampleLife : List LifeEvent :=
  [.call (.begin 7), .crashApplying 7, .call (.begin 7),
    .call (.commit 7 .synced (some fun _ => 0)), .crash]

theorem run_durable_crash :
    (sampleLife.foldl step start).returned = [7] ∧
      (sampleLife.foldl step start).applications = [7] ∧
      (sampleLife.foldl step start).Durable :=
  ⟨by decide +kernel, by decide +kernel, run_durable sampleLife (by decide +kernel)⟩

/-- A crash leaves one byte of a record, and the transaction 2 commits after the restart. -/
def tornLife : List LifeEvent :=
  [.call (.begin 1), .crashWriting 1 1, .call (.begin 2),
    .call (.commit 2 .synced (some fun _ => 0)), .crash]

def secondTry : List LifeEvent :=
  [.call (.begin 2), .call (.commit 2 .synced (some fun _ => 0))]

/-- Behind a torn record a commit that returned 0 is forgotten by a restart, and then applied a
second time. -/
theorem forgotten_after_torn_record :
    (tornLife.foldl step start).returned = [2] ∧
      (tornLife.foldl step start).h.txn.wasCommitted 2 = false ∧
      ((tornLife ++ secondTry).foldl step start).applications = [2, 2] ∧
      ¬ (tornLife.foldl step start).Durable := by
  have forgotten : (tornLife.foldl step start).h.txn.wasCommitted 2 = false := by decide +kernel
  have returned : (tornLife.foldl step start).returned = [2] := by decide +kernel
  refine ⟨returned, forgotten, by decide +kernel, fun durable => ?_⟩
  have known := durable.1 2 (by rw [returned]; exact mem_singleton_self 2)
  cases known

end TxnLife

end CMsgQueue.Server
