import Mathlib.Data.Nat.ModEq
import CMsgQueue.Enterprise.RegistrySpec

/-!
# Sessions of an account

A session keeps the name and the epoch of its account.  As long as no slot is reclaimed for
another name, the epoch of a name counts its deletions and creations, modulo `2 ^ 32 - 1`.
-/

namespace CMsgQueue.Enterprise

open List Server

variable {mgr : CmqAccountManager} {name : Bytes}

/-! ## Epochs -/

def epochAfter (epoch n : Nat) : Nat := (epoch - 1 + n) % (2 ^ 32 - 1) + 1

def EpochOk (epoch : Nat) : Prop := 1 ≤ epoch ∧ epoch < 2 ^ 32

variable {epoch : Nat} {account : CmqAccount}

lemma accountBumpEpoch_eq (ok : EpochOk epoch) : accountBumpEpoch epoch = epochAfter epoch 1 := by
  obtain ⟨_, _⟩ := ok
  unfold accountBumpEpoch epochAfter
  split <;> omega

lemma epochAfter_ok (epoch n : Nat) : EpochOk (epochAfter epoch n) := by
  unfold EpochOk epochAfter
  omega

lemma epochAfter_zero (ok : EpochOk epoch) : epochAfter epoch 0 = epoch := by
  unfold EpochOk at ok
  unfold epochAfter
  omega

/-- An epoch comes back after `2 ^ 32 - 1` bumps, which are no whole number of deletions and
creations. -/
lemma epochAfter_eq_self_iff (ok : EpochOk epoch) (few : d < 2 ^ 32 - 1) :
    epochAfter epoch (2 * d) = epoch ↔ d = 0 := by
  constructor
  · intro again
    have inside : epoch - 1 < 2 ^ 32 - 1 := by
      unfold EpochOk at ok
      omega
    have same : (epoch - 1 + 2 * d) % (2 ^ 32 - 1) = (epoch - 1 + 0) % (2 ^ 32 - 1) := by
      rw [Nat.add_zero, Nat.mod_eq_of_lt inside]
      exact Nat.eq_sub_of_add_eq again
    have multiple : 2 ^ 32 - 1 ∣ 2 * d :=
      Nat.modEq_zero_iff_dvd.mp (Nat.ModEq.add_left_cancel' _ same)
    have odd : Nat.Coprime (2 ^ 32 - 1) 2 := by decide
    exact Nat.eq_zero_of_dvd_of_lt (odd.dvd_of_dvd_mul_left multiple) few
  rintro rfl
  exact epochAfter_zero ok

/-! ## Slots -/

def CmqAccountManager.slotOf (mgr : CmqAccountManager) (name : Bytes) : Option CmqAccount :=
  mgr.accounts.find? fun account => account.name == name

lemma name_of_slotOf (held : mgr.slotOf name = some account) :
    account ∈ mgr.accounts ∧ account.name = name := by
  exact ⟨mem_of_find?_eq_some held, by simpa using find?_some held⟩

lemma find?_editFirst {accounts : List CmqAccount} {old : CmqAccount}
    (names : (accounts.map (·.name)).Nodup) (found : accounts.find? p = some old)
    (change : CmqAccount → CmqAccount) (same : (change old).name = old.name) (name : Bytes) :
    (accounts.editFirst p fun account => [change account]).find? (fun a => a.name == name) =
      if old.name = name then some (change old)
      else accounts.find? fun a => a.name == name := by
  obtain ⟨before, _, rfl, -, edited⟩ :=
    editFirst_of_find? (fun account => [change account]) found
  rw [edited, singleton_append, find?_append, find?_append]
  split
  next eq =>
    subst eq
    have none : before.find? (fun a => a.name == old.name) = none := by
      rw [find?_eq_none]
      intro other mem eq
      rw [map_append, map_cons, nodup_middle, nodup_cons] at names
      exact names.1 (mem_append_left _ (mem_map.mpr ⟨other, mem, by simpa using eq⟩))
    rw [none, Option.none_or, find?_cons_of_pos (by simp [same])]
  next differ =>
    rw [find?_cons_of_neg (by simp [same, differ]), find?_cons_of_neg (by simp [differ])]

/-- A rule call leaves the accounts as they are. -/
def AccountCall.isRule : AccountCall → Bool
  | .create .. | .ensure .. | .delete _ => false
  | _ => true

namespace CmqAccountManager

lemma accounts_of_isRule {call : AccountCall} (rule : call.isRule = true) :
    (mgr.call call).1.accounts = mgr.accounts := by
  cases call with
  | create | ensure | delete => cases rule
  | removeExport | removeImport | removeMap => exact accounts_removeRules ..
  | addExport | addImport | addMap =>
    simp only [call]
    split
    · exact accounts_addRule ..
    rfl

/-- A name that is not in the table finds room for it, or it does not reclaim the slot of the given
name. -/
def Roomy (name : Bytes) (mgr : CmqAccountManager) : AccountCall → Prop
  | .create _ other | .ensure _ other => mgr.slotOf other = none →
      mgr.accounts.length < cmqAccountMax ∨
        ∀ slot ∈ mgr.accounts.find? (fun slot => !slot.active), slot.name ≠ name
  | _ => True

def deletes (mgr : CmqAccountManager) (name : Bytes) (call : AccountCall) : Nat :=
  if call = .delete name ∧ accountIsActive mgr name = true then 1 else 0

def deletions (name : Bytes) : CmqAccountManager → List AccountCall → Nat
  | _, [] => 0
  | mgr, call :: calls => mgr.deletes name call + deletions name (mgr.call call).1 calls

def dormant (account : CmqAccount) : Nat :=
  if account.active then 0 else 1

/-- The account moved on by some bumps, twice for each deletion. -/
def Moved (mgr : CmqAccountManager) (name : Bytes) (account : CmqAccount) (deleted : Nat) : Prop :=
  ∃ after n, mgr.slotOf name = some after ∧ after.epoch = epochAfter account.epoch n ∧
    n + dormant after = 2 * deleted + dormant account

lemma Moved.refl (ok : EpochOk account.epoch) (held : mgr.slotOf name = some account) :
    mgr.Moved name account 0 :=
  ⟨account, 0, held, (epochAfter_zero ok).symm, rfl⟩

lemma moved_appendOrReclaim (ok : EpochOk account.epoch) (held : mgr.slotOf name = some account)
    (defaultBytesLive : Nat) {other : Bytes} (absent : mgr.slotOf other = none)
    (roomy : mgr.accounts.length < cmqAccountMax ∨
      ∀ slot ∈ mgr.accounts.find? (fun slot => !slot.active), slot.name ≠ name) :
    (mgr.appendOrReclaim defaultBytesLive other).1.Moved name account 0 := by
  refine .refl ok ?_
  rw [appendOrReclaim]
  split
  next full =>
    have others := roomy.resolve_left (not_lt.mpr full)
    split
    · exact held
    next slot found =>
    obtain ⟨before, after, split, -, edited⟩ := editFirst_of_find?
      (fun slot => [⟨other, true, accountBumpEpoch slot.epoch, 0, defaultBytesLive⟩]) found
    have differ : other ≠ name := by
      rintro rfl
      rw [absent] at held
      cases held
    rw [slotOf, split, find?_append, find?_cons_of_neg (by simpa using others slot found)] at held
    rw [slotOf, edited, find?_append, singleton_append, find?_cons_of_neg (by simpa using differ)]
    exact held
  rw [slotOf, find?_append]
  exact Option.or_eq_some_iff.mpr (.inl held)

section

variable (names : NamesInv mgr.accounts)
include names

lemma moved_edit {slot : CmqAccount} (ok : EpochOk account.epoch)
    (held : mgr.slotOf name = some account) (found : mgr.accounts.find? p = some slot)
    (change : CmqAccount → CmqAccount) (same : (change slot).name = slot.name)
    (bumped : (change slot).epoch = accountBumpEpoch slot.epoch) {deleted : Nat}
    (balance : slot.name = name → 1 + dormant (change slot) = 2 * deleted + dormant slot)
    (elsewhere : slot.name ≠ name → deleted = 0) {after : CmqAccountManager}
    (edited : after.accounts = mgr.accounts.editFirst p fun account => [change account]) :
    after.Moved name account deleted := by
  have slots := find?_editFirst names.names found change same name
  rw [← edited] at slots
  by_cases here : slot.name = name
  · obtain rfl : slot = account := by
      obtain ⟨mem, same⟩ := name_of_slotOf held
      exact inj_on_of_nodup_map names.names (mem_of_find?_eq_some found) mem
        (here.trans same.symm)
    exact ⟨_, 1, slots.trans (if_pos here), bumped.trans (accountBumpEpoch_eq ok), balance here⟩
  rw [elsewhere here]
  exact .refl ok (slots.trans ((if_neg here).trans held))

lemma moved_call (ok : EpochOk account.epoch) (held : mgr.slotOf name = some account)
    {call : AccountCall} (roomy : Roomy name mgr call) :
    (mgr.call call).1.Moved name account (mgr.deletes name call) := by
  cases rule : call.isRule with
  | true =>
    have none : mgr.deletes name call = 0 := by
      cases call <;> first | rfl | cases rule
    rw [none]
    exact .refl ok (by rw [slotOf, accounts_of_isRule rule]; exact held)
  | false =>
    cases call with
    | create defaultBytesLive other =>
      rw [CmqAccountManager.call, create]
      split
      · exact .refl ok held
      cases found : mgr.accounts.find? fun account => account.name == other with
      | none => exact moved_appendOrReclaim ok held _ found (roomy found)
      | some slot =>
        dsimp only
        split
        · exact .refl ok held
        next inactive =>
        refine moved_edit names ok held found (fun account => { account with
          active := true, epoch := accountBumpEpoch account.epoch, bytesLive := 0 })
          rfl rfl (fun _ => ?_) (fun _ => rfl) rfl
        simp [dormant, inactive]
    | ensure defaultBytesLive other =>
      rw [CmqAccountManager.call, ensure]
      split
      · exact .refl ok held
      cases found : mgr.accounts.find? fun account => account.name == other with
      | none => exact moved_appendOrReclaim ok held _ found (roomy found)
      | some slot => exact .refl ok held
    | delete other =>
      rw [CmqAccountManager.call, delete]
      split
      next active =>
        obtain ⟨slot, found⟩ : ∃ slot, mgr.accounts.find? (CmqAccount.isNamed other) =
            some slot := by
          simpa [accountIsActive, ← find?_isSome, Option.isSome_iff_exists] using active
        have passes := find?_some found
        simp only [CmqAccount.isNamed, Bool.and_eq_true, beq_iff_eq] at passes
        obtain ⟨awake, rfl⟩ := passes
        refine moved_edit names ok held found (fun account => { account with
          active := false, epoch := accountBumpEpoch account.epoch, bytesLive := 0 })
          rfl rfl (fun here => ?_) (fun away => ?_) rfl
        · subst here
          simp [dormant, deletes, awake, active]
        exact if_neg fun both => away (AccountCall.delete.inj both.1)
      next inactive =>
      rw [deletes, if_neg]
      · exact .refl ok held
      rintro ⟨same, active⟩
      cases same
      exact inactive active
    | _ => cases rule

lemma moved_after (ok : EpochOk account.epoch) (held : mgr.slotOf name = some account)
    (met : Runs.Meets (fun mgr call => (mgr.call call).1) (Roomy name) mgr calls) :
    (Runs.after call mgr calls).Moved name account (deletions name mgr calls) := by
  induction calls generalizing mgr account with
  | nil => exact .refl ok held
  | cons call calls ih =>
    obtain ⟨_, n, held, epoch, _⟩ := moved_call names ok held met.1
    obtain ⟨last, m, slot, later, _⟩ :=
      ih (keeps_call names call).names (epoch ▸ epochAfter_ok _ _) held met.2
    refine ⟨last, n + m, slot, ?_, ?_⟩
    · rw [later, epoch]
      unfold epochAfter
      omega
    rw [deletions]
    omega

/-! ## Sessions -/

lemma accountSessionLive_iff (epoch : Nat)
    (short : name ≠ [] ∧ name.length < cmqAccountNameSize) :
    accountSessionLive mgr name epoch = true ↔
      ∃ account, mgr.slotOf name = some account ∧ account.active = true ∧
        account.epoch = epoch := by
  rw [accountSessionLive, if_neg short.1, cmqAccountGet, if_neg (not_le.mpr short.2)]
  have unique := inj_on_of_nodup_map names.names
  cases found : mgr.accounts.find? (CmqAccount.isNamed name) with
  | none =>
    refine iff_of_false (by simp) ?_
    rintro ⟨account, held, active, -⟩
    obtain ⟨mem, same⟩ := name_of_slotOf held
    have absent := find?_eq_none.mp found account mem
    simp [CmqAccount.isNamed, active, same] at absent
  | some account =>
    have passes := find?_some found
    simp only [CmqAccount.isNamed, Bool.and_eq_true, beq_iff_eq] at passes
    have mem := mem_of_find?_eq_some found
    have held : mgr.slotOf name = some account := by
      cases held : mgr.slotOf name with
      | none =>
        have absent := find?_eq_none.mp held account mem
        simp [passes.2] at absent
      | some =>
        obtain ⟨there, same⟩ := name_of_slotOf held
        rw [unique there mem (same.trans passes.2.symm)]
    simp [held, passes.1]

end

lemma epochOk_bump (epoch : Nat) : EpochOk (accountBumpEpoch epoch) := by
  unfold EpochOk accountBumpEpoch
  split <;> omega

lemma epochOk_edit {accounts : List CmqAccount} {change : CmqAccount → CmqAccount}
    (ok : ∀ account ∈ accounts, EpochOk account.epoch)
    (bumps : ∀ account, (change account).epoch = accountBumpEpoch account.epoch) :
    ∀ account ∈ accounts.editFirst p fun account => [change account], EpochOk account.epoch := by
  intro account mem
  rcases mem_or_of_mem_editFirst mem with old | ⟨slot, -, new⟩
  · exact ok account old
  rw [mem_singleton.mp new, bumps]
  exact epochOk_bump slot.epoch

lemma epochOk_call (ok : ∀ account ∈ mgr.accounts, EpochOk account.epoch) (call : AccountCall) :
    ∀ account ∈ (mgr.call call).1.accounts, EpochOk account.epoch := by
  have new : ∀ bytes other,
      ∀ account ∈ (mgr.appendOrReclaim bytes other).1.accounts, EpochOk account.epoch := by
    intro bytes other
    unfold appendOrReclaim
    split
    · cases mgr.accounts.find? fun slot => !slot.active with
      | none => exact ok
      | some slot => exact epochOk_edit ok fun _ => rfl
    exact forall_mem_append.mpr ⟨ok, forall_mem_singleton.mpr
      ⟨le_refl 1, Nat.one_lt_two_pow (by decide)⟩⟩
  cases rule : call.isRule with
  | true =>
    rw [accounts_of_isRule rule]
    exact ok
  | false =>
    cases call with
    | create bytes other =>
      rw [CmqAccountManager.call, create]
      split
      · exact ok
      cases mgr.accounts.find? fun account => account.name == other with
      | none => exact new bytes other
      | some slot =>
        dsimp only
        split
        · exact ok
        exact epochOk_edit ok fun _ => rfl
    | ensure bytes other =>
      rw [CmqAccountManager.call, ensure]
      split
      · exact ok
      cases mgr.accounts.find? fun account => account.name == other with
      | none => exact new bytes other
      | some slot => exact ok
    | delete other =>
      rw [CmqAccountManager.call, delete]
      split
      · exact epochOk_edit ok fun _ => rfl
      exact ok
    | _ => cases rule

lemma epochOk_run (calls : List AccountCall) :
    ∀ account ∈ (run calls).accounts, EpochOk account.epoch :=
  foldlRecOn (motive := fun mgr : CmqAccountManager =>
    ∀ account ∈ mgr.accounts, EpochOk account.epoch) calls _ (by simp)
    fun _ ok call _ => epochOk_call ok call

/-- After any calls the accounts have different names, and no epoch is 0, as that of no session. -/
theorem run_accounts (calls : List AccountCall) :
    ((run calls).accounts.map (·.name)).Nodup ∧ ∀ account ∈ (run calls).accounts,
      account.name ≠ [] ∧ 0 < account.epoch ∧ account.epoch < 2 ^ 32 := by
  have names := (inv_run calls).names
  refine ⟨names.names, fun account member => ⟨names.named account member, ?_⟩⟩
  exact epochOk_run calls account member

/-- A session recorded while its account was active is live exactly as long as the account is
not deleted, if its slot is not reclaimed and fewer than `2 ^ 32 - 1` deletions follow. -/
theorem session_live_iff (calls more : List AccountCall) (name : Bytes) (epoch : Nat)
    (recorded : accountSessionLive (run calls) name epoch = true)
    (roomy : Runs.Meets (fun mgr call => (mgr.call call).1) (Roomy name) (run calls) more)
    (few : deletions name (run calls) more < 2 ^ 32 - 1) :
    accountSessionLive (run (calls ++ more)) name epoch = true ↔
      deletions name (run calls) more = 0 := by
  have names := (inv_run calls).names
  have short : name ≠ [] ∧ name.length < cmqAccountNameSize := by
    by_contra long
    rw [not_and_or, not_not, not_lt] at long
    rcases long with rfl | long
    · simp [accountSessionLive] at recorded
    simp [accountSessionLive, cmqAccountGet, long] at recorded
  obtain ⟨account, held, active, rfl⟩ := (accountSessionLive_iff names epoch short).mp recorded
  have ok := epochOk_run calls account (name_of_slotOf held).1
  obtain ⟨last, n, slot, later, balance⟩ := moved_after names ok held roomy
  have append : run (calls ++ more) = Runs.after call (run calls) more := by simp [run, Runs.after]
  rw [accountSessionLive_iff (inv_run (calls ++ more)).names _ short, append, slot]
  simp only [Option.some.injEq, exists_eq_left', later]
  rw [dormant, dormant, if_pos active] at balance
  cases awake : last.active with
  | false =>
    rw [awake, if_neg (by simp)] at balance
    simp only [Bool.false_eq_true, false_and, false_iff]
    omega
  | true =>
    rw [awake, if_pos rfl, Nat.add_zero] at balance
    rw [balance]
    simpa using epochAfter_eq_self_iff ok few

theorem session_live_iff_again :
    accountSessionLive (run ([.create 0 (cstr "a")] ++ [.delete (cstr "a"), .create 0 (cstr "a")]))
      (cstr "a") 1 = false := by
  have live := session_live_iff [.create 0 (cstr "a")] [.delete (cstr "a"), .create 0 (cstr "a")]
    (cstr "a") 1 (by decide +kernel) ⟨trivial, fun _ => .inl (by decide +kernel), trivial⟩
    (by decide +kernel)
  rw [← Bool.not_eq_true, live]
  decide +kernel

/-- Calls that leave a full table with `a` in its third epoch. -/
def fullTable : List AccountCall :=
  [.create 0 (cstr "a"), .delete (cstr "a"), .create 0 (cstr "a"), .create 0 (cstr "b")] ++
    (List.range 126).map fun i => .create 0 [chDollar, UInt8.ofNat i]

/-- The slot of `a` is reclaimed for `z`, and `a` comes back in the slot of `b`, in the epoch
its session had recorded. -/
theorem stale_session_live :
    let more := [.delete (cstr "a"), .create 0 (cstr "z"), .delete (cstr "b"), .create 0 (cstr "a")]
    accountSessionLive (run fullTable) (cstr "a") 3 = true ∧
      deletions (cstr "a") (run fullTable) more = 1 ∧
      accountSessionLive (run (fullTable ++ more)) (cstr "a") 3 = true := by
  decide +kernel

end CmqAccountManager

end CMsgQueue.Enterprise
