import CMsgQueue.Server.DeliverView
import CMsgQueue.Server.Publish

/-!
# Held bytes

`account_live_hold` and `account_live_drop` around a publish: a drop takes back what the hold
added, and a hold that fits on top of other bytes also fits without them.
-/

namespace CMsgQueue.Enterprise

open List

/-- A change of an account that a lookup by name does not see. -/
def KeepsName (change : CmqAccount → CmqAccount) : Prop :=
  ∀ name account, (change account).isNamed name = account.isNamed name

namespace CmqAccountManager

variable {mgr : CmqAccountManager} {name : Bytes}

lemma findIdx_modify (keeps : KeepsName change) (accounts : List CmqAccount) (i : Nat) :
    (accounts.modify i change).findIdx (CmqAccount.isNamed name) =
      accounts.findIdx (CmqAccount.isNamed name) := by
  have same : (accounts.modify i change).map (CmqAccount.isNamed name) =
      accounts.map (CmqAccount.isNamed name) := by
    apply ext_getElem?
    intro j
    rw [getElem?_map, getElem?_map, getElem?_modify]
    cases accounts[j]? with
    | none => rfl
    | some account =>
      simp only [Option.map_eq_map, Option.map_some, Option.some.injEq]
      split
      · exact keeps name account
      rfl
  have byName : ∀ accounts : List CmqAccount,
      accounts.findIdx (CmqAccount.isNamed name) =
        (accounts.map (CmqAccount.isNamed name)).findIdx id := by
    intro accounts
    rw [findIdx_map]
    rfl
  rw [byName, byName, same]

lemma update_update (keeps : KeepsName change) :
    (mgr.update name change).update name change' = mgr.update name (change' ∘ change) := by
  simp only [update, findIdx_modify keeps, modify_modify_eq]

lemma update_id : mgr.update name id = mgr := by
  simp only [update, modify_id]

lemma get_update (keeps : KeepsName change) :
    cmqAccountGet (mgr.update name change) name = (cmqAccountGet mgr name).map change := by
  unfold cmqAccountGet
  split
  · rfl
  simp only [update, find?_eq_getElem?_findIdx, findIdx_modify keeps, getElem?_modify_eq]
  rfl

def credited (n : Nat) (account : CmqAccount) : CmqAccount :=
  { account with bytesLive := account.bytesLive + n }

lemma keepsName_credited (n : Nat) : KeepsName (credited n) := fun _ _ => rfl

/-- Bytes held in addition to those of `mgr`. -/
def addLive (mgr : CmqAccountManager) (name : Bytes) (n : Nat) : CmqAccountManager :=
  mgr.update name (credited n)

lemma addLive_zero : mgr.addLive name 0 = mgr := update_id

lemma addLive_addLive (m n : Nat) :
    (mgr.addLive name m).addLive name n = mgr.addLive name (m + n) := by
  rw [addLive, addLive, update_update (keepsName_credited m)]
  congr 1
  funext account
  simp [credited, Nat.add_assoc]

lemma get_addLive (n : Nat) :
    cmqAccountGet (mgr.addLive name n) name = (cmqAccountGet mgr name).map (credited n) :=
  get_update (keepsName_credited n)

lemma update_sub_addLive (n : Nat) :
    ((mgr.addLive name n).update name fun account =>
      { account with bytesLive := account.bytesLive - n }) = mgr := by
  rw [addLive, update_update (keepsName_credited n)]
  have undo : (fun account : CmqAccount => { account with bytesLive := account.bytesLive - n }) ∘
      credited n = id := by
    funext account
    simp [credited]
  rw [undo, update_id]

end CmqAccountManager

end CMsgQueue.Enterprise

namespace CMsgQueue.Server

open Enterprise CmqAccountManager

variable {mgr : CmqAccountManager} {c : CmqClient} {n : Nat}

lemma SameRules.addLive (mgr : CmqAccountManager) (name : Bytes) (n : Nat) :
    SameRules mgr (mgr.addLive name n) :=
  SameRules.update mgr name fun _ => rfl

lemma credit_cases (positive : n ≠ 0)
    (credited : (cmqAccountCreditBytesLive mgr name epoch n).2 = 0) :
    ∃ account, cmqAccountGet mgr name = some account ∧ account.epoch = epoch ∧
      (account.maxBytesLive = 0 ∧ (cmqAccountCreditBytesLive mgr name epoch n).1 = mgr ∨
        account.maxBytesLive ≠ 0 ∧
        account.bytesLive ≤ 2 ^ 64 - 1 - n ∧ account.bytesLive + n ≤ account.maxBytesLive ∧
        (cmqAccountCreditBytesLive mgr name epoch n).1 = mgr.addLive name n) := by
  unfold cmqAccountCreditBytesLive at credited ⊢
  cases found : cmqAccountGet mgr name with
  | none => simp [found] at credited
  | some account =>
    simp only [found, if_neg positive] at credited ⊢
    refine ⟨account, rfl, ?_⟩
    by_cases epochs : account.epoch ≠ epoch
    · simp [epochs] at credited
    rw [if_neg epochs] at credited ⊢
    refine ⟨not_not.1 epochs, ?_⟩
    by_cases unlimited : account.maxBytesLive = 0
    · exact .inl ⟨unlimited, by rw [if_pos unlimited]⟩
    rw [if_neg unlimited] at credited ⊢
    split at credited
    · cases credited
    rename_i fits
    right
    rw [if_neg fits]
    exact ⟨unlimited, by omega, by omega, rfl⟩

variable {accounts : CmqAccountManager}

lemma accountLiveHold_eq (holds : accountLiveHold mgr c n = some (accounts, held)) :
    ∃ k, accounts = mgr.addLive c.accountName k := by
  unfold accountLiveHold at holds
  split at holds
  · cases holds
    exact ⟨0, addLive_zero.symm⟩
  rename_i counted
  simp only at holds
  split at holds
  · rename_i credited
    cases holds
    have positive : n ≠ 0 := fun zero => counted (.inl zero)
    obtain ⟨_, -, -, ⟨-, same⟩ | ⟨-, -, -, added⟩⟩ := credit_cases positive credited
    · exact ⟨0, same.trans addLive_zero.symm⟩
    exact ⟨n, added⟩
  cases holds

lemma accountLiveDrop_hold (holds : accountLiveHold mgr c n = some (accounts, held)) :
    accountLiveDrop accounts c n held = mgr := by
  unfold accountLiveHold at holds
  split at holds
  · cases holds
    rfl
  rename_i counted
  simp only at holds
  split at holds
  · rename_i credited
    cases holds
    have positive : n ≠ 0 := fun zero => counted (.inl zero)
    obtain ⟨account, found, epochs, ⟨unlimited, same⟩ | ⟨limited, -, -, added⟩⟩ :=
      credit_cases positive credited
    · rw [same]
      simp [accountLiveDrop, cmqAccountDebitBytesLive, found, unlimited]
    rw [added]
    have undone : ¬ (n = 0 ∨ account.epoch ≠ c.accountEpoch ∨ account.maxBytesLive = 0) := by
      simp [positive, epochs, limited]
    simp only [accountLiveDrop, cmqAccountDebitBytesLive, get_addLive, found, if_true]
    exact (if_neg undone).trans (update_sub_addLive n)
  cases holds

lemma accountLiveHold_of_addLive
    (holds : accountLiveHold (mgr.addLive c.accountName k) c n = some (accounts, held)) :
    ∃ accounts held, accountLiveHold mgr c n = some (accounts, held) := by
  unfold accountLiveHold at holds ⊢
  split at holds
  · rename_i free
    exact ⟨mgr, false, if_pos free⟩
  rename_i counted
  simp only at holds
  split at holds
  · rename_i credited
    have positive : n ≠ 0 := fun zero => counted (.inl zero)
    obtain ⟨_, found, epochs, outcome⟩ := credit_cases positive credited
    rw [get_addLive, Option.map_eq_some_iff] at found
    obtain ⟨original, found, rfl⟩ := found
    simp only [CmqAccountManager.credited] at epochs outcome
    have fits : original.maxBytesLive = 0 ∨ original.bytesLive ≤ 2 ^ 64 - 1 - n ∧
        original.bytesLive + n ≤ original.maxBytesLive := by
      rcases outcome with ⟨unlimited, -⟩ | ⟨-, _, _, -⟩
      · exact .inl unlimited
      exact .inr ⟨by omega, by omega⟩
    have none : (cmqAccountCreditBytesLive mgr c.accountName c.accountEpoch n).2 = 0 := by
      simp only [cmqAccountCreditBytesLive, found]
      repeat' split
      all_goals first | rfl | omega
    simp only [if_neg counted, if_pos none]
    exact ⟨_, _, rfl⟩
  cases holds

end CMsgQueue.Server
