import CMsgQueue.Enterprise.Account
import CMsgQueue.Lib.SlotTable

/-!
# The subscription counter of an account

Accounts with the counter and the cap of their subscriptions.  `cmq_account_get` returns a
pointer into the table of accounts, which stays valid when the account is deleted: an account
pointer is the index of its slot.
-/

namespace CMsgQueue.Enterprise

open List Tokens Server

/-- `cmq_account_t` with `subscriptions` and `max_subscriptions`. -/
structure SubAccount extends CmqAccount where
  subscriptions : Nat
  /-- Zero is no limit. -/
  maxSubscriptions : Nat
  deriving DecidableEq

/-- `struct cmq_account_manager` over these accounts. -/
structure SubAccounts where
  accounts : List SubAccount
  perms : List CmqAccountPerms
  mapTotal : Nat
  deriving DecidableEq

namespace SubAccounts

def mgr (table : SubAccounts) : CmqAccountManager where
  accounts := table.accounts.map SubAccount.toCmqAccount
  perms := table.perms
  mapTotal := table.mapTotal

/-- `cmq_account_get` as a pointer. -/
def slot? (table : SubAccounts) (name : Bytes) : Option Nat :=
  if name.length ≥ cmqAccountNameSize then none
  else table.accounts.findIdx? fun account => account.toCmqAccount.isNamed name

def write (table : SubAccounts) (slot : Nat) (account : SubAccount) : SubAccounts :=
  { table with accounts := table.accounts.set slot account }

end SubAccounts

/-- `cmq_account_inc_subscriptions`: `-1` for a stale session, `-2` at the cap. -/
def cmqAccountIncSubscriptions (table : SubAccounts) (slot epoch : Nat) : SubAccounts × Int :=
  match table.accounts[slot]? with
  | none => (table, -1)
  | some acc =>
    if acc.active = false ∨ acc.epoch ≠ epoch then (table, -1)
    else if acc.maxSubscriptions ≠ 0 ∧ acc.subscriptions ≥ acc.maxSubscriptions then
      (table, -2)
    else (table.write slot { acc with subscriptions := acc.subscriptions + 1 }, 0)

/-- `cmq_account_dec_subscriptions`. -/
def cmqAccountDecSubscriptions (table : SubAccounts) (slot epoch : Nat) : SubAccounts :=
  match table.accounts[slot]? with
  | none => table
  | some acc =>
    if acc.epoch ≠ epoch ∨ acc.active = false ∨ acc.subscriptions = 0 then table
    else table.write slot { acc with subscriptions := acc.subscriptions - 1 }

/-- `account_bump_epoch`. -/
def accountBumpEpoch (epoch : Nat) : Nat :=
  if (epoch + 1) % 2 ^ 32 = 0 then 1 else (epoch + 1) % 2 ^ 32

def CmqAccountPerms.isEmpty (row : CmqAccountPerms) : Bool :=
  row.exports.isEmpty && row.imports.isEmpty && row.maps.isEmpty

def CmqAccountPerms.without (row : CmqAccountPerms) (peer : Bytes) : CmqAccountPerms :=
  { row with
    exports := row.exports.filter fun rule => rule.destAccount != peer
    imports := row.imports.filter fun rule => rule.sourceAccount != peer }

/-- `purge_peer_acl_refs_unlocked`. -/
def purgePeerAclRefs (perms : List CmqAccountPerms) (peer : Bytes) : List CmqAccountPerms :=
  if peer = [] ∨ peer = [chStar] then perms
  else perms.filterMap fun row =>
    if row.account = peer then some row
    else if (row.without peer).isEmpty then none
    else some (row.without peer)

/-- `cmq_account_delete` on a registry with subscription counters. -/
def cmqAccountDelete (table : SubAccounts) (name : Bytes) : SubAccounts :=
  match table.accounts.findIdx? fun account => account.toCmqAccount.isNamed name with
  | none => table
  | some slot =>
    { accounts := table.accounts.modify slot fun account =>
        { account with
          active := false
          epoch := accountBumpEpoch account.epoch
          bytesLive := 0
          subscriptions := 0 }
      perms := purgePeerAclRefs (table.perms.eraseP fun row => row.account == name) name
      mapTotal := table.mapTotal -
        ((table.perms.find? fun row => row.account == name).elim 0 fun row =>
          row.maps.length) }

/-- Accounts have different names that fit their field, and the counter of an active account
is the given number. -/
structure Charged (table : SubAccounts) (charge : CmqAccount → Nat) : Prop where
  names : (table.accounts.map fun account => account.name).Nodup
  short : ∀ account ∈ table.accounts, account.name.length < cmqAccountNameSize
  counter : ∀ account ∈ table.accounts, account.active = true →
    account.subscriptions = charge account.toCmqAccount

/-- The account is the one that a session of the given name and epoch belongs to. -/
def CmqAccount.inSession (account : CmqAccount) (name : Bytes) (epoch : Nat) : Bool :=
  account.name == name && account.epoch == epoch

/-- A session adds `n` to the number of its account. -/
def charging (name : Bytes) (epoch n : Nat) (others : CmqAccount → Nat) (account : CmqAccount) :
    Nat :=
  (if account.inSession name epoch then n else 0) + others account

def SubAccounts.PointsTo (table : SubAccounts) (slot : Nat) (name : Bytes) : Prop :=
  ∃ account, table.accounts[slot]? = some account ∧ account.name = name

namespace SubAccounts

variable {table : SubAccounts} {slot : Nat} {name : Bytes}

lemma write_eq (at_ : table.accounts[slot]? = some account) :
    ∃ front back, table.accounts = front ++ account :: back ∧
      (table.write slot { account with subscriptions := n }).accounts =
        front ++ { account with subscriptions := n } :: back := by
  obtain ⟨inside, rfl⟩ := List.getElem?_eq_some_iff.mp at_
  refine ⟨table.accounts.take slot, table.accounts.drop (slot + 1), ?_, ?_⟩
  · rw [cons_getElem_drop_succ, take_append_drop]
  exact set_eq_take_append_cons_drop.trans (if_pos inside)

lemma mgr_write (at_ : table.accounts[slot]? = some account) :
    (table.write slot { account with subscriptions := n }).mgr = table.mgr := by
  obtain ⟨_, _, before, after⟩ := write_eq (n := n) at_
  unfold mgr
  rw [after, before]
  simp [write]

lemma mgr_inc (epoch : Nat) : (cmqAccountIncSubscriptions table slot epoch).1.mgr = table.mgr := by
  unfold cmqAccountIncSubscriptions
  split
  · rfl
  next _ at_ =>
  split
  · rfl
  split
  · rfl
  exact mgr_write at_

lemma mgr_dec (epoch : Nat) : (cmqAccountDecSubscriptions table slot epoch).mgr = table.mgr := by
  unfold cmqAccountDecSubscriptions
  split
  · rfl
  next _ at_ =>
  split
  · rfl
  exact mgr_write at_

lemma pointsTo_of_slot? (found : table.slot? name = some slot) : table.PointsTo slot name := by
  unfold slot? at found
  split at found
  · cases found
  obtain ⟨inside, named, -⟩ := findIdx?_eq_some_iff_getElem.mp found
  simp only [CmqAccount.isNamed, Bool.and_eq_true, beq_iff_eq] at named
  exact ⟨table.accounts[slot], getElem?_eq_getElem inside, named.2⟩

section

variable (points : table.PointsTo slot name)
include points

lemma PointsTo.inc (epoch : Nat) :
    (cmqAccountIncSubscriptions table slot epoch).1.PointsTo slot name := by
  obtain ⟨account, at_, named⟩ := points
  unfold cmqAccountIncSubscriptions
  simp only [at_]
  split
  · exact ⟨account, at_, named⟩
  split
  · exact ⟨account, at_, named⟩
  obtain ⟨inside, -⟩ := List.getElem?_eq_some_iff.mp at_
  exact ⟨_, getElem?_set_self inside, named⟩

lemma PointsTo.delete (deleted : Bytes) :
    (cmqAccountDelete table deleted).PointsTo slot name := by
  unfold cmqAccountDelete
  split
  · exact points
  obtain ⟨_, inside, named⟩ := points
  refine ⟨_, (getElem?_modify _ _ _ _).trans (by rw [inside]; rfl), ?_⟩
  split <;> exact named

lemma PointsTo.deleteAll (names : List Bytes) :
    (names.foldl cmqAccountDelete table).PointsTo slot name := by
  induction names generalizing table with
  | nil => exact points
  | cons deleted names ih => exact ih (points.delete deleted)

end

end SubAccounts

namespace Charged

variable {table : SubAccounts} {charge : CmqAccount → Nat} {slot : Nat}

section

variable (charged : Charged table charge)
include charged

lemma write {n : Nat} {charge' : CmqAccount → Nat} (at_ : table.accounts[slot]? = some account)
    (here : account.active = true → n = charge' account.toCmqAccount)
    (elsewhere : ∀ other ∈ table.accounts, other.name ≠ account.name →
      charge' other.toCmqAccount = charge other.toCmqAccount) :
    Charged (table.write slot { account with subscriptions := n }) charge' := by
  obtain ⟨front, back, before, after⟩ := SubAccounts.write_eq (n := n) at_
  have names := charged.names
  rw [before, map_append] at names
  have others : ∀ other ∈ front ++ back, other ∈ table.accounts ∧ other.name ≠ account.name := by
    intro other member
    have apart := (nodup_cons.mp (perm_middle.nodup_iff.mp names)).1
    rw [← map_append] at apart
    refine ⟨?_, fun same => apart (mem_map.mpr ⟨other, member, same⟩)⟩
    rw [before]
    simp only [mem_append] at member ⊢
    tauto
  constructor
  · rw [after, map_append]
    exact names
  · intro other member
    rw [after] at member
    rcases mem_cons.mp (perm_middle.mem_iff.mp member) with rfl | member
    · exact charged.short account (mem_of_getElem? at_)
    exact charged.short other (others other member).1
  intro other member active
  rw [after] at member
  rcases mem_cons.mp (perm_middle.mem_iff.mp member) with rfl | member
  · exact here active
  obtain ⟨inside, different⟩ := others other member
  rw [elsewhere other inside different]
  exact charged.counter other inside active

lemma congr {charge' : CmqAccount → Nat}
    (same : ∀ account ∈ table.accounts, account.active = true →
      charge' account.toCmqAccount = charge account.toCmqAccount) : Charged table charge' :=
  ⟨charged.names, charged.short, fun account inside active =>
    (charged.counter account inside active).trans (same account inside active).symm⟩

lemma delete (name : Bytes) : Charged (cmqAccountDelete table name) charge := by
  unfold cmqAccountDelete
  split
  · exact charged
  next _ found =>
  obtain ⟨_, account, _, eq, rfl, -⟩ := SlotTable.exists_of_findIdx? found
  have names := charged.names
  have short := charged.short
  have counter := charged.counter
  simp only [eq] at names short counter ⊢
  rw [SlotTable.modify_middle]
  constructor
  · simpa only [map_append, map_cons] using names
  · intro other member
    rcases mem_cons.mp (perm_middle.mem_iff.mp member) with rfl | member
    · exact short account (by simp)
    exact short other (perm_middle.mem_iff.mpr (mem_cons_of_mem _ member))
  intro other member active
  rcases mem_cons.mp (perm_middle.mem_iff.mp member) with rfl | member
  · cases active
  exact counter other (perm_middle.mem_iff.mpr (mem_cons_of_mem _ member)) active

lemma deleteAll (names : List Bytes) : Charged (names.foldl cmqAccountDelete table) charge := by
  induction names generalizing table with
  | nil => exact charged
  | cons name names ih => exact ih (charged.delete name)

/-! What one session adds to the counters -/

end

variable {name : Bytes} {epoch n : Nat} {others : CmqAccount → Nat}

section

variable (charged : Charged table (charging name epoch n others))
include charged

lemma forget
    (gone : ∀ account ∈ table.accounts, account.active = true →
      account.inSession name epoch = false) (m : Nat) :
    Charged table (charging name epoch m others) :=
  charged.congr fun account inside active => by simp [charging, gone account inside active]

lemma inc (points : table.PointsTo slot name)
    (success : (cmqAccountIncSubscriptions table slot epoch).2 = 0) :
    Charged (cmqAccountIncSubscriptions table slot epoch).1 (charging name epoch (n + 1) others) := by
  obtain ⟨account, at_, rfl⟩ := points
  unfold cmqAccountIncSubscriptions at success ⊢
  simp only [at_] at success ⊢
  split at success
  · cases success
  next live =>
  split at success
  · cases success
  next below =>
  rw [if_neg live, if_neg below]
  obtain ⟨active, current⟩ := not_or.mp live
  refine charged.write at_ (fun active => ?_) fun _ _ different => ?_
  · have counted := charged.counter account (mem_of_getElem? at_) active
    simp only [charging, CmqAccount.inSession, not_not.mp current, beq_self_eq_true,
      Bool.and_self, if_true] at counted ⊢
    omega
  simp [charging, CmqAccount.inSession, different]

lemma debit_none (missing : table.slot? name = none) (m : Nat) :
    Charged table (charging name epoch m others) := by
  refine charged.forget (fun account inside active => ?_) m
  by_contra session
  simp only [CmqAccount.inSession, Bool.not_eq_false, Bool.and_eq_true, beq_iff_eq] at session
  unfold SubAccounts.slot? at missing
  rw [if_neg (by rw [← session.1]; exact Nat.not_le.mpr (charged.short account inside)),
    findIdx?_eq_none_iff] at missing
  have named := missing account inside
  simp [CmqAccount.isNamed, active, session.1] at named

end

lemma dec (charged : Charged table (charging name epoch (n + 1) others))
    (points : table.PointsTo slot name) :
    Charged (cmqAccountDecSubscriptions table slot epoch) (charging name epoch n others) := by
  obtain ⟨account, at_, rfl⟩ := points
  have inside := mem_of_getElem? at_
  unfold cmqAccountDecSubscriptions
  simp only [at_]
  by_cases live : account.active = true ∧ account.epoch = epoch
  · obtain ⟨active, current⟩ := live
    have counted := charged.counter account inside active
    simp only [charging, CmqAccount.inSession, current, beq_self_eq_true, Bool.and_self,
      if_true] at counted
    have positive : account.subscriptions ≠ 0 := by omega
    rw [if_neg (by simp [active, current, positive])]
    refine charged.write at_ (fun _ => ?_) fun other _ different => ?_
    · simp only [charging, CmqAccount.inSession, current, beq_self_eq_true, Bool.and_self, if_true]
      omega
    simp [charging, CmqAccount.inSession, different]
  rw [if_pos (by cases active : account.active <;> simp_all)]
  refine charged.forget (fun other member active => ?_) n
  by_contra session
  simp only [CmqAccount.inSession, Bool.not_eq_false, Bool.and_eq_true, beq_iff_eq] at session
  obtain rfl := inj_on_of_nodup_map charged.names member inside session.1
  exact live ⟨active, session.2⟩

end Charged

end CMsgQueue.Enterprise
