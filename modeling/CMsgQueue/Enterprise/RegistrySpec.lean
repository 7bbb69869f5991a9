import CMsgQueue.Enterprise.Registry

/-!
# The rows of the account registry

A row never outlives its account or the accounts it names.  The rows are kept for any set of
accounts that the added rules stay in; the active accounts are such a set.
-/

namespace CMsgQueue.Enterprise

open List Server

variable {P : Bytes → Prop} {mgr : CmqAccountManager} {row : CmqAccountPerms}

def CmqAccountPerms.peers (row : CmqAccountPerms) : List Bytes :=
  row.exports.map (·.destAccount) ++ row.imports.map (·.sourceAccount)

/-- A row has rules, and they and the row stay in a set of accounts. -/
structure CmqAccountPerms.Ok (P : Bytes → Prop) (row : CmqAccountPerms) : Prop where
  nonempty : row.isEmpty = false
  owner : P row.account
  peers : ∀ peer ∈ row.peers, peer = [chStar] ∨ P peer

lemma CmqAccountPerms.Ok.mono (ok : row.Ok P) (weaker : ∀ name, P name → Q name) : row.Ok Q :=
  ⟨ok.nonempty, weaker _ ok.owner, fun peer mem => (ok.peers peer mem).imp_right (weaker peer)⟩

/-- An insertion fills the row of an account and names no other peers. -/
structure CmqAccountPerms.Adds (add : CmqAccountPerms → Option CmqAccountPerms)
    (peers : List Bytes) : Prop where
  fresh : ∀ account, add ⟨account, [], [], []⟩ ≠ none
  account : ∀ row changed, add row = some changed → changed.account = row.account
  nonempty : ∀ row changed, add row = some changed → changed.isEmpty = false
  peers : ∀ row changed, add row = some changed →
    ∀ peer ∈ changed.peers, peer ∈ row.peers ∨ peer ∈ peers

/-- One row per account, each in order, and `map_total` counts their maps. -/
structure PermsInv (P : Bytes → Prop) (perms : List CmqAccountPerms) (mapTotal : Nat) : Prop where
  rows : (perms.map (·.account)).Nodup
  ok : ∀ row ∈ perms, row.Ok P
  total : mapTotal = (perms.map fun row => row.maps.length).sum

namespace PermsInv

variable {perms : List CmqAccountPerms} {mapTotal : Nat}

lemma account_of_find (name : Bytes)
    (found : perms.find? (fun row => row.account == name) = some row) :
    row ∈ perms ∧ row.account = name :=
  ⟨mem_of_find?_eq_some found, by simpa using find?_some found⟩

section

variable (inv : PermsInv P perms mapTotal)
include inv

lemma mono (weaker : ∀ name, P name → Q name) : PermsInv Q perms mapTotal :=
  ⟨inv.rows, fun row mem => (inv.ok row mem).mono weaker, inv.total⟩

lemma edit (found : perms.find? (fun row => row.account == name) = some row)
    (rows : List CmqAccountPerms) (short : rows.length ≤ 1)
    (same : ∀ changed ∈ rows, changed.account = name ∧ changed.Ok P) :
    PermsInv P (perms.editFirst (fun row => row.account == name) fun _ => rows)
      (mapTotal - row.maps.length + (rows.map fun row => row.maps.length).sum) := by
  obtain ⟨_, _, rfl, -, edited⟩ := editFirst_of_find? (fun _ => rows) found
  obtain ⟨-, rfl⟩ := account_of_find name found
  rw [edited]
  have total := inv.total
  refine ⟨?_, ?_, ?_⟩
  · refine inv.rows.sublist ?_
    simp only [map_append]
    refine (List.Sublist.refl _).append ?_
    match rows, short, same with
    | [], _, _ => exact sublist_cons_self _ _
    | [changed], _, same => simp [(same changed mem_cons_self).1]
  · intro other mem
    have ok := inv.ok other
    simp only [mem_append, mem_cons] at mem ok
    rcases mem with old | new | old
    · exact ok (.inl old)
    · exact (same other new).2
    exact ok (.inr (.inr old))
  simp only [map_append, map_cons, sum_append, sum_cons] at total ⊢
  omega

lemma append (missing : perms.find? (fun other => other.account == row.account) = none)
    (ok : row.Ok P) : PermsInv P (perms ++ [row]) (mapTotal + row.maps.length) := by
  refine ⟨?_, ?_, by simp [inv.total]⟩
  · rw [map_append, map_singleton, ← concat_eq_append, nodup_concat, mem_map]
    refine ⟨?_, inv.rows⟩
    rintro ⟨other, member, eq⟩
    have absent := find?_eq_none.mp missing other member
    simp [eq] at absent
  exact forall_mem_append.mpr ⟨inv.ok, forall_mem_singleton.mpr ok⟩

lemma purge (named : name ≠ []) (missing : ∀ row ∈ perms, row.account ≠ name) :
    PermsInv (fun other => P other ∧ other ≠ name) (purgePeerAclRefs perms name) mapTotal := by
  unfold purgePeerAclRefs
  by_cases star : name = [chStar]
  · rw [if_pos (.inr star)]
    refine ⟨inv.rows, fun row mem => ?_, inv.total⟩
    have ok := inv.ok row mem
    refine ⟨ok.nonempty, ⟨ok.owner, missing row mem⟩, fun peer named => ?_⟩
    by_cases wild : peer = [chStar]
    · exact .inl wild
    exact .inr ⟨(ok.peers peer named).resolve_left wild, star ▸ wild⟩
  rw [if_neg (by simp [named, star])]
  set keep : CmqAccountPerms → Option CmqAccountPerms := fun row =>
    if row.account = name then some row
    else if (row.without name).isEmpty then none else some (row.without name) with keepEq
  have kept : (((perms.filterMap keep).map (·.account)).Sublist (perms.map (·.account))) ∧
      (((perms.filterMap keep).map fun row => row.maps.length).sum =
        (perms.map fun row => row.maps.length).sum) := by
    clear inv
    induction perms with
    | nil => simp
    | cons row perms ih =>
      obtain ⟨sub, sum⟩ := ih fun other mem => missing other (mem_cons_of_mem row mem)
      have other : row.account ≠ name := missing row mem_cons_self
      cases left : (row.without name).isEmpty with
      | true =>
        have maps : row.maps = [] := by
          simp [CmqAccountPerms.isEmpty] at left
          exact left.2
        rw [filterMap_cons_none (by simp [keepEq, other, left])]
        exact ⟨sub.cons _, by simp [maps, sum]⟩
      | false =>
        rw [filterMap_cons_some (b := row.without name) (by simp [keepEq, other, left])]
        exact ⟨sub.cons_cons _, by simp [sum, CmqAccountPerms.without]⟩
  refine ⟨inv.rows.sublist kept.1, fun row mem => ?_, inv.total.trans kept.2.symm⟩
  obtain ⟨old, mem, keeps⟩ := mem_filterMap.mp mem
  have other : old.account ≠ name := missing old mem
  have ok := inv.ok old mem
  simp only [keepEq, if_neg other] at keeps
  split at keeps
  · cases keeps
  next left =>
  cases keeps
  refine ⟨by simpa using left, ⟨ok.owner, other⟩, fun peer named => ?_⟩
  have both : peer ∈ old.peers ∧ peer ≠ name := by
    simp only [CmqAccountPerms.peers, CmqAccountPerms.without, mem_append, mem_map,
      mem_filter, bne_iff_ne] at named ⊢
    rcases named with ⟨rule, ⟨mem, away⟩, rfl⟩ | ⟨rule, ⟨mem, away⟩, rfl⟩
    · exact ⟨.inl ⟨rule, mem, rfl⟩, away⟩
    exact ⟨.inr ⟨rule, mem, rfl⟩, away⟩
  exact (ok.peers peer both.1).imp_right fun passes => ⟨passes, both.2⟩

end

section

variable (inv : PermsInv P mgr.perms mgr.mapTotal)
include inv

lemma drop (named : name ≠ []) :
    PermsInv (fun other => P other ∧ other ≠ name) (mgr.dropPerms name).perms
      (mgr.dropPerms name).mapTotal := by
  unfold CmqAccountManager.dropPerms findPerms
  cases found : mgr.perms.find? fun row => row.account == name with
  | none =>
    rw [editFirst_of_find?_eq_none _ found]
    exact inv.purge named (by simpa using found)
  | some row =>
    have cleared := inv.edit found [] (by simp) (by simp)
    refine cleared.purge named fun other mem same => ?_
    obtain ⟨_, _, eq, -, edited⟩ := editFirst_of_find? (fun _ => []) found
    rw [edited] at mem
    have rows := inv.rows
    obtain ⟨-, rfl⟩ := account_of_find name found
    rw [eq, map_append, map_cons, nodup_middle, nodup_cons] at rows
    rw [← map_append] at rows
    exact rows.1 (same ▸ mem_map_of_mem mem)

lemma addRule (owner : P account) (adds : CmqAccountPerms.Adds add peers)
    (ok : ∀ peer ∈ peers, peer = [chStar] ∨ P peer) :
    PermsInv P (mgr.addRule account add).1.perms (mgr.addRule account add).1.mapTotal := by
  unfold CmqAccountManager.addRule
  cases found : findPerms mgr account with
  | some row =>
    obtain ⟨mem, rfl⟩ := account_of_find account found
    dsimp only
    cases added : add row with
    | none => exact inv
    | some changed =>
      have same := adds.account row changed added
      refine inv.edit found [changed] (Nat.le_refl 1) fun _ single => ?_
      obtain rfl := mem_singleton.mp single
      refine ⟨same, adds.nonempty row _ added, same ▸ owner, fun peer named => ?_⟩
      exact (adds.peers row _ added peer named).elim ((inv.ok row mem).peers peer) (ok peer)
  | none =>
    have rows : (mgr.perms.filter fun row => !row.isEmpty) = mgr.perms :=
      filter_eq_self.mpr fun row mem => by simp [(inv.ok row mem).nonempty]
    simp only [rows]
    split
    · exact inv
    cases added : add ⟨account, [], [], []⟩ with
    | none => exact absurd added (adds.fresh account)
    | some changed =>
      have same := adds.account _ changed added
      refine inv.append (same.symm ▸ found)
        ⟨adds.nonempty _ _ added, same ▸ owner, fun peer named => ?_⟩
      refine (adds.peers _ _ added peer named).elim (fun old => ?_) (ok peer)
      cases old

lemma removeRules (account : Bytes) {remove : CmqAccountPerms → CmqAccountPerms}
    (removes : ∀ row, (remove row).account = row.account ∧
      ∀ peer ∈ (remove row).peers, peer ∈ row.peers) :
    PermsInv P (mgr.removeRules account remove).1.perms
      (mgr.removeRules account remove).1.mapTotal := by
  unfold CmqAccountManager.removeRules
  cases found : findPerms mgr account with
  | none => exact inv
  | some row =>
    obtain ⟨mem, rfl⟩ := account_of_find account found
    have ok := inv.ok row mem
    obtain ⟨same, peers⟩ := removes row
    dsimp only
    split
    · exact inv
    refine inv.edit found _ (by split <;> simp) fun _ kept => ?_
    split at kept
    · cases kept
    next left =>
    obtain rfl := mem_singleton.mp kept
    refine ⟨same, by simpa using left, same ▸ ok.owner, fun peer named => ?_⟩
    exact ok.peers peer (peers peer named)

end

end PermsInv

/-! ## Accounts -/

/-- Names are different and not empty. -/
structure NamesInv (accounts : List CmqAccount) : Prop where
  names : (accounts.map (·.name)).Nodup
  named : ∀ account ∈ accounts, account.name ≠ []

variable {accounts : List CmqAccount} {p : CmqAccount → Bool} {old : CmqAccount} {name : Bytes}

lemma NamesInv.edit (inv : NamesInv accounts) (found : accounts.find? p = some old)
    (change : CmqAccount → CmqAccount) (named : (change old).name ≠ [])
    (new : (change old).name = old.name ∨ ∀ account ∈ accounts, account.name ≠ (change old).name) :
    NamesInv (accounts.editFirst p fun account => [change account]) := by
  obtain ⟨_, _, rfl, -, edited⟩ :=
    editFirst_of_find? (fun account => [change account]) found
  obtain ⟨names, others⟩ := inv
  rw [edited, singleton_append]
  simp only [map_append, map_cons, nodup_middle, nodup_cons, mem_append,
    mem_map, mem_cons] at names others new
  constructor
  · simp only [map_append, map_cons, nodup_middle, nodup_cons, mem_append, mem_map]
    refine ⟨?_, names.2⟩
    rintro (⟨account, mem, eq⟩ | ⟨account, mem, eq⟩)
    · rcases new with same | new
      · exact names.1 (.inl ⟨account, mem, eq.trans same⟩)
      exact new account (.inl mem) eq
    rcases new with same | new
    · exact names.1 (.inr ⟨account, mem, eq.trans same⟩)
    exact new account (.inr (.inr mem)) eq
  exact forall_mem_append.mpr ⟨fun account mem => others account (.inl mem),
    forall_mem_cons.mpr ⟨named, fun account mem => others account (.inr (.inr mem))⟩⟩

lemma any_editFirst (found : accounts.find? p = some old) (change : CmqAccount → List CmqAccount)
    (other : old.isNamed name = false) (active : accounts.any (CmqAccount.isNamed name) = true) :
    (accounts.editFirst p change).any (CmqAccount.isNamed name) = true := by
  obtain ⟨_, _, rfl, -, edited⟩ := editFirst_of_find? change found
  rw [edited]
  simp only [any_append, any_cons, other, Bool.false_or, Bool.or_eq_true] at active ⊢
  exact active.imp_right .inr

namespace CmqAccountManager

lemma isNamed_of_inactive {account : CmqAccount} (inactive : account.active = false) :
    account.isNamed name = false := by
  simp [CmqAccount.isNamed, inactive]

/-- What a call keeps: the names, the active accounts but the lost ones, and the rows for any
set of accounts that has the accounts the call names. -/
structure Keeps (mgr after : CmqAccountManager) (lost : Bytes → Prop)
    (named : List Bytes) : Prop where
  names : NamesInv after.accounts
  active : ∀ name, accountIsActive mgr name = true → ¬ lost name → accountIsActive after name = true
  perms : ∀ P, PermsInv P mgr.perms mgr.mapTotal →
    (∀ name ∈ named, accountIsActive mgr name = true → P name) →
    PermsInv (fun name => P name ∧ ¬ lost name) after.perms after.mapTotal

variable (names : NamesInv mgr.accounts)
include names

lemma Keeps.of_accounts {after : CmqAccountManager} {named : List Bytes}
    (same : after.accounts = mgr.accounts)
    (perms : ∀ P, PermsInv P mgr.perms mgr.mapTotal →
      (∀ name ∈ named, accountIsActive mgr name = true → P name) →
      PermsInv P after.perms after.mapTotal) : mgr.Keeps after (fun _ => False) named :=
  ⟨same ▸ names, fun name active _ => by rwa [accountIsActive, same],
    fun P inv adds => (perms P inv adds).mono fun _ holds => ⟨holds, id⟩⟩

lemma Keeps.refl (named : List Bytes) : mgr.Keeps mgr (fun _ => False) named :=
  .of_accounts names rfl fun _ inv _ => inv

lemma keeps_appendOrReclaim (defaultBytesLive : Nat) (ok : accountNameOk name ≠ false)
    (missing : ∀ account ∈ mgr.accounts, account.name ≠ name) :
    mgr.Keeps (mgr.appendOrReclaim defaultBytesLive name).1 (fun _ => False) [] := by
  have named : name ≠ [] := by
    rintro rfl
    exact ok rfl
  unfold appendOrReclaim
  split
  · cases found : mgr.accounts.find? fun slot => !slot.active with
    | none => exact .refl names _
    | some slot =>
      have inactive : slot.active = false := by simpa using find?_some found
      refine ⟨names.edit found (fun slot => ⟨name, true, accountBumpEpoch slot.epoch, 0, _⟩)
        named (.inr missing), fun other active _ => ?_, fun P inv _ => ?_⟩
      · exact any_editFirst found _ (isNamed_of_inactive inactive) active
      refine (inv.drop (names.named slot (mem_of_find?_eq_some found))).mono ?_
      exact fun _ holds => ⟨holds.1, id⟩
  refine ⟨⟨?_, ?_⟩, fun other active _ => ?_, fun P inv _ => inv.mono fun _ h => ⟨h, id⟩⟩
  · rw [map_append, map_singleton, ← concat_eq_append, nodup_concat, mem_map]
    refine ⟨?_, names.names⟩
    rintro ⟨account, member, eq⟩
    exact missing account member eq
  · exact forall_mem_append.mpr ⟨names.named, forall_mem_singleton.mpr named⟩
  simp only [accountIsActive, any_append] at active ⊢
  exact Bool.or_eq_true _ _ ▸ .inl active

lemma keeps_create (defaultBytesLive : Nat) (name : Bytes) :
    mgr.Keeps (mgr.create defaultBytesLive name).1 (fun _ => False) [] := by
  unfold create
  split
  · exact .refl names _
  next ok =>
  cases found : mgr.accounts.find? fun account => account.name == name with
  | none => exact keeps_appendOrReclaim names defaultBytesLive ok (by simpa using found)
  | some account =>
    dsimp only
    split
    · exact .refl names _
    next inactive =>
    refine ⟨names.edit found (fun account => { account with
      active := true, epoch := accountBumpEpoch account.epoch, bytesLive := 0 })
      (names.named account (mem_of_find?_eq_some found)) (.inl rfl),
      fun _ active _ => ?_, fun P inv _ => inv.mono fun _ h => ⟨h, id⟩⟩
    exact any_editFirst found _ (isNamed_of_inactive (by simpa using inactive)) active

lemma keeps_ensure (defaultBytesLive : Nat) (name : Bytes) :
    mgr.Keeps (mgr.ensure defaultBytesLive name).1 (fun _ => False) [] := by
  unfold ensure
  split
  · exact .refl names _
  next ok =>
  cases found : mgr.accounts.find? fun account => account.name == name with
  | none => exact keeps_appendOrReclaim names defaultBytesLive ok (by simpa using found)
  | some account => exact .refl names _

lemma keeps_delete (name : Bytes) :
    mgr.Keeps (mgr.delete name).1
      (fun other => other = name ∧ accountIsActive mgr name = true) [] := by
  unfold delete
  split
  next active =>
    obtain ⟨account, found⟩ : ∃ account, mgr.accounts.find? (CmqAccount.isNamed name) =
        some account := by
      simpa [accountIsActive, ← find?_isSome, Option.isSome_iff_exists] using active
    have passes := find?_some found
    simp only [CmqAccount.isNamed, Bool.and_eq_true, beq_iff_eq] at passes
    have same : account.name = name := passes.2
    have named := names.named account (mem_of_find?_eq_some found)
    refine ⟨names.edit found (fun account => { account with
      active := false, epoch := accountBumpEpoch account.epoch, bytesLive := 0 })
      named (.inl rfl), fun other holds kept => ?_, fun P inv _ => ?_⟩
    · refine any_editFirst found _ ?_ holds
      have away : name ≠ other := fun eq => kept ⟨eq.symm, active⟩
      simp [CmqAccount.isNamed, same, away]
    exact (inv.drop (same ▸ named)).mono fun _ h => ⟨h.1, fun lost => h.2 lost.1⟩
  next inactive =>
    refine ⟨names, fun _ holds _ => holds, fun P inv _ => inv.mono fun _ h => ⟨h, ?_⟩⟩
    exact fun lost => inactive lost.2

end CmqAccountManager

/-! ## Rules -/

lemma insertRule_spec {ρ : Type} [DecidableEq ρ] {cap : Nat} {rules after : List ρ} {rule : ρ}
    (added : insertRule cap rules rule = some after) :
    after ≠ [] ∧ ∀ other ∈ after, other ∈ rules ∨ other = rule := by
  unfold insertRule at added
  split at added
  next mem =>
    cases added
    exact ⟨ne_nil_of_mem mem, fun _ => .inl⟩
  split at added
  · cases added
  cases added
  exact ⟨by simp, by simp⟩

namespace CmqAccountPerms

lemma Adds.addExport (rule : CmqAccountExport) : Adds (·.addExport rule) [rule.destAccount] := by
  refine ⟨by simp [CmqAccountPerms.addExport, insertRule, cmqAccountMaxExports], ?_, ?_, ?_⟩ <;>
    intro _ _ added <;>
    obtain ⟨_, inserted, rfl⟩ := Option.map_eq_some_iff.mp added <;>
    obtain ⟨nonempty, members⟩ := insertRule_spec inserted
  · rfl
  · simp [isEmpty, nonempty]
  intro _ named
  simp only [CmqAccountPerms.peers, mem_append, mem_map, mem_singleton] at named ⊢
  rcases named with ⟨other, mem, rfl⟩ | old
  · exact (members other mem).imp (fun old => .inl ⟨other, old, rfl⟩) fun eq => congrArg _ eq
  exact .inl (.inr old)

lemma Adds.addImport (rule : CmqAccountImport) :
    Adds (·.addImport rule) [rule.sourceAccount] := by
  refine ⟨by simp [CmqAccountPerms.addImport, insertRule, cmqAccountMaxImports], ?_, ?_, ?_⟩ <;>
    intro _ _ added <;>
    obtain ⟨_, inserted, rfl⟩ := Option.map_eq_some_iff.mp added <;>
    obtain ⟨nonempty, members⟩ := insertRule_spec inserted
  · rfl
  · simp [isEmpty, nonempty]
  intro _ named
  simp only [CmqAccountPerms.peers, mem_append, mem_map, mem_singleton] at named ⊢
  rcases named with old | ⟨other, mem, rfl⟩
  · exact .inl (.inl old)
  exact (members other mem).imp (fun old => .inr ⟨other, old, rfl⟩) fun eq => congrArg _ eq

lemma Adds.addMap (rule : CmqAccountMap) : Adds (·.addMap rule) [] := by
  have changes : ∀ row changed : CmqAccountPerms, row.addMap rule = some changed →
      changed.isEmpty = false ∧ ∃ maps, changed = { row with maps } := by
    intro row changed added
    unfold CmqAccountPerms.addMap at added
    split at added
    next held =>
      cases added
      rw [any_eq_true, ← find?_isSome, Option.isSome_iff_exists] at held
      obtain ⟨_, found⟩ := held
      obtain ⟨_, _, -, -, edited⟩ := editFirst_of_find? (fun _ => [rule]) found
      exact ⟨by simp [isEmpty, edited], _, rfl⟩
    split at added
    · cases added
    cases added
    exact ⟨by simp [isEmpty], _, rfl⟩
  refine ⟨by simp [CmqAccountPerms.addMap, cmqAccountMaxMaps], fun row changed added => ?_,
    fun row changed added => (changes row changed added).1, fun row changed added _ named => ?_⟩
  · obtain ⟨-, maps, rfl⟩ := changes row changed added
    rfl
  obtain ⟨-, maps, rfl⟩ := changes row changed added
  exact .inl named

end CmqAccountPerms

/-- The accounts an adding call names, as the owner or a peer of its rule. -/
def AccountCall.named : AccountCall → List Bytes
  | .addExport account rule => [account, rule.destAccount]
  | .addImport account rule => [account, rule.sourceAccount]
  | .addMap account _ => [account]
  | _ => []

def AccountCall.lost (mgr : CmqAccountManager) : AccountCall → Bytes → Prop
  | .delete name, other => other = name ∧ accountIsActive mgr name = true
  | _, _ => False

namespace CmqAccountManager

lemma accounts_addRule (mgr : CmqAccountManager) (account : Bytes)
    (add : CmqAccountPerms → Option CmqAccountPerms) :
    (mgr.addRule account add).1.accounts = mgr.accounts := by
  unfold addRule
  cases findPerms mgr account with
  | some row =>
    dsimp only
    cases add row <;> rfl
  | none =>
    dsimp only
    cases add ⟨account, [], [], []⟩ <;> split_ifs <;> rfl

lemma accounts_removeRules (mgr : CmqAccountManager) (account : Bytes)
    (remove : CmqAccountPerms → CmqAccountPerms) :
    (mgr.removeRules account remove).1.accounts = mgr.accounts := by
  unfold removeRules
  cases findPerms mgr account with
  | none => rfl
  | some =>
    dsimp only
    split <;> rfl

section

variable (names : NamesInv mgr.accounts)
include names

lemma keeps_removeRules (account : Bytes) (remove : CmqAccountPerms → CmqAccountPerms)
    (removes : ∀ row, (remove row).account = row.account ∧
      ∀ peer ∈ (remove row).peers, peer ∈ row.peers) :
    mgr.Keeps (mgr.removeRules account remove).1 (fun _ => False) [] :=
  .of_accounts names (mgr.accounts_removeRules account remove)
    fun _ inv _ => inv.removeRules account removes

lemma keeps_addRule (adds : CmqAccountPerms.Adds add peers)
    (active : accountIsActive mgr account = true)
    (ok : ∀ peer ∈ peers, peerAccountOk mgr peer = true) :
    mgr.Keeps (mgr.addRule account add).1 (fun _ => False) (account :: peers) := by
  refine .of_accounts names (mgr.accounts_addRule account add) fun P inv holds => ?_
  refine inv.addRule (holds account mem_cons_self active) adds fun peer mem => ?_
  have passes := ok peer mem
  simp only [peerAccountOk, Bool.or_eq_true, decide_eq_true_eq] at passes
  exact passes.imp_right (holds peer (mem_cons_of_mem account mem))

lemma keeps_call (call : AccountCall) :
    mgr.Keeps (mgr.call call).1 (call.lost mgr) call.named := by
  cases call with
  | create defaultBytesLive name => exact keeps_create names defaultBytesLive name
  | ensure defaultBytesLive name => exact keeps_ensure names defaultBytesLive name
  | delete name => exact keeps_delete names name
  | addExport account rule =>
    rw [CmqAccountManager.call]
    split
    next ok =>
      simp only [Bool.and_eq_true] at ok
      exact keeps_addRule names (.addExport rule) ok.1.2 (by simpa using ok.2)
    exact .refl names _
  | addImport account rule =>
    rw [CmqAccountManager.call]
    split
    next ok =>
      simp only [Bool.and_eq_true] at ok
      exact keeps_addRule names (.addImport rule) ok.1.2 (by simpa using ok.2)
    exact .refl names _
  | addMap account rule =>
    rw [CmqAccountManager.call]
    split
    next ok =>
      simp only [Bool.and_eq_true] at ok
      exact keeps_addRule names (.addMap rule) ok.2 (by simp)
    exact .refl names _
  | removeExport account subject =>
    refine keeps_removeRules names account _ fun row => ⟨rfl, fun peer named => ?_⟩
    simp only [CmqAccountPerms.peers, mem_append, mem_map, mem_filter] at named ⊢
    exact named.imp_left fun ⟨rule, mem, eq⟩ => ⟨rule, mem.1, eq⟩
  | removeImport account subject =>
    refine keeps_removeRules names account _ fun row => ⟨rfl, fun peer named => ?_⟩
    simp only [CmqAccountPerms.peers, mem_append, mem_map, mem_filter] at named ⊢
    exact named.imp_right fun ⟨rule, mem, eq⟩ => ⟨rule, mem.1, eq⟩
  | removeMap account => exact keeps_removeRules names account _ fun row => ⟨rfl, fun _ => id⟩

end

/-- The rows and their peers are active accounts. -/
structure Inv (mgr : CmqAccountManager) : Prop where
  names : NamesInv mgr.accounts
  perms : PermsInv (fun name => accountIsActive mgr name = true) mgr.perms mgr.mapTotal

lemma Inv.call (inv : mgr.Inv) (call : AccountCall) : (mgr.call call).1.Inv := by
  have keeps := keeps_call inv.names call
  refine ⟨keeps.names, (keeps.perms _ inv.perms fun _ _ active => active).mono ?_⟩
  exact fun name holds => keeps.active name holds.1 holds.2

lemma inv_run (calls : List AccountCall) : (run calls).Inv := by
  refine foldlRecOn calls _ ⟨⟨nodup_nil, by simp⟩, ⟨nodup_nil, by simp, rfl⟩⟩ ?_
  exact fun _ inv call _ => inv.call call

/-- After any calls there is one row per account, no row is empty, rows and peers are active
accounts and `map_total` is the number of maps.  A deleted account has no row and is named in
none until a call adds a rule that names it, whether or not it is created again. -/
theorem run_registry (calls more : List AccountCall) (name : Bytes) (other : name ≠ [chStar])
    (unadded : ∀ call ∈ more, name ∉ call.named) :
    (((run calls).perms.map (·.account)).Nodup ∧ (∀ row ∈ (run calls).perms, row.isEmpty = false ∧
        accountIsActive (run calls) row.account = true ∧
        ∀ peer ∈ row.peers, peer = [chStar] ∨ accountIsActive (run calls) peer = true) ∧
      (run calls).mapTotal = ((run calls).perms.map fun row => row.maps.length).sum) ∧
    ∀ row ∈ (run (calls ++ .delete name :: more)).perms, row.account ≠ name ∧ name ∉ row.peers := by
  have inv := inv_run calls
  refine ⟨⟨inv.perms.rows, fun row mem => ?_, inv.perms.total⟩, ?_⟩
  · exact ⟨(inv.perms.ok row mem).nonempty, (inv.perms.ok row mem).owner,
      (inv.perms.ok row mem).peers⟩
  -- the rows stay outside the account from the deletion on
  suffices outside : ∀ mgr : CmqAccountManager, mgr.Inv →
      PermsInv (· ≠ name) mgr.perms mgr.mapTotal →
      PermsInv (· ≠ name) (Runs.after call mgr more).perms (Runs.after call mgr more).mapTotal by
    have deleted := (keeps_delete inv.names name).perms _ inv.perms (by simp)
    intro row mem
    have ok := (outside _ (inv.call (.delete name)) (deleted.mono fun holder holds same => ?_)).ok
      row (by simpa [run, Runs.after] using mem)
    · exact ⟨ok.owner, fun named => (ok.peers name named).elim other fun differs => differs rfl⟩
    exact holds.2 ⟨same, same ▸ holds.1⟩
  induction more with
  | nil => exact fun _ _ outside => outside
  | cons call more ih =>
    intro mgr inv outside
    refine ih (fun later mem => unadded later (mem_cons_of_mem call mem)) _ (inv.call call) ?_
    refine ((keeps_call inv.names call).perms _ outside fun holder named _ => ?_).mono
      fun _ holds => holds.1
    rintro rfl
    exact unadded call mem_cons_self named

theorem run_registry_again :
    let mgr := run ([.create 0 (cstr "a"), .create 0 (cstr "b"),
      .addExport (cstr "b") ⟨cstr "x", cstr "a"⟩, .addExport (cstr "b") ⟨cstr "y", cstr "b"⟩] ++
        .delete (cstr "a") :: [.create 0 (cstr "a")])
    mgr.perms.length = 1 ∧ ∀ row ∈ mgr.perms, row.account ≠ cstr "a" ∧ cstr "a" ∉ row.peers :=
  ⟨by decide +kernel, (run_registry _ _ (cstr "a") (by decide) (by decide)).2⟩

/-- Rules for every account still name an account called `*` that is deleted and created again. -/
theorem star_named_again : ∃ row ∈ (run [.create 0 [chStar], .create 0 (cstr "b"),
    .addExport (cstr "b") ⟨cstr "x", [chStar]⟩, .delete [chStar], .create 0 [chStar]]).perms,
      [chStar] ∈ row.peers := by
  decide +kernel

end CmqAccountManager

/-- `cmq_account_delete` does to the accounts with their counters what it does to the registry. -/
lemma mgr_cmqAccountDelete (table : SubAccounts) (name : Bytes) :
    (cmqAccountDelete table name).mgr = (table.mgr.delete name).1 := by
  have erased : ∀ rows : List CmqAccountPerms, (rows.eraseP fun row => row.account == name) =
      rows.editFirst (·.account == name) fun _ => [] := by
    intro rows
    induction rows with
    | nil => rfl
    | cons row rows ih => cases same : row.account == name <;> simp [editFirst, same, ih]
  have edited : ∀ (accounts : List SubAccount) (slot : Nat),
      (accounts.findIdx? fun account => account.toCmqAccount.isNamed name) = some slot →
      (accounts.modify slot fun account => { account with
          active := false, epoch := accountBumpEpoch account.epoch, bytesLive := 0,
          subscriptions := 0 }).map SubAccount.toCmqAccount =
        (accounts.map SubAccount.toCmqAccount).editFirst (CmqAccount.isNamed name) fun account =>
          [{ account with
            active := false, epoch := accountBumpEpoch account.epoch, bytesLive := 0 }] := by
    intro accounts
    induction accounts with
    | nil => intro _ found; cases found
    | cons account accounts ih =>
      intro slot found
      rw [findIdx?_cons] at found
      split at found
      next named =>
        cases found
        simp [editFirst, named]
      next other =>
        obtain ⟨before, earlier, rfl⟩ := Option.map_eq_some_iff.mp found
        simp [editFirst, other, ih before earlier]
  have active : accountIsActive table.mgr name =
      (table.accounts.findIdx? fun account => account.toCmqAccount.isNamed name).isSome := by
    simp [accountIsActive, SubAccounts.mgr, any_map, Function.comp_def]
  rw [cmqAccountDelete, CmqAccountManager.delete, active]
  cases found : table.accounts.findIdx? fun account => account.toCmqAccount.isNamed name with
  | none => rfl
  | some slot => simp [SubAccounts.mgr, CmqAccountManager.dropPerms, edited _ _ found, erased,
      findPerms]

end CMsgQueue.Enterprise
