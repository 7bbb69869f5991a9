import CMsgQueue.Enterprise.AccountSubs
import CMsgQueue.Lib.EditFirst
import CMsgQueue.Lib.Runs

/-!
# The calls of the account registry

Creation, soft deletion and reactivation of accounts, and the calls that add and remove their
export, import and map rules.
-/

namespace CMsgQueue.Enterprise

open Tokens Server

/-- `CMQ_ACCOUNT_MAX`. -/
def cmqAccountMax : Nat := 128
/-- `CMQ_ACCOUNT_MAX_EXPORTS`. -/
def cmqAccountMaxExports : Nat := 32
/-- `CMQ_ACCOUNT_MAX_IMPORTS`. -/
def cmqAccountMaxImports : Nat := 32
/-- `CMQ_ACCOUNT_MAX_MAPS`. -/
def cmqAccountMaxMaps : Nat := 16
/-- `CMQ_ACCOUNT_SUBJECT_SIZE`. -/
def cmqAccountSubjectSize : Nat := 256

/-- `account_name_ok`. -/
def accountNameOk (name : Bytes) : Bool := 0 < name.length && name.length < cmqAccountNameSize

namespace CmqAccountManager

/-- `clear_account_perms_unlocked` and then `purge_peer_acl_refs_unlocked`. -/
def dropPerms (mgr : CmqAccountManager) (name : Bytes) : CmqAccountManager where
  accounts := mgr.accounts
  perms := purgePeerAclRefs (mgr.perms.editFirst (·.account == name) fun _ => []) name
  mapTotal := mgr.mapTotal - (findPerms mgr name).elim 0 fun row => row.maps.length

/-- The end of `account_create_impl` and `account_ensure_impl`, for a name that is not in the
table: a new slot, or the first inactive one when there is no more room. -/
def appendOrReclaim (mgr : CmqAccountManager) (defaultBytesLive : Nat) (name : Bytes) :
    CmqAccountManager × Int :=
  if mgr.accounts.length ≥ cmqAccountMax then
    match mgr.accounts.find? fun slot => !slot.active with
    | none => (mgr, -1)
    | some slot =>
      ({ mgr.dropPerms slot.name with
          accounts := mgr.accounts.editFirst (fun slot => !slot.active) fun slot =>
            [⟨name, true, accountBumpEpoch slot.epoch, 0, defaultBytesLive⟩] }, 0)
  else ({ mgr with accounts := mgr.accounts ++ [⟨name, true, 1, 0, defaultBytesLive⟩] }, 0)

/-- `account_create_impl`. -/
def create (mgr : CmqAccountManager) (defaultBytesLive : Nat) (name : Bytes) :
    CmqAccountManager × Int :=
  if accountNameOk name = false then (mgr, -1)
  else
    match mgr.accounts.find? fun account => account.name == name with
    | none => mgr.appendOrReclaim defaultBytesLive name
    | some account =>
      if account.active then (mgr, 0)
      else
        ({ mgr with
            accounts := mgr.accounts.editFirst (·.name == name) fun account =>
              [{ account with
                active := true, epoch := accountBumpEpoch account.epoch, bytesLive := 0 }] }, 0)

/-- `account_ensure_impl`. -/
def ensure (mgr : CmqAccountManager) (defaultBytesLive : Nat) (name : Bytes) :
    CmqAccountManager × Int :=
  if accountNameOk name = false then (mgr, -1)
  else
    match mgr.accounts.find? fun account => account.name == name with
    | none => mgr.appendOrReclaim defaultBytesLive name
    | some account => (mgr, if account.active then 0 else -1)

/-- `account_delete_impl`. -/
def delete (mgr : CmqAccountManager) (name : Bytes) : CmqAccountManager × Int :=
  if accountIsActive mgr name then
    ({ mgr.dropPerms name with
        accounts := mgr.accounts.editFirst (CmqAccount.isNamed name) fun account =>
          [{ account with
            active := false, epoch := accountBumpEpoch account.epoch, bytesLive := 0 }] }, 0)
  else (mgr, -1)

end CmqAccountManager

def wholeToken (wildcard : UInt8) (token : Bytes) : Bool :=
  token = [wildcard] || !token.contains wildcard

/-- `acl_subject_ok`. -/
def aclSubjectOk (subject : Bytes) : Bool :=
  0 < subject.length && subject.length < 256 &&
    ((tokens chDot subject).all fun token =>
      token != [] && wholeToken chGt token && wholeToken chStar token) &&
    !(tokens chDot subject).dropLast.contains [chGt]

/-- `dest_template_ok` with the counts of `count_src_wildcards`. -/
def destTemplateOk (dest src : Bytes) : Bool :=
  let nstar := (tokens chDot src).count [chStar]
  let parts := tokens chDot dest
  0 < dest.length && dest.length < cmqAccountSubjectSize &&
    (parts.all fun token =>
      token != [] && (token == [chGt] || token == [chStar] || (refIndex token).isSome ||
        !token.contains chGt && !token.contains chStar && !token.contains chDollar)) &&
    !parts.dropLast.contains [chGt] &&
    (!parts.contains [chGt] || (tokens chDot src).contains [chGt]) &&
    parts.count [chStar] ≤ nstar &&
    parts.all fun token => (refIndex token).all (· < nstar)

/-- `peer_account_ok`. -/
def peerAccountOk (mgr : CmqAccountManager) (name : Bytes) : Bool :=
  name = [chStar] || accountIsActive mgr name

namespace CmqAccountManager

/-- A row is replaced, dropped or added, and `map_total` follows. -/
def writePerms (mgr : CmqAccountManager) (row : CmqAccountPerms) (rows : List CmqAccountPerms) :
    CmqAccountManager :=
  { mgr with
    perms := mgr.perms.editFirst (·.account == row.account) fun _ => rows
    mapTotal := mgr.mapTotal - row.maps.length + (rows.map fun row => row.maps.length).sum }

/-- An added rule goes to the row of the account, which is made by `find_or_create_perms` when
there is none; `add` refuses at the cap. -/
def addRule (mgr : CmqAccountManager) (account : Bytes)
    (add : CmqAccountPerms → Option CmqAccountPerms) : CmqAccountManager × Int :=
  match findPerms mgr account with
  | some row =>
    match add row with
    | none => (mgr, -1)
    | some changed => (mgr.writePerms row [changed], 0)
  | none =>
    let perms := if mgr.perms.length ≥ cmqAccountMax then
      mgr.perms.filter fun row => !row.isEmpty else mgr.perms
    if perms.length ≥ cmqAccountMax then ({ mgr with perms }, -1)
    else
      match add ⟨account, [], [], []⟩ with
      | none => ({ mgr with perms := perms ++ [⟨account, [], [], []⟩] }, -1)
      | some row =>
        ({ mgr with perms := perms ++ [row], mapTotal := mgr.mapTotal + row.maps.length }, 0)

/-- Rules are removed from the row of the account, and the row when it has none left. -/
def removeRules (mgr : CmqAccountManager) (account : Bytes)
    (remove : CmqAccountPerms → CmqAccountPerms) : CmqAccountManager × Int :=
  match findPerms mgr account with
  | none => (mgr, -1)
  | some row =>
    if remove row = row then (mgr, -1)
    else (mgr.writePerms row (if (remove row).isEmpty then [] else [remove row]), 0)

end CmqAccountManager

/-- The insertion of `account_add_export_impl` and `account_add_import_impl`. -/
def insertRule {ρ : Type} [DecidableEq ρ] (cap : Nat) (rules : List ρ) (rule : ρ) :
    Option (List ρ) :=
  if rule ∈ rules then some rules
  else if rules.length ≥ cap then none
  else some (rules ++ [rule])

namespace CmqAccountPerms

def addExport (row : CmqAccountPerms) (rule : CmqAccountExport) : Option CmqAccountPerms :=
  (insertRule cmqAccountMaxExports row.exports rule).map fun exports => { row with exports }

def addImport (row : CmqAccountPerms) (rule : CmqAccountImport) : Option CmqAccountPerms :=
  (insertRule cmqAccountMaxImports row.imports rule).map fun imports => { row with imports }

/-- The insertion of `account_add_map_impl`: a map of the same source gets a new destination. -/
def addMap (row : CmqAccountPerms) (rule : CmqAccountMap) : Option CmqAccountPerms :=
  if row.maps.any (·.src == rule.src) then
    some { row with maps := row.maps.editFirst (·.src == rule.src) fun _ => [rule] }
  else if row.maps.length ≥ cmqAccountMaxMaps then none
  else some { row with maps := row.maps ++ [rule] }

end CmqAccountPerms

/-- A call of the registry; `create` and `ensure` also read the default of `max_bytes_live`. -/
inductive AccountCall
  | create (defaultBytesLive : Nat) (name : Bytes)
  | ensure (defaultBytesLive : Nat) (name : Bytes)
  | delete (name : Bytes)
  | addExport (account : Bytes) (rule : CmqAccountExport)
  | removeExport (account subject : Bytes)
  | addImport (account : Bytes) (rule : CmqAccountImport)
  | removeImport (account subject : Bytes)
  | addMap (account : Bytes) (rule : CmqAccountMap)
  | removeMap (account src : Bytes)
  deriving DecidableEq

namespace CmqAccountManager

def call (mgr : CmqAccountManager) : AccountCall → CmqAccountManager × Int
  | .create defaultBytesLive name => mgr.create defaultBytesLive name
  | .ensure defaultBytesLive name => mgr.ensure defaultBytesLive name
  | .delete name => mgr.delete name
  | .addExport account rule =>
    if accountNameOk account && aclSubjectOk rule.subject && accountNameOk rule.destAccount &&
        accountIsActive mgr account && peerAccountOk mgr rule.destAccount then
      mgr.addRule account (·.addExport rule)
    else (mgr, -1)
  | .removeExport account subject =>
    mgr.removeRules account fun row =>
      { row with exports := row.exports.filter (·.subject != subject) }
  | .addImport account rule =>
    if accountNameOk account && aclSubjectOk rule.subject && accountNameOk rule.sourceAccount &&
        accountIsActive mgr account && peerAccountOk mgr rule.sourceAccount then
      mgr.addRule account (·.addImport rule)
    else (mgr, -1)
  | .removeImport account subject =>
    mgr.removeRules account fun row =>
      { row with imports := row.imports.filter (·.subject != subject) }
  | .addMap account rule =>
    if accountNameOk account && aclSubjectOk rule.src && destTemplateOk rule.dest rule.src &&
        accountIsActive mgr account then
      mgr.addRule account (·.addMap rule)
    else (mgr, -1)
  | .removeMap account src =>
    mgr.removeRules account fun row => { row with maps := row.maps.filter (·.src != src) }

def run (calls : List AccountCall) : CmqAccountManager :=
  Runs.after call ⟨[], [], 0⟩ calls

end CmqAccountManager

end CMsgQueue.Enterprise
