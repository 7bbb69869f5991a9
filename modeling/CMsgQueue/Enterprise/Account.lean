import CMsgQueue.Server.Subject

/-!
# Accounts

The account registry of `enterprise/cmq_account.c`.  Every function runs under the registry's
lock and is modelled as one call.
-/

namespace CMsgQueue.Enterprise

open Tokens Server

/-- `CMQ_ACCOUNT_NAME_SIZE`. -/
def cmqAccountNameSize : Nat := 64
/-- `CMQ_ACCOUNT_MAP_CAPS`. -/
def cmqAccountMapCaps : Nat := 8
/-- The character `'$'`. -/
def chDollar : UInt8 := 0x24

/-- `cmq_account_t`. -/
structure CmqAccount where
  name : Bytes
  active : Bool
  epoch : Nat
  bytesLive : Nat
  maxBytesLive : Nat
  deriving DecidableEq

/-- `cmq_account_export_t`. -/
structure CmqAccountExport where
  subject : Bytes
  destAccount : Bytes
  deriving DecidableEq

/-- `cmq_account_import_t`. -/
structure CmqAccountImport where
  subject : Bytes
  sourceAccount : Bytes
  deriving DecidableEq

/-- `cmq_account_map_t`. -/
structure CmqAccountMap where
  src : Bytes
  dest : Bytes
  deriving DecidableEq

/-- `cmq_account_perms_t`. -/
structure CmqAccountPerms where
  account : Bytes
  exports : List CmqAccountExport
  imports : List CmqAccountImport
  maps : List CmqAccountMap
  deriving DecidableEq

/-- `struct cmq_account_manager`. -/
structure CmqAccountManager where
  accounts : List CmqAccount
  perms : List CmqAccountPerms
  mapTotal : Nat
  deriving DecidableEq

/-- The test of the lookup loops: an active account of that name. -/
def CmqAccount.isNamed (name : Bytes) (account : CmqAccount) : Bool :=
  account.active && account.name == name

/-- `account_is_active`. -/
def accountIsActive (mgr : CmqAccountManager) (name : Bytes) : Bool :=
  mgr.accounts.any (CmqAccount.isNamed name)

/-- `cmq_account_get`. -/
def cmqAccountGet (mgr : CmqAccountManager) (name : Bytes) : Option CmqAccount :=
  if name.length ≥ cmqAccountNameSize then none
  else mgr.accounts.find? (CmqAccount.isNamed name)

/-- Writing through the pointer that `cmq_account_get` returns. -/
def CmqAccountManager.update (mgr : CmqAccountManager) (name : Bytes)
    (change : CmqAccount → CmqAccount) : CmqAccountManager :=
  { mgr with
    accounts := mgr.accounts.modify (mgr.accounts.findIdx (CmqAccount.isNamed name)) change }

/-- `find_perms`. -/
def findPerms (mgr : CmqAccountManager) (account : Bytes) : Option CmqAccountPerms :=
  mgr.perms.find? fun perms => perms.account == account

/-- `acct_eq_or_star`. -/
def acctEqOrStar (rule actual : Bytes) : Bool := rule == [chStar] || rule == actual

/-- The export allow list: an account without exports may publish anything. -/
def exportAllowed (perms : Option CmqAccountPerms) (subject : Bytes) : Bool :=
  match perms with
  | none => true
  | some perms =>
    perms.exports.isEmpty || perms.exports.any fun rule => subjectMatch rule.subject subject

/-- `cmq_account_can_export`. -/
def cmqAccountCanExport (mgr : CmqAccountManager) (account subject : Bytes) : Bool :=
  accountIsActive mgr account && exportAllowed (findPerms mgr account) subject

/-- `strncmp(subject, "_INBOX.", 7) == 0`. -/
def isInbox (subject : Bytes) : Bool := (cstr "_INBOX.").isPrefixOf subject

/-- `cmq_account_may_deliver`. -/
def cmqAccountMayDeliver (mgr : CmqAccountManager) (pubAccount subAccount subject : Bytes) :
    Bool :=
  if !accountIsActive mgr pubAccount || !accountIsActive mgr subAccount then false
  else if pubAccount == subAccount then
    isInbox subject || exportAllowed (findPerms mgr pubAccount) subject
  else
    let exportOk := match findPerms mgr pubAccount with
      | none => false
      | some pub => pub.exports.any fun rule =>
        subjectMatch rule.subject subject && acctEqOrStar rule.destAccount subAccount
    let importOk := match findPerms mgr subAccount with
      | none => false
      | some sub => sub.imports.any fun rule =>
        subjectMatch rule.subject subject && acctEqOrStar rule.sourceAccount pubAccount
    exportOk && importOk

/-- The loop of `pattern_wildcard_only`; every iteration consumes a token. -/
def wildcardOnlyLoop : Nat → Bytes → Bool
  | 0, _ => false
  | fuel + 1, p =>
    if p = [] then true
    else if head chDot p ≠ [chStar] ∧ head chDot p ≠ [chGt] then false
    else if head chDot p = [chGt] ∧ rest chDot p ≠ [] then false
    else wildcardOnlyLoop fuel (tail chDot p)

/-- `pattern_wildcard_only`. -/
def patternWildcardOnly (pattern : Bytes) : Bool :=
  if pattern = [] then false else wildcardOnlyLoop (pattern.length + 1) pattern

def CmqAccountPerms.exportsTo (row : CmqAccountPerms) (account subject : Bytes) : Bool :=
  row.exports.any fun rule =>
    subjectMatch rule.subject subject && acctEqOrStar rule.destAccount account

/-- `export_offered_to`. -/
def exportOfferedTo (mgr : CmqAccountManager) (account subject : Bytes) : Bool :=
  mgr.perms.any fun row => row.account != account && row.exports.any fun rule =>
    !patternWildcardOnly rule.subject && subjectMatch rule.subject subject &&
      acctEqOrStar rule.destAccount account

/-- `import_matches_subject`. -/
def importMatchesSubject (perms : Option CmqAccountPerms) (subject : Bytes) : Bool :=
  match perms with
  | none => false
  | some perms => perms.imports.any fun rule =>
    !patternWildcardOnly rule.subject && subjectMatch rule.subject subject

/-- `import_export_pair_ok`. -/
def importExportPairOk (mgr : CmqAccountManager) (perms : Option CmqAccountPerms)
    (account subject : Bytes) : Bool :=
  match perms with
  | none => false
  | some perms => perms.imports.any fun rule =>
    subjectMatch rule.subject subject &&
      if rule.sourceAccount = [chStar] then
        mgr.perms.any fun row => row.account != account && row.exportsTo account subject
      else
        match findPerms mgr rule.sourceAccount with
        | none => false
        | some source => source.exportsTo account subject

/-- `cmq_account_can_import`. -/
def cmqAccountCanImport (mgr : CmqAccountManager) (account subject : Bytes) : Bool :=
  if accountIsActive mgr account = false then false
  else
    let perms := findPerms mgr account
    if exportOfferedTo mgr account subject || importMatchesSubject perms subject then
      importExportPairOk mgr perms account subject
    else true

/-- `client_account_live` of a session: the account is active and still in the epoch that
the session recorded. -/
def accountSessionLive (mgr : CmqAccountManager) (name : Bytes) (epoch : Nat) : Bool :=
  if name = [] then false
  else
    match cmqAccountGet mgr name with
    | none => false
    | some a => a.epoch == epoch

/-- What the wildcards of a map's source stand for. -/
structure Captures where
  stars : List Bytes
  gt : Bytes
  deriving DecidableEq

/-- The loop of `match_capture`; every iteration consumes a token of the pattern. -/
def matchCaptureLoop : Nat → List Bytes → Bytes → Bytes → Option Captures
  | 0, _, _, _ => none
  | fuel + 1, stars, p, s =>
    if p = [] ∨ s = [] then
      if p = [chGt] then some ⟨stars, s⟩
      else if p = [] ∧ s = [] then some ⟨stars, []⟩
      else none
    else if head chDot p = [chGt] then
      if rest chDot p = [] then some ⟨stars, s⟩ else none
    else if head chDot p = [chStar] then
      if stars.length ≥ cmqAccountMapCaps then none
      else matchCaptureLoop fuel (stars ++ [head chDot s]) (tail chDot p) (tail chDot s)
    else if head chDot p ≠ head chDot s then none
    else matchCaptureLoop fuel stars (tail chDot p) (tail chDot s)

/-- `match_capture`; `none` is no match. -/
def matchCapture (pattern subject : Bytes) : Option Captures :=
  matchCaptureLoop (pattern.length + 1) [] pattern subject

/-- The index `i` of a token `$1` to `$9`. -/
def refIndex (token : Bytes) : Option Nat :=
  match token with
  | [a, b] => if a = chDollar ∧ 0x31 ≤ b ∧ b ≤ 0x39 then some (b.toNat - 0x31) else none
  | _ => none

/-- What a token of a map's destination is replaced by, and how many `*` were used. -/
def destToken (captures : Captures) (starI : Nat) (token : Bytes) : Option (Bytes × Nat) :=
  match refIndex token with
  | some i => (captures.stars[i]?).map fun star => (star, starI)
  | none =>
    if token = [chStar] then (captures.stars[starI]?).map fun star => (star, starI + 1)
    else if token = [chGt] then some (captures.gt, starI)
    else some (token, starI)

/-- The loop of `apply_dest`; `first` is true until a token was written. -/
def applyDestLoop (captures : Captures) (outSz : Nat) :
    Nat → Nat → Bool → Bytes → Bytes → Option Bytes
  | 0, _, _, _, _ => none
  | fuel + 1, starI, first, out, d =>
    if d = [] then if out = [] ∨ out.length ≥ outSz then none else some out
    else
      match destToken captures starI (head chDot d) with
      | none => none
      | some (add, starI) =>
        if head chDot d = [chGt] ∧ add = [] then
          applyDestLoop captures outSz fuel starI first out (tail chDot d)
        else if first = false ∧ out.length + 1 ≥ outSz then none
        else
          let out := if first then out else out ++ [chDot]
          if out.length + add.length ≥ outSz then none
          else applyDestLoop captures outSz fuel starI false (out ++ add) (tail chDot d)

/-- `apply_dest`. -/
def applyDest (dest : Bytes) (captures : Captures) (outSz : Nat) : Option Bytes :=
  applyDestLoop captures outSz (dest.length + 1) 0 true [] dest

/-- The loop of `account_rewrite_impl`: the first map whose source matches decides. -/
def rewriteMaps (maps : List CmqAccountMap) (subject : Bytes) (outSz : Nat) : Option Bytes :=
  match maps with
  | [] => if subject.length ≥ outSz then none else some subject
  | m :: maps =>
    match matchCapture m.src subject with
    | none => rewriteMaps maps subject outSz
    | some captures => applyDest m.dest captures outSz

/-- `cmq_account_rewrite_subject`; `none` is the return value -1. -/
def cmqAccountRewriteSubject (mgr : CmqAccountManager) (account subject : Bytes)
    (outSz : Nat) : Option Bytes :=
  rewriteMaps ((findPerms mgr account).elim [] CmqAccountPerms.maps) subject outSz

/-- `cmq_account_credit_bytes_live` on the account of that name. -/
def cmqAccountCreditBytesLive (mgr : CmqAccountManager) (name : Bytes) (epoch n : Nat) :
    CmqAccountManager × Int :=
  match cmqAccountGet mgr name with
  | none => (mgr, -1)
  | some acc =>
    if n = 0 then (mgr, 0)
    else if acc.epoch ≠ epoch then (mgr, -1)
    else if acc.maxBytesLive = 0 then (mgr, 0)
    else if acc.bytesLive > 2 ^ 64 - 1 - n ∨ acc.bytesLive + n > acc.maxBytesLive then
      (mgr, -2)
    else (mgr.update name fun acc => { acc with bytesLive := acc.bytesLive + n }, 0)

/-- `cmq_account_debit_bytes_live` on the account of that name. -/
def cmqAccountDebitBytesLive (mgr : CmqAccountManager) (name : Bytes) (epoch n : Nat) :
    CmqAccountManager :=
  match cmqAccountGet mgr name with
  | none => mgr
  | some acc =>
    if n = 0 ∨ acc.epoch ≠ epoch ∨ acc.maxBytesLive = 0 then mgr
    else mgr.update name fun acc => { acc with bytesLive := acc.bytesLive - n }

end CMsgQueue.Enterprise
