import CMsgQueue.Lib.Bytes
import CMsgQueue.Lib.Tokens

/-!
# Subject access control

The pattern matcher and the decision of `enterprise/cmq_acl.c`, and the documented law.  The
matcher compares raw text up to the last wildcard, so the two differ.
-/

namespace CMsgQueue.Enterprise

open Tokens

/-- `CMQ_ACL_MAX_PATTERNS`. -/
def cmqAclMaxPatterns : Nat := 1024

/-- `struct cmq_pattern`. -/
structure CmqPattern where
  pat : Bytes
  isPwc : Bool
  isFwc : Bool
  tokens : Nat
  deriving DecidableEq

/-- `struct cmq_acl`; `n_allow` and `n_deny` are the lengths of the lists. -/
structure CmqAcl where
  allow : List CmqPattern
  deny : List CmqPattern
  deriving DecidableEq

/-- `token_count`. -/
def tokenCount (text : Bytes) : Nat := 1 + text.count chDot

/-- `compile_pattern`. -/
def compilePattern (src : Bytes) : CmqPattern where
  pat := src
  isPwc := src.getLast? == some chStar
  isFwc := src.getLast? == some chGt
  tokens := tokenCount src

/-- `cmq_acl_create`. -/
def cmqAclCreate : CmqAcl where
  allow := []
  deny := []

/-- The two lists of an ACL. -/
inductive AclSide where
  | allow
  | deny
  deriving DecidableEq

namespace CmqAcl

def patterns (acl : CmqAcl) : AclSide → List CmqPattern
  | .allow => acl.allow
  | .deny => acl.deny

def append (acl : CmqAcl) : AclSide → List CmqPattern → CmqAcl
  | .allow, more => { acl with allow := acl.allow ++ more }
  | .deny, more => { acl with deny := acl.deny ++ more }

end CmqAcl

/-- The common body of `cmq_acl_allow` and `cmq_acl_deny`. -/
def aclAdd (side : AclSide) (acl : CmqAcl) (pattern : Bytes) : CmqAcl × Int :=
  if (acl.patterns side).length ≥ cmqAclMaxPatterns then (acl, -1)
  else (acl.append side [compilePattern pattern], 0)

/-- `cmq_acl_allow`. -/
def cmqAclAllow (acl : CmqAcl) (pattern : Bytes) : CmqAcl × Int := aclAdd .allow acl pattern

/-- `cmq_acl_deny`. -/
def cmqAclDeny (acl : CmqAcl) (pattern : Bytes) : CmqAcl × Int := aclAdd .deny acl pattern

/-- Adding a list of patterns up to the first failure. -/
def aclAddAll (side : AclSide) : CmqAcl → List Bytes → CmqAcl × Int
  | acl, [] => (acl, 0)
  | acl, pattern :: patterns =>
    let added : CmqAcl × Int :=
      match side with
      | .allow => cmqAclAllow acl pattern
      | .deny => cmqAclDeny acl pattern
    if added.2 ≠ 0 then (added.1, -1) else aclAddAll side added.1 patterns

def lastToken (text : Bytes) : Bytes :=
  (text.reverse.takeWhile fun symbol => symbol ≠ chDot).reverse

/-- `strrchr(text, '.')` as an index. -/
def lastDot (text : Bytes) : Option Nat :=
  if chDot ∈ text then some (text.length - (lastToken text).length - 1) else none

/-- `strlen(pat) - 2` over `size_t`. -/
def strippedLen (pat : Bytes) : Nat :=
  if pat.length < 2 then pat.length + 2 ^ 64 - 2 else pat.length - 2

/-- `match_pattern`; `none` is a read outside the pattern. -/
def matchPattern (p : CmqPattern) (subject : Bytes) : Option Bool :=
  if p.isFwc then
    let plen := strippedLen p.pat
    if tokenCount subject < p.tokens then some false
    else if p.pat.take plen ≠ subject.take plen then some false
    else if plen > p.pat.length then none
    else some (p.pat[plen]? == some chDot)
  else if p.isPwc then
    if tokenCount subject ≠ p.tokens then some false
    else
      match lastDot p.pat with
      | none => some false
      | some literalLen =>
        if p.pat[literalLen + 1]? ≠ some chStar then some false
        else if p.pat.take literalLen ≠ subject.take literalLen then some false
        else some (subject[literalLen]? == some chDot)
  else some (p.pat == subject)

/-- A loop over patterns that stops at the first match. -/
def anyMatch (patterns : List CmqPattern) (subject : Bytes) : Option Bool :=
  match patterns with
  | [] => some false
  | p :: patterns =>
    match matchPattern p subject with
    | none => none
    | some true => some true
    | some false => anyMatch patterns subject

/-- `cmq_acl_check`; a missing ACL admits. -/
def cmqAclCheck (acl : Option CmqAcl) (subject : Bytes) : Option Bool :=
  match acl with
  | none => some true
  | some acl =>
    match anyMatch acl.deny subject with
    | none => none
    | some true => some false
    | some false => if acl.allow = [] then some true else anyMatch acl.allow subject

/-- The ACL configured with lists of patterns, if none of them is refused. -/
def configuredAcl (allow deny : List Bytes) : Option CmqAcl :=
  let allowed := aclAddAll .allow cmqAclCreate allow
  let denied := aclAddAll .deny allowed.1 deny
  if allowed.2 = 0 ∧ denied.2 = 0 then some denied.1 else none

/-- Token-wise matching: `*` stands for exactly one token and a last `>` for one or
more. -/
def lawTokens : List Bytes → List Bytes → Bool
  | [], tokens => tokens.isEmpty
  | _ :: _, [] => false
  | pattern :: patterns, token :: tokens =>
    (pattern == [chGt] && patterns.isEmpty) ||
      ((pattern == [chStar] || pattern == token) && lawTokens patterns tokens)

def lawMatch (pattern subject : Bytes) : Bool :=
  lawTokens (pattern.splitOn chDot) (subject.splitOn chDot)

def lawCheck (allow deny : List Bytes) (subject : Bytes) : Bool :=
  !deny.any (lawMatch · subject) && (allow.isEmpty || allow.any (lawMatch · subject))

/-- The law accepts and the raw comparison cannot: the wildcard is not the whole last
token behind a dot, or the text before it is not literally the front of the
subject. -/
def AclMiss (pattern subject : Bytes) : Prop :=
  lawMatch pattern subject = true ∧
    ((pattern.getLast? = some chGt ∧
        ¬ ∃ front rest, pattern = front ++ [chDot, chGt] ∧ subject = front ++ rest) ∨
      (pattern.getLast? = some chStar ∧
        ¬ ∃ front more rest, pattern = front ++ chDot :: chStar :: more ∧
          chDot ∉ more ∧ subject = front ++ chDot :: rest) ∨
      (pattern.getLast? ≠ some chGt ∧ pattern.getLast? ≠ some chStar ∧
        subject ≠ pattern))

/-- The law refuses and the raw comparison does not see why: the text before `.>` ends
inside a token of the subject, or a last token such as `**` is taken for `*`. -/
def AclOver (pattern subject : Bytes) : Prop :=
  lawMatch pattern subject = false ∧
    ((∃ front symbol rest, pattern = front ++ [chDot, chGt] ∧
        subject = front ++ symbol :: rest ∧ symbol ≠ chDot ∧
        tokenCount pattern ≤ tokenCount subject) ∨
      (∃ front more rest, pattern = front ++ chDot :: chStar :: (more ++ [chStar]) ∧
        chDot ∉ more ∧ subject = front ++ chDot :: rest ∧ chDot ∉ rest))

end CMsgQueue.Enterprise
