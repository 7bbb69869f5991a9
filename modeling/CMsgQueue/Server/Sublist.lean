import CMsgQueue.Lib.Trie
import CMsgQueue.Server.Subject

/-!
# The subscription trie

The functions of `server/cmq_sublist.c`.  A `void *` is an `Option`, so that `none` is `NULL`.
Every allocation of a call is decided by an argument of the call.
-/

namespace CMsgQueue.Server

open Tokens Trie

universe u

/-- `is_pwc`, `is_fwc` and `token` of a trie node. -/
inductive SlToken where
  | pwc
  | fwc
  | literal (token : Bytes)
  deriving DecidableEq

def slToken (token : Bytes) : SlToken :=
  if token = [chStar] then .pwc else if token = [chGt] then .fwc else .literal token

/-- `subs`, `sub_count` and `sub_cap` of a trie node. -/
structure SubArray (δ : Type u) where
  subs : List (Option δ)
  subCap : Nat
  deriving DecidableEq

/-- The children of a trie node, linked by `next`. -/
abbrev SlNodes (δ : Type u) := Forest SlToken (SubArray δ)

/-- A trie node without its token and its link. -/
abbrev SlNode (δ : Type u) := SubArray δ × SlNodes δ

/-- `cmq_sl_node_create`, apart from the token. -/
def cmqSlNodeCreate {δ : Type u} : SlNode δ := (⟨[], 0⟩, .nil)

/-- `sub_count == 0 && children == NULL`. -/
def SlNode.isEmpty {δ : Type u} (node : SlNode δ) : Bool :=
  node.1.subs.isEmpty &&
    match node.2 with
    | .nil => true
    | .node .. => false

/-- `struct cmq_sublist`. -/
structure CmqSublist (δ : Type u) where
  root : SlNode δ
  count : Nat
  deriving DecidableEq

/-- Outcomes of the allocations of one `cmq_sublist_insert`: whether
`cmq_sl_node_create` succeeds for the token at each depth, and whether `realloc`
succeeds in `node_add_sub`. -/
structure InsertAlloc where
  node : Nat → Bool
  subs : Bool

def InsertAlloc.granted : InsertAlloc where
  node := fun _ => true
  subs := true

variable {δ : Type u}

/-- `cmq_sublist_create`. -/
def cmqSublistCreate : CmqSublist δ where
  root := cmqSlNodeCreate
  count := 0

/-- The capacity after growing by doubling from `first`; `none` when the size of an
array of pointers would overflow. -/
def doubledCap (first cap : Nat) : Option Nat :=
  if cap = 0 then some first
  else if cap > sizeMax / 2 / 8 then none
  else if cap * 2 > sizeMax / 8 then none
  else some (cap * 2)

/-- `node_add_sub`; `none` is the return value -1. -/
def nodeAddSub (realloc : Bool) (array : SubArray δ) (data : Option δ) :
    Option (SubArray δ) :=
  if array.subs.length ≥ array.subCap then
    match doubledCap 4 array.subCap with
    | none => none
    | some newCap => if realloc then some ⟨array.subs ++ [data], newCap⟩ else none
  else some { array with subs := array.subs ++ [data] }

/-- The descent of `cmq_sublist_insert`, with `node_add_sub` at its end and `rollback_created` on
the way back from a failure.  A created node whose child stays linked has children, so the
`break` of the rollback needs no flag. -/
def insertBelow (alloc : InsertAlloc) (data : Option δ) :
    Nat → List Bytes → SlNode δ → SlNode δ × Bool
  | _, [], node =>
    match nodeAddSub alloc.subs node.1 data with
    | some array => ((array, node.2), true)
    | none => (node, false)
  | depth, token :: tokens, node =>
    match node.2.find? (slToken token) with
    | some child =>
      let result := insertBelow alloc data (depth + 1) tokens child
      ((node.1, node.2.set (slToken token) result.1), result.2)
    | none =>
      if alloc.node depth then
        let result := insertBelow alloc data (depth + 1) tokens cmqSlNodeCreate
        if result.2 = false ∧ result.1.isEmpty then (node, false)
        else
          ((node.1, .node (slToken token) result.1.1 result.1.2 node.2), result.2)
      else (node, false)

/-- `cmq_sublist_insert`. -/
def cmqSublistInsert (alloc : InsertAlloc) (sl : CmqSublist δ) (subject : Bytes)
    (data : Option δ) : CmqSublist δ × Int :=
  if validateSubject subject = false then (sl, -1)
  else
    match tokenize subject with
    | none => (sl, -1)
    | some tokens =>
      let result := insertBelow alloc data 0 tokens sl.root
      if result.2 then ({ root := result.1, count := sl.count + 1 }, 0)
      else ({ sl with root := result.1 }, -1)

variable [DecidableEq δ]

/-- `node_remove_sub`: the last entry takes the place of the removed one. -/
def nodeRemoveSub (array : SubArray δ) (data : Option δ) : Option (SubArray δ) :=
  match array.subs.idxOf? data with
  | none => none
  | some i =>
    some { array with
      subs := (array.subs.set i (array.subs.getLast?.getD data)).dropLast }

/-- The descent of `cmq_sublist_remove` below a node, with `node_remove_sub` at its end
and the pruning of empty nodes on the way back. -/
def removeBelow (data : Option δ) : List Bytes → SlNode δ → Option (SlNode δ)
  | [], node => (nodeRemoveSub node.1 data).map fun array => (array, node.2)
  | token :: tokens, node =>
    match node.2.find? (slToken token) with
    | none => none
    | some child =>
      match removeBelow data tokens child with
      | none => none
      | some child' =>
        if child'.isEmpty then some (node.1, node.2.unlink (slToken token))
        else some (node.1, node.2.set (slToken token) child')

/-- `cmq_sublist_remove`. -/
def cmqSublistRemove (sl : CmqSublist δ) (subject : Bytes) (data : Option δ) :
    CmqSublist δ × Int :=
  if data = none then (sl, -1)
  else if validateSubject subject = false then (sl, -1)
  else
    match tokenize subject with
    | none => (sl, -1)
    | some tokens =>
      match removeBelow data tokens sl.root with
      | none => (sl, -1)
      | some root => ({ root, count := if sl.count > 0 then sl.count - 1 else sl.count }, 0)

omit [DecidableEq δ]

/-- `cmq_sublist_result_t`. -/
structure SublistResult (δ : Type u) where
  entries : List (Option δ)
  cap : Nat
  deriving DecidableEq

/-- `result_append`; `realloc` says for each capacity whether the array can grow to
it, and `none` is the return value -1. -/
def resultAppend (realloc : Nat → Bool) (result : SublistResult δ) (data : Option δ) :
    Option (SublistResult δ) :=
  if result.entries.length ≥ result.cap then
    match doubledCap 8 result.cap with
    | none => none
    | some newCap => if realloc newCap then some ⟨result.entries ++ [data], newCap⟩ else none
  else some { result with entries := result.entries ++ [data] }

/-- The loops over `subs` in `match_recursive`. -/
def appendSubs (realloc : Nat → Bool) (array : SubArray δ) (result : SublistResult δ) :
    Option (SublistResult δ) :=
  array.subs.foldlM (resultAppend realloc) result

/-- The loop of `match_recursive` over a list of children, with the tokens from the
current depth on.  After the last token only `>` children match. -/
def matchChildren (realloc : Nat → Bool) :
    SlNodes δ → List Bytes → SublistResult δ → Option (SublistResult δ)
  | .nil, _, result => some result
  | .node key array _ next, [], result =>
    match key with
    | .fwc => (appendSubs realloc array result).bind (matchChildren realloc next [])
    | _ => matchChildren realloc next [] result
  | .node key array children next, token :: tokens, result =>
    let descend : Option (SublistResult δ) :=
      (if tokens = [] then appendSubs realloc array result else some result).bind
        (matchChildren realloc children tokens)
    let here : Option (SublistResult δ) :=
      match key with
      | .fwc => appendSubs realloc array result
      | .pwc => descend
      | .literal literal => if literal = token then descend else some result
    here.bind (matchChildren realloc next (token :: tokens))

/-- `match_recursive` at the root. -/
def matchRecursive (realloc : Nat → Bool) (node : SlNode δ) (tokens : List Bytes)
    (result : SublistResult δ) : Option (SublistResult δ) :=
  (if tokens = [] then appendSubs realloc node.1 result else some result).bind
    (matchChildren realloc node.2 tokens)

/-- `cmq_sublist_match`; `none` is the return value -1. -/
def cmqSublistMatch (realloc : Nat → Bool) (sl : CmqSublist δ) (subject : Bytes) :
    Option (SublistResult δ) :=
  match tokenize subject with
  | none => none
  | some tokens => matchRecursive realloc sl.root tokens ⟨[], 0⟩

end CMsgQueue.Server
