import CMsgQueue.Server.Sublist

/-!
# Correctness of the subscription trie

The meaning of the trie is the list of its subscriptions with their token paths.
-/

namespace CMsgQueue.Server

open Function List Tokens Trie

universe u

variable {δ : Type u}

lemma slToken_injective : Function.Injective slToken := by
  intro _ _ same
  unfold slToken at same
  split at same
  next leftStar =>
    split at same
    next rightStar => rw [leftStar, rightStar]
    split at same <;> cases same
  split at same
  next leftGt =>
    split at same
    · cases same
    split at same
    next rightGt => rw [leftGt, rightGt]
    cases same
  split at same
  · cases same
  split at same
  · cases same
  exact SlToken.literal.inj same

def slMatch : List SlToken → List Bytes → Bool
  | [], tokens => tokens.isEmpty
  | .fwc :: path, _ => path.isEmpty
  | .pwc :: _, [] => false
  | .literal _ :: _, [] => false
  | .pwc :: path, _ :: tokens => slMatch path tokens
  | .literal literal :: path, token :: tokens => literal == token && slMatch path tokens

lemma slMatch_map (patterns subject : List Bytes) :
    slMatch (patterns.map slToken) subject = tokensMatch patterns subject := by
  induction patterns generalizing subject with
  | nil => cases subject <;> rfl
  | cons pattern patterns ih =>
    rw [map_cons, tokensMatch.eq_def]
    simp only
    by_cases isStar : pattern = [chStar]
    · have notGt : ([chStar] : Bytes) ≠ [chGt] := by decide
      rw [slToken, if_pos isStar, isStar, if_neg notGt]
      cases subject with
      | nil => rfl
      | cons token subject => simp [slMatch, ih]
    by_cases isGt : pattern = [chGt]
    · rw [slToken, if_neg isStar, if_pos isGt, if_pos isGt]
      simp [slMatch]
    rw [slToken, if_neg isStar, if_neg isGt, if_neg isGt]
    cases subject with
    | nil => rfl
    | cons token subject => simp [slMatch, ih, beq_false_of_ne isStar]

/-- Subscriptions at and below a node, with their paths. -/
abbrev SlNode.entries (node : SlNode δ) : List (List SlToken × Option δ) :=
  Forest.nodeEntries SubArray.subs node

lemma SlNode.entries_eq_nil {node : SlNode δ} (empty : node.isEmpty = true) :
    node.entries = [] := by
  obtain ⟨_, children⟩ := node
  cases children with
  | nil => simpa [SlNode.isEmpty, Forest.nodeEntries] using empty
  | node => simp [SlNode.isEmpty] at empty

lemma nodeEntries_cons_perm {array : SubArray δ} {children children' : SlNodes δ}
    {item : List SlToken × Option δ}
    (perm : (Forest.entries SubArray.subs children').Perm
      (item :: Forest.entries SubArray.subs children)) :
    (SlNode.entries (array, children')).Perm (item :: SlNode.entries (array, children)) :=
  (perm.append_left _).trans perm_middle

/-! ## Insertion -/

lemma nodeAddSub_subs (added : nodeAddSub realloc array data = some array') :
    array'.subs = array.subs ++ [data] := by
  unfold nodeAddSub at added
  split at added
  · split at added
    · cases added
    split at added
    · cases added
      rfl
    cases added
  cases added
  rfl

lemma insertBelow_spec (alloc : InsertAlloc) (data : Option δ) (depth : Nat) (tokens : List Bytes)
    (node : SlNode δ) (distinct : node.2.Distinct) :
    ((insertBelow alloc data depth tokens node).2 = true →
      (SlNode.entries (insertBelow alloc data depth tokens node).1).Perm
          ((tokens.map slToken, data) :: node.entries) ∧
        (insertBelow alloc data depth tokens node).1.2.Distinct) ∧
    ((insertBelow alloc data depth tokens node).2 = false →
      (insertBelow alloc data depth tokens node).1 = node) := by
  induction tokens generalizing depth node with
  | nil =>
    cases added : nodeAddSub alloc.subs node.1 data with
    | none => simp [insertBelow, added]
    | some =>
      simp only [insertBelow, added, true_implies, Bool.true_eq_false, false_implies, and_true]
      refine ⟨?_, distinct⟩
      rw [SlNode.entries, Forest.nodeEntries, nodeAddSub_subs added]
      simp only [map_append, append_assoc]
      exact perm_middle
  | cons token tokens ih =>
    cases found : node.2.find? (slToken token) with
    | some child =>
      have childDistinct := distinct.of_find? found
      obtain ⟨grown, kept⟩ := ih (depth + 1) child childDistinct
      simp only [insertBelow, found]
      generalize insertBelow alloc data (depth + 1) tokens child = result
        at grown kept
      refine ⟨fun ok => ?_, fun failed => ?_⟩
      · obtain ⟨perm, resultDistinct⟩ := grown ok
        refine ⟨?_, distinct.set resultDistinct⟩
        apply nodeEntries_cons_perm
        calc Forest.entries SubArray.subs (node.2.set (slToken token) result.1)
            |>.Perm (Forest.under (slToken token) (SlNode.entries result.1) ++
                Forest.entries SubArray.subs (node.2.unlink (slToken token))) :=
              Forest.entries_set_perm _ found _
          _ |>.Perm ((slToken token :: tokens.map slToken, data) ::
                (Forest.under (slToken token) (SlNode.entries child) ++
                  Forest.entries SubArray.subs (node.2.unlink (slToken token)))) :=
              (Forest.under_perm (slToken token) perm).append_right _
          _ |>.Perm ((slToken token :: tokens.map slToken, data) ::
                Forest.entries SubArray.subs node.2) :=
              (Forest.entries_perm_of_find? _ found).symm.cons _
      rw [kept failed, Forest.set_eq_self found]
    | none =>
      obtain ⟨grown, kept⟩ := ih (depth + 1) cmqSlNodeCreate trivial
      simp only [insertBelow, found]
      split
      · split
        next => simp
        next linked =>
        refine ⟨fun ok => ?_, fun failed => ?_⟩
        · obtain ⟨perm, resultDistinct⟩ := grown ok
          refine ⟨?_, found, resultDistinct, distinct⟩
          apply nodeEntries_cons_perm
          exact (Forest.under_perm (slToken token) perm).append_right _
        exact absurd ⟨failed, by rw [kept failed]; rfl⟩ linked
      simp

/-- A node without children has a subscription. -/
abbrev SlNodes.Filled (children : SlNodes δ) : Prop :=
  children.Every fun node => SlNode.isEmpty node = false

lemma SlNodes.Filled.eq_nil {children : SlNodes δ} (filled : children.Filled)
    (none : children.total (·.subs.length) = 0) : children = .nil := by
  induction children with
  | nil => rfl
  | node _ _ _ _ below =>
    obtain ⟨used, childrenFilled, -⟩ := filled
    simp only [Forest.total, Nat.add_eq_zero_iff, length_eq_zero_iff] at none
    obtain rfl := below childrenFilled none.1.2
    simp [SlNode.isEmpty, none.1.1] at used

lemma insertBelow_filled (alloc : InsertAlloc) (data : Option δ) (depth : Nat)
    (tokens : List Bytes) (node : SlNode δ) (distinct : node.2.Distinct) (filled : node.2.Filled)
    (inserted : (insertBelow alloc data depth tokens node).2 = true) :
    (insertBelow alloc data depth tokens node).1.2.Filled := by
  have used : ∀ {node : SlNode δ} {depth tokens}, node.2.Distinct →
      (insertBelow alloc data depth tokens node).2 = true →
      SlNode.isEmpty (insertBelow alloc data depth tokens node).1 = false := by
    intro node depth tokens distinct inserted
    have perm := ((insertBelow_spec alloc data depth tokens node distinct).1 inserted).1
    refine Bool.eq_false_iff.mpr fun empty => ?_
    rw [SlNode.entries_eq_nil empty] at perm
    exact absurd perm.length_eq (by simp)
  induction tokens generalizing depth node with
  | nil =>
    unfold insertBelow
    split <;> exact filled
  | cons token tokens ih =>
    cases found : node.2.find? (slToken token) with
    | some child =>
      have childDistinct := distinct.of_find? found
      simp only [insertBelow, found] at inserted ⊢
      exact filled.set (used childDistinct inserted)
        (ih _ child childDistinct (filled.of_find? found) inserted)
    | none =>
      simp only [insertBelow, found] at inserted ⊢
      split at inserted
      next allocated =>
        rw [if_pos allocated]
        split at inserted
        · cases inserted
        next linked =>
          rw [if_neg linked]
          exact ⟨used trivial inserted, ih _ _ trivial trivial inserted, filled⟩
      cases inserted

lemma lt_of_doubledCap_eq_none (refused : doubledCap first cap = none) :
    sizeMax / 2 / 8 < cap := by
  unfold doubledCap at refused
  split at refused
  · cases refused
  split at refused
  · omega
  split at refused
  · omega
  cases refused

lemma lt_of_doubledCap_eq_some (positive : 0 < first)
    (grown : doubledCap first cap = some newCap) : cap < newCap := by
  unfold doubledCap at grown
  split at grown
  · cases grown
    omega
  split at grown
  · cases grown
  split at grown
  · cases grown
  cases grown
  omega

/-- With every allocation granted, an insertion fails only when a node already holds
more subscriptions than an array of pointers can. -/
lemma insertBelow_granted (data : Option δ) (depth : Nat) (tokens : List Bytes) (node : SlNode δ)
    (small : node.entries.length ≤ sizeMax / 2 / 8) :
    (insertBelow .granted data depth tokens node).2 = true := by
  induction tokens generalizing depth node with
  | nil =>
    have fits : node.1.subs.length ≤ sizeMax / 2 / 8 := by
      refine le_trans ?_ small
      simp [Forest.nodeEntries]
    cases added : nodeAddSub InsertAlloc.granted.subs node.1 data with
    | some => simp [insertBelow, added]
    | none =>
      exfalso
      unfold nodeAddSub at added
      split at added
      next =>
        split at added
        next tooLarge =>
          have large := lt_of_doubledCap_eq_none tooLarge
          omega
        simp [InsertAlloc.granted] at added
      cases added
  | cons token tokens ih =>
    cases found : node.2.find? (slToken token) with
    | some child =>
      have perm := Forest.entries_perm_of_find? SubArray.subs found
      have childSmall : (SlNode.entries child).length ≤ sizeMax / 2 / 8 := by
        refine le_trans ?_ small
        have lengths := perm.length_eq
        simp only [length_append, Forest.under, length_map] at lengths
        simp only [Forest.nodeEntries, length_append] at lengths ⊢
        omega
      simpa [insertBelow, found] using ih (depth + 1) child childSmall
    | none =>
      have created := ih (depth + 1) cmqSlNodeCreate (Nat.zero_le _)
      simp [insertBelow, found, InsertAlloc.granted] at created ⊢
      simp [created]

/-! ## Removal -/

lemma perm_cons_set_dropLast {α : Type u} {front : List α} {last item : α} {i : Nat}
    (itemEq : (front ++ [last])[i]? = some item) :
    (front ++ [last]).Perm (item :: ((front ++ [last]).set i last).dropLast) := by
  by_cases before : i < front.length
  · rw [getElem?_append_left before, getElem?_eq_getElem before] at itemEq
    cases itemEq
    rw [set_append, if_pos before, dropLast_concat]
    calc (front ++ [last])
        |>.Perm (last :: front) := perm_append_singleton last front
      _ |>.Perm (last :: front[i] :: front.eraseIdx i) :=
          (getElem_cons_eraseIdx_perm before).symm.cons last
      _ |>.Perm (front[i] :: last :: front.eraseIdx i) := List.Perm.swap _ _ _
      _ |>.Perm (front[i] :: front.set i last) :=
          (set_perm_cons_eraseIdx before last).symm.cons _
  have atLast : i = front.length := by
    have bound := (List.getElem?_eq_some_iff.mp itemEq).1
    simp only [length_append, length_singleton] at bound
    omega
  subst atLast
  have isLast : last = item := by simpa using itemEq
  rw [set_append, if_neg (lt_irrefl _), Nat.sub_self, set_cons_zero, dropLast_concat, isLast]
  exact perm_append_singleton item front

variable [DecidableEq δ]

lemma nodeRemoveSub_spec (array : SubArray δ) (data : Option δ) :
    match nodeRemoveSub array data with
    | none => data ∉ array.subs
    | some array' => array.subs.Perm (data :: array'.subs) := by
  unfold nodeRemoveSub
  cases position : array.subs.idxOf? data with
  | none => exact idxOf?_eq_none_iff.mp position
  | some i =>
    obtain ⟨inside, itemEq, -⟩ := idxOf?_eq_some_iff.mp position
    have itemEq' : array.subs[i]? = some data := by rw [getElem?_eq_getElem inside, itemEq]
    rcases eq_nil_or_concat array.subs with empty | ⟨_, _, whole⟩
    · simp [empty] at inside
    rw [concat_eq_append] at whole
    rw [whole] at itemEq' ⊢
    simpa using perm_cons_set_dropLast itemEq'

lemma removeBelow_spec (data : Option δ) (tokens : List Bytes) (node : SlNode δ)
    (distinct : node.2.Distinct) :
    match removeBelow data tokens node with
    | none => (tokens.map slToken, data) ∉ node.entries
    | some node' =>
      node.entries.Perm ((tokens.map slToken, data) :: SlNode.entries node') ∧
        node'.2.Distinct := by
  induction tokens generalizing node with
  | nil =>
    have spec := nodeRemoveSub_spec node.1 data
    unfold removeBelow
    cases removed : nodeRemoveSub node.1 data with
    | none =>
      rw [removed] at spec
      exact fun member => spec (Forest.nil_mem_nodeEntries.mp member)
    | some =>
      rw [removed] at spec
      refine ⟨?_, distinct⟩
      exact (spec.map (Prod.mk [])).append_right _
  | cons token tokens ih =>
    unfold removeBelow
    cases found : node.2.find? (slToken token) with
    | none =>
      intro member
      exact Forest.notMem_of_find?_eq_none _ found _ _
        (Forest.cons_mem_nodeEntries.mp member)
    | some child =>
      have spec := ih child (distinct.of_find? found)
      simp only
      cases removed : removeBelow data tokens child with
      | none =>
        rw [removed] at spec
        intro member
        exact spec ((distinct.mem_iff found _ _).mp (Forest.cons_mem_nodeEntries.mp member))
      | some child' =>
        rw [removed] at spec
        obtain ⟨perm, childDistinct⟩ := spec
        have smaller : (Forest.entries SubArray.subs node.2).Perm
            ((slToken token :: tokens.map slToken, data) ::
              (Forest.under (slToken token) (SlNode.entries child') ++
                Forest.entries SubArray.subs (node.2.unlink (slToken token)))) :=
          (Forest.entries_perm_of_find? _ found).trans
            ((Forest.under_perm (slToken token) perm).append_right _)
        simp only
        by_cases empty : SlNode.isEmpty child' = true
        · rw [if_pos empty]
          refine ⟨nodeEntries_cons_perm ?_, distinct.unlink⟩
          simpa [SlNode.entries_eq_nil empty] using smaller
        rw [if_neg empty]
        refine ⟨nodeEntries_cons_perm ?_, distinct.set childDistinct⟩
        exact smaller.trans ((Forest.entries_set_perm _ found _).symm.cons _)

lemma removeBelow_filled (data : Option δ) (tokens : List Bytes) (filled : node.2.Filled)
    (removed : removeBelow data tokens node = some node') : node'.2.Filled := by
  induction tokens generalizing node node' with
  | nil =>
    obtain ⟨_, -, rfl⟩ := Option.map_eq_some_iff.mp removed
    exact filled
  | cons _ tokens ih =>
    unfold removeBelow at removed
    split at removed
    · cases removed
    next _ found =>
    split at removed
    · cases removed
    next _ below =>
    split at removed
    next =>
      cases removed
      exact filled.unlink
    next kept =>
    cases removed
    exact filled.set (Bool.eq_false_iff.mpr kept)
      (ih (filled.of_find? found) below)

omit [DecidableEq δ]

/-! ## Matching -/

def matchingSubs (children : SlNodes δ) (tokens : List Bytes) : List (Option δ) :=
  ((Forest.entries SubArray.subs children).filter fun item =>
    slMatch item.1 tokens).map Prod.snd

/-- `items` were appended to a result, or an allocation failed. -/
def Appended (realloc : Nat → Bool) (result : SublistResult δ) (items : List (Option δ)) :
    Option (SublistResult δ) → Prop
  | some result' =>
    result'.entries = result.entries ++ items ∧
      (result.entries.length ≤ result.cap → result'.entries.length ≤ result'.cap)
  | none =>
    (∃ cap, realloc cap = false) ∨ ¬ result.entries.length ≤ result.cap ∨
      sizeMax / 2 / 8 < result.entries.length + items.length

lemma Appended.refl (realloc : Nat → Bool) (result : SublistResult δ) :
    Appended realloc result [] (some result) :=
  ⟨by simp, id⟩

lemma Appended.bind (appended : Appended realloc result left first)
    (later : ∀ result', Appended realloc result' right (second result')) :
    Appended realloc result (left ++ right) (first.bind second) := by
  cases first with
  | none =>
    refine appended.imp id (Or.imp id fun large => ?_)
    rw [length_append]
    omega
  | some mid =>
    obtain ⟨midEq, midFits⟩ := appended
    have next := later mid
    rw [Option.bind_some]
    cases secondEq : second mid with
    | none =>
      rw [secondEq] at next
      have midLength := congrArg List.length midEq
      rw [length_append] at midLength
      rcases next with refused | overfull | large
      · exact Or.inl refused
      · exact Or.inr (Or.inl fun fits => overfull (midFits fits))
      right
      right
      rw [length_append]
      omega
    | some result' =>
      rw [secondEq] at next
      refine ⟨?_, fun fits => next.2 (midFits fits)⟩
      rw [next.1, midEq, append_assoc]

lemma resultAppend_appended (realloc : Nat → Bool) (result : SublistResult δ)
    (data : Option δ) : Appended realloc result [data] (resultAppend realloc result data) := by
  unfold resultAppend
  by_cases full : result.entries.length ≥ result.cap
  · rw [if_pos full]
    cases grown : doubledCap 8 result.cap with
    | none =>
      have large := lt_of_doubledCap_eq_none grown
      right
      omega
    | some newCap =>
      have larger := lt_of_doubledCap_eq_some (by decide) grown
      simp only
      split
      · refine ⟨rfl, fun _ => ?_⟩
        simp only [length_append, length_singleton]
        omega
      next refused => exact Or.inl ⟨newCap, by simpa using refused⟩
  rw [if_neg full]
  refine ⟨rfl, fun _ => ?_⟩
  simp only [length_append, length_singleton]
  omega

lemma foldlM_appended (realloc : Nat → Bool) (items : List (Option δ))
    (result : SublistResult δ) :
    Appended realloc result items (items.foldlM (resultAppend realloc) result) := by
  induction items generalizing result with
  | nil => exact Appended.refl realloc result
  | cons item items ih => exact (resultAppend_appended realloc result item).bind ih

lemma appendSubs_appended (realloc : Nat → Bool) (array : SubArray δ)
    (result : SublistResult δ) :
    Appended realloc result array.subs (appendSubs realloc array result) :=
  foldlM_appended realloc array.subs result

lemma matched_nodeEntries (array : SubArray δ) (children : SlNodes δ)
    (tokens : List Bytes) :
    ((SlNode.entries (array, children)).filter fun item =>
        slMatch item.1 tokens).map Prod.snd =
      (if tokens = [] then array.subs else []) ++ matchingSubs children tokens := by
  rw [SlNode.entries, Forest.nodeEntries, filter_append, matchingSubs]
  cases tokens with
  | nil | cons => simp [slMatch, filter_map, comp_def]

lemma matched_nodeEntries_fwc (array : SubArray δ) (children : SlNodes δ) :
    ((SlNode.entries (array, children)).filter fun item =>
      item.1.isEmpty).map Prod.snd = array.subs := by
  have deeper : (Forest.entries SubArray.subs children).filter
      (fun item => item.1.isEmpty) = [] := by
    rw [filter_eq_nil_iff]
    rintro ⟨_, item⟩ member empty
    rw [List.isEmpty_iff] at empty
    subst empty
    exact Forest.nil_notMem_entries _ _ _ member
  rw [SlNode.entries, Forest.nodeEntries, filter_append, deeper]
  simp [filter_map, comp_def]

lemma matchingSubs_node (key : SlToken) (array : SubArray δ) (children next : SlNodes δ)
    (tokens : List Bytes) :
    matchingSubs (.node key array children next) tokens =
      ((SlNode.entries (array, children)).filter fun item =>
          slMatch (key :: item.1) tokens).map Prod.snd ++ matchingSubs next tokens := by
  simp [matchingSubs, Forest.entries_node, Forest.under, filter_map, comp_def]

lemma matchChildren_appended (realloc : Nat → Bool) (children : SlNodes δ) (tokens : List Bytes)
    (result : SublistResult δ) :
    Appended realloc result (matchingSubs children tokens)
      (matchChildren realloc children tokens result) := by
  induction children generalizing tokens result with
  | nil => exact Appended.refl realloc result
  | node key array children _ ihChildren ihNext =>
    rw [matchingSubs_node]
    cases tokens with
    | nil =>
      cases key with
      | fwc =>
        simp only [slMatch, matched_nodeEntries_fwc]
        exact (appendSubs_appended realloc array result).bind (ihNext [])
      | pwc | literal => simpa [slMatch, matchChildren] using ihNext [] result
    | cons token tokens =>
      have descend : Appended realloc result
          ((if tokens = [] then array.subs else []) ++ matchingSubs children tokens)
          ((if tokens = [] then appendSubs realloc array result
            else some result).bind (matchChildren realloc children tokens)) := by
        refine Appended.bind ?_ (ihChildren tokens)
        split
        · exact appendSubs_appended realloc array result
        exact Appended.refl realloc result
      cases key with
      | fwc =>
        simp only [slMatch, matched_nodeEntries_fwc]
        exact (appendSubs_appended realloc array result).bind (ihNext _)
      | pwc =>
        simp only [slMatch, matched_nodeEntries]
        exact descend.bind (ihNext _)
      | literal literal =>
        by_cases same : literal = token
        · simp only [slMatch, same, beq_self_eq_true, Bool.true_and,
            matched_nodeEntries, matchChildren]
          exact descend.bind (ihNext _)
        simpa [slMatch, same, beq_false_of_ne same, matchChildren] using
          ihNext (token :: tokens) result

lemma matchRecursive_appended (realloc : Nat → Bool) (node : SlNode δ) (tokens : List Bytes)
    (result : SublistResult δ) :
    Appended realloc result ((node.entries.filter fun item => slMatch item.1 tokens).map Prod.snd)
      (matchRecursive realloc node tokens result) := by
  rw [matched_nodeEntries]
  refine Appended.bind ?_ (matchChildren_appended realloc node.2 tokens)
  split
  · exact appendSubs_appended realloc node.1 result
  exact Appended.refl realloc result

end CMsgQueue.Server
