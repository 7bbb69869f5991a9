import CMsgQueue.Server.SublistSpec

/-!
# Runs of the subscription trie

Every sequence of insertions and removals keeps the trie equal to a bag of patterns with their
data, whatever allocations fail.
-/

namespace CMsgQueue.Server

open List Tokens Trie

universe u

variable {δ : Type u}

/-- A call that changes the trie. -/
inductive SublistCall (δ : Type u) where
  | insert (alloc : InsertAlloc) (subject : Bytes) (data : Option δ)
  | remove (subject : Bytes) (data : Option δ)

/-- A trie with the subscriptions that calls have added and not removed since; a call
that returns -1 adds and removes nothing. -/
structure SublistRun (δ : Type u) where
  sublist : CmqSublist δ
  live : List (Bytes × Option δ)

def slEntry (sub : Bytes × Option δ) : List SlToken × Option δ :=
  ((sub.1.splitOn chDot).map slToken, sub.2)

lemma slEntry_injective : Function.Injective (slEntry : Bytes × Option δ → _) := by
  rintro ⟨_, _⟩ ⟨_, _⟩ same
  obtain ⟨paths, datas⟩ := Prod.mk.inj same
  have tokensEq := map_injective_iff.mpr slToken_injective paths
  exact Prod.ext (splitOn_injective tokensEq) datas

lemma ValidSubject.path_eq (valid : ValidSubject subject) (data : Option δ) :
    ((tokens chDot subject).map slToken, data) = slEntry (subject, data) := by
  rw [slEntry, tokens, if_neg valid.nonempty]

namespace SublistRun

variable [DecidableEq δ]

def call (run : SublistRun δ) : SublistCall δ → SublistRun δ
  | .insert alloc subject data =>
    let result := cmqSublistInsert alloc run.sublist subject data
    { sublist := result.1
      live := if result.2 = 0 then run.live ++ [(subject, data)] else run.live }
  | .remove subject data =>
    let result := cmqSublistRemove run.sublist subject data
    { sublist := result.1
      live := if result.2 = 0 then run.live.erase (subject, data) else run.live }

def calls (sequence : List (SublistCall δ)) : SublistRun δ :=
  sequence.foldl call { sublist := cmqSublistCreate, live := [] }

omit [DecidableEq δ]

structure Inv (run : SublistRun δ) : Prop where
  distinct : run.sublist.root.2.Distinct
  entries_perm : (SlNode.entries run.sublist.root).Perm (run.live.map slEntry)
  count_eq : run.sublist.count = run.live.length
  valid : ∀ sub ∈ run.live, cmqSublistSubjectValid sub.1 = true

variable {run : SublistRun δ} {sublist : CmqSublist δ} {live : List (Bytes × Option δ)}

lemma insert_cases (inv : Inv run) (alloc : InsertAlloc) (subject : Bytes) (data : Option δ) :
    let result := cmqSublistInsert alloc run.sublist subject data
    (result.2 = 0 ∧ cmqSublistSubjectValid subject = true ∧ result.1.root.2.Distinct ∧
      (run.sublist.root.2.Filled → result.1.root.2.Filled) ∧
      (SlNode.entries result.1.root).Perm
        (slEntry (subject, data) :: SlNode.entries run.sublist.root) ∧
      result.1.count = run.sublist.count + 1) ∨
    (result.2 = -1 ∧ result.1 = run.sublist) := by
  dsimp only
  unfold cmqSublistInsert
  by_cases accepted : cmqSublistSubjectValid subject = true
  · have valid := validSubject_of_valid accepted
    obtain ⟨grown, kept⟩ := insertBelow_spec alloc data 0 (tokens chDot subject)
      run.sublist.root inv.distinct
    rw [if_neg (by simp [valid.validated]), valid.tokenize_eq]
    simp only
    split
    next ok =>
      obtain ⟨perm, distinct⟩ := grown ok
      rw [valid.path_eq] at perm
      exact .inl ⟨rfl, accepted, distinct,
        fun filled => insertBelow_filled _ _ _ _ _ inv.distinct filled ok, perm, rfl⟩
    next failed =>
      rw [kept (by simpa using failed)]
      exact .inr ⟨rfl, rfl⟩
  right
  split
  · exact ⟨rfl, rfl⟩
  next validated =>
  cases parsed : tokenize subject with
  | none => exact ⟨rfl, rfl⟩
  | some tokens => exact absurd (by simp [cmqSublistSubjectValid, parsed, validated]) accepted

variable [DecidableEq δ]

lemma remove_cases (inv : Inv run) (subject : Bytes) (data : Option δ) :
    let result := cmqSublistRemove run.sublist subject data
    (result.2 = 0 ∧ data ≠ none ∧ (subject, data) ∈ run.live ∧ result.1.root.2.Distinct ∧
      (run.sublist.root.2.Filled → result.1.root.2.Filled) ∧
      (SlNode.entries run.sublist.root).Perm
        (slEntry (subject, data) :: SlNode.entries result.1.root) ∧
      result.1.count + 1 = run.sublist.count) ∨
    (result.2 = -1 ∧ result.1 = run.sublist ∧ (data = none ∨ (subject, data) ∉ run.live)) := by
  dsimp only
  unfold cmqSublistRemove
  by_cases null : data = none
  · rw [if_pos null]
    exact .inr ⟨rfl, rfl, .inl null⟩
  rw [if_neg null]
  by_cases accepted : cmqSublistSubjectValid subject = true
  · have valid := validSubject_of_valid accepted
    have spec := removeBelow_spec data (tokens chDot subject) run.sublist.root inv.distinct
    rw [if_neg (by simp [valid.validated]), valid.tokenize_eq]
    simp only
    cases removed : removeBelow data (tokens chDot subject) run.sublist.root with
    | none =>
      rw [removed] at spec
      simp only [valid.path_eq, inv.entries_perm.mem_iff] at spec
      exact .inr ⟨rfl, rfl, .inr fun member => spec (mem_map_of_mem member)⟩
    | some root =>
      rw [removed] at spec
      simp only [valid.path_eq] at spec
      obtain ⟨perm, distinct⟩ := spec
      have member : (subject, data) ∈ run.live := by
        have inside := perm.mem_iff.mpr mem_cons_self
        rw [inv.entries_perm.mem_iff] at inside
        exact (mem_map_of_injective slEntry_injective).mp inside
      have positive : 0 < run.sublist.count := by
        rw [inv.count_eq]
        exact length_pos_of_mem member
      refine .inl ⟨rfl, null, member, distinct,
        fun filled => removeBelow_filled data _ filled removed, perm, ?_⟩
      simp only [if_pos positive]
      omega
  right
  have absent : (subject, data) ∉ run.live := fun member => accepted (inv.valid _ member)
  split
  · exact ⟨rfl, rfl, .inr absent⟩
  next validated =>
  cases parsed : tokenize subject with
  | none => exact ⟨rfl, rfl, .inr absent⟩
  | some tokens => exact absurd (by simp [cmqSublistSubjectValid, parsed, validated]) accepted

lemma call_inv (inv : Inv run) (op : SublistCall δ) : Inv (run.call op) := by
  cases op with
  | insert alloc subject data =>
    rcases insert_cases inv alloc subject data with
      ⟨rc, accepted, distinct, -, perm, countEq⟩ | ⟨rc, same⟩
    · refine ⟨distinct, ?_, ?_, ?_⟩
      · simp only [call, rc, if_true, map_append]
        exact perm.trans ((inv.entries_perm.cons _).trans (perm_append_singleton _ _).symm)
      · simp [call, rc, countEq, inv.count_eq]
      simp only [call, rc, if_true, mem_append, mem_singleton]
      rintro sub (old | rfl)
      · exact inv.valid sub old
      exact accepted
    have unchanged : run.call (.insert alloc subject data) = run := by simp [call, rc, same]
    rw [unchanged]
    exact inv
  | remove subject data =>
    rcases remove_cases inv subject data with
      ⟨rc, -, member, distinct, -, perm, countEq⟩ | ⟨rc, same, -⟩
    · refine ⟨distinct, ?_, ?_, ?_⟩
      · simp only [call, rc]
        have whole := perm.symm.trans (inv.entries_perm.trans
          ((perm_cons_erase member).map slEntry))
        exact whole.cons_inv
      · have lengths := length_erase_of_mem member
        have counted := inv.count_eq
        simp only [call, rc, if_true]
        omega
      simp only [call, rc]
      intro sub inside
      exact inv.valid sub (mem_of_mem_erase inside)
    have unchanged : run.call (.remove subject data) = run := by simp [call, rc, same]
    rw [unchanged]
    exact inv

omit [DecidableEq δ] in
lemma Inv.perm (inv : Inv ⟨sublist, live⟩) (perm : live.Perm live') : Inv ⟨sublist, live'⟩ where
  distinct := inv.distinct
  entries_perm := inv.entries_perm.trans (perm.map slEntry)
  count_eq := inv.count_eq.trans perm.length_eq
  valid := fun sub inside => inv.valid sub (perm.mem_iff.mpr inside)

variable {subject : Bytes}

lemma Inv.insert (inv : Inv ⟨sublist, live⟩)
    (success : (cmqSublistInsert alloc sublist subject data).2 = 0) :
    Inv ⟨(cmqSublistInsert alloc sublist subject data).1, (subject, data) :: live⟩ := by
  have called := call_inv inv (.insert alloc subject data)
  simp only [call, success] at called
  exact called.perm (perm_append_singleton _ _)

omit [DecidableEq δ] in
lemma Inv.insert_failed (inv : Inv ⟨sublist, live⟩)
    (failed : (cmqSublistInsert alloc sublist subject data).2 ≠ 0) :
    (cmqSublistInsert alloc sublist subject data).1 = sublist := by
  rcases insert_cases inv alloc subject data with ⟨success, -⟩ | ⟨-, same⟩
  · exact absurd success failed
  exact same

lemma Inv.remove {data : δ} (inv : Inv ⟨sublist, (subject, some data) :: live⟩) :
    Inv ⟨(cmqSublistRemove sublist subject (some data)).1, live⟩ := by
  have called := call_inv inv (.remove subject (some data))
  rcases remove_cases inv subject (some data) with ⟨success, -⟩ | ⟨-, -, absent | absent⟩
  · simpa only [call, success, if_true, erase_cons_head] using called
  · cases absent
  exact absurd mem_cons_self absent

lemma calls_inv (sequence : List (SublistCall δ)) : Inv (calls sequence) := by
  refine List.foldlRecOn sequence call ?_ fun _ inv op _ => call_inv inv op
  exact ⟨trivial, List.Perm.refl _, rfl, by simp⟩

omit [DecidableEq δ] in
/-- Matching appends to an empty result exactly the live subscriptions that cover the
subject. -/
lemma match_appended (inv : Inv run) (realloc : Nat → Bool)
    (accepted : cmqSublistSubjectValid subject = true) :
    ∃ items, Appended realloc ⟨[], 0⟩ items (cmqSublistMatch realloc run.sublist subject) ∧
      items.Perm ((run.live.filter fun sub => subjectCovers sub.1 subject).map Prod.snd) := by
  have valid := validSubject_of_valid accepted
  have appended := matchRecursive_appended realloc run.sublist.root
    (tokens chDot subject) ⟨[], 0⟩
  refine ⟨_, by simpa only [cmqSublistMatch, valid.tokenize_eq] using appended, ?_⟩
  refine ((inv.entries_perm.filter _).map Prod.snd).trans ?_
  rw [filter_map, map_map]
  have covers : ∀ sub ∈ run.live,
      slMatch (slEntry sub).1 (tokens chDot subject) = subjectCovers sub.1 subject := by
    intro sub member
    have subValid := validSubject_of_valid (inv.valid sub member)
    rw [← subValid.path_eq sub.2, slMatch_map, subjectCovers]
  simp only [Function.comp_def]
  rw [filter_congr covers]
  exact List.Perm.refl _

omit [DecidableEq δ] in
lemma match_granted (inv : Inv run) (small : run.live.length ≤ sizeMax / 2 / 8)
    (accepted : cmqSublistSubjectValid subject = true) :
    (cmqSublistMatch (fun _ => true) run.sublist subject).isSome = true := by
  obtain ⟨items, appended, perm⟩ := match_appended inv (fun _ => true) accepted
  cases matched : cmqSublistMatch (fun _ => true) run.sublist subject with
  | some => rfl
  | none =>
    rw [matched] at appended
    have few : items.length ≤ run.live.length := by
      rw [perm.length_eq, length_map]
      exact length_filter_le _ _
    rcases appended with ⟨_, refused⟩ | overfull | large
    · cases refused
    · exact absurd (Nat.zero_le 0) overfull
    simp only [length_nil] at large
    omega

/-- After any sequence of insertions and removals, matching a valid subject returns exactly the live
subscriptions that cover it, each as often as it is live.  Calls fail only when an allocation
fails, and a removal succeeds exactly on a live subscription. -/
theorem calls_match_live (sequence : List (SublistCall δ)) (subject : Bytes)
    (valid : cmqSublistPublishSubjectValid subject = true) :
    (∀ realloc result, cmqSublistMatch realloc (calls sequence).sublist subject = some result →
        result.entries.Perm (((calls sequence).live.filter fun sub =>
            subjectCovers sub.1 subject).map Prod.snd)) ∧
    ((calls sequence).live.length ≤ sizeMax / 2 / 8 →
      (cmqSublistMatch (fun _ => true) (calls sequence).sublist subject).isSome = true ∧
      ∀ pattern data, cmqSublistSubjectValid pattern = true →
        (cmqSublistInsert .granted (calls sequence).sublist pattern data).2 = 0) ∧
    (∀ pattern data, (cmqSublistRemove (calls sequence).sublist pattern data).2 = 0 ↔
        data ≠ none ∧ (pattern, data) ∈ (calls sequence).live) := by
  have inv := calls_inv sequence
  generalize calls sequence = run at inv
  simp only [cmqSublistPublishSubjectValid, Bool.and_eq_true] at valid
  refine ⟨?_, ?_, ?_⟩
  · intro realloc result matched
    obtain ⟨_, appended, perm⟩ := match_appended inv realloc valid.1
    rw [matched] at appended
    rw [appended.1]
    exact perm
  · intro small
    refine ⟨match_granted inv small valid.1, ?_⟩
    · intro pattern data accepted
      have subjectOk := validSubject_of_valid accepted
      have granted := insertBelow_granted data 0 (tokens chDot pattern) run.sublist.root
        (by rw [inv.entries_perm.length_eq, length_map]; exact small)
      simp [cmqSublistInsert, subjectOk.validated, subjectOk.tokenize_eq, granted]
  intro pattern data
  rcases remove_cases inv pattern data with
    ⟨rc, present, member, -⟩ | ⟨rc, -, _⟩
  · simp [rc, present, member]
  rw [rc]
  tauto

/-- Four subscriptions, one of them removed again and one of them refused memory; both
wildcard patterns match and nothing else does. -/
theorem calls_match_live_wildcards :
    (cmqSublistMatch (fun _ => true)
      (calls [.insert .granted (cstr "a.*") (some 1), .insert .granted (cstr "a.>") (some 2),
        .insert .granted (cstr "a.b") (some 3), .remove (cstr "a.b") (some 3),
        .insert ⟨fun depth => depth = 0, true⟩ (cstr "b.c") (some 4)]).sublist
      (cstr "a.b")).isSome = true ∧
    ∀ result, cmqSublistMatch (fun _ => true)
      (calls [.insert .granted (cstr "a.*") (some 1), .insert .granted (cstr "a.>") (some 2),
        .insert .granted (cstr "a.b") (some 3), .remove (cstr "a.b") (some 3),
        .insert ⟨fun depth => depth = 0, true⟩ (cstr "b.c") (some 4)]).sublist
      (cstr "a.b") = some result → result.entries.Perm [some 1, some 2] :=
  ⟨by decide, (calls_match_live (δ := Nat) _ (cstr "a.b") (by decide)).1 _⟩

lemma call_filled (inv : Inv run) (filled : run.sublist.root.2.Filled) (op : SublistCall δ) :
    (run.call op).sublist.root.2.Filled := by
  cases op with
  | insert alloc subject data =>
    rcases insert_cases inv alloc subject data with ⟨-, -, -, keeps, -⟩ | ⟨-, same⟩
    · exact keeps filled
    simpa only [call, same] using filled
  | remove subject data =>
    rcases remove_cases inv subject data with ⟨-, -, -, -, keeps, -⟩ | ⟨-, same, -⟩
    · exact keeps filled
    simpa only [call, same] using filled

/-- After any sequence of calls siblings differ, leaves hold subscriptions and the count is that of
all subscriptions; an insertion that fails changes nothing. -/
theorem calls_shape (sequence : List (SublistCall δ)) :
    let sl := (calls sequence).sublist
    sl.root.2.Distinct ∧ sl.root.2.Filled ∧
      sl.count = sl.root.1.subs.length + sl.root.2.total (·.subs.length) ∧
      ∀ alloc subject data, (cmqSublistInsert alloc sl subject data).2 ≠ 0 →
        (cmqSublistInsert alloc sl subject data).1 = sl := by
  obtain ⟨inv, filled⟩ := List.foldlRecOn (motive := fun run => Inv run ∧ run.sublist.root.2.Filled)
    sequence call ⟨calls_inv [], trivial⟩
    fun _ holds op _ => ⟨call_inv holds.1 op, call_filled holds.1 holds.2 op⟩
  refine ⟨inv.distinct, filled, ?_, fun _ _ _ failed => inv.insert_failed failed⟩
  have lengths := inv.entries_perm.length_eq
  simp only [Forest.nodeEntries, length_append, length_map, Forest.length_entries] at lengths
  exact inv.count_eq.trans lengths.symm

/-- After any calls, nodes are left in the trie only as long as a subscription is live. -/
theorem calls_empty_iff (sequence : List (SublistCall δ)) :
    (calls sequence).live = [] ↔ (calls sequence).sublist.root.isEmpty = true := by
  have inv := calls_inv sequence
  have filled : Inv (calls sequence) ∧ (calls sequence).sublist.root.2.Filled :=
    List.foldlRecOn (motive := fun run => Inv run ∧ run.sublist.root.2.Filled) sequence call
      ⟨calls_inv [], trivial⟩
      fun _ holds op _ => ⟨call_inv holds.1 op, call_filled holds.1 holds.2 op⟩
  have lengths := inv.entries_perm.length_eq
  simp only [Forest.nodeEntries, length_append, length_map, Forest.length_entries] at lengths
  rw [← length_eq_zero_iff, ← lengths, Nat.add_eq_zero_iff, SlNode.isEmpty]
  constructor
  · rintro ⟨own, below⟩
    rw [filled.2.eq_nil below, length_eq_zero_iff.mp own]
    rfl
  intro empty
  split at empty
  next none => simpa [none, Forest.total] using empty
  simp at empty

end SublistRun

/-- The trie holding one pattern, the recheck at delivery time and the account-level
matcher agree on every valid subject: the match returns the subscription once if both
walking matchers accept, and nothing if both refuse. -/
theorem cmqSublistMatch_eq_walks [DecidableEq δ] (alloc : InsertAlloc) (pattern : Bytes)
    (data : Option δ) (subject : Bytes)
    (accepted : (cmqSublistInsert alloc cmqSublistCreate pattern data).2 = 0)
    (valid : cmqSublistPublishSubjectValid subject = true) :
    ∃ result,
      cmqSublistMatch (fun _ => true)
          (cmqSublistInsert alloc cmqSublistCreate pattern data).1 subject = some result ∧
        result.entries = (if subPatternMatch pattern subject then [data] else []) ∧
        result.entries = (if subjectMatch pattern subject then [data] else []) := by
  have inv := SublistRun.calls_inv [SublistCall.insert alloc pattern data]
  have runEq : SublistRun.calls [SublistCall.insert alloc pattern data] =
      ⟨(cmqSublistInsert alloc cmqSublistCreate pattern data).1, [(pattern, data)]⟩ := by
    simp [SublistRun.calls, SublistRun.call, accepted]
  rw [runEq] at inv
  have subjectValid := valid
  simp only [cmqSublistPublishSubjectValid, Bool.and_eq_true] at subjectValid
  have patternValid := inv.valid (pattern, data) (by simp)
  obtain ⟨items, appended, perm⟩ := SublistRun.match_appended inv (fun _ => true) subjectValid.1
  have law : items = if subjectCovers pattern subject then [data] else [] := by
    cases covers : subjectCovers pattern subject with
    | false =>
      simp only [filter_cons, covers] at perm
      exact perm_nil.mp perm
    | true =>
      simp only [filter_cons, covers] at perm
      exact perm_singleton.mp perm
  have decided := walkMatch_eq patternValid valid
  obtain ⟨result, matched⟩ := Option.isSome_iff_exists.mp
    (SublistRun.match_granted inv (by simp [sizeMax]) subjectValid.1)
  rw [matched] at appended
  refine ⟨result, matched, ?_, ?_⟩
  · rw [appended.1, law, subPatternMatch, decided]
    rfl
  rw [appended.1, law, subjectMatch, decided]
  rfl

/-- `a.>` covers `a` itself in all three matchers. -/
theorem cmqSublistMatch_eq_walks_gt :
    ∃ result, cmqSublistMatch (fun _ => true)
          (cmqSublistInsert .granted cmqSublistCreate (cstr "a.>") (some 7)).1 (cstr "a") =
        some result ∧ result.entries = [some 7] ∧
      subPatternMatch (cstr "a.>") (cstr "a") = true := by
  obtain ⟨result, matched, entries, -⟩ := cmqSublistMatch_eq_walks (δ := Nat) .granted
    (cstr "a.>") (some 7) (cstr "a") (by decide) (by decide)
  exact ⟨result, matched, entries, by decide⟩

end CMsgQueue.Server
