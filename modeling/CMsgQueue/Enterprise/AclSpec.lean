import CMsgQueue.Enterprise.Acl

/-!
# Where the ACL matcher departs from the documented law

For each shape of pattern the raw comparison is put in closed form and compared with the law.
-/

namespace CMsgQueue.Enterprise

open List Tokens

/-! ## The law on concatenated text -/

lemma splitOn_append_dot (front rest : Bytes) :
    (front ++ chDot :: rest).splitOn chDot =
      front.splitOn chDot ++ rest.splitOn chDot :=
  splitOnP_append_cons _ _ (by simp)

lemma tokenCount_eq (text : Bytes) : tokenCount text = (text.splitOn chDot).length := by
  induction text with
  | nil => rfl
  | cons symbol text ih =>
    rw [tokenCount] at ih ⊢
    rw [List.splitOn, splitOnP_cons_eq_if_modifyHead]
    rw [List.splitOn] at ih
    by_cases isDot : symbol = chDot
    · simp [isDot]
      omega
    simp [isDot, ← ih]

lemma tokenCount_append_dot (front rest : Bytes) :
    tokenCount (front ++ chDot :: rest) = tokenCount front + tokenCount rest := by
  rw [tokenCount_eq, splitOn_append_dot, length_append, ← tokenCount_eq, ← tokenCount_eq]

lemma tokenCount_of_notMem (single : chDot ∉ text) : tokenCount text = 1 := by
  rw [tokenCount, count_eq_zero_of_not_mem single]

lemma tokenCount_pos (text : Bytes) : 0 < tokenCount text := by
  unfold tokenCount
  omega

variable {tokens : List Bytes} {front subject last pattern : Bytes}

lemma lawTokens_append (front : List Bytes) (matched : lawTokens patterns tokens = true) :
    lawTokens (front ++ patterns) (front ++ tokens) = true := by
  induction front with
  | nil => exact matched
  | cons _ front ih => simp [lawTokens, ih]

lemma length_of_lawTokens (matched : lawTokens patterns tokens = true) :
    patterns.length ≤ tokens.length ∧
      (patterns.getLast? ≠ some [chGt] → patterns.length = tokens.length) := by
  induction patterns generalizing tokens with
  | nil =>
    rw [lawTokens, List.isEmpty_iff] at matched
    simp [matched]
  | cons _ patterns ih =>
    cases tokens with
    | nil => simp [lawTokens] at matched
    | cons _ tokens =>
      simp only [lawTokens, Bool.or_eq_true, Bool.and_eq_true, List.isEmpty_iff] at matched
      rw [List.length_cons]
      rcases matched with ⟨isGt, rfl⟩ | ⟨-, later⟩
      · exact ⟨by simp, fun notGt => absurd (by simpa using isGt) notGt⟩
      refine ⟨Nat.succ_le_succ (ih later).1, fun notGt => congrArg _ ((ih later).2 ?_)⟩
      cases patterns with
      | nil => simp
      | cons _ patterns => simpa [getLast?_cons_cons] using notGt

lemma lawMatch_gt (front rest : Bytes) :
    lawMatch (front ++ [chDot, chGt]) (front ++ chDot :: rest) = true := by
  rw [lawMatch, splitOn_append_dot, splitOn_append_dot]
  apply lawTokens_append
  cases tokensEq : rest.splitOn chDot with
  | nil => exact absurd tokensEq (splitOn_ne_nil chDot rest)
  | cons => rfl

lemma lawMatch_star (front : Bytes) {rest : Bytes} (single : chDot ∉ rest) :
    lawMatch (front ++ [chDot, chStar]) (front ++ chDot :: rest) = true := by
  rw [lawMatch, splitOn_append_dot, splitOn_append_dot, splitOn_eq_singleton single]
  apply lawTokens_append
  simp [splitOn_eq_singleton, chDot, chStar, lawTokens]

lemma lawMatch_self (text : Bytes) : lawMatch text text = true := by
  have matched : lawTokens (text.splitOn chDot ++ []) (text.splitOn chDot ++ []) = true :=
    lawTokens_append _ rfl
  simpa [lawMatch] using matched

/-! ## The raw comparison in closed form -/

lemma take_eq_iff_append :
    front = subject.take front.length ↔ ∃ rest, subject = front ++ rest := by
  rw [← prefix_iff_eq_take]
  exact ⟨fun ⟨rest, whole⟩ => ⟨rest, whole.symm⟩, fun ⟨rest, whole⟩ => ⟨rest, whole.symm⟩⟩

lemma matchPattern_fwc (front subject : Bytes) (symbol : UInt8) :
    ∃ verdict, matchPattern (compilePattern (front ++ [symbol, chGt])) subject = some verdict ∧
      (verdict = true ↔ symbol = chDot ∧ tokenCount (front ++ [symbol, chGt]) ≤ tokenCount subject ∧
        ∃ rest, subject = front ++ rest) := by
  have isFwc : (front ++ [symbol, chGt]).getLast? = some chGt := by simp
  have stripped : strippedLen (front ++ [symbol, chGt]) = front.length := by
    rw [strippedLen, length_append]
    rfl
  unfold matchPattern
  simp only [compilePattern, isFwc, beq_self_eq_true, if_true, stripped, take_left]
  by_cases enough : tokenCount subject < tokenCount (front ++ [symbol, chGt])
  · rw [if_pos enough]
    exact ⟨false, rfl, by simp; omega⟩
  rw [if_neg enough]
  by_cases literal : front = subject.take front.length
  · rw [if_neg (not_not.mpr literal), if_neg (by simp)]
    refine ⟨_, rfl, ?_⟩
    rw [take_eq_iff_append] at literal
    simp only [getElem?_append_right (le_refl _), Nat.sub_self,
      getElem?_cons_zero, beq_iff_eq, Option.some.injEq]
    exact ⟨fun isDot => ⟨isDot, by omega, literal⟩, fun all => all.1⟩
  rw [if_pos literal]
  rw [take_eq_iff_append] at literal
  exact ⟨false, rfl, by simp [literal]⟩

lemma matchPattern_gt (subject : Bytes) :
    matchPattern (compilePattern [chGt]) subject =
      if subject = [chGt] then none else some false := by
  have enough : ¬ tokenCount subject < tokenCount [chGt] := by
    have positive := tokenCount_pos subject
    have one : tokenCount [chGt] = 1 := by decide
    omega
  have stripped : strippedLen [chGt] = 2 ^ 64 - 1 := by decide
  unfold matchPattern
  simp only [compilePattern, getLast?_singleton, beq_self_eq_true, if_true, if_neg enough, stripped]
  by_cases same : subject = [chGt]
  · subst same
    rw [if_neg (by simp), if_pos (by simp), if_pos rfl]
  rw [if_neg same, if_pos]
  intro literal
  apply same
  cases subject with
  | nil => simp at literal
  | cons _ rest =>
    cases rest with
    | nil => simpa using literal.symm
    | cons _ rest =>
      have lengths := congrArg List.length literal
      simp at lengths

lemma lastDot_eq (single : chDot ∉ last) :
    lastDot (front ++ chDot :: last) = some front.length := by
  have token : lastToken (front ++ chDot :: last) = last := by
    unfold lastToken
    rw [reverse_append, reverse_cons, append_assoc, takeWhile_append_of_pos]
    · simp
    intro _ member
    simp only [decide_eq_true_eq]
    rintro rfl
    exact single (mem_reverse.mp member)
  rw [lastDot, if_pos (by simp), token, length_append, length_cons]
  congr 1
  omega

lemma exists_last_dot (dotted : chDot ∈ text) :
    ∃ front last, text = front ++ chDot :: last ∧ chDot ∉ last := by
  obtain ⟨last, front, whole, single⟩ := eq_append_cons_of_mem (mem_reverse.mpr dotted)
  refine ⟨front.reverse, last.reverse, ?_, by simpa using single⟩
  rw [← reverse_reverse text, whole]
  simp

lemma matchPattern_pwc (subject : Bytes) (single : chDot ∉ last)
    (isPwc : (front ++ chDot :: last).getLast? = some chStar) :
    ∃ verdict, matchPattern (compilePattern (front ++ chDot :: last)) subject = some verdict ∧
      (verdict = true ↔ last.head? = some chStar ∧
        tokenCount subject = tokenCount (front ++ chDot :: last) ∧
        ∃ rest, subject = front ++ chDot :: rest) := by
  have following : (front ++ chDot :: last)[front.length + 1]? = last.head? := by
    rw [getElem?_append_right (Nat.le_add_right _ _), Nat.add_sub_cancel_left,
      getElem?_cons_succ, head?_eq_getElem?]
  unfold matchPattern
  simp only [compilePattern, isPwc, lastDot_eq single, following, take_left]
  by_cases sameCount : tokenCount subject = tokenCount (front ++ chDot :: last)
  · rw [if_neg (not_not.mpr sameCount)]
    by_cases starred : last.head? = some chStar
    · rw [if_neg (not_not.mpr starred)]
      by_cases literal : front = subject.take front.length
      · rw [if_neg (not_not.mpr literal)]
        refine ⟨_, rfl, ?_⟩
        obtain ⟨rest, rfl⟩ := take_eq_iff_append.mp literal
        rw [getElem?_append_right (le_refl _), Nat.sub_self, beq_iff_eq,
          ← head?_eq_getElem?, head?_eq_some_iff]
        constructor
        · rintro ⟨later, rfl⟩
          exact ⟨starred, sameCount, later, rfl⟩
        rintro ⟨-, -, later, whole⟩
        exact ⟨later, append_cancel_left whole⟩
      rw [if_pos literal]
      rw [take_eq_iff_append] at literal
      refine ⟨false, rfl, ⟨by simp, ?_⟩⟩
      rintro ⟨-, -, rest, whole⟩
      exact absurd ⟨_, whole⟩ literal
    rw [if_pos starred]
    exact ⟨false, rfl, by simp [starred]⟩
  rw [if_pos sameCount]
  exact ⟨false, rfl, by simp [sameCount]⟩

/-- What the raw comparison accepts: what the law accepts without being missed, and
what is overmatched. -/
def AclSees (pattern subject : Bytes) : Prop :=
  (lawMatch pattern subject = true ∧ ¬ AclMiss pattern subject) ∨ AclOver pattern subject

def AnyPattern (patterns : List Bytes) (relation : Bytes → Bytes → Prop)
    (subject : Bytes) : Prop :=
  ∃ pattern ∈ patterns, relation pattern subject

lemma law_and_not_miss (law literal : Prop) :
    law ∧ ¬ (law ∧ ¬ literal) ↔ law ∧ literal :=
  and_congr_right fun holds =>
    ⟨fun seen => by_contra fun missed => seen ⟨holds, missed⟩, fun seen missed =>
      missed.2 seen⟩

lemma not_over_gt (notFwc : pattern.getLast? ≠ some chGt) :
    ¬ ∃ front symbol rest, pattern = front ++ [chDot, chGt] ∧
      subject = front ++ symbol :: rest ∧ symbol ≠ chDot ∧
        tokenCount pattern ≤ tokenCount subject := by
  rintro ⟨front, symbol, rest, rfl, -⟩
  simp at notFwc

lemma not_over_star (notPwc : pattern.getLast? ≠ some chStar) :
    ¬ ∃ front more rest, pattern = front ++ chDot :: chStar :: (more ++ [chStar]) ∧
      chDot ∉ more ∧ subject = front ++ chDot :: rest ∧ chDot ∉ rest := by
  rintro ⟨front, more, rest, rfl, -⟩
  simp [getLast?_cons] at notPwc

lemma sees_iff_of_fwc (isFwc : pattern.getLast? = some chGt) :
    AclSees pattern subject ↔ (lawMatch pattern subject = true ∧
        ∃ front rest, pattern = front ++ [chDot, chGt] ∧ subject = front ++ rest) ∨
      (lawMatch pattern subject = false ∧ ∃ front symbol rest, pattern = front ++ [chDot, chGt] ∧
          subject = front ++ symbol :: rest ∧ symbol ≠ chDot ∧
          tokenCount pattern ≤ tokenCount subject) := by
  have distinct : chGt ≠ chStar := by decide
  unfold AclSees AclMiss AclOver
  simp only [isFwc, Option.some.injEq, distinct, false_and, true_and, ne_eq,
    not_true_eq_false, or_false, not_over_star (show pattern.getLast? ≠ some chStar by
      simp [isFwc, distinct])]
  exact or_congr_left (law_and_not_miss _ _)

lemma sees_iff_of_pwc (isPwc : pattern.getLast? = some chStar) :
    AclSees pattern subject ↔ (lawMatch pattern subject = true ∧
        ∃ front more rest, pattern = front ++ chDot :: chStar :: more ∧
          chDot ∉ more ∧ subject = front ++ chDot :: rest) ∨
      (lawMatch pattern subject = false ∧
        ∃ front more rest, pattern = front ++ chDot :: chStar :: (more ++ [chStar]) ∧
          chDot ∉ more ∧ subject = front ++ chDot :: rest ∧ chDot ∉ rest) := by
  have distinct : chStar ≠ chGt := by decide
  unfold AclSees AclMiss AclOver
  simp only [isPwc, Option.some.injEq, distinct, false_and, true_and, ne_eq,
    not_true_eq_false, and_false, or_false, false_or,
    not_over_gt (show pattern.getLast? ≠ some chGt by simp [isPwc, distinct])]
  exact or_congr_left (law_and_not_miss _ _)

lemma sees_iff_of_plain (notFwc : pattern.getLast? ≠ some chGt)
    (notPwc : pattern.getLast? ≠ some chStar) : AclSees pattern subject ↔ subject = pattern := by
  unfold AclSees AclMiss AclOver
  simp only [notFwc, notPwc, false_and, true_and, ne_eq, not_false_eq_true, false_or,
    not_over_gt notFwc, not_over_star notPwc, and_false, or_false]
  constructor
  · rintro ⟨law, seen⟩
    by_contra differs
    exact seen ⟨law, differs⟩
  rintro rfl
  exact ⟨lawMatch_self _, fun missed => missed.2 rfl⟩

lemma sees_fwc (front subject : Bytes) (symbol : UInt8) :
    AclSees (front ++ [symbol, chGt]) subject ↔ symbol = chDot ∧
      tokenCount (front ++ [symbol, chGt]) ≤ tokenCount subject ∧
      ∃ rest, subject = front ++ rest := by
  rw [sees_iff_of_fwc (by simp)]
  constructor
  · rintro (⟨law, other, rest, whole, subjectEq⟩ |
      ⟨-, other, next, rest, whole, subjectEq, -, enough⟩)
    · obtain ⟨rfl, symbols⟩ := append_inj' whole rfl
      have enough := (length_of_lawTokens law).1
      rw [← tokenCount_eq, ← tokenCount_eq] at enough
      exact ⟨by simpa using symbols, enough, rest, subjectEq⟩
    obtain ⟨rfl, symbols⟩ := append_inj' whole rfl
    exact ⟨by simpa using symbols, enough, _, subjectEq⟩
  rintro ⟨rfl, enough, rest, rfl⟩
  cases law : lawMatch (front ++ [chDot, chGt]) (front ++ rest) with
  | true => exact Or.inl ⟨rfl, front, rest, rfl, rfl⟩
  | false =>
    right
    cases rest with
    | nil =>
      have more := tokenCount_append_dot front [chGt]
      have positive := tokenCount_pos [chGt]
      rw [append_nil] at enough
      omega
    | cons next rest =>
      refine ⟨rfl, front, next, rest, rfl, rfl, ?_, enough⟩
      rintro rfl
      rw [lawMatch_gt] at law
      cases law

lemma last_dot_inj (single : chDot ∉ last) (single' : chDot ∉ last')
    (same : front ++ chDot :: last = front' ++ chDot :: last') : front = front' ∧ last = last' := by
  have lengths := @lastDot_eq front last single
  rw [same, lastDot_eq single'] at lengths
  obtain ⟨fronts, lasts⟩ := append_inj same (Option.some.inj lengths).symm
  exact ⟨fronts, (List.cons.inj lasts).2⟩

lemma sees_pwc (subject : Bytes) (single : chDot ∉ last)
    (isPwc : (front ++ chDot :: last).getLast? = some chStar) :
    AclSees (front ++ chDot :: last) subject ↔ last.head? = some chStar ∧
      tokenCount subject = tokenCount (front ++ chDot :: last) ∧
      ∃ rest, subject = front ++ chDot :: rest := by
  have notDot : chDot ≠ chStar := by decide
  rw [sees_iff_of_pwc isPwc]
  constructor
  · rintro (⟨law, other, more, rest, whole, moreSingle, subjectEq⟩ |
      ⟨-, other, more, rest, whole, moreSingle, subjectEq, restSingle⟩)
    · obtain ⟨rfl, rfl⟩ := last_dot_inj single (by simp [notDot, moreSingle]) whole
      refine ⟨rfl, ?_, rest, subjectEq⟩
      have counts := (length_of_lawTokens law).2 ?_
      · rw [tokenCount_eq, tokenCount_eq, counts]
      rw [splitOn_append_dot, splitOn_eq_singleton single]
      simp [chStar, chGt]
    obtain ⟨rfl, rfl⟩ :=
      last_dot_inj single (by simp [notDot, moreSingle]) whole
    refine ⟨rfl, ?_, rest, subjectEq⟩
    rw [subjectEq, tokenCount_append_dot, tokenCount_append_dot,
      tokenCount_of_notMem restSingle, tokenCount_of_notMem single]
  rintro ⟨starred, counts, rest, rfl⟩
  obtain ⟨more, rfl⟩ := head?_eq_some_iff.mp starred
  have moreSingle : chDot ∉ more := fun member => single (mem_cons_of_mem _ member)
  have restSingle : chDot ∉ rest := by
    rw [tokenCount_append_dot, tokenCount_append_dot, tokenCount_of_notMem single] at counts
    unfold tokenCount at counts
    exact count_eq_zero.mp (by omega)
  cases law : lawMatch (front ++ chDot :: chStar :: more) (front ++ chDot :: rest) with
  | true => exact Or.inl ⟨rfl, front, more, rest, rfl, moreSingle, rfl⟩
  | false =>
    right
    rcases eq_nil_or_concat more with rfl | ⟨inner, symbol, rfl⟩
    · rw [lawMatch_star front restSingle] at law
      cases law
    rw [concat_eq_append] at *
    have isStar : symbol = chStar := by simpa [getLast?_cons] using isPwc
    subst isStar
    exact ⟨rfl, front, inner, rest, rfl, fun member => moreSingle (by simp [member]),
      rfl, restSingle⟩

/-- The verdict of `match_pattern` on every pattern and subject; only the pattern `>`
on the subject `>` has none. -/
lemma matchPattern_sees (pattern subject : Bytes) :
    if pattern = [chGt] ∧ subject = [chGt] then
      matchPattern (compilePattern pattern) subject = none
    else
      ∃ verdict, matchPattern (compilePattern pattern) subject = some verdict ∧
        (verdict = true ↔ AclSees pattern subject) := by
  by_cases isFwc : pattern.getLast? = some chGt
  · obtain ⟨front, rfl⟩ := getLast?_eq_some_iff.mp isFwc
    rcases eq_nil_or_concat front with rfl | ⟨inner, symbol, rfl⟩
    · rw [nil_append, matchPattern_gt]
      by_cases same : subject = [chGt]
      · simp [same]
      rw [if_neg (by simp [same]), if_neg same]
      refine ⟨false, rfl, ⟨by simp, fun seen => ?_⟩⟩
      rw [sees_iff_of_fwc rfl] at seen
      rcases seen with ⟨-, front, rest, whole, -⟩ | ⟨-, front, symbol, rest, whole, -⟩
      · have lengths := congrArg List.length whole
        simp at lengths
      have lengths := congrArg List.length whole
      simp at lengths
    rw [concat_eq_append, append_assoc, singleton_append]
    have long : ¬ (inner ++ [symbol, chGt] = [chGt] ∧ subject = [chGt]) := by
      rintro ⟨whole, -⟩
      have lengths := congrArg List.length whole
      simp at lengths
    rw [if_neg long]
    obtain ⟨verdict, decided, meaning⟩ := matchPattern_fwc inner subject symbol
    exact ⟨verdict, decided, meaning.trans (sees_fwc inner subject symbol).symm⟩
  rw [if_neg (by rintro ⟨rfl, -⟩; exact isFwc rfl)]
  by_cases isPwc : pattern.getLast? = some chStar
  · by_cases dotted : chDot ∈ pattern
    · obtain ⟨front, _, rfl, single⟩ := exists_last_dot dotted
      obtain ⟨verdict, decided, meaning⟩ := matchPattern_pwc subject single isPwc
      exact ⟨verdict, decided, meaning.trans (sees_pwc subject single isPwc).symm⟩
    refine ⟨false, ?_, ⟨by simp, fun seen => absurd ?_ dotted⟩⟩
    · have distinct : chStar ≠ chGt := by decide
      simp [matchPattern, compilePattern, isPwc, distinct, lastDot, dotted]
    rw [sees_iff_of_pwc isPwc] at seen
    rcases seen with ⟨-, front, more, rest, rfl, -⟩ | ⟨-, front, more, rest, rfl, -⟩
    · simp
    simp
  refine ⟨pattern == subject, by simp [matchPattern, compilePattern, isFwc, isPwc], ?_⟩
  rw [sees_iff_of_plain isFwc isPwc, beq_iff_eq]
  exact eq_comm

lemma not_sees_gt (pattern : Bytes) : ¬ AclSees pattern [chGt] := by
  have plain : chDot ∉ [chGt] := by decide
  intro seen
  by_cases isFwc : pattern.getLast? = some chGt
  · rw [sees_iff_of_fwc isFwc] at seen
    have enough : ∃ front, pattern = front ++ [chDot, chGt] ∧
        tokenCount pattern ≤ tokenCount [chGt] := by
      rcases seen with ⟨law, front, -, whole, -⟩ | ⟨-, front, -, -, whole, -, -, enough⟩
      · have lengths := (length_of_lawTokens law).1
        rw [← tokenCount_eq] at lengths
        exact ⟨front, whole, lengths⟩
      exact ⟨front, whole, enough⟩
    obtain ⟨front, rfl, short⟩ := enough
    have positive := tokenCount_pos front
    rw [tokenCount_append_dot] at short
    omega
  by_cases isPwc : pattern.getLast? = some chStar
  · rw [sees_iff_of_pwc isPwc] at seen
    rcases seen with ⟨-, front, -, rest, -, -, whole⟩ | ⟨-, front, -, rest, -, -, whole, -⟩
    · exact plain (by rw [whole]; simp)
    exact plain (by rw [whole]; simp)
  rw [sees_iff_of_plain isFwc isPwc] at seen
  exact isFwc (by rw [← seen]; rfl)

/-! ## Decisions -/

variable {patterns : List Bytes}

lemma anyMatch_map (inside : ¬ (subject = [chGt] ∧ [chGt] ∈ patterns)) :
    ∃ verdict, anyMatch (patterns.map compilePattern) subject = some verdict ∧
      (verdict = true ↔ AnyPattern patterns AclSees subject) := by
  induction patterns with
  | nil => exact ⟨false, rfl, by simp [AnyPattern]⟩
  | cons pattern patterns ih =>
    rw [mem_cons, not_and_or, not_or] at inside
    have spec := matchPattern_sees pattern subject
    rw [if_neg (by rintro ⟨isGt, same⟩; rcases inside with differs | ⟨first, -⟩
                   · exact differs same
                   exact first isGt.symm)] at spec
    obtain ⟨verdict, decided, meaning⟩ := spec
    obtain ⟨later, laterDecided, laterMeaning⟩ := ih (by tauto)
    rw [map_cons, anyMatch, decided]
    cases verdict with
    | true => exact ⟨true, rfl, by simp [AnyPattern, meaning.mp rfl]⟩
    | false =>
      refine ⟨later, laterDecided, laterMeaning.trans ?_⟩
      have unseen : ¬ AclSees pattern subject := fun seen => by
        cases meaning.mpr seen
      simp [AnyPattern, unseen]

lemma anyMatch_gt (member : [chGt] ∈ patterns) :
    anyMatch (patterns.map compilePattern) [chGt] = none := by
  induction patterns with
  | nil => simp at member
  | cons pattern patterns ih =>
    rw [map_cons, anyMatch]
    have spec := matchPattern_sees pattern [chGt]
    by_cases isGt : pattern = [chGt]
    · rw [if_pos ⟨isGt, rfl⟩] at spec
      rw [spec]
    rw [if_neg (by simp [isGt])] at spec
    obtain ⟨verdict, decided, meaning⟩ := spec
    have unseen : verdict = false := by
      by_contra seen
      exact not_sees_gt pattern (meaning.mp (by simpa using seen))
    rw [decided, unseen]
    exact ih ((mem_cons.mp member).resolve_left (Ne.symm isGt))

lemma length_append_one (side : AclSide) (acl : CmqAcl) (pattern : Bytes) :
    ((acl.append side [compilePattern pattern]).patterns side).length =
      (acl.patterns side).length + 1 := by
  cases side <;> simp [CmqAcl.append, CmqAcl.patterns]

lemma aclAddAll_cons (side : AclSide) (acl : CmqAcl) (pattern : Bytes) (patterns : List Bytes)
    (free : (acl.patterns side).length < cmqAclMaxPatterns) :
    aclAddAll side acl (pattern :: patterns) =
      aclAddAll side (acl.append side [compilePattern pattern]) patterns := by
  have added : aclAdd side acl pattern = (acl.append side [compilePattern pattern], 0) := by
    rw [aclAdd, if_neg (not_le.mpr free)]
  cases side <;> simp [aclAddAll, cmqAclAllow, cmqAclDeny, added]

lemma aclAddAll_eq (side : AclSide) (acl : CmqAcl) (patterns : List Bytes)
    (room : (acl.patterns side).length + patterns.length ≤ cmqAclMaxPatterns) :
    aclAddAll side acl patterns = (acl.append side (patterns.map compilePattern), 0) := by
  induction patterns generalizing acl with
  | nil => cases side <;> simp [aclAddAll, CmqAcl.append]
  | cons pattern patterns ih =>
    rw [length_cons] at room
    have grown := length_append_one side acl pattern
    rw [aclAddAll_cons side acl pattern patterns (by omega), ih _ (by omega)]
    cases side <;> simp [CmqAcl.append]

lemma aclAddAll_full (side : AclSide) (acl : CmqAcl) (patterns : List Bytes)
    (bound : (acl.patterns side).length ≤ cmqAclMaxPatterns)
    (full : cmqAclMaxPatterns < (acl.patterns side).length + patterns.length) :
    (aclAddAll side acl patterns).2 = -1 := by
  induction patterns generalizing acl with
  | nil =>
    rw [length_nil] at full
    omega
  | cons pattern patterns ih =>
    rw [length_cons] at full
    by_cases free : (acl.patterns side).length < cmqAclMaxPatterns
    · have grown := length_append_one side acl pattern
      rw [aclAddAll_cons side acl pattern patterns free]
      exact ih _ (by omega) (by omega)
    have refused : aclAdd side acl pattern = (acl, -1) := by rw [aclAdd, if_pos (not_lt.mp free)]
    cases side <;> simp [aclAddAll, cmqAclAllow, cmqAclDeny, refused]

lemma configuredAcl_eq (allow deny : List Bytes) :
    configuredAcl allow deny =
      if allow.length ≤ cmqAclMaxPatterns ∧ deny.length ≤ cmqAclMaxPatterns then
        some { allow := allow.map compilePattern, deny := deny.map compilePattern }
      else none := by
  have emptyAllow : (cmqAclCreate.patterns .allow).length = 0 := rfl
  unfold configuredAcl
  by_cases allowRoom : allow.length ≤ cmqAclMaxPatterns
  · have allowed := aclAddAll_eq .allow cmqAclCreate allow (by omega)
    have emptyDeny :
        ((cmqAclCreate.append .allow (allow.map compilePattern)).patterns .deny).length =
          0 := rfl
    by_cases denyRoom : deny.length ≤ cmqAclMaxPatterns
    · have denied := aclAddAll_eq .deny
        (cmqAclCreate.append .allow (allow.map compilePattern)) deny (by omega)
      simp only [allowed, denied, allowRoom, denyRoom]
      rfl
    have denied := aclAddAll_full .deny
      (cmqAclCreate.append .allow (allow.map compilePattern)) deny (by omega) (by omega)
    simp [allowed, denied, denyRoom]
  have allowed := aclAddAll_full .allow cmqAclCreate allow (by omega) (by omega)
  simp [allowed, allowRoom]

abbrev AclLaw (pattern subject : Bytes) : Prop := lawMatch pattern subject = true

/-- The decision is the documented one: the matcher stays inside its patterns, a documented denial
is seen or made up for by the allow list, and no overmatched or missed pattern decides on a
subject that no list or only the allow list rejects. -/
structure AclSound (allow deny : List Bytes) (subject : Bytes) : Prop where
  inside : ¬ (subject = [chGt] ∧ ([chGt] ∈ deny ∨ [chGt] ∈ allow))
  denied : AnyPattern deny AclLaw subject →
    AnyPattern deny AclSees subject ∨ (allow ≠ [] ∧ ¬ AnyPattern allow AclSees subject)
  refused : ¬ AnyPattern deny AclLaw subject → allow ≠ [] → ¬ AnyPattern allow AclLaw subject →
    AnyPattern deny AclOver subject ∨ ¬ AnyPattern allow AclOver subject
  admitted : ¬ AnyPattern deny AclLaw subject → (allow = [] ∨ AnyPattern allow AclLaw subject) →
    ¬ AnyPattern deny AclOver subject ∧ (allow = [] ∨ AnyPattern allow AclSees subject)

lemma sees_iff_over (none : ¬ AnyPattern patterns AclLaw subject) :
    AnyPattern patterns AclSees subject ↔ AnyPattern patterns AclOver subject := by
  constructor
  · rintro ⟨pattern, member, ⟨law, -⟩ | overmatched⟩
    · exact absurd ⟨pattern, member, law⟩ none
    exact ⟨pattern, member, overmatched⟩
  rintro ⟨pattern, member, overmatched⟩
  exact ⟨pattern, member, Or.inr overmatched⟩

lemma decision_iff {denySeen denyLaw denyOver allowSeen allowLaw allowOver empty : Prop}
    (deny : ¬ denyLaw → (denySeen ↔ denyOver)) (allow : ¬ allowLaw → (allowSeen ↔ allowOver)) :
    (¬ denySeen ∧ (empty ∨ allowSeen) ↔ ¬ denyLaw ∧ (empty ∨ allowLaw)) ↔
      (denyLaw → denySeen ∨ (¬ empty ∧ ¬ allowSeen)) ∧
      (¬ denyLaw → ¬ empty → ¬ allowLaw → denyOver ∨ ¬ allowOver) ∧
      (¬ denyLaw → empty ∨ allowLaw → ¬ denyOver ∧ (empty ∨ allowSeen)) := by
  by_cases denied : denyLaw
  · simp only [denied, not_true_eq_false]
    tauto
  rw [deny denied]
  by_cases allowed : allowLaw
  · simp [denied, allowed]
  by_cases none : empty
  · simp [denied, none]
  tauto

lemma cmqAclCheck_sees {allow deny : List Bytes}
    (inside : ¬ (subject = [chGt] ∧ ([chGt] ∈ deny ∨ [chGt] ∈ allow))) :
    ∃ decision, cmqAclCheck (some ⟨allow.map compilePattern, deny.map compilePattern⟩) subject =
          some decision ∧
        (decision = true ↔ ¬ AnyPattern deny AclSees subject ∧
          (allow = [] ∨ AnyPattern allow AclSees subject)) := by
  have insideDeny : ¬ (subject = [chGt] ∧ [chGt] ∈ deny) := fun both =>
    inside ⟨both.1, Or.inl both.2⟩
  have insideAllow : ¬ (subject = [chGt] ∧ [chGt] ∈ allow) := fun both =>
    inside ⟨both.1, Or.inr both.2⟩
  obtain ⟨denied, deniedEq, deniedIff⟩ := anyMatch_map insideDeny
  obtain ⟨allowed, allowedEq, allowedIff⟩ := anyMatch_map insideAllow
  simp only [cmqAclCheck, deniedEq]
  cases denied with
  | true => exact ⟨false, rfl, by simp [deniedIff.mp rfl]⟩
  | false =>
    have unseen : ¬ AnyPattern deny AclSees subject := fun seen => by
      cases deniedIff.mpr seen
    cases allow with
    | nil => exact ⟨true, rfl, by simp [unseen]⟩
    | cons _ allow =>
      refine ⟨allowed, allowedEq, ?_⟩
      rw [allowedIff]
      simp [unseen]

lemma lawCheck_iff (allow deny : List Bytes) (subject : Bytes) :
    lawCheck allow deny subject = true ↔
      ¬ AnyPattern deny AclLaw subject ∧ (allow = [] ∨ AnyPattern allow AclLaw subject) := by
  simp [lawCheck, AnyPattern]

lemma cmqAclCheck_gt {allow deny : List Bytes} (member : [chGt] ∈ deny ∨ [chGt] ∈ allow) :
    cmqAclCheck (some ⟨allow.map compilePattern, deny.map compilePattern⟩) [chGt] = none := by
  unfold cmqAclCheck
  by_cases inDeny : [chGt] ∈ deny
  · simp only [anyMatch_gt inDeny]
  have inAllow := member.resolve_left inDeny
  obtain ⟨denied, deniedEq, deniedIff⟩ :=
    anyMatch_map (fun both : [chGt] = [chGt] ∧ [chGt] ∈ deny => inDeny both.2)
  have unseen : denied = false := by
    by_contra seen
    obtain ⟨pattern, -, sees⟩ := deniedIff.mp (by simpa using seen)
    exact not_sees_gt pattern sees
  have nonempty : allow.map compilePattern ≠ [] := by simpa using ne_nil_of_mem inAllow
  simp only [deniedEq, unseen, if_neg nonempty, anyMatch_gt inAllow]

/-- `cmq_acl_check` returns the documented decision exactly on the configurations and
subjects of `AclSound`. -/
theorem cmqAclCheck_eq_law_iff (allow deny : List Bytes) (acl : CmqAcl) (subject : Bytes)
    (configured : configuredAcl allow deny = some acl) :
    cmqAclCheck (some acl) subject = some (lawCheck allow deny subject) ↔
      AclSound allow deny subject := by
  rw [configuredAcl_eq] at configured
  split at configured
  · cases configured
    by_cases outside : subject = [chGt] ∧ ([chGt] ∈ deny ∨ [chGt] ∈ allow)
    · refine ⟨fun decided => ?_, fun sound => absurd outside sound.inside⟩
      obtain ⟨rfl, member⟩ := outside
      rw [cmqAclCheck_gt member] at decided
      cases decided
    obtain ⟨_, decided, meaning⟩ := cmqAclCheck_sees outside
    rw [decided, Option.some.injEq, Bool.eq_iff_iff, meaning, lawCheck_iff]
    rw [decision_iff sees_iff_over sees_iff_over]
    exact ⟨fun ⟨denied, refused, admitted⟩ => ⟨outside, denied, refused, admitted⟩,
      fun sound => ⟨sound.denied, sound.refused, sound.admitted⟩⟩
  cases configured

theorem cmqAclCheck_eq_law_foo :
    cmqAclCheck (some ⟨[compilePattern (cstr "foo.>")], [compilePattern (cstr "foo.*")]⟩)
        (cstr "foo.bar.baz") = some true ∧
      AclSound [cstr "foo.>"] [cstr "foo.*"] (cstr "foo.bar.baz") :=
  ⟨by decide, (cmqAclCheck_eq_law_iff [cstr "foo.>"] [cstr "foo.*"] _ (cstr "foo.bar.baz")
    rfl).mp (by decide)⟩

/-- An allow list of `foo.>` admits `foobar.x`, one of `*` refuses `foo`, and a deny list
of `a.*.c` does not deny `a.b.c`. -/
theorem cmqAclCheck_departs_from_law :
    (∃ acl, configuredAcl [cstr "foo.>"] [] = some acl ∧
      cmqAclCheck (some acl) (cstr "foobar.x") = some true ∧
      lawCheck [cstr "foo.>"] [] (cstr "foobar.x") = false) ∧
    (∃ acl, configuredAcl [cstr "*"] [] = some acl ∧
      cmqAclCheck (some acl) (cstr "foo") = some false ∧
      lawCheck [cstr "*"] [] (cstr "foo") = true) ∧
    (∃ acl, configuredAcl [] [cstr "a.*.c"] = some acl ∧
      cmqAclCheck (some acl) (cstr "a.b.c") = some true ∧
      lawCheck [] [cstr "a.*.c"] (cstr "a.b.c") = false) :=
  ⟨⟨_, rfl, by decide, by decide⟩, ⟨_, rfl, by decide, by decide⟩, ⟨_, rfl, by decide, by decide⟩⟩

end CMsgQueue.Enterprise
