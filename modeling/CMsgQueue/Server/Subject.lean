import CMsgQueue.Lib.Bytes
import CMsgQueue.Lib.Tokens

/-!
# Subjects and subscription patterns

The validation and tokenization of `server/cmq_sublist.c`, the law of pattern matching on token
lists, and the two pointer-walking matchers of `server/cmq_server.c` and
`enterprise/cmq_account.c`, which both decide the law.
-/

namespace CMsgQueue.Server

open Tokens

/-- The scan for two adjacent dots in `validate_subject`. -/
def hasDotDot : Bytes → Bool
  | a :: b :: rest => (a == chDot && b == chDot) || hasDotDot (b :: rest)
  | _ => false

/-- The last loop of `validate_subject`: `'>'` is followed by the end only. -/
def gtOnlyLast : Bytes → Bool
  | [] => true
  | a :: rest => (a != chGt || rest.isEmpty) && gtOnlyLast rest

/-- `validate_subject(subject) == 0`. -/
def validateSubject (subject : Bytes) : Bool :=
  !subject.isEmpty && subject.getLast? != some chDot && subject.head? != some chDot &&
    !hasDotDot subject && gtOnlyLast subject

/-- The loop of `tokenize` with the number of token slots left. -/
def tokenizeLoop : Nat → Bytes → Option (List Bytes)
  | _, [] => some []
  | 0, _ :: _ => none
  | slots + 1, a :: text =>
    let token := head chDot (a :: text)
    if token.length = 0 then none
    else if token.length > 255 then none
    else (tokenizeLoop slots (tail chDot (a :: text))).map (token :: ·)

/-- `tokenize`; `none` is the return value -1. -/
def tokenize (subject : Bytes) : Option (List Bytes) := tokenizeLoop 64 subject

/-- `cmq_sublist_subject_valid(subject) == 0`. -/
def cmqSublistSubjectValid (subject : Bytes) : Bool :=
  validateSubject subject && (tokenize subject).isSome

/-- `cmq_sublist_publish_subject_valid(subject) == 0`. -/
def cmqSublistPublishSubjectValid (subject : Bytes) : Bool :=
  cmqSublistSubjectValid subject &&
    subject.all fun symbol => symbol != chStar && symbol != chGt

/-- The law of matching on token lists: `*` stands for one token, a final `>` for all
remaining tokens, also for none. -/
def tokensMatch : List Bytes → List Bytes → Bool
  | [], tokens => tokens.isEmpty
  | pattern :: patterns, tokens =>
    if pattern = [chGt] then patterns.isEmpty
    else
      match tokens with
      | [] => false
      | token :: tokens => (pattern == [chStar] || pattern == token) && tokensMatch patterns tokens

def subjectCovers (pattern subject : Bytes) : Bool :=
  tokensMatch (tokens chDot pattern) (tokens chDot subject)

/-- The loop of the two pointer-walking matchers and the checks after it.  Every
iteration consumes a token of the pattern. -/
def matchWalk : Nat → Bytes → Bytes → Bool
  | 0, _, _ => false
  | fuel + 1, p, s =>
    if p = [] ∨ s = [] then p == [chGt] || (p.isEmpty && s.isEmpty)
    else if head chDot p = [chGt] then (rest chDot p).isEmpty
    else if head chDot p ≠ [chStar] ∧ head chDot p ≠ head chDot s then false
    else matchWalk fuel (tail chDot p) (tail chDot s)

def walkMatch (pattern subject : Bytes) : Bool :=
  pattern == [chGt] || pattern == subject ||
    matchWalk (pattern.length + 1) pattern subject

/-- `sub_pattern_match` of `server/cmq_server.c`. -/
def subPatternMatch (pattern subject : Bytes) : Bool := walkMatch pattern subject

/-- `subject_match` of `enterprise/cmq_account.c`. -/
def subjectMatch (pattern subject : Bytes) : Bool := walkMatch pattern subject

lemma hasDotDot_append (left right : Bytes) :
    hasDotDot (left ++ chDot :: chDot :: right) = true := by
  induction left with
  | nil => simp [hasDotDot]
  | cons a left ih =>
    cases left with
    | nil => simp [hasDotDot]
    | cons b left =>
      simp only [List.cons_append] at ih ⊢
      rw [hasDotDot, ih, Bool.or_true]

variable {subject : Bytes}

/-- What `validate_subject` accepts: a nonempty string without empty tokens in which
`'>'` can only be the last character. -/
lemma validateSubject_spec (valid : validateSubject subject = true) :
    subject ≠ [] ∧ Separated chDot subject ∧ gtOnlyLast subject = true := by
  simp only [validateSubject, Bool.and_eq_true, Bool.not_eq_true', bne_iff_ne,
    List.isEmpty_eq_false_iff] at valid
  obtain ⟨⟨⟨⟨nonempty, last⟩, first⟩, noDotDot⟩, gtLast⟩ := valid
  refine ⟨nonempty, separated_of_bounds first last ?_, gtLast⟩
  intro _ _ inside
  rw [inside, hasDotDot_append] at noDotDot
  cases noDotDot

lemma gtOnlyLast_append
    (gtLast : gtOnlyLast (left ++ right) = true) : gtOnlyLast right = true := by
  induction left with
  | nil => exact gtLast
  | cons a left ih =>
    simp only [List.cons_append, gtOnlyLast, Bool.and_eq_true] at gtLast
    exact ih gtLast.2

lemma gtOnlyLast_tail (gtLast : gtOnlyLast text = true) :
    gtOnlyLast (tail chDot text) = true := by
  have whole := head_append_rest chDot text
  rcases rest_eq_nil_or chDot text with atEnd | atDot
  · simp [tail, atEnd, gtOnlyLast]
  rw [atDot] at whole
  have suffix : head chDot text ++ [chDot] ++ tail chDot text = text := by simpa using whole
  exact gtOnlyLast_append (suffix ▸ gtLast)

lemma eq_gt_of_head (gtLast : gtOnlyLast text = true) (isGt : head chDot text = [chGt]) :
    text = [chGt] := by
  have whole := head_append_rest chDot text
  rw [isGt] at whole
  rw [← whole] at gtLast ⊢
  simp only [List.cons_append, List.nil_append, gtOnlyLast, bne_self_eq_false,
    Bool.false_or, Bool.and_eq_true, List.isEmpty_iff] at gtLast
  rw [gtLast.1]
  rfl

lemma tokenizeLoop_eq (separated : Separated chDot text)
    (parsed : tokenizeLoop slots text = some result) : result = tokens chDot text := by
  induction slots generalizing text result with
  | zero =>
    cases text with
    | nil => simpa [tokenizeLoop] using parsed.symm
    | cons a text => simp [tokenizeLoop] at parsed
  | succ slots ih =>
    cases text with
    | nil => simpa [tokenizeLoop] using parsed.symm
    | cons a text =>
      simp only [tokenizeLoop] at parsed
      split at parsed
      · cases parsed
      split at parsed
      · cases parsed
      obtain ⟨_, laterEq, rfl⟩ := Option.map_eq_some_iff.mp parsed
      rw [separated.tokens_eq (List.cons_ne_nil a text), ih separated.tail laterEq]

/-- A valid subject and what the rest of the development uses of it. -/
structure ValidSubject (subject : Bytes) : Prop where
  validated : validateSubject subject = true
  nonempty : subject ≠ []
  separated : Separated chDot subject
  gt_last : gtOnlyLast subject = true
  tokenize_eq : tokenize subject = some (tokens chDot subject)

lemma validSubject_of_valid (valid : cmqSublistSubjectValid subject = true) :
    ValidSubject subject := by
  simp only [cmqSublistSubjectValid, Bool.and_eq_true] at valid
  obtain ⟨nonempty, separated, gtLast⟩ := validateSubject_spec valid.1
  obtain ⟨_, parsed⟩ := Option.isSome_iff_exists.mp valid.2
  refine ⟨valid.1, nonempty, separated, gtLast, ?_⟩
  rw [parsed, tokenizeLoop_eq separated parsed]

lemma matchWalk_eq (patternSep : Separated chDot pattern) (subjectSep : Separated chDot subject)
    (gtLast : gtOnlyLast pattern = true) (enough : pattern.length < fuel) :
    matchWalk fuel pattern subject = subjectCovers pattern subject := by
  induction fuel generalizing pattern subject with
  | zero => omega
  | succ fuel ih =>
    unfold matchWalk subjectCovers
    by_cases patternNil : pattern = []
    · subst patternNil
      cases subject with
      | nil => rfl
      | cons b subject =>
        rw [subjectSep.tokens_eq (List.cons_ne_nil b subject)]
        simp [tokensMatch]
    by_cases subjectNil : subject = []
    · subst subjectNil
      rw [patternSep.tokens_eq patternNil, tokens_nil, tokensMatch]
      by_cases isGt : head chDot pattern = [chGt]
      · simp [eq_gt_of_head gtLast isGt, Tokens.tail, Tokens.rest, Tokens.head, chGt, chDot]
      have notGt : pattern ≠ [chGt] := by
        rintro rfl
        exact isGt (by decide)
      simp [isGt, notGt, patternNil]
    rw [if_neg (by simp [patternNil, subjectNil]),
      patternSep.tokens_eq patternNil, subjectSep.tokens_eq subjectNil, tokensMatch]
    by_cases isGt : head chDot pattern = [chGt]
    · rw [eq_gt_of_head gtLast isGt]
      rfl
    rw [if_neg isGt, if_neg isGt]
    have shorter := length_tail_lt chDot patternNil
    have later := ih patternSep.tail subjectSep.tail (gtOnlyLast_tail gtLast)
      (by omega)
    rw [later]
    by_cases covers : head chDot pattern = [chStar] ∨
        head chDot pattern = head chDot subject
    · rw [if_neg (by tauto)]
      rcases covers with isStar | same
      · simp [isStar, subjectCovers]
      simp [same, subjectCovers]
    rw [not_or] at covers
    simp [covers.1, covers.2]

lemma tokensMatch_self (noGt : [chGt] ∉ list) : tokensMatch list list = true := by
  induction list with
  | nil => rfl
  | cons _ list ih =>
    rw [List.mem_cons, not_or] at noGt
    simp [tokensMatch, Ne.symm noGt.1, ih noGt.2]

lemma walkMatch_eq (patternValid : cmqSublistSubjectValid pattern = true)
    (subjectValid : cmqSublistPublishSubjectValid subject = true) :
    walkMatch pattern subject = subjectCovers pattern subject := by
  simp only [cmqSublistPublishSubjectValid, Bool.and_eq_true] at subjectValid
  have patternOk := validSubject_of_valid patternValid
  have subjectOk := validSubject_of_valid subjectValid.1
  have walk := matchWalk_eq patternOk.separated subjectOk.separated patternOk.gt_last
    (Nat.lt_succ_self _)
  rw [walkMatch, walk]
  by_cases isGt : pattern = [chGt]
  · subst isGt
    rfl
  by_cases same : pattern = subject
  · subst same
    have noGt : [chGt] ∉ tokens chDot pattern := by
      intro member
      have inside := mem_of_mem_tokens member (List.mem_singleton.mpr rfl)
      have plain := List.all_eq_true.mp subjectValid.2 chGt inside
      simp at plain
    simp [subjectCovers, tokensMatch_self noGt]
  simp [isGt, same]

end CMsgQueue.Server
