import CMsgQueue.Lib.Bytes
import CMsgQueue.Lib.Tokens

/-!
# Topic filters

`cmq_mqtt_topic_match` of `enterprise/cmq_mqtt_server.c` walks over a filter and a topic level by
level.  In the rules of the protocol empty levels count; the walk does not see one at the end.
-/

namespace CMsgQueue.Mqtt

open List Tokens

def chSlash : UInt8 := 0x2F
def chHash : UInt8 := 0x23
def chPlus : UInt8 := 0x2B

/-- `MQTT_TOPIC_MAX`. -/
def mqttTopicMax : Nat := 256

/-- The loop of `cmq_mqtt_topic_match`; each turn takes a level off the pattern. -/
def topicMatchLoop : (fuel : Nat) → (p t : Bytes) → Bool
  | 0, _, _ => false
  | fuel + 1, p, t =>
    if p = [] then t = []
    else if p.head? = some chHash then true
    else if t = [] then false
    else if head chSlash p ≠ [chPlus] ∧ head chSlash p ≠ head chSlash t then false
    else topicMatchLoop fuel (tail chSlash p) (tail chSlash t)

/-- `cmq_mqtt_topic_match`; `rest` is what `strchr` returns, and `tail` is behind it. -/
def cmqMqttTopicMatch (pattern topic : Bytes) : Int :=
  if pattern.length > mqttTopicMax ∨ topic.length > mqttTopicMax then -1
  else
    let behind := tail chHash pattern
    if rest chHash pattern ≠ [] ∧ (behind ≠ [] ∨ chHash ∈ behind) then -1
    else if topicMatchLoop (pattern.length + 1) pattern topic then 1 else 0

/-! ## The rules of the protocol -/

/-- `+` is any one level, and a `#` at the end any number of them. -/
def levelsMatch : (filter levels : List Bytes) → Bool
  | [], levels => levels.isEmpty
  | level :: filter, levels =>
    if level = [chHash] ∧ filter = [] then true
    else
      match levels with
      | [] => false
      | other :: levels => (level == [chPlus] || level == other) && levelsMatch filter levels

abbrev levels (text : Bytes) : List Bytes := text.splitOn chSlash

/-- A filter is not empty, nothing is behind a `#`, and a wildcard is a whole level. -/
def WellFormed (filter : Bytes) : Prop :=
  filter ≠ [] ∧ tail chHash filter = [] ∧
    ∀ level ∈ levels filter, ∀ wild ∈ [chHash, chPlus], wild ∈ level → level = [wild]

instance : DecidablePred WellFormed := fun _ => inferInstanceAs (Decidable (_ ∧ _))

def topicRule (filter topic : Bytes) : Int :=
  if WellFormed filter then if levelsMatch (levels filter) (levels topic) then 1 else 0 else -1

/-! ## The walk -/

def seenLevels (text : Bytes) : List Bytes :=
  if (levels text).getLast? = some [] then (levels text).dropLast else levels text

lemma seenLevels_eq (filled : text ≠ []) :
    seenLevels text = head chSlash text :: seenLevels (tail chSlash text) := by
  have step := splitOn_eq chSlash text
  by_cases last : rest chSlash text = []
  · have whole := head_append_rest chSlash text
    rw [last, append_nil] at whole
    simp [seenLevels, levels, step, last, Tokens.tail, whole, filled]
  have more : levels (tail chSlash text) ≠ [] := splitOn_ne_nil _ _
  rw [if_neg last] at step
  simp only [seenLevels, levels, step, getLast?_cons_of_ne_nil more, dropLast_cons_of_ne_nil more]
  split <;> rfl

lemma tail_eq_nil_of_append {back : Bytes} (ends : tail chHash (front ++ back) = []) :
    tail chHash back = [] := by
  rw [Tokens.tail, rest, dropWhile_append] at ends
  split at ends
  · exact ends
  next more =>
  rw [List.isEmpty_iff, ← length_eq_zero_iff] at more
  rw [drop_eq_nil_iff, length_append] at ends
  rw [length_eq_zero_iff.mp (show back.length = 0 by omega)]
  rfl

lemma topicMatchLoop_eq (hashLast : tail chHash p = []) (enough : p.length < fuel) :
    topicMatchLoop fuel p t = levelsMatch (seenLevels p) (seenLevels t) := by
  induction fuel generalizing p t with
  | zero => cases enough
  | succ fuel ih =>
    unfold topicMatchLoop
    by_cases none : p = []
    · subst none
      cases t with
      | nil => rfl
      | cons a t =>
        rw [seenLevels_eq (cons_ne_nil a t)]
        rfl
    rw [if_neg none]
    by_cases hash : p.head? = some chHash
    · obtain ⟨back, rfl⟩ := head?_eq_some_iff.mp hash
      have last : back = [] := by simpa [Tokens.tail, rest] using hashLast
      rw [last]
      rfl
    have plain : head chSlash p ≠ [chHash] := fun only => hash (by
      rw [← head_append_rest chSlash p, only]
      rfl)
    rw [if_neg hash, seenLevels_eq none]
    by_cases ended : t = []
    · simp [ended, seenLevels, levelsMatch, plain]
    rw [if_neg ended, seenLevels_eq ended]
    by_cases differs : head chSlash p ≠ [chPlus] ∧ head chSlash p ≠ head chSlash t
    · simp [levelsMatch, plain, differs]
    have shorter := length_tail_lt chSlash none
    obtain ⟨_, split⟩ : tail chSlash p <:+ p := tail_suffix p
    rw [if_neg differs, ih (tail_eq_nil_of_append (split ▸ hashLast)) (by omega)]
    have same : head chSlash p = [chPlus] ∨ head chSlash p = head chSlash t := by tauto
    simp [levelsMatch, plain, same]

/-- The rule is kept exactly for short strings for which an empty level at the end of either makes
no difference; a malformed filter is refused only for its length or for a `#` before its end. -/
theorem cmqMqttTopicMatch_eq_rule_iff (pattern topic : Bytes) :
    cmqMqttTopicMatch pattern topic = topicRule pattern topic ↔
      if WellFormed pattern then
        pattern.length ≤ mqttTopicMax ∧ topic.length ≤ mqttTopicMax ∧
          levelsMatch (seenLevels pattern) (seenLevels topic) =
            levelsMatch (levels pattern) (levels topic)
      else
        pattern.length > mqttTopicMax ∨ topic.length > mqttTopicMax ∨
          tail chHash pattern ≠ [] := by
  have check : (rest chHash pattern ≠ [] ∧
      (tail chHash pattern ≠ [] ∨ chHash ∈ tail chHash pattern)) ↔ tail chHash pattern ≠ [] :=
    ⟨fun found => found.2.elim id ne_nil_of_mem,
      fun more => ⟨fun none => more (by rw [Tokens.tail, none]; rfl), .inl more⟩⟩
  simp only [cmqMqttTopicMatch, topicRule, check]
  by_cases long : pattern.length > mqttTopicMax ∨ topic.length > mqttTopicMax
  · rw [if_pos long]
    split
    · refine iff_of_false ?_ (by omega)
      split <;> decide
    exact iff_of_true rfl (by tauto)
  rw [if_neg long]
  by_cases early : tail chHash pattern ≠ []
  · rw [if_pos early, if_neg fun well : WellFormed pattern => early well.2.1,
      if_neg fun well : WellFormed pattern => early well.2.1]
    exact iff_of_true rfl (.inr (.inr early))
  rw [if_neg early, topicMatchLoop_eq (not_not.mp early) pattern.length.lt_succ_self]
  by_cases well : WellFormed pattern
  · have short : pattern.length ≤ mqttTopicMax ∧ topic.length ≤ mqttTopicMax := by omega
    rw [if_pos well, if_pos well]
    cases levelsMatch (seenLevels pattern) (seenLevels topic) <;>
      cases levelsMatch (levels pattern) (levels topic) <;> simp [short]
  rw [if_neg well, if_neg well]
  refine iff_of_false ?_ (by tauto)
  split <;> decide

/-- The level behind the last separator is not seen, so a topic with one more level matches. -/
theorem topic_of_two_levels_matches_one :
    cmqMqttTopicMatch (cstr "a") (cstr "a/") = 1 ∧ topicRule (cstr "a") (cstr "a/") = 0 := by
  decide +kernel

end CMsgQueue.Mqtt
