import Mathlib.Data.List.DropRight
import CMsgQueue.Server.Deliver
import CMsgQueue.Store.Cursor

/-!
# The log of subscriptions

`server/cmq_sublist_persist.c` writes a line of text for every subscription and scans the lines
when the server starts.  The fields are separated by blanks and not escaped.
-/

namespace CMsgQueue.Server

open List Enterprise Text Store

/-- What the callback of `cmq_sublist_persist_load` gets. -/
inductive PersistRecord
  | sub (subId : Nat) (subject account : Bytes)
  | unsub (subId : Nat)
  deriving DecidableEq

/-- The line of `write_record` without its newline. -/
def PersistRecord.line : PersistRecord → Bytes
  | .sub subId subject account => cstr "S " ++ (decimal subId ++ 32 :: (subject ++ 32 :: account))
  | .unsub subId => cstr "U " ++ decimal subId

/-- The end of a line, which `cmq_sublist_persist_load` cuts off. -/
def isEol (byte : UInt8) : Bool := byte == newline || byte == 13

/-- The loop body of `cmq_sublist_persist_load`.  The log has no NUL bytes, since `fprintf` writes
C strings. -/
def loadRecord (line : Bytes) : Option PersistRecord :=
  match line.rdropWhile isEol with
  | [] => none
  | kind :: rest =>
    if kind = 83 then
      let number := strtoull (rest.dropWhile (· == 32))
      let fields := number.2.dropWhile (· == 32)
      let account := ((fields.dropWhile (· != 32)).drop 1).dropWhile (· == 32)
      some (.sub number.1 (fields.takeWhile (· != 32)) account)
    else if kind = 85 then some (.unsub (strtoull rest).1)
    else none

/-- `cmq_sublist_persist_load`, which reads lines of at most 1023 bytes. -/
def cmqSublistPersistLoad (text : Bytes) : List PersistRecord :=
  (lines 1024 text).filterMap loadRecord

/-- A subscription that `handle_subscribe` accepts and records. -/
structure Subscription where
  subId : Nat
  subject : Bytes
  account : Bytes
  subId_lt : subId < 2 ^ 32
  valid : cmqSublistSubjectValid subject = true
  short : subject.length < cmqMaxSubject
  account_short : account.length < cmqAccountNameSize

namespace Subscription

def record (s : Subscription) : PersistRecord := .sub s.subId s.subject s.account

/-- `cmq_sublist_persist_record_sub` of each subscription in turn. -/
def persist (subs : List Subscription) : Bytes :=
  (subs.map fun s => s.record.line).flatMap (· ++ [newline])

/-- The fields can be told apart in the line and are not cut. -/
structure Plain (s : Subscription) : Prop where
  subject_newline : newline ∉ s.subject
  subject_blank : 32 ∉ s.subject
  account_newline : newline ∉ s.account
  account_head : s.account.head? ≠ some 32
  account_last : s.account.getLast? ≠ some 13

end Subscription

lemma strtoull_suffix (text : Bytes) : (strtoull text).2 <:+ text := by
  unfold strtoull
  extract_lets signed digits number value rest
  have behind : rest <:+ text := by
    refine (dropWhile_suffix isDigit).trans (List.IsSuffix.trans ?_ (dropWhile_suffix isSpace))
    dsimp only [digits]
    split
    · exact tail_suffix signed
    exact suffix_refl signed
  split_ifs
  · exact suffix_refl text
  · exact behind
  · exact behind
  exact behind

lemma newline_notMem_of_mem_lines
    (mem : line ∈ linesFuel size fuel text) : newline ∉ line.rdropWhile isEol := by
  induction fuel generalizing text with
  | zero => cases mem
  | succ fuel ih =>
    rw [linesFuel] at mem
    split at mem
    · cases mem
    rcases mem_cons.mp mem with rfl | mem
    · have inner : newline ∉ (text.take (lineLength size text)).dropLast := by
        intro found
        rw [dropLast_eq_take, take_take] at found
        generalize taken : min _ (lineLength size text) = count at found
        have first : text.take count <+: text := take_prefix _ _
        have line : text.takeWhile (· != newline) <+: text := takeWhile_prefix _
        have front : text.take count <+: text.takeWhile (· != newline) := by
          refine prefix_of_prefix_length_le first line ?_
          rw [length_take] at taken ⊢
          rw [lineLength] at taken
          omega
        simpa using mem_takeWhile_imp (front.subset found)
      rcases eq_nil_or_concat' (text.take (lineLength size text)) with nil | ⟨init, _, eq⟩
      · rw [nil]
        simp
      rw [eq] at inner ⊢
      rw [dropLast_concat] at inner
      rw [rdropWhile_concat]
      split
      · have front := rdropWhile_prefix isEol init
        exact fun found => inner (front.subset found)
      next other =>
      intro found
      rcases mem_append.mp found with found | found
      · exact inner found
      rw [← mem_singleton.mp found] at other
      exact other rfl
    exact ih mem

lemma plain_of_loadRecord {s : Subscription} {line : Bytes}
    (whole : newline ∉ line.rdropWhile isEol) (loaded : loadRecord line = some s.record) :
    s.Plain := by
  have last : ∀ text : Bytes, text <:+ line.rdropWhile isEol → text.getLast? ≠ some 13 := by
    rintro text ⟨_, eq⟩ ends
    have final : (line.rdropWhile isEol).getLast? = some 13 := by
      rw [← eq, getLast?_append, ends, Option.some_or]
    have nonempty : line.rdropWhile isEol ≠ [] := fun nil => by simp [nil] at final
    rw [getLast?_eq_some_getLast nonempty, Option.some.injEq] at final
    exact rdropWhile_last_not isEol line nonempty (final ▸ rfl)
  unfold loadRecord at loaded
  cases stripped : line.rdropWhile isEol with
  | nil => simp [stripped] at loaded
  | cons kind rest =>
    rw [stripped] at loaded last whole
    dsimp only at loaded
    split at loaded
    · rw [Option.some.injEq, Subscription.record, PersistRecord.sub.injEq] at loaded
      obtain ⟨-, subject, account⟩ := loaded
      have fields := (dropWhile_suffix (· == (32 : UInt8))).trans
        ((strtoull_suffix _).trans ((dropWhile_suffix (· == (32 : UInt8))).trans
          (suffix_cons kind rest)))
      generalize (strtoull (rest.dropWhile (· == 32))).2.dropWhile (· == 32) = text
        at subject account fields
      have behind : s.account <:+ kind :: rest := by
        rw [← account]
        exact (dropWhile_suffix _).trans ((drop_suffix 1 _).trans
          ((dropWhile_suffix _).trans fields))
      refine ⟨fun mem => whole (fields.subset ?_), fun mem => ?_,
        fun mem => whole (behind.subset mem), ?_, last s.account behind⟩
      · rw [← subject] at mem
        exact (takeWhile_sublist _).subset mem
      · rw [← subject] at mem
        simpa using mem_takeWhile_imp mem
      rw [← account]
      intro head
      have other := head?_dropWhile_not (· == (32 : UInt8)) ((text.dropWhile (· != 32)).drop 1)
      rw [head] at other
      cases other
    split at loaded <;> cases loaded

lemma dropWhile_blank {text : Bytes} (other : text.head? ≠ some 32) :
    text.dropWhile (· == 32) = text := by
  cases text with
  | nil => rfl
  | cons _ text => exact dropWhile_cons_of_neg (by simpa using other)

namespace Subscription

variable {s : Subscription}

lemma Plain.newline_notMem_line (plain : s.Plain) : newline ∉ s.record.line := by
  have digits : newline ∉ decimal s.subId := fun mem =>
    absurd (isDigit_iff.mpr (isDigit_of_mem_decimal mem)) (by decide)
  have text : newline ∉ cstr "S " := by decide
  have blank : newline ≠ 32 := by decide
  simp [record, PersistRecord.line, digits, text, blank, plain.subject_newline,
    plain.account_newline]

lemma length_line (s : Subscription) : s.record.line.length + 1 < 1024 := by
  have digits : (decimal s.subId).length ≤ 10 :=
    length_decimal_le (by decide) (Nat.lt_trans s.subId_lt (by decide))
  have subject := s.short
  have account := s.account_short
  have text : (cstr "S ").length = 2 := by decide
  rw [cmqMaxSubject] at subject
  rw [cmqAccountNameSize] at account
  simp only [record, PersistRecord.line, length_append, length_cons]
  omega

lemma Plain.rdropWhile_line (plain : s.Plain) :
    (s.record.line ++ [newline]).rdropWhile isEol = s.record.line := by
  rw [rdropWhile_concat_pos _ _ _ rfl, rdropWhile_eq_self_iff]
  intro nonempty eol
  have last : s.record.line.getLast? = s.account.getLast?.or (some 32) := by
    simp [record, PersistRecord.line, getLast?_cons]
  rw [getLast?_eq_some_getLast nonempty] at last
  cases tail : s.account.getLast? with
  | none =>
    rw [tail, Option.none_or, Option.some.injEq] at last
    rw [last] at eol
    exact absurd eol (by decide)
  | some =>
    rw [tail, Option.some_or, Option.some.injEq] at last
    subst last
    rcases Bool.or_eq_true_iff.mp eol with line | carriage
    · rw [beq_iff_eq.mp line] at tail
      exact plain.account_newline (mem_of_getLast? tail)
    rw [beq_iff_eq.mp carriage] at tail
    exact plain.account_last tail

lemma Plain.loadRecord_line (plain : s.Plain) :
    loadRecord (s.record.line ++ [newline]) = some s.record := by
  have nonempty : s.subject ≠ [] := by
    intro nil
    have valid := s.valid
    simp [cmqSublistSubjectValid, validateSubject, nil] at valid
  have digits : (decimal s.subId ++ 32 :: (s.subject ++ 32 :: s.account)).head? ≠ some 32 := by
    obtain ⟨first, more, whole⟩ := exists_cons_of_ne_nil (decimal_ne_nil s.subId)
    have digit := isDigit_iff.mpr (isDigit_of_mem_decimal (whole ▸ mem_cons_self))
    rw [whole, cons_append, head?_cons, Ne, Option.some.injEq]
    rintro rfl
    exact absurd digit (by decide)
  have subject : (s.subject ++ 32 :: s.account).head? ≠ some 32 := by
    obtain ⟨first, more, whole⟩ := exists_cons_of_ne_nil nonempty
    rw [whole, cons_append, head?_cons, Ne, Option.some.injEq]
    rintro rfl
    exact plain.subject_blank (whole ▸ mem_cons_self)
  have chars : ∀ byte ∈ s.subject, (byte != 32) = true := by
    intro byte mem
    rw [bne_iff_ne]
    rintro rfl
    exact plain.subject_blank mem
  have number : strtoull (decimal s.subId ++ 32 :: (s.subject ++ 32 :: s.account)) =
      (s.subId, 32 :: (s.subject ++ 32 :: s.account)) :=
    strtoull_decimal [] (Nat.lt_trans s.subId_lt (by decide)) (by simp) (by simp [isDigit])
  have line : s.record.line = 83 :: 32 :: (decimal s.subId ++ 32 :: (s.subject ++ 32 :: s.account)) :=
    rfl
  rw [loadRecord, plain.rdropWhile_line, line]
  dsimp only
  rw [dropWhile_cons_of_pos rfl, dropWhile_blank digits, number,
    dropWhile_cons_of_pos rfl, dropWhile_blank subject,
    takeWhile_append_of_pos chars, dropWhile_append_of_pos chars,
    takeWhile_cons_of_neg (by simp), dropWhile_cons_of_neg (by simp),
    append_nil, drop_one, tail_cons, dropWhile_blank plain.account_head]
  rfl

end Subscription

/-- The log of accepted subscriptions is loaded back as they were if and only if no subject has a
blank or a newline in it, and no account has a newline, begins with a blank or ends with a
carriage return. -/
theorem load_persist_iff (subs : List Subscription) :
    cmqSublistPersistLoad (Subscription.persist subs) = subs.map Subscription.record ↔
      ∀ s ∈ subs, s.Plain := by
  constructor
  · intro same s mem
    have loaded : s.record ∈ cmqSublistPersistLoad (Subscription.persist subs) :=
      same ▸ mem_map_of_mem mem
    obtain ⟨_, mem, loaded⟩ := mem_filterMap.mp loaded
    exact plain_of_loadRecord (newline_notMem_of_mem_lines mem) loaded
  intro plain
  rw [cmqSublistPersistLoad, Subscription.persist, lines_written, map_map, filterMap_map]
  · refine filterMap_eq_map_iff_forall_eq_some.mpr fun s mem => ?_
    exact (plain s mem).loadRecord_line
  · simpa using fun s mem => (plain s mem).newline_notMem_line
  simpa using fun s _ => s.length_line

/-- The second half of a subject with a blank comes back as part of the account. -/
theorem load_persist_blank : ∃ s : Subscription, s.subject = cstr "a b" ∧ s.account = cstr "x" ∧
    cmqSublistPersistLoad (Subscription.persist [s]) = [.sub 1 (cstr "a") (cstr "b x")] :=
  ⟨⟨1, cstr "a b", cstr "x", by decide, by decide, by decide, by decide⟩, rfl, rfl,
    by decide +kernel⟩

end CMsgQueue.Server
