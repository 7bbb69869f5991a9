import CMsgQueue.Lib.SlotTable
import CMsgQueue.Lib.Text
import CMsgQueue.Server.Password
import CMsgQueue.Store.StreamRun

/-!
# The files with the cursors of a stream

`cursor_save_locked` and `cursor_load_locked` of `store/cmq_stream.c`.  The consumers of a stream
are written line by line, with one number each, or with one for each partition.
-/

namespace CMsgQueue.Store

open List hiding Vector
open Server (isSpace isDigit strtoull)
open Text

/-! ## Saving -/

/-- The characters that `cursor_token_safe` lets through. -/
def cursorTokenChar (c : UInt8) : Bool :=
  (0x41 ≤ c && c ≤ 0x5A) || (0x61 ≤ c && c ≤ 0x7A) || (0x30 ≤ c && c ≤ 0x39) ||
    c == 0x5F || c == 0x2D || c == chDot

/-- `cursor_token_safe`. -/
def cursorTokenSafe (name : Bytes) : Bool := !name.isEmpty && name.all cursorTokenChar

def cursorLine (entry : ConsumerEntry) : Bytes := entry.name ++ 32 :: decimal entry.ackedSeq

def cursorPartLine (entry : ConsumerEntry) (part : Nat) : Bytes :=
  entry.name ++ 32 :: (decimal part ++ 32 :: decimal (entry.acked part))

/-- The lines that `cursor_save_locked` writes. -/
def cursorLines (stream : CmqStream) : List Bytes :=
  let consumers := stream.consumers.filter fun entry => cursorTokenSafe entry.name
  if stream.nparts > 1 then
    cstr "CMQC2" :: decimal stream.nparts ::
      consumers.flatMap fun entry => (List.range stream.nparts).map (cursorPartLine entry)
  else cstr "CMQC1" :: consumers.map cursorLine

/-- The file that `cursor_save_locked` writes. -/
def cursorText (stream : CmqStream) : Bytes := (cursorLines stream).flatMap (· ++ [newline])

/-! ## Loading -/

/-- A conversion `%s` with a width: the word, and the text behind it. -/
def scanWord (width : Nat) (text : Bytes) : Option (Bytes × Bytes) :=
  let text := text.dropWhile isSpace
  let word := (text.takeWhile fun byte => !isSpace byte).take width
  if word = [] then none else some (word, text.drop word.length)

/-- A conversion `%u` or `%llu`: the number, and the text behind it. -/
def scanNumber (text : Bytes) : Option (Nat × Bytes) :=
  let read := strtoull text
  if read.2.length = text.length then none else some read

/-- `sscanf(line, "%127s %llu", ..)` with both items assigned. -/
def scanCursor (line : Bytes) : Option (Bytes × Nat) := do
  let (name, rest) ← scanWord 127 (line.takeWhile (· != 0))
  let (seq, _) ← scanNumber rest
  return (name, seq)

/-- `sscanf(line, "%127s %u %llu", ..)` with all items assigned. -/
def scanPartCursor (line : Bytes) : Option (Bytes × Nat × Nat) := do
  let (name, rest) ← scanWord 127 (line.takeWhile (· != 0))
  let (part, rest) ← scanNumber rest
  let (seq, _) ← scanNumber rest
  return (name, part % 2 ^ 32, seq)

/-- `cursor_find_or_add`; `none` is a null pointer. -/
def cursorFindOrAdd (stream : CmqStream) (name : Bytes) : Option CmqStream :=
  if (stream.consumer? name).isSome then some stream
  else if stream.consumers.length ≥ cmqMaxConsumers then none
  else some { stream with
    consumers := stream.consumers ++ [⟨name, 0, Vector.replicate cmqStreamMaxParts 0⟩] }

def cursorChange (stream : CmqStream) (name : Bytes) (change : ConsumerEntry → ConsumerEntry) :
    CmqStream :=
  if !cursorTokenSafe name then stream
  else
    match cursorFindOrAdd stream name with
    | none => stream
    | some stream => stream.updateConsumer name change

/-- One round of the loop over a `CMQC1` file. -/
def loadLine (stream : CmqStream) (line : Bytes) : CmqStream :=
  match scanCursor line with
  | none => stream
  | some (name, seq) =>
    cursorChange stream name fun entry =>
      if seq > entry.ackedSeq then entry.initParts seq else entry

/-- One round of the loop over a `CMQC2` file. -/
def loadPartLine (stream : CmqStream) (line : Bytes) : CmqStream :=
  match scanPartCursor line with
  | none => stream
  | some (name, part, seq) =>
    if part ≥ stream.nparts then stream
    else
      cursorChange stream name fun entry =>
        (entry.raisePart part seq).syncAcked stream.nparts

/-- The stream with as many partitions as a `CMQC2` file has. -/
def cursorParts (stream : CmqStream) (fn : Nat) : Option CmqStream :=
  if fn < 1 ∨ fn > cmqStreamMaxParts then none
  else if stream.nparts = 1 then partsAlloc stream fn
  else if stream.nparts ≠ fn then none
  else some stream

/-- `cursor_load_locked` on the file at the path, if there is one; `none` is the return value
-1. -/
def cursorLoad (stream : CmqStream) : Option Bytes → Option CmqStream
  | none => some stream
  | some text =>
    match lines 196 text with
    | [] => none
    | first :: rest =>
      if first.take 5 = cstr "CMQC2" then
        match rest with
        | [] => none
        | second :: rest => do
            let (fn, _) ← scanNumber (second.takeWhile (· != 0))
            let stream ← cursorParts stream (fn % 2 ^ 32)
            return rest.foldl loadPartLine stream
      else if first.take 5 = cstr "CMQC1" then some (rest.foldl loadLine stream)
      else none

/-! ## Scanning what was written -/

lemma isDigit_iff : isDigit byte = true ↔ IsDigit byte := by
  simp [isDigit, IsDigit, UInt8.le_iff_toNat_le]

lemma isSpace_of_isDigit (digit : IsDigit byte) : isSpace byte = false := by
  obtain ⟨low, -⟩ := digit
  rw [isSpace, Bool.or_eq_false_iff, Bool.and_eq_false_iff, beq_eq_false_iff_ne]
  refine ⟨?_, .inr ?_⟩
  · rintro rfl
    exact absurd low (by decide)
  rw [decide_eq_false_iff_not]
  exact not_le.mpr (lt_of_lt_of_le (by decide) low)

lemma strtoull_decimal (blank : Bytes) (bound : n < 2 ^ 64)
    (spaces : ∀ byte ∈ blank, isSpace byte = true)
    (ends : ∀ byte, rest.head? = some byte → isDigit byte = false) :
    strtoull (blank ++ (decimal n ++ rest)) = (n, rest) := by
  have digits : ∀ byte ∈ decimal n, isDigit byte = true := fun byte member =>
    isDigit_iff.mpr (isDigit_of_mem_decimal member)
  have skipped : (blank ++ (decimal n ++ rest)).dropWhile isSpace = decimal n ++ rest := by
    rw [dropWhile_append_of_pos spaces]
    obtain ⟨first, more, whole⟩ := exists_cons_of_ne_nil (decimal_ne_nil n)
    have plain := isSpace_of_isDigit (isDigit_of_mem_decimal (whole ▸ mem_cons_self))
    rw [whole, cons_append, dropWhile_cons_of_neg (by simp [plain])]
  have unsigned : ∀ sign, isDigit sign = false → (decimal n ++ rest).head? ≠ some sign := by
    intro sign other same
    obtain ⟨first, more, whole⟩ := exists_cons_of_ne_nil (decimal_ne_nil n)
    rw [whole, cons_append, head?_cons, Option.some_inj] at same
    have digit := digits first (whole ▸ mem_cons_self)
    rw [same, other] at digit
    cases digit
  have stop : rest.takeWhile isDigit = [] ∧ rest.dropWhile isDigit = rest := by
    cases rest with
    | nil => exact ⟨rfl, rfl⟩
    | cons byte rest =>
      have other := ends byte rfl
      exact ⟨takeWhile_cons_of_neg (by simp [other]), dropWhile_cons_of_neg (by simp [other])⟩
  have plus := unsigned 43 (by decide)
  have minus := unsigned 45 (by decide)
  have taken : (decimal n ++ rest).takeWhile isDigit = decimal n := by
    rw [takeWhile_append_of_pos digits, stop.1, append_nil]
  have left : (decimal n ++ rest).dropWhile isDigit = rest := by
    rw [dropWhile_append_of_pos digits, stop.2]
  unfold strtoull
  rw [skipped]
  simp only [plus, minus, or_self, if_false, taken, left, decimal_ne_nil, foldl_decimal]
  rw [if_neg (not_le.mpr bound)]

lemma scanNumber_blanks (blank : Bytes) (bound : n < 2 ^ 64)
    (spaces : ∀ byte ∈ blank, isSpace byte = true)
    (ends : ∀ byte, rest.head? = some byte → isDigit byte = false) :
    scanNumber (blank ++ (decimal n ++ rest)) = some (n, rest) := by
  have nonempty := length_pos_iff.mpr (decimal_ne_nil n)
  rw [scanNumber, strtoull_decimal blank bound spaces ends]
  simp only [length_append]
  rw [if_neg (by omega)]

lemma scanNumber_decimal (bound : n < 2 ^ 64)
    (ends : ∀ byte, rest.head? = some byte → isDigit byte = false) :
    scanNumber (32 :: (decimal n ++ rest)) = some (n, rest) :=
  scanNumber_blanks [32] bound (fun _ member => mem_singleton.mp member ▸ rfl) ends

lemma cursorTokenSafe_iff :
    cursorTokenSafe name = true ↔ name ≠ [] ∧ ∀ c ∈ name, cursorTokenChar c = true := by
  simp [cursorTokenSafe]

lemma cursorTokenChar_facts (char : cursorTokenChar c = true) :
    isSpace c = false ∧ c ≠ 0 ∧ c ≠ newline := by
  refine ⟨?_, ?_, ?_⟩
  · by_contra space
    rw [Bool.not_eq_false, isSpace, Bool.or_eq_true, Bool.and_eq_true, beq_iff_eq,
      decide_eq_true_eq, decide_eq_true_eq, UInt8.le_iff_toNat_le] at space
    have small : c.toNat ≤ 32 := by
      rcases space with rfl | ⟨-, high⟩
      · decide
      exact le_trans high (by decide)
    simp only [cursorTokenChar, Bool.or_eq_true, Bool.and_eq_true, decide_eq_true_eq, beq_iff_eq,
      UInt8.le_iff_toNat_le, ← UInt8.toNat_inj] at char
    have constants : (0x41 : UInt8).toNat = 65 ∧ (0x61 : UInt8).toNat = 97 ∧
        (0x30 : UInt8).toNat = 48 ∧ (0x5F : UInt8).toNat = 95 ∧ (0x2D : UInt8).toNat = 45 ∧
        chDot.toNat = 46 := by decide
    omega
  · rintro rfl
    exact absurd char (by decide)
  rintro rfl
  exact absurd char (by decide)

section Names

lemma scanWord_name (safe : cursorTokenSafe name = true) (short : name.length ≤ 127) :
    scanWord 127 (name ++ 32 :: rest) = some (name, 32 :: rest) := by
  obtain ⟨nonempty, chars⟩ := cursorTokenSafe_iff.mp safe
  have plain : ∀ c ∈ name, (!isSpace c) = true := by
    intro c member
    rw [(cursorTokenChar_facts (chars c member)).1]
    rfl
  have start : (name ++ 32 :: rest).dropWhile isSpace = name ++ 32 :: rest := by
    obtain ⟨first, _, rfl⟩ := exists_cons_of_ne_nil nonempty
    have blank := (cursorTokenChar_facts (chars first mem_cons_self)).1
    rw [cons_append, dropWhile_cons_of_neg (by simp [blank])]
  have word : ((name ++ 32 :: rest).takeWhile fun byte => !isSpace byte).take 127 = name := by
    rw [takeWhile_append_of_pos plain, takeWhile_cons_of_neg (by decide),
      append_nil, take_of_length_le short]
  rw [scanWord]
  simp only [start, word, if_neg nonempty, drop_left]

lemma takeWhile_line (chars : ∀ c ∈ line, cursorTokenChar c = true ∨ c = 32) :
    (line ++ [newline]).takeWhile (· != 0) = line ++ [newline] := by
  have final : ∀ c ∈ [newline], (c != 0) = true := forall_mem_singleton.mpr (by decide)
  refine takeWhile_eq_self_iff.mpr (forall_mem_append.mpr ⟨fun c inside => ?_, final⟩)
  rw [bne_iff_ne]
  rcases chars c inside with char | rfl
  · exact (cursorTokenChar_facts char).2.1
  decide

lemma cursorTokenChar_decimal (member : c ∈ decimal n) : cursorTokenChar c = true := by
  have digit := isDigit_iff.mpr (isDigit_of_mem_decimal member)
  rw [isDigit] at digit
  simp [cursorTokenChar, digit]

end Names

variable {entry : ConsumerEntry} {part : Nat}

/-- The sizes and characters of a consumer's name, and the size of its watermarks. -/
structure ConsumerEntry.Written (entry : ConsumerEntry) : Prop where
  safe : cursorTokenSafe entry.name = true
  short : entry.name.length < cmqMaxName
  ackedSeq_lt : entry.ackedSeq < 2 ^ 64
  acked_lt : ∀ part, entry.acked part < 2 ^ 64

lemma newline_notMem_of_chars {line : Bytes}
    (chars : ∀ c ∈ line, cursorTokenChar c = true ∨ c = 32) : newline ∉ line := by
  intro member
  rcases chars newline member with char | blank
  · exact (cursorTokenChar_facts char).2.2 rfl
  exact absurd blank (by decide)

lemma length_decimal_le_twenty (bound : n < 2 ^ 64) : (decimal n).length ≤ 20 :=
  length_decimal_le (by decide) (lt_trans bound (by decide))

lemma not_digit_newline : ∀ byte, [newline].head? = some byte → isDigit byte = false := by
  rintro byte ⟨⟩
  rfl

section

variable (written : entry.Written)
include written

lemma ConsumerEntry.Written.chars (digits : ∀ c ∈ numbers, cursorTokenChar c = true ∨ c = 32) :
    ∀ c ∈ entry.name ++ 32 :: numbers, cursorTokenChar c = true ∨ c = 32 :=
  forall_mem_append.mpr
    ⟨fun c member => .inl ((cursorTokenSafe_iff.mp written.safe).2 c member),
      forall_mem_cons.mpr ⟨.inr rfl, digits⟩⟩

lemma chars_cursorLine : ∀ c ∈ cursorLine entry, cursorTokenChar c = true ∨ c = 32 :=
  written.chars fun _ member => .inl (cursorTokenChar_decimal member)

lemma chars_cursorPartLine (part : Nat) :
    ∀ c ∈ cursorPartLine entry part, cursorTokenChar c = true ∨ c = 32 :=
  written.chars (forall_mem_append.mpr
    ⟨fun _ digit => .inl (cursorTokenChar_decimal digit), forall_mem_cons.mpr
      ⟨.inr rfl, fun _ digit => .inl (cursorTokenChar_decimal digit)⟩⟩)

lemma length_cursorLine : (cursorLine entry).length + 1 < 196 := by
  have digits := length_decimal_le_twenty written.ackedSeq_lt
  have short := written.short
  simp only [cursorLine, length_append, length_cons]
  rw [cmqMaxName] at short
  omega

lemma length_cursorPartLine (small : part < cmqStreamMaxParts) :
    (cursorPartLine entry part).length + 1 < 196 := by
  have digits := length_decimal_le_twenty (written.acked_lt part)
  have few : (decimal part).length ≤ 2 :=
    length_decimal_le (by decide) (lt_trans small (by decide))
  have short := written.short
  simp only [cursorPartLine, length_append, length_cons]
  rw [cmqMaxName] at short
  omega

lemma scanCursor_line :
    scanCursor (cursorLine entry ++ [newline]) = some (entry.name, entry.ackedSeq) := by
  have line : cursorLine entry ++ [newline] =
      entry.name ++ 32 :: (decimal entry.ackedSeq ++ [newline]) := by
    simp [cursorLine]
  rw [scanCursor, takeWhile_line (chars_cursorLine written), line,
    scanWord_name written.safe (Nat.le_of_lt_succ written.short)]
  simp only [Option.bind_eq_bind, Option.bind_some]
  rw [scanNumber_decimal written.ackedSeq_lt not_digit_newline]
  rfl

lemma scanPartCursor_line (small : part < cmqStreamMaxParts) :
    scanPartCursor (cursorPartLine entry part ++ [newline]) =
      some (entry.name, part, entry.acked part) := by
  have line : cursorPartLine entry part ++ [newline] =
      entry.name ++ 32 :: (decimal part ++ 32 :: (decimal (entry.acked part) ++ [newline])) := by
    simp [cursorPartLine]
  rw [scanPartCursor, takeWhile_line (chars_cursorPartLine written part), line,
    scanWord_name written.safe (Nat.le_of_lt_succ written.short)]
  simp only [Option.bind_eq_bind, Option.bind_some]
  rw [scanNumber_decimal (lt_trans small (by decide)) (by rintro _ ⟨⟩; rfl)]
  simp only [Option.bind_some]
  rw [scanNumber_decimal (written.acked_lt part) not_digit_newline]
  simp only [Option.bind_some, Option.pure_def,
    Nat.mod_eq_of_lt (lt_trans small (by decide) : part < 2 ^ 32)]

end

/-! ## Loading what was written -/

section Load

variable {stream : CmqStream}

lemma updateConsumer_last (new : ∀ other ∈ front, other.name ≠ last.name)
    (change : ConsumerEntry → ConsumerEntry) :
    ({ stream with consumers := front ++ [last] } : CmqStream).updateConsumer last.name change =
      { stream with consumers := front ++ [change last] } := by
  have located : (front ++ [last]).findIdx (fun entry => entry.name == last.name) =
      front.length := by
    rw [findIdx_append, findIdx_eq_length_of_false]
    · simp
    intro other member
    exact beq_eq_false_iff_ne.mpr (new other member)
  simp only [CmqStream.updateConsumer, located, SlotTable.modify_middle]

lemma consumer?_last (last : ConsumerEntry) :
    (({ stream with consumers := front ++ [last] } : CmqStream).consumer? last.name).isSome := by
  simp [CmqStream.consumer?]

lemma cursorChange_last (safe : cursorTokenSafe last.name = true)
    (new : ∀ other ∈ front, other.name ≠ last.name) (change : ConsumerEntry → ConsumerEntry) :
    cursorChange { stream with consumers := front ++ [last] } last.name change =
      { stream with consumers := front ++ [change last] } := by
  rw [cursorChange, safe, cursorFindOrAdd, consumer?_last]
  exact updateConsumer_last new change

lemma cursorChange_new (safe : cursorTokenSafe name = true)
    (new : ∀ other ∈ stream.consumers, other.name ≠ name)
    (room : stream.consumers.length < cmqMaxConsumers) (change : ConsumerEntry → ConsumerEntry) :
    cursorChange stream name change =
      { stream with
        consumers := stream.consumers ++
          [change ⟨name, 0, Vector.replicate cmqStreamMaxParts 0⟩] } := by
  have unknown : stream.consumer? name = none := by
    simpa [CmqStream.consumer?] using new
  rw [cursorChange, safe, cursorFindOrAdd, unknown]
  simp only [if_neg (not_le.mpr room)]
  generalize added : (⟨name, 0, Vector.replicate cmqStreamMaxParts 0⟩ : ConsumerEntry) = last
  obtain rfl : last.name = name := by rw [← added]
  exact updateConsumer_last new change

end Load

def ConsumerEntry.parts (entry : ConsumerEntry) (count : Nat) : Vector Nat cmqStreamMaxParts :=
  Vector.ofFn fun part => if part.val < count then entry.acked part else 0

/-- The consumer as it is loaded from a file on a stream with `nparts` partitions. -/
def ConsumerEntry.reload (nparts : Nat) (entry : ConsumerEntry) : ConsumerEntry :=
  if nparts > 1 then ConsumerEntry.syncAcked ⟨entry.name, 0, entry.parts nparts⟩ nparts
  else ⟨entry.name, entry.ackedSeq, Vector.replicate cmqStreamMaxParts entry.ackedSeq⟩

@[simp] lemma ConsumerEntry.name_reload (nparts : Nat) (entry : ConsumerEntry) :
    (entry.reload nparts).name = entry.name := by
  unfold reload
  split
  · rw [name_syncAcked]
  rfl

/-- Consumers that can be added behind those of a stream. -/
structure Loadable (stream : CmqStream) (entries : List ConsumerEntry) : Prop where
  written : ∀ entry ∈ entries, entry.Written
  names : ((stream.consumers ++ entries).map ConsumerEntry.name).Nodup
  count_le : stream.consumers.length + entries.length ≤ cmqMaxConsumers

namespace Loadable

variable {stream : CmqStream} {entries : List ConsumerEntry}
  (loadable : Loadable stream (entry :: entries))
include loadable

lemma new : ∀ other ∈ stream.consumers, other.name ≠ entry.name := by
  intro other member same
  have names := loadable.names
  rw [map_append, nodup_append] at names
  exact names.2.2 _ (mem_map_of_mem member) _ (mem_map_of_mem mem_cons_self) same

lemma room : stream.consumers.length < cmqMaxConsumers := by
  have count := loadable.count_le
  rw [length_cons] at count
  omega

lemma added (same : loaded.name = entry.name) :
    Loadable { stream with consumers := stream.consumers ++ [loaded] } entries := by
  refine ⟨fun other member => loadable.written other (mem_cons_of_mem _ member), ?_, ?_⟩
  · simpa [same] using loadable.names
  have count := loadable.count_le
  rw [length_cons] at count
  simp only [length_append, length_singleton]
  omega

end Loadable

lemma loadLine_new (loadable : Loadable stream (entry :: entries)) :
    loadLine stream (cursorLine entry ++ [newline]) =
      { stream with consumers := stream.consumers ++ [entry.reload 1] } := by
  have written := loadable.written entry mem_cons_self
  rw [loadLine, scanCursor_line written]
  dsimp only
  rw [cursorChange_new written.safe loadable.new loadable.room]
  congr 3
  dsimp only [ConsumerEntry.reload]
  split
  · rfl
  next less => simp [Nat.le_zero.mp (not_lt.mp less)]

lemma foldl_loadLine (loadable : Loadable stream entries) :
    (entries.map fun entry => cursorLine entry ++ [newline]).foldl loadLine stream =
      { stream with
        consumers := stream.consumers ++ entries.map (ConsumerEntry.reload 1) } := by
  induction entries generalizing stream with
  | nil => simp
  | cons entry entries ih =>
    rw [map_cons, foldl_cons, loadLine_new loadable,
      ih (loadable.added (ConsumerEntry.name_reload 1 entry))]
    simp

/-! ### Several partitions -/

@[simp] lemma ConsumerEntry.acked_parts (entry : ConsumerEntry) (name : Bytes)
    (ackedSeq count part : Nat) :
    ConsumerEntry.acked ⟨name, ackedSeq, entry.parts count⟩ part =
      if part < count ∧ part < cmqStreamMaxParts then entry.acked part else 0 := by
  by_cases inside : part < cmqStreamMaxParts
  · by_cases part < count <;>
      simp [ConsumerEntry.acked, ConsumerEntry.parts, inside]
  simp [ConsumerEntry.acked, inside]

lemma ConsumerEntry.raisePart_parts (entry : ConsumerEntry) (name : Bytes) (ackedSeq : Nat)
    (small : part < cmqStreamMaxParts) :
    ConsumerEntry.raisePart ⟨name, ackedSeq, entry.parts part⟩ part (entry.acked part) =
      ⟨name, ackedSeq, entry.parts (part + 1)⟩ := by
  have current := entry.acked_parts name ackedSeq part part
  rw [if_neg (by omega)] at current
  rw [raisePart]
  split
  next =>
    refine congrArg (ConsumerEntry.mk name ackedSeq) (Vector.ext fun other inside => ?_)
    by_cases same : part = other
    · subst same
      simp [ConsumerEntry.parts]
    rw [Vector.getElem_setIfInBounds_ne _ same]
    simp only [ConsumerEntry.parts, Vector.getElem_ofFn]
    have step : other < part ↔ other < part + 1 := by omega
    simp only [step]
  refine congrArg (ConsumerEntry.mk name ackedSeq) (Vector.ext fun other inside => ?_)
  simp only [ConsumerEntry.parts, Vector.getElem_ofFn]
  by_cases same : other = part
  · subst same
    rw [if_neg (lt_irrefl _), if_pos (Nat.lt_succ_self _)]
    omega
  have step : other < part ↔ other < part + 1 := by omega
  simp only [step]

lemma ConsumerEntry.syncAcked_raisePart (entry : ConsumerEntry) (nparts seq : Nat)
    (several : 1 < nparts) :
    ((entry.syncAcked nparts).raisePart part seq).syncAcked nparts =
      (entry.raisePart part seq).syncAcked nparts := by
  have watermark := entry.acked_syncAcked nparts part
  unfold raisePart
  rw [watermark]
  simp only [syncAcked, if_neg (not_le.mpr several)]
  split <;> rfl

section Parts

variable {stream : CmqStream} {entries : List ConsumerEntry}

section

variable (loadable : Loadable stream (entry :: entries)) (several : 1 < stream.nparts)
include loadable several

lemma loadPartLine_new :
    loadPartLine stream (cursorPartLine entry 0 ++ [newline]) =
      { stream with
        consumers := stream.consumers ++
          [ConsumerEntry.syncAcked ⟨entry.name, 0, entry.parts 1⟩ stream.nparts] } := by
  have written := loadable.written entry mem_cons_self
  rw [loadPartLine, scanPartCursor_line written (by decide)]
  dsimp only
  rw [if_neg (by omega), cursorChange_new written.safe loadable.new loadable.room,
    show Vector.replicate cmqStreamMaxParts 0 = entry.parts 0 by ext; simp [ConsumerEntry.parts],
    ConsumerEntry.raisePart_parts entry _ _ (by decide)]

lemma foldl_loadPartLine_rest (nparts_le : stream.nparts ≤ cmqStreamMaxParts) {count : Nat}
    (count_lt : count < stream.nparts) :
    ((List.range count).map fun part => cursorPartLine entry (part + 1) ++ [newline]).foldl
        loadPartLine
        { stream with
          consumers := stream.consumers ++
            [ConsumerEntry.syncAcked ⟨entry.name, 0, entry.parts 1⟩ stream.nparts] } =
      { stream with
        consumers := stream.consumers ++
          [ConsumerEntry.syncAcked ⟨entry.name, 0, entry.parts (count + 1)⟩ stream.nparts] } := by
  have written := loadable.written entry mem_cons_self
  induction count with
  | zero => rfl
  | succ count ih =>
    have small := lt_of_lt_of_le count_lt nparts_le
    rw [range_succ, map_append, foldl_append, ih (Nat.lt_of_succ_lt count_lt)]
    simp only [map_singleton, foldl_cons]
    rw [loadPartLine, scanPartCursor_line written small]
    dsimp only
    rw [if_neg (not_le.mpr count_lt)]
    generalize loaded :
      ConsumerEntry.syncAcked ⟨entry.name, 0, entry.parts (count + 1)⟩ stream.nparts = last
    have named : last.name = entry.name := by rw [← loaded, ConsumerEntry.name_syncAcked]
    rw [← named, cursorChange_last (named ▸ written.safe) (named ▸ loadable.new), ← loaded,
      ConsumerEntry.syncAcked_raisePart _ _ _ several, ConsumerEntry.raisePart_parts _ _ _ small]
    simp

lemma foldl_loadPartLine_entry (nparts_le : stream.nparts ≤ cmqStreamMaxParts) :
    ((List.range stream.nparts).map fun part => cursorPartLine entry part ++ [newline]).foldl
        loadPartLine stream =
      { stream with consumers := stream.consumers ++ [entry.reload stream.nparts] } := by
  obtain ⟨count, parts⟩ : ∃ count, stream.nparts = count + 1 := ⟨stream.nparts - 1, by omega⟩
  have rest := foldl_loadPartLine_rest loadable several nparts_le
    (Nat.lt_of_lt_of_eq (Nat.lt_succ_self count) parts.symm)
  have reloaded : entry.reload stream.nparts =
      ConsumerEntry.syncAcked ⟨entry.name, 0, entry.parts (count + 1)⟩ stream.nparts := by
    rw [ConsumerEntry.reload, if_pos several, ← parts]
  have front : List.range stream.nparts = 0 :: (List.range count).map (· + 1) := by
    rw [parts, range_succ_eq_map]
  rw [front, map_cons, foldl_cons, loadPartLine_new loadable several, map_map, reloaded]
  exact rest

end

lemma foldl_loadPartLine (loadable : Loadable stream entries) (several : 1 < stream.nparts)
    (nparts_le : stream.nparts ≤ cmqStreamMaxParts) :
    (entries.flatMap fun entry =>
        (List.range stream.nparts).map fun part => cursorPartLine entry part ++ [newline]).foldl
        loadPartLine stream =
      { stream with
        consumers := stream.consumers ++ entries.map (ConsumerEntry.reload stream.nparts) } := by
  induction entries generalizing stream with
  | nil => simp
  | cons entry entries ih =>
    rw [flatMap_cons, foldl_append, foldl_loadPartLine_entry loadable several nparts_le]
    refine (ih (loadable.added (ConsumerEntry.name_reload _ entry)) several nparts_le).trans ?_
    simp

end Parts

/-! ## The whole file -/

section File

variable {stream : CmqStream}

lemma filter_safe {entries : List ConsumerEntry} (written : ∀ entry ∈ entries, entry.Written) :
    entries.filter (fun entry => cursorTokenSafe entry.name) = entries :=
  filter_eq_self.mpr fun entry member => (written entry member).safe

lemma cursorLoad_single (single : saved.nparts ≤ 1) (loadable : Loadable stream saved.consumers) :
    cursorLoad stream (some (cursorText saved)) =
      some { stream with
        consumers := stream.consumers ++ saved.consumers.map (ConsumerEntry.reload 1) } := by
  have text : cursorLines saved = cstr "CMQC1" :: saved.consumers.map cursorLine := by
    rw [cursorLines, if_neg (not_lt.mpr single), filter_safe loadable.written]
  have read : lines 196 (cursorText saved) =
      (cstr "CMQC1" ++ [newline]) ::
        saved.consumers.map fun entry => cursorLine entry ++ [newline] := by
    rw [cursorText, text, lines_written, map_cons, map_map]
    · rfl
    · simp only [forall_mem_cons, forall_mem_map]
      exact ⟨by decide, fun entry member =>
        newline_notMem_of_chars (chars_cursorLine (loadable.written entry member))⟩
    simp only [forall_mem_cons, forall_mem_map]
    exact ⟨by decide, fun entry member => length_cursorLine (loadable.written entry member)⟩
  rw [cursorLoad, read]
  dsimp only
  rw [if_neg (by decide), if_pos (by decide), foldl_loadLine loadable]

lemma scanNumber_decimal_line (bound : n < 2 ^ 64) :
    scanNumber ((decimal n ++ [newline]).takeWhile (· != 0)) = some (n, [newline]) := by
  rw [takeWhile_line fun c member => .inl (cursorTokenChar_decimal member)]
  exact scanNumber_blanks [] bound (fun _ member => absurd member not_mem_nil)
    not_digit_newline

lemma cursorLoad_parts (several : 1 < saved.nparts) (nparts_le : saved.nparts ≤ cmqStreamMaxParts)
    (single : stream.nparts = 1) (loadable : Loadable stream saved.consumers) :
    cursorLoad stream (some (cursorText saved)) =
      some { stream with
        nparts := saved.nparts
        msgPart := List.replicate stream.maxMsgs 0
        consumers := stream.consumers ++
          saved.consumers.map (ConsumerEntry.reload saved.nparts) } := by
  have bound : saved.nparts < 2 ^ 64 := lt_of_le_of_lt nparts_le (by decide)
  have fits : saved.nparts % 2 ^ 32 = saved.nparts :=
    Nat.mod_eq_of_lt (lt_of_le_of_lt nparts_le (by decide))
  have text : cursorLines saved = cstr "CMQC2" :: decimal saved.nparts ::
      saved.consumers.flatMap fun entry =>
        (List.range saved.nparts).map (cursorPartLine entry) := by
    rw [cursorLines, if_pos several, filter_safe loadable.written]
  have members : ∀ property : Bytes → Prop,
      (∀ entry ∈ saved.consumers, ∀ part < saved.nparts, property (cursorPartLine entry part)) →
      ∀ line ∈ saved.consumers.flatMap fun entry =>
        (List.range saved.nparts).map (cursorPartLine entry), property line := by
    intro property all line member
    obtain ⟨entry, inside, of⟩ := mem_flatMap.mp member
    obtain ⟨part, range, rfl⟩ := mem_map.mp of
    exact all entry inside part (mem_range.mp range)
  have read : lines 196 (cursorText saved) =
      (cstr "CMQC2" ++ [newline]) :: (decimal saved.nparts ++ [newline]) ::
        saved.consumers.flatMap fun entry =>
          (List.range saved.nparts).map fun part => cursorPartLine entry part ++ [newline] := by
    rw [cursorText, text, lines_written]
    · simp [map_flatMap, Function.comp_def]
    · simp only [forall_mem_cons]
      refine ⟨by decide, ?_, ?_⟩
      · exact newline_notMem_of_chars fun c member => .inl (cursorTokenChar_decimal member)
      exact members _ fun entry inside part _ =>
        newline_notMem_of_chars (chars_cursorPartLine (loadable.written entry inside) part)
    simp only [forall_mem_cons]
    refine ⟨by decide, ?_, ?_⟩
    · have digits := length_decimal_le_twenty bound
      omega
    exact members _ fun entry inside part small =>
      length_cursorPartLine (loadable.written entry inside)
        (lt_of_lt_of_le small nparts_le)
  have parts : cursorParts stream saved.nparts =
      some { stream with
        msgPart := List.replicate stream.maxMsgs 0
        nparts := saved.nparts } := by
    rw [cursorParts, if_neg (by omega), if_pos single, partsAlloc, if_neg (by omega),
      if_neg (by omega)]
  rw [cursorLoad, read]
  dsimp only
  rw [scanNumber_decimal_line bound]
  simp only [Option.bind_eq_bind, Option.bind_some, fits, parts]
  have moved : Loadable
      { stream with msgPart := List.replicate stream.maxMsgs 0, nparts := saved.nparts }
      saved.consumers := ⟨loadable.written, loadable.names, loadable.count_le⟩
  exact congrArg some (foldl_loadPartLine moved several nparts_le)

end File

end CMsgQueue.Store
