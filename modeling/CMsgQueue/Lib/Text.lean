import CMsgQueue.Lib.Bytes
import Mathlib.Data.List.TakeWhile

/-!
# Lines and decimal numbers

Text as `fprintf` writes it and `fgets` reads it back: numbers in decimal, and lines that end
with a newline.
-/

namespace CMsgQueue.Text

open List

/-- The digits of `%u` and `%llu`. -/
def decimal (n : Nat) : Bytes :=
  (Nat.toDigits 10 n).map fun character => character.toNat.toUInt8

def IsDigit (byte : UInt8) : Prop := 48 ≤ byte.toNat ∧ byte.toNat ≤ 57

lemma toNat_digitChar (small : digit < 10) :
    (Nat.digitChar digit).toNat.toUInt8 = UInt8.ofNat (48 + digit) := by
  match digit, small with
  | 0, _ | 1, _ | 2, _ | 3, _ | 4, _ | 5, _ | 6, _ | 7, _ | 8, _ | 9, _ => rfl

lemma decimal_eq (n : Nat) :
    decimal n = (if n < 10 then [] else decimal (n / 10)) ++ [UInt8.ofNat (48 + n % 10)] := by
  unfold decimal
  rw [Nat.toDigits_eq_if (by decide)]
  have last := toNat_digitChar (Nat.mod_lt n (by decide : 10 > 0))
  split
  next small =>
    rw [Nat.mod_eq_of_lt small] at last ⊢
    simp [last]
  simp [last]

lemma isDigit_last (n : Nat) : IsDigit (UInt8.ofNat (48 + n % 10)) := by
  rw [IsDigit, UInt8.toNat_ofNat']
  omega

lemma isDigit_of_mem_decimal (member : byte ∈ decimal n) : IsDigit byte := by
  induction n using Nat.strongRecOn with
  | _ n ih =>
    rw [decimal_eq] at member
    rcases mem_append.mp member with front | last
    · split at front
      · cases front
      next => exact ih (n / 10) (by omega) front
    rw [mem_singleton.mp last]
    exact isDigit_last n

lemma decimal_ne_nil (n : Nat) : decimal n ≠ [] := by
  rw [decimal_eq]
  exact append_ne_nil_of_right_ne_nil _ (cons_ne_nil _ _)

lemma foldl_decimal (n : Nat) :
    (decimal n).foldl (fun value byte => value * 10 + (byte.toNat - 48)) 0 = n := by
  induction n using Nat.strongRecOn with
  | _ n ih =>
    have byte : (UInt8.ofNat (48 + n % 10)).toNat - 48 = n % 10 := by
      rw [UInt8.toNat_ofNat']
      omega
    rw [decimal_eq, foldl_append, foldl_cons, foldl_nil, byte]
    split
    next less => simp [Nat.mod_eq_of_lt less]
    rw [ih (n / 10) (by omega)]
    omega

lemma length_decimal_le {n count : Nat} (positive : 0 < count) (bound : n < 10 ^ count) :
    (decimal n).length ≤ count := by
  induction count generalizing n with
  | zero => omega
  | succ count ih =>
    rw [decimal_eq, length_append]
    split
    · simp
    have lower : n / 10 < 10 ^ count := by omega
    have some : 0 < count := by
      rcases count with _ | count
      · rw [Nat.pow_zero] at lower
        omega
      exact Nat.succ_pos _
    exact Nat.succ_le_succ (ih some lower)

def newline : UInt8 := 10

/-- How many bytes `fgets` takes with a buffer of `size` bytes. -/
def lineLength (size : Nat) (text : Bytes) : Nat :=
  min (size - 1) ((text.takeWhile (· != newline)).length + 1)

/-- The lines that a loop over `fgets` gets, at most `fuel` of them. -/
def linesFuel (size : Nat) : (fuel : Nat) → Bytes → List Bytes
  | 0, _ => []
  | fuel + 1, text =>
    if text = [] then []
    else
      text.take (lineLength size text) ::
        linesFuel size fuel (text.drop (lineLength size text))

/-- The lines of a text, cut to the size of the buffer.  Each has at least one byte, if the
buffer has room for one. -/
def lines (size : Nat) (text : Bytes) : List Bytes := linesFuel size text.length text

lemma lineLength_line (plain : newline ∉ line) (short : line.length + 1 < size) :
    lineLength size (line ++ newline :: rest) = line.length + 1 := by
  have passes : ∀ byte ∈ line, (byte != newline) = true := by
    intro byte member
    rw [bne_iff_ne]
    rintro rfl
    exact plain member
  rw [lineLength, takeWhile_append_of_pos passes, takeWhile_cons_of_neg (by simp), append_nil]
  omega

lemma linesFuel_written {size fuel : Nat} {written : List Bytes}
    (plain : ∀ line ∈ written, newline ∉ line) (short : ∀ line ∈ written, line.length + 1 < size)
    (enough : written.length ≤ fuel) :
    linesFuel size fuel (written.flatMap (· ++ [newline])) = written.map (· ++ [newline]) := by
  induction written generalizing fuel with
  | nil => cases fuel <;> rfl
  | cons line written ih =>
    rw [forall_mem_cons] at plain short
    cases fuel with
    | zero => cases enough
    | succ fuel =>
      have front : (line :: written).flatMap (· ++ [newline]) =
          line ++ newline :: written.flatMap (· ++ [newline]) := by
        simp
      have taken : line.length + 1 = (line ++ [newline]).length := by simp
      have split : line ++ newline :: written.flatMap (· ++ [newline]) =
          (line ++ [newline]) ++ written.flatMap (· ++ [newline]) := by simp
      rw [front, linesFuel, if_neg (by simp), lineLength_line plain.1 short.1, taken, split,
        take_left, drop_left, ih plain.2 short.2 (Nat.le_of_succ_le_succ enough), map_cons]

lemma lines_written {size : Nat} {written : List Bytes} (plain : ∀ line ∈ written, newline ∉ line)
    (short : ∀ line ∈ written, line.length + 1 < size) :
    lines size (written.flatMap (· ++ [newline])) = written.map (· ++ [newline]) := by
  apply linesFuel_written plain short
  clear plain short
  induction written with
  | nil => exact Nat.le_refl _
  | cons line written =>
    simp only [flatMap_cons, length_append, length_cons]
    omega

end CMsgQueue.Text
