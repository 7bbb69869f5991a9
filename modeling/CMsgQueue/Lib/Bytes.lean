import Mathlib.Algebra.Ring.Nat
import Mathlib.Data.List.Basic

/-!
# Bytes and fixed-width integers on the wire

A C string is the list of its bytes without the terminating NUL.  In the integer codecs the
disjoint shifted bytes of the C expressions become a sum.
-/

namespace CMsgQueue

open List

abbrev Bytes := List UInt8

def cstr (text : String) : Bytes :=
  text.toList.map fun character => character.toNat.toUInt8

/-- The character `'.'`. -/
def chDot : UInt8 := 0x2E
/-- The character `'*'`. -/
def chStar : UInt8 := 0x2A
/-- The character `'>'`. -/
def chGt : UInt8 := 0x3E

/-- Largest value of a C `size_t` on the supported 64-bit platforms. -/
def sizeMax : Nat := 2 ^ 64 - 1

def le32 (b0 b1 b2 b3 : UInt8) : Nat :=
  b0.toNat + b1.toNat * 2 ^ 8 + b2.toNat * 2 ^ 16 + b3.toNat * 2 ^ 24

def putLe32 (value : Nat) : Bytes :=
  [UInt8.ofNat value, UInt8.ofNat (value / 2 ^ 8),
    UInt8.ofNat (value / 2 ^ 16), UInt8.ofNat (value / 2 ^ 24)]

lemma le32_lt (b0 b1 b2 b3 : UInt8) : le32 b0 b1 b2 b3 < 2 ^ 32 := by
  have h0 := b0.toNat_lt
  have h1 := b1.toNat_lt
  have h2 := b2.toNat_lt
  have h3 := b3.toNat_lt
  unfold le32
  omega

variable {value width : Nat}

lemma le32_ofNat (bound : value < 2 ^ 32) :
    le32 (UInt8.ofNat value) (UInt8.ofNat (value / 2 ^ 8))
      (UInt8.ofNat (value / 2 ^ 16)) (UInt8.ofNat (value / 2 ^ 24)) = value := by
  simp only [le32, UInt8.toNat_ofNat']
  omega

lemma putLe32_le32 (b0 b1 b2 b3 : UInt8) : putLe32 (le32 b0 b1 b2 b3) = [b0, b1, b2, b3] := by
  have h0 := b0.toNat_lt
  have h1 := b1.toNat_lt
  have h2 := b2.toNat_lt
  have h3 := b3.toNat_lt
  simp only [putLe32, List.cons.injEq, and_true, ← UInt8.toNat_inj, UInt8.toNat_ofNat', le32]
  omega

def getBe (bytes : Bytes) : Nat := bytes.foldl (fun value byte => value * 256 + byte.toNat) 0

/-- The `width` big-endian bytes of a value. -/
def putBe : (width : Nat) → (value : Nat) → Bytes
  | 0, _ => []
  | width + 1, value => UInt8.ofNat (value / 256 ^ width) :: putBe width value

@[simp] lemma length_putBe (width value : Nat) : (putBe width value).length = width := by
  induction width with
  | zero => rfl
  | succ width ih => simp [putBe, ih]

lemma foldl_putBe (width value start : Nat) :
    (putBe width value).foldl (fun value byte => value * 256 + byte.toNat) start =
      start * 256 ^ width + value % 256 ^ width := by
  induction width generalizing start with
  | zero => simp [putBe, Nat.mod_one]
  | succ width ih =>
    have digits : value % 256 ^ (width + 1) =
        value % 256 ^ width + 256 ^ width * (value / 256 ^ width % 256) := by
      rw [Nat.pow_succ, Nat.mod_mul]
    have byte : (2 : Nat) ^ 8 = 256 := rfl
    rw [putBe, foldl_cons, ih, UInt8.toNat_ofNat', digits, byte, Nat.pow_succ]
    generalize value / 256 ^ width % 256 = digit
    generalize 256 ^ width = base
    rw [Nat.add_mul, Nat.mul_assoc, Nat.mul_comm 256 base, Nat.mul_comm digit base]
    omega

lemma getBe_putBe (bound : value < 256 ^ width) : getBe (putBe width value) = value := by
  rw [getBe, foldl_putBe, Nat.mod_eq_of_lt bound]
  omega

def getLe (bytes : Bytes) : Nat := getBe bytes.reverse

/-- The `width` little-endian bytes of a value. -/
def putLe (width value : Nat) : Bytes := (putBe width value).reverse

@[simp] lemma length_putLe (width value : Nat) : (putLe width value).length = width := by
  simp [putLe]

lemma take_putLe {count : Nat} (value : Nat) (all : width ≤ count) :
    (putLe width value).take count = putLe width value :=
  take_of_length_le (by simpa using all)

lemma drop_putLe {count : Nat} (value : Nat) (all : width ≤ count) :
    (putLe width value).drop count = [] :=
  drop_eq_nil_of_le (by simpa using all)

lemma getLe_putLe (bound : value < 256 ^ width) : getLe (putLe width value) = value := by
  rw [getLe, putLe, reverse_reverse, getBe_putBe bound]

/-- `text` has `part` at an offset, and `rest` behind it. -/
structure ReadsAt {α : Type} (text : List α) (offset : Nat) (part rest : List α) : Prop where
  inside : offset ≤ text.length
  drop : text.drop offset = part ++ rest

namespace ReadsAt

variable {α : Type} {text part rest : List α} {offset : Nat}

section

variable (reads : ReadsAt text offset part rest)
include reads

lemma le : offset + part.length ≤ text.length := by
  have lengths := congrArg List.length reads.drop
  have inside := reads.inside
  rw [length_drop, length_append] at lengths
  omega

lemma take : (text.drop offset).take part.length = part := by
  rw [reads.drop, take_left]

lemma drop_behind : text.drop (offset + part.length) = rest := by
  rw [← drop_drop, reads.drop, drop_left]

end

lemma next (reads : ReadsAt text offset part (more ++ rest)) :
    ReadsAt text (offset + part.length) more rest :=
  ⟨reads.le, reads.drop_behind⟩

lemma split (reads : ReadsAt text offset (part ++ more) rest) :
    ReadsAt text offset part (more ++ rest) :=
  ⟨reads.inside, by rw [reads.drop, append_assoc]⟩

lemma getBe_take {bytes rest : Bytes} (bound : value < 256 ^ width)
    (reads : ReadsAt bytes offset (putBe width value) rest) :
    getBe ((bytes.drop offset).take width) = value := by
  have taken := reads.take
  rw [length_putBe] at taken
  rw [taken, getBe_putBe bound]

end ReadsAt

/-- What a lookup that copies a value into a buffer of `outSz` bytes returns: 0 and the value, -1
if there is none, and -2 if it is too large. -/
def fetched (outSz : Nat) : Option Bytes → Int × Option Bytes
  | none => (-1, none)
  | some value => if outSz < value.length then (-2, none) else (0, some value)

lemma fetched_inj
    (same : ∀ outSz, fetched outSz first = fetched outSz second) : first = second := by
  cases first with
  | none =>
    cases second with
    | none => rfl
    | some value => simpa [fetched] using same value.length
  | some value =>
    cases second with
    | none => simpa [fetched] using same value.length
    | some other =>
      have long := same (value.length + other.length)
      simpa [fetched, Nat.not_lt_of_le, Nat.le_add_left] using long

end CMsgQueue
