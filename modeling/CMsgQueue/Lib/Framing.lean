import Mathlib.Data.List.Basic

/-!
# Incremental framing of a symbol stream

A frame reader inspects the front of a buffer and answers that it needs more symbols, that the
front is malformed, or that a complete frame starts there.  Its verdicts must depend only on the
symbols that it consumes, since a stream arrives in arbitrary pieces.
-/

namespace CMsgQueue.Framing

open List

universe u v

/-- What the front of a buffer says about the next frame. -/
inductive Verdict (φ : Type v) where
  | more
  | bad
  | item (frame : φ) (size : Nat)
  deriving DecidableEq

/-- A frame reader together with the wire form of every frame it can return.

An `item` verdict is determined by the symbols it consumes, and a `bad` verdict
cannot be repaired by symbols that arrive later. -/
structure Codec (α : Type u) (φ : Type v) where
  peel : List α → Verdict φ
  encode : φ → List α
  item_pos : ∀ {buffer frame size}, peel buffer = .item frame size → 0 < size
  item_le : ∀ {buffer frame size}, peel buffer = .item frame size → size ≤ buffer.length
  item_local : ∀ {buffer frame size}, peel buffer = .item frame size →
    ∀ tail, peel (buffer.take size ++ tail) = .item frame size
  encode_item : ∀ {buffer frame size},
    peel buffer = .item frame size → encode frame = buffer.take size
  bad_append : ∀ {buffer}, peel buffer = .bad →
    ∀ tail, peel (buffer ++ tail) = .bad

namespace Codec

variable {α : Type u} {φ : Type v} (codec : Codec α φ)

def encodeAll (frames : List φ) : List α := frames.flatMap codec.encode

@[simp] lemma encodeAll_cons (frame : φ) (frames : List φ) :
    codec.encodeAll (frame :: frames) =
      codec.encode frame ++ codec.encodeAll frames := rfl

/-- The reader returns `frame` from its wire form, whatever follows it. -/
def Accepts (frame : φ) : Prop :=
  ∀ tail, codec.peel (codec.encode frame ++ tail) =
    .item frame (codec.encode frame).length

/-- Frames read from the front of a buffer, at most `fuel` of them. -/
def readFuel : Nat → List α → List φ
  | 0, _ => []
  | fuel + 1, buffer =>
    match codec.peel buffer with
    | .item frame size => frame :: readFuel fuel (buffer.drop size)
    | .more | .bad => []

/-- Frame-by-frame reading of a buffer up to the first incomplete or malformed
frame.  Every frame consumes at least one symbol, so the length of the buffer is
enough fuel. -/
def read (buffer : List α) : List φ := codec.readFuel buffer.length buffer

variable {codec}

lemma readFuel_eq_of_length_le (leftEnough : buffer.length ≤ left)
    (rightEnough : buffer.length ≤ right) :
    codec.readFuel left buffer = codec.readFuel right buffer := by
  induction left generalizing right buffer with
  | zero =>
    have empty : buffer = [] := length_eq_zero_iff.mp (by omega)
    cases right with
    | zero => rfl
    | succ right =>
      cases verdict : codec.peel buffer with
      | more | bad => simp [readFuel, verdict]
      | item frame size =>
        have positive := codec.item_pos verdict
        have bound := codec.item_le verdict
        omega
  | succ left ih =>
    cases verdict : codec.peel buffer with
    | more | bad => cases right <;> simp [readFuel, verdict]
    | item frame size =>
      have positive := codec.item_pos verdict
      have bound := codec.item_le verdict
      cases right with
      | zero => omega
      | succ right =>
        simp only [readFuel, verdict, List.cons.injEq, true_and]
        apply ih <;> rw [length_drop] <;> omega

lemma read_of_item (verdict : codec.peel buffer = .item frame size) :
    codec.read buffer = frame :: codec.read (buffer.drop size) := by
  have positive := codec.item_pos verdict
  have bound := codec.item_le verdict
  obtain ⟨length, lengthEq⟩ : ∃ less, buffer.length = less + 1 := ⟨buffer.length - 1, by omega⟩
  have enough : (buffer.drop size).length ≤ length := by
    rw [length_drop]
    omega
  rw [read, lengthEq]
  simp only [readFuel, verdict, List.cons.injEq, true_and]
  exact readFuel_eq_of_length_le enough (Nat.le_refl _)

lemma read_of_not_item (verdict : ∀ frame size, codec.peel buffer ≠ .item frame size) :
    codec.read buffer = [] := by
  unfold read
  cases buffer with
  | nil => rfl
  | cons symbol rest =>
    cases reading : codec.peel (symbol :: rest) with
    | more | bad => simp [readFuel, reading]
    | item frame size => exact absurd reading (verdict frame size)

lemma read_of_more (verdict : codec.peel buffer = .more) : codec.read buffer = [] :=
  read_of_not_item (by simp [verdict])

/-- Accepted frames are read back from their concatenated wire forms, and reading
then continues with whatever follows. -/
lemma read_encodeAll_append (accepted : ∀ frame ∈ frames, codec.Accepts frame) (tail : List α) :
    codec.read (codec.encodeAll frames ++ tail) = frames ++ codec.read tail := by
  induction frames with
  | nil => rfl
  | cons frame frames ih =>
    have front := accepted frame (by simp)
    have rest : ∀ other ∈ frames, codec.Accepts other := by
      intro other member
      exact accepted other (by simp [member])
    rw [encodeAll_cons, append_assoc, read_of_item (front _), drop_left, ih rest, cons_append]

end Codec

end CMsgQueue.Framing
