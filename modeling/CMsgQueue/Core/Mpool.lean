import CMsgQueue.Lib.Bytes
import CMsgQueue.Lib.Runs

/-!
# The memory pool

A region is cut from the last block behind its alignment, or from a new block.
-/

namespace CMsgQueue.Core

open List

/-- `cmq_mpool_block_t`, with the address that `malloc` returned. -/
structure MpoolBlock where
  mem : Nat
  size : Nat
  offset : Nat

/-- `cmq_mpool_t`: the blocks from `head` on are `older` and then `tail`. -/
structure CmqMpool where
  older : List MpoolBlock
  tail : MpoolBlock

def CmqMpool.blocks (pool : CmqMpool) : List MpoolBlock := pool.older ++ [pool.tail]

def cmqAlign16Ok (v : Nat) : Option Nat :=
  if v > sizeMax - 15 then none else some ((v + 15) / 16 * 16)

def cmqMpoolBlockCreate (malloc : Nat → Option Nat) (blockSize : Nat) : Option MpoolBlock :=
  if blockSize = 0 then none else (malloc blockSize).map (⟨·, blockSize, 0⟩)

def cmqMpoolCreate (malloc : Nat → Option Nat) (blockSize : Nat) : Option CmqMpool :=
  (cmqMpoolBlockCreate malloc (if blockSize = 0 then 4096 else blockSize)).map (⟨[], ·⟩)

/-- The aligned size, or 16 bytes more than the size. -/
def paddedSize (size aligned : Nat) : Option Nat :=
  if aligned < (size + 16) % 2 ^ 64 then
    if size > sizeMax - 16 then none else some (size + 16)
  else some aligned

/-- The size of a new block behind `b`.  The source computes `fourFifths` in floating point. -/
def newBlockSize (fourFifths : Nat → Nat) (b : MpoolBlock) (size : Nat) : Option Nat :=
  match cmqAlign16Ok size with
  | none => none
  | some dedicated =>
    if size > fourFifths b.size then paddedSize size dedicated
    else if b.size > sizeMax / 2 then none
    else if b.size * 2 < size then paddedSize size dedicated
    else some (b.size * 2)

def alignOffset (addr : Nat) : Nat := (16 - addr % 16) % 16

/-- `cmq_mpool_alloc` with what `malloc` returns for a block of each size. -/
def cmqMpoolAlloc (fourFifths : Nat → Nat) (malloc : Nat → Option Nat) (pool : CmqMpool)
    (asked : Nat) : Option Nat × CmqMpool :=
  let size := max asked 1
  let b := pool.tail
  let start := alignOffset (b.mem + b.offset)
  if b.offset > b.size ∨ start > sizeMax - size then (none, pool)
  else if start + size ≤ b.size - b.offset then
    (some (b.mem + (b.offset + start)),
      { pool with tail := { b with offset := b.offset + start + size } })
  else
    match (newBlockSize fourFifths b size).bind (cmqMpoolBlockCreate malloc) with
    | none => (none, pool)
    | some nb =>
      let aoff := alignOffset nb.mem
      if aoff > sizeMax - size ∨ aoff + size > nb.size then (none, pool)
      else (some (nb.mem + aoff), ⟨pool.blocks, { nb with offset := aoff + size }⟩)

/-- `cmq_mpool_reset`: only the first block stays. -/
def cmqMpoolReset (pool : CmqMpool) : CmqMpool :=
  ⟨[], { pool.older.headD pool.tail with offset := 0 }⟩

def Apart (r r' : Nat × Nat) : Prop := r.1 + r.2 ≤ r'.1 ∨ r'.1 + r'.2 ≤ r.1

@[simp] def MpoolBlock.span (b : MpoolBlock) : Nat × Nat := (b.mem, b.size)

/-- The pool and the regions handed out since the last reset. -/
structure MpoolRun where
  pool : CmqMpool
  regions : List (Nat × Nat)

inductive MpoolCall where
  | alloc (malloc : Nat → Option Nat) (size : Nat)
  | reset

def MpoolRun.step (fourFifths : Nat → Nat) (s : MpoolRun) : MpoolCall → MpoolRun
  | .alloc malloc size =>
    match cmqMpoolAlloc fourFifths malloc s.pool size with
    | (none, pool) => ⟨pool, s.regions⟩
    | (some ptr, pool) => ⟨pool, s.regions ++ [(ptr, max size 1)]⟩
  | .reset => ⟨cmqMpoolReset s.pool, []⟩

/-- `malloc` returns no memory of a block that the pool has. -/
def Granted (s : MpoolRun) : MpoolCall → Prop
  | .alloc malloc _ => ∀ n addr, malloc n = some addr →
      ∀ b ∈ s.pool.blocks, Apart b.span (addr, n)
  | .reset => True

namespace MpoolRun

/-- The regions are aligned, in the used part of a block each, and disjoint. -/
structure Sound (s : MpoolRun) : Prop where
  aligned : ∀ r ∈ s.regions, r.1 % 16 = 0
  inside : ∀ r ∈ s.regions, ∃ b ∈ s.pool.blocks, b.mem ≤ r.1 ∧ r.1 + r.2 ≤ b.mem + b.offset
  filled : ∀ b ∈ s.pool.blocks, b.offset ≤ b.size
  disjoint : s.regions.Pairwise Apart

structure Inv (s : MpoolRun) : Prop extends s.Sound where
  apart : s.pool.blocks.Pairwise fun b c => Apart b.span c.span

variable {pool : CmqMpool} {regions : List (Nat × Nat)}

lemma Inv.cut (inv : Inv ⟨pool, regions⟩) (behind : pool.tail.offset ≤ start)
    (aligned : (pool.tail.mem + start) % 16 = 0) (fits : start + n ≤ pool.tail.size) :
    Inv ⟨{ pool with tail := { pool.tail with offset := start + n } },
      regions ++ [(pool.tail.mem + start, n)]⟩ := by
  obtain ⟨olderApart, -, apart⟩ := pairwise_append.mp inv.apart
  have filled := inv.filled
  have inside := inv.inside
  simp only [CmqMpool.blocks, mem_append, mem_singleton, or_imp, forall_and, forall_eq,
    exists_or, or_and_right, exists_eq_left] at filled inside apart
  refine ⟨⟨?_, ?_, ?_, ?_⟩, ?_⟩
  · simpa [or_imp, forall_and, aligned] using inv.aligned
  · simp only [CmqMpool.blocks, mem_append, mem_singleton, exists_or, or_and_right, exists_eq_left]
    rintro r (member | rfl)
    · rcases inside r member with older | within
      · exact .inl older
      exact .inr (by omega)
    exact .inr (by simp only; omega)
  · simpa [CmqMpool.blocks, or_imp, forall_and, fits] using filled.1
  · refine pairwise_append.mpr ⟨inv.disjoint, pairwise_singleton _ _, ?_⟩
    simp only [mem_singleton, forall_eq]
    intro r member
    rcases inside r member with ⟨b, older, within⟩ | within
    -- The region lies in an older block, which is apart from the last one.
    · have others := apart b older
      have bFilled := filled.1 b older
      simp only [Apart, MpoolBlock.span] at others ⊢
      omega
    exact .inl (by simp only; omega)
  exact pairwise_append.mpr ⟨olderApart, pairwise_singleton _ _, by simpa using apart⟩

lemma Inv.grow (inv : Inv ⟨pool, regions⟩) (fresh : ∀ b ∈ pool.blocks, Apart b.span (addr, n)) :
    Inv ⟨⟨pool.blocks, ⟨addr, n, 0⟩⟩, regions⟩ := by
  refine ⟨⟨inv.aligned, fun r member => ?_, ?_, inv.disjoint⟩, ?_⟩
  · obtain ⟨b, old, within⟩ := inv.inside r member
    exact ⟨b, mem_append_left _ old, within⟩
  · simpa [CmqMpool.blocks, or_imp, forall_and] using inv.filled
  exact pairwise_append.mpr ⟨inv.apart, pairwise_singleton _ _, by simpa using fresh⟩

lemma alignOffset_aligned (addr : Nat) : (addr + alignOffset addr) % 16 = 0 := by
  unfold alignOffset
  omega

lemma Inv.step {fourFifths : Nat → Nat} (inv : Inv s) (granted : Granted s call) :
    (s.step fourFifths call).Inv := by
  cases call with
  | reset => refine ⟨⟨?_, ?_, ?_, ?_⟩, ?_⟩ <;> simp [MpoolRun.step, cmqMpoolReset, CmqMpool.blocks]
  | alloc malloc asked =>
    unfold MpoolRun.step cmqMpoolAlloc
    dsimp only
    split_ifs with full room
    · exact inv
    · refine inv.cut (Nat.le_add_right _ _) ?_ (by omega)
      rw [← Nat.add_assoc]
      exact alignOffset_aligned _
    cases created : (newBlockSize fourFifths s.pool.tail (max asked 1)).bind
        (cmqMpoolBlockCreate malloc) with
    | none => exact inv
    | some =>
      dsimp only
      split_ifs with tooSmall
      · exact inv
      -- The new block joins the others while it is empty, and the region is cut from it.
      obtain ⟨n, -, block⟩ := Option.bind_eq_some_iff.mp created
      obtain ⟨-, addr, returned, rfl⟩ := by simpa [cmqMpoolBlockCreate] using block
      exact (inv.grow (granted n addr returned)).cut (Nat.zero_le _) (alignOffset_aligned _)
        (by simp only at tooSmall ⊢; omega)

/-- Regions of a pool between two resets are aligned, in one block each and disjoint, for all
blocks that `malloc` may return. -/
theorem run_regions_sound {fourFifths : Nat → Nat} {malloc : Nat → Option Nat} {blockSize : Nat}
    {pool : CmqMpool} (created : cmqMpoolCreate malloc blockSize = some pool)
    {calls : List MpoolCall} (granted : Runs.Meets (step fourFifths) Granted ⟨pool, []⟩ calls) :
    (calls.foldl (step fourFifths) ⟨pool, []⟩).Sound := by
  refine (granted.invariant (fun _ _ inv => Inv.step inv) ?_).toSound
  obtain ⟨b, block, rfl⟩ := Option.map_eq_some_iff.mp created
  obtain ⟨-, _, -, rfl⟩ := by simpa [cmqMpoolBlockCreate] using block
  refine ⟨⟨?_, ?_, ?_, ?_⟩, ?_⟩ <;> simp [CmqMpool.blocks]

theorem run_regions_sound_grown :
    ([.alloc (fun _ => none) 10, .alloc (fun _ => some 4099) 60].foldl (step (· * 4 / 5))
      ⟨⟨[], ⟨1001, 64, 0⟩⟩, []⟩).Sound := by
  refine run_regions_sound (show cmqMpoolCreate (fun _ => some 1001) 64 = some _ from rfl)
    ⟨?_, ?_, trivial⟩
  · exact nofun
  rintro n _ ⟨⟩ b member
  rw [mem_singleton.mp member]
  exact .inl (show 1001 + 64 ≤ 4099 by decide)

end MpoolRun

end CMsgQueue.Core
