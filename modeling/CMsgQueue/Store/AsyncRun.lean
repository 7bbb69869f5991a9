import Mathlib.Data.List.Perm.Subperm
import CMsgQueue.Store.FilestoreRun

/-!
# The asynchronous ring

The worker takes the oldest entry under the lock of the ring, and writes it under the lock of the
store; calls of other threads may come between the two.  It writes the bytes of the entry without
a header and without a cell of the index, and leaves the cached ends as they are.
-/

namespace CMsgQueue.Store

open List IndexedLog Runs

/-- Steps of the producers, the worker and the callers of the store. -/
inductive AsyncEvent where
  /-- `cmq_filestore_async_enqueue`; a producer that waits and then gets room enqueues then. -/
  | enqueue (data : Bytes)
  | take
  | write
  | append (nowMs : Nat) (data : Bytes)
  | read (seq : Nat)
  deriving DecidableEq

/-- An open store with a ring, from its tail on, and the entry that the worker has taken; and
the records that were appended and enqueued. -/
structure AsyncFs where
  disk : Disk
  fs : CmqFilestore
  maxPayloadBytes : Nat
  asyncCapacity : Nat
  ring : List Bytes
  taken : Option Bytes
  appended : List Bytes
  enqueued : List Bytes
  deriving DecidableEq

namespace AsyncFs

/-- A store on an empty directory behind `cmq_filestore_set_async`. -/
def start (maxPayloadBytes asyncCapacity : Nat) : AsyncFs :=
  ⟨.empty, .opened 0, maxPayloadBytes, asyncCapacity, [], none, [], []⟩

/-- `cmq_filestore_async_enqueue`: the ring afterwards; `none` is the return value -1. -/
def cmqFilestoreAsyncEnqueue (s : AsyncFs) (data : Bytes) : Option (List Bytes) :=
  if data.length = 0 then none
  else if s.maxPayloadBytes > 0 ∧ data.length > s.maxPayloadBytes then none
  else if s.ring.length ≥ s.asyncCapacity then none
  else some (s.ring ++ [data])

/-- The first part of a round of `async_worker`. -/
def asyncTake (s : AsyncFs) : AsyncFs :=
  match s.taken, s.ring with
  | none, entry :: rest => { s with ring := rest, taken := some entry }
  | _, _ => s

/-- The second part of a round of `async_worker`, which ignores a failed write. -/
def asyncWrite (s : AsyncFs) : AsyncFs :=
  match s.taken with
  | none => s
  | some entry =>
    let data := (s.disk.live.data.append entry).getD s.disk.live.data
    { s with disk := { s.disk with live := { s.disk.live with data } }, taken := none }

def step (s : AsyncFs) : AsyncEvent → AsyncFs
  | .enqueue data =>
    match s.cmqFilestoreAsyncEnqueue data with
    | none => s
    | some ring => { s with ring, enqueued := s.enqueued ++ [data] }
  | .take => s.asyncTake
  | .write => s.asyncWrite
  | .append nowMs data =>
    let result := filestoreAppend s.disk s.fs nowMs data
    { s with
      disk := result.disk
      fs := result.fs
      appended := if result.seq = none then s.appended else s.appended ++ [data] }
  | .read seq => { s with fs := (filestoreRead s.disk.live s.fs seq).1 }

def run (maxPayloadBytes asyncCapacity : Nat) (events : List AsyncEvent) : AsyncFs :=
  events.foldl step (start maxPayloadBytes asyncCapacity)

/-- `count` rounds of the worker. -/
def rounds : Nat → AsyncFs → AsyncFs
  | 0, s => s
  | count + 1, s => rounds count s.asyncTake.asyncWrite

def drain (s : AsyncFs) : AsyncFs := rounds s.ring.length s.asyncWrite

/-- Once the worker has emptied the ring, every record that was appended or enqueued is read
with its bytes, each under a number of its own. -/
def Durable (s : AsyncFs) : Prop :=
  ∃ numbers : List Nat, numbers.Nodup ∧
    numbers.map (fun seq => (filestoreRead s.drain.disk.live s.drain.fs seq).2) =
      (s.appended ++ s.enqueued).map some

def Refused (s : AsyncFs) : AsyncEvent → Prop
  | .enqueue data => data.length = 0 ∨ s.maxPayloadBytes > 0 ∧ data.length > s.maxPayloadBytes
  | _ => True

variable {s : AsyncFs}

/-- Nothing was enqueued, and the files hold the records that were appended. -/
structure Inv (s : AsyncFs) : Prop where
  ring : s.ring = []
  taken : s.taken = none
  enqueued : s.enqueued = []
  capacity : 0 < s.asyncCapacity
  holds : Holds s.disk.live s.appended
  synced : Synced s.disk.live s.fs
  capless : s.fs.rotateBytes = 0

lemma le_of_filestoreRead {files : Files} {fs : CmqFilestore} {seq : Nat} {payload : Bytes}
    (read : (filestoreRead files fs seq).2 = some payload) :
    0 < seq ∧ seq ≤ files.idx.size / 8 := by
  have positive : seq ≠ 0 := by
    rintro rfl
    cases read
  refine ⟨Nat.pos_of_ne_zero positive, ?_⟩
  by_contra past
  rw [filestoreRead_eq_lookup _ _ positive, lookupRecord_past (by omega)] at read
  cases read

lemma length_le_of_reads {files : Files} {fs : CmqFilestore} {numbers : List Nat}
    {records : List Bytes} (nodup : numbers.Nodup)
    (reads : numbers.map (fun seq => (filestoreRead files fs seq).2) = records.map some) :
    records.length ≤ files.idx.size / 8 := by
  have inside : numbers ⊆ List.range' 1 (files.idx.size / 8) := by
    intro seq member
    have image : (filestoreRead files fs seq).2 ∈ records.map some := by
      rw [← reads]
      exact mem_map_of_mem member
    obtain ⟨_, -, found⟩ := mem_map.mp image
    have bounds := le_of_filestoreRead found.symm
    rw [mem_range'_1]
    omega
  have bound := (subperm_of_subset nodup inside).length_le
  have same := congrArg List.length reads
  rw [length_map, length_map] at same
  rw [length_range'] at bound
  omega

section

variable (inv : Inv s)
include inv

lemma Inv.durable : Durable s := by
  have drained : s.drain = s := by simp [drain, inv.ring, rounds, asyncWrite, inv.taken]
  refine ⟨List.range' 1 s.appended.length, nodup_range', ?_⟩
  rw [drained, inv.enqueued]
  apply ext_getElem
  · simp
  intro i inside _
  have inAppended : i < s.appended.length := by simpa using inside
  simp [inv.holds.filestoreRead_eq, inAppended]

lemma inv_append (nowMs : Nat) (data : Bytes) : Inv (s.step (.append nowMs data)) := by
  by_cases valid : Payload data
  · obtain ⟨_, appended, after, cap, outcome⟩ :=
      inv.holds.append_synced nowMs valid inv.synced
    simp only [step, appended]
    refine ⟨inv.ring, inv.taken, inv.enqueued, inv.capacity, ?_, after, cap.trans inv.capless⟩
    rcases outcome with ⟨-, failed, same⟩ | ⟨-, ok, -, holds⟩ | ⟨-, -, capped, -⟩
    · simpa [failed, same] using inv.holds
    · simpa [ok] using holds
    exact absurd inv.capless capped
  simp only [step, FsSystem.filestoreAppend_of_not_payload valid]
  exact { inv with }

lemma inv_read (seq : Nat) : Inv (s.step (.read seq)) := by
  refine ⟨inv.ring, inv.taken, inv.enqueued, inv.capacity, inv.holds, ?_, ?_⟩
  · simp only [step, filestoreRead]
    split
    · exact inv.synced
    split
    · exact inv.synced
    exact .inl rfl
  simp only [step, filestoreRead]
  split
  · exact inv.capless
  split <;> exact inv.capless

lemma inv_step (event : AsyncEvent) (refused : Refused s event) : Inv (s.step event) := by
  cases event with
  | enqueue data =>
    have failed : s.cmqFilestoreAsyncEnqueue data = none := by
      rcases refused with empty | long
      · rw [cmqFilestoreAsyncEnqueue, if_pos empty]
      rw [cmqFilestoreAsyncEnqueue, if_pos long, ite_self]
    simpa only [step, failed] using inv
  | take => simpa [step, asyncTake, inv.ring] using inv
  | write => simpa [step, asyncWrite, inv.taken] using inv
  | append nowMs data => exact inv_append inv nowMs data
  | read seq => exact inv_read inv seq

lemma drain_enqueued_idx (accepted : s.cmqFilestoreAsyncEnqueue data = some [data]) :
    (s.step (.enqueue data)).drain.disk.live.idx = s.disk.live.idx := by
  simp [step, accepted, drain, asyncWrite, inv.taken, rounds, asyncTake]

lemma refused_of_durable (event : AsyncEvent) (durable : Durable (s.step event)) :
    Refused s event := by
  cases event with
  | enqueue data =>
    by_contra accepts
    rw [Refused, not_or] at accepts
    have accepted : s.cmqFilestoreAsyncEnqueue data = some [data] := by
      rw [cmqFilestoreAsyncEnqueue, if_neg accepts.1, if_neg accepts.2, if_neg, inv.ring]
      · rfl
      rw [inv.ring]
      exact Nat.not_le.mpr inv.capacity
    -- one cell for each append, and one record more
    obtain ⟨_, nodup, reads⟩ := durable
    have bound := length_le_of_reads nodup reads
    rw [drain_enqueued_idx inv accepted, inv.holds.idx_size] at bound
    have more : (s.step (.enqueue data)).appended ++ (s.step (.enqueue data)).enqueued =
        s.appended ++ [data] := by
      simp [step, accepted, inv.enqueued]
    rw [more, length_append, length_singleton] at bound
    omega
  | take | write | append | read => trivial

end

/-- In every state of a run, all records that were appended or enqueued will be readable, if
and only if the run enqueues nothing: every record it tries to enqueue is refused for its
length. -/
theorem run_durable_iff (maxPayloadBytes asyncCapacity : Nat) (positive : 0 < asyncCapacity)
    (events : List AsyncEvent) :
    (∀ n, Durable (run maxPayloadBytes asyncCapacity (events.take n))) ↔
      Meets step Refused (start maxPayloadBytes asyncCapacity) events := by
  have begins : Inv (start maxPayloadBytes asyncCapacity) :=
    ⟨rfl, rfl, rfl, positive, holds_empty, .inr (.inr rfl), rfl⟩
  have gives : ∀ s, Inv s → Durable s := fun _ => Inv.durable
  have needed : ∀ s event, Inv s → Durable (step s event) → Refused s event :=
    fun _ event inv => refused_of_durable inv event
  exact Meets.iff_property gives (fun _ event inv => inv_step inv event) needed begins

/-- Two appends, and between them a record that is longer than the ring accepts. -/
theorem run_durable_iff_refused :
    Meets step Refused (start 1 8) [.append 0 [1], .enqueue [2, 2], .append 0 [3]] ∧
      ∀ n, Durable (run 1 8 ([.append 0 [1], .enqueue [2, 2], .append 0 [3]].take n)) := by
  have refused : Meets step Refused (start 1 8)
      [.append 0 [1], .enqueue [2, 2], .append 0 [3]] :=
    ⟨trivial, .inr ⟨by decide, by decide⟩, trivial, trivial⟩
  exact ⟨refused, (run_durable_iff 1 8 (by decide) _).mpr refused⟩

/-- A record is enqueued and written, and then another is appended: neither can be read. -/
theorem run_loses_enqueued :
    let s := run (1024 * 1024) 8 [.enqueue [1], .take, .write, .append 0 [2]]
    s.enqueued = [[1]] ∧ s.appended = [[2]] ∧ s.drain = s ∧
      (∀ seq, (filestoreRead s.disk.live s.fs seq).2 = none) ∧ ¬ Durable s := by
  intro s
  have enqueued : s.enqueued = [[1]] := by decide +kernel
  have appended : s.appended = [[2]] := by decide +kernel
  have drained : s.drain = s := by decide +kernel
  have cells : s.disk.live.idx.size / 8 = 1 := by decide +kernel
  have first : (filestoreRead s.disk.live s.fs 1).2 = none := by decide +kernel
  have unread : ∀ seq, (filestoreRead s.disk.live s.fs seq).2 = none := by
    intro seq
    cases read : (filestoreRead s.disk.live s.fs seq).2 with
    | none => rfl
    | some =>
      have bounds := le_of_filestoreRead read
      have one : seq = 1 := by omega
      rw [one, first] at read
      cases read
  refine ⟨enqueued, appended, drained, unread, ?_⟩
  rintro ⟨_, nodup, reads⟩
  have bound := length_le_of_reads nodup reads
  exact absurd bound (by decide)

end AsyncFs

end CMsgQueue.Store
