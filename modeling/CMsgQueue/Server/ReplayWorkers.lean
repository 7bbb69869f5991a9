import CMsgQueue.Server.Replay
import CMsgQueue.Store.RangeSpec
import Mathlib.Data.List.Nodup

/-!
# The replay at start-up

`cmq_server_create` replays the write-ahead log with several threads, which claim chunks of 1024
numbers by an atomic addition to `next_seq`.  Their contexts are copies of the first one, and the
counter is a field of the context, so each thread counts for itself.  No two threads replay a
record only because there is one: `num_workers` is still 0.  The client of a replay has no
descriptor, so `handle_publish` appends nothing.
-/

namespace CMsgQueue.Server

open Option List Store

/-- `replay_worker_ctx_t`, apart from the server. -/
structure ReplayWorkerCtx where
  last : Nat
  p7Batch : Nat
  nextSeq : Nat
  workerId : Nat
  deriving DecidableEq

/-- A thread in `replay_worker`: its context, the records that it has read and not yet
replayed, with their numbers, and those it has handed to `replay_one_record`. -/
structure ReplayThread where
  ctx : ReplayWorkerCtx
  arr : List (Nat × Bytes)
  dispatched : List (Nat × Bytes)
  finished : Bool
  deriving DecidableEq

/-- The server with the threads of its replay. -/
structure ReplayState where
  srv : CmqServer
  logs : PublishLogs
  threads : List ReplayThread

namespace ReplayThread

/-- The head of the loop of `replay_worker`: claim a chunk and read it. -/
def claim (files : Files) (t : ReplayThread) : ReplayThread :=
  let seqLo := t.ctx.nextSeq
  let ctx := { t.ctx with nextSeq := (seqLo + t.ctx.p7Batch) % 2 ^ 64 }
  if seqLo > ctx.last then { t with ctx, finished := true }
  else
    let seqHi := seqLo + ctx.p7Batch - 1
    let seqHi := if seqHi > ctx.last then ctx.last else seqHi
    { t with ctx, arr := (filestoreReadRange files seqLo seqHi).getD [] }

def advance (files : Files) (t : ReplayThread) : ReplayThread :=
  if t.finished then t
  else
    match t.arr with
    | [] => t.claim files
    | record :: arr => { t with arr, dispatched := t.dispatched ++ [record] }

def current (t : ReplayThread) : Option Bytes :=
  if t.finished then none else t.arr.head?.map Prod.snd

end ReplayThread

namespace ReplayState

/-- The number of threads: `srv->num_workers`, but at least 1 and at most 8. -/
def workerCount (numWorkers : Nat) : Nat := min (max numWorkers 1) 8

/-- The threads as `cmq_server_create` starts them.  `ctxs[i] = ctxs[0]` copies the counter
with the rest of the context. -/
def startThreads (numWorkers last : Nat) : List ReplayThread :=
  let first : ReplayWorkerCtx := ⟨last, 1024, 1, 0⟩
  (List.range (workerCount numWorkers)).map fun i =>
    ⟨{ first with workerId := i }, [], [], false⟩

/-- The replay of an opened store; `last` is `cmq_filestore_last_seq`. -/
def start (srv : CmqServer) (logs : PublishLogs) (files : Files) : ReplayState :=
  let last := files.idx.size / 8
  ⟨srv, logs, if last > 0 then startThreads srv.numWorkers last else []⟩

/-- The server at its replay: `calloc` has cleared `num_workers`, and only `cmq_server_run`
sets it. -/
def atCreate (srv : CmqServer) : CmqServer := { srv with numWorkers := 0 }

def step (files : Files) (s : ReplayState) (turn : Nat × PublishEnv) : ReplayState :=
  match s.threads[turn.1]? with
  | none => s
  | some t =>
    let threads := s.threads.set turn.1 (t.advance files)
    match t.current with
    | none => { s with threads }
    | some record =>
      let replayed := replayOneRecord turn.2 s.srv s.logs record
      ⟨replayed.1, replayed.2.1, threads⟩

def run (files : Files) (s : ReplayState) (schedule : List (Nat × PublishEnv)) : ReplayState :=
  schedule.foldl (step files) s

/-- What the threads have handed to `replay_one_record`. -/
def dispatched (s : ReplayState) : List (Nat × Bytes) :=
  s.threads.flatMap ReplayThread.dispatched

end ReplayState

/-! ## The files of an opened store -/

section Opened

variable {files opened : Files} {fs : CmqFilestore}

lemma checked_of_truncate {data : File} {length offset seq : Nat} (inside : length ≤ data.size)
    (whole : framed (data.truncate length) offset = true) (valid : checked data offset seq = true) :
    checked (data.truncate length) offset seq = true := by
  have size := File.size_truncate inside
  have header : readHdr (data.truncate length) offset = readHdr data offset := by
    unfold framed readHdr at whole
    unfold readHdr
    by_cases front : offset + cmqFsHdrSize ≤ length
    · rw [File.readAt_truncate inside front]
    rw [File.readAt, size, if_neg front] at whole
    cases whole
  unfold checked at valid ⊢
  unfold framed at whole
  rw [header] at whole ⊢
  cases found : readHdr data offset with
  | none =>
    rw [found] at whole
    cases whole
  | some hdr =>
    simp only [found, any_some, Bool.and_eq_true, decide_eq_true_eq] at whole valid ⊢
    have bytes : ((data.truncate length).bytes.drop (offset + cmqFsHdrSize)).take hdr.len =
        (data.bytes.drop (offset + cmqFsHdrSize)).take hdr.len := by
      rw [File.truncate_bytes inside, drop_take, take_take, min_eq_left (by omega)]
    rw [bytes]
    exact valid

/-- The readable records with numbers from `lo` on, in order. -/
def readable (files : Files) (fs : CmqFilestore) (lo count : Nat) : List (Nat × Bytes) :=
  (List.range' lo count).filterMap fun seq =>
    (filestoreRead files fs seq).2.map fun payload => (seq, payload)

lemma readable_add (files : Files) (fs : CmqFilestore) (lo count more : Nat) :
    readable files fs lo (count + more) =
      readable files fs lo count ++ readable files fs (lo + count) more := by
  have split : List.range' lo (count + more) =
      List.range' lo count ++ List.range' (lo + count) more := by
    rw [List.range'_append_1]
  rw [readable, split, filterMap_append]
  rfl

variable (created : cmqFilestoreCreate files = some (opened, fs))
include created

lemma checkedAt_of_opened {seq : Nat} (positive : 0 < seq) (whole : framedAt opened seq = true) :
    checkedAt opened seq = true := by
  have le := readable_le files
  obtain ⟨_, created', index, ⟨_, inside, data⟩, -⟩ := cmqFilestoreCreate_spec files
  rw [created, Option.some.injEq] at created'
  obtain ⟨rfl, -⟩ := created'
  have bound : seq ≤ Store.readable files := by
    by_contra past
    rw [framedAt_past (by rw [index, File.size_truncate le]; omega)] at whole
    cases whole
  have cell : idxEntry opened.idx (seq - 1) = idxEntry files.idx (seq - 1) := by
    rw [index, idxEntry_truncate le, if_pos (by omega)]
  have present : seq - 1 < Store.readable files := by omega
  obtain ⟨_, found⟩ := lookupRecord_of_lt_readable present
  rw [Nat.sub_add_cancel positive] at found
  have valid : checkedAt files seq = true := by
    by_contra failed
    rw [(lookupRecord_eq_none_iff files seq).mpr fun both => failed both.2] at found
    cases found
  rw [checkedAt] at valid ⊢
  rw [framedAt] at whole
  rw [cell] at whole ⊢
  cases entry : idxEntry files.idx (seq - 1) with
  | none =>
    rw [entry] at whole
    cases whole
  | some =>
    rw [entry, data] at whole
    rw [entry] at valid
    rw [data]
    exact checked_of_truncate inside whole valid

lemma filestoreReadRange_opened (positive : 0 < lo) (order : lo ≤ hi)
    (inside : hi ≤ opened.idx.size / 8) (chunk : hi < lo + 1024) :
    (filestoreReadRange opened lo hi).getD [] = readable opened fs lo (hi + 1 - lo) := by
  refine (rangeExact_inside_iff positive (by omega) order).mpr fun seq _ _ => ?_
  have less : seq < lo + rangeMax := by
    rw [rangeMax]
    omega
  rw [if_pos less]
  exact checkedAt_of_opened created (by omega)

end Opened

/-! ## A thread -/

namespace ReplayThread

variable {files opened : Files} {fs : CmqFilestore} {last : Nat} {t : ReplayThread}

def claimed (last : Nat) (t : ReplayThread) : Nat := min (t.ctx.nextSeq - 1) last

/-- What a thread has dispatched and what it is going to dispatch are the readable records
with the numbers that it has claimed. -/
structure Inv (files : Files) (fs : CmqFilestore) (last : Nat) (t : ReplayThread) : Prop where
  last_eq : t.ctx.last = last
  batch : t.ctx.p7Batch = 1024
  next : 0 < t.ctx.nextSeq
  bound : t.ctx.nextSeq ≤ last + 2048
  records : t.dispatched ++ t.arr = readable files fs 1 (t.claimed last)
  done : t.finished = true → t.arr = [] ∧ last < t.ctx.nextSeq
  running : t.finished = false → t.ctx.nextSeq ≤ last + 1024

def stepsLeft (last : Nat) (t : ReplayThread) : Nat :=
  if t.finished then 0 else t.arr.length + 2 * (last + 1 - t.ctx.nextSeq) + 1

lemma Inv.dispatched_of_finished (inv : Inv files fs last t) (finished : t.finished = true) :
    t.dispatched = readable files fs 1 last := by
  obtain ⟨empty, _⟩ := inv.done finished
  have records := inv.records
  rwa [empty, append_nil, claimed, Nat.min_eq_right (by omega)] at records

variable (created : cmqFilestoreCreate files = some (opened, fs)) (lastEq : last = opened.idx.size / 8)
include created lastEq

lemma Inv.claim (inv : Inv opened fs last t) (running : t.finished = false) (empty : t.arr = []) :
    Inv opened fs last (t.claim opened) ∧ stepsLeft last (t.claim opened) < stepsLeft last t := by
  have few := cells_lt opened
  have bound := inv.running running
  have next : (t.ctx.nextSeq + 1024) % 2 ^ 64 = t.ctx.nextSeq + 1024 := Nat.mod_eq_of_lt (by omega)
  have records := inv.records
  rw [empty, append_nil, claimed] at records
  have left : stepsLeft last t = 2 * (last + 1 - t.ctx.nextSeq) + 1 := by
    simp [stepsLeft, running, empty]
  have positive := inv.next
  unfold ReplayThread.claim
  simp only [inv.last_eq, inv.batch, next]
  split
  next =>
    constructor
    · refine ⟨rfl, rfl, by simp, by simp only; omega, ?_, fun _ => ?_, nofun⟩
      · simp only [empty, append_nil, claimed]
        rw [records, min_eq_right (by omega), min_eq_right (by omega)]
      exact ⟨empty, by simp only; omega⟩
    rw [left]
    simp [stepsLeft]
  rw [min_eq_left (by omega)] at records
  have hiEq : (if t.ctx.nextSeq + 1024 - 1 > last then last else t.ctx.nextSeq + 1024 - 1) =
      min last (t.ctx.nextSeq + 1023) := by
    split <;> omega
  have chunk : (filestoreReadRange opened t.ctx.nextSeq (min last (t.ctx.nextSeq + 1023))).getD [] =
        readable opened fs t.ctx.nextSeq
          (min last (t.ctx.nextSeq + 1023) + 1 - t.ctx.nextSeq) :=
    filestoreReadRange_opened created inv.next (by omega) (by omega) (by omega)
  rw [hiEq, chunk]
  constructor
  · refine ⟨rfl, rfl, by simp, by simp only; omega, ?_,
      fun done => ?_, fun _ => by simp only; omega⟩
    · simp only [claimed]
      have whole : min (t.ctx.nextSeq + 1024 - 1) last = (t.ctx.nextSeq - 1) +
          (min last (t.ctx.nextSeq + 1023) + 1 - t.ctx.nextSeq) := by omega
      have start : 1 + (t.ctx.nextSeq - 1) = t.ctx.nextSeq := by omega
      rw [records, whole, readable_add, start]
    exact absurd done (by simp [running])
  rw [left]
  have length : (readable opened fs t.ctx.nextSeq
      (min last (t.ctx.nextSeq + 1023) + 1 - t.ctx.nextSeq)).length ≤ _ :=
    le_trans (length_filterMap_le _ _) (le_of_eq length_range')
  simp only [stepsLeft, running, Bool.false_eq_true, if_false]
  omega

/-- A step keeps the invariant, and an unfinished thread comes closer to its end. -/
lemma Inv.advance (inv : Inv opened fs last t) :
    Inv opened fs last (t.advance opened) ∧
      stepsLeft last (t.advance opened) ≤ stepsLeft last t - 1 := by
  unfold ReplayThread.advance
  split
  next finished => exact ⟨inv, by simp [stepsLeft, finished]⟩
  next unfinished =>
  rw [Bool.not_eq_true] at unfinished
  split
  next empty =>
    obtain ⟨kept, _⟩ := inv.claim created lastEq unfinished empty
    exact ⟨kept, by omega⟩
  next _ _ pending =>
  constructor
  · refine ⟨inv.last_eq, inv.batch, inv.next, inv.bound, ?_, fun done => ?_, inv.running⟩
    · have records := inv.records
      rw [pending] at records
      simpa [claimed] using records
    exact absurd done (by simp [unfinished])
  simp only [stepsLeft, unfinished, pending, Bool.false_eq_true, if_false, length_cons]
  omega

end ReplayThread

/-! ## The replay -/

namespace ReplayState

variable {files opened : Files} {fs : CmqFilestore} {last : Nat} {s : ReplayState}

@[simp] lemma step_threads (files : Files) (s : ReplayState) (turn : Nat × PublishEnv) :
    (step files s turn).threads = s.threads.modify turn.1 (·.advance files) := by
  unfold step
  split
  next none => rw [modify_eq_self (getElem?_eq_none_iff.mp none)]
  next t found =>
  have modified : s.threads.modify turn.1 (·.advance files) =
      s.threads.set turn.1 (t.advance files) := by
    rw [modify_eq_set_getElem?, found]
    rfl
  split <;> rw [modified]

def turns (schedule : List (Nat × PublishEnv)) (i : Nat) : Nat :=
  schedule.countP fun turn => turn.1 == i

lemma length_run_threads (schedule : List (Nat × PublishEnv)) :
    (run files s schedule).threads.length = s.threads.length := by
  induction schedule generalizing s with
  | nil => rfl
  | cons _ schedule ih => rw [run, foldl_cons, ← run, ih, step_threads, length_modify]

lemma startThreads_inv (files : Files) (fs : CmqFilestore) (numWorkers : Nat)
    (found : (startThreads numWorkers last)[i]? = some t) :
    t.Inv files fs last ∧ t.stepsLeft last = 2 * last + 1 ∧ i < workerCount numWorkers := by
  obtain ⟨inside, rfl⟩ := List.getElem?_eq_some_iff.mp found
  simp only [startThreads, length_map, length_range] at inside
  simp only [startThreads, getElem_map]
  refine ⟨⟨rfl, rfl, Nat.one_pos, by simp only; omega, ?_, nofun, fun _ => by simp only; omega⟩,
    ?_, inside⟩
  · simp [ReplayThread.claimed, readable]
  simp [ReplayThread.stepsLeft]

lemma count_readable (files : Files) (fs : CmqFilestore) (seq : Nat) (payload : Bytes) :
    (readable files fs 1 (files.idx.size / 8)).count (seq, payload) =
      if (filestoreRead files fs seq).2 = some payload then 1 else 0 := by
  have distinct : (readable files fs 1 (files.idx.size / 8)).Nodup := by
    refine List.Nodup.filterMap ?_ nodup_range'
    rintro i j ⟨seq, payload⟩ first second
    obtain ⟨_, _, same⟩ := map_eq_some_iff.mp first
    obtain ⟨_, _, same'⟩ := map_eq_some_iff.mp second
    exact (Prod.mk.inj same).1.trans (Prod.mk.inj same').1.symm
  have member : (seq, payload) ∈ readable files fs 1 (files.idx.size / 8) ↔
      (filestoreRead files fs seq).2 = some payload := by
    simp only [readable, mem_filterMap, mem_range'_1, map_eq_some_iff, Prod.mk.injEq]
    constructor
    · rintro ⟨_, -, _, found, rfl, rfl⟩
      exact found
    intro found
    refine ⟨seq, ?_, payload, found, rfl, rfl⟩
    by_contra outside
    rcases Nat.eq_zero_or_pos seq with rfl | positive
    · rw [filestoreRead_zero] at found
      cases found
    rw [filestoreRead_eq_lookup files fs (ne_of_gt positive), lookupRecord_past (by omega)] at found
    cases found
  split
  next found => exact count_eq_one_of_mem distinct (member.mpr found)
  next other => exact count_eq_zero_of_not_mem (mt member.mp other)

section

variable (created : cmqFilestoreCreate files = some (opened, fs))
include created

lemma run_thread (lastEq : last = opened.idx.size / 8) (schedule : List (Nat × PublishEnv))
    (found : s.threads[i]? = some t) (inv : t.Inv opened fs last) :
    ∃ t', (run opened s schedule).threads[i]? = some t' ∧ t'.Inv opened fs last ∧
      t'.stepsLeft last ≤ t.stepsLeft last - turns schedule i := by
  induction schedule generalizing s t with
  | nil => exact ⟨t, found, inv, le_refl _⟩
  | cons turn schedule ih =>
    rw [run, turns, countP_cons, ← turns]
    by_cases here : turn.1 = i
    · obtain ⟨kept, _⟩ := inv.advance created lastEq
      have moved : (step opened s turn).threads[i]? = some (t.advance opened) := by
        rw [step_threads, getElem?_modify, found]
        simp [here]
      obtain ⟨t', found', inv', _⟩ := ih moved kept
      refine ⟨t', found', inv', ?_⟩
      rw [if_pos (beq_iff_eq.mpr here)]
      omega
    have stays : (step opened s turn).threads[i]? = some t := by
      rw [step_threads, getElem?_modify, found]
      simp [here]
    rw [if_neg (by simpa using here)]
    exact ih stays inv

def Completes (last numWorkers : Nat) (schedule : List (Nat × PublishEnv)) : Prop :=
  ∀ i, i < workerCount numWorkers → 2 * last + 1 ≤ turns schedule i

lemma run_finished (srv : CmqServer) (logs : PublishLogs)
    (complete : Completes (opened.idx.size / 8) srv.numWorkers schedule) :
    ∀ t ∈ (run opened (start srv logs opened) schedule).threads,
      t.finished = true ∧ t.dispatched = readable opened fs 1 (opened.idx.size / 8) := by
  intro t member
  obtain ⟨i, found⟩ := mem_iff_getElem?.mp member
  have bound : i < (start srv logs opened).threads.length := by
    rw [← length_run_threads schedule]
    exact (List.getElem?_eq_some_iff.mp found).1
  have threads : (start srv logs opened).threads =
      startThreads srv.numWorkers (opened.idx.size / 8) := by
    unfold start at bound ⊢
    simp only at bound ⊢
    split at bound
    next some => rw [if_pos some]
    cases bound
  have found₀ := getElem?_eq_getElem bound
  generalize (start srv logs opened).threads[i] = t₀ at found₀
  obtain ⟨inv, left, inside⟩ := startThreads_inv opened fs srv.numWorkers (threads ▸ found₀)
  obtain ⟨_, found', inv', less⟩ := run_thread created rfl schedule found₀ inv
  rw [found, Option.some.injEq] at found'
  subst found'
  have finished : t.finished = true := by
    have enough := complete i inside
    by_contra unfinished
    simp [ReplayThread.stepsLeft, unfinished] at less left
    omega
  exact ⟨finished, inv'.dispatched_of_finished finished⟩

/-- Every record that can be read has been dispatched once, and nothing else has been. -/
def ExactlyOnce (files : Files) (fs : CmqFilestore) (s : ReplayState) : Prop :=
  ∀ seq payload, s.dispatched.count (seq, payload) =
    if (filestoreRead files fs seq).2 = some payload then 1 else 0

lemma count_dispatched (srv : CmqServer) (logs : PublishLogs)
    (complete : Completes (opened.idx.size / 8) srv.numWorkers schedule) (seq : Nat)
    (payload : Bytes) :
    (run opened (start srv logs opened) schedule).dispatched.count (seq, payload) =
      workerCount srv.numWorkers *
        if (filestoreRead opened fs seq).2 = some payload then 1 else 0 := by
  have finished := run_finished created srv logs complete
  have each : (run opened (start srv logs opened) schedule).threads.map
      (fun t => t.dispatched.count (seq, payload)) =
      (run opened (start srv logs opened) schedule).threads.map
        (fun _ => if (filestoreRead opened fs seq).2 = some payload then 1 else 0) := by
    apply map_congr_left
    intro t member
    rw [(finished t member).2, count_readable]
  rw [dispatched, count_flatMap]
  simp only [Function.comp_def]
  rw [each, map_const', sum_replicate_nat, length_run_threads]
  by_cases some : opened.idx.size / 8 > 0
  · simp [start, some, startThreads]
  have nothing : (filestoreRead opened fs seq).2 ≠ Option.some payload := by
    rcases Nat.eq_zero_or_pos seq with rfl | positive
    · rw [filestoreRead_zero]
      exact nofun
    rw [filestoreRead_eq_lookup opened fs (ne_of_gt positive), lookupRecord_past (by omega)]
    exact nofun
  rw [if_neg nothing, Nat.mul_zero, Nat.mul_zero]

end

lemma sampleData_fits : (putHdr 1 sampleRecord ++ sampleRecord).length < fileLimit := by
  decide +kernel

lemma sampleIdx_fits : (putLe 8 0).length < fileLimit := by
  decide +kernel

def sampleStore : Files where
  data := ⟨putHdr 1 sampleRecord ++ sampleRecord, sampleData_fits⟩
  idx := ⟨putLe 8 0, sampleIdx_fits⟩

def sampleSchedule : List (Nat × PublishEnv) := [(0, .granted), (0, .granted), (0, .granted)]

def sampleReplay : ReplayState :=
  run sampleStore (start (atCreate sampleAccounts) ⟨none, some [sampleRecord]⟩ sampleStore)
    sampleSchedule

end ReplayState

end CMsgQueue.Server
