import CMsgQueue.Lib.Runs
import CMsgQueue.Store.FilestoreSpec

/-!
# Runs of the file store

The history of a run is the list of the records that were appended and not dropped since.
Opening zeroes the cached ends, so an append to a store that was reopened with records in it, and
not read since, puts offset 0 into the index.
-/

namespace CMsgQueue.Store

open List IndexedLog Runs

/-- Calls on a store. -/
inductive FsEvent where
  /-- `cmq_filestore_create`; a handle that is still open is closed first. -/
  | create
  /-- `cmq_filestore_destroy`. -/
  | close
  | append (nowMs : Nat) (data : Bytes)
  | read (seq : Nat)
  | compact (retain : Nat)
  | setRotateBytes (cap : Nat)
  deriving DecidableEq

/-- The files, the open handle, and the records that were appended and not dropped. -/
structure FsSystem where
  disk : Disk
  handle : Option CmqFilestore
  records : List Bytes
  deriving DecidableEq

namespace FsSystem

def start : FsSystem := ⟨.empty, none, []⟩

def recordsAppended (s : FsSystem) (result : AppendResult) (data : Bytes) : List Bytes :=
  if result.seq = none then s.records
  else if result.rotated then []
  else s.records ++ [data]

def step (s : FsSystem) : FsEvent → FsSystem
  | .create =>
    match cmqFilestoreCreate s.disk.live with
    | none => { s with handle := none }
    | some (live, fs) => { s with disk := { s.disk with live }, handle := some fs }
  | .close => { s with handle := none }
  | .append nowMs data =>
    match s.handle with
    | none => s
    | some fs =>
      let result := filestoreAppend s.disk fs nowMs data
      ⟨result.disk, some result.fs, s.recordsAppended result data⟩
  | .read seq => { s with handle := s.handle.map fun fs => (filestoreRead s.disk.live fs seq).1 }
  | .compact retain =>
    match s.handle with
    | none => s
    | some fs =>
      let compacted := filestoreCompact s.disk.live fs retain
      ⟨{ s.disk with live := compacted.1 }, some compacted.2.1,
        if compacted.2.2 then s.records.drop (s.records.length - retain) else s.records⟩
  | .setRotateBytes cap => { s with handle := s.handle.map fun fs => { fs with rotateBytes := cap } }

def run (events : List FsEvent) : FsSystem := events.foldl step start

/-- Every record that was not dropped is read under its number with its bytes, and no other
number can be read. -/
def ReadsExact (s : FsSystem) : Prop :=
  ∀ fs, s.handle = some fs → ∀ seq,
    (filestoreRead s.disk.live fs seq).2 = if seq = 0 then none else s.records[seq - 1]?

/-- An append finds the cached end of the data unknown or right, or it is followed by a
rotation. -/
def AppendSynced (s : FsSystem) : FsEvent → Prop
  | .append _ data =>
    ∀ fs, s.handle = some fs → Payload data → Synced s.disk.live fs ∨
      AppendFits s.disk.live data ∧ rotates (advance fs data.length) = true
  | _ => True

/-- The files hold the records, and the cached end of the data is right, unknown or 0. -/
structure Inv (s : FsSystem) : Prop where
  holds : Holds s.disk.live s.records
  cached : ∀ fs, s.handle = some fs → Synced s.disk.live fs ∨ fs.dataEndOff = 0

variable {s : FsSystem}

lemma inv_start : Inv start := ⟨holds_empty, by simp [start]⟩

lemma Inv.readsExact (inv : Inv s) : ReadsExact s :=
  fun fs _ seq => inv.holds.filestoreRead_eq fs seq

end FsSystem

section Append

variable {disk : Disk} {fs : CmqFilestore} {records : List Bytes} {data : Bytes} (nowMs : Nat)

/-- An append that finds the right end adds its record, or fails and changes nothing; behind
it the end is right. -/
lemma Holds.append_synced (holds : Holds disk.live records) (valid : Payload data)
    (synced : Synced disk.live fs) :
    ∃ result, filestoreAppend disk fs nowMs data = result ∧
      Synced result.disk.live result.fs ∧ result.fs.rotateBytes = fs.rotateBytes ∧
      (¬ AppendFits disk.live data ∧ result.seq = none ∧ result.disk = disk ∨
        AppendFits disk.live data ∧ result.seq = some (records.length + 1) ∧
          result.rotated = false ∧ Holds result.disk.live (records ++ [data]) ∨
        result.seq = some (records.length + 1) ∧ result.rotated = true ∧
          fs.rotateBytes ≠ 0 ∧ Holds result.disk.live []) := by
  have right := synced.appendStart_dataEndOff records.length
  have cap := appendStart_rotateBytes disk.live fs records.length
  have inside := le_of_eq right
  rw [holds.filestoreAppend_eq valid inside]
  rcases appendWrites_cases inside with ⟨full, wrote⟩ | ⟨fits, _, dataEq, idxEq, wrote⟩
  · rw [wrote, right, File.truncate_size]
    exact ⟨_, rfl, .inr (.inr right), cap, .inl ⟨full, rfl, rfl⟩⟩
  rw [appendStart_nextSeq] at dataEq
  rw [right, holds.data_size] at idxEq
  have grown := holds.concat valid dataEq idxEq
  simp only [wrote]
  split
  next rotated =>
    have capped : fs.rotateBytes ≠ 0 := by
      rw [← cap]
      simp only [rotates, Bool.and_eq_true, bne_iff_ne] at rotated
      exact rotated.1
    exact ⟨_, rfl, .inr (.inr rfl), cap, .inr (.inr ⟨rfl, rfl, capped, holds_empty⟩)⟩
  refine ⟨_, rfl, .inr (.inr ?_), cap, .inr (.inl ⟨fits, rfl, rfl, grown⟩)⟩
  have extent : fsFormat.extent [data] = cmqFsHdrSize + data.length := rfl
  rw [grown.data_size, Format.extent_append, ← holds.data_size, ← right, extent, ← Nat.add_assoc]
  rfl

/-- A cell behind the log that points to its start finds the first record, which has number 1. -/
lemma lookupRecord_zero_cell {files : Files} (begins : Begins files records)
    (some : 0 < records.length) (cell : idxEntry files.idx records.length = Option.some 0) :
    lookupRecord files (records.length + 1) = none := by
  obtain ⟨_, rest, front, -, whole⟩ := begins.place some
  rw [length_eq_zero_iff.mp front] at whole
  have other : ¬ records.length + 1 = 0 + 1 := by omega
  have unread := readRecord_place (by decide)
    (begins.payloads _ (getElem_mem some)) whole (records.length + 1)
  rw [if_neg other] at unread
  rw [lookupRecord, Nat.add_sub_cancel, cell]
  exact unread

lemma Holds.append_stale (holds : Holds disk.live records) (valid : Payload data)
    (stale : ¬ Synced disk.live fs) (zero : fs.dataEndOff = 0) :
    ∃ result, filestoreAppend disk fs nowMs data = result ∧
      if AppendFits disk.live data ∧ rotates (advance fs data.length) = true then
        result.seq = some (records.length + 1) ∧ result.rotated = true ∧
          Holds result.disk.live [] ∧ Synced result.disk.live result.fs
      else
        result.seq = none ∧ lookupRecord result.disk.live 1 = none ∨
        result.seq = some (records.length + 1) ∧ result.rotated = false ∧
          lookupRecord result.disk.live (records.length + 1) = none := by
  have some : 0 < records.length := by
    rcases records with _ | ⟨first, rest⟩
    · exact absurd (.inr (.inr (zero.trans holds.data_size.symm))) stale
    exact Nat.succ_pos _
  have started := appendStart_of_not_synced stale records.length
  have inside : (appendStart disk.live fs records.length).dataEndOff ≤ disk.live.data.size := by
    rw [started, zero]
    exact Nat.zero_le _
  have atZero : (appendStart disk.live fs records.length).dataEndOff = 0 := by
    rw [started]
    exact zero
  have rotation : rotates (advance (appendStart disk.live fs records.length) data.length) =
      rotates (advance fs data.length) := by
    rw [started]
    rfl
  rw [holds.filestoreAppend_eq valid inside]
  rcases appendWrites_cases inside with ⟨full, wrote⟩ | ⟨fits, written, dataEq, idxEq, wrote⟩
  · -- the failed write cuts off all the data
    refine ⟨_, rfl, ?_⟩
    rw [if_neg fun both => full both.1, wrote, atZero]
    refine .inl ⟨rfl, ?_⟩
    have cut : (disk.live.data.truncate 0).size = 0 := File.size_truncate (Nat.zero_le _)
    simp [lookupRecord, readRecord, File.readAt, cut, cmqFsHdrSize]
  simp only [wrote, rotation]
  by_cases rotated : rotates (advance fs data.length) = true
  · rw [if_pos rotated]
    refine ⟨_, rfl, ?_⟩
    rw [if_pos ⟨fits, rotated⟩]
    exact ⟨rfl, rfl, holds_empty, .inr (.inr rfl)⟩
  rw [if_neg rotated]
  refine ⟨_, rfl, ?_⟩
  rw [if_neg fun both => rotated both.2]
  refine .inr ⟨rfl, rfl, ?_⟩
  have begins : Begins written records :=
    ⟨holds.data ▸ dataEq ▸ prefix_append _ _, holds.idx ▸ idxEq ▸ prefix_append _ _, holds.payloads⟩
  have length : disk.live.idx.bytes.length = records.length * 8 := by
    rw [Nat.mul_comm]
    exact holds.idx_size
  have whole : written.idx.bytes = disk.live.idx.bytes ++ (putLe 8 0 ++ []) := by
    rw [idxEq, atZero, append_nil]
  exact lookupRecord_zero_cell begins some (idxEntry_place whole length (by decide))

end Append

namespace FsSystem

variable {s : FsSystem} {nowMs : Nat} {data : Bytes}

lemma filestoreAppend_of_not_payload {disk : Disk} {fs : CmqFilestore}
    (refused : ¬ Payload data) : filestoreAppend disk fs nowMs data = ⟨disk, fs, none, false⟩ := by
  rw [filestoreAppend, if_pos]
  by_contra accepted
  exact refused ⟨by omega, by omega⟩

lemma step_append (opened : s.handle = some fs)
    (appended : filestoreAppend s.disk fs nowMs data = result) :
    s.step (.append nowMs data) = ⟨result.disk, some result.fs, s.recordsAppended result data⟩ := by
  simp only [step, opened, appended]

section

variable (inv : Inv s)
include inv

lemma inv_append (met : AppendSynced s (.append nowMs data)) :
    Inv (s.step (.append nowMs data)) := by
  cases opened : s.handle with
  | none => simpa only [step, opened] using inv
  | some fs =>
    by_cases valid : Payload data
    · by_cases synced : Synced s.disk.live fs
      · obtain ⟨result, appended, after, -, outcome⟩ :=
          inv.holds.append_synced nowMs valid synced
        rw [step_append opened appended]
        refine ⟨?_, by simpa using .inl after⟩
        rcases outcome with ⟨-, failed, same⟩ | ⟨-, ok, rotated, holds⟩ | ⟨ok, rotated, -, holds⟩
        · simpa [recordsAppended, failed, same] using inv.holds
        · simpa [recordsAppended, ok, rotated] using holds
        simpa [recordsAppended, ok, rotated] using holds
      have zero := (inv.cached fs opened).resolve_left synced
      have rotation := (met fs opened valid).resolve_left synced
      obtain ⟨result, appended, outcome⟩ := inv.holds.append_stale nowMs valid synced zero
      rw [if_pos rotation] at outcome
      obtain ⟨ok, rotated, holds, after⟩ := outcome
      rw [step_append opened appended]
      refine ⟨?_, by simpa using .inl after⟩
      simpa [recordsAppended, ok, rotated] using holds
    rw [step_append opened (filestoreAppend_of_not_payload valid)]
    refine ⟨by simpa [recordsAppended] using inv.holds, ?_⟩
    simpa using inv.cached fs opened

/-- Behind an append that finds a wrong end, a record cannot be found. -/
lemma lost_of_not_appendSynced (failed : ¬ AppendSynced s (.append nowMs data)) :
    ∃ fs seq payload, (s.step (.append nowMs data)).handle = some fs ∧ seq ≠ 0 ∧
      (s.step (.append nowMs data)).records[seq - 1]? = some payload ∧
      lookupRecord (s.step (.append nowMs data)).disk.live seq = none := by
  simp only [AppendSynced, not_forall, not_or] at failed
  obtain ⟨fs, opened, valid, stale, rotation⟩ := failed
  have zero := (inv.cached fs opened).resolve_left stale
  have some : 0 < s.records.length := by
    by_contra none
    have empty : s.records = [] := length_eq_zero_iff.mp (by omega)
    have size := inv.holds.data_size
    rw [empty] at size
    exact stale (.inr (.inr (zero.trans size.symm)))
  obtain ⟨result, appended, outcome⟩ := inv.holds.append_stale nowMs valid stale zero
  rw [if_neg rotation] at outcome
  rw [step_append opened appended]
  rcases outcome with ⟨refused, unread⟩ | ⟨ok, rotated, unread⟩
  · refine ⟨_, 1, s.records[0], rfl, Nat.one_ne_zero, ?_, unread⟩
    simp [recordsAppended, refused]
  refine ⟨_, s.records.length + 1, data, rfl, Nat.succ_ne_zero _, ?_, unread⟩
  simp [recordsAppended, ok, rotated]

lemma inv_create : Inv (s.step .create) := by
  have created := inv.holds.cmqFilestoreCreate_eq
  simp only [step, created]
  exact ⟨inv.holds, by simp [CmqFilestore.opened]⟩

lemma inv_read (seq : Nat) : Inv (s.step (.read seq)) := by
  refine ⟨inv.holds, ?_⟩
  intro _ opened
  obtain ⟨fs, before, rfl⟩ := Option.map_eq_some_iff.mp opened
  have cached := inv.cached fs before
  simp only [filestoreRead]
  split
  · exact cached
  split
  · exact cached
  exact .inl (.inl rfl)

lemma inv_compact (retain : Nat) : Inv (s.step (.compact retain)) := by
  cases opened : s.handle with
  | none => simpa only [step, opened] using inv
  | some fs =>
    simp only [step, opened]
    by_cases all : s.records.length ≤ retain
    · simp only [filestoreCompact, inv.holds.refreshTruncate_eq, inv.holds.refreshNextSeq_eq,
        Nat.add_sub_cancel, if_pos all, Nat.sub_eq_zero_of_le all]
      refine ⟨inv.holds, ?_⟩
      simpa [Synced] using inv.cached fs opened
    obtain ⟨_, holds, compacted⟩ :=
      inv.holds.filestoreCompact_newest fs (not_le.mp all)
    rw [compacted]
    refine ⟨holds, ?_⟩
    simp [Synced, holds.data_size]

lemma inv_step (event : FsEvent) (met : AppendSynced s event) : Inv (s.step event) := by
  cases event with
  | create => exact inv_create inv
  | close => exact ⟨inv.holds, by simp [step]⟩
  | append => exact inv_append inv met
  | read seq => exact inv_read inv seq
  | compact retain => exact inv_compact inv retain
  | setRotateBytes =>
    refine ⟨inv.holds, ?_⟩
    intro _ opened
    obtain ⟨fs, before, rfl⟩ := Option.map_eq_some_iff.mp opened
    exact inv.cached fs before

end

/-- Reads are exact in every state of a run if and only if every append of it finds the cached
end of the data unknown or right, or is followed by a rotation. -/
theorem run_reads_exact_iff (events : List FsEvent) :
    (∀ n, ReadsExact (run (events.take n))) ↔ Meets step AppendSynced start events := by
  have gives : ∀ s, Inv s → ReadsExact s := fun _ => Inv.readsExact
  have needed : ∀ s event, Inv s → ReadsExact (step s event) → AppendSynced s event := by
    intro s event inv reads
    cases event with
    | append =>
      by_contra failed
      obtain ⟨fs, seq, _, opened, positive, appended, unread⟩ := lost_of_not_appendSynced inv failed
      have read := reads fs opened seq
      rw [if_neg positive, appended, filestoreRead_eq_lookup _ _ positive, unread] at read
      cases read
    | create | close | read | compact | setRotateBytes => trivial
  exact Meets.iff_property gives (fun _ event inv => inv_step inv event) needed inv_start

/-- A store is reopened with one record in it, and the next record is lost. -/
theorem run_loses_appended :
    let s := run [.create, .append 0 [1], .close, .create, .append 0 [2]]
    s.records = [[1], [2]] ∧
      (s.handle.map fun fs => (filestoreRead s.disk.live fs 2).2) = some none ∧
      ¬ ReadsExact s := by
  intro s
  have kept : s.records = [[1], [2]] := by decide +kernel
  have unread : (s.handle.map fun fs => (filestoreRead s.disk.live fs 2).2) = some none := by
    decide +kernel
  refine ⟨kept, unread, fun exact => ?_⟩
  obtain ⟨fs, opened, lost⟩ := Option.map_eq_some_iff.mp unread
  have expected := exact fs opened 2
  rw [lost] at expected
  cases expected

end FsSystem

end CMsgQueue.Store
