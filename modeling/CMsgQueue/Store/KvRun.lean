import CMsgQueue.Store.FilestoreRun
import CMsgQueue.Store.KvSpec
import Mathlib.Data.List.TakeWhile

/-!
# Runs of the last-value store

The table in memory is what a replay of the log gives, as long as no value is stored under a key
of `CMQ_KV_KEY_MAX` bytes: such a key is accepted and logged, but the replay skips it.
-/

namespace CMsgQueue.Store

open Function List SlotTable

/-! ## Records -/

section Records

lemma exists_kvRecord (safe : kvKeySafe key = true) (small : val.length ≤ cmqKvValMax) :
    ∃ record, kvRecord key val = some record ∧ Payload record := by
  obtain ⟨nonempty, bound, -⟩ := kvKeySafe_iff.mp safe
  have positive := length_pos_iff.mpr nonempty
  rw [kvRecord, take_of_length_le bound, cmqFilestoreKeyEncode, if_neg, if_neg, if_neg]
  · refine ⟨_, rfl, ?_, ?_⟩
    · simp
    have magic : cmqFsKeyMagic.length = 4 := by decide
    simp only [length_append, length_putLe]
    rw [cmqKvKeyMax] at bound
    rw [cmqKvValMax] at small
    rw [cmqFsMaxLen]
    omega
  · omega
  · omega
  rw [cmqKvKeyMax] at bound
  rw [cmqFsKeyMax]
  omega

lemma cmqFilestoreKeyDecode_kvRecord (bound : key.length ≤ cmqKvKeyMax)
    (encoded : kvRecord key val = some record) :
    cmqFilestoreKeyDecode record = some (key, val) := by
  rw [kvRecord, take_of_length_le bound] at encoded
  exact cmqFilestoreKeyDecode_encode encoded

lemma kvReplayRecord_long (long : key.length = cmqKvKeyMax)
    (encoded : kvRecord key val = some record) : kvReplayRecord table record = table := by
  rw [kvReplayRecord, cmqFilestoreKeyDecode_kvRecord (le_of_eq long) encoded]
  dsimp only
  rw [if_neg fun bounds => Nat.ne_of_lt bounds.2 long]

end Records

/-! ## The log -/

section Log

variable {records : List Bytes}

lemma Holds.kvReplayRound_eq (holds : Holds files records) (inside : i < records.length)
    (table : KvTable) (fs : CmqFilestore) :
    ∃ fs', kvReplayRound files (table, fs) (i + 1) = (kvReplayRecord table records[i], fs') ∧
      fs'.rotateBytes = fs.rotateBytes ∧ fs'.dataEndOff = uint64Max := by
  have read := holds.filestoreRead_eq fs (i + 1)
  rw [if_neg (Nat.succ_ne_zero i), Nat.add_sub_cancel, List.getElem?_eq_getElem inside] at read
  refine ⟨(filestoreRead files fs (i + 1)).1, ?_, ?_, ?_⟩
  · simp only [kvReplayRound, read]
  all_goals
    rw [filestoreRead, if_neg (Nat.succ_ne_zero i)]
    simp only [holds.refreshNextSeq_eq]
    rw [if_neg (by omega)]

lemma Holds.kvReplay_rounds (holds : Holds files records) (table : KvTable) (fs : CmqFilestore)
    (bound : n ≤ records.length) :
    ∃ fs', (List.range' 1 n).foldl (kvReplayRound files) (table, fs) =
        ((records.take n).foldl kvReplayRecord table, fs') ∧
      fs'.rotateBytes = fs.rotateBytes ∧ (n = 0 ∧ fs' = fs ∨ fs'.dataEndOff = uint64Max) := by
  induction n with
  | zero => exact ⟨fs, rfl, rfl, .inl ⟨rfl, rfl⟩⟩
  | succ n ih =>
    obtain ⟨before, rounds, cap, -⟩ := ih (Nat.le_of_succ_le bound)
    obtain ⟨after, round, cap', unknown⟩ :=
      holds.kvReplayRound_eq bound ((records.take n).foldl kvReplayRecord table) before
    refine ⟨after, ?_, cap'.trans cap, .inr unknown⟩
    rw [List.range'_concat, foldl_append, rounds, take_succ_eq_append_getElem bound,
      foldl_append, Nat.one_mul, Nat.add_comm]
    exact round

lemma Holds.kvOpen_eq (holds : Holds disk.live records) (allowed : kvCap slots ≤ cmqKvSlotsMax) :
    ∃ fs, kvOpen slots disk =
        some (disk, ⟨records.foldl kvReplayRecord (.fresh (kvCap slots)), some fs⟩) ∧
      Synced disk.live fs ∧ fs.rotateBytes = 0 := by
  obtain ⟨fs, rounds, cap, ends⟩ := holds.kvReplay_rounds (.fresh (kvCap slots))
    (refreshNextSeq disk.live (.opened records.length)) (le_refl records.length)
  refine ⟨fs, ?_, ?_, cap⟩
  · have last : (refreshNextSeq disk.live (.opened records.length)).nextSeq - 1 =
        records.length := by
      rw [holds.refreshNextSeq_eq]
      rfl
    have replayed : kvReplay disk.live (.fresh (kvCap slots)) (.opened records.length) =
        (records.foldl kvReplayRecord (.fresh (kvCap slots)), fs) := by
      rw [kvReplay]
      simp only [last]
      rw [rounds, take_length]
    rw [kvOpen, cmqKvCreate, if_neg (not_lt.mpr allowed)]
    simp only [cmqKvSetPersist, holds.cmqFilestoreCreate_eq, replayed]
  rcases ends with ⟨none, same⟩ | unknown
  · have size := holds.data_size
    rw [length_eq_zero_iff.mp none] at size
    refine .inr (.inr ?_)
    rw [same, size]
    rfl
  exact .inl unknown

end Log

/-! ## Runs -/

/-- Calls on a store, with the time at which they append. -/
inductive KvEvent where
  | put (nowMs : Nat) (key val : Bytes)
  | del (nowMs : Nat) (key : Bytes)
  /-- The store is destroyed, and opened again with as many slots on the same directory. -/
  | restart
  deriving DecidableEq

/-- A store, and the last values that were put and not deleted. -/
structure KvSystem where
  disk : Disk
  kv : CmqKv
  map : Bytes → Option Bytes

/-- The store answers all lookups from a map, and counts its keys. -/
structure CmqKv.Answers (kv : CmqKv) (map : Bytes → Option Bytes) : Prop where
  get_eq : ∀ key outSz, cmqKvGet kv key outSz = fetched outSz (map key)
  count_eq : cmqKvCount kv = Set.ncard {key | map key ≠ none}

lemma KvTable.Keeps.answers {kv : CmqKv} {map : Bytes → Option Bytes}
    (keeps : kv.toKvTable.Keeps map) : kv.Answers map :=
  ⟨keeps.get_eq, keeps.count_eq.trans keeps.tabulates.count_eq⟩

namespace KvSystem

def start (opened : Disk × CmqKv) : KvSystem := ⟨opened.1, opened.2, fun _ => none⟩

def step (slots : Nat) (s : KvSystem) : KvEvent → KvSystem
  | .put nowMs key val =>
    let put := cmqKvPut s.disk s.kv nowMs key val
    ⟨put.1, put.2.1, if put.2.2 = 0 then kvWrite s.map key val else s.map⟩
  | .del nowMs key =>
    let del := cmqKvDel s.disk s.kv nowMs key
    ⟨del.1, del.2.1, if del.2.2 = 0 then update s.map key none else s.map⟩
  | .restart =>
    match kvOpen slots s.disk with
    | none => s
    | some opened => ⟨opened.1, opened.2, s.map⟩

def run (slots : Nat) (s : KvSystem) (events : List KvEvent) : KvSystem :=
  events.foldl (step slots) s

/-- The store answers from the last values put and not deleted, also after a restart, and a put
that returns an error changes neither the table nor what a restart finds. -/
structure Exact (slots : Nat) (s : KvSystem) : Prop where
  memory : s.kv.Answers s.map
  replayed : ∃ opened, kvOpen slots s.disk = some opened ∧ opened.2.Answers s.map
  refused : ∀ nowMs key val, (cmqKvPut s.disk s.kv nowMs key val).2.2 ≠ 0 →
    (cmqKvPut s.disk s.kv nowMs key val).2.1.toKvTable = s.kv.toKvTable ∧
      kvOpen slots (cmqKvPut s.disk s.kv nowMs key val).1 = kvOpen slots s.disk

/-- A put of a value under a key of `CMQ_KV_KEY_MAX` bytes is refused: the value is too large, or
there is no free slot, or no room in the files. -/
def Storable (s : KvSystem) : KvEvent → Prop
  | .put _ key val =>
    kvKeySafe key = true → key.length = cmqKvKeyMax → val.length ≠ 0 →
      val.length ≤ cmqKvValMax → kvFreeSlot s.kv.toKvTable ≠ none →
        ∀ record, kvRecord key val = some record → ¬ AppendFits s.disk.live record
  | .del _ _ => True
  | .restart => True

/-- The table is that of a replay of the log, and holds the map. -/
structure Inv (slots : Nat) (s : KvSystem) (records : List Bytes) : Prop where
  allowed : kvCap slots ≤ cmqKvSlotsMax
  holds : Holds s.disk.live records
  table_eq : s.kv.toKvTable = records.foldl kvReplayRecord (.fresh (kvCap slots))
  keeps : s.kv.toKvTable.Keeps s.map
  attached : ∃ fs, s.kv.fs = some fs ∧ Synced s.disk.live fs ∧ fs.rotateBytes = 0

variable {slots : Nat} {s : KvSystem} {records : List Bytes} {key : Bytes} {nowMs : Nat}

section

variable (inv : Inv slots s records)
include inv

/-- The append of a write: it adds its record, or fails and changes nothing. -/
lemma Inv.persist (nowMs : Nat) (safe : kvKeySafe key = true) (small : val.length ≤ cmqKvValMax) :
    ∃ record disk fs ok, kvRecord key val = some record ∧
      kvPersist s.disk s.kv.fs nowMs key val = (disk, some fs, ok) ∧
      Synced disk.live fs ∧ fs.rotateBytes = 0 ∧
      if AppendFits s.disk.live record then ok = true ∧ Holds disk.live (records ++ [record])
      else ok = false ∧ disk = s.disk := by
  obtain ⟨fs, attached, synced, plain⟩ := inv.attached
  obtain ⟨record, encoded, valid⟩ := exists_kvRecord safe small
  obtain ⟨result, appended, synced', cap, outcome⟩ := inv.holds.append_synced nowMs valid synced
  refine ⟨record, result.disk, result.fs, result.seq.isSome, encoded, ?_, synced', cap.trans plain,
    ?_⟩
  · simp only [kvPersist, attached, encoded, appended]
  rcases outcome with ⟨full, failed, same⟩ | ⟨fits, ok, -, holds⟩ | ⟨-, -, capped, -⟩
  · rw [if_neg full, failed]
    exact ⟨rfl, same⟩
  · rw [if_pos fits, ok]
    exact ⟨rfl, holds⟩
  exact absurd plain capped

lemma Inv.write {disk : Disk} {fs : CmqFilestore} {record : Bytes} (safe : kvKeySafe key = true)
    (small : val.length ≤ cmqKvValMax)
    (room : kvFind s.kv.toKvTable key ≠ none ∨ kvFreeSlot s.kv.toKvTable ≠ none)
    (fine : key.length < cmqKvKeyMax ∨ val.length = 0) (encoded : kvRecord key val = some record)
    (holds : Holds disk.live (records ++ [record])) (synced : Synced disk.live fs)
    (plain : fs.rotateBytes = 0) :
    Inv slots ⟨disk, ⟨kvApply s.kv.toKvTable key val, some fs⟩, kvWrite s.map key val⟩
      (records ++ [record]) := by
  by_cases short : key.length < cmqKvKeyMax
  · refine ⟨inv.allowed, holds, ?_, inv.keeps.apply safe short small room, ⟨fs, rfl, synced, plain⟩⟩
    rw [foldl_append, ← inv.table_eq]
    have text := takeWhile_eq_self_iff.mpr (ne_zero_of_kvKeySafe safe)
    have positive := length_pos_iff.mpr (kvKeySafe_iff.mp safe).1
    simp only [foldl_cons, foldl_nil]
    rw [kvReplayRecord, cmqFilestoreKeyDecode_kvRecord (le_of_lt short) encoded]
    dsimp only
    rw [if_pos ⟨positive, short⟩, text, if_pos ⟨safe, small⟩]
  -- a tombstone for a key that the table cannot have
  have long : key.length = cmqKvKeyMax :=
    le_antisymm (kvKeySafe_iff.mp safe).2.1 (not_lt.mp short)
  have empty := fine.resolve_left short
  have absent : s.map key = none := by
    by_contra stored
    exact short (inv.keeps.short key stored).2
  have same : kvApply s.kv.toKvTable key val = s.kv.toKvTable := by
    rw [kvApply, if_pos empty, inv.keeps.find_none.mpr absent]
  have map_eq : kvWrite s.map key val = s.map := by
    rw [kvWrite, if_pos empty, ← absent, update_eq_self]
  rw [same, map_eq]
  refine ⟨inv.allowed, holds, ?_, inv.keeps, ⟨fs, rfl, synced, plain⟩⟩
  rw [foldl_append, ← inv.table_eq]
  exact (kvReplayRecord_long long encoded).symm

/-- What a put can do: it fails and leaves the disk and the table, or it appends a record and
applies the write. -/
lemma Inv.put_cases (nowMs : Nat) (key val : Bytes) :
    (∃ fs rc, cmqKvPut s.disk s.kv nowMs key val = (s.disk, { s.kv with fs := some fs }, rc) ∧
      rc ≠ 0 ∧ Synced s.disk.live fs ∧ fs.rotateBytes = 0 ∧
      (kvKeySafe key = true → val.length ≤ cmqKvValMax → kvFreeSlot s.kv.toKvTable ≠ none →
        ∀ record, kvRecord key val = some record → ¬ AppendFits s.disk.live record)) ∨
    (∃ record disk fs, cmqKvPut s.disk s.kv nowMs key val =
        (disk, ⟨kvApply s.kv.toKvTable key val, some fs⟩, 0) ∧
      kvKeySafe key = true ∧ val.length ≤ cmqKvValMax ∧
      (kvFind s.kv.toKvTable key ≠ none ∨ kvFreeSlot s.kv.toKvTable ≠ none) ∧
      kvRecord key val = some record ∧ AppendFits s.disk.live record ∧
      Holds disk.live (records ++ [record]) ∧ Synced disk.live fs ∧ fs.rotateBytes = 0) := by
  obtain ⟨fs, attached, synced, plain⟩ := inv.attached
  have unchanged : { s.kv with fs := some fs } = s.kv := by rw [← attached]
  unfold cmqKvPut
  by_cases safe : kvKeySafe key = true
  · rw [safe]
    by_cases large : val.length > cmqKvValMax
    · refine .inl ⟨fs, -3, ?_, by decide, synced, plain,
        fun _ small => absurd large (not_lt.mpr small)⟩
      rw [unchanged, if_pos large]
      rfl
    rw [if_neg large]
    by_cases full : kvFind s.kv.toKvTable key = none ∧ kvFreeSlot s.kv.toKvTable = none
    · refine .inl ⟨fs, -2, ?_, by decide, synced, plain, fun _ _ free => absurd full.2 free⟩
      rw [unchanged, if_pos full]
      rfl
    rw [if_neg full]
    have small := not_lt.mp large
    obtain ⟨record, disk, fs', _, encoded, persisted, synced', plain', outcome⟩ :=
      inv.persist nowMs safe small
    rw [persisted]
    split at outcome
    next fits =>
      obtain ⟨rfl, holds⟩ := outcome
      refine .inr ⟨record, disk, fs', rfl, rfl, small, ?_, encoded, fits, holds, synced', plain'⟩
      by_cases found : kvFind s.kv.toKvTable key = none
      · exact .inr fun free => full ⟨found, free⟩
      exact .inl found
    next full =>
    obtain ⟨rfl, rfl⟩ := outcome
    refine .inl ⟨fs', -1, rfl, by decide, synced', plain', fun _ _ _ _ same => ?_⟩
    rw [encoded, Option.some_inj] at same
    exact same ▸ full
  refine .inl ⟨fs, -1, ?_, by decide, synced, plain, fun safe' => absurd safe' safe⟩
  rw [Bool.not_eq_true] at safe
  rw [unchanged, safe]
  rfl

lemma Inv.exact : Exact slots s := by
  obtain ⟨fs, opened, -, -⟩ := inv.holds.kvOpen_eq inv.allowed
  refine ⟨inv.keeps.answers, ⟨_, opened, ?_⟩, fun nowMs key val failed => ?_⟩
  · exact (inv.table_eq ▸ inv.keeps : KvTable.Keeps _ s.map).answers
  rcases inv.put_cases nowMs key val with ⟨fs, _, put, -⟩ | ⟨_, _, fs, put, -⟩
  · rw [put]
    exact ⟨rfl, rfl⟩
  rw [put] at failed
  exact absurd rfl failed

lemma Inv.step_put (storable : Storable s (.put nowMs key val)) :
    ∃ records', Inv slots (s.step slots (.put nowMs key val)) records' := by
  rcases inv.put_cases nowMs key val with ⟨fs, _, put, failed, synced, plain, -⟩ |
    ⟨record, _, fs, put, safe, small, room, encoded, fits, holds, synced, plain⟩
  · refine ⟨records, ?_⟩
    simp only [step, put, if_neg failed]
    exact { inv with attached := ⟨fs, rfl, synced, plain⟩ }
  refine ⟨records ++ [record], ?_⟩
  simp only [step, put]
  refine inv.write safe small room ?_ encoded holds synced plain
  by_contra unfit
  rw [not_or, not_lt] at unfit
  have long := le_antisymm (kvKeySafe_iff.mp safe).2.1 unfit.1
  have absent : kvFind s.kv.toKvTable key = none := by
    rw [inv.keeps.find_none]
    by_contra stored
    exact Nat.ne_of_lt (inv.keeps.short key stored).2 long
  have free := room.resolve_left fun found => found absent
  exact storable safe long unfit.2 small free record encoded fits

lemma Inv.step_del (nowMs : Nat) (key : Bytes) :
    ∃ records', Inv slots (s.step slots (.del nowMs key)) records' := by
  unfold step cmqKvDel
  by_cases safe : kvKeySafe key = true
  · by_cases found : kvFind s.kv.toKvTable key = none
    · simp only [safe, if_pos found]
      exact ⟨records, inv⟩
    obtain ⟨record, _, fs, _, encoded, persisted, synced, plain, outcome⟩ :=
      inv.persist nowMs safe (show ([] : Bytes).length ≤ cmqKvValMax from Nat.zero_le _)
    simp only [safe, if_neg found, persisted]
    split at outcome
    · obtain ⟨rfl, holds⟩ := outcome
      exact ⟨records ++ [record],
        inv.write safe (Nat.zero_le _) (.inl found) (.inr rfl) encoded holds synced plain⟩
    obtain ⟨rfl, rfl⟩ := outcome
    exact ⟨records, { inv with attached := ⟨fs, rfl, synced, plain⟩ }⟩
  simp only [safe]
  exact ⟨records, inv⟩

lemma Inv.step_restart : Inv slots (s.step slots .restart) records := by
  obtain ⟨fs, opened, synced, plain⟩ := inv.holds.kvOpen_eq inv.allowed
  simp only [step, opened]
  exact ⟨inv.allowed, inv.holds, rfl, inv.table_eq ▸ inv.keeps, ⟨fs, rfl, synced, plain⟩⟩

/-- A put that stores a value under the longest key is lost by a restart. -/
lemma Inv.storable_of_exact (exact : Exact slots (s.step slots event)) : Storable s event := by
  cases event with
  | del | restart => trivial
  | put nowMs key val =>
    intro safe long some small free record encoded fits
    rcases inv.put_cases nowMs key val with ⟨fs, _, -, -, -, -, full⟩ |
      ⟨_, _, fs, put, -, -, -, encoded', -, holds, -, -⟩
    · exact full safe small free record encoded fits
    obtain ⟨_, reopened, answers⟩ := exact.replayed
    simp only [step, put] at reopened answers
    obtain ⟨_, same, -, -⟩ := holds.kvOpen_eq inv.allowed
    rw [foldl_append, foldl_cons, ← inv.table_eq, kvReplayRecord_long long encoded'] at same
    rw [same, Option.some_inj] at reopened
    subst reopened
    have absent : s.map key = none := by
      by_contra stored
      exact Nat.ne_of_lt (inv.keeps.short key stored).2 long
    have lost : s.map key = kvWrite s.map key val key := fetched_inj fun outSz =>
      (inv.keeps.get_eq key outSz).symm.trans (answers.get_eq key outSz)
    rw [absent, kvWrite, update_self, if_neg some] at lost
    cases lost

end

/-- Along a run of puts, deletes and restarts the store answers exactly from the last values put and
not deleted, before and after a replay, if and only if no value is stored under a key of
`CMQ_KV_KEY_MAX` bytes. -/
theorem run_exact_iff {slots : Nat} {opened : Disk × CmqKv}
    (created : kvOpen slots .empty = some opened) (events : List KvEvent) :
    (∀ n, Exact slots ((start opened).run slots (events.take n))) ↔
      Runs.Meets (step slots) Storable (start opened) events := by
  have gives : ∀ s, (∃ records, Inv slots s records) → Exact slots s := fun _ ⟨_, inv⟩ => inv.exact
  have kept : ∀ s event, (∃ records, Inv slots s records) → Storable s event →
      ∃ records, Inv slots (s.step slots event) records := by
    intro s event ⟨records, inv⟩ storable
    cases event with
    | put nowMs key => exact inv.step_put storable
    | del nowMs key => exact inv.step_del nowMs key
    | restart => exact ⟨records, inv.step_restart⟩
  have needed : ∀ s event, (∃ records, Inv slots s records) → Exact slots (s.step slots event) →
      Storable s event := fun _ _ ⟨_, inv⟩ => inv.storable_of_exact
  have allowed : kvCap slots ≤ cmqKvSlotsMax := by
    by_contra larger
    rw [kvOpen, cmqKvCreate, if_pos (not_le.mp larger)] at created
    cases created
  have begins : ∃ records, Inv slots (start opened) records := by
    have empty : Holds Disk.empty.live [] := holds_empty
    obtain ⟨fs, same, synced, plain⟩ := empty.kvOpen_eq allowed
    rw [same, Option.some_inj] at created
    subst created
    exact ⟨[], allowed, holds_empty, rfl, KvTable.keeps_fresh _, ⟨fs, rfl, synced, plain⟩⟩
  exact Runs.Meets.iff_property gives kept needed begins

theorem run_exact_iff_restart :
    ∃ opened, kvOpen 2 .empty = some opened ∧
      ∀ n, Exact 2 ((start opened).run 2 ([KvEvent.put 0 [97] [1], .restart].take n)) :=
  ⟨_, rfl, (run_exact_iff rfl _).mpr ⟨fun _ long => absurd long (by decide), trivial, trivial⟩⟩

/-- A value under the longest key cannot be read back. -/
theorem put_longest_key_lost :
    ∃ opened, kvOpen 2 .empty = some opened ∧
      let key := List.replicate 256 97
      let s := (start opened).run 2 [.put 0 key [1]]
      (cmqKvPut opened.1 opened.2 0 key [1]).2.2 = 0 ∧ s.map key = some [1] ∧
        cmqKvGet s.kv key 16 = (-1, none) ∧ cmqKvCount s.kv = 1 := by
  refine ⟨_, rfl, ?_⟩
  decide +kernel

end KvSystem

end CMsgQueue.Store
