import CMsgQueue.Store.FilestoreSpec

/-!
# A crash during compaction

Compaction writes the records it keeps to two temporary files and then renames one after the
other.  Between the two renames the new data stands beside the old index, and opening the
store reads the one through the other.
-/

namespace CMsgQueue.Store

open Option List IndexedLog

/-! ## The steps of a compaction -/

/-- What compaction does to a directory. -/
inductive CompactOp where
  /-- The index is cut to whole cells. -/
  | refresh
  /-- The temporary files are written and flushed. -/
  | writeTmp (files : Files)
  | unlinkTmp
  | truncateData
  | truncateIdx
  | renameData
  | renameIdx
  deriving DecidableEq

/-- The live files and the temporary ones. -/
structure Dir where
  live : Files
  tmp : Option Files
  deriving DecidableEq

/-- One step.  The files a rename takes were written before. -/
def Dir.apply (dir : Dir) : CompactOp → Dir
  | .refresh => { dir with live := refreshTruncate dir.live }
  | .writeTmp files => { dir with tmp := some files }
  | .unlinkTmp => { dir with tmp := none }
  | .truncateData => { dir with live := { dir.live with data := dir.live.data.truncate 0 } }
  | .truncateIdx => { dir with live := { dir.live with idx := dir.live.idx.truncate 0 } }
  | .renameData =>
    { dir with live := { dir.live with data := dir.tmp.elim dir.live.data Files.data } }
  | .renameIdx => ⟨{ dir.live with idx := dir.tmp.elim dir.live.idx Files.idx }, none⟩

/-- The steps of `filestore_compact_impl`, in order. -/
def compactOps (files : Files) (retain : Nat) : List CompactOp :=
  let files := refreshTruncate files
  let last := files.idx.size / 8
  .refresh ::
    if retain ≥ last then []
    else if retain = 0 then [.truncateData, .truncateIdx]
    else
      match compactCopy files (last - retain + 1) retain 0 .empty 0 with
      | none => [.writeTmp .empty, .unlinkTmp]
      | some (written, _) => [.writeTmp written, .renameData, .renameIdx]

def compactAfter (files : Files) (ops : List CompactOp) : Dir := ops.foldl Dir.apply ⟨files, none⟩

/-- The live files after a crash that lets `count` steps of a compaction through.  Whatever
parts of the temporary files are on disk, opening does not look at them. -/
def compactCrash (files : Files) (retain count : Nat) : Files :=
  (compactAfter files ((compactOps files retain).take count)).live

/-! ## What a store yields -/

/-- The records that an open store yields: their numbers, offsets and payloads. -/
def yielded (files : Files) (fs : CmqFilestore) : List (Nat × Nat × Bytes) :=
  (List.range (files.idx.size / 8)).filterMap fun i => do
    let offset ← idxEntry files.idx i
    let payload ← (filestoreRead files fs (i + 1)).2
    return (i + 1, offset, payload)

def generation (records : List Bytes) : List (Nat × Nat × Bytes) :=
  records.mapIdx fun i payload => (i + 1, fsFormat.offset records i, payload)

def newest (retain : Nat) (records : List Bytes) : List Bytes :=
  records.drop (records.length - retain)

/-- Wherever a compaction of the files of a log is cut off, opening the store yields the
complete log, or the newest records, with offsets and data of one generation. -/
def CompactAtomic (files : Files) (records : List Bytes) (retain : Nat) : Prop :=
  ∀ count, ∃ opened fs, cmqFilestoreCreate (compactCrash files retain count) = some (opened, fs) ∧
    (yielded opened fs = generation records ∨
      yielded opened fs = generation (newest retain records))

def frameAt (seq : Nat) (bytes : Bytes) : Option Bytes :=
  if bytes.length < cmqFsHdrSize then none
  else
    let hdr := getHdr (bytes.take cmqFsHdrSize)
    if hdr.magic ≠ cmqFsMagic ∨ hdr.version ≠ cmqFsVersion ∨ hdr.seq ≠ seq then none
    else if badLen hdr.len then none
    else if bytes.length < cmqFsHdrSize + hdr.len then none
    else
      let buf := (bytes.drop cmqFsHdrSize).take hdr.len
      if (crc32Compute buf).toNat ≠ hdr.crc then none else some buf

/-- The records to keep lie, except for the last, where as many records lie at the front of
the log; and the payload of the last does not go on with another record in the place where
the log has its next one. -/
def SameLayout (records : List Bytes) (retain : Nat) : Prop :=
  (records.take (retain - 1)).map List.length =
      ((newest retain records).take (retain - 1)).map List.length ∧
    frameAt (retain + 1)
      (((newest retain records).getLastD []).drop (records.getD (retain - 1) []).length) = none

def CompactSafe (records : List Bytes) (retain : Nat) : Prop :=
  retain = 0 ∨ records.length ≤ retain ∨ SameLayout records retain

instance (records : List Bytes) (retain : Nat) : Decidable (CompactSafe records retain) :=
  inferInstanceAs (Decidable (_ ∨ _ ∨ _ ∧ _))

lemma readRecord_eq_frameAt (data : File) (offset seq : Nat) :
    readRecord data offset seq = frameAt seq (data.bytes.drop offset) := by
  have length : (data.bytes.drop offset).length = data.size - offset := length_drop
  have positive : 0 < cmqFsHdrSize := by decide
  rw [readRecord, readHdr, frameAt, length]
  by_cases header : offset + cmqFsHdrSize ≤ data.size
  · have enough : ¬ data.size - offset < cmqFsHdrSize := by omega
    rw [File.readAt, if_pos header, if_neg enough]
    simp only [map_some, drop_drop]
    generalize getHdr ((data.bytes.drop offset).take cmqFsHdrSize) = hdr
    have short : data.size - offset < cmqFsHdrSize + hdr.len ↔
        ¬ offset + cmqFsHdrSize + hdr.len ≤ data.size := by omega
    by_cases payload : offset + cmqFsHdrSize + hdr.len ≤ data.size
    · simp [File.readAt, payload, short]
    simp [File.readAt, payload, short]
  rw [File.readAt, if_neg header, if_pos (by omega)]
  rfl

/-! ## Opening any files -/

variable {count : Nat} {opened : Files}

section Open

variable {files : Files}

lemma le_readable (enough : count ≤ files.idx.size / 8)
    (found : ∀ i, i < count → (lookupRecord files (i + 1)).isSome) : count ≤ readable files := by
  by_contra less
  have ended := (leading_spec (fun i => (lookupRecord files (i + 1)).isSome)
    (files.idx.size / 8) 0).2.2.2
  rw [← readable, found _ (not_le.mp less)] at ended
  exact Bool.noConfusion (ended (by omega))

end Open

/-! ## What is yielded -/

section Yield

variable {files : Files} {records : List Bytes}

lemma mem_yielded :
    entry ∈ yielded files fs ↔ ∃ i offset payload, idxEntry files.idx i = some offset ∧
        lookupRecord files (i + 1) = some payload ∧ entry = (i + 1, offset, payload) := by
  rw [yielded, mem_filterMap]
  constructor
  · rintro ⟨i, -, some⟩
    rw [filestoreRead_eq_lookup files fs (Nat.succ_ne_zero i)] at some
    obtain ⟨offset, found, rest⟩ := bind_eq_some_iff.mp some
    obtain ⟨payload, read, same⟩ := bind_eq_some_iff.mp rest
    cases same
    exact ⟨i, offset, payload, found, read, rfl⟩
  rintro ⟨i, offset, payload, found, read, rfl⟩
  refine ⟨i, ?_, ?_⟩
  · have cell := (File.readAt_eq_some.mp (map_eq_some_iff.mp found).choose_spec.1).1
    rw [mem_range]
    omega
  rw [filestoreRead_eq_lookup files fs (Nat.succ_ne_zero i), found, read]
  rfl

lemma last_mem_yielded (positive : 0 < readable files)
    (created : cmqFilestoreCreate files = some (opened, fs)) :
    ∃ offset payload, (readable files, offset, payload) ∈ yielded opened fs := by
  obtain ⟨_, created', _, -, kept⟩ := cmqFilestoreCreate_spec files
  rw [created, Option.some.injEq] at created'
  obtain ⟨rfl, -⟩ := created'
  obtain ⟨last, count⟩ := Nat.exists_eq_add_one_of_ne_zero (ne_of_gt positive)
  have present : last < readable files := by omega
  obtain ⟨payload, found⟩ := lookupRecord_of_lt_readable present
  rw [← kept last count] at found
  obtain ⟨offset, entry, -⟩ := bind_eq_some_iff.mp found
  rw [count]
  exact ⟨offset, payload, mem_yielded.mpr ⟨last, offset, payload, entry, found, rfl⟩⟩

lemma mem_generation :
    entry ∈ generation records ↔ ∃ i, ∃ inside : i < records.length,
        entry = (i + 1, fsFormat.offset records i, records[i]) := by
  rw [generation, mem_mapIdx]
  simp only [eq_comm]

lemma Holds.yielded_eq (holds : Holds files records) (fs : CmqFilestore) :
    yielded files fs = generation records := by
  have count := holds.idx_count
  have each : ∀ i ∈ List.range records.length,
      (do
        let offset ← idxEntry files.idx i
        let payload ← (filestoreRead files fs (i + 1)).2
        return (i + 1, offset, payload)) = some ((generation records).getD i (0, 0, [])) := by
    intro i member
    have inside := mem_range.mp member
    rw [filestoreRead_eq_lookup files fs (Nat.succ_ne_zero i), holds.begins.idxEntry_eq inside,
      holds.begins.lookupRecord_eq inside]
    simp [generation, inside]
  have length : (generation records).length = records.length := length_mapIdx
  rw [yielded, count, filterMap_congr each, ← length]
  apply ext_getElem
  · simp
  intro i _ inside
  simp [inside]

end Yield

/-! ## Between the two renames -/

lemma extent_congr (same : left.map List.length = right.map List.length) :
    fsFormat.extent left = fsFormat.extent right := by
  induction left generalizing right with
  | nil => rw [map_eq_nil_iff.mp same.symm]
  | cons _ left ih =>
    cases right with
    | nil => cases same
    | cons _ right =>
      rw [map_cons, map_cons, List.cons.injEq] at same
      rw [Format.extent, Format.extent, size_fsFormat, size_fsFormat, same.1, ih same.2]

section Between

variable {old : Files} {records kept : List Bytes}

lemma map_length_eq_iff_offset_eq (less : kept.length < records.length) :
    (records.take (kept.length - 1)).map List.length =
        (kept.take (kept.length - 1)).map List.length ↔
      ∀ i, i < kept.length → fsFormat.offset records i = fsFormat.offset kept i := by
  constructor
  · intro same i _
    have front : ∀ log : List Bytes, (log.take i).map List.length =
        ((log.take (kept.length - 1)).map List.length).take i := by
      intro log
      rw [← map_take, take_take, Nat.min_eq_left (by omega)]
    apply extent_congr
    rw [front, front, same]
  intro same
  apply ext_getElem
  · simp only [length_map, length_take]
    omega
  intro i inLeft inRight
  simp only [length_map, length_take] at inLeft inRight
  have here := same i (by omega)
  have next := same (i + 1) (by omega)
  rw [Format.offset_succ (by omega), Format.offset_succ (by omega), size_fsFormat,
    size_fsFormat] at next
  simp only [getElem_map, getElem_take]
  omega

lemma yielded_ne_generation (short : opened.data.size < fsFormat.extent records) :
    yielded opened fs ≠ generation records := by
  intro yields
  obtain rfl | ⟨front, last, rfl⟩ := eq_nil_or_concat' records
  · exact Nat.not_lt_zero _ short
  have inside : front.length < (front ++ [last]).length := by simp
  have member := mem_generation.mpr ⟨front.length, inside, rfl⟩
  rw [← yields, Format.offset_append_left (le_refl _), Format.offset_length,
    getElem_concat_length rfl] at member
  obtain ⟨i, _, _, entry, found, same⟩ := mem_yielded.mp member
  obtain ⟨-, rfl, rfl⟩ := same
  rw [lookupRecord, Nat.add_sub_cancel, entry] at found
  have bound := readRecord_le found
  rw [Format.extent_append, Format.extent, Format.extent, size_fsFormat] at short
  omega

section

variable (holds : Holds old records)
include holds

lemma Holds.begins_between (copied : Holds new kept) (less : kept.length < records.length)
    (same : ∀ i, i < kept.length → fsFormat.offset records i = fsFormat.offset kept i) :
    Begins ⟨new.data, old.idx⟩ kept := by
  refine ⟨copied.data ▸ prefix_refl _, ?_, copied.payloads⟩
  have offsets : fsFormat.offsets kept = (fsFormat.offsets records).take kept.length := by
    apply ext_getElem
    · simp only [Format.length_offsets, length_take]
      omega
    intro i inside _
    rw [Format.length_offsets] at inside
    rw [Format.getElem_offsets, getElem_take, Format.getElem_offsets, same i inside]
  rw [offsets, holds.idx]
  conv_rhs => rw [← take_append_drop kept.length (fsFormat.offsets records), cells_append]
  exact prefix_append _ _

/-- The next entry of the old index then points into the last record of the new data. -/
lemma Holds.lookupRecord_between (copied : Holds new (front ++ [last]))
    (less : front.length + 1 < records.length)
    (same : fsFormat.offset records front.length = fsFormat.extent front) :
    lookupRecord ⟨new.data, old.idx⟩ (front.length + 1 + 1) = frameAt (front.length + 1 + 1)
        (last.drop (records.getD front.length []).length) := by
  have inside : front.length < records.length := by omega
  have offset : fsFormat.offset records (front.length + 1) =
      (fsFormat.data 1 front).length + ((putHdr (1 + front.length) last).length +
        records[front.length].length) := by
    rw [Format.offset_succ inside, same, size_fsFormat, Format.length_data, length_putHdr]
  have data : new.data.bytes =
      fsFormat.data 1 front ++ (putHdr (1 + front.length) last ++ last) := by
    rw [copied.data, Format.data_append]
    simp [Format.data, fsFormat]
  rw [lookupRecord, Nat.add_sub_cancel, holds.begins.idxEntry_eq less]
  simp only [bind_eq_bind, bind_some]
  rw [readRecord_eq_frameAt, data, offset, drop_length_add_append, drop_length_add_append]
  simp [inside]

lemma Holds.offset_eq_of_yielded (less : kept.length < records.length)
    (inside : count * 8 ≤ old.idx.size) (cut : opened.idx = old.idx.truncate (count * 8))
    (yields : yielded opened fs = generation kept) (inKept : i < kept.length) :
    fsFormat.offset records i = fsFormat.offset kept i := by
  have member := mem_generation.mpr ⟨i, inKept, rfl⟩
  rw [← yields] at member
  obtain ⟨j, offset, _, entry, -, same⟩ := mem_yielded.mp member
  obtain ⟨rfl, rfl, -⟩ := same
  rw [cut, idxEntry_truncate inside] at entry
  split at entry
  · rw [holds.begins.idxEntry_eq (by omega), Option.some.injEq] at entry
    exact entry
  cases entry

/-- Opening the new data with the old index yields one generation exactly if the layouts are
the same. -/
lemma Holds.between_iff (copied : Holds new kept) (less : kept.length < records.length)
    (nonempty : kept ≠ []) (shorter : fsFormat.extent kept < fsFormat.extent records) :
    (∃ opened fs, cmqFilestoreCreate ⟨new.data, old.idx⟩ = some (opened, fs) ∧
        (yielded opened fs = generation records ∨ yielded opened fs = generation kept)) ↔
      (records.take (kept.length - 1)).map List.length =
          (kept.take (kept.length - 1)).map List.length ∧
        frameAt (kept.length + 1)
          ((kept.getLastD []).drop (records.getD (kept.length - 1) []).length) = none := by
  obtain rfl | ⟨front, last, rfl⟩ := eq_nil_or_concat' kept
  · exact absurd rfl nonempty
  have length : (front ++ [last]).length = front.length + 1 := by simp
  have lastEq : (front ++ [last]).getLastD [] = last := by simp
  have offsetLast : fsFormat.offset (front ++ [last]) front.length = fsFormat.extent front := by
    rw [Format.offset_append_left (le_refl _), Format.offset_length]
  -- with the same offsets, the entry behind the kept records decides where the scan stops
  have next : (∀ i, i < (front ++ [last]).length →
        fsFormat.offset records i = fsFormat.offset (front ++ [last]) i) →
      lookupRecord ⟨new.data, old.idx⟩ (front.length + 1 + 1) =
        frameAt (front.length + 1 + 1) (last.drop (records.getD front.length []).length) := by
    intro same
    apply holds.lookupRecord_between copied (length ▸ less)
    rw [same front.length (by omega), offsetLast]
  rw [map_length_eq_iff_offset_eq less, lastEq, length, Nat.add_sub_cancel]
  rw [length] at next
  constructor
  · rintro ⟨opened, fs, created, yields⟩
    obtain ⟨_, created', cut, ⟨_, within, data⟩, _⟩ := cmqFilestoreCreate_spec ⟨new.data, old.idx⟩
    rw [created, Option.some.injEq] at created'
    obtain ⟨rfl, -⟩ := created'
    have dataLe : opened.data.size ≤ new.data.size := by
      rw [data, File.size_truncate within]
      exact within
    have inside := readable_le ⟨new.data, old.idx⟩
    have short := lt_of_le_of_lt (le_trans dataLe (le_of_eq copied.data_size)) shorter
    rcases yields with all | newer
    · exact absurd all (yielded_ne_generation short)
    have same : ∀ i, i < front.length + 1 →
        fsFormat.offset records i = fsFormat.offset (front ++ [last]) i :=
      fun i inKept => holds.offset_eq_of_yielded less inside cut newer (by omega)
    refine ⟨same, ?_⟩
    -- one record more would be left by the repair, and yielded
    rw [← next same, ← not_isSome_iff_eq_none]
    intro found
    have begins := holds.begins_between copied less (by rwa [length])
    have count : front.length + 2 ≤ readable ⟨new.data, old.idx⟩ := by
      apply le_readable
      · have size := holds.idx_size
        rw [Nat.le_div_iff_mul_le (by decide)]
        exact (by omega : (front.length + 2) * 8 ≤ old.idx.size)
      intro i less
      rcases lt_or_eq_of_le (Nat.le_of_lt_succ less) with inKept | rfl
      · rw [begins.lookupRecord_eq (by omega)]
        rfl
      exact found
    obtain ⟨offset, _, member⟩ :=
      last_mem_yielded (lt_of_lt_of_le (Nat.succ_pos _) count) created
    rw [newer] at member
    obtain ⟨i, inKept, entry⟩ := mem_generation.mp member
    rw [Prod.mk.injEq] at entry
    omega
  rintro ⟨same, ended⟩
  have begins := holds.begins_between copied less (by rwa [length])
  obtain ⟨opened, created, opens⟩ := begins.cmqFilestoreCreate_eq
    (.inr (by rw [length, next same, ended]))
  exact ⟨opened, _, created, .inr (opens.yielded_eq _)⟩

end

end Between

/-! ## Every crash -/

section Crash

variable {files : Files} {records : List Bytes}

lemma extent_newest_lt (more : retain < records.length) :
    fsFormat.extent (newest retain records) < fsFormat.extent records := by
  obtain ⟨dropped, rest, front⟩ : ∃ dropped rest,
      records.take (records.length - retain) = dropped :: rest := by
    cases taken : records.take (records.length - retain) with
    | nil =>
      have length := congrArg List.length taken
      rw [length_take, length_nil] at length
      omega
    | cons dropped rest => exact ⟨dropped, rest, rfl⟩
  have positive : 0 < cmqFsHdrSize := by decide
  conv_rhs => rw [← take_append_drop (records.length - retain) records,
    Format.extent_append, front, Format.extent, size_fsFormat]
  rw [newest]
  omega

lemma Holds.opens (holds : Holds files generated)
    (which : generated = records ∨ generated = newest retain records) :
    ∃ opened fs, cmqFilestoreCreate files = some (opened, fs) ∧
      (yielded opened fs = generation records ∨
        yielded opened fs = generation (newest retain records)) := by
  refine ⟨_, _, holds.cmqFilestoreCreate_eq, ?_⟩
  rw [holds.yielded_eq]
  exact which.imp (congrArg generation) (congrArg generation)

lemma Begins.nil (files : Files) : Begins files [] :=
  ⟨⟨_, rfl⟩, ⟨_, rfl⟩, fun _ member => absurd member not_mem_nil⟩

section

variable (holds : Holds files records)
include holds

lemma Holds.compactAtomic_all (all : records.length ≤ retain) :
    CompactAtomic files records retain := by
  have last := holds.idx_count
  have ops : compactOps files retain = [.refresh] := by
    simp [compactOps, holds.refreshTruncate_eq, last, all]
  intro count
  have same : compactCrash files retain count = files := by
    rw [compactCrash, ops]
    cases count with
    | zero => rfl
    | succ count => simp [compactAfter, Dir.apply, holds.refreshTruncate_eq]
  rw [same]
  exact holds.opens (.inl rfl)

lemma Holds.compactCrash_eq (ops : compactOps files retain = .refresh :: later) (count : Nat) :
    compactCrash files retain (count + 1) =
      ((later.take count).foldl Dir.apply ⟨files, none⟩).live := by
  simp [compactCrash, ops, compactAfter, Dir.apply, holds.refreshTruncate_eq]

/-- A compaction that keeps nothing cuts the data first, so no entry of the index is left. -/
lemma Holds.compactAtomic_none (some : 0 < records.length) : CompactAtomic files records 0 := by
  have last := holds.idx_count
  have none : newest 0 records = [] := by simp [newest]
  have cut : files.data.truncate 0 = .empty := by
    simp [File.ext_iff, File.truncate_bytes (Nat.zero_le _)]
  have cutIdx : files.idx.truncate 0 = .empty := by
    simp [File.ext_iff, File.truncate_bytes (Nat.zero_le _)]
  have ops : compactOps files 0 = [.refresh, .truncateData, .truncateIdx] := by
    simp [compactOps, holds.refreshTruncate_eq, last, Nat.ne_of_gt some]
  have crashed := holds.compactCrash_eq ops
  intro count
  rcases count with _ | _ | _ | count
  · exact holds.opens (.inl rfl)
  · rw [show compactCrash files 0 1 = files by simp [crashed]]
    exact holds.opens (.inl rfl)
  · -- the old index beside no data
    have between : compactCrash files 0 2 = ⟨.empty, files.idx⟩ := by simp [crashed, Dir.apply, cut]
    have unread : lookupRecord ⟨.empty, files.idx⟩ 1 = Option.none := by
      rw [lookupRecord, holds.begins.idxEntry_eq some]
      rfl
    obtain ⟨opened, created, empty⟩ := (Begins.nil _).cmqFilestoreCreate_eq (.inr unread)
    refine ⟨opened, _, between ▸ created, .inr ?_⟩
    rw [empty.yielded_eq, none]
  have after : compactCrash files 0 (count + 3) = .empty := by
    simp [crashed, Dir.apply, cut, cutIdx, Files.empty]
  rw [after]
  exact holds_empty.opens (.inr none.symm)

/-- A compaction that keeps some records is spoiled at most between its renames. -/
lemma Holds.compactAtomic_some_iff (some : 0 < retain) (more : retain < records.length) :
    CompactAtomic files records retain ↔ SameLayout records retain := by
  have last := holds.idx_count
  have length : (newest retain records).length = retain := by
    rw [newest, length_drop]
    omega
  have nonempty : newest retain records ≠ [] := by
    intro none
    rw [none, length_nil] at length
    omega
  obtain ⟨new, copied, copiedHolds⟩ := holds.compactCopy_newest more
  rw [← newest] at copiedHolds
  have ops : compactOps files retain = [.refresh, .writeTmp new, .renameData, .renameIdx] := by
    simp [compactOps, holds.refreshTruncate_eq, last, not_le.mpr more, ne_of_gt some, copied]
  have crashed := holds.compactCrash_eq ops
  have between : compactCrash files retain 3 = ⟨new.data, files.idx⟩ := by simp [crashed, Dir.apply]
  have layout := holds.between_iff copiedHolds (by rwa [length]) nonempty (extent_newest_lt more)
  rw [length, ← SameLayout] at layout
  rw [← layout]
  constructor
  · intro atomic
    exact between ▸ atomic 3
  intro spoiled count
  rcases count with _ | _ | _ | _ | count
  · exact holds.opens (.inl rfl)
  · rw [show compactCrash files retain 1 = files by simp [crashed]]
    exact holds.opens (.inl rfl)
  · rw [show compactCrash files retain 2 = files by simp [crashed, Dir.apply]]
    exact holds.opens (.inl rfl)
  · exact between ▸ spoiled
  rw [show compactCrash files retain (count + 4) = new by simp [crashed, Dir.apply]]
  exact copiedHolds.opens (.inr rfl)

end

end Crash

/-- Let files hold a log.  Every crash during a compaction leaves a store that yields one
generation of it exactly if the compaction keeps nothing, or everything, or the new data has
the layout of the old. -/
theorem compactAtomic_iff (files : Files) (records : List Bytes) (retain : Nat)
    (holds : Holds files records) :
    CompactAtomic files records retain ↔ CompactSafe records retain := by
  by_cases all : records.length ≤ retain
  · exact iff_of_true (holds.compactAtomic_all all) (.inr (.inl all))
  have more := not_le.mp all
  rcases Nat.eq_zero_or_pos retain with rfl | some
  · exact iff_of_true (holds.compactAtomic_none more) (.inl rfl)
  rw [holds.compactAtomic_some_iff some more, CompactSafe]
  simp [ne_of_gt some, all]

def sampleLog : Files where
  data := ⟨fsFormat.data 1 [[1], [2, 2], [3]], by decide +kernel⟩
  idx := ⟨cells (putLe 8) (fsFormat.offsets [[1], [2, 2], [3]]), by decide +kernel⟩

lemma holds_sampleLog : Holds sampleLog [[1], [2, 2], [3]] :=
  ⟨rfl, rfl, by decide⟩

/-- Keeping the last of the three records is safe. -/
theorem compactAtomic_iff_last :
    CompactSafe [[1], [2, 2], [3]] 1 ∧ CompactAtomic sampleLog [[1], [2, 2], [3]] 1 := by
  have safe : CompactSafe [[1], [2, 2], [3]] 1 := by decide +kernel
  exact ⟨safe, (compactAtomic_iff sampleLog _ 1 holds_sampleLog).mpr safe⟩

/-- Of three records two are to be kept, the first of them longer than the one in its old
place.  A crash between the renames leaves only that one. -/
theorem compactCrash_loses_record :
    ((cmqFilestoreCreate (compactCrash sampleLog 2 3)).map fun opened =>
        yielded opened.1 opened.2) = some [(1, 0, [2, 2])] ∧
      ¬ CompactAtomic sampleLog [[1], [2, 2], [3]] 2 := by
  have lost : ((cmqFilestoreCreate (compactCrash sampleLog 2 3)).map fun opened =>
      yielded opened.1 opened.2) = some [(1, 0, [2, 2])] := by decide +kernel
  refine ⟨lost, fun atomic => ?_⟩
  obtain ⟨opened, _, created, yields⟩ := atomic 3
  rw [created, map_some, Option.some.injEq] at lost
  rcases yields with old | new
  · rw [lost] at old
    exact absurd old (by decide +kernel)
  rw [lost] at new
  exact absurd new (by decide +kernel)

end CMsgQueue.Store
