import CMsgQueue.Store.Filestore

/-!
# What the file store does to a log

A pair of files holds a list of payloads if the frames stand in the data file one behind the
other, numbered from 1, and the index has their offsets.  Each operation of the store is
described on such files.
-/

namespace CMsgQueue.Store

open Option List IndexedLog

def Payload (payload : Bytes) : Prop := 0 < payload.length ∧ payload.length ≤ cmqFsMaxLen

instance (payload : Bytes) : Decidable (Payload payload) := inferInstanceAs (Decidable (_ ∧ _))

lemma badLen_eq_false : badLen payload.length = false ↔ Payload payload := by
  simp [badLen, Payload, Nat.pos_iff_ne_zero]

def fsFormat : Format UInt8 where
  frame number payload := putHdr number payload ++ payload
  size payload := cmqFsHdrSize + payload.length
  length_frame number payload := by
    simp only [putHdr, cmqFsHdrSize, length_append, length_putLe]

@[simp] lemma length_putHdr (seq : Nat) (data : Bytes) :
    (putHdr seq data).length = cmqFsHdrSize := by
  simp [putHdr, cmqFsHdrSize]

lemma size_fsFormat (payload : Bytes) :
    fsFormat.size payload = cmqFsHdrSize + payload.length := rfl

/-! ## Headers -/

lemma getHdr_putHdr (numbered : seq < 2 ^ 64) (short : data.length < 2 ^ 32) :
    getHdr (putHdr seq data) =
      ⟨cmqFsMagic, cmqFsVersion, seq, data.length, (crc32Compute data).toNat⟩ := by
  have magic : getLe (putLe 4 cmqFsMagic) = cmqFsMagic := getLe_putLe (by decide)
  have version : getLe (putLe 2 cmqFsVersion) = cmqFsVersion := getLe_putLe (by decide)
  have number : getLe (putLe 8 seq) = seq := getLe_putLe numbered
  have length : getLe (putLe 4 data.length) = data.length := getLe_putLe short
  have crc : getLe (putLe 4 (crc32Compute data).toNat) = (crc32Compute data).toNat :=
    getLe_putLe (crc32Compute data).isLt
  simp [getHdr, putHdr, drop_append, take_putLe, drop_putLe, magic, version, number, length, crc]

lemma renumberHdr_putHdr (seq new : Nat) (data : Bytes) :
    renumberHdr (putHdr seq data) new = putHdr new data := by
  simp [renumberHdr, putHdr, take_append, drop_append, take_putLe, drop_putLe]

/-! ## A record in its place -/

section Place

variable {data : File} {before rest payload : Bytes} {seq : Nat}

lemma readHdr_place (numbered : seq < 2 ^ 64) (valid : Payload payload)
    (whole : data.bytes = before ++ (putHdr seq payload ++ rest)) :
    readHdr data before.length =
      some ⟨cmqFsMagic, cmqFsVersion, seq, payload.length, (crc32Compute payload).toNat⟩ := by
  have short : payload.length < 2 ^ 32 := lt_of_le_of_lt valid.2 (by decide)
  rw [readHdr, File.readAt_of_eq whole rfl (length_putHdr seq payload), map_some,
    getHdr_putHdr numbered short]

lemma readPayload_place
    (whole : data.bytes = before ++ (putHdr seq payload ++ (payload ++ rest))) :
    data.readAt (before.length + cmqFsHdrSize) payload.length = some payload := by
  have behind : data.bytes = (before ++ putHdr seq payload) ++ (payload ++ rest) := by
    rw [whole, append_assoc]
  apply File.readAt_of_eq behind
  · rw [length_append, length_putHdr]
  rfl

lemma readRecord_place (numbered : seq < 2 ^ 64) (valid : Payload payload)
    (whole : data.bytes = before ++ (putHdr seq payload ++ (payload ++ rest))) (asked : Nat) :
    readRecord data before.length asked = if asked = seq then some payload else none := by
  rw [readRecord, readHdr_place numbered valid whole]
  by_cases same : asked = seq
  · simp [same, badLen_eq_false.mpr valid, readPayload_place whole]
  simp [same, Ne.symm same]

end Place

lemma readRecord_eq_some :
    readRecord data offset seq = some payload ↔
      ∃ hdr, readHdr data offset = some hdr ∧ hdr.magic = cmqFsMagic ∧
        hdr.version = cmqFsVersion ∧ hdr.seq = seq ∧ badLen hdr.len = false ∧
        data.readAt (offset + cmqFsHdrSize) hdr.len = some payload ∧
        (crc32Compute payload).toNat = hdr.crc := by
  rw [readRecord]
  cases readHdr data offset with
  | none => simp
  | some hdr =>
    simp only [bind_eq_bind, bind_some, Option.some.injEq, exists_eq_left']
    constructor
    · intro read
      split at read
      · cases read
      split at read
      · cases read
      obtain ⟨_, payloadRead, checked⟩ := bind_eq_some_iff.mp read
      split at checked
      · cases checked
      cases checked
      simp_all
    rintro ⟨magic, version, number, short, payloadRead, crc⟩
    simp [magic, version, number, short, payloadRead, crc]

lemma readRecord_le (read : readRecord data offset seq = some payload) :
    offset + cmqFsHdrSize + payload.length ≤ data.size := by
  obtain ⟨_, -, -, -, -, -, payloadRead, -⟩ := readRecord_eq_some.mp read
  rw [File.length_of_readAt payloadRead]
  exact (File.readAt_eq_some.mp payloadRead).1

/-! ## The tests of the repair -/

lemma repairCrc_eq (crc : BitVec 32) (enough : left ≤ fuel) (inside : pos + left ≤ data.size) :
    repairCrc data fuel pos left crc =
      some (crc32Update crc ((data.bytes.drop pos).take left)) := by
  induction fuel generalizing pos left crc with
  | zero =>
    rw [Nat.le_zero.mp enough]
    rfl
  | succ fuel ih =>
    rw [repairCrc]
    by_cases none : left = 0
    · rw [none]
      rfl
    rw [if_neg none]
    -- the bytes of this chunk, and those of the chunks behind it
    have chunk : data.readAt pos (min left 8192) =
        some ((data.bytes.drop pos).take (min left 8192)) :=
      File.readAt_eq_some.mpr ⟨by omega, rfl⟩
    have split : (data.bytes.drop pos).take left =
        (data.bytes.drop pos).take (min left 8192) ++
          (data.bytes.drop (pos + min left 8192)).take (left - min left 8192) := by
      have lengths : left = min left 8192 + (left - min left 8192) := by omega
      conv_lhs => rw [lengths, take_add, drop_drop]
    simp only [chunk]
    rw [ih _ (by omega) (by omega), split]
    exact congrArg some foldl_append.symm

lemma repairRecord_eq (data : File) (offset seq : Nat) :
    repairRecord data offset seq = (readRecord data offset seq).isSome := by
  rw [repairRecord, readRecord]
  cases readHdr data offset with
  | none => rfl
  | some hdr =>
    simp only [bind_eq_bind, bind_some]
    by_cases header : hdr.magic ≠ cmqFsMagic ∨ hdr.version ≠ cmqFsVersion
    · rw [if_pos header, if_pos (by tauto)]
      rfl
    rw [if_neg header]
    by_cases number : hdr.seq ≠ seq
    · rw [if_pos (.inl number), if_pos (by tauto)]
      rfl
    rw [if_neg (c := _ ∨ _ ∨ _) (by tauto)]
    by_cases bad : badLen hdr.len = true
    · rw [if_pos (.inr bad), if_pos bad]
      rfl
    rw [if_neg (by tauto), if_neg bad]
    by_cases inside : offset + cmqFsHdrSize + hdr.len ≤ data.size
    · rw [if_neg (not_lt.mpr inside), repairCrc_eq _ (le_refl _) inside, File.readAt, if_pos inside]
      simp only [bind_some]
      split <;> simp_all [crc32Compute]
    rw [if_pos (not_le.mp inside), File.readAt, if_neg inside]
    rfl

lemma repairEntry_eq (files : Files) (i : Nat) :
    repairEntry files i = (lookupRecord files (i + 1)).isSome := by
  rw [repairEntry, lookupRecord, Nat.add_sub_cancel]
  cases idxEntry files.idx i with
  | none => rfl
  | some offset => exact repairRecord_eq files.data offset (i + 1)

lemma lookupRecord_past (past : files.idx.size < (seq - 1) * 8 + 8) :
    lookupRecord files seq = none := by
  rw [lookupRecord, idxEntry, File.readAt, if_neg (not_le.mpr past)]
  rfl

lemma filestoreRead_eq_lookup (files : Files) (fs : CmqFilestore)
    (positive : seq ≠ 0) : (filestoreRead files fs seq).2 = lookupRecord files seq := by
  have next : (refreshNextSeq files fs).nextSeq = files.idx.size / 8 + 1 := rfl
  rw [filestoreRead, if_neg positive]
  by_cases past : seq ≥ (refreshNextSeq files fs).nextSeq
  · simp only [if_pos past]
    rw [lookupRecord_past (by omega)]
  simp only [if_neg past]

/-! ## Files that hold a log -/

lemma idxEntry_place (whole : idx.bytes = front ++ (putLe 8 offset ++ rest))
    (start : front.length = i * 8) (fits : offset < 2 ^ 64) : idxEntry idx i = some offset := by
  rw [idxEntry, File.readAt_of_eq whole start (length_putLe 8 _), map_some, getLe_putLe fits]

/-- The files begin with a list of payloads. -/
structure Begins (files : Files) (records : List Bytes) : Prop where
  data : fsFormat.data 1 records <+: files.data.bytes
  idx : cells (putLe 8) (fsFormat.offsets records) <+: files.idx.bytes
  payloads : ∀ payload ∈ records, Payload payload

/-- The files hold a list of payloads and nothing else. -/
structure Holds (files : Files) (records : List Bytes) : Prop where
  data : files.data.bytes = fsFormat.data 1 records
  idx : files.idx.bytes = cells (putLe 8) (fsFormat.offsets records)
  payloads : ∀ payload ∈ records, Payload payload

lemma length_idxCells (records : List Bytes) :
    (cells (putLe 8) (fsFormat.offsets records)).length = 8 * records.length := by
  rw [length_cells (length_putLe 8), Format.length_offsets]

section Begins

variable {files : Files} {records : List Bytes}

section

variable (begins : Begins files records)
include begins

lemma Begins.idx_le : 8 * records.length ≤ files.idx.size := by
  rw [← length_idxCells]
  exact begins.idx.length_le

lemma Begins.data_le : fsFormat.extent records ≤ files.data.size := by
  rw [← Format.length_data 1 records]
  exact begins.data.length_le

lemma Begins.numbered : records.length < 2 ^ 60 := by
  have bound := begins.idx_le
  have fits := files.idx.fits
  rw [File.size] at bound
  rw [fileLimit] at fits
  omega

end

variable {i : Nat}

variable (begins : Begins files records) (inside : i < records.length)
include begins inside

lemma Begins.idxEntry_eq : idxEntry files.idx i = some (fsFormat.offset records i) := by
  obtain ⟨rest, whole⟩ := begins.idx
  have inOffsets : i < (fsFormat.offsets records).length := by simpa using inside
  have offsetFits : fsFormat.offset records i < 2 ^ 64 := by
    have below : fsFormat.offset records i ≤ fsFormat.extent records :=
      Format.offset_le_extent records i
    have extent := begins.data_le
    have fits := files.data.fits
    rw [File.size] at extent
    rw [fileLimit] at fits
    omega
  have front : (cells (putLe 8) ((fsFormat.offsets records).take i)).length = i * 8 := by
    rw [length_cells (length_putLe 8), length_take]
    omega
  have place : files.idx.bytes = cells (putLe 8) ((fsFormat.offsets records).take i) ++
      (putLe 8 (fsFormat.offset records i) ++
        (cells (putLe 8) ((fsFormat.offsets records).drop (i + 1)) ++ rest)) := by
    rw [← whole, cells_split (putLe 8) inOffsets, Format.getElem_offsets]
    simp only [append_assoc]
  exact idxEntry_place place front offsetFits

lemma Begins.place :
    ∃ before rest, before.length = fsFormat.offset records i ∧ i + 1 < 2 ^ 64 ∧
      files.data.bytes = before ++ (putHdr (i + 1) records[i] ++ (records[i] ++ rest)) := by
  obtain ⟨tail, whole⟩ := begins.data
  have bound := begins.numbered
  refine ⟨_, fsFormat.data (1 + i + 1) (records.drop (i + 1)) ++ tail,
    Format.length_data 1 (records.take i), by omega, ?_⟩
  rw [← whole, Format.data_split 1 inside, Nat.add_comm 1 i]
  simp only [append_assoc, fsFormat]

/-- A record of the log is found under its number. -/
lemma Begins.lookupRecord_eq : lookupRecord files (i + 1) = some records[i] := by
  obtain ⟨_, _, start, numbered, whole⟩ := begins.place inside
  have valid := begins.payloads _ (getElem_mem inside)
  rw [lookupRecord, Nat.add_sub_cancel, begins.idxEntry_eq inside, ← start]
  simp [readRecord_place numbered valid whole]

lemma Begins.copyRecord_eq :
    copyRecord files.data (fsFormat.offset records i) =
      some (putHdr (i + 1) records[i], records[i]) := by
  obtain ⟨_, _, start, numbered, whole⟩ := begins.place inside
  rw [← start]
  have valid := begins.payloads _ (getElem_mem inside)
  have short : records[i].length < 2 ^ 32 := lt_of_le_of_lt valid.2 (by decide)
  rw [copyRecord, File.readAt_of_eq whole rfl (length_putHdr _ _)]
  simp [getHdr_putHdr numbered short, badLen_eq_false.mpr valid, readPayload_place whole]

lemma Begins.readHdr_eq :
    readHdr files.data (fsFormat.offset records i) = some ⟨cmqFsMagic, cmqFsVersion, i + 1,
      records[i].length, (crc32Compute records[i]).toNat⟩ := by
  obtain ⟨_, _, start, numbered, whole⟩ := begins.place inside
  rw [← start]
  exact readHdr_place numbered (begins.payloads _ (getElem_mem inside)) whole

end Begins

section Holds

variable {files : Files} {records : List Bytes}

lemma holds_empty : Holds .empty [] := ⟨rfl, rfl, by simp⟩

section

variable (holds : Holds files records)
include holds

lemma Holds.begins : Begins files records :=
  ⟨holds.data ▸ prefix_refl _, holds.idx ▸ prefix_refl _, holds.payloads⟩

lemma Holds.data_size : files.data.size = fsFormat.extent records := by
  rw [File.size, holds.data, Format.length_data]

lemma Holds.idx_size : files.idx.size = 8 * records.length := by
  rw [File.size, holds.idx, length_idxCells]

lemma Holds.idx_count : files.idx.size / 8 = records.length := by
  rw [holds.idx_size, Nat.mul_div_cancel_left _ (by decide)]

lemma Holds.unique (holds' : Holds files' records) : files = files' := by
  cases files
  cases files'
  rw [Files.mk.injEq, File.ext_iff, File.ext_iff]
  exact ⟨holds.data.trans holds'.data.symm, holds.idx.trans holds'.idx.symm⟩

lemma Holds.filestoreRead_eq (fs : CmqFilestore) (seq : Nat) :
    (filestoreRead files fs seq).2 = if seq = 0 then none else records[seq - 1]? := by
  by_cases zero : seq = 0
  · rw [filestoreRead, if_pos zero, if_pos zero]
  rw [if_neg zero, filestoreRead_eq_lookup files fs zero]
  by_cases inside : seq - 1 < records.length
  · have number : seq - 1 + 1 = seq := by omega
    have found := holds.begins.lookupRecord_eq inside
    rw [number] at found
    rw [found, getElem?_eq_getElem inside]
  have past : files.idx.size < (seq - 1) * 8 + 8 := by
    rw [holds.idx_size]
    omega
  rw [getElem?_eq_none (not_lt.mp inside), lookupRecord_past past]

lemma Holds.refreshTruncate_eq : refreshTruncate files = files := by
  have whole : files.idx.size - files.idx.size % 8 = files.idx.size := by
    rw [holds.idx_size]
    omega
  rw [refreshTruncate, whole, File.truncate_size]

lemma Holds.refreshNextSeq_eq (fs : CmqFilestore) :
    refreshNextSeq files fs = { fs with nextSeq := records.length + 1 } := by
  rw [refreshNextSeq, holds.idx_count]

end

end Holds

/-! ## Opening -/

lemma idxEntry_refreshTruncate (files : Files) (i : Nat) :
    idxEntry (refreshTruncate files).idx i = idxEntry files.idx i := by
  have inside : files.idx.size - files.idx.size % 8 ≤ files.idx.size := Nat.sub_le _ _
  rw [idxEntry, idxEntry, refreshTruncate]
  by_cases front : i * 8 + 8 ≤ files.idx.size - files.idx.size % 8
  · rw [File.readAt_truncate inside front]
  have short : ¬ i * 8 + 8 ≤ files.idx.size := by omega
  rw [File.readAt, File.readAt, File.size_truncate inside, if_neg front, if_neg short]

/-- The number of records that a repair leaves: those in front of the first that cannot be
read. -/
def readable (files : Files) : Nat :=
  leading (fun i => (lookupRecord files (i + 1)).isSome) (files.idx.size / 8) 0

lemma readable_le (files : Files) : readable files * 8 ≤ files.idx.size := by
  have bound := (leading_spec (fun i => (lookupRecord files (i + 1)).isSome)
    (files.idx.size / 8) 0).2.1
  rw [← readable] at bound
  omega

lemma repairIdx_eq (files : Files) :
    repairIdx files =
      ({ files with idx := files.idx.truncate (readable files * 8) }, readable files) := by
  have inside : files.idx.size - files.idx.size % 8 ≤ files.idx.size := Nat.sub_le _ _
  have count : (refreshTruncate files).idx.size / 8 = files.idx.size / 8 := by
    rw [refreshTruncate, File.size_truncate inside]
    omega
  have entries : repairEntry (refreshTruncate files) =
      fun i => (lookupRecord files (i + 1)).isSome := by
    funext i
    rw [repairEntry_eq, lookupRecord, idxEntry_refreshTruncate]
    rfl
  have scan : leading (repairEntry (refreshTruncate files))
      ((refreshTruncate files).idx.size / 8) 0 = readable files := by
    rw [entries, count, readable]
  have le := readable_le files
  have stopped : ∀ valid, leading (repairEntry (refreshTruncate files))
      ((refreshTruncate files).idx.size / 8) 0 = valid →
      repairIdx files =
        (⟨files.data, (refreshTruncate files).idx.truncate (valid * 8)⟩, valid) := by
    rintro valid rfl
    rfl
  rw [stopped _ scan, refreshTruncate, File.truncate_truncate inside (by omega)]

section Open

variable {files : Files} {records : List Bytes}

lemma Begins.readable_eq (begins : Begins files records)
    (ended : files.idx.size / 8 = records.length ∨
      lookupRecord files (records.length + 1) = none) : readable files = records.length := by
  have enough := begins.idx_le
  apply leading_eq (Nat.zero_le _)
  · omega
  · intro i _ inside
    rw [begins.lookupRecord_eq inside]
    rfl
  intro _
  rcases ended with _ | unread
  · omega
  rw [unread]
  rfl

lemma Begins.truncateOrphanData_eq (begins : Begins files records) :
    truncateOrphanData files records.length =
      some { files with data := files.data.truncate (fsFormat.extent records) } := by
  have enough := begins.data_le
  rw [truncateOrphanData]
  rcases Nat.eq_zero_or_pos records.length with none | some
  · rw [length_eq_zero_iff.mp none]
    rfl
  have inside : records.length - 1 < records.length := by omega
  have next : records.length - 1 + 1 = records.length := by omega
  have expect : fsFormat.offset records (records.length - 1) + cmqFsHdrSize +
      records[records.length - 1].length = fsFormat.extent records := by
    rw [← Format.offset_length records]
    conv_rhs => rw [← next, Format.offset_succ inside, size_fsFormat]
    omega
  have fits := not_le.mpr (lt_of_le_of_lt enough files.data.fits)
  rw [if_neg (by omega), begins.idxEntry_eq inside]
  simp only [bind_eq_bind, bind_some, begins.readHdr_eq inside, expect,
    ne_eq, not_true_eq_false, if_false, fits, false_or]
  split
  next whole => rw [← le_antisymm whole enough, File.truncate_size]
  next => rfl

/-- Opening files that begin with a log leaves the log. -/
lemma Begins.cmqFilestoreCreate_eq (begins : Begins files records)
    (ended : files.idx.size / 8 = records.length ∨
      lookupRecord files (records.length + 1) = none) :
    ∃ opened, cmqFilestoreCreate files = some (opened, .opened records.length) ∧
      Holds opened records := by
  have idxEnough := begins.idx_le
  have dataEnough := begins.data_le
  have idxBytes : (files.idx.truncate (records.length * 8)).bytes =
      cells (putLe 8) (fsFormat.offsets records) := by
    rw [File.truncate_bytes (by omega), Nat.mul_comm, ← length_idxCells]
    exact (prefix_iff_eq_take.mp begins.idx).symm
  have dataBytes : (files.data.truncate (fsFormat.extent records)).bytes =
      fsFormat.data 1 records := by
    rw [File.truncate_bytes dataEnough, ← Format.length_data 1 records]
    exact (prefix_iff_eq_take.mp begins.data).symm
  have repaired : Begins { files with idx := files.idx.truncate (records.length * 8) } records :=
    ⟨begins.data, idxBytes ▸ prefix_refl _, begins.payloads⟩
  refine ⟨⟨files.data.truncate (fsFormat.extent records),
    files.idx.truncate (records.length * 8)⟩, ?_, dataBytes, idxBytes, begins.payloads⟩
  rw [cmqFilestoreCreate, repairIdx_eq, begins.readable_eq ended, repaired.truncateOrphanData_eq]
  rfl

lemma Holds.cmqFilestoreCreate_eq (holds : Holds files records) :
    cmqFilestoreCreate files = some (files, .opened records.length) := by
  have whole := holds.idx_count
  obtain ⟨opened, created, same⟩ := holds.begins.cmqFilestoreCreate_eq (.inl whole)
  rw [created, holds.unique same]

end Open

/-! ## Opening any files -/

section Any

variable {files : Files} {count : Nat}

lemma idxEntry_truncate (inside : count * 8 ≤ idx.size) (i : Nat) :
    idxEntry (idx.truncate (count * 8)) i = if i < count then idxEntry idx i else none := by
  rw [idxEntry, idxEntry]
  by_cases front : i < count
  · rw [if_pos front, File.readAt_truncate inside (by omega)]
  rw [if_neg front, File.readAt, File.size_truncate inside, if_neg (by omega)]
  rfl

lemma readRecord_truncate {data : File} {length offset seq : Nat} {payload : Bytes}
    (inside : length ≤ data.size) (front : offset + cmqFsHdrSize + payload.length ≤ length)
    (read : readRecord data offset seq = some payload) :
    readRecord (data.truncate length) offset seq = some payload := by
  obtain ⟨hdr, header, magic, version, number, short, payloadRead, crc⟩ :=
    readRecord_eq_some.mp read
  have len := File.length_of_readAt payloadRead
  refine readRecord_eq_some.mpr ⟨hdr, ?_, magic, version, number, short, ?_, crc⟩
  · rw [readHdr, File.readAt_truncate inside (by omega)]
    exact header
  rw [File.readAt_truncate inside (by omega)]
  exact payloadRead

lemma truncateOrphanData_readable (entry : idxEntry files.idx count = some offset)
    (read : readRecord files.data offset (count + 1) = some payload) :
    truncateOrphanData files (count + 1) = some { files with
      data := files.data.truncate (offset + cmqFsHdrSize + payload.length) } := by
  obtain ⟨_, header, magic, -, -, -, payloadRead, -⟩ := readRecord_eq_some.mp read
  have bound := readRecord_le read
  have fits := not_le.mpr (lt_of_le_of_lt bound files.data.fits)
  have len := File.length_of_readAt payloadRead
  rw [truncateOrphanData, if_neg (Nat.succ_ne_zero count), Nat.add_sub_cancel, entry]
  simp only [bind_eq_bind, bind_some, header, magic, ← len, ne_eq,
    not_true_eq_false, if_false, fits, false_or]
  split
  next whole => rw [← le_antisymm whole bound, File.truncate_size]
  next => rfl

lemma lookupRecord_of_lt_readable (inside : i < readable files) :
    ∃ payload, lookupRecord files (i + 1) = some payload :=
  isSome_iff_exists.mp
    ((leading_spec (fun i => (lookupRecord files (i + 1)).isSome)
      (files.idx.size / 8) 0).2.2.1 i (Nat.zero_le i) inside)

lemma cmqFilestoreCreate_spec (files : Files) :
    ∃ opened, cmqFilestoreCreate files = some (opened, .opened (readable files)) ∧
      opened.idx = files.idx.truncate (readable files * 8) ∧
      (∃ length ≤ files.data.size, opened.data = files.data.truncate length) ∧
      ∀ i, readable files = i + 1 → lookupRecord opened (i + 1) = lookupRecord files (i + 1) := by
  have inside := readable_le files
  rw [cmqFilestoreCreate, repairIdx_eq]
  cases count : readable files with
  | zero =>
    exact ⟨_, rfl, rfl, ⟨0, Nat.zero_le _, rfl⟩, fun i impossible => by cases impossible⟩
  | succ last =>
    rw [count] at inside
    have present : last < readable files := by omega
    obtain ⟨payload, found⟩ := lookupRecord_of_lt_readable present
    rw [lookupRecord, Nat.add_sub_cancel] at found
    obtain ⟨offset, entry, read⟩ := bind_eq_some_iff.mp found
    have kept : idxEntry (files.idx.truncate ((last + 1) * 8)) last = some offset := by
      rw [idxEntry_truncate inside, if_pos (Nat.lt_succ_self last), entry]
    have bound := readRecord_le read
    have cut : truncateOrphanData ⟨files.data, files.idx.truncate ((last + 1) * 8)⟩ (last + 1) =
        some ⟨files.data.truncate (offset + cmqFsHdrSize + payload.length),
          files.idx.truncate ((last + 1) * 8)⟩ := truncateOrphanData_readable kept read
    rw [cut]
    refine ⟨_, rfl, rfl, ⟨_, bound, rfl⟩, ?_⟩
    rintro i same
    cases same
    rw [lookupRecord, lookupRecord, Nat.add_sub_cancel, kept, entry]
    simp only [bind_eq_bind, bind_some]
    rw [read, readRecord_truncate bound (le_refl _) read]

end Any

end CMsgQueue.Store
