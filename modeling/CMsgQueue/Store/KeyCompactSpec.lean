import CMsgQueue.Lib.KeyedLog
import CMsgQueue.Store.FilestoreSpec

/-!
# What key compaction keeps

The archived files hold a log, and its payloads are entries of a keyed log.  Loading, marking
and writing together compact it, and the count of dirty records is the number that is
dropped.
-/

namespace CMsgQueue.Store

open Option List IndexedLog KeyedLog

/-- A payload as an entry of a keyed log: an empty value removes the key. -/
def readKeyed (payload : Bytes) : Option (Bytes × Option Bytes) :=
  (cmqFilestoreKeyDecode payload).map fun keyed =>
    (keyed.1, if keyed.2.length = 0 then none else some keyed.2)

lemma cmqFilestoreKeyDecode_encode
    (encoded : cmqFilestoreKeyEncode outSz key val = some payload) :
    cmqFilestoreKeyDecode payload = some (key, val) := by
  rw [cmqFilestoreKeyEncode] at encoded
  split at encoded
  · cases encoded
  rename_i bounds
  split at encoded
  · cases encoded
  split at encoded
  · cases encoded
  cases encoded
  have magic : ReadsAt (cmqFsKeyMagic ++ (putLe 2 key.length ++ (key ++ val))) 0
      cmqFsKeyMagic _ := ⟨Nat.zero_le _, rfl⟩
  have klen := magic.next
  have found := klen.next
  have value := found.drop_behind
  have four : cmqFsKeyMagic.length = 4 := by decide
  have fits := found.le
  have taken := klen.take
  have named := magic.take
  simp only [four, length_putLe, drop_zero]
    at fits named taken found value
  have counted : getLe (putLe 2 key.length) = key.length := by
    rw [cmqFsKeyMax] at bounds
    exact getLe_putLe (by omega)
  rw [cmqFilestoreKeyDecode, if_neg (by omega), if_neg (not_not_intro named)]
  simp only [taken, counted]
  rw [if_neg (by omega), found.take, value]

/-- What `keycompact_load` makes of the records of a log from an offset on. -/
def logEntries : Nat → List Bytes → List KcRec
  | _, [] => []
  | offset, payload :: rest =>
    keycompactRec offset payload :: logEntries (offset + fsFormat.size payload) rest

lemma keycompactRec_key (offset : Nat) (payload : Bytes) :
    (keycompactRec offset payload).key = keyOf readKeyed payload := by
  rw [keycompactRec, keyOf, readKeyed]
  cases cmqFilestoreKeyDecode payload <;> rfl

lemma keycompactRec_tombstone (offset : Nat) (payload : Bytes) :
    (keycompactRec offset payload).tombstone = tombstone readKeyed payload := by
  rw [keycompactRec, tombstone, readKeyed]
  cases cmqFilestoreKeyDecode payload with
  | none => rfl
  | some keyed =>
    by_cases empty : keyed.2.length = 0
    · simp only [map_some, if_pos empty]
      exact beq_iff_eq.mpr empty
    simp only [map_some, if_neg empty]
    exact beq_eq_false_iff_ne.mpr empty

lemma length_logEntries (offset : Nat) (records : List Bytes) :
    (logEntries offset records).length = records.length := by
  induction records generalizing offset with
  | nil => rfl
  | cons _ _ ih => rw [logEntries, length_cons, ih, length_cons]

lemma getElem_logEntries (inside : i < (logEntries offset records).length)
    (inRecords : i < records.length) :
    (logEntries offset records)[i] =
      keycompactRec (offset + fsFormat.offset records i) records[i] := by
  induction records generalizing offset i with
  | nil => cases inRecords
  | cons payload rest ih =>
    cases i with
    | zero => rfl
    | succ i =>
      have inRest : i < rest.length := Nat.lt_of_succ_lt_succ inRecords
      have next : fsFormat.offset (payload :: rest) (i + 1) =
          fsFormat.size payload + fsFormat.offset rest i := rfl
      simp only [logEntries, getElem_cons_succ]
      rw [ih _ inRest, next, Nat.add_assoc]

/-! ## Loading -/

section Load

lemma mapM_eq_some_map {α β : Type} {f : α → Option β} {g : α → β} {list : List α}
    (each : ∀ a ∈ list, f a = some (g a)) : list.mapM f = some (list.map g) := by
  induction list with
  | nil => rfl
  | cons a _ ih =>
    rw [forall_mem_cons] at each
    simp [each.1, ih each.2]

lemma Holds.keycompactLoad_eq (holds : Holds files records) :
    keycompactLoad files =
      if records.length ≤ cmqFsKeycompactMaxRecs then some (logEntries 0 records) else none := by
  have count := holds.idx_count
  have whole : ¬ files.idx.size % 8 ≠ 0 := by
    rw [holds.idx_size]
    omega
  rw [keycompactLoad, if_neg whole, count]
  by_cases few : records.length ≤ cmqFsKeycompactMaxRecs
  · have each : ∀ i ∈ List.range records.length, keycompactLoadOne files i =
        some (keycompactRec (fsFormat.offset records i) (records.getD i [])) := by
      intro i member
      have inside := mem_range.mp member
      obtain ⟨_, read, offset⟩ := map_eq_some_iff.mp (holds.begins.idxEntry_eq inside)
      simp [keycompactLoadOne, read, offset, holds.begins.copyRecord_eq inside, inside]
    rw [if_neg (not_lt.mpr few), if_pos few, mapM_eq_some_map each, Option.some.injEq]
    apply ext_getElem
    · simp [length_logEntries]
    intro i inside inEntries
    have inRecords : i < records.length := by simpa using inside
    rw [getElem_logEntries inEntries inRecords]
    simp [inRecords]
  rw [if_pos (not_le.mp few), if_neg few]

end Load

/-! ## Marking -/

lemma le_keycompactLast (key : Option Bytes) (le : last ≤ j)
    (entries : List KcRec) : last ≤ keycompactLast key last j entries := by
  induction entries generalizing last j with
  | nil => exact le_refl _
  | cons _ _ ih =>
    rw [keycompactLast]
    split
    · exact le_trans le (ih (Nat.le_succ j))
    exact ih (Nat.le_succ_of_le le)

lemma keycompactLast_eq_iff (key : Option Bytes) (less : last < j) (entries : List KcRec) :
    keycompactLast key last j entries = last ↔ ∀ other ∈ entries, other.key ≠ key := by
  induction entries generalizing last j with
  | nil => simp [keycompactLast]
  | cons other rest ih =>
    rw [keycompactLast, forall_mem_cons]
    by_cases same : other.key = key
    · have moved : j ≤ keycompactLast key j (j + 1) rest :=
        le_keycompactLast key (Nat.le_succ j) rest
      rw [if_pos same]
      exact iff_of_false (by omega) fun all => all.1 same
    rw [if_neg same, ih (by omega)]
    simp [same]

lemma forall_mem_logEntries (property : Option Bytes → Prop) (offset : Nat)
    (records : List Bytes) :
    (∀ entry ∈ logEntries offset records, property entry.key) ↔
      ∀ payload ∈ records, property (keyOf readKeyed payload) := by
  induction records generalizing offset with
  | nil => simp [logEntries]
  | cons payload _ ih => rw [logEntries, forall_mem_cons, forall_mem_cons, ih, keycompactRec_key]

lemma keycompactMark_cons (young : Bool) (i offset : Nat) (payload : Bytes) (rest : List Bytes) :
    ∃ entry : KcRec, entry.off = offset ∧ entry.len = payload.length ∧
      entry.keep = survives readKeyed young payload rest ∧
      keycompactMark young i (logEntries offset (payload :: rest)) =
        entry :: keycompactMark young (i + 1)
          (logEntries (offset + fsFormat.size payload) rest) := by
  refine ⟨_, ?_, ?_, ?_, rfl⟩
  iterate 2
    rw [keycompactRec]
    split <;> rfl
  simp only [keycompactRec_key, keycompactRec_tombstone]
  cases key : keyOf readKeyed payload with
  | none => rw [if_pos rfl, survives_of_keyless key]
  | some key' =>
    rw [if_neg (some_ne_none key'), Bool.eq_iff_iff, survives_iff key,
      Bool.and_eq_true, beq_iff_eq, keycompactLast_eq_iff _ (Nat.lt_succ_self i),
      forall_mem_logEntries fun key => key ≠ some key']
    simp

lemma length_filter_keycompactMark (young : Bool) (i offset : Nat) (records : List Bytes) :
    ((keycompactMark young i (logEntries offset records)).filter fun entry => !entry.keep).length =
      records.length - (compact readKeyed young records).length := by
  induction records generalizing i offset with
  | nil => rfl
  | cons payload rest ih =>
    have kept : (compact readKeyed young rest).length ≤ rest.length :=
      (compact_sublist rest).length_le
    obtain ⟨entry, -, -, keep, marked⟩ := keycompactMark_cons young i offset payload rest
    rw [marked, compact, filter_cons, keep]
    cases survives readKeyed young payload rest with
    | true =>
      rw [Bool.not_true, if_neg Bool.false_ne_true, if_pos rfl, ih, length_cons, length_cons]
      omega
    | false =>
      rw [Bool.not_false, if_pos rfl, if_neg Bool.false_ne_true, length_cons, ih, length_cons]
      omega

/-! ## Writing -/

section Write

lemma Holds.keycompactWrite_keep (holds : Holds written done) (valid : Payload payload)
    (place : src.bytes = front ++ (putHdr number payload ++ (payload ++ rest)))
    (start : front.length = offset) (off : entry.off = offset) (len : entry.len = payload.length)
    (keep : entry.keep = true) (dataRoom : fsFormat.extent done + fsFormat.size payload < fileLimit)
    (idxRoom : 8 * done.length + 8 < fileLimit) :
    ∃ copied, Holds copied (done ++ [payload]) ∧
      keycompactWrite src written (fsFormat.extent done) (done.length + 1) (entry :: entries) =
        keycompactWrite src copied (fsFormat.extent (done ++ [payload]))
          ((done ++ [payload]).length + 1) entries := by
  have hdr := File.readAt_of_eq place start (length_putHdr number payload)
  have buf : src.readAt (offset + cmqFsHdrSize) payload.length = some payload :=
    start ▸ readPayload_place place
  have dataFits : written.data.size + (putHdr (done.length + 1) payload ++ payload).length <
      fileLimit := by
    rw [holds.data_size, length_append, length_putHdr]
    exact dataRoom
  have idxFits : written.idx.size + (putLe 8 (fsFormat.extent done)).length < fileLimit := by
    rw [holds.idx_size]
    exact idxRoom
  obtain ⟨data, wrote, dataEq⟩ := File.append_of_fits dataFits
  obtain ⟨idx, indexed, idxEq⟩ := File.append_of_fits idxFits
  refine ⟨⟨data, idx⟩, holds.concat valid dataEq idxEq, ?_⟩
  have extent : fsFormat.extent (done ++ [payload]) =
      fsFormat.extent done + cmqFsHdrSize + payload.length := by
    rw [Format.extent_append, Format.extent, Format.extent, size_fsFormat]
    omega
  rw [keycompactWrite, keep, off, len, hdr]
  simp only [Bool.not_true, Bool.false_eq_true, if_false, bind_eq_bind, bind_some,
    buf, renumberHdr_putHdr, wrote, indexed, extent, length_append, length_singleton]

lemma Holds.keycompactWrite_eq (young : Bool) (holds : Holds written done)
    (valid : ∀ payload ∈ records, Payload payload)
    (place : src.bytes = front ++ fsFormat.data number records)
    (dataRoom : fsFormat.extent done + fsFormat.extent records < fileLimit)
    (idxRoom : 8 * (done.length + records.length) < fileLimit) :
    ∃ final, keycompactWrite src written (fsFormat.extent done) (done.length + 1)
        (keycompactMark young i (logEntries front.length records)) = some final ∧
      Holds final (done ++ compact readKeyed young records) := by
  induction records generalizing front number i written done with
  | nil => exact ⟨written, rfl, by rwa [compact, append_nil]⟩
  | cons payload rest ih =>
    rw [forall_mem_cons] at valid
    rw [Format.extent, size_fsFormat] at dataRoom
    rw [length_cons] at idxRoom
    have here : src.bytes =
        front ++ (putHdr number payload ++ (payload ++ fsFormat.data (number + 1) rest)) := by
      rw [place, Format.data]
      simp [fsFormat]
    -- the records behind this one
    have behind : src.bytes =
        (front ++ fsFormat.frame number payload) ++ fsFormat.data (number + 1) rest := by
      rw [place, Format.data, append_assoc]
    have next : (front ++ fsFormat.frame number payload).length =
        front.length + fsFormat.size payload := by
      rw [length_append, fsFormat.length_frame]
    obtain ⟨_, off, len, keep, marked⟩ := keycompactMark_cons young i front.length payload rest
    rw [marked, ← next, compact]
    cases kept : survives readKeyed young payload rest with
    | true =>
      obtain ⟨_, copiedHolds, step⟩ := holds.keycompactWrite_keep valid.1 here rfl off len
        (keep.trans kept) (by rw [size_fsFormat]; omega) (by omega)
      have extent : fsFormat.extent (done ++ [payload]) =
          fsFormat.extent done + (cmqFsHdrSize + payload.length) := by
        rw [Format.extent_append, Format.extent, size_fsFormat]
        rfl
      have length : (done ++ [payload]).length = done.length + 1 := by simp
      obtain ⟨final, rest, finalHolds⟩ := ih copiedHolds valid.2 behind (by omega) (by omega)
      refine ⟨final, step.trans rest, ?_⟩
      simpa using finalHolds
    | false =>
      obtain ⟨final, rest, finalHolds⟩ := ih holds valid.2 behind (by omega) (by omega)
      refine ⟨final, ?_, ?_⟩
      · rw [keycompactWrite, keep, kept]
        exact rest
      rw [if_neg Bool.false_ne_true]
      exact finalHolds

end Write

/-! ## Compaction -/

section Compact

variable (ttlMs nowMs writtenMs : Nat)

lemma Holds.filestoreCompactKeys_eq (holds : Holds archive.files records)
    (few : records.length ≤ cmqFsKeycompactMaxRecs) :
    ∃ files, Holds files (compact readKeyed (keepYoung ttlMs archive.mtimeMs nowMs) records) ∧
      filestoreCompactKeys ttlMs nowMs writtenMs (some archive) =
        (some ⟨files, fsMtimeMs writtenMs⟩, true) := by
  have place : archive.files.data.bytes = [] ++ fsFormat.data 1 records := holds.data
  have dataRoom : fsFormat.extent [] + fsFormat.extent records < fileLimit := by
    rw [Format.extent, Nat.zero_add, ← holds.data_size]
    exact archive.files.data.fits
  have idxRoom : 8 * (([] : List Bytes).length + records.length) < fileLimit := by
    rw [length_nil, Nat.zero_add, ← holds.idx_size]
    exact archive.files.idx.fits
  obtain ⟨files, wrote, compacted⟩ :=
    Holds.keycompactWrite_eq (i := 0) (keepYoung ttlMs archive.mtimeMs nowMs) holds_empty
      holds.payloads place dataRoom idxRoom
  refine ⟨files, compacted, ?_⟩
  simp only [Format.extent, length_nil] at wrote
  simp only [filestoreCompactKeys, holds.keycompactLoad_eq, if_pos few, wrote]

end Compact

/-- Let the archive hold a log.  If it has at most 262144 records, key compaction keeps the map from
keys to last values, every record without a key, and the order; the dirty count is the number of
records that it drops; and a second compaction drops at most tombstones. -/
theorem filestoreCompactKeys_compacts (archive : Archive) (records : List Bytes)
    (ttlMs nowMs writtenMs : Nat) (holds : Holds archive.files records) :
    (records.length ≤ cmqFsKeycompactMaxRecs →
      ∃ compacted kept,
        filestoreCompactKeys ttlMs nowMs writtenMs (some archive) = (some compacted, true) ∧
        Holds compacted.files kept ∧
        replay readKeyed kept = replay readKeyed records ∧
        kept.filter (fun payload => (keyOf readKeyed payload).isNone) =
          records.filter (fun payload => (keyOf readKeyed payload).isNone) ∧
        kept.Sublist records ∧
        (∀ askedMs, keepYoung ttlMs archive.mtimeMs askedMs =
            keepYoung ttlMs archive.mtimeMs nowMs →
          filestoreKeyDirty ttlMs askedMs (some archive) =
            some (records.length - kept.length, records.length)) ∧
        ∀ ttlMs' nowMs' writtenMs', ∃ again kept',
          filestoreCompactKeys ttlMs' nowMs' writtenMs' (some compacted) = (some again, true) ∧
          Holds again.files kept' ∧
          kept' = if keepYoung ttlMs archive.mtimeMs nowMs &&
              !keepYoung ttlMs' compacted.mtimeMs nowMs' then
            kept.filter (fun payload => !tombstone readKeyed payload) else kept) ∧
    (cmqFsKeycompactMaxRecs < records.length →
      filestoreCompactKeys ttlMs nowMs writtenMs (some archive) = (some archive, false) ∧
        filestoreKeyDirty ttlMs nowMs (some archive) = none) := by
  constructor
  · intro few
    obtain ⟨files, compacted, result⟩ := holds.filestoreCompactKeys_eq ttlMs nowMs writtenMs few
    have sublist : (compact readKeyed (keepYoung ttlMs archive.mtimeMs nowMs) records).Sublist
        records := compact_sublist records
    refine ⟨_, _, result, compacted, replay_compact records, filter_keyless_compact records,
      sublist, ?_, ?_⟩
    · intro askedMs agrees
      simp only [filestoreKeyDirty, holds.keycompactLoad_eq, if_pos few, map_some,
        length_filter_keycompactMark, length_logEntries, agrees]
    intro ttlMs' nowMs' writtenMs'
    have holds' : Holds (⟨files, fsMtimeMs writtenMs⟩ : Archive).files _ := compacted
    obtain ⟨_, compacted', result'⟩ := holds'.filestoreCompactKeys_eq ttlMs' nowMs'
      writtenMs' (le_trans sublist.length_le few)
    exact ⟨_, _, result', compacted', compact_compact _ _ records⟩
  intro many
  have load := holds.keycompactLoad_eq
  rw [if_neg (not_le.mpr many)] at load
  simp [filestoreCompactKeys, filestoreKeyDirty, load]

/-- The key `k`, written and then removed, in an archive of the second 1. -/
def sampleArchive : Archive where
  files :=
    { data := ⟨fsFormat.data 1 [cstr "CMQK" ++ [1, 0, 107, 118], cstr "CMQK" ++ [1, 0, 107]],
        by decide +kernel⟩
      idx := ⟨cells (putLe 8) (fsFormat.offsets
        [cstr "CMQK" ++ [1, 0, 107, 118], cstr "CMQK" ++ [1, 0, 107]]), by decide +kernel⟩ }
  mtimeMs := 1000

theorem filestoreCompactKeys_compacts_removed :
    ∃ compacted kept, filestoreCompactKeys 0 2000 2000 (some sampleArchive) =
        (some compacted, true) ∧
      Holds compacted.files kept ∧ replay readKeyed kept (cstr "k") = none := by
  have holds : Holds sampleArchive.files
      [cstr "CMQK" ++ [1, 0, 107, 118], cstr "CMQK" ++ [1, 0, 107]] :=
    ⟨rfl, rfl, by decide +kernel⟩
  obtain ⟨compacted, kept, result, keptHolds, replays, -⟩ :=
    (filestoreCompactKeys_compacts sampleArchive _ 0 2000 2000 holds).1 (by decide)
  refine ⟨compacted, kept, result, keptHolds, ?_⟩
  rw [replays]
  decide +kernel

/-- With a time to live of half a second, a compaction at 1.2 s keeps the tombstone, and one
at 2 s removes it. -/
theorem filestoreCompactKeys_again_removes :
    ((filestoreCompactKeys 500 1200 1200 (some sampleArchive)).1.map fun archive =>
        archive.files.idx.size / 8) = some 1 ∧
      ((filestoreCompactKeys 500 2000 2000
          (filestoreCompactKeys 500 1200 1200 (some sampleArchive)).1).1.map fun archive =>
        archive.files.idx.size / 8) = some 0 := by
  constructor <;> decide +kernel

end CMsgQueue.Store
