import CMsgQueue.Store.LogSpec

/-!
# Appending and compaction

An append writes behind the data, but takes the offset for the index from the cached end; so
it adds the record to the log if that end is right.  Compaction keeps the newest records and
numbers them from 1.
-/

namespace CMsgQueue.Store

open List IndexedLog

section Append

variable {files : Files} {fs : CmqFilestore} {data : Bytes}

def Synced (files : Files) (fs : CmqFilestore) : Prop :=
  fs.dataEndOff = uint64Max ∨ fs.idxEndOff = uint64Max ∨ fs.dataEndOff = files.data.size

instance : Decidable (Synced files fs) := inferInstanceAs (Decidable (_ ∨ _))

def AppendFits (files : Files) (data : Bytes) : Prop :=
  files.data.size + (cmqFsHdrSize + data.length) < fileLimit ∧ files.idx.size + 8 < fileLimit

instance : Decidable (AppendFits files data) := inferInstanceAs (Decidable (_ ∧ _))

/-- The handle with which an append to a log of `n` records writes. -/
def appendStart (files : Files) (fs : CmqFilestore) (n : Nat) : CmqFilestore :=
  coldStart files { fs with nextSeq := n + 1 }

lemma appendStart_nextSeq (files : Files) (fs : CmqFilestore) (n : Nat) :
    (appendStart files fs n).nextSeq = n + 1 := by
  unfold appendStart coldStart
  split <;> rfl

lemma appendStart_rotateBytes (files : Files) (fs : CmqFilestore) (n : Nat) :
    (appendStart files fs n).rotateBytes = fs.rotateBytes := by
  unfold appendStart coldStart
  split <;> rfl

lemma Synced.appendStart_dataEndOff (synced : Synced files fs) (n : Nat) :
    (appendStart files fs n).dataEndOff = files.data.size := by
  unfold appendStart coldStart
  split
  · rfl
  next known =>
  rcases synced with unknown | unknown | right
  · exact absurd (.inl unknown) known
  · exact absurd (.inr unknown) known
  exact right

lemma appendStart_of_not_synced (stale : ¬ Synced files fs) (n : Nat) :
    appendStart files fs n = { fs with nextSeq := n + 1 } := by
  rw [appendStart, coldStart, if_neg]
  exact fun unknown => stale (unknown.imp_right .inl)

lemma Holds.concat (holds : Holds files records) (valid : Payload data)
    (dataEq : written.data.bytes = files.data.bytes ++ (putHdr (records.length + 1) data ++ data))
    (idxEq : written.idx.bytes = files.idx.bytes ++ putLe 8 (fsFormat.extent records)) :
    Holds written (records ++ [data]) := by
  constructor
  · rw [dataEq, holds.data, Format.data_append, Nat.add_comm 1]
    simp [Format.data, fsFormat]
  · rw [idxEq, holds.idx, Format.offsets_concat]
    simp [cells]
  exact forall_mem_append.mpr ⟨holds.payloads, forall_mem_singleton.mpr valid⟩

/-- The writes of an append go through if both files have room, and leave the data cut off at
the cached end if not. -/
lemma appendWrites_cases (inside : fs.dataEndOff ≤ files.data.size) :
    (¬ AppendFits files data ∧ appendWrites files fs data =
      .inr { files with data := files.data.truncate fs.dataEndOff }) ∨
    (AppendFits files data ∧ ∃ written : Files,
      written.data.bytes = files.data.bytes ++ (putHdr fs.nextSeq data ++ data) ∧
      written.idx.bytes = files.idx.bytes ++ putLe 8 fs.dataEndOff ∧
      appendWrites files fs data = .inl written) := by
  have frame : (putHdr fs.nextSeq data ++ data).length = cmqFsHdrSize + data.length := by
    rw [length_append, length_putHdr]
  unfold appendWrites
  cases wrote : files.data.append (putHdr fs.nextSeq data ++ data) with
  | none =>
    rw [File.append_eq_none, frame] at wrote
    exact .inl ⟨fun fits => absurd fits.1 (Nat.not_lt.mpr wrote), rfl⟩
  | some written =>
    have dataRoom : files.data.size + (cmqFsHdrSize + data.length) < fileLimit := by
      by_contra full
      rw [File.append_eq_none.mpr (by rw [frame]; omega)] at wrote
      cases wrote
    rw [File.append_eq_some] at wrote
    cases indexed : files.idx.append (putLe 8 fs.dataEndOff) with
    | none =>
      have full := File.append_eq_none.mp indexed
      have cut : written.truncate fs.dataEndOff = files.data.truncate fs.dataEndOff := by
        have inside' : fs.dataEndOff ≤ written.size := by
          rw [File.size] at inside ⊢
          rw [wrote, length_append]
          omega
        rw [File.ext_iff, File.truncate_bytes inside', File.truncate_bytes inside, wrote,
          take_append_of_le_length inside]
      refine .inl ⟨fun fits => absurd fits.2 (Nat.not_lt.mpr full), ?_⟩
      simp only [indexed, cut]
    | some idx =>
      have idxRoom : files.idx.size + 8 < fileLimit := by
        by_contra full
        rw [File.append_eq_none.mpr (by rw [length_putLe]; omega)] at indexed
        cases indexed
      exact .inr ⟨⟨dataRoom, idxRoom⟩, ⟨written, idx⟩, wrote, File.append_eq_some.mp indexed,
        by simp only [indexed]⟩

/-- An append to a log writes at the cached end, as the handle has it after a cold start. -/
lemma Holds.filestoreAppend_eq (holds : Holds disk.live records) (valid : Payload data)
    (inside : (appendStart disk.live fs records.length).dataEndOff ≤ disk.live.data.size) :
    filestoreAppend disk fs nowMs data =
      match appendWrites disk.live (appendStart disk.live fs records.length) data with
      | .inr live => ⟨{ disk with live }, appendStart disk.live fs records.length, none, false⟩
      | .inl live =>
        let fs := advance (appendStart disk.live fs records.length) data.length
        if rotates fs then
          ⟨(rotateArchive { disk with live } fs nowMs).1,
            (rotateArchive { disk with live } fs nowMs).2, some (records.length + 1), true⟩
        else ⟨{ disk with live }, fs, some (records.length + 1), false⟩ := by
  have numbered := holds.begins.numbered
  have dataFits : disk.live.data.size < fileLimit := disk.live.data.fits
  have short := valid.2
  have accepted : ¬ (data.length = 0 ∨ data.length > cmqFsMaxLen) := by
    have positive := valid.1
    omega
  have more : records.length + 1 ≠ uint64Max := by
    rw [uint64Max]
    omega
  have room : ¬ (appendStart disk.live fs records.length).dataEndOff >
      uint64Max - cmqFsHdrSize - data.length := by
    rw [cmqFsMaxLen] at short
    rw [fileLimit] at dataFits
    rw [uint64Max, cmqFsHdrSize]
    omega
  rw [filestoreAppend, if_neg accepted]
  simp only [holds.refreshTruncate_eq, holds.refreshNextSeq_eq, if_neg more]
  rw [← appendStart, if_neg room]
  cases appendWrites disk.live (appendStart disk.live fs records.length) data with
  | inr live => rfl
  | inl live => simp only [appendStart_nextSeq]

end Append

section Compact

variable (fs : CmqFilestore)

lemma Holds.compactCopyOne_eq (holds : Holds files records) (inside : i < records.length)
    (new : Nat) :
    compactCopyOne files (i + 1) new = some (putHdr new records[i] ++ records[i]) := by
  rw [compactCopyOne, Nat.add_sub_cancel, holds.begins.idxEntry_eq inside]
  simp [holds.begins.copyRecord_eq inside, renumberHdr_putHdr]

/-- The copy loop, from a state in which it has copied the first `i` records to keep. -/
lemma Holds.compactCopy_eq (holds : Holds files (front ++ kept)) {count i : Nat} {written : Files}
    (rounds : i + count = kept.length) (copied : Holds written (kept.take i)) :
    ∃ final, compactCopy files (front.length + 1) count i written
        (fsFormat.extent (kept.take i)) = some (final, fsFormat.extent kept) ∧
      Holds final kept := by
  induction count generalizing i written with
  | zero =>
    rw [take_of_length_le (by omega)] at copied ⊢
    exact ⟨written, rfl, copied⟩
  | succ count ih =>
    have inside : i < kept.length := by omega
    have inRecords : front.length + i < (front ++ kept).length := by
      rw [length_append]
      omega
    have record : (front ++ kept)[front.length + i] = kept[i] := by simp
    have valid : Payload kept[i] :=
      holds.payloads _ (mem_append_right _ (getElem_mem inside))
    have next := take_succ_eq_append_getElem inside
    have length : (kept.take i).length = i := by
      rw [length_take]
      omega
    -- what is copied has room, since the files of the whole log have it
    have extent : fsFormat.extent (kept.take i) + (cmqFsHdrSize + kept[i].length) =
        fsFormat.extent (kept.take (i + 1)) := by
      rw [next, Format.extent_append]
      rfl
    have dataRoom : fsFormat.extent (kept.take (i + 1)) < fileLimit := by
      have whole := holds.data_size
      have fits : files.data.size < fileLimit := files.data.fits
      have below : fsFormat.extent (kept.take (i + 1)) ≤ fsFormat.extent kept :=
        Format.offset_le_extent kept (i + 1)
      rw [Format.extent_append] at whole
      omega
    have idxRoom : 8 * i + 8 < fileLimit := by
      have whole := holds.idx_size
      have fits : files.idx.size < fileLimit := files.idx.fits
      omega
    have dataFits : written.data.size + (putHdr (i + 1) kept[i] ++ kept[i]).length <
        fileLimit := by
      rw [copied.data_size, length_append, length_putHdr]
      omega
    have idxFits : written.idx.size + (putLe 8 (fsFormat.extent (kept.take i))).length <
        fileLimit := by
      rw [copied.idx_size, length_putLe]
      omega
    obtain ⟨data, wrote, dataEq⟩ := File.append_of_fits dataFits
    obtain ⟨idx, indexed, idxEq⟩ := File.append_of_fits idxFits
    have grown : Holds ⟨data, idx⟩ (kept.take (i + 1)) := by
      rw [next]
      apply copied.concat valid
      · rw [dataEq, length]
      exact idxEq
    obtain ⟨final, rest, holdsFinal⟩ := ih (by omega) grown
    refine ⟨final, ?_, holdsFinal⟩
    rw [compactCopy, show front.length + 1 + i = front.length + i + 1 by omega,
      holds.compactCopyOne_eq inRecords, record]
    simp only [Option.bind_eq_bind, Option.bind_some, wrote, indexed, length_append, length_putHdr]
    rw [extent]
    exact rest

lemma Holds.compactCopy_newest (holds : Holds files records) {retain : Nat}
    (more : retain < records.length) :
    ∃ final, compactCopy files (records.length - retain + 1) retain 0 .empty 0 =
        some (final, fsFormat.extent (records.drop (records.length - retain))) ∧
      Holds final (records.drop (records.length - retain)) := by
  have front : (records.take (records.length - retain)).length = records.length - retain := by
    rw [length_take]
    omega
  have rounds : 0 + retain = (records.drop (records.length - retain)).length := by
    rw [length_drop]
    omega
  have split := take_append_drop (records.length - retain) records
  have copied := Holds.compactCopy_eq (split.symm ▸ holds) rounds holds_empty
  rwa [front, take_zero] at copied

lemma Holds.filestoreCompact_newest (holds : Holds files records)
    (more : retain < records.length) :
    ∃ final, Holds final (records.drop (records.length - retain)) ∧
      filestoreCompact files fs retain = (final,
        { fs with
          nextSeq := retain + 1
          dataEndOff := fsFormat.extent (records.drop (records.length - retain))
          idxEndOff := retain * 8 }, true) := by
  rw [filestoreCompact]
  simp only [holds.refreshTruncate_eq, holds.refreshNextSeq_eq, Nat.add_sub_cancel]
  rw [if_neg (by omega)]
  by_cases none : retain = 0
  · have dropped : records.drop (records.length - retain) = [] := by
      rw [none, Nat.sub_zero, drop_length]
    have cut : (⟨files.data.truncate 0, files.idx.truncate 0⟩ : Files) = .empty := by
      simp [Files.empty, File.ext_iff, File.truncate_bytes (Nat.zero_le _)]
    rw [dropped, cut]
    exact ⟨.empty, holds_empty, by simp [none, Format.extent]⟩
  rw [if_neg none]
  obtain ⟨final, copied, holdsFinal⟩ := holds.compactCopy_newest more
  exact ⟨final, holdsFinal, by rw [copied]⟩

end Compact

end CMsgQueue.Store
