import CMsgQueue.Store.FilestoreRun

/-!
# Recovery after a crash during an append

An append writes its frame to the data file and its cell to the index.  A crash may leave any
part of either.  Opening the store then gives back the log as it was, or with the interrupted
record if both parts were complete; unless an earlier append took a wrong end for its cell, whose
record the repair then drops.
-/

namespace CMsgQueue.Store

open List IndexedLog Runs

/-- What a crash during an append leaves: of each file, any prefix of what was appended. -/
structure Torn (before after crashed : Files) : Prop where
  data : before.data.bytes <+: crashed.data.bytes
  dataPart : crashed.data.bytes <+: after.data.bytes
  idx : before.idx.bytes <+: crashed.idx.bytes
  idxPart : crashed.idx.bytes <+: after.idx.bytes

lemma prefix_split (front : before <+: torn)
    (part : torn <+: before ++ added) : ∃ extra, torn = before ++ extra ∧ extra <+: added := by
  obtain ⟨extra, rfl⟩ := front
  exact ⟨extra, rfl, (prefix_append_right_inj before).mp part⟩

section Crash

variable {before after crashed : Files} {records : List Bytes} {data : Bytes}

lemma readRecord_torn (numbered : seq < 2 ^ 64) (valid : Payload data)
    (whole : file.bytes = front ++ extra) (part : extra <+: putHdr seq data ++ data)
    (short : extra ≠ putHdr seq data ++ data) : readRecord file front.length seq = none := by
  have size : file.size = front.length + extra.length := by rw [File.size, whole, length_append]
  have less : extra.length < cmqFsHdrSize + data.length := by
    have bound := part.length_le
    rw [length_append] at bound
    rcases lt_or_eq_of_le bound with less | same
    · exact less
    refine absurd (part.eq_of_length ?_) short
    rw [same, length_append, length_putHdr]
  by_cases cmqFsHdrSize ≤ extra.length
  · -- the header is there, so its length tells that the payload is not
    have hdr : putHdr seq data <+: extra := by
      apply prefix_of_prefix_length_le (prefix_append _ _) part
      rwa [length_putHdr]
    obtain ⟨_, rfl⟩ := hdr
    have missing : ¬ front.length + cmqFsHdrSize + data.length ≤ file.size := by omega
    rw [readRecord, readHdr_place numbered valid whole]
    simp [File.readAt, missing]
  have missing : ¬ front.length + cmqFsHdrSize ≤ file.size := by omega
  simp [readRecord, readHdr, File.readAt, missing]

/-- Opening what a crash left gives back the log without or with the interrupted record. -/
lemma Torn.cmqFilestoreCreate_eq (torn : Torn before after crashed) (holds : Holds before records)
    (valid : Payload data) (appended : Holds after (records ++ [data])) :
    ∃ opened recovered, (recovered = records ∨ recovered = records ++ [data]) ∧
      Holds opened recovered ∧
      cmqFilestoreCreate crashed = some (opened, .opened recovered.length) := by
  have numbered := holds.begins.numbered
  have dataAfter : after.data.bytes =
      before.data.bytes ++ (putHdr (records.length + 1) data ++ data) := by
    rw [appended.data, Format.data_append, ← holds.data, Nat.add_comm 1]
    simp [Format.data, fsFormat]
  have idxAfter : after.idx.bytes = before.idx.bytes ++ putLe 8 (fsFormat.extent records) := by
    rw [appended.idx, Format.offsets_concat, cells_append, ← holds.idx]
    simp [cells]
  obtain ⟨frame, dataEq, framePart⟩ := prefix_split torn.data (dataAfter ▸ torn.dataPart)
  obtain ⟨cell, idxEq, cellPart⟩ := prefix_split torn.idx (idxAfter ▸ torn.idxPart)
  have begins : Begins crashed records :=
    ⟨holds.data ▸ torn.data, holds.idx ▸ torn.idx, holds.payloads⟩
  have idxSize : crashed.idx.size = 8 * records.length + cell.length := by
    rw [File.size, idxEq, length_append, ← holds.idx_size, File.size]
  have cellShort := cellPart.length_le
  rw [length_putLe] at cellShort
  by_cases complete : frame = putHdr (records.length + 1) data ++ data ∧ cell.length = 8
  · -- both parts were written
    have cellEq := cellPart.eq_of_length (complete.2.trans (length_putLe 8 _).symm)
    have whole : Holds crashed (records ++ [data]) := by
      apply holds.concat valid
      · rw [dataEq, complete.1]
      rw [idxEq, cellEq]
    exact ⟨crashed, _, .inr rfl, whole, whole.cmqFilestoreCreate_eq⟩
  have ended : crashed.idx.size / 8 = records.length ∨
      lookupRecord crashed (records.length + 1) = none := by
    rcases lt_or_eq_of_le cellShort with _ | full
    · left
      omega
    right
    have cellEq := cellPart.eq_of_length (full.trans (length_putLe 8 _).symm)
    have cut : frame ≠ putHdr (records.length + 1) data ++ data := fun eq => complete ⟨eq, full⟩
    have place : crashed.idx.bytes =
        before.idx.bytes ++ (putLe 8 (fsFormat.extent records) ++ []) := by
      rw [idxEq, cellEq, append_nil]
    have start : before.idx.bytes.length = records.length * 8 := by
      rw [Nat.mul_comm]
      exact holds.idx_size
    have front := holds.data_size
    have fits : fsFormat.extent records < fileLimit := front ▸ before.data.fits
    rw [lookupRecord, Nat.add_sub_cancel, idxEntry_place place start
      (lt_trans fits (by decide)), ← front]
    exact readRecord_torn (by omega) valid dataEq framePart cut
  obtain ⟨opened, created, recovered⟩ := begins.cmqFilestoreCreate_eq ended
  exact ⟨opened, records, .inl rfl, recovered, created⟩

end Crash

lemma Torn.eq_of_same (torn : Torn before before crashed) : crashed = before := by
  cases crashed
  rw [Files.mk.injEq, File.ext_iff, File.ext_iff]
  exact ⟨torn.dataPart.eq_of_length_le torn.data.length_le,
    torn.idxPart.eq_of_length_le torn.idx.length_le⟩

lemma filestoreRead_created (created : cmqFilestoreCreate files = some (opened, fs))
    (positive : seq ≠ 0) (unread : lookupRecord files seq = none) :
    (filestoreRead opened fs seq).2 = none := by
  obtain ⟨-, -, found, -⟩ := leading_spec (fun i => (lookupRecord files (i + 1)).isSome)
    (files.idx.size / 8) 0
  have past : readable files < seq := by
    by_contra inside
    have number : seq - 1 + 1 = seq := by omega
    have read := found (seq - 1) (Nat.zero_le _) (by rw [← readable]; omega)
    simp only [number, unread] at read
    cases read
  obtain ⟨_, created', index, -⟩ := cmqFilestoreCreate_spec files
  rw [created, Option.some.injEq] at created'
  obtain ⟨rfl, -⟩ := created'
  have size : opened.idx.size = readable files * 8 := by
    rw [index, File.size_truncate (readable_le files)]
  rw [filestoreRead_eq_lookup _ _ positive, lookupRecord_past (by omega)]

namespace FsSystem

variable {s : FsSystem}

/-- The files after the writes of an append.  A rotation would come behind them. -/
def appending (s : FsSystem) (nowMs : Nat) (data : Bytes) : Files :=
  ((s.step (.setRotateBytes 0)).step (.append nowMs data)).disk.live

/-- Let a crash leave any part of what one further append writes.  Opening gives back the
completed records, and at most the interrupted one in full; opening again changes nothing. -/
def CrashRecovers (s : FsSystem) : Prop :=
  ∀ nowMs data crashed, Torn s.disk.live (s.appending nowMs data) crashed →
    ∃ opened fs recovered, cmqFilestoreCreate crashed = some (opened, fs) ∧
      (recovered = s.records ∨ recovered = s.records ++ [data]) ∧
      (∀ seq, (filestoreRead opened fs seq).2 =
        if seq = 0 then none else recovered[seq - 1]?) ∧
      cmqFilestoreCreate opened = some (opened, fs)

/-- An append writes nothing, or it adds its record, or its cell names the start of the data. -/
lemma Inv.appending_cases (inv : Inv s) (nowMs : Nat) (data : Bytes) :
    s.appending nowMs data = s.disk.live ∨
    (Payload data ∧ Holds (s.appending nowMs data) (s.records ++ [data])) ∨
    (0 < s.disk.live.data.size ∧
      ((s.appending nowMs data).data.bytes = [] ∨
        (s.appending nowMs data).idx.bytes = s.disk.live.idx.bytes ++ putLe 8 0)) := by
  have inv' : Inv (s.step (.setRotateBytes 0)) := inv_step inv (.setRotateBytes 0) trivial
  have capless : ∀ fs, (s.step (.setRotateBytes 0)).handle = some fs → fs.rotateBytes = 0 := by
    intro _ opened
    obtain ⟨_, -, rfl⟩ := Option.map_eq_some_iff.mp opened
    rfl
  rw [appending, show s.disk = (s.step (.setRotateBytes 0)).disk from rfl,
    show s.records = (s.step (.setRotateBytes 0)).records from rfl]
  generalize s.step (.setRotateBytes 0) = s at inv' capless
  cases opened : s.handle with
  | none =>
    left
    simp only [step, opened]
  | some fs =>
    by_cases valid : Payload data
    · by_cases synced : Synced s.disk.live fs
      · obtain ⟨result, appended, -, -, outcome⟩ := inv'.holds.append_synced nowMs valid synced
        rw [step_append opened appended]
        rcases outcome with ⟨-, -, unchanged⟩ | ⟨-, -, -, holds⟩ | ⟨-, -, capped, -⟩
        · exact .inl (by rw [unchanged])
        · exact .inr (.inl ⟨valid, holds⟩)
        exact absurd (capless fs opened) capped
      right; right
      have zero := (inv'.cached fs opened).resolve_left synced
      have started := appendStart_of_not_synced synced s.records.length
      have atZero : (appendStart s.disk.live fs s.records.length).dataEndOff = 0 := by
        rw [started]
        exact zero
      have inside : (appendStart s.disk.live fs s.records.length).dataEndOff ≤
          s.disk.live.data.size := by
        rw [atZero]
        exact Nat.zero_le _
      refine ⟨Nat.pos_of_ne_zero fun empty => synced (.inr (.inr (zero.trans empty.symm))), ?_⟩
      rw [step_append opened (inv'.holds.filestoreAppend_eq valid inside)]
      rcases appendWrites_cases inside with ⟨-, wrote⟩ | ⟨-, written, -, idxEq, wrote⟩
      · left
        rw [wrote]
        simp only [atZero, File.truncate_bytes (Nat.zero_le _), take_zero]
      right
      have stays : rotates (advance (appendStart s.disk.live fs s.records.length) data.length) =
          false := by
        simp [rotates, advance, appendStart_rotateBytes, capless fs opened]
      rw [wrote]
      simp only [stays, Bool.false_eq_true, if_false, idxEq, atZero]
    rw [step_append opened (filestoreAppend_of_not_payload valid)]
    exact .inl rfl

lemma Inv.crashRecovers (inv : Inv s) : CrashRecovers s := by
  intro nowMs data crashed torn
  have recovers : ∀ {opened recovered}, (recovered = s.records ∨ recovered = s.records ++ [data]) →
      Holds opened recovered →
      cmqFilestoreCreate crashed = some (opened, .opened recovered.length) → ∃ opened fs recovered,
        cmqFilestoreCreate crashed = some (opened, fs) ∧
        (recovered = s.records ∨ recovered = s.records ++ [data]) ∧
        (∀ seq, (filestoreRead opened fs seq).2 = if seq = 0 then none else recovered[seq - 1]?) ∧
        cmqFilestoreCreate opened = some (opened, fs) := fun which holds created =>
    ⟨_, _, _, created, which, holds.filestoreRead_eq _, holds.cmqFilestoreCreate_eq⟩
  rcases inv.appending_cases nowMs data with same | ⟨valid, added⟩ | ⟨some, wrote⟩
  · rw [same] at torn
    rw [torn.eq_of_same] at recovers ⊢
    exact recovers (.inl rfl) inv.holds inv.holds.cmqFilestoreCreate_eq
  · obtain ⟨_, _, which, holds, created⟩ := torn.cmqFilestoreCreate_eq inv.holds valid added
    exact recovers which holds created
  -- the cell for the start is dropped again
  have begins : Begins crashed s.records :=
    ⟨inv.holds.data ▸ torn.data, inv.holds.idx ▸ torn.idx, inv.holds.payloads⟩
  rcases wrote with cut | idxAfter
  · have none := (torn.data.trans torn.dataPart).length_le
    rw [cut, length_nil] at none
    exact absurd some (not_lt.mpr none)
  obtain ⟨cell, idxEq, cellPart⟩ := prefix_split torn.idx (idxAfter ▸ torn.idxPart)
  have cellShort := cellPart.length_le
  rw [length_putLe] at cellShort
  have length : s.disk.live.idx.bytes.length = s.records.length * 8 := by
    rw [Nat.mul_comm]
    exact inv.holds.idx_size
  have ended : crashed.idx.size / 8 = s.records.length ∨
      lookupRecord crashed (s.records.length + 1) = none := by
    rcases lt_or_eq_of_le cellShort with _ | full
    · left
      rw [File.size, idxEq, length_append]
      omega
    right
    have cellEq := cellPart.eq_of_length (full.trans (length_putLe 8 _).symm)
    have records : 0 < s.records.length := by
      by_contra none
      have empty : s.records = [] := length_eq_zero_iff.mp (by omega)
      rw [inv.holds.data_size, empty] at some
      exact lt_irrefl _ some
    have place : crashed.idx.bytes = s.disk.live.idx.bytes ++ (putLe 8 0 ++ []) := by
      rw [idxEq, cellEq, append_nil]
    exact lookupRecord_zero_cell begins records (idxEntry_place place length (by decide))
  obtain ⟨_, created, holds⟩ := begins.cmqFilestoreCreate_eq ended
  exact recovers (.inl rfl) holds created

lemma not_crashRecovers (seq : Nat) (positive : seq ≠ 0) (appended : s.records[seq - 1]? = some payload)
    (unread : lookupRecord s.disk.live seq = none) : ¬ CrashRecovers s := by
  intro recovers
  -- an append without data is refused and writes nothing
  have same : s.appending 0 [] = s.disk.live := by
    have refused : ¬ Payload [] := fun valid => absurd valid.1 (by decide)
    unfold appending
    cases opened : (s.step (.setRotateBytes 0)).handle with
    | none =>
      simp only [step] at opened ⊢
      simp only [opened]
    | some =>
      rw [step_append opened (filestoreAppend_of_not_payload refused)]
      rfl
  obtain ⟨_, _, recovered, created, which, reads, -⟩ := recovers 0 [] s.disk.live
    (same ▸ ⟨prefix_refl _, prefix_refl _, prefix_refl _, prefix_refl _⟩)
  have read := reads seq
  rw [filestoreRead_created created positive unread, if_neg positive] at read
  rcases which with rfl | rfl
  · rw [appended] at read
    cases read
  rw [getElem?_append_left (List.getElem?_eq_some_iff.mp appended).1, appended] at read
  cases read

/-- A crash during a further append is recovered from in every state of a run if and only if
every append of the run finds the cached end of the data unknown or right, or is followed by a
rotation.  The CRC of the repair is always that of the append. -/
theorem run_crash_recovers_iff (events : List FsEvent) :
    ((∀ n, CrashRecovers (run (events.take n))) ↔ Meets step AppendSynced start events) ∧
    ∀ (file : File) (pos len : Nat), pos + len ≤ file.size →
      (repairCrc file len pos len 0xFFFFFFFF).map (~~~ ·) =
        some (crc32Compute ((file.bytes.drop pos).take len)) := by
  constructor
  · have needed : ∀ s event, Inv s → CrashRecovers (step s event) → AppendSynced s event := by
      intro s event inv recovers
      cases event with
      | append =>
        by_contra failed
        obtain ⟨_, _, _, -, positive, appended, unread⟩ := lost_of_not_appendSynced inv failed
        exact not_crashRecovers _ positive appended unread recovers
      | create | close | read | compact | setRotateBytes => trivial
    exact Meets.iff_property (fun _ => Inv.crashRecovers) (fun _ event inv => inv_step inv event)
      needed inv_start
  intro file pos len inside
  rw [repairCrc_eq _ (le_refl _) inside]
  rfl

/-- A store is reopened with one record in it, a second one is appended, and the process ends
before a third one is written: only the first record is recovered. -/
theorem crash_loses_completed :
    let s := run [.create, .append 0 [1], .close, .create, .append 0 [2]]
    s.records = [[1], [2]] ∧ Torn s.disk.live (s.appending 0 [3]) s.disk.live ∧
      (cmqFilestoreCreate s.disk.live).map Prod.snd = some (.opened 1) ∧ ¬ CrashRecovers s := by
  intro s
  have kept : s.records = [[1], [2]] := by decide +kernel
  refine ⟨kept, ⟨prefix_refl _, by decide +kernel, prefix_refl _, by decide +kernel⟩,
    by decide +kernel, ?_⟩
  have second : s.records[2 - 1]? = some [2] := by rw [kept]; rfl
  exact not_crashRecovers 2 (by decide) second (by decide +kernel)

end FsSystem

end CMsgQueue.Store
