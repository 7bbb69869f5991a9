import CMsgQueue.Store.LogSpec

/-!
# Reading a range

The range reader checks neither the version of a record, nor its number, nor its CRC.  It stops
after 65536 records, and for a range that begins behind the last record its arithmetic wraps.
-/

namespace CMsgQueue.Store

open Option List

/-! ## What the two readers check -/

/-- The bytes at an offset have the magic number and a valid length, and are all there. -/
def framed (data : File) (offset : Nat) : Bool :=
  (readHdr data offset).any fun hdr =>
    hdr.magic == cmqFsMagic && !badLen hdr.len && offset + cmqFsHdrSize + hdr.len ≤ data.size

/-- The header at an offset has the version, a number, and the CRC of the bytes behind it. -/
def checked (data : File) (offset seq : Nat) : Bool :=
  (readHdr data offset).any fun hdr =>
    hdr.version == cmqFsVersion && hdr.seq == seq &&
      (crc32Compute ((data.bytes.drop (offset + cmqFsHdrSize)).take hdr.len)).toNat == hdr.crc

lemma isSome_rangeRecord (data : File) (offset : Nat) :
    (rangeRecord data offset).isSome = framed data offset := by
  rw [rangeRecord, framed]
  cases readHdr data offset with
  | none => rfl
  | some hdr =>
    simp only [bind_eq_bind, bind_some, any_some]
    by_cases magic : hdr.magic = cmqFsMagic
    · cases bad : badLen hdr.len with
      | true => simp [magic]
      | false =>
        by_cases inside : offset + cmqFsHdrSize + hdr.len ≤ data.size
        · simp [magic, File.readAt, inside]
        simp [File.readAt, inside]
    simp [magic]

/-- The reader of one record makes the checks of the range reader, and more. -/
lemma readRecord_eq_rangeRecord (data : File) (offset seq : Nat) :
    readRecord data offset seq =
      if checked data offset seq then rangeRecord data offset else none := by
  rw [readRecord, rangeRecord, checked]
  cases readHdr data offset with
  | none => rfl
  | some hdr =>
    simp only [bind_eq_bind, bind_some]
    by_cases magic : hdr.magic = cmqFsMagic
    · by_cases version : hdr.version = cmqFsVersion
      · by_cases number : hdr.seq = seq
        · cases bad : badLen hdr.len with
          | true => simp [magic]
          | false =>
            by_cases inside : offset + cmqFsHdrSize + hdr.len ≤ data.size
            · simp [magic, version, number, File.readAt, inside]
            simp [File.readAt, inside]
        simp [number]
      simp [version]
    simp [magic]

/-! ## Slots of the index -/

/-- The record of slot `i` as the range reader finds it. -/
def rangeSlot (files : Files) (i : Nat) : Option Bytes :=
  (idxEntry files.idx i).bind (rangeRecord files.data)

def framedAt (files : Files) (seq : Nat) : Bool :=
  (idxEntry files.idx (seq - 1)).any (framed files.data)

/-- The cell of a number points to a header that passes the other checks. -/
def checkedAt (files : Files) (seq : Nat) : Bool :=
  (idxEntry files.idx (seq - 1)).any fun offset => checked files.data offset seq

lemma isSome_rangeSlot (files : Files) (seq : Nat) :
    (rangeSlot files (seq - 1)).isSome = framedAt files seq := by
  rw [rangeSlot, framedAt]
  cases idxEntry files.idx (seq - 1) with
  | none => rfl
  | some offset => exact isSome_rangeRecord files.data offset

lemma lookupRecord_eq_rangeSlot (files : Files) (seq : Nat) :
    lookupRecord files seq =
      if checkedAt files seq then rangeSlot files (seq - 1) else none := by
  rw [lookupRecord, rangeSlot, checkedAt]
  cases idxEntry files.idx (seq - 1) with
  | none => rfl
  | some offset => exact readRecord_eq_rangeRecord files.data offset seq

lemma lookupRecord_eq_none_iff (files : Files) (seq : Nat) :
    lookupRecord files seq = none ↔ ¬ (framedAt files seq ∧ checkedAt files seq) := by
  rw [lookupRecord_eq_rangeSlot, ← isSome_rangeSlot]
  cases checkedAt files seq <;> simp

/-! ## Visits -/

/-- The visits of slots that have a record, numbered from `lo` on. -/
def visits (lo count : Nat) (slot : Nat → Option Bytes) : List (Nat × Bytes) :=
  (List.range count).filterMap fun i => (slot i).map fun payload => (lo + i, payload)

lemma mem_visits {lo count i : Nat} {payload : Bytes} :
    (lo + i, payload) ∈ visits lo count slot ↔ i < count ∧ slot i = some payload := by
  rw [visits, mem_filterMap]
  constructor
  · rintro ⟨j, member, found⟩
    obtain ⟨_, here, same⟩ := map_eq_some_iff.mp found
    rw [Prod.mk.injEq, Nat.add_left_cancel_iff] at same
    obtain ⟨rfl, rfl⟩ := same
    exact ⟨mem_range.mp member, here⟩
  rintro ⟨inside, here⟩
  exact ⟨i, mem_range.mpr inside, by rw [here]; rfl⟩

lemma visits_add {lo count more : Nat}
    (none : ∀ i, count ≤ i → i < count + more → slot i = none) :
    visits lo (count + more) slot = visits lo count slot := by
  induction more with
  | zero => rfl
  | succ more ih =>
    have last : slot (count + more) = Option.none := none _ (by omega) (by omega)
    rw [visits, ← Nat.add_assoc, range_succ, filterMap_append, ← visits,
      ih fun i low _ => none i low (by omega)]
    simp [last]

lemma visits_eq_iff {lo count count' : Nat} {slot slot' : Nat → Option Bytes}
    (less : count ≤ count') :
    visits lo count slot = visits lo count' slot' ↔
      (∀ i, i < count → slot i = slot' i) ∧ ∀ i, count ≤ i → i < count' → slot' i = none := by
  constructor
  · intro same
    have each : ∀ i payload, (i < count ∧ slot i = some payload) ↔
        (i < count' ∧ slot' i = some payload) := by
      intro i payload
      have members : (lo + i, payload) ∈ visits lo count slot ↔
          (lo + i, payload) ∈ visits lo count' slot' := by rw [same]
      rwa [mem_visits, mem_visits] at members
    constructor
    · intro i inside
      apply Option.ext
      intro payload
      have here := each i payload
      simpa [inside, lt_of_lt_of_le inside less] using here
    intro i low high
    rw [eq_none_iff_forall_ne_some]
    intro payload found
    exact absurd ((each i payload).mpr ⟨high, found⟩).1 (not_lt.mpr low)
  rintro ⟨front, back⟩
  obtain ⟨_, rfl⟩ := Nat.exists_eq_add_of_le less
  rw [visits_add back]
  refine filterMap_congr fun i member => ?_
  rw [front i (mem_range.mp member)]

lemma visits_eq_nil_iff {lo count : Nat} :
    visits lo count slot = [] ↔ ∀ i, i < count → slot i = none := by
  have nothing : visits lo 0 slot = [] := rfl
  rw [← nothing, eq_comm, visits_eq_iff (Nat.zero_le count)]
  simp

/-! ## The range reader -/

section Range

variable {files : Files} {lo hi base count : Nat}

lemma rangeVisits_eq (block : files.idx.readAt (base * 8) (count * 8) = some cells) :
    rangeVisits files.data lo count cells =
      visits lo count fun i => rangeSlot files (base + i) := by
  obtain ⟨_, rfl⟩ := File.readAt_eq_some.mp block
  apply filterMap_congr
  intro i member
  have less := mem_range.mp member
  have cell : idxEntry files.idx (base + i) = some (getLe
      ((((files.idx.bytes.drop (base * 8)).take (count * 8)).drop (i * 8)).take 8)) := by
    rw [idxEntry, File.readAt, if_pos (by omega), map_some, drop_take, take_take,
      drop_drop, min_eq_left (by omega), Nat.add_mul]
  simp only [rangeSlot, cell, bind_some]

lemma filestoreReadRange_eq (positive : 0 < lo) (order : lo ≤ hi)
    (start : (lo - 1) * 8 % 2 ^ 64 = base * 8)
    (cells : min ((min hi (files.idx.size / 8) + 2 ^ 64 - lo + 1) % 2 ^ 64) rangeMax = count) :
    filestoreReadRange files lo hi =
      some (if base + count ≤ files.idx.size / 8 then
        visits lo count fun i => rangeSlot files (base + i) else []) := by
  have wrong : ¬ (lo = 0 ∨ hi < lo) := by omega
  have clipped : (if hi ≥ files.idx.size / 8 + 1 then files.idx.size / 8 + 1 - 1 else hi) =
      min hi (files.idx.size / 8) := by
    split <;> omega
  have inside : base * 8 + count * 8 ≤ files.idx.size ↔ base + count ≤ files.idx.size / 8 := by
    omega
  rw [filestoreReadRange, if_neg wrong]
  simp only [clipped, start, cells]
  by_cases here : base + count ≤ files.idx.size / 8
  · have block : files.idx.readAt (base * 8) (count * 8) = some _ :=
      if_pos (inside.mpr here)
    rw [if_pos here]
    simp only [block, rangeVisits_eq block]
  have block : files.idx.readAt (base * 8) (count * 8) = none :=
    if_neg (mt inside.mp here)
  rw [if_neg here]
  simp only [block]

lemma idxEntry_past (past : files.idx.size / 8 ≤ i) : idxEntry files.idx i = none := by
  rw [idxEntry, File.readAt, if_neg (by omega)]
  rfl

lemma framedAt_past (past : files.idx.size / 8 < seq) : framedAt files seq = false := by
  rw [framedAt, idxEntry_past (by omega)]
  rfl

lemma cells_lt (files : Files) : files.idx.size / 8 < 2 ^ 60 := by
  have fits := files.idx.fits
  rw [← File.size, fileLimit] at fits
  omega

lemma filestoreReadRange_inside (positive : 0 < lo) (inside : lo ≤ files.idx.size / 8)
    (order : lo ≤ hi) :
    filestoreReadRange files lo hi =
      some (visits lo (min (min hi (files.idx.size / 8) + 1 - lo) rangeMax)
        fun i => rangeSlot files (lo - 1 + i)) := by
  have few := cells_lt files
  have start : (lo - 1) * 8 % 2 ^ 64 = (lo - 1) * 8 := by omega
  have cells : (min hi (files.idx.size / 8) + 2 ^ 64 - lo + 1) % 2 ^ 64 =
      min hi (files.idx.size / 8) + 1 - lo := by omega
  rw [filestoreReadRange_eq positive order start (congrArg (min · rangeMax) cells),
    if_pos (by omega)]

/-- The block to read for a range that begins behind the log.  Its length wraps, and so may
its offset. -/
lemma filestoreReadRange_past (past : files.idx.size / 8 < lo) (order : lo ≤ hi)
    (fits : hi < 2 ^ 64) :
    ∃ count, (lo = files.idx.size / 8 + 1 → count = 0) ∧
      (lo ≠ files.idx.size / 8 + 1 →
        count = min (files.idx.size / 8 + 1 + 2 ^ 64 - lo) rangeMax) ∧
      filestoreReadRange files lo hi =
        some (if (lo - 1) % 2 ^ 61 + count ≤ files.idx.size / 8 then
          visits lo count fun i => rangeSlot files ((lo - 1) % 2 ^ 61 + i) else []) := by
  have start : (lo - 1) * 8 % 2 ^ 64 = (lo - 1) % 2 ^ 61 * 8 := by omega
  refine ⟨_, ?_, ?_, filestoreReadRange_eq (by omega) order start rfl⟩
  · intro _
    have cells : (min hi (files.idx.size / 8) + 2 ^ 64 - lo + 1) % 2 ^ 64 = 0 := by omega
    rw [cells, Nat.zero_min]
  intro _
  have cells : (min hi (files.idx.size / 8) + 2 ^ 64 - lo + 1) % 2 ^ 64 =
      files.idx.size / 8 + 1 + 2 ^ 64 - lo := by omega
  rw [cells]

end Range

/-! ## Comparison -/

/-- The range reader visits, in order, the records in the range that can be read. -/
def RangeExact (files : Files) (fs : CmqFilestore) (lo hi : Nat) : Prop :=
  (filestoreReadRange files lo hi).getD [] =
    (List.range' lo (hi + 1 - lo)).filterMap fun seq =>
      (filestoreRead files fs seq).2.map fun payload => (seq, payload)

/-- When that is so.  From 0 on nothing is visited.  From a record on, the first 65536 are
visited if they are framed.  From a number behind the log on, the cells at the wrapped offset
are visited, if they are all there. -/
def RangeSound (files : Files) (lo hi : Nat) : Prop :=
  if lo = 0 then ∀ seq, 0 < seq → seq ≤ hi → ¬ (framedAt files seq ∧ checkedAt files seq)
  else if lo ≤ files.idx.size / 8 then
    ∀ seq, lo ≤ seq → seq ≤ hi →
      if seq < lo + rangeMax then framedAt files seq → checkedAt files seq
      else ¬ (framedAt files seq ∧ checkedAt files seq)
  else
    lo = files.idx.size / 8 + 1 ∨ files.idx.size / 8 < (lo - 1) % 2 ^ 61 + rangeMax ∨
      ∀ i, i < rangeMax → ¬ framedAt files ((lo - 1) % 2 ^ 61 + i + 1)

section Exact

lemma readable_eq_visits (files : Files) (fs : CmqFilestore) (lo count : Nat) :
    ((List.range' lo count).filterMap fun seq =>
        (filestoreRead files fs seq).2.map fun payload => (seq, payload)) =
      visits lo count fun i => (filestoreRead files fs (lo + i)).2 := by
  rw [List.range'_eq_map_range, filterMap_map]
  rfl

lemma filestoreRead_zero : (filestoreRead files fs 0).2 = none := by
  rw [filestoreRead, if_pos rfl]

lemma filestoreRead_eq_none_iff (positive : 0 < seq) :
    (filestoreRead files fs seq).2 = none ↔ ¬ (framedAt files seq ∧ checkedAt files seq) := by
  rw [filestoreRead_eq_lookup files fs (ne_of_gt positive), lookupRecord_eq_none_iff]

lemma rangeExact_zero_iff :
    RangeExact files fs 0 hi ↔
      ∀ seq, 0 < seq → seq ≤ hi → ¬ (framedAt files seq ∧ checkedAt files seq) := by
  have nothing : (filestoreReadRange files 0 hi).getD [] = [] := by rfl
  rw [RangeExact, nothing, readable_eq_visits, eq_comm, visits_eq_nil_iff]
  constructor
  · intro unread seq positive inside
    have here := unread seq (by omega)
    rwa [Nat.zero_add, filestoreRead_eq_none_iff positive] at here
  intro unread i inside
  rw [Nat.zero_add]
  rcases Nat.eq_zero_or_pos i with rfl | positive
  · exact filestoreRead_zero
  exact (filestoreRead_eq_none_iff positive).mpr (unread i positive (by omega))

lemma rangeExact_inside_iff (positive : 0 < lo) (inside : lo ≤ files.idx.size / 8)
    (order : lo ≤ hi) :
    RangeExact files fs lo hi ↔
      ∀ seq, lo ≤ seq → seq ≤ hi →
        if seq < lo + rangeMax then framedAt files seq → checkedAt files seq
        else ¬ (framedAt files seq ∧ checkedAt files seq) := by
  have slot : ∀ i, rangeSlot files (lo - 1 + i) = (filestoreRead files fs (lo + i)).2 ↔
      (framedAt files (lo + i) → checkedAt files (lo + i)) := by
    intro i
    have number : lo - 1 + i = lo + i - 1 := by omega
    rw [filestoreRead_eq_lookup files fs (by omega), number, lookupRecord_eq_rangeSlot,
      ← isSome_rangeSlot]
    cases checkedAt files (lo + i) <;> simp
  rw [RangeExact, filestoreReadRange_inside positive inside order, getD_some,
    readable_eq_visits, visits_eq_iff (by omega)]
  constructor
  · rintro ⟨front, back⟩ seq low high
    obtain ⟨i, rfl⟩ := Nat.exists_eq_add_of_le low
    by_cases past : files.idx.size / 8 < lo + i
    · simp [framedAt_past past]
    split
    next => exact (slot i).mp (front i (by omega))
    next => exact (filestoreRead_eq_none_iff (by omega)).mp (back i (by omega) (by omega))
  intro each
  constructor
  · intro i inside
    have here := each (lo + i) (by omega) (by omega)
    rw [if_pos (by omega)] at here
    exact (slot i).mpr here
  intro i low high
  rw [filestoreRead_eq_none_iff (by omega)]
  by_cases past : files.idx.size / 8 < lo + i
  · simp [framedAt_past past]
  have here := each (lo + i) (by omega) (by omega)
  rwa [if_neg (by omega)] at here

lemma rangeExact_past_iff (past : files.idx.size / 8 < lo) (order : lo ≤ hi)
    (fits : hi < 2 ^ 64) :
    RangeExact files fs lo hi ↔
      lo = files.idx.size / 8 + 1 ∨ files.idx.size / 8 < (lo - 1) % 2 ^ 61 + rangeMax ∨
        ∀ i, i < rangeMax → ¬ framedAt files ((lo - 1) % 2 ^ 61 + i + 1) := by
  have unread : visits lo (hi + 1 - lo) (fun i => (filestoreRead files fs (lo + i)).2) = [] := by
    rw [visits_eq_nil_iff]
    intro i _
    rw [filestoreRead_eq_none_iff (by omega), framedAt_past (by omega)]
    simp
  have slot : ∀ i, rangeSlot files ((lo - 1) % 2 ^ 61 + i) = none ↔
      ¬ framedAt files ((lo - 1) % 2 ^ 61 + i + 1) := by
    intro i
    rw [← isSome_rangeSlot, Nat.add_sub_cancel, not_isSome_iff_eq_none]
  obtain ⟨count, atNext, _, reads⟩ := filestoreReadRange_past past order fits
  rw [RangeExact, reads, getD_some, readable_eq_visits, unread]
  by_cases next : lo = files.idx.size / 8 + 1
  · rw [atNext next]
    simp [visits, next]
  by_cases short : files.idx.size / 8 < (lo - 1) % 2 ^ 61 + rangeMax
  · rw [if_neg (by omega)]
    exact iff_of_true rfl (.inr (.inl short))
  -- the wrapped block is in the index
  have all : count = rangeMax := by omega
  rw [all, if_pos (by omega), visits_eq_nil_iff]
  simp only [slot, next, short, false_or]

end Exact

/-- For all files and every range, the range reader visits exactly the readable records if
and only if the range is sound. -/
theorem rangeExact_iff (files : Files) (fs : CmqFilestore) (lo hi : Nat) (order : lo ≤ hi)
    (fits : hi < 2 ^ 64) : RangeExact files fs lo hi ↔ RangeSound files lo hi := by
  rw [RangeSound]
  rcases Nat.eq_zero_or_pos lo with rfl | positive
  · rw [if_pos rfl, rangeExact_zero_iff]
  rw [if_neg (ne_of_gt positive)]
  by_cases inside : lo ≤ files.idx.size / 8
  · rw [if_pos inside, rangeExact_inside_iff positive inside order]
  rw [if_neg inside, rangeExact_past_iff (not_le.mp inside) order fits]

/-- A store with one record, whose payload is given beside the one that was appended. -/
def sampleOverwritten (payload : UInt8) : Files where
  data := ⟨putHdr 1 [1] ++ [payload], by
    rw [length_append, length_putHdr, length_singleton]
    decide⟩
  idx := ⟨putLe 8 0, by decide +kernel⟩

theorem rangeExact_iff_intact :
    RangeSound (sampleOverwritten 1) 1 1 ∧ RangeExact (sampleOverwritten 1) (.opened 1) 1 1 := by
  have sound : RangeSound (sampleOverwritten 1) 1 1 := by
    intro seq _ _
    have one : seq = 1 := by omega
    rw [one]
    decide +kernel
  exact ⟨sound, (rangeExact_iff _ (.opened 1) 1 1 (by decide) (by decide)).mpr sound⟩

/-- If the byte of the payload changes on disk, the record cannot be read, but the range reader
visits it. -/
theorem filestoreReadRange_visits_damaged :
    filestoreReadRange (sampleOverwritten 2) 1 1 = some [(1, [2])] ∧
      (filestoreRead (sampleOverwritten 2) (.opened 1) 1).2 = none ∧
      ¬ RangeExact (sampleOverwritten 2) (.opened 1) 1 1 := by
  refine ⟨by decide +kernel, by decide +kernel, ?_⟩
  rw [RangeExact]
  decide +kernel

end CMsgQueue.Store
