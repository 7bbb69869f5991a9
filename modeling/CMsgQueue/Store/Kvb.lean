import CMsgQueue.Lib.Tokens
import CMsgQueue.Store.KvRun

/-!
# Buckets of last values

`store/cmq_kvb.c`: a publish on `$KV.bucket.key` opens the bucket if need be, with a replay of its
log; the reads only look into the buckets that are open.
-/

namespace CMsgQueue.Store

open Function List

/-- `CMQ_KVB_BUCKET_MAX`. -/
def cmqKvbBucketMax : Nat := 32

/-- `CMQ_KVB_MAX`. -/
def cmqKvbMax : Nat := 8

/-- `cmq_kvb_slot_t`. -/
structure KvbSlot where
  name : Bytes
  kv : CmqKv
  deriving DecidableEq

/-- `struct cmq_kvb`; only the first `n` slots are listed. -/
structure CmqKvb where
  slots : List KvbSlot
  persistDir : Bytes
  deriving DecidableEq

/-- The files under the persist directory, by the prefixes of their names. -/
abbrev KvbDisks := Bytes → Disk

def bucketChar (c : UInt8) : Bool :=
  (0x41 ≤ c && c ≤ 0x5A) || (0x61 ≤ c && c ≤ 0x7A) || (0x30 ≤ c && c ≤ 0x39) ||
    c == 0x5F || c == 0x2D

/-- `bucket_ok`. -/
def bucketOk (name : Bytes) : Bool :=
  decide (name.length ≠ 0) && decide (name.length < cmqKvbBucketMax) && name.all bucketChar

/-- The results of `cmq_kvb_parse`. -/
inductive KvbParsed where
  /-- -1: not a subject of a bucket. -/
  | other
  /-- -2. -/
  | malformed
  | parsed (bucket key : Bytes)
  deriving DecidableEq

/-- `cmq_kvb_parse` into buffers of `CMQ_KVB_BUCKET_MAX` and `CMQ_KV_KEY_MAX` bytes, or into none;
the buffers are large enough for what passes the checks. -/
def cmqKvbParse (subject : Bytes) : KvbParsed :=
  if subject.take 4 ≠ cstr "$KV." then .other
  else
    let rest := subject.drop 4
    let bucket := Tokens.head chDot rest
    let key := Tokens.tail chDot rest
    -- without a dot, or with nothing behind it, the key is empty
    if key.length = 0 then .malformed
    else if !bucketOk bucket then .malformed
    else if key.length ≥ cmqKvKeyMax then .malformed
    else .parsed bucket key

def kvbPrefix (bucket : Bytes) : Bytes := cstr "kv_" ++ bucket

/-- `cmq_kvb_create` and `cmq_kvb_set_persist` on the new manager, which has no buckets yet. -/
def kvbOpen (dir : Bytes) : CmqKvb := ⟨[], dir⟩

/-- `kvb_get_or_create`: the files, the manager and the index of the bucket's slot. -/
def kvbGetOrCreate (disks : KvbDisks) (b : CmqKvb) (bucket : Bytes) :
    KvbDisks × CmqKvb × Option Nat :=
  match b.slots.findIdx? fun slot => slot.name == bucket with
  | some i => (disks, b, some i)
  | none =>
    if b.slots.length ≥ cmqKvbMax then (disks, b, none)
    else
      match cmqKvCreate 0 with
      | none => (disks, b, none)
      | some kv =>
        if b.persistDir = [] then
          (disks, { b with slots := b.slots ++ [⟨bucket, kv⟩] }, some b.slots.length)
        else
          match cmqKvSetPersist (disks (kvbPrefix bucket)) kv with
          | (disk, _, false) => (update disks (kvbPrefix bucket) disk, b, none)
          | (disk, kv, true) =>
            (update disks (kvbPrefix bucket) disk,
              { b with slots := b.slots ++ [⟨bucket, kv⟩] }, some b.slots.length)

/-- The call on the store of a bucket in `cmq_kvb_publish`: the disk, the store, and the return
value. -/
def kvbPublishKv (disk : Disk) (kv : CmqKv) (nowMs : Nat) (key val : Bytes) : Disk × CmqKv × Int :=
  if val.length = 0 then
    let del := cmqKvDel disk kv nowMs key
    (del.1, del.2.1, 1)
  else
    let put := cmqKvPut disk kv nowMs key val
    (put.1, put.2.1,
      if put.2.2 = 0 then 1 else if put.2.2 = -2 then -2 else if put.2.2 = -3 then -3 else -1)

/-- `cmq_kvb_publish`: the files, the manager and the return value. -/
def cmqKvbPublish (disks : KvbDisks) (b : CmqKvb) (nowMs : Nat) (subject val : Bytes) :
    KvbDisks × CmqKvb × Int :=
  match cmqKvbParse subject with
  | .other => (disks, b, 0)
  | .malformed => (disks, b, -1)
  | .parsed bucket key =>
    match kvbGetOrCreate disks b bucket with
    | (disks, b, none) => (disks, b, -2)
    | (disks, b, some i) =>
      match b.slots[i]? with
      | none => (disks, b, -2)
      | some slot =>
        let published := kvbPublishKv (disks (kvbPrefix slot.name)) slot.kv nowMs key val
        (update disks (kvbPrefix slot.name) published.1,
          { b with slots := b.slots.modify i fun slot => { slot with kv := published.2.1 } },
          published.2.2)

/-- The store that `cmq_kvb_get` finds for a bucket. -/
def CmqKvb.kv? (b : CmqKvb) (bucket : Bytes) : Option CmqKv :=
  (b.slots.find? fun slot => slot.name == bucket).map KvbSlot.kv

/-- `cmq_kvb_get`. -/
def cmqKvbGet (b : CmqKvb) (subject : Bytes) (outSz : Nat) : Int × Option Bytes :=
  match cmqKvbParse subject with
  | .parsed bucket key =>
    match b.kv? bucket with
    | none => (-1, none)
    | some kv => cmqKvGet kv key outSz
  | _ => (-1, none)

/-- `cmq_kvb_request`: 1 with the value, 0 for a miss, -1 for other subjects. -/
def cmqKvbRequest (b : CmqKvb) (subject : Bytes) (outSz : Nat) : Int × Option Bytes :=
  match cmqKvbParse subject with
  | .parsed _ _ =>
    match cmqKvbGet b subject outSz with
    | (0, value) => (1, value)
    | _ => (0, none)
  | _ => (-1, none)

/-! ## Subjects -/

def SameBucket (first second : Bytes) : Prop :=
  ∃ bucket key other, cmqKvbParse first = .parsed bucket key ∧
    cmqKvbParse second = .parsed bucket other

lemma notMem_of_bucketOk (ok : bucketOk bucket = true) : chDot ∉ bucket := by
  intro member
  rw [bucketOk, Bool.and_eq_true] at ok
  have char := all_eq_true.mp ok.2 chDot member
  exact absurd char (by decide)

variable {subject : Bytes}

lemma bucketOk_of_parse (parsed : cmqKvbParse subject = .parsed bucket key) :
    bucketOk bucket = true ∧ key.length < cmqKvKeyMax := by
  unfold cmqKvbParse at parsed
  split at parsed
  · cases parsed
  dsimp only at parsed
  split at parsed
  · cases parsed
  split at parsed
  · cases parsed
  split at parsed
  · cases parsed
  next ok long =>
    cases parsed
    exact ⟨by simpa using ok, Nat.not_le.mp long⟩

lemma cmqKvbParse_subject (ok : bucketOk bucket = true) (some : key ≠ [])
    (short : key.length < cmqKvKeyMax) :
    cmqKvbParse (cstr "$KV." ++ (bucket ++ chDot :: key)) = .parsed bucket key := by
  have marked : (cstr "$KV.").length = 4 := by decide
  have plain : ∀ c ∈ bucket, decide (c ≠ chDot) = true := by
    intro c member
    rw [decide_eq_true_eq]
    rintro rfl
    exact notMem_of_bucketOk ok member
  have head : Tokens.head chDot (bucket ++ chDot :: key) = bucket := by
    rw [Tokens.head, takeWhile_append_of_pos plain, takeWhile_cons_of_neg (by simp), append_nil]
  have tail : Tokens.tail chDot (bucket ++ chDot :: key) = key := by
    rw [Tokens.tail, Tokens.rest, dropWhile_append_of_pos plain]
    rfl
  have length : key.length ≠ 0 := by simpa using some
  unfold cmqKvbParse
  rw [← marked, drop_left]
  simp [head, tail, length, ok, Nat.not_le.mpr short]

/-! ## Other buckets -/

section Frame

variable {b : CmqKvb} {bucket : Bytes}

lemma kvbGetOrCreate_slot (got : kvbGetOrCreate disks b bucket = (disks', b', some i)) :
    ∃ front slot back, b'.slots = front ++ slot :: back ∧ front.length = i ∧
      slot.name = bucket := by
  unfold kvbGetOrCreate at got
  split at got
  next found =>
    cases got
    obtain ⟨front, slot, back, slots, length, hit⟩ := SlotTable.exists_of_findIdx? found
    exact ⟨front, slot, back, slots, length, by simpa using hit⟩
  split at got
  · cases got
  split at got
  · cases got
  next kv _ =>
  split at got
  · cases got
    exact ⟨b.slots, ⟨bucket, kv⟩, [], rfl, rfl, rfl⟩
  split at got
  · cases got
  cases got
  exact ⟨b.slots, ⟨bucket, _⟩, [], rfl, rfl, rfl⟩

lemma kv?_append (name : Bytes) (kv : CmqKv) (differs : bucket ≠ name) :
    ({ b with slots := b.slots ++ [⟨name, kv⟩] } : CmqKvb).kv? bucket = b.kv? bucket := by
  simp [CmqKvb.kv?, Ne.symm differs]

lemma kv?_kvbGetOrCreate (differs : other ≠ bucket) :
    (kvbGetOrCreate disks b bucket).2.1.kv? other = b.kv? other := by
  unfold kvbGetOrCreate
  split
  · rfl
  split
  · rfl
  split
  · rfl
  split
  · exact kv?_append bucket _ differs
  split
  · rfl
  exact kv?_append bucket _ differs

lemma kv?_cmqKvbPublish (nowMs : Nat) (val : Bytes)
    (parsed : cmqKvbParse subject = .parsed bucket key) (differs : other ≠ bucket) :
    (cmqKvbPublish disks b nowMs subject val).2.1.kv? other = b.kv? other := by
  have kept : (kvbGetOrCreate disks b bucket).2.1.kv? other = b.kv? other :=
    kv?_kvbGetOrCreate differs
  unfold cmqKvbPublish
  rw [parsed]
  dsimp only
  split
  next got =>
    rw [got] at kept
    exact kept
  next got =>
  rw [got] at kept
  split
  · exact kept
  obtain ⟨_, _, _, slots, rfl, named⟩ := kvbGetOrCreate_slot got
  rw [← kept]
  simp only [CmqKvb.kv?, slots, SlotTable.modify_middle, find?_append, find?_cons,
    named, beq_eq_false_iff_ne.mpr (Ne.symm differs)]

end Frame

/-! ## Runs -/

/-- A manager and the files under its directory. -/
structure KvbSystem where
  disks : KvbDisks
  kvb : CmqKvb

inductive KvbEvent where
  | publish (nowMs : Nat) (subject val : Bytes)
  | restart
  deriving DecidableEq

namespace KvbSystem

def start (dir : Bytes) : KvbSystem := ⟨fun _ => .empty, kvbOpen dir⟩

/-- The manager is destroyed, and a new one is opened on the same directory. -/
def restart (s : KvbSystem) : KvbSystem := ⟨s.disks, kvbOpen s.kvb.persistDir⟩

def publish (s : KvbSystem) (nowMs : Nat) (subject val : Bytes) : KvbSystem :=
  let published := cmqKvbPublish s.disks s.kvb nowMs subject val
  ⟨published.1, published.2.1⟩

def step (s : KvbSystem) : KvbEvent → KvbSystem
  | .publish nowMs subject val => s.publish nowMs subject val
  | .restart => s.restart

def run (s : KvbSystem) (events : List KvbEvent) : KvbSystem := events.foldl step s

def SameAnswers (s t : KvbSystem) (subject : Bytes) : Prop :=
  ∀ outSz, cmqKvbGet s.kvb subject outSz = cmqKvbGet t.kvb subject outSz ∧
    cmqKvbRequest s.kvb subject outSz = cmqKvbRequest t.kvb subject outSz

def NoKeys (s : KvbSystem) : Prop := ∀ slot ∈ s.kvb.slots, slot.kv.count = 0

def Logged (disk : Disk) (map : Bytes → Option Bytes) : Prop :=
  ∃ records, Holds disk.live records ∧
    (records.foldl kvReplayRecord (.fresh (kvCap 0))).Keeps map

def Opened (disk : Disk) (kv : CmqKv) (map : Bytes → Option Bytes) : Prop :=
  ∃ records, KvSystem.Inv 0 ⟨disk, kv, map⟩ records

variable {map : Bytes → Option Bytes}

lemma Opened.logged (opened : Opened disk kv map) : Logged disk map := by
  obtain ⟨records, inv⟩ := opened
  exact ⟨records, inv.holds, inv.table_eq ▸ inv.keeps⟩

lemma Logged.open (logged : Logged disk map) :
    ∃ kv, kvOpen 0 disk = some (disk, kv) ∧ Opened disk kv map := by
  obtain ⟨records, holds, keeps⟩ := logged
  have allowed : kvCap 0 ≤ cmqKvSlotsMax := by decide
  obtain ⟨fs, opened, synced, plain⟩ := holds.kvOpen_eq allowed
  exact ⟨_, opened, records, allowed, holds, rfl, keeps, ⟨fs, rfl, synced, plain⟩⟩

lemma Opened.publish (opened : Opened disk kv map) (nowMs : Nat) (val : Bytes)
    (short : key.length < cmqKvKeyMax) :
    ∃ map', Opened (kvbPublishKv disk kv nowMs key val).1
      (kvbPublishKv disk kv nowMs key val).2.1 map' := by
  obtain ⟨_, inv⟩ := opened
  unfold kvbPublishKv
  by_cases empty : val.length = 0
  · rw [if_pos empty]
    obtain ⟨records', after⟩ := inv.step_del nowMs key
    exact ⟨_, records', after⟩
  rw [if_neg empty]
  have storable : KvSystem.Storable ⟨disk, kv, map⟩ (.put nowMs key val) :=
    fun _ long => absurd long (Nat.ne_of_lt short)
  obtain ⟨records', after⟩ := inv.step_put storable
  exact ⟨_, records', after⟩

structure Inv (s : KvbSystem) : Prop where
  persists : s.kvb.persistDir ≠ []
  logged : ∀ name, ∃ map, Logged (s.disks name) map
  opened : ∀ slot ∈ s.kvb.slots, bucketOk slot.name = true ∧
    ∃ map, Opened (s.disks (kvbPrefix slot.name)) slot.kv map
  distinct : (s.kvb.slots.map KvbSlot.name).Nodup

variable {s : KvbSystem}

lemma kvbPrefix_inj : kvbPrefix first = kvbPrefix second ↔ first = second :=
  append_right_inj _

lemma inv_start (some : dir ≠ []) : Inv (start dir) := by
  refine ⟨some, fun _ => ⟨fun _ => none, [], holds_empty, KvTable.keeps_fresh _⟩,
    fun _ member => ?_, nodup_nil⟩
  cases member

lemma Inv.restart (inv : Inv s) : Inv s.restart := by
  refine ⟨inv.persists, inv.logged, fun _ member => ?_, nodup_nil⟩
  cases member

lemma Inv.write (inv : Inv s) (slots : s.kvb.slots = front ++ slot :: back)
    (opened : Opened disk kv map) :
    Inv ⟨update s.disks (kvbPrefix slot.name) disk,
      { s.kvb with slots := front ++ { slot with kv } :: back }⟩ := by
  have distinct := inv.distinct
  rw [slots] at distinct
  refine ⟨inv.persists, fun name => ?_, fun other member => ?_, ?_⟩
  · dsimp only
    by_cases same : name = kvbPrefix slot.name
    · rw [same, update_self]
      exact ⟨map, opened.logged⟩
    rw [update_of_ne same]
    exact inv.logged name
  · have others : other ∈ front ++ back → bucketOk other.name = true ∧
        ∃ map, Opened (update s.disks (kvbPrefix slot.name) disk
          (kvbPrefix other.name)) other.kv map := by
      intro member
      have differs : other.name ≠ slot.name := by
        rw [map_append, map_cons, nodup_middle, nodup_cons, ← map_append] at distinct
        intro same
        exact distinct.1 (same ▸ mem_map_of_mem member)
      rw [update_of_ne fun same => differs (kvbPrefix_inj.mp same)]
      apply inv.opened
      rw [slots]
      exact perm_middle.mem_iff.mpr (mem_cons_of_mem _ member)
    rcases mem_cons.mp (perm_middle.mem_iff.mp member) with rfl | member
    · refine ⟨(inv.opened slot (by rw [slots]; simp)).1, map, ?_⟩
      dsimp only
      rw [update_self]
      exact opened
    exact others member
  simpa using distinct

lemma Inv.append (inv : Inv s) (ok : bucketOk bucket = true)
    (new : bucket ∉ s.kvb.slots.map KvbSlot.name)
    (opened : Opened (s.disks (kvbPrefix bucket)) kv map) :
    Inv ⟨s.disks, { s.kvb with slots := s.kvb.slots ++ [⟨bucket, kv⟩] }⟩ := by
  refine ⟨inv.persists, inv.logged, ?_, ?_⟩
  · exact forall_mem_append.mpr
      ⟨inv.opened, forall_mem_singleton.mpr ⟨ok, map, opened⟩⟩
  rw [map_append, map_singleton, ← concat_eq_append, nodup_concat]
  exact ⟨new, inv.distinct⟩

lemma Inv.getOrCreate (inv : Inv s) (ok : bucketOk bucket = true) :
    Inv ⟨(kvbGetOrCreate s.disks s.kvb bucket).1, (kvbGetOrCreate s.disks s.kvb bucket).2.1⟩ := by
  obtain ⟨map, logged⟩ := inv.logged (kvbPrefix bucket)
  obtain ⟨_, opened, holds⟩ := logged.open
  unfold kvbGetOrCreate
  split
  · exact inv
  next missed =>
  have new : bucket ∉ s.kvb.slots.map KvbSlot.name := by
    rw [findIdx?_eq_none_iff] at missed
    intro named
    obtain ⟨slot, member, rfl⟩ := mem_map.mp named
    simpa using missed slot member
  split
  · exact inv
  rw [kvOpen] at opened
  generalize cmqKvCreate 0 = created at opened ⊢
  cases created with
  | none => cases opened
  | some kv =>
    simp only [if_neg inv.persists] at opened ⊢
    split at opened
    next persisted =>
      cases opened
      simp only [persisted, update_eq_self]
      exact inv.append ok new holds
    cases opened

lemma Inv.publish (inv : Inv s) (nowMs : Nat) (subject val : Bytes) :
    Inv (s.publish nowMs subject val) := by
  unfold KvbSystem.publish cmqKvbPublish
  split
  · exact inv
  · exact inv
  next _ _ parsed =>
  obtain ⟨ok, short⟩ := bucketOk_of_parse parsed
  have between := inv.getOrCreate ok
  split
  next got =>
    rw [got] at between
    exact between
  next got =>
  rw [got] at between
  obtain ⟨front, slot, back, slots, rfl, _⟩ := kvbGetOrCreate_slot got
  have located : (front ++ slot :: back)[front.length]? = some slot := by simp
  simp only [slots, located, SlotTable.modify_middle]
  obtain ⟨-, _, opened⟩ := between.opened slot (by simp [slots])
  obtain ⟨_, after⟩ := opened.publish nowMs val short
  exact between.write slots after

lemma Inv.run (inv : Inv s) : Inv (s.run events) := by
  induction events generalizing s with
  | nil => exact inv
  | cons event events ih =>
    refine @ih (s.step event) ?_
    cases event with
    | publish nowMs subject val => exact inv.publish nowMs subject val
    | restart => exact inv.restart

/-! ## Answers -/

lemma sameAnswers_of_kv? {s t : KvbSystem}
    (same : ∀ bucket key, cmqKvbParse subject = .parsed bucket key →
      s.kvb.kv? bucket = t.kvb.kv? bucket) : SameAnswers s t subject := by
  intro outSz
  have get : cmqKvbGet s.kvb subject outSz = cmqKvbGet t.kvb subject outSz := by
    unfold cmqKvbGet
    split
    next bucket key parsed => rw [same bucket key parsed]
    rfl
  refine ⟨get, ?_⟩
  unfold cmqKvbRequest
  rw [get]

lemma publish_sameAnswers (s : KvbSystem) (nowMs : Nat) (val : Bytes)
    (apart : ¬ SameBucket subject other) : SameAnswers (s.publish nowMs subject val) s other := by
  apply sameAnswers_of_kv?
  intro bucket key parsedOther
  cases parsed : cmqKvbParse subject with
  | other | malformed => simp [publish, cmqKvbPublish, parsed]
  | parsed _ key' =>
    apply kv?_cmqKvbPublish nowMs val parsed
    rintro rfl
    exact apart ⟨bucket, key', key, parsed, parsedOther⟩

lemma Inv.kv?_eq (inv : Inv s) (member : slot ∈ s.kvb.slots) :
    s.kvb.kv? slot.name = some slot.kv := by
  obtain ⟨front, _, slots⟩ := append_of_mem member
  have distinct := inv.distinct
  rw [slots, map_append, map_cons, nodup_middle, nodup_cons] at distinct
  have missed : front.find? (fun other => other.name == slot.name) = none := by
    rw [find?_eq_none]
    intro other inside same
    apply distinct.1
    rw [← beq_iff_eq.mp same]
    exact mem_append_left _ (mem_map_of_mem inside)
  rw [CmqKvb.kv?, slots, find?_append, missed]
  simp

lemma eq_none_of_count {table : KvTable} (keeps : table.Keeps map)
    (zero : table.count = 0) (key : Bytes) : map key = none := by
  cases stored : map key with
  | none => rfl
  | some value =>
    have member := (keeps.tabulates.mem_iff key value).mpr stored
    have counted := keeps.count_eq
    rw [zero] at counted
    exact absurd rfl (countP_eq_zero.mp counted.symm _ member)

lemma get_restart (s : KvbSystem) (subject : Bytes) (outSz : Nat) :
    cmqKvbGet s.restart.kvb subject outSz = (-1, none) := by
  unfold cmqKvbGet
  split <;> rfl

/-- After a restart the reads miss everything, so they answer as before if and only if there
was nothing to read. -/
lemma Inv.restart_sameAnswers_iff (inv : Inv s) :
    (∀ subject, SameAnswers s.restart s subject) ↔ NoKeys s := by
  constructor
  · intro same slot member
    obtain ⟨ok, map, records, opened⟩ := inv.opened slot member
    have keeps : slot.kv.toKvTable.Keeps map := opened.keeps
    have nothing : ∀ key, map key = none := by
      intro key
      cases stored : map key with
      | none => rfl
      | some value =>
        have short := keeps.short key (by simp [stored])
        have parsed := cmqKvbParse_subject ok (kvKeySafe_iff.mp short.1).1 short.2
        have missed := (same (cstr "$KV." ++ (slot.name ++ chDot :: key)) value.length).1
        rw [get_restart] at missed
        unfold cmqKvbGet at missed
        rw [parsed] at missed
        dsimp only at missed
        rw [inv.kv?_eq member] at missed
        dsimp only at missed
        rw [keeps.get_eq key value.length, stored] at missed
        simp [fetched] at missed
    have counted := keeps.count_eq
    rw [countP_eq_zero.mpr] at counted
    · exact counted
    intro cell inside
    cases cell with
    | none => simp
    | some entry =>
      have read := (keeps.tabulates.mem_iff entry.1 entry.2).mp inside
      rw [nothing] at read
      cases read
  intro empty subject outSz
  have get : cmqKvbGet s.kvb subject outSz = (-1, none) := by
    unfold cmqKvbGet
    split
    next bucket key parsed =>
      cases found : s.kvb.kv? bucket with
      | none => rfl
      | some kv =>
        obtain ⟨slot, first, rfl⟩ := Option.map_eq_some_iff.mp found
        have member := mem_of_find?_eq_some first
        obtain ⟨-, map, records, opened⟩ := inv.opened slot member
        have keeps : slot.kv.toKvTable.Keeps map := opened.keeps
        dsimp only
        rw [keeps.get_eq key outSz, eq_none_of_count keeps (empty slot member) key]
        rfl
    rfl
  have same := (get_restart s subject outSz).trans get.symm
  refine ⟨same, ?_⟩
  unfold cmqKvbRequest
  rw [same]

/-- After any history of publishes and restarts on a directory: a restart changes no answer, and a
publish changes the answers for no subject of another bucket, if and only if no open bucket holds
a key. -/
theorem restart_keeps_answers_iff {dir : Bytes} (some : dir ≠ []) (events : List KvbEvent) :
    let s := (start dir).run events
    ((∀ subject, SameAnswers s.restart s subject) ∧
      ∀ nowMs subject val other, ¬ SameBucket subject other →
        SameAnswers (s.publish nowMs subject val) s other) ↔ NoKeys s := by
  intro s
  have inv : Inv s := (inv_start some).run
  rw [← inv.restart_sameAnswers_iff]
  exact ⟨And.left, fun same => ⟨same, fun nowMs _ val _ => publish_sameAnswers s nowMs val⟩⟩

theorem restart_keeps_answers_iff_deleted :
    let s := (start [47]).run [.publish 0 (cstr "$KV.a.k") [1], .publish 0 (cstr "$KV.a.k") []]
    [47] ≠ ([] : Bytes) ∧ ∀ subject, SameAnswers s.restart s subject := by
  refine ⟨by decide, ((restart_keeps_answers_iff (by decide) _).mpr ?_).1⟩
  unfold NoKeys
  decide +kernel

/-- A value that was published is missed after a restart. -/
theorem restart_misses_value :
    let s := (start [47]).run [.publish 0 (cstr "$KV.a.k") [1]]
    cmqKvbGet s.kvb (cstr "$KV.a.k") 16 = (0, Option.some [1]) ∧
      cmqKvbRequest s.kvb (cstr "$KV.a.k") 16 = (1, Option.some [1]) ∧
      cmqKvbGet s.restart.kvb (cstr "$KV.a.k") 16 = (-1, none) ∧
      cmqKvbRequest s.restart.kvb (cstr "$KV.a.k") 16 = (0, none) := by
  decide +kernel

end KvbSystem

end CMsgQueue.Store
