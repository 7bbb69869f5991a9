import CMsgQueue.Store.Js
import CMsgQueue.Lib.RingBuffer

/-!
# The files of durable streams

The paths of different streams are different.  The file with the messages is a sequence of
records: what `js_replay_msgs` reads back are the messages of the whole records at its front,
and `js_compact_msgs` removes some records from there.
-/

namespace CMsgQueue.Store

open FileOp Option List

open Framing (Verdict)

/-! ## Paths -/

variable {name : Bytes}

def JsKind.suffix (kind : JsKind) (tmp : Bool) : Bytes :=
  kind.ending ++ if tmp then cstr ".tmp" else []

lemma JsKind.eq_of_suffix {kind other : JsKind} {tmp otherTmp : Bool}
    (ends : kind.suffix tmp <:+ other.suffix otherTmp) : kind = other ∧ tmp = otherTmp := by
  revert ends
  cases kind <;> cases other <;> cases tmp <;> cases otherTmp <;> decide

/-- The files of different streams or kinds have different paths, whatever the names are: no ending
is the end of another one. -/
theorem JsPath.text_eq_iff (dir : Bytes) (path other : JsPath) :
    path.text dir = other.text dir ↔ path = other := by
  refine ⟨fun same => ?_, congrArg _⟩
  obtain ⟨stream, kind, tmp⟩ := path
  obtain ⟨otherStream, otherKind, otherTmp⟩ := other
  replace same : stream ++ kind.suffix tmp = otherStream ++ otherKind.suffix otherTmp := by
    simpa [JsPath.text, JsKind.suffix] using same
  obtain ⟨rfl, rfl⟩ : otherKind = kind ∧ otherTmp = tmp := by
    rcases suffix_or_suffix_of_suffix (suffix_append _ _) (same ▸ suffix_append stream _) with
      ends | ends
    · exact JsKind.eq_of_suffix ends
    exact (JsKind.eq_of_suffix ends).imp Eq.symm Eq.symm
  rw [append_cancel_right same]

/-- The operations change files of one stream only. -/
def Within (name : Bytes) (ops : List (FileOp JsPath)) : Prop :=
  ∀ op ∈ ops, ∀ path : JsPath, op.touches path → path.stream = name

lemma Within.nil (name : Bytes) : Within name [] := by
  intro _ member
  cases member

lemma Within.append (left : Within name front)
    (right : Within name back) : Within name (front ++ back) :=
  forall_mem_append.mpr ⟨left, right⟩

lemma Within.at?_eq (within : Within name ops) (files : FileMap JsPath)
    (other : path.stream ≠ name) :
    (run files ops).at? path = files.at? path :=
  run_at?_of_untouched fun op member touched => other (within op member path touched)

lemma within_replaceOps (owned : path.stream = name)
    (bytes : Bytes) : Within name (replaceOps path bytes) := by
  intro _ member _ touched
  simp only [replaceOps, mem_cons, not_mem_nil, or_false] at member
  rcases member with rfl | rfl | rfl | rfl
  · exact (congrArg JsPath.stream (Eq.symm touched)).trans owned
  · exact (congrArg JsPath.stream (Eq.symm touched)).trans owned
  · exact (congrArg JsPath.stream (Eq.symm touched)).trans owned
  rcases touched with rfl | rfl
  · exact owned
  exact owned

lemma within_cursorOps (name : Bytes) (stream : CmqStream) :
    Within name (cursorOps name stream) := by
  intro _ member _ touched
  simp only [cursorOps, mem_cons, not_mem_nil, or_false] at member
  rcases member with rfl | rfl | rfl
  · exact congrArg JsPath.stream (Eq.symm touched)
  · exact congrArg JsPath.stream (Eq.symm touched)
  rcases touched with rfl | rfl <;> rfl

lemma run_replaceOps_at? (files : FileMap JsPath) (name : Bytes) (kind : JsKind) (bytes : Bytes)
    (other : Bytes) (otherKind : JsKind) :
    (run files (replaceOps (jsPath name kind) bytes)).at? (jsPath other otherKind) =
      if other = name ∧ otherKind = kind then some bytes
      else files.at? (jsPath other otherKind) := by
  rw [replaceOps, run_replace_at? _ (by simp [JsPath.temp, jsPath])]
  simp [jsPath, JsPath.temp]

lemma run_cursorOps_at? (files : FileMap JsPath) (name : Bytes) (stream : CmqStream)
    (other : Bytes) (kind : JsKind) :
    (run files (cursorOps name stream)).at? (jsPath other kind) =
      if other = name ∧ kind = .cursors then some (cursorText stream)
      else files.at? (jsPath other kind) := by
  rw [cursorOps, run_rename_at?]
  simp [jsPath, JsPath.temp]

/-! ## Records -/

lemma jsHeader_length (four : magic.length = 4) (seq len : Nat) :
    (jsHeader magic seq len).length = 16 := by
  simp [jsHeader, four]

@[simp] lemma length_jsRecord (seq : Nat) (val : Bytes) :
    (jsRecord seq val).length = 16 + val.length := by
  rw [jsRecord, length_append, jsHeader_length rfl]

@[simp] lemma jsPayload_jsRecord (seq : Nat) (val : Bytes) :
    jsPayload (jsRecord seq val) = val :=
  drop_left' (jsHeader_length rfl seq val.length)

lemma jsHeaderLen_jsHeader (four : magic.length = 4) (seq : Nat)
    (bound : len < 2 ^ 32) : jsHeaderLen (jsHeader magic seq len) = len := by
  have front : (magic ++ putBe 8 seq).length = 12 := by simp [four]
  rw [jsHeaderLen, jsHeader, drop_left' front, take_of_length_le (by simp),
    getBe_putBe (lt_of_lt_of_le bound (by decide))]

lemma jsHeaderOk_jsHeader (seq : Nat) (positive : 0 < len)
    (bound : len ≤ cmqJsValMax) : jsHeaderOk (jsHeader (cstr "CMQM") seq len) = true := by
  have fits : len < 2 ^ 32 := lt_of_le_of_lt bound (by decide)
  rw [jsHeaderOk, jsHeaderLen_jsHeader rfl seq fits, jsHeader, append_assoc, take_left' (by rfl)]
  simp [positive, bound]

lemma accepts_iff :
    jsCodec.Accepts record ↔
      jsHeaderOk record = true ∧ record.length = 16 + jsHeaderLen record := by
  constructor
  · intro accepts
    have whole := accepts []
    rw [append_nil] at whole
    obtain ⟨ok, size, -, -⟩ := jsPeel_eq_item.mp whole
    exact ⟨ok, size⟩
  rintro ⟨ok, length⟩ tail
  have long : 16 ≤ record.length := by omega
  refine jsPeel_eq_item.mpr ⟨?_, ?_, ?_, ?_⟩
  · exact (jsHeaderOk_append long tail).trans ok
  · exact length.trans (congrArg _ (jsHeaderLen_append long tail).symm)
  · rw [length_append]
    exact Nat.le_add_right _ _
  exact take_left.symm

def JsVal (val : Bytes) : Prop := 0 < val.length ∧ val.length ≤ cmqJsValMax

lemma accepts_jsRecord (seq : Nat) (fits : JsVal val) : jsCodec.Accepts (jsRecord seq val) := by
  have header : (jsHeader (cstr "CMQM") seq val.length).length = 16 := jsHeader_length rfl _ _
  rw [accepts_iff, jsRecord, jsHeaderLen_append (le_of_eq header.symm),
    jsHeaderLen_jsHeader rfl seq (lt_of_le_of_lt fits.2 (by decide)), length_append]
  exact ⟨jsHeaderOk_jsHeader seq fits.1 fits.2, rfl⟩

abbrev recordsFile (records : List Bytes) : Bytes := jsCodec.encodeAll records

lemma recordsFile_append (front back : List Bytes) :
    recordsFile (front ++ back) = recordsFile front ++ recordsFile back := flatMap_append

lemma drop_recordsFile (count : Nat) (records : List Bytes) :
    (recordsFile records).drop (recordsFile (records.take count)).length =
      recordsFile (records.drop count) := by
  have split := recordsFile_append (records.take count) (records.drop count)
  rw [take_append_drop] at split
  rw [split, drop_left]

@[simp] lemma recordsFile_singleton (record : Bytes) : recordsFile [record] = record := by
  simp [Framing.Codec.encodeAll, jsCodec]

def Whole (records : List Bytes) : Prop := ∀ record ∈ records, jsCodec.Accepts record

lemma Whole.append (left : Whole front) (right : Whole back) :
    Whole (front ++ back) :=
  forall_mem_append.mpr ⟨left, right⟩

variable {records : List Bytes}

lemma jsFileMsgs_records (whole : Whole records) (tail : Bytes) :
    jsFileMsgs (some (recordsFile records ++ tail)) =
      records.map jsPayload ++ jsFileMsgs (some tail) := by
  rw [jsFileMsgs, Framing.Codec.read_encodeAll_append whole, map_append]
  rfl

lemma jsFileMsgs_whole (whole : Whole records) :
    jsFileMsgs (some (recordsFile records)) = records.map jsPayload := by
  have read := jsFileMsgs_records whole []
  rw [append_nil] at read
  rw [read]
  exact append_nil _

lemma jsFileMsgs_torn (seq : Nat) {val : Bytes} (fits : JsVal val) {count : Nat}
    (cut : count < (jsRecord seq val).length) :
    jsFileMsgs (some ((jsRecord seq val).take count)) = [] := by
  have header : (jsHeader (cstr "CMQM") seq val.length).length = 16 := jsHeader_length rfl _ _
  have more : jsCodec.peel ((jsRecord seq val).take count) = .more := by
    by_cases short : count < 16
    · have length : ((jsRecord seq val).take count).length < 16 := by
        rw [length_take]
        omega
      exact if_pos length
    have front : (jsRecord seq val).take count =
        jsHeader (cstr "CMQM") seq val.length ++ val.take (count - 16) := by
      rw [jsRecord, take_append, header, take_of_length_le (by omega)]
    have long := le_of_eq header.symm
    have size : jsHeaderLen ((jsRecord seq val).take count) = val.length := by
      rw [front, jsHeaderLen_append long,
        jsHeaderLen_jsHeader rfl seq (lt_of_le_of_lt fits.2 (by decide))]
    have ok : jsHeaderOk ((jsRecord seq val).take count) = true := by
      rw [front]
      exact jsHeaderOk_jsHeader seq fits.1 fits.2
    have length : ((jsRecord seq val).take count).length = count := by
      rw [length_take]
      omega
    have cut' : count < 16 + val.length := by simpa using cut
    change jsPeel _ = _
    rw [jsPeel, length, if_neg short, ok, size, if_neg (by decide), if_pos cut']
  rw [jsFileMsgs, Framing.Codec.read_of_more more]
  rfl

/-! ## Compaction -/

def placed : (off : Nat) → List Bytes → List (Nat × Nat)
  | _, [] => []
  | off, record :: records => (off, record.length) :: placed (off + record.length) records

@[simp] lemma length_placed (off : Nat) (records : List Bytes) :
    (placed off records).length = records.length := by
  induction records generalizing off with
  | nil => rfl
  | cons _ records ih => simp [placed, ih]

lemma getElem?_placed (off : Nat) (records : List Bytes) (i : Nat) :
    (placed off records)[i]? = records[i]?.map fun record =>
        (off + (recordsFile (records.take i)).length, record.length) := by
  induction records generalizing off i with
  | nil => rfl
  | cons record records ih =>
    cases i with
    | zero => simp [placed, Framing.Codec.encodeAll]
    | succ i =>
      rw [placed, getElem?_cons_succ, ih]
      simp [recordsFile, jsCodec, Nat.add_assoc]

lemma length_recordsFile (records : List Bytes) :
    (recordsFile records).length = (records.map length).sum := by
  simp [recordsFile, Framing.Codec.encodeAll, jsCodec]

lemma sum_newest (off count : Nat) (records : List Bytes) :
    (((placed off records).reverse.take count).map Prod.snd).sum =
      (recordsFile (records.drop (records.length - count))).length := by
  have sizes : (placed off records).map Prod.snd = records.map length := by
    induction records generalizing off with
    | nil => rfl
    | cons _ records ih => rw [placed, map_cons, ih, map_cons]
  rw [length_recordsFile, map_take, map_reverse, sizes, take_reverse, sum_reverse, length_map,
    map_drop]

lemma scanMsgs_whole (whole : Whole records) (off : Nat) (enough : records.length ≤ fuel) :
    scanMsgs fuel off (recordsFile records) = some (placed off records) := by
  induction records generalizing fuel off with
  | nil => cases fuel <;> rfl
  | cons record records ih =>
    cases fuel with
    | zero => cases enough
    | succ fuel =>
      obtain ⟨ok, length⟩ := accepts_iff.mp (whole record mem_cons_self)
      have long : 16 ≤ record.length := by omega
      have file : recordsFile (record :: records) = record ++ recordsFile records := rfl
      have nonempty : record ++ recordsFile records ≠ [] := by
        intro empty
        have lengths := congrArg List.length empty
        rw [length_append, length_nil] at lengths
        omega
      have rest := ih (fun other member => whole other (mem_cons_of_mem _ member))
        (off + record.length) (Nat.le_of_succ_le_succ enough)
      rw [file, scanMsgs, if_neg nonempty, jsHeaderOk_append long, jsHeaderLen_append long, ok,
        ← length, if_neg (by simp; omega)]
      simp only [drop_left, rest, map_some, placed]

lemma fitting_spec (cap bytes : Nat) (records : List (Nat × Nat)) :
    ∃ count ≤ records.length, fitting cap bytes records = records.take count ∧
      (0 < count → bytes + ((records.take count).map Prod.snd).sum ≤ cap) ∧
      (count < records.length → cap < bytes + ((records.take (count + 1)).map Prod.snd).sum) := by
  induction records generalizing bytes with
  | nil => exact ⟨0, le_rfl, rfl, nofun, nofun⟩
  | cons record records ih =>
    unfold fitting
    split
    next large => exact ⟨0, Nat.zero_le _, rfl, nofun, fun _ => by simpa using large⟩
    next small =>
    obtain ⟨count, bound, taken, fits, next⟩ := ih (bytes + record.2)
    refine ⟨count + 1, Nat.succ_le_succ bound, by rw [taken, take_succ_cons], fun _ => ?_,
      fun more => ?_⟩
    · rcases count.eq_zero_or_pos with rfl | some
      · simpa using small
      simpa [Nat.add_assoc] using fits some
    simpa [Nat.add_assoc] using next (Nat.lt_of_succ_lt_succ more)

/-- The last records of a file, as many as are kept and fit under the cap but at least one. -/
structure LongestTail (cap : Nat) (records kept : List Bytes) : Prop where
  suffix : kept <:+ records
  nonempty : kept ≠ []
  few : kept.length ≤ cmqJsMsgsKeep
  fits : kept.length = 1 ∨ (recordsFile kept).length ≤ cap
  longest : ∀ other, other <:+ records → other.length ≤ cmqJsMsgsKeep →
    (recordsFile other).length ≤ cap → other.length ≤ kept.length

lemma tailStart_placed (cap : Nat) (some : records ≠ []) :
    ∃ count, LongestTail cap records (records.drop count) ∧
      tailStart cap (placed 0 records) = (recordsFile (records.take count)).length := by
  have positive := length_pos_iff.mpr some
  have whole : ((placed 0 records).reverse.take cmqJsMsgsKeep) ≠ [] := by
    rw [ne_eq, take_eq_nil_iff, reverse_eq_nil_iff, ← length_eq_zero_iff,
      length_placed, cmqJsMsgsKeep]
    omega
  obtain ⟨newest, older, taken⟩ := exists_cons_of_ne_nil whole
  obtain ⟨count, _, fitted, fits, next⟩ := fitting_spec cap newest.2 older
  have number : older.length + 1 = min cmqJsMsgsKeep records.length := by
    rw [← length_cons, ← taken]
    simp
  have front : ∀ k < older.length + 1, newest :: older.take k =
      (placed 0 records).reverse.take (k + 1) := fun k less => by
    rw [← take_succ_cons, ← taken, take_take, min_eq_left (by omega)]
  have size : ∀ k < older.length + 1, newest.2 + ((older.take k).map Prod.snd).sum =
      (recordsFile (records.drop (records.length - (k + 1)))).length := fun k less => by
    rw [← sum_newest 0, ← front k less, map_cons, sum_cons]
  refine ⟨records.length - (count + 1), ⟨drop_suffix _ _, ?_, ?_, ?_, ?_⟩, ?_⟩
  · rw [ne_eq, drop_eq_nil_iff]
    omega
  · rw [length_drop]
    omega
  · rw [length_drop, ← size count (by omega)]
    rcases count.eq_zero_or_pos with rfl | more
    · exact .inl (by omega)
    exact .inr (fits more)
  · intro _ suffix _ small
    -- One record more than those taken is already too large.
    by_contra longer
    rw [length_drop] at longer
    have short := suffix.length_le
    have large := next (by omega)
    rw [size _ (by omega)] at large
    obtain ⟨_, split⟩ := suffix_of_suffix_length_le
      (drop_suffix (records.length - (count + 1 + 1)) records) suffix (by rw [length_drop]; omega)
    rw [← split, recordsFile_append, length_append] at small
    omega
  have last : (newest :: fitting cap newest.2 older).getLast? =
      (placed 0 records)[records.length - (count + 1)]? := by
    rw [fitted, front count (by omega), getLast?_take, if_neg (by omega),
      getElem?_reverse (by simp; omega), length_placed,
      show records.length - 1 - (count + 1 - 1) = records.length - (count + 1) by omega,
      getElem?_placed, getElem?_eq_getElem (by omega)]
    rfl
  rw [getElem?_placed, getElem?_eq_getElem (by omega), getLast?_eq_getLast_of_ne_nil
    (cons_ne_nil _ _), map_some, some_inj] at last
  unfold tailStart
  rw [taken]
  simp [last]

lemma tailStart_eq_zero {cap : Nat}
    (fits : records.length ≤ 1 ∨
      records.length ≤ cmqJsMsgsKeep ∧ (recordsFile records).length ≤ cap) :
    tailStart cap (placed 0 records) = 0 := by
  by_cases none : records = []
  · rw [none]
    rfl
  obtain ⟨count, tail, start⟩ := tailStart_placed cap none
  have all : records.length ≤ (records.drop count).length := by
    rcases fits with single | ⟨few, small⟩
    · exact single.trans (length_pos_iff.mpr tail.nonempty)
    exact tail.longest records (suffix_refl _) few small
  rw [length_drop] at all
  have positive := length_pos_iff.mpr none
  rw [start, show count = 0 by omega]
  rfl

section Rotate

lemma length_le_recordsFile (whole : Whole records) :
    records.length ≤ (recordsFile records).length := by
  induction records with
  | nil => exact le_refl _
  | cons record records ih =>
    have length := (accepts_iff.mp (whole record mem_cons_self)).2
    have rest := ih fun other member => whole other (mem_cons_of_mem _ member)
    have file : recordsFile (record :: records) = record ++ recordsFile records := rfl
    rw [file, length_append, length_cons]
    omega

/-- A compaction leaves the file alone, or removes some of the oldest records. -/
lemma jsCompactMsgs_whole (cap : Nat) (whole : Whole records)
    (file : files.at? (jsPath name .msgs) = some (recordsFile records)) :
    jsCompactMsgs cap files name = [] ∨ ∃ count, count < records.length ∧
        jsCompactMsgs cap files name =
          replaceOps (jsPath name .msgs) (recordsFile (records.drop count)) := by
  unfold jsCompactMsgs
  split
  · exact .inl rfl
  rw [file]
  simp only [scanMsgs_whole whole 0 (length_le_recordsFile whole)]
  by_cases none : records = []
  · subst none
    exact .inl rfl
  obtain ⟨count, tail, start⟩ := tailStart_placed cap none
  split
  · exact .inl rfl
  exact .inr ⟨count, by simpa using tail.nonempty, by rw [start, drop_recordsFile]⟩

lemma jsMaybeRotateMsgs_whole (cap : Nat) (whole : Whole records)
    (file : files.at? (jsPath name .msgs) = some (recordsFile records)) :
    jsMaybeRotateMsgs cap files name = [] ∨ ∃ count, count < records.length ∧
        jsMaybeRotateMsgs cap files name =
          replaceOps (jsPath name .msgs) (recordsFile (records.drop count)) := by
  unfold jsMaybeRotateMsgs
  split
  · exact .inl rfl
  simp only [file]
  split
  · exact .inl rfl
  exact jsCompactMsgs_whole cap whole file

lemma jsMaybeRotateMsgs_eq_nil {cap : Nat} (whole : Whole records)
    (file : files.at? (jsPath name .msgs) = some (recordsFile records))
    (fits : cap = 0 ∨ (recordsFile records).length < cap ∨ records.length ≤ 1 ∨
      records.length ≤ cmqJsMsgsKeep ∧ (recordsFile records).length ≤ cap) :
    jsMaybeRotateMsgs cap files name = [] := by
  unfold jsMaybeRotateMsgs
  split
  · rfl
  next on =>
  simp only [file]
  split
  · rfl
  next large =>
  have kept := (fits.resolve_left on).resolve_left large
  simp only [jsCompactMsgs, if_neg on, file,
    scanMsgs_whole whole 0 (length_le_recordsFile whole), tailStart_eq_zero kept, if_true]

end Rotate

/-! ### The ring of the scan -/

/-- `hist` behind the scan: a record is kept at the number of those before it, modulo the size. -/
def jsHist (records : List (Nat × Nat)) : Nat → Nat × Nat :=
  records.zipIdx.foldl (fun hist (record, count) =>
    Function.update hist (count % cmqJsMsgsKeep) record) fun _ => (0, 0)

/-- The loop over the newest entries with `left` turns to go, in which `i` is `take`. -/
def histTake (cap newest : Nat) (hist : Nat → Nat × Nat) : (left take bytes : Nat) → Nat
  | 0, take, _ => take
  | left + 1, take, bytes =>
    let r := hist ((newest + cmqJsMsgsKeep - take) % cmqJsMsgsKeep)
    if take > 0 ∧ bytes + r.2 > cap then take
    else histTake cap newest hist left (take + 1) (bytes + r.2)

/-- `oldest->off`. -/
def histStart (cap : Nat) (records : List (Nat × Nat)) : Nat :=
  let hist := jsHist records
  let newest := (records.length - 1) % cmqJsMsgsKeep
  let take := histTake cap newest hist (min records.length cmqJsMsgsKeep) 0 0
  (hist ((newest + cmqJsMsgsKeep - (take - 1)) % cmqJsMsgsKeep)).1

/-- `js_compact_msgs` with the ring in which it keeps the offsets. -/
def jsCompactMsgsRing (cap : Nat) (files : FileMap JsPath) (name : Bytes) :
    List (FileOp JsPath) :=
  if cap = 0 then []
  else
    match files.at? (jsPath name .msgs) with
    | none => []
    | some file =>
      match scanMsgs file.length 0 file with
      | none => []
      | some records =>
        if records = [] then []
        else
          let start := histStart cap records
          if start = 0 then [] else replaceOps (jsPath name .msgs) (file.drop start)

lemma jsHist_newest {records : List (Nat × Nat)} (located : records[i]? = some record)
    (near : records.length ≤ i + cmqJsMsgsKeep) : jsHist records (i % cmqJsMsgsKeep) = record := by
  induction records using List.reverseRecOn with
  | nil => cases located
  | append_singleton records last ih =>
    rw [length_append, length_singleton] at near
    rw [show jsHist (records ++ [last]) = Function.update (jsHist records)
      (records.length % cmqJsMsgsKeep) last by simp [jsHist, zipIdx_append]]
    by_cases before : i < records.length
    · rw [getElem?_append_left before] at located
      rw [Function.update_of_ne, ih located (by omega)]
      exact RingBuffer.place_ne i.succ_pos (Nat.succ_lt_succ before) (by omega)
    rw [getElem?_append_right (by omega), getElem?_singleton] at located
    split at located
    next =>
      rw [show i = records.length by omega, Function.update_self]
      exact some_inj.mp located
    cases located

lemma jsHist_back {records : List (Nat × Nat)}
    (located : (records.reverse.take cmqJsMsgsKeep)[k]? = some record) :
    jsHist records (((records.length - 1) % cmqJsMsgsKeep + cmqJsMsgsKeep - k) % cmqJsMsgsKeep) =
      record := by
  obtain ⟨inside, -⟩ := List.getElem?_eq_some_iff.mp located
  rw [length_take, length_reverse] at inside
  rw [getElem?_take_of_lt (by omega), getElem?_reverse (by omega)] at located
  have held := jsHist_newest located (by omega)
  rw [cmqJsMsgsKeep] at inside held ⊢
  rwa [show ((records.length - 1) % 1024 + 1024 - k) % 1024 = (records.length - 1 - k) % 1024 by
    omega]

/-- Behind the first turn, the loop takes the records that fit. -/
lemma histTake_eq (cap bytes : Nat) {newest take : Nat} (begun : 0 < take)
    (cells : ∀ k record, older[k]? = some record →
      hist ((newest + cmqJsMsgsKeep - (take + k)) % cmqJsMsgsKeep) = record) :
    histTake cap newest hist older.length take bytes = take + (fitting cap bytes older).length := by
  induction older generalizing take bytes with
  | nil => rfl
  | cons record older ih =>
    have head := cells 0 record rfl
    have rest := ih (bytes + record.2) take.succ_pos fun k other located => by
      rw [Nat.succ_add_eq_add_succ]
      exact cells (k + 1) other located
    rw [Nat.add_zero] at head
    simp only [length_cons, histTake, head, fitting]
    by_cases large : bytes + record.2 > cap
    · simp [begun, large]
    rw [if_neg (fun both => large both.2), if_neg large, rest, length_cons]
    omega

lemma histStart_eq (cap : Nat) {records : List (Nat × Nat)} (filled : records ≠ []) :
    histStart cap records = tailStart cap records := by
  cases taken : records.reverse.take cmqJsMsgsKeep with
  | nil => simp [cmqJsMsgsKeep, filled] at taken
  | cons newest older =>
    have number : min records.length cmqJsMsgsKeep = older.length + 1 := by
      rw [← length_cons, ← taken]
      simp [Nat.min_comm]
    have cells := fun k record => @jsHist_back k record records
    rw [taken] at cells
    obtain ⟨count, bound, fitted, -⟩ := fitting_spec cap newest.2 older
    have first := cells 0 newest rfl
    have walked := histTake_eq cap newest.2 one_pos fun k record _ =>
      cells (1 + k) record (by rwa [Nat.add_comm, getElem?_cons_succ])
    have last : (newest :: older)[count]? =
        some ((newest :: fitting cap newest.2 older).getLast (cons_ne_nil _ _)) := by
      rw [← getLast?_eq_getLast_of_ne_nil, fitted, ← take_succ_cons, getLast?_take,
        if_neg count.succ_ne_zero, Nat.succ_sub_one,
        getElem?_eq_getElem (Nat.lt_succ_of_le bound), some_or]
    have size : (fitting cap newest.2 older).length = count := by
      rw [fitted, length_take, min_eq_left bound]
    have take : histTake cap ((records.length - 1) % cmqJsMsgsKeep) (jsHist records)
        (min records.length cmqJsMsgsKeep) 0 0 = 1 + count := by
      rw [number, histTake, if_neg (by simp), first, ← size, ← walked, Nat.zero_add, Nat.zero_add]
    rw [histStart, take, Nat.add_sub_cancel_left, cells count _ last, tailStart, taken]

lemma jsCompactMsgsRing_eq (cap : Nat) (files : FileMap JsPath) (name : Bytes) :
    jsCompactMsgsRing cap files name = jsCompactMsgs cap files name := by
  unfold jsCompactMsgsRing jsCompactMsgs
  congr! 4
  funext records
  split
  next none => rw [none, tailStart, reverse_nil, take_nil, if_pos rfl]
  next filled => rw [histStart_eq cap filled]

/-- A compaction leaves the longest tail that fits, byte for byte. -/
theorem jsCompactMsgsRing_leaves_longest (cap : Nat) (files : FileMap JsPath) (name : Bytes)
    (records : List Bytes) (whole : Whole records) (positive : 0 < cap)
    (file : files.at? (jsPath name .msgs) = some (recordsFile records)) :
    ∃ kept, (run files (jsCompactMsgsRing cap files name)).at? (jsPath name .msgs) =
        some (recordsFile kept) ∧
      if records = [] then kept = [] else LongestTail cap records kept := by
  rw [jsCompactMsgsRing_eq, jsCompactMsgs, if_neg positive.ne', file]
  simp only [scanMsgs_whole whole 0 (length_le_recordsFile whole)]
  by_cases none : records = []
  · subst none
    exact ⟨[], file, rfl⟩
  obtain ⟨count, _, start⟩ := tailStart_placed cap none
  refine ⟨records.drop count, ?_, by rwa [if_neg none]⟩
  rw [start, ← drop_recordsFile]
  split
  next zero => rw [run_nil, file, zero, drop_zero]
  rw [run_replaceOps_at?, if_pos ⟨rfl, rfl⟩]

def sampleRecords : List Bytes := [jsRecord 1 (cstr "a"), jsRecord 2 (cstr "bc"), jsRecord 3 (cstr "d")]

theorem jsCompactMsgsRing_leaves_longest_two :
    let files := FileMap.empty.write (jsPath (cstr "s") .msgs) (recordsFile sampleRecords)
    let path := jsPath (cstr "s") .msgs
    (run files (jsCompactMsgsRing 40 files (cstr "s"))).at? path =
        some (recordsFile (sampleRecords.drop 1)) ∧
      ∃ kept, (run files (jsCompactMsgsRing 40 files (cstr "s"))).at? path =
          some (recordsFile kept) ∧
        if sampleRecords = [] then kept = [] else LongestTail 40 sampleRecords kept := by
  have whole : Whole sampleRecords := by
    simp only [Whole, sampleRecords, forall_mem_cons]
    exact ⟨accepts_jsRecord 1 ⟨by decide, by decide⟩, accepts_jsRecord 2 ⟨by decide, by decide⟩,
      accepts_jsRecord 3 ⟨by decide, by decide⟩, nofun⟩
  exact ⟨by decide +kernel, jsCompactMsgsRing_leaves_longest 40 _ _ _ whole (by decide)
    (FileMap.write_at?_self _ _ _)⟩

end CMsgQueue.Store
