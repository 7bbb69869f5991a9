import CMsgQueue.Store.JsSpec

/-!
# Opening a durable stream

The slots of a store by their names, and what `js_get_or_create_slot` makes from the files of a
stream: the consumers come from their file, the partitions from theirs or from the default, and
the messages of all whole records are replayed.
-/

namespace CMsgQueue.Store

open FileOp List Text

/-! ## Slots -/

namespace CmqJs

variable {js : CmqJs} {slot : JsSlot} {name : Bytes}

lemma name_of_findSlot (found : js.findSlot name = some slot) : slot.name = name := by
  have named := find?_some found
  exact beq_iff_eq.mp named

lemma findSlot_setSlot (js : CmqJs) (slot : JsSlot) (name : Bytes) :
    (js.setSlot slot).findSlot name =
      if name = slot.name then (js.findSlot name).map fun _ => slot else js.findSlot name := by
  unfold findSlot setSlot
  induction js.slots with
  | nil => simp
  | cons first slots ih =>
    rw [map_cons, find?_cons, find?_cons, ih]
    by_cases here : first.name = slot.name
    · rw [here]
      by_cases wanted : name = slot.name
      · simp [wanted]
      simp [beq_eq_false_iff_ne.mpr (Ne.symm wanted)]
    rw [if_neg here]
    by_cases wanted : name = slot.name
    · have other := beq_eq_false_iff_ne.mpr fun same => here (same.trans wanted)
      simp [wanted, wanted ▸ other]
    simp [wanted]

lemma findSlot_append (absent : js.findSlot slot.name = none) (name : Bytes) :
    ({ js with slots := js.slots ++ [slot] } : CmqJs).findSlot name =
      if name = slot.name then some slot else js.findSlot name := by
  unfold findSlot at absent ⊢
  rw [find?_append]
  by_cases wanted : name = slot.name
  · rw [wanted, absent]
    simp
  simp [wanted, beq_eq_false_iff_ne.mpr (Ne.symm wanted)]

end CmqJs

/-! ## Names -/

lemma cursorTokenSafe_of_nameOk (ok : nameOk name = true) : cursorTokenSafe name = true := by
  simp only [nameOk, Bool.and_eq_true, Bool.not_eq_true', Bool.or_eq_false_iff,
    decide_eq_false_iff_not, all_eq_true] at ok
  refine cursorTokenSafe_iff.mpr ⟨?_, fun c member => ?_⟩
  · rintro rfl
    exact ok.1.1 rfl
  have char := ok.2 c member
  rw [nameChar] at char
  simp [cursorTokenChar, char]

lemma length_lt_of_nameOk (ok : nameOk name = true) : name.length < cmqJsNameMax := by
  simp only [nameOk, Bool.and_eq_true, Bool.not_eq_true', Bool.or_eq_false_iff,
    decide_eq_false_iff_not] at ok
  omega

lemma nameOk_of_parse (parsed : cmqJsParse subject = .ok name) : nameOk name = true := by
  unfold cmqJsParse at parsed
  split at parsed
  · cases parsed
  dsimp only at parsed
  split at parsed
  · cases parsed
  next good =>
  cases parsed
  simp only [not_or, Bool.not_eq_false] at good
  exact good.2.2

lemma nameOk_of_parseCons {subject name cons : Bytes}
    (parsed : cmqJsParseCons subject = .ok (name, cons)) :
    nameOk name = true ∧ nameOk cons = true := by
  unfold cmqJsParseCons at parsed
  split at parsed
  · cases parsed
  dsimp only at parsed
  split at parsed
  · cases parsed
  next good =>
  cases parsed
  simp only [not_or, Bool.not_eq_false] at good
  exact good.2.2.2.2

/-! ## Opening -/

def freshStream : CmqStream :=
  ⟨⟨List.replicate jsRing .zeroed, 1, 0⟩, [], jsRing, 0, 0, 1, []⟩

lemma cmqStreamCreate_eq (ok : nameOk name = true) :
    cmqStreamCreate name 1024 0 = some freshStream := by
  have short := length_lt_of_nameOk ok
  unfold cmqStreamCreate cmqStoreCreate
  rw [if_neg (not_le.mpr (lt_trans short (by decide)))]
  rfl

/-- A stream with the consumers of a file and its partitions, and no messages. -/
def openedStream (nparts : Nat) (consumers : List ConsumerEntry) : CmqStream :=
  { freshStream with
    nparts := nparts
    msgPart := if 1 < nparts then List.replicate jsRing 0 else []
    consumers := consumers.map (ConsumerEntry.reload nparts) }

variable {nparts : Nat}

lemma openedStream_logs (positive : 1 ≤ nparts) (nparts_le : nparts ≤ cmqStreamMaxParts)
    (consumers : List ConsumerEntry) : (openedStream nparts consumers).Logs nparts [] := by
  refine ⟨rfl, rfl, rfl, by decide, [], ?_, rfl, by simp⟩
  have created : cmqStoreCreate jsRing = some freshStream.store := by rfl
  refine ⟨cmqStoreCreate_keeps created, positive, nparts_le, by simp, fun several => ?_⟩
  change 1 < nparts at several
  simp only [openedStream, if_pos several]
  exact ⟨length_replicate, RingBuffer.Window.nil _ _⟩

/-- The file with the cursors: none yet, one that was written before there were consumers, or
one with these consumers. -/
inductive CursorFile (nparts : Nat) : Option Bytes → List ConsumerEntry → Prop where
  | none : CursorFile nparts none []
  | plain : CursorFile nparts (some (cursorText freshStream)) []
  | saved (stream : CmqStream) (parts : stream.nparts = nparts)
      (loadable : Loadable freshStream stream.consumers) :
      CursorFile nparts (some (cursorText stream)) stream.consumers

lemma cursorFile_loaded {loaded : CmqStream}
    (either : loaded = openedStream nparts [] ∨ [] = ([] : List ConsumerEntry) ∧
      loaded = freshStream) : CursorFile nparts (some (cursorText loaded)) [] := by
  rcases either with rfl | ⟨-, rfl⟩
  · have loadable : Loadable freshStream (openedStream nparts []).consumers :=
      ⟨by simp [openedStream], by simp [openedStream, freshStream],
        by simp [openedStream, freshStream]⟩
    exact .saved (openedStream nparts []) rfl loadable
  exact .plain

lemma cursorLoad_opened (nparts_le : nparts ≤ cmqStreamMaxParts) (positive : 1 ≤ nparts)
    (cursors : CursorFile nparts file consumers) :
    cursorLoad freshStream file = some (openedStream nparts consumers) ∨
      consumers = [] ∧ cursorLoad freshStream file = some freshStream := by
  cases cursors with
  | none => exact .inr ⟨rfl, rfl⟩
  | plain =>
    refine .inr ⟨rfl, ?_⟩
    rfl
  | saved _ parts loadable =>
    refine .inl ?_
    by_cases several : 1 < nparts
    · rw [cursorLoad_parts (parts ▸ several) (parts ▸ nparts_le) rfl loadable, parts]
      simp only [openedStream, if_pos several]
      rfl
    have single : nparts = 1 := by omega
    rw [cursorLoad_single (le_of_eq (parts.trans single)) loadable, single]
    rfl

lemma cmqStreamSetPartitions_fresh (several : 1 < nparts)
    (nparts_le : nparts ≤ cmqStreamMaxParts) :
    cmqStreamSetPartitions freshStream nparts = (openedStream nparts [], true) := by
  have single : freshStream.nparts ≠ nparts := Nat.ne_of_lt several
  have empty : ¬ freshStream.store.lastSeq ≠ 0 := by decide
  unfold cmqStreamSetPartitions partsAlloc
  rw [if_neg (by omega), if_neg single, if_neg empty, if_neg (by omega), if_neg (by omega)]
  simp only [openedStream, if_pos several]
  rfl

lemma jsPartsFileN_text (positive : 1 ≤ nparts)
    (nparts_le : nparts ≤ cmqStreamMaxParts) : jsPartsFileN (some (jsPartsText nparts)) = nparts := by
  have bound : nparts < 2 ^ 64 := lt_of_le_of_lt nparts_le (by decide)
  have fits : nparts % 2 ^ 32 = nparts :=
    Nat.mod_eq_of_lt (lt_of_le_of_lt nparts_le (by decide))
  have magic : (jsPartsText nparts).take 4 = cstr "CMQP" := rfl
  have rest : (jsPartsText nparts).drop 4 = [10] ++ (decimal nparts ++ [newline]) := rfl
  have number := scanNumber_blanks [10] bound (fun _ member => mem_singleton.mp member ▸ rfl)
    not_digit_newline
  unfold jsPartsFileN
  dsimp only
  rw [magic, rest, number]
  simp only [ne_eq, not_true_eq_false, if_false, fits]
  rw [if_neg (by omega)]

/-- The files from which a stream with `nparts` partitions is opened. -/
structure OpensFrom (files : FileMap JsPath) (name : Bytes) (nparts : Nat)
    (consumers : List ConsumerEntry) : Prop where
  nameOk : nameOk name = true
  positive : 1 ≤ nparts
  nparts_le : nparts ≤ cmqStreamMaxParts
  cursors : CursorFile nparts (files.at? (jsPath name .cursors)) consumers
  parts : files.at? (jsPath name .parts) = none ∨
    1 < nparts ∧ files.at? (jsPath name .parts) = some (jsPartsText nparts)

namespace OpensFrom

variable {files : FileMap JsPath} {name : Bytes} {nparts : Nat} {consumers : List ConsumerEntry}

/-- The operations of an opening: the cursors are saved as they were loaded, and the number of
partitions if it has no file yet. -/
def ops (files : FileMap JsPath) (name : Bytes) (nparts : Nat) (loaded : CmqStream) :
    List (FileOp JsPath) :=
  cursorOps name loaded ++
    if 1 < nparts ∧ files.at? (jsPath name .parts) = none then
      replaceOps (jsPath name .parts) (jsPartsText nparts)
    else []

lemma within_ops (files : FileMap JsPath) (name : Bytes) (nparts : Nat) (loaded : CmqStream) :
    Within name (ops files name nparts loaded) := by
  refine (within_cursorOps name loaded).append ?_
  split
  · exact within_replaceOps rfl _
  exact .nil name

section

variable (opens : OpensFrom files name nparts consumers)
include opens

lemma jsOpenParts_eq
    (either : loaded = openedStream nparts consumers ∨ consumers = [] ∧ loaded = freshStream) :
    jsOpenParts nparts files name loaded =
      (openedStream nparts consumers,
        if 1 < nparts ∧ files.at? (jsPath name .parts) = none then
          replaceOps (jsPath name .parts) (jsPartsText nparts)
        else []) := by
  have positive := opens.positive
  have nparts_le := opens.nparts_le
  have set : 1 < nparts → cmqStreamSetPartitions loaded nparts =
      (openedStream nparts consumers, true) := by
    intro several
    rcases either with rfl | ⟨rfl, rfl⟩
    · rw [cmqStreamSetPartitions, if_neg (by omega)]
      exact if_pos rfl
    exact cmqStreamSetPartitions_fresh several nparts_le
  have same : nparts = 1 → loaded = openedStream nparts consumers := by
    rintro rfl
    rcases either with same | ⟨rfl, rfl⟩
    · exact same
    rfl
  unfold jsOpenParts
  rcases opens.parts with none | ⟨several, some⟩
  · simp only [none, jsPartsFileN, if_true, and_true, true_and]
    by_cases several : 1 < nparts
    · simp only [if_pos several, set several]
      rfl
    simp only [if_neg several]
    rw [same (by omega)]
  have read := jsPartsFileN_text positive nparts_le
  rw [some]
  simp only [read, if_neg (show nparts ≠ 0 by omega), set several, false_and, if_false,
    reduceCtorEq, and_false]

lemma jsOpenStream_eq :
    ∃ loaded, (loaded = openedStream nparts consumers ∨ consumers = [] ∧ loaded = freshStream) ∧
      jsOpenStream nparts files name =
        some (openedStream nparts consumers, ops files name nparts loaded) := by
  obtain ⟨loaded, either, load⟩ : ∃ loaded,
      (loaded = openedStream nparts consumers ∨ consumers = [] ∧ loaded = freshStream) ∧
        cursorLoad freshStream (files.at? (jsPath name .cursors)) = some loaded := by
    rcases cursorLoad_opened opens.nparts_le opens.positive opens.cursors with load | ⟨none, load⟩
    · exact ⟨_, .inl rfl, load⟩
    exact ⟨_, .inr ⟨none, rfl⟩, load⟩
  refine ⟨loaded, either, ?_⟩
  unfold jsOpenStream
  rw [cmqStreamCreate_eq opens.nameOk, cursorTokenSafe_of_nameOk opens.nameOk]
  simp only [Option.bind_eq_bind, Option.bind_some, load, opens.jsOpenParts_eq either]
  rfl

lemma run_ops_at? (loaded : CmqStream) (kind : JsKind) :
    (run files (ops files name nparts loaded)).at? (jsPath name kind) =
      match kind with
      | .cursors => some (cursorText loaded)
      | .parts => if 1 < nparts then some (jsPartsText nparts) else none
      | kind => files.at? (jsPath name kind) := by
  rw [ops, run_append]
  have parts := opens.parts
  split
  next missing =>
    rw [run_replaceOps_at?, run_cursorOps_at?]
    cases kind <;> simp [missing.1]
  next there =>
  rw [run_nil, run_cursorOps_at?]
  cases kind with
  | cursors | last | msgs => simp
  | parts =>
    simp only [reduceCtorEq, and_false, if_false]
    rcases parts with none | ⟨several, some⟩
    · rw [none, if_neg fun several => there ⟨several, none⟩]
    rw [some, if_pos several]

lemma getOrCreate (parts : js.defParts = nparts) (absent : js.findSlot name = none)
    (room : js.slots.length < cmqJsMax) (nowMs : Nat) :
    ∃ slot loaded,
      (loaded = openedStream nparts consumers ∨ consumers = [] ∧ loaded = freshStream) ∧
      jsGetOrCreateSlot js files nowMs name =
        some ({ js with slots := js.slots ++ [slot] }, slot, ops files name nparts loaded) ∧
      slot.name = name ∧
      slot.st = (jsReplay nowMs (openedStream nparts consumers)
        (jsFileMsgs (files.at? (jsPath name .msgs)))).1 := by
  obtain ⟨loaded, either, opened⟩ := opens.jsOpenStream_eq
  unfold jsGetOrCreateSlot
  rw [absent]
  rw [if_neg (not_le.mpr room), parts, opened]
  exact ⟨_, loaded, either, rfl, rfl, rfl⟩

end

end OpensFrom

/-! ## Publishing on a slot -/

def publishOps (name : Bytes) (seq : Nat) (val : Bytes) : List (FileOp JsPath) :=
  jsSaveLast name seq val ++ [.append (jsPath name .msgs) (jsRecord seq val)]

lemma run_publishOps_at? (files : FileMap JsPath) (name : Bytes) (seq : Nat) (val : Bytes)
    (kind : JsKind) :
    (run files (publishOps name seq val)).at? (jsPath name kind) =
      match kind with
      | .last => some (jsHeader (cstr "CMQL") seq val.length ++ val)
      | .msgs => some ((files.at? (jsPath name .msgs)).getD [] ++ jsRecord seq val)
      | kind => files.at? (jsPath name kind) := by
  have replaced := run_replaceOps_at? files name .last
    (jsHeader (cstr "CMQL") seq val.length ++ val) name
  rw [publishOps, run_append, jsSaveLast, run_cons, run_nil]
  simp only [apply]
  rw [FileMap.write_at?, replaced, replaced]
  cases kind <;> simp [jsPath]

lemma within_publishOps (name : Bytes) (seq : Nat) (val : Bytes) :
    Within name (publishOps name seq val) := by
  have saved : Within name (jsSaveLast name seq val) := within_replaceOps rfl _
  refine saved.append fun _ member path touched => ?_
  rw [mem_singleton.mp member] at touched
  have same : jsPath name .msgs = path := touched
  rw [← same]
  rfl

namespace CmqStream.Logs

variable {slot : JsSlot} {nparts : Nat} {messages : List Bytes}

variable (files : FileMap JsPath) (logs : slot.st.Logs nparts messages)
include files logs

lemma publish_refused (rotateBytes nowMs : Nat) (refused : ¬ Takes slot.st val) :
    jsPublishSlot rotateBytes nowMs files slot val = (slot, [], -1) := by
  unfold jsPublishSlot
  rw [logs.append_refused nowMs refused]
  rfl

lemma publish_large (rotateBytes nowMs : Nat) (takes : Takes slot.st val)
    (large : cmqJsValMax < val.length) :
    ∃ other, SameConsumers slot.st other ∧ other.Logs nparts (messages ++ [val]) ∧
      jsPublishSlot rotateBytes nowMs files slot val = ({ slot with st := other }, [], -1) := by
  obtain ⟨other, appended, same, logs'⟩ := logs.append_taken nowMs takes
  refine ⟨other, same, logs', ?_⟩
  unfold jsPublishSlot jsSlotSetLast
  rw [appended]
  simp only [Nat.succ_ne_zero, if_false, if_pos (Or.inr large : val.length = 0 ∨ _)]

lemma publish_taken (rotateBytes nowMs : Nat) (takes : Takes slot.st val)
    (small : val.length ≤ cmqJsValMax) :
    ∃ other, SameConsumers slot.st other ∧ other.Logs nparts (messages ++ [val]) ∧
      jsPublishSlot rotateBytes nowMs files slot val =
        ({ slot with st := other, last := some (messages.length + 1, val) },
          publishOps slot.name (messages.length + 1) val ++
            jsMaybeRotateMsgs rotateBytes
              (run files (publishOps slot.name (messages.length + 1) val)) slot.name, 1) := by
  obtain ⟨other, appended, same, logs'⟩ := logs.append_taken nowMs takes
  refine ⟨other, same, logs', ?_⟩
  have nonempty := takes.nonempty
  have last : other.store.lastSeq = messages.length + 1 := by
    rw [logs'.lastSeq_eq, length_append, length_singleton]
  unfold jsPublishSlot jsSlotSetLast jsAppendMsg
  rw [appended]
  rw [if_neg (Nat.succ_ne_zero _), last, if_neg (by omega)]
  dsimp only
  rw [if_neg (by omega)]
  rfl

end CmqStream.Logs

end CMsgQueue.Store
