import CMsgQueue.Proto.Parser

/-!
# What one parser operation does

The representation invariant and, for each operation, one specification: it moves bytes between
the frame queue, the unread window and the hold buffer.
-/

namespace CMsgQueue.Proto

open List Framing

namespace CmqParser

def queuePayload (queue : List Frame) : Nat :=
  (queue.map fun frame => frame.payload.length).sum

structure WF (p : CmqParser) : Prop where
  max_pos : 0 < p.maxPayload
  max_le : p.maxPayload ≤ cmqMaxFramePayload
  off_le : p.inbufOff ≤ p.inbuf.length
  fits : p.inbuf.length ≤ p.inbufCap
  cap_pos : 0 < p.inbufCap
  queued_eq : p.queued = p.queue.length
  queued_le : p.queued ≤ cmqParserFrameQueueMax
  bytes_eq : p.queuedBytes = queuePayload p.queue
  bytes_le : p.queuedBytes ≤ 2 * p.maxPayload
  window_le : p.window.length ≤ p.hard
  hold_le : p.hold.length ≤ p.hard
  valid : ∀ frame ∈ p.queue, frame.Valid p.maxPayload

/-- Bytes received but not yet handed to the caller, in stream order. -/
def content (p : CmqParser) : Bytes := encodeFrames p.queue ++ p.window ++ p.hold

lemma WF.latch {p : CmqParser} (wf : p.WF) (latched : Bool) :
    { p with pendingError := latched }.WF :=
  { wf with }

lemma WF.moveToFront {p : CmqParser} (wf : p.WF) :
    { p with inbuf := p.window, inbufOff := 0 }.WF := by
  have shorter : p.window.length ≤ p.inbuf.length := by simp [window]
  exact
    { wf with
      off_le := Nat.zero_le _
      fits := le_trans shorter wf.fits
      window_le := wf.window_le }

lemma WF.takeHold {p : CmqParser} (wf : p.WF) : p.takeHold.WF :=
  { wf with hold_le := Nat.zero_le _ }

end CmqParser

lemma cmqParserSetMaxPayload_bounds (p : CmqParser) (maxPayload : Nat) :
    0 < (cmqParserSetMaxPayload p maxPayload).maxPayload ∧
      (cmqParserSetMaxPayload p maxPayload).maxPayload ≤ cmqMaxFramePayload := by
  simp only [cmqParserSetMaxPayload]
  split
  · decide
  split
  · decide
  omega

lemma cmqParserCreate_wf (maxPayload : Nat) :
    (cmqParserSetMaxPayload cmqParserCreate maxPayload).WF where
  max_pos := (cmqParserSetMaxPayload_bounds _ _).1
  max_le := (cmqParserSetMaxPayload_bounds _ _).2
  off_le := le_refl _
  fits := Nat.zero_le _
  cap_pos := by simp [cmqParserSetMaxPayload, cmqParserCreate]
  queued_eq := rfl
  queued_le := Nat.zero_le _
  bytes_eq := rfl
  bytes_le := Nat.zero_le _
  window_le := Nat.zero_le _
  hold_le := Nat.zero_le _
  valid := by simp [cmqParserSetMaxPayload, cmqParserCreate]

lemma queuedBudget_eq (small : maxPayload ≤ cmqMaxFramePayload) :
    queuedBudget maxPayload = 2 * maxPayload := by
  have inRange : maxPayload ≤ sizeMax / cmqParserQueuedBytesFactor := by
    refine le_trans small ?_
    decide
  rw [queuedBudget, if_pos inRange, cmqParserQueuedBytesFactor, Nat.mul_comm]

lemma length_lt_of_more (verdict : peelFrame maxPayload buffer = .more) :
    buffer.length < cmqHeaderLen + maxPayload := by
  unfold peelFrame at verdict
  split at verdict
  · cases verdict
  split at verdict
  next b0 b1 b2 flags op l0 l1 l2 l3 body =>
    split at verdict
    · cases verdict
    split at verdict
    · cases verdict
    split at verdict
    next =>
      simp only [length_cons, cmqHeaderLen]
      omega
    cases verdict
  next short =>
  by_contra long
  have header : cmqHeaderLen ≤ buffer.length := by omega
  obtain ⟨b0, b1, b2, flags, op, l0, l1, l2, l3, body, shape⟩ := exists_header header
  exact short b0 b1 b2 flags op l0 l1 l2 l3 body shape

/-! ## Queueing one frame -/

variable {p : CmqParser}

lemma cmqPushFrame_ne_none (wf : p.WF) (empty : p.queue = [])
    (small : frame.payload.length ≤ p.maxPayload) : cmqPushFrame p frame ≠ none := by
  have queued : p.queued = 0 := by simp [wf.queued_eq, empty]
  have bytes : p.queuedBytes = 0 := by simp [wf.bytes_eq, empty, CmqParser.queuePayload]
  rw [cmqPushFrame, queued, queuedBudget_eq wf.max_le, if_neg (by decide), if_neg (by omega)]
  simp

lemma WF_of_cmqPushFrame (wf : p.WF)
    (verdict : peelFrame p.maxPayload p.window = .item frame size)
    (pushed : cmqPushFrame p frame = some q) :
    { q with inbufOff := q.inbufOff + size }.WF ∧
      q.queue = p.queue ++ [frame] ∧
      { q with inbufOff := q.inbufOff + size }.window = p.window.drop size ∧
      q.hold = p.hold ∧ q.maxPayload = p.maxPayload ∧
      q.pendingError = p.pendingError := by
  obtain ⟨valid, -, -⟩ := peelFrame_item verdict
  have consumed : size ≤ p.window.length := (frameCodec p.maxPayload).item_le verdict
  have windowLength : p.window.length = p.inbuf.length - p.inbufOff := by simp [CmqParser.window]
  unfold cmqPushFrame at pushed
  split at pushed
  · cases pushed
  split at pushed
  · cases pushed
  next roomForBytes =>
  cases pushed
  rw [queuedBudget_eq wf.max_le] at roomForBytes
  have shifted : (p.inbuf.drop (p.inbufOff + size)) = p.window.drop size := by
    simp [CmqParser.window]
  refine ⟨?_, rfl, shifted, rfl, rfl, rfl⟩
  have offset := wf.off_le
  exact
    { wf with
      off_le := by simp only; omega
      queued_eq := by simp [wf.queued_eq]
      queued_le := by simp only; omega
      bytes_eq := by simp [wf.bytes_eq, CmqParser.queuePayload]
      bytes_le := by simp only; omega
      window_le := by
        change (p.inbuf.drop (p.inbufOff + size)).length ≤ p.hard
        rw [length_drop]
        have bound := wf.window_le
        omega
      valid := forall_mem_append.mpr ⟨wf.valid, forall_mem_singleton.mpr valid⟩ }

lemma parseStep_eq (p : CmqParser) :
    parseStep p =
      match peelFrame p.maxPayload p.window with
      | .more => .exhausted
      | .bad =>
        if p.window.length < cmqHeaderLen then .exhausted
        else .stopped { p with pendingError := true }
      | .item frame size =>
        match cmqPushFrame p frame with
        | none => .stopped p
        | some q => .pushed { q with inbufOff := q.inbufOff + size } := by
  by_cases long : cmqHeaderLen ≤ p.window.length
  · obtain ⟨b0, b1, b2, flags, op, l0, l1, l2, l3, body, shape⟩ := exists_header long
    have bodyLength : p.window.length = cmqHeaderLen + body.length := by
      simp only [shape, length_cons, cmqHeaderLen]
      omega
    unfold parseStep peelFrame
    rw [bodyLength, shape]
    simp only [badPrefix]
    by_cases magic : b0 = cmqProtoMagic0 ∧ b1 = cmqProtoMagic1 ∧ b2 = cmqProtoVersion
    · obtain ⟨rfl, rfl, rfl⟩ := magic
      by_cases control : compressedControl flags op = true
      · simp [control]
      by_cases large : le32 l0 l1 l2 l3 > p.maxPayload
      · simp [large]
      by_cases incomplete : body.length < le32 l0 l1 l2 l3
      · simp [control, large, incomplete]
      simp only [control, large, incomplete, Nat.add_lt_add_iff_left, Bool.false_eq_true]
      all_goals rfl
    have bad : (b0 != cmqProtoMagic0 || b1 != cmqProtoMagic1 ||
        b2 != cmqProtoVersion) = true := by
      simp only [Bool.or_eq_true, bne_iff_ne]
      tauto
    simp only [bad, if_true, if_neg (not_lt.mpr (Nat.le_add_right _ _))]
    by_cases first : b0 ≠ cmqProtoMagic0 ∨ b1 ≠ cmqProtoMagic1
    · rw [if_pos first]
    have third : b2 ≠ cmqProtoVersion := by tauto
    rw [if_neg first, if_pos third]
  have short : p.window.length < cmqHeaderLen := by omega
  have exhausted : parseStep p = .exhausted := by
    unfold parseStep
    split
    next shape =>
      simp only [shape, length_cons, cmqHeaderLen] at short
      omega
    rfl
  rw [exhausted, peelFrame_of_short short]
  cases bad : badPrefix p.window
  · rfl
  simp [short]

/-! ## Parsing the input buffer -/

/-- `frames` were moved from the window to the queue and nothing else moved. -/
structure Parsed (p p' : CmqParser) (frames : List Frame) : Prop where
  wf : p'.WF
  queue_eq : p'.queue = p.queue ++ frames
  window_eq : p.window = encodeFrames frames ++ p'.window
  hold_eq : p'.hold = p.hold
  max_eq : p'.maxPayload = p.maxPayload

lemma Parsed.refl (wf : p.WF) : Parsed p p [] where
  wf
  queue_eq := by simp
  window_eq := by simp [encodeFrames]
  hold_eq := rfl
  max_eq := rfl

lemma Parsed.trans (first : Parsed p q left) (second : Parsed q r right) :
    Parsed p r (left ++ right) where
  wf := second.wf
  queue_eq := by rw [second.queue_eq, first.queue_eq, append_assoc]
  window_eq := by
    rw [first.window_eq, second.window_eq]
    simp [encodeFrames]
  hold_eq := second.hold_eq.trans first.hold_eq
  max_eq := second.max_eq.trans first.max_eq

variable {frames : List Frame}

lemma Parsed.latch (parsed : Parsed p q frames) (latched : Bool) :
    Parsed p { q with pendingError := latched } frames :=
  { parsed with wf := parsed.wf.latch latched }

lemma Parsed.content_eq (parsed : Parsed p q frames) : q.content = p.content := by
  unfold CmqParser.content
  rw [parsed.queue_eq, parsed.window_eq, parsed.hold_eq]
  simp [encodeFrames]

/-- Why the frame loop ended: it fell through at an incomplete frame or a short
malformed prefix, or it returned at a malformed header or a full queue. -/
def ParseExit (before : Bool) (p' : CmqParser) (returned : Bool) : Prop :=
  if returned then
    (p'.pendingError = true ∧ peelFrame p'.maxPayload p'.window = .bad) ∨
      (p'.pendingError = before ∧ p'.queue ≠ [])
  else
    p'.pendingError = before ∧
      (peelFrame p'.maxPayload p'.window = .more ∨ badPrefix p'.window = true)

lemma Parsed.of_push (wf : p.WF) (verdict : peelFrame p.maxPayload p.window = .item frame size)
    (pushed : cmqPushFrame p frame = some q) :
    Parsed p { q with inbufOff := q.inbufOff + size } [frame] ∧
      q.pendingError = p.pendingError := by
  obtain ⟨nextWf, queueEq, windowEq, holdEq, maxEq, errorEq⟩ := WF_of_cmqPushFrame wf verdict pushed
  have wire : frame.wire = p.window.take size := (frameCodec p.maxPayload).encode_item verdict
  have split : p.window = frame.wire ++ p.window.drop size := by rw [wire, take_append_drop]
  refine ⟨⟨nextWf, queueEq, ?_, holdEq, maxEq⟩, errorEq⟩
  rw [windowEq]
  simpa [encodeFrames] using split

lemma parseLoop_spec (produced : Bool) (wf : p.WF) (enough : p.window.length ≤ fuel) :
    ∃ frames, Parsed p (parseLoop fuel p produced).1 frames ∧
      (parseLoop fuel p produced).2.1 = (produced || !frames.isEmpty) ∧
      ParseExit p.pendingError (parseLoop fuel p produced).1 (parseLoop fuel p produced).2.2 := by
  induction fuel generalizing p produced with
  | zero =>
    refine ⟨[], Parsed.refl wf, by simp [parseLoop], rfl, .inl ?_⟩
    have empty : p.window = [] := length_eq_zero_iff.mp (by omega)
    change peelFrame p.maxPayload p.window = .more
    rw [empty]
    rfl
  | succ fuel ih =>
    have step := parseStep_eq p
    cases verdict : peelFrame p.maxPayload p.window with
    | more =>
      rw [verdict] at step
      simp only [parseLoop, step]
      exact ⟨[], Parsed.refl wf, by simp, rfl, .inl verdict⟩
    | bad =>
      rw [verdict] at step
      by_cases short : p.window.length < cmqHeaderLen
      · have bad : badPrefix p.window = true := by
          rw [peelFrame_of_short short] at verdict
          by_contra good
          rw [if_neg good] at verdict
          cases verdict
        simp only [if_pos short] at step
        simp only [parseLoop, step]
        exact ⟨[], Parsed.refl wf, by simp, rfl, .inr bad⟩
      simp only [if_neg short] at step
      simp only [parseLoop, step]
      exact ⟨[], (Parsed.refl wf).latch true, by simp, .inl ⟨rfl, verdict⟩⟩
    | item frame size =>
      rw [verdict] at step
      cases pushed : cmqPushFrame p frame with
      | none =>
        simp only [pushed] at step
        simp only [parseLoop, step]
        refine ⟨[], Parsed.refl wf, by simp, .inr ⟨rfl, fun empty => ?_⟩⟩
        exact cmqPushFrame_ne_none wf empty (peelFrame_item verdict).1.payload_le pushed
      | some q =>
        simp only [pushed] at step
        obtain ⟨front, errorEq⟩ := Parsed.of_push wf verdict pushed
        have shorter :
            { q with inbufOff := q.inbufOff + size }.window.length ≤ fuel := by
          have lengths := congrArg List.length front.window_eq
          have header := Frame.length_wire (peelFrame_item verdict).1.payload_lt
          simp only [encodeFrames, flatMap_cons, length_append, cmqHeaderLen] at lengths header
          omega
        obtain ⟨frames, rest, producedEq, exit⟩ := ih true front.wf shorter
        simp only [parseLoop, step]
        refine ⟨frame :: frames, front.trans rest, ?_, ?_⟩
        · simpa using producedEq
        rw [← errorEq]
        exact exit

/-- What `parser_parse_inbuf` does to an invariant state. -/
structure ParseSpec (p p' : CmqParser) (rc : Int) : Prop where
  parsed : ∃ frames, Parsed p p' frames ∧ (rc = 0 → frames = [])
  le_one : rc ≤ 1
  fatal : rc < 0 → p'.pendingError = true ∧ p'.queue = []
  idle : rc = 0 → p'.pendingError = p.pendingError ∧
    peelFrame p'.maxPayload p'.window = .more
  busy : 0 < rc → p'.queue ≠ []
  verdict : (p'.pendingError = true ∧ peelFrame p'.maxPayload p'.window = .bad) ∨
    (p'.pendingError = p.pendingError ∧
      (peelFrame p'.maxPayload p'.window = .more ∨ p'.queue ≠ []))

lemma peelFrame_of_badPrefix (bad : badPrefix buffer = true) :
    peelFrame maxPayload buffer = .bad := by
  unfold peelFrame
  rw [if_pos bad]

lemma compactInbuf_parsed (wf : p.WF) :
    Parsed p (compactInbuf p) [] ∧ (compactInbuf p).pendingError = p.pendingError ∧
      (compactInbuf p).window = p.window := by
  unfold compactInbuf
  split
  · have sameWindow : ({ p with inbuf := p.window, inbufOff := 0 } : CmqParser).window =
        p.window := rfl
    exact ⟨⟨wf.moveToFront, by simp, by simp [encodeFrames, sameWindow], rfl, rfl⟩, rfl, rfl⟩
  exact ⟨Parsed.refl wf, rfl, rfl⟩

lemma parserHaveFrames_cases (p : CmqParser) (produced : Bool) :
    (parserHaveFrames p produced = 1 ∧ (produced = true ∨ p.queue ≠ [])) ∨
      (parserHaveFrames p produced = -1 ∧ p.queue = []) := by
  unfold parserHaveFrames
  by_cases some : produced = true ∨ p.queue ≠ []
  · rw [if_pos some]
    exact .inl ⟨rfl, some⟩
  rw [if_neg some]
  exact .inr ⟨rfl, by tauto⟩

/-- A return through `parser_have_frames` reports the queued frames, and fails only
when the error is latched over an empty queue. -/
lemma ParseSpec.of_haveFrames (parsed : Parsed p q frames)
    (producedFrames : produced = true → q.queue ≠ []) (exit : ParseExit p.pendingError q true) :
    ParseSpec p q (parserHaveFrames q produced) := by
  have verdict : (q.pendingError = true ∧ peelFrame q.maxPayload q.window = .bad) ∨
      (q.pendingError = p.pendingError ∧
        (peelFrame q.maxPayload q.window = .more ∨ q.queue ≠ [])) := by
    rcases exit with poisoned | ⟨same, some⟩
    · exact .inl poisoned
    exact .inr ⟨same, .inr some⟩
  rcases parserHaveFrames_cases q produced with ⟨rc, some⟩ | ⟨rc, empty⟩
  · rw [rc]
    exact
      { parsed := ⟨frames, parsed, by simp⟩
        le_one := by simp
        fatal := by simp
        idle := by simp
        busy := fun _ => some.elim producedFrames id
        verdict }
  rw [rc]
  have latched : q.pendingError = true := by
    rcases exit with poisoned | ⟨-, some⟩
    · exact poisoned.1
    exact absurd empty some
  exact
    { parsed := ⟨frames, parsed, by simp⟩
      le_one := by simp
      fatal := fun _ => ⟨latched, empty⟩
      idle := by simp
      busy := by simp
      verdict }

lemma ParseSpec.of_compact (parsed : Parsed p q frames)
    (errorEq : q.pendingError = p.pendingError)
    (incomplete : peelFrame q.maxPayload q.window = .more) :
    ParseSpec p (compactInbuf q) (if (!frames.isEmpty) = true then 1 else 0) := by
  obtain ⟨compacted, compactError, compactWindow⟩ := compactInbuf_parsed parsed.wf
  have whole : Parsed p (compactInbuf q) frames := by simpa using parsed.trans compacted
  have incomplete' :
      peelFrame (compactInbuf q).maxPayload (compactInbuf q).window = .more := by
    rw [compactWindow, compacted.max_eq, incomplete]
  have sameError := compactError.trans errorEq
  exact
    { parsed := ⟨frames, whole, by cases frames <;> simp⟩
      le_one := by cases frames <;> simp
      fatal := by cases frames <;> simp
      idle := fun _ => ⟨sameError, incomplete'⟩
      busy := by cases frames <;> simp [whole.queue_eq]
      verdict := .inr ⟨sameError, .inl incomplete'⟩ }

lemma parserParseInbuf_spec (wf : p.WF) :
    ParseSpec p (parserParseInbuf p).1 (parserParseInbuf p).2 := by
  unfold parserParseInbuf
  split
  next bad =>
    exact ParseSpec.of_haveFrames ((Parsed.refl wf).latch true) (by simp)
      (.inl ⟨rfl, peelFrame_of_badPrefix bad⟩)
  next good =>
  obtain ⟨frames, parsed, producedEq, exit⟩ :=
    parseLoop_spec false wf (le_refl p.window.length)
  have producedFrames :
      (parseLoop p.window.length p false).2.1 = true →
        (parseLoop p.window.length p false).1.queue ≠ [] := by
    intro produced
    rw [producedEq] at produced
    cases frames with
    | nil => simp at produced
    | cons _ frames => simp [parsed.queue_eq]
  split
  next p' produced loopEq =>
    rw [loopEq] at parsed producedFrames exit
    exact ParseSpec.of_haveFrames parsed producedFrames exit
  next p' produced loopEq =>
  rw [loopEq] at parsed producedFrames exit producedEq
  obtain ⟨errorEq, ending⟩ := exit
  split
  next bad =>
    exact ParseSpec.of_haveFrames (parsed.latch true) producedFrames
      (.inl ⟨rfl, peelFrame_of_badPrefix bad⟩)
  next good =>
  have incomplete := ending.resolve_right good
  have spec := ParseSpec.of_compact parsed errorEq incomplete
  simp only [Bool.false_or] at producedEq
  rw [producedEq]
  exact spec

/-- Parsing neither clears the error nor moves a window whose front is malformed. -/
lemma ParseSpec.of_bad (spec : ParseSpec p p' rc) (bad : peelFrame p.maxPayload p.window = .bad) :
    p'.window = p.window ∧ peelFrame p'.maxPayload p'.window = .bad := by
  obtain ⟨frames, parsed, -⟩ := spec.parsed
  cases frames with
  | nil =>
    have sameWindow : p'.window = p.window := by simpa [encodeFrames] using parsed.window_eq.symm
    exact ⟨sameWindow, by rw [sameWindow, parsed.max_eq, bad]⟩
  | cons frame frames =>
    have valid : frame.Valid p.maxPayload := by
      have member := parsed.wf.valid frame (by simp [parsed.queue_eq])
      rwa [parsed.max_eq] at member
    have good : peelFrame p.maxPayload p.window ≠ .bad := by
      rw [parsed.window_eq]
      simp only [encodeFrames, flatMap_cons, append_assoc]
      rw [peelFrame_wire valid]
      simp
    exact absurd bad good

lemma ParseSpec.queue_of_full (spec : ParseSpec p p' rc) (success : ¬ rc < 0)
    (full : p'.hard - p'.window.length = 0) : p'.queue ≠ [] := by
  by_cases idle : rc = 0
  · have short := length_lt_of_more (spec.idle idle).2
    unfold CmqParser.hard at full
    omega
  exact spec.busy (by omega)

/-! ## Growing the buffers -/

lemma growCap_some (fuel : Nat) (small : need ≤ 2 ^ 40) (enough : need ≤ ncap * 2 ^ fuel) :
    ∃ cap, growCap (fuel + 1) ncap need = some cap ∧ need ≤ cap := by
  induction fuel generalizing ncap with
  | zero =>
    have covered : ¬ ncap < need := by omega
    exact ⟨ncap, by simp [growCap, covered], by omega⟩
  | succ fuel ih =>
    by_cases below : ncap < need
    · have inRange : ¬ ncap > sizeMax / 2 := by
        unfold sizeMax
        omega
      rw [growCap, if_pos below, if_neg inRange]
      apply ih
      calc need ≤ ncap * 2 ^ (fuel + 1) := enough
        _ = ncap * 2 * 2 ^ fuel := by rw [Nat.pow_succ', Nat.mul_assoc]
    exact ⟨ncap, by simp [growCap, below], by omega⟩

lemma hard_le (wf : p.WF) : p.hard ≤ 2 ^ 40 := by
  have largest : cmqHeaderLen + cmqMaxFramePayload ≤ 2 ^ 40 := by decide
  exact le_trans (Nat.add_le_add_left wf.max_le _) largest

lemma parserHoldAppend_some (wf : p.WF) (room : p.hold.length + data.length ≤ p.hard) :
    ∃ cap, parserHoldAppend p data p.hard =
      some { p with hold := p.hold ++ data, holdCap := cap } := by
  unfold parserHoldAppend
  by_cases empty : data = []
  · exact ⟨p.holdCap, by simp [empty]⟩
  rw [if_neg empty, if_neg (by omega)]
  by_cases grow : p.hold.length + data.length > p.holdCap
  · rw [if_pos grow]
    have small := hard_le wf
    have start : 1 ≤ (if p.holdCap = 0 then 256 else p.holdCap) := by
      split <;> omega
    have enough : p.hold.length + data.length ≤
        (if p.holdCap = 0 then 256 else p.holdCap) * 2 ^ 64 := by
      calc p.hold.length + data.length ≤ 1 * 2 ^ 64 := by omega
        _ ≤ _ := Nat.mul_le_mul_right _ start
    obtain ⟨cap, capEq, _⟩ := growCap_some 64 (by omega) enough
    refine ⟨min cap p.hard, ?_⟩
    simp only [capEq]
    rw [if_neg (by omega)]
  exact ⟨p.holdCap, by rw [if_neg grow]⟩

lemma parserHoldAppend_none (wf : p.WF) (tooLong : p.hard < p.hold.length + data.length) :
    parserHoldAppend p data p.hard = none := by
  have held := wf.hold_le
  have nonempty : data ≠ [] := by
    rintro rfl
    simp only [length_nil] at tooLong
    omega
  unfold parserHoldAppend
  rw [if_neg nonempty, if_pos (by omega)]

lemma ensureInbuf_some (wf : p.WF) (small : need ≤ p.hard ∨ need ≤ p.inbufCap) :
    ∃ cap, ensureInbuf p need = some { p with inbufCap := cap } ∧ need ≤ cap ∧
      p.inbufCap ≤ cap := by
  unfold ensureInbuf
  by_cases fits : need ≤ p.inbufCap
  · exact ⟨p.inbufCap, by rw [if_pos fits], fits, le_refl _⟩
  have bound := hard_le wf
  have positive := wf.cap_pos
  rw [if_neg fits, if_neg (by omega)]
  have enough : need ≤ p.inbufCap * 2 ^ 64 := by
    calc need ≤ 1 * 2 ^ 64 := by omega
      _ ≤ _ := Nat.mul_le_mul_right _ positive
  obtain ⟨cap, capEq, covers⟩ := growCap_some 64 (by omega) enough
  exact ⟨cap, by rw [capEq, Option.map_some], covers, by omega⟩

end CMsgQueue.Proto
