import CMsgQueue.Proto.ParserSpec

/-!
# Feeding and draining the parser

`cmq_parser_feed` copies a chunk in pieces of at most the remaining room and parses after every
piece.  Bytes that arrive while the window and the queue are full are parked in the hold.
-/

namespace CMsgQueue.Proto

open List Framing

/-- `bytes` were appended to the window and nothing else changed. -/
structure Copied (p : CmqParser) (bytes : Bytes) (q : CmqParser) : Prop where
  wf : q.WF
  queue_eq : q.queue = p.queue
  window_eq : q.window = p.window ++ bytes
  hold_eq : q.hold = p.hold
  max_eq : q.maxPayload = p.maxPayload
  error_eq : q.pendingError = p.pendingError

/-- State before an iteration of the copy loop.  A latched error has left frames to
drain, and a loop that ends without any has parsed an incomplete frame last. -/
structure FeedPre (p : CmqParser) (rest : Bytes) (any : Bool) : Prop where
  wf : p.WF
  hold_nil : p.hold = []
  any_queue : any = true → p.queue ≠ []
  latched : p.pendingError = true →
    peelFrame p.maxPayload p.window = .bad ∧ any = true
  settled : rest = [] → any = false → peelFrame p.maxPayload p.window = .more

/-- Result of feeding `rest`: no byte is lost unless the error is latched, and the
return value reports the queue. -/
structure FeedPost (p : CmqParser) (rest : Bytes) (any : Bool) (p' : CmqParser)
    (rc : Int) : Prop where
  wf : p'.WF
  max_eq : p'.maxPayload = p.maxPayload
  conserve : ∃ dropped, p.content ++ rest = p'.content ++ dropped ∧
    (p'.pendingError = false → dropped = [])
  le_one : rc ≤ 1
  fatal : rc < 0 → p'.pendingError = true ∧ p'.queue = []
  busy : 0 < rc → p'.queue ≠ []
  idle : rc = 0 → any = false ∧ p'.pendingError = false ∧ p'.queue = p.queue ∧
    p'.hold = [] ∧ peelFrame p'.maxPayload p'.window = .more
  latched : p'.pendingError = true →
    peelFrame p'.maxPayload p'.window = .bad ∨ p.hard < rest.length

/-- Specification of one iteration: it returns, or it continues with fewer bytes. -/
def FeedResult (p : CmqParser) (rest : Bytes) (any : Bool) : FeedStep → Prop
  | .ret p' rc => FeedPost p rest any p' rc
  | .cont p' rest' any' =>
    FeedPre p' rest' any' ∧ rest'.length < rest.length ∧
      p'.content ++ rest' = p.content ++ rest ∧
      p'.maxPayload = p.maxPayload ∧
      (any' = false → any = false ∧ p'.queue = p.queue)

variable {q p' : CmqParser}

/-- What every operation keeps: the invariant, the payload cap, and every byte it was
given unless the error is latched. -/
structure Transfer (p : CmqParser) (data : Bytes) (p' : CmqParser) : Prop where
  wf : p'.WF
  max_eq : p'.maxPayload = p.maxPayload
  conserve : ∃ dropped, p.content ++ data = p'.content ++ dropped ∧
    (p'.pendingError = false → dropped = [])

lemma FeedPost.of_step {p : CmqParser} {rest rest' : Bytes} {any any' : Bool} {rc : Int}
    (post : FeedPost q rest' any' p' rc) (shorter : rest'.length ≤ rest.length)
    (content : q.content ++ rest' = p.content ++ rest) (maxEq : q.maxPayload = p.maxPayload)
    (silent : any' = false → any = false ∧ q.queue = p.queue) : FeedPost p rest any p' rc :=
  { post with
    max_eq := post.max_eq.trans maxEq
    conserve := content ▸ post.conserve
    idle := by
      intro idle
      obtain ⟨anyFalse, clear, queueEq, tail⟩ := post.idle idle
      obtain ⟨anyOld, oldQueue⟩ := silent anyFalse
      exact ⟨anyOld, clear, queueEq.trans oldQueue, tail⟩
    latched := by
      intro set
      have verdict := post.latched set
      rw [CmqParser.hard, maxEq] at verdict
      exact verdict.imp_right fun long => lt_of_lt_of_le long shorter }

lemma Copied.content_eq (copied : Copied p bytes q)
    (holdNil : p.hold = []) : q.content = p.content ++ bytes := by
  unfold CmqParser.content
  rw [copied.queue_eq, copied.window_eq, copied.hold_eq, holdNil]
  simp

variable {p : CmqParser} {rest : Bytes}

lemma copied_of_room (wf : p.WF) (room : p.window.length + chunk ≤ p.hard)
    (avail : chunk ≤ rest.length) :
    ∃ grown, ensureInbuf (movedInbuf p chunk)
        ((movedInbuf p chunk).inbuf.length + chunk) = some grown ∧
      Copied p (rest.take chunk) { grown with inbuf := grown.inbuf ++ rest.take chunk } := by
  have takeLength : (rest.take chunk).length = chunk := by rw [length_take, min_eq_left avail]
  have movedWf : (movedInbuf p chunk).WF := by
    unfold movedInbuf
    split
    · exact wf.moveToFront
    exact wf
  have windowLength : p.window.length = p.inbuf.length - p.inbufOff := by simp [CmqParser.window]
  have small : (movedInbuf p chunk).inbuf.length + chunk ≤ (movedInbuf p chunk).hard ∨
      (movedInbuf p chunk).inbuf.length + chunk ≤ (movedInbuf p chunk).inbufCap := by
    unfold movedInbuf
    split
    · exact .inl room
    by_cases p.inbufOff = 0
    · left
      omega
    right
    omega
  obtain ⟨_, grownEq, _, larger⟩ := ensureInbuf_some movedWf small
  have sameWindow : (movedInbuf p chunk).window = p.window := by
    unfold movedInbuf
    split <;> rfl
  have appended : ((movedInbuf p chunk).inbuf ++ rest.take chunk).drop
      (movedInbuf p chunk).inbufOff = p.window ++ rest.take chunk := by
    rw [drop_append_of_le_length movedWf.off_le]
    exact congrArg (· ++ rest.take chunk) sameWindow
  have fields : (movedInbuf p chunk).queue = p.queue ∧
      (movedInbuf p chunk).hold = p.hold ∧
      (movedInbuf p chunk).maxPayload = p.maxPayload ∧
      (movedInbuf p chunk).pendingError = p.pendingError := by
    unfold movedInbuf
    split <;> exact ⟨rfl, rfl, rfl, rfl⟩
  refine ⟨_, grownEq, ?_, fields.1, appended, fields.2.1, fields.2.2.1, fields.2.2.2⟩
  exact
    { movedWf with
      off_le := by
        have offset := movedWf.off_le
        simp only [length_append]
        omega
      fits := by
        simp only [length_append]
        omega
      cap_pos := lt_of_lt_of_le movedWf.cap_pos larger
      window_le := by
        change (((movedInbuf p chunk).inbuf ++ rest.take chunk).drop
          (movedInbuf p chunk).inbufOff).length ≤
            cmqHeaderLen + (movedInbuf p chunk).maxPayload
        rw [appended, length_append, takeLength, fields.2.2.1]
        exact room }

variable {any : Bool} {frames : List Frame}

lemma FeedPost.of_busy (moved : Transfer p rest p') (queued : p'.queue ≠ [])
    (latched : p'.pendingError = true →
      peelFrame p'.maxPayload p'.window = .bad ∨ p.hard < rest.length) :
    FeedPost p rest any p' 1 :=
  { moved with
    le_one := by simp
    fatal := by simp
    busy := fun _ => queued
    idle := by simp
    latched }

lemma FeedPost.of_failed (moved : Transfer p rest p')
    (fatal : p'.pendingError = true ∧ p'.queue = [])
    (bad : p'.pendingError = true → peelFrame p'.maxPayload p'.window = .bad) :
    FeedPost p rest any p' (-1) :=
  { moved with
    le_one := by simp
    fatal := fun _ => fatal
    busy := by simp
    idle := by simp
    latched := fun set => .inl (bad set) }

/-- A fatal parse ends the call: nothing was queued before it, so the call fails. -/
lemma feedPost_of_fatal (wf : parsed.WF) (maxEq : parsed.maxPayload = p.maxPayload)
    (queueEq : parsed.queue = p.queue ++ frames) (anyQueue : any = true → p.queue ≠ [])
    (latched : parsed.pendingError = true) (empty : parsed.queue = [])
    (bad : peelFrame parsed.maxPayload parsed.window = .bad)
    (content : p.content ++ rest = parsed.content ++ lost) :
    FeedPost p rest any (feedStop parsed lost any).1 (feedStop parsed lost any).2 := by
  have noFrames : p.queue = [] := by
    rw [empty] at queueEq
    exact (append_eq_nil_iff.mp queueEq.symm).1
  have none : any = false := by
    cases any with
    | false => rfl
    | true => exact absurd noFrames (anyQueue rfl)
  have rc : (feedStop parsed lost any).2 = -1 := by simp [feedStop, empty, none]
  rw [rc]
  have stopped : (feedStop parsed lost any).1.pendingError = true := by simp [feedStop, latched]
  exact .of_failed ⟨wf.latch _, maxEq, lost, content, by simp [stopped]⟩ ⟨stopped, empty⟩
    fun _ => bad

lemma ParseSpec.bad_of_fatal (spec : ParseSpec p p' rc)
    (before : p.pendingError = true → peelFrame p.maxPayload p.window = .bad)
    (latched : p'.pendingError = true) : peelFrame p'.maxPayload p'.window = .bad := by
  rcases spec.verdict with ⟨-, bad⟩ | ⟨same, -⟩
  · exact bad
  exact (spec.of_bad (before (same ▸ latched))).2

lemma feedParse_spec (copied : Copied p (rest.take chunk) q) (holdNil : p.hold = [])
    (anyQueue : any = true → p.queue ≠ [])
    (latched : p.pendingError = true → peelFrame p.maxPayload p.window = .bad ∧ any = true)
    (progress : (rest.drop chunk).length < rest.length) :
    FeedResult p rest any (feedParse q (rest.drop chunk) any) := by
  have before : q.pendingError = true → peelFrame q.maxPayload q.window = .bad := by
    intro set
    rw [copied.max_eq, copied.window_eq]
    exact peelFrame_bad_append (latched (copied.error_eq ▸ set)).1 _
  have spec := parserParseInbuf_spec copied.wf
  unfold feedParse
  generalize parserParseInbuf q = result at spec
  obtain ⟨parsed, rc⟩ := result
  simp only at spec ⊢
  obtain ⟨frames, moved, idleFrames⟩ := spec.parsed
  have content : p.content ++ rest = parsed.content ++ rest.drop chunk := by
    rw [moved.content_eq, copied.content_eq holdNil, append_assoc, take_append_drop]
  have queueEq : parsed.queue = p.queue ++ frames := by rw [moved.queue_eq, copied.queue_eq]
  have maxEq := moved.max_eq.trans copied.max_eq
  split
  next failed =>
    obtain ⟨set, empty⟩ := spec.fatal failed
    exact feedPost_of_fatal moved.wf maxEq queueEq anyQueue set empty
      (spec.bad_of_fatal before set) content
  refine ⟨⟨moved.wf, ?_, ?_, ?_, ?_⟩, progress, content.symm, maxEq, ?_⟩
  · rw [moved.hold_eq, copied.hold_eq, holdNil]
  · intro anyTrue
    rcases Bool.or_eq_true_iff.mp anyTrue with old | new
    · simp [queueEq, anyQueue old]
    exact spec.busy (by simpa using new)
  · intro set
    refine ⟨spec.bad_of_fatal before set, ?_⟩
    by_cases old : p.pendingError = true
    · simp [(latched old).2]
    have positive : 0 < rc := by
      by_contra idle
      rw [(spec.idle (by omega)).1, copied.error_eq] at set
      exact old set
    simp [positive]
  · intro _ anyFalse
    simp only [Bool.or_eq_false_iff, decide_eq_false_iff_not] at anyFalse
    exact (spec.idle (by omega)).2
  intro anyFalse
  simp only [Bool.or_eq_false_iff, decide_eq_false_iff_not] at anyFalse
  refine ⟨anyFalse.1, ?_⟩
  rw [queueEq, idleFrames (by omega), append_nil]

lemma feedCopy_spec (wf : p.WF) (holdNil : p.hold = []) (anyQueue : any = true → p.queue ≠ [])
    (latched : p.pendingError = true → peelFrame p.maxPayload p.window = .bad ∧ any = true)
    (nonempty : rest ≠ []) (roomEq : room = p.hard - p.window.length)
    (roomPos : 0 < room) : FeedResult p rest any (feedCopy p rest any room) := by
  have restPos : 0 < rest.length := length_pos_iff.mpr nonempty
  have fits : p.window.length + min rest.length room ≤ p.hard := by omega
  obtain ⟨_, grownEq, copied⟩ := copied_of_room wf fits (min_le_left _ _)
  unfold feedCopy
  simp only [grownEq]
  apply feedParse_spec copied holdNil anyQueue latched
  rw [length_drop]
  omega

lemma FeedResult.of_parsed (parsed : Parsed p q frames)
    (quiet : any' = false → any = false ∧ frames = []) (result : FeedResult q rest any' step) :
    FeedResult p rest any step := by
  have sameQueue : any' = false → any = false ∧ q.queue = p.queue := by
    intro anyFalse
    obtain ⟨anyOld, noFrames⟩ := quiet anyFalse
    exact ⟨anyOld, by rw [parsed.queue_eq, noFrames, append_nil]⟩
  cases step with
  | ret p' rc =>
    have post : FeedPost q rest any' p' rc := result
    exact post.of_step (le_refl _) (by rw [parsed.content_eq]) parsed.max_eq sameQueue
  | cont p' =>
    obtain ⟨pre, shorter, content, maxEq, silent⟩ := result
    refine ⟨pre, shorter, content.trans ?_, maxEq.trans parsed.max_eq, ?_⟩
    · rw [parsed.content_eq]
    intro anyFalse
    obtain ⟨anyMid, queueEq⟩ := silent anyFalse
    obtain ⟨anyOld, oldQueue⟩ := sameQueue anyMid
    exact ⟨anyOld, queueEq.trans oldQueue⟩

lemma feedHold_spec (wf : p.WF) (holdNil : p.hold = []) (queued : p.queue ≠ [])
    (latched : p.pendingError = true → peelFrame p.maxPayload p.window = .bad) :
    FeedResult p rest any (feedHold p rest any) := by
  unfold feedHold
  by_cases room : p.hold.length + rest.length ≤ p.hard
  · obtain ⟨cap, appended⟩ := parserHoldAppend_some wf room
    simp only [appended, holdNil, if_pos (Or.inl queued)]
    rw [holdNil, length_nil, Nat.zero_add] at room
    have content : p.content ++ rest =
        ({ p with hold := rest, holdCap := cap } : CmqParser).content ++ [] := by
      simp [CmqParser.content, holdNil, CmqParser.window]
    exact .of_busy ⟨{ wf with hold_le := room }, rfl, [], content, fun _ => rfl⟩ queued
      fun set => .inl (latched set)
  have refused := parserHoldAppend_none wf (Nat.lt_of_not_le room)
  simp only [refused, if_pos (Or.inl queued)]
  rw [holdNil, length_nil, Nat.zero_add] at room
  exact .of_busy ⟨wf.latch true, rfl, rest, rfl, by simp⟩ queued
    fun _ => .inr (Nat.lt_of_not_le room)

lemma feedStep_spec (pre : FeedPre p rest any) (nonempty : rest ≠ []) :
    FeedResult p rest any (feedStep p rest any) := by
  unfold feedStep
  split
  next set =>
    have queued := pre.any_queue (pre.latched set).2
    rw [if_pos (Or.inl queued)]
    exact .of_busy ⟨pre.wf, rfl, rest, rfl, by simp [set]⟩ queued
      fun _ => .inl (pre.latched set).1
  next clear =>
  have within := pre.wf.window_le
  rw [if_neg (by omega)]
  split
  next =>
    have spec := parserParseInbuf_spec pre.wf
    generalize parserParseInbuf p = result at spec
    obtain ⟨parsed, rc⟩ := result
    simp only at spec ⊢
    obtain ⟨frames, moved, idleFrames⟩ := spec.parsed
    have bad := spec.bad_of_fatal (fun set => absurd set clear)
    have parsedWithin := moved.wf.window_le
    have holdNil : parsed.hold = [] := moved.hold_eq.trans pre.hold_nil
    split
    next failed =>
      obtain ⟨set, empty⟩ := spec.fatal failed
      exact feedPost_of_fatal moved.wf moved.max_eq moved.queue_eq pre.any_queue
        set empty (bad set) (by rw [moved.content_eq])
    next success =>
    rw [if_neg (by omega)]
    have quiet : (any || decide (rc > 0)) = false → any = false ∧ frames = [] := by
      intro anyFalse
      simp only [Bool.or_eq_false_iff, decide_eq_false_iff_not] at anyFalse
      exact ⟨anyFalse.1, idleFrames (by omega)⟩
    apply FeedResult.of_parsed moved quiet
    split
    next stillFull =>
      exact feedHold_spec moved.wf holdNil (spec.queue_of_full success stillFull) bad
    refine feedCopy_spec moved.wf holdNil ?_ ?_ nonempty rfl (by omega)
    · intro anyTrue
      rcases Bool.or_eq_true_iff.mp anyTrue with old | new
      · simp [moved.queue_eq, pre.any_queue old]
      exact spec.busy (by simpa using new)
    intro set
    refine ⟨bad set, ?_⟩
    have positive : 0 < rc := by
      by_contra idle
      rw [(spec.idle (by omega)).1] at set
      exact clear set
    simp [positive]
  exact feedCopy_spec pre.wf pre.hold_nil pre.any_queue pre.latched nonempty rfl
    (by omega)

lemma feedPost_of_done (pre : FeedPre p [] any) :
    FeedPost p [] any p (if any then 1 else 0) := by
  cases any with
  | true =>
    exact .of_busy ⟨pre.wf, rfl, [], rfl, fun _ => rfl⟩ (pre.any_queue rfl)
      fun set => .inl (pre.latched set).1
  | false =>
    have clear : p.pendingError = false := by
      cases set : p.pendingError with
      | false => rfl
      | true => cases (pre.latched set).2
    exact
      { wf := pre.wf
        max_eq := rfl
        conserve := ⟨[], rfl, fun _ => rfl⟩
        le_one := by simp
        fatal := by simp
        busy := by simp
        idle := fun _ => ⟨rfl, clear, rfl, pre.hold_nil, pre.settled rfl rfl⟩
        latched := fun set => .inl (pre.latched set).1 }

/-- The copy loop, by induction on the fuel its remaining bytes provide. -/
lemma feedLoop_spec (pre : FeedPre p rest any) (enough : rest.length ≤ fuel) :
    FeedPost p rest any (feedLoop fuel p rest any).1 (feedLoop fuel p rest any).2 := by
  induction fuel generalizing p rest any with
  | zero =>
    obtain rfl : rest = [] := length_eq_zero_iff.mp (by omega)
    exact feedPost_of_done pre
  | succ fuel ih =>
    unfold feedLoop
    split
    next empty =>
      subst empty
      exact feedPost_of_done pre
    next nonempty =>
    have step := feedStep_spec pre nonempty
    split
    next p' _ stepEq =>
      rw [stepEq] at step
      exact step
    next p' _ _ stepEq =>
    rw [stepEq] at step
    obtain ⟨pre', shorter, content, maxEq, silent⟩ := step
    exact (ih pre' (by omega)).of_step (le_of_lt shorter) content maxEq silent

/-! ## The operations -/

variable {data : Bytes}

lemma Transfer.content_length_le (moved : Transfer p data p') :
    p'.content.length ≤ p.content.length + data.length := by
  obtain ⟨_, content, -⟩ := moved.conserve
  have lengths := congrArg List.length content
  simp only [length_append] at lengths
  omega

lemma FeedPost.transfer (post : FeedPost p rest any p' rc) : Transfer p rest p' :=
  { post with }

lemma Transfer.trans (first : Transfer p left q) (clear : q.pendingError = false)
    (second : Transfer q right r) :
    Transfer p (left ++ right) r where
  wf := second.wf
  max_eq := second.max_eq.trans first.max_eq
  conserve := by
    obtain ⟨_, content, kept⟩ := first.conserve
    rw [← append_assoc, content, kept clear, append_nil]
    exact second.conserve

lemma Transfer.lose (first : Transfer p left q) (set : q.pendingError = true)
    (right : Bytes) : Transfer p (left ++ right) q := by
  obtain ⟨wf, max_eq, lost, content, -⟩ := first
  refine ⟨wf, max_eq, lost ++ right, ?_, by simp [set]⟩
  rw [← append_assoc, content, append_assoc]

lemma Parsed.transfer (parsed : Parsed p q frames) : Transfer p [] q :=
  { parsed with conserve := ⟨[], by rw [parsed.content_eq], fun _ => rfl⟩ }

lemma feedPre_of_clear (wf : p.WF)
    (clear : p.pendingError = false) (holdNil : p.hold = [])
    (anyQueue : any = true → p.queue ≠ []) (nonempty : data ≠ []) :
    FeedPre p data any where
  wf
  hold_nil := holdNil
  any_queue := anyQueue
  latched := by simp [clear]
  settled := fun empty => absurd empty nonempty

lemma cmqParserFeedUnheld_spec (wf : p.WF)
    (clear : p.pendingError = false) (holdNil : p.hold = []) (nonempty : data ≠ []) :
    FeedPost p data false (cmqParserFeedUnheld p data).1
      (cmqParserFeedUnheld p data).2 := by
  have capacity : p.inbufCap ≠ 0 := ne_of_gt wf.cap_pos
  simp only [cmqParserFeedUnheld, if_neg nonempty, if_neg capacity, clear]
  exact feedLoop_spec (feedPre_of_clear wf clear holdNil (by simp) nonempty)
    (le_refl _)

lemma cmqParserFeed_spec (wf : p.WF) (clear : p.pendingError = false) (holdNil : p.hold = [])
    (nonempty : data ≠ []) :
    FeedPost p data false (cmqParserFeed p data).1 (cmqParserFeed p data).2 := by
  have same : cmqParserFeed p data = cmqParserFeedUnheld p data := by
    simp only [cmqParserFeed, cmqParserFeedUnheld, if_pos holdNil]
  rw [same]
  exact cmqParserFeedUnheld_spec wf clear holdNil nonempty

/-- Feeding the hold back into the parser it was taken from loses no byte. -/
lemma Transfer.of_flush (post : FeedPost p.takeHold p.hold any q rc) : Transfer p [] q := by
  have refill : p.takeHold.content ++ p.hold = p.content ++ [] := by
    simp [CmqParser.content, CmqParser.window, CmqParser.takeHold]
  exact { post with conserve := refill ▸ post.conserve }

lemma parserHoldAppend_transfer (wf : p.WF)
    (appended : parserHoldAppend p data p.hard = some held) : Transfer p data held := by
  by_cases room : p.hold.length + data.length ≤ p.hard
  · obtain ⟨_, heldEq⟩ := parserHoldAppend_some wf room
    rw [heldEq] at appended
    cases appended
    exact
      { wf := { wf with hold_le := by simpa [CmqParser.hard] using room }
        max_eq := rfl
        conserve := ⟨[], by simp [CmqParser.content, CmqParser.window], fun _ => rfl⟩ }
  rw [parserHoldAppend_none wf (Nat.lt_of_not_le room)] at appended
  cases appended

lemma cmqParserFeed_latched (data : Bytes)
    (set : p.pendingError = true) : (cmqParserFeed p data).1 = p := by
  unfold cmqParserFeed
  split
  · rfl
  split
  · rfl
  rfl

lemma cmqParserFeed_transfer (data : Bytes) (wf : p.WF)
    (clear : p.pendingError = false) : Transfer p data (cmqParserFeed p data).1 := by
  by_cases empty : data = []
  · subst empty
    exact (Parsed.refl wf).transfer
  by_cases holdNil : p.hold = []
  · exact (cmqParserFeed_spec wf clear holdNil empty).transfer
  have capacity : p.inbufCap ≠ 0 := ne_of_gt wf.cap_pos
  have flush := cmqParserFeedUnheld_spec wf.takeHold clear rfl holdNil
  have moved : Transfer p [] _ := Transfer.of_flush flush
  simp only [cmqParserFeed, if_neg empty, if_neg capacity, clear, if_neg holdNil,
    Bool.false_eq_true, if_false]
  generalize cmqParserFeedUnheld p.takeHold p.hold = flushed
    at flush moved
  obtain ⟨q, rc⟩ := flushed
  by_cases latched : q.pendingError = true
  · rw [if_pos latched]
    exact moved.lose latched data
  have success : ¬ rc < 0 := fun failed => latched (flush.fatal failed).1
  rw [if_neg latched, if_neg success]
  rw [Bool.not_eq_true] at latched
  by_cases held : q.hold = []
  · rw [if_neg (not_not.mpr held)]
    have pre : FeedPre q data (rc > 0) :=
      feedPre_of_clear moved.wf latched held
        (fun busy => flush.busy (by simpa using busy)) empty
    exact moved.trans latched (feedLoop_spec pre (le_refl _)).transfer
  rw [if_pos held]
  split
  next =>
    have latch : Transfer p [] { q with pendingError := true } :=
      { moved with
        wf := moved.wf.latch true
        conserve := by
          obtain ⟨lost, content, _⟩ := moved.conserve
          exact ⟨lost, content, by simp⟩ }
    exact latch.lose rfl data
  next _ appended => exact moved.trans latched (parserHoldAppend_transfer moved.wf appended)

lemma cmqParserDrainInbuf_latched (set : p.pendingError = true) :
    (cmqParserDrainInbuf p).1 = p := by
  unfold cmqParserDrainInbuf
  split
  · rfl
  rfl

lemma cmqParserDrainInbuf_spec (wf : p.WF) (clear : p.pendingError = false) :
    FeedPost p [] false (cmqParserDrainInbuf p).1 (cmqParserDrainInbuf p).2 := by
  have capacity : p.inbufCap ≠ 0 := ne_of_gt wf.cap_pos
  have spec := parserParseInbuf_spec wf
  simp only [cmqParserDrainInbuf, if_neg capacity, clear, Bool.false_eq_true, if_false]
  generalize parserParseInbuf p = result at spec
  obtain ⟨q, rc⟩ := result
  obtain ⟨_, moved, idleFrames⟩ := spec.parsed
  have bad := spec.bad_of_fatal (fun set => by rw [clear] at set; cases set)
  have sameQueue : rc = 0 → q.queue = p.queue := by
    intro idle
    rw [moved.queue_eq, idleFrames idle, append_nil]
  split
  next failed => exact .of_failed moved.transfer (spec.fatal failed) bad
  next success =>
  split
  next refill =>
    obtain ⟨held, unlatched⟩ := refill
    have fed := cmqParserFeed_spec moved.wf.takeHold unlatched rfl held
    have flushed : Transfer q [] _ := Transfer.of_flush fed
    generalize cmqParserFeed q.takeHold q.hold = result
      at fed flushed
    obtain ⟨r, rc'⟩ := result
    have badAfter : r.pendingError = true → peelFrame r.maxPayload r.window = .bad :=
      fun set => (fed.latched set).resolve_right (not_lt.mpr moved.wf.hold_le)
    have whole : Transfer p [] r := moved.transfer.trans unlatched flushed
    split
    next failed => exact .of_failed whole (fed.fatal failed) badAfter
    by_cases produced : rc' > 0
    · rw [if_pos produced]
      exact .of_busy whole (fed.busy produced) fun set => .inl (badAfter set)
    rw [if_neg produced]
    obtain ⟨-, stillClear, queueEq, tail⟩ := fed.idle (by omega)
    have queueEq' : r.queue = q.queue := queueEq
    exact
      { whole with
        le_one := spec.le_one
        fatal := fun failed => absurd failed success
        busy := fun busy => by rw [queueEq']; exact spec.busy busy
        idle := fun idle =>
          ⟨rfl, stillClear, queueEq'.trans (sameQueue idle), tail⟩
        latched := fun set => .inl (badAfter set) }
  next settled =>
  exact
    { moved.transfer with
      le_one := spec.le_one
      fatal := fun failed => absurd failed success
      busy := spec.busy
      idle := by
        intro idle
        obtain ⟨sameError, incomplete⟩ := spec.idle idle
        have stillClear : q.pendingError = false := sameError.trans clear
        refine ⟨rfl, stillClear, sameQueue idle, ?_, incomplete⟩
        by_contra held
        exact settled ⟨held, stillClear⟩
      latched := fun set => .inl (bad set) }

lemma cmqParserNext_spec (wf : p.WF) :
    (cmqParserNext p).1.WF ∧
      (cmqParserNext p).1.maxPayload = p.maxPayload ∧
      (cmqParserNext p).1.pendingError = p.pendingError ∧
      (cmqParserNext p).1.hold = p.hold ∧
      (cmqParserNext p).1.window = p.window ∧
      p.queue = (cmqParserFrame p).toList ++ (cmqParserNext p).1.queue ∧
      (cmqParserNext p).2 = if (cmqParserNext p).1.queue ≠ [] then 1 else 0 := by
  unfold cmqParserNext cmqParserFrame
  cases queueEq : p.queue with
  | nil => simp [wf, queueEq]
  | cons frame =>
    refine ⟨?_, rfl, rfl, rfl, rfl, by simp, rfl⟩
    have queued := wf.queued_eq
    have queuedBound := wf.queued_le
    have bytes := wf.bytes_eq
    have bytesBound := wf.bytes_le
    have valid := wf.valid
    rw [queueEq] at queued bytes valid
    simp only [length_cons, CmqParser.queuePayload, map_cons, sum_cons] at queued bytes
    exact
      { wf with
        queued_eq := by simp only [queued]; split <;> omega
        queued_le := by simp only; split <;> omega
        bytes_eq := by
          simp only [CmqParser.queuePayload]
          split <;> omega
        bytes_le := by simp only; split <;> omega
        valid := fun other member => valid other (mem_cons_of_mem frame member) }

end CMsgQueue.Proto
