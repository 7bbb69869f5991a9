import CMsgQueue.Proto.FeedSpec

/-!
# Dispatching a byte stream

`client_read_cb` feeds what it has read to the parser and `client_dispatch_parser` hands every
queued frame to the frame handler, retrying the parked input until the parser is idle.
-/

namespace CMsgQueue.Server

open List Proto Framing

universe u

/-- What the dispatch loop uses of a connection: the frame handler and the two
conditions that end the connection. -/
structure Session (σ : Type u) where
  handleFrame : σ → Frame → σ
  clientRoutePoolHeld : σ → Bool
  /-- `client_state` is `CMQ_CLIENT_CLOSING` or `CMQ_CLIENT_CLOSED`. -/
  closing : σ → Bool

/-- A connection: its parser, its session, and the frames handled so far. -/
structure Connection (σ : Type u) where
  parser : CmqParser
  session : σ
  dispatched : List Frame

variable {σ : Type u} (env : Session σ)

/-- `client_dispatch_parser`, one loop iteration per unit of fuel; `none` means that
the fuel ran out. -/
def clientDispatchParser : Nat → Connection σ → Int → Option (Connection σ × Int)
  | 0, _, _ => none
  | fuel + 1, c, rc =>
    if rc = 1 then
      match cmqParserFrame c.parser with
      | some frame =>
        if env.clientRoutePoolHeld c.session = false then some (c, -1)
        else
          let handled : Connection σ :=
            { c with
              session := env.handleFrame c.session frame
              dispatched := c.dispatched ++ [frame] }
          if env.closing handled.session then some (handled, -1)
          else
            clientDispatchParser fuel
              { handled with parser := (cmqParserNext c.parser).1 }
              (cmqParserNext c.parser).2
      | none =>
        if env.closing c.session then some (c, -1)
        else
          clientDispatchParser fuel { c with parser := (cmqParserNext c.parser).1 }
            (cmqParserNext c.parser).2
    else if cmqParserPendingError c.parser = 1 then some (c, -1)
    else
      let drained := cmqParserDrainInbuf c.parser
      let c' : Connection σ := { c with parser := drained.1 }
      if drained.2 < 0 then some (c', -1)
      else if drained.2 = 0 then some (c', 0)
      else clientDispatchParser fuel c' drained.2

/-- The part of `client_read_cb` that handles the bytes of one read. -/
def clientReadCb (fuel : Nat) (c : Connection σ) (chunk : Bytes) :
    Option (Connection σ × Int) :=
  let fed := cmqParserFeed c.parser chunk
  let c' : Connection σ := { c with parser := fed.1 }
  if fed.2 < 0 then some (c', -1) else clientDispatchParser env fuel c' fed.2

def clientReads (fuel : Nat) : Connection σ → List Bytes → Option (Connection σ)
  | c, [] => some c
  | c, chunk :: chunks =>
    match clientReadCb env fuel c chunk with
    | none => none
    | some (c', rc) => if rc = 0 then clientReads fuel c' chunks else some c'

def Connection.open (maxPayload : Nat) (session : σ) : Connection σ where
  parser := cmqParserSetMaxPayload cmqParserCreate maxPayload
  session
  dispatched := []

/-- Reference behaviour: handle a list of frames in order until the connection ends. -/
def serveFrames : σ × List Frame → List Frame → σ × List Frame
  | state, [] => state
  | (session, dispatched), frame :: frames =>
    if env.clientRoutePoolHeld session = false then (session, dispatched)
    else
      let session' := env.handleFrame session frame
      if env.closing session' then (session', dispatched ++ [frame])
      else serveFrames (session', dispatched ++ [frame]) frames

lemma serveFrames_of_open (held : ∀ session, env.clientRoutePoolHeld session = true)
    (stays : ∀ session, env.closing session = false) (session : σ)
    (dispatched frames : List Frame) :
    (serveFrames env (session, dispatched) frames).2 = dispatched ++ frames := by
  induction frames generalizing session dispatched with
  | nil => simp [serveFrames]
  | cons _ frames ih => simp [serveFrames, held, stays, ih]

/-! ## The parser between reads -/

/-- The parser has taken everything it can from the bytes received so far. -/
structure Idle (p : CmqParser) : Prop where
  wf : p.WF
  queue_nil : p.queue = []
  hold_nil : p.hold = []
  clear : p.pendingError = false
  incomplete : peelFrame p.maxPayload p.window = .more

/-- The parser at the head of the dispatch loop: the return code reports the queue,
and a latched error is a malformed frame behind the queued ones. -/
structure Ready (p : CmqParser) (rc : Int) : Prop where
  wf : p.WF
  rc_eq : rc = if p.queue ≠ [] then 1 else 0
  latched : p.pendingError = true → peelFrame p.maxPayload p.window = .bad

lemma decodeFrames_of_bad (bad : peelFrame maxPayload buffer = .bad) (tail : Bytes) :
    decodeFrames maxPayload (buffer ++ tail) = [] :=
  Codec.read_of_not_item (by simp [(frameCodec maxPayload).bad_append bad tail])

variable {p : CmqParser} {data : Bytes} {c : Connection σ} {fuel : Nat}

lemma decodeFrames_content (wf : p.WF) (rest : Bytes) :
    decodeFrames p.maxPayload (p.content ++ rest) =
      p.queue ++ decodeFrames p.maxPayload (p.window ++ (p.hold ++ rest)) := by
  rw [← decodeFrames_encodeFrames_append wf.valid]
  simp [CmqParser.content]

lemma decodeFrames_transfer (moved : Transfer p data p')
    (latched : p'.pendingError = true → peelFrame p'.maxPayload p'.window = .bad) (rest : Bytes) :
    decodeFrames p.maxPayload (p.content ++ (data ++ rest)) =
      decodeFrames p'.maxPayload (p'.content ++ rest) := by
  obtain ⟨_, content, kept⟩ := moved.conserve
  rw [← append_assoc, content, append_assoc, ← moved.max_eq]
  cases error : p'.pendingError with
  | false => rw [kept error, nil_append]
  | true =>
    have bad := latched error
    rw [decodeFrames_content moved.wf, decodeFrames_content moved.wf,
      decodeFrames_of_bad bad, decodeFrames_of_bad bad]

variable {rc : Int}

lemma Ready.of_feedPost (post : FeedPost p rest false p' rc) (empty : p.queue = [])
    (success : ¬ rc < 0) (bad : p'.pendingError = true → peelFrame p'.maxPayload p'.window = .bad) :
    Ready p' rc := by
  refine ⟨post.wf, ?_, bad⟩
  by_cases idle : rc = 0
  · obtain ⟨-, -, queueEq, -⟩ := post.idle idle
    simp [idle, queueEq, empty]
  have positive : 0 < rc := by omega
  have one := post.le_one
  rw [if_pos (post.busy positive)]
  omega

/-- Fuel the dispatch loop needs: two iterations for every byte of the content. -/
def dispatchCost (p : CmqParser) : Nat :=
  2 * p.content.length + if p.queue ≠ [] then 0 else 1

/-! ## The dispatch loop -/

/-- Relation between a connection before and after a piece of the dispatch loop: what
it still had to serve is what was served followed by what is left to serve. -/
def Serves (c : Connection σ) (data : Bytes) (c' : Connection σ) (rc : Int) : Prop :=
  (rc = 0 → Idle c'.parser ∧
    c'.parser.maxPayload = c.parser.maxPayload ∧
    c'.parser.content.length ≤ c.parser.content.length + data.length ∧
    ∀ rest, serveFrames env (c.session, c.dispatched)
        (decodeFrames c.parser.maxPayload (c.parser.content ++ (data ++ rest))) =
      serveFrames env (c'.session, c'.dispatched)
        (decodeFrames c'.parser.maxPayload (c'.parser.content ++ rest))) ∧
  (rc ≠ 0 → ∀ rest, serveFrames env (c.session, c.dispatched)
      (decodeFrames c.parser.maxPayload (c.parser.content ++ (data ++ rest))) =
    (c'.session, c'.dispatched))

lemma Serves.of_step {c₁ c' : Connection σ} (maxEq : c₁.parser.maxPayload = c.parser.maxPayload)
    (lengthLe : c₁.parser.content.length ≤ c.parser.content.length + data.length)
    (same : ∀ rest, serveFrames env (c.session, c.dispatched)
        (decodeFrames c.parser.maxPayload (c.parser.content ++ (data ++ rest))) =
      serveFrames env (c₁.session, c₁.dispatched)
        (decodeFrames c₁.parser.maxPayload (c₁.parser.content ++ rest)))
    (later : Serves env c₁ [] c' rc) : Serves env c data c' rc := by
  refine ⟨fun stays => ?_, fun ends rest => (same rest).trans (later.2 ends rest)⟩
  obtain ⟨idle, maxEq', lengthLe', served⟩ := later.1 stays
  exact ⟨idle, maxEq'.trans maxEq, le_trans lengthLe' lengthLe,
    fun rest => (same rest).trans (served rest)⟩

lemma Ready.next (ready : Ready p rc) (head : cmqParserFrame p = some frame) :
    Ready (cmqParserNext p).1 (cmqParserNext p).2 ∧ (cmqParserNext p).1.maxPayload = p.maxPayload ∧
      (cmqParserNext p).1.content.length + cmqHeaderLen ≤ p.content.length ∧
      ∀ rest, decodeFrames p.maxPayload (p.content ++ rest) =
        frame :: decodeFrames p.maxPayload ((cmqParserNext p).1.content ++ rest) := by
  obtain ⟨wf, maxEq, errorEq, holdEq, windowEq, queueEq, rcEq⟩ := cmqParserNext_spec ready.wf
  rw [head] at queueEq
  have content : p.content = frame.wire ++ (cmqParserNext p).1.content := by
    simp only [CmqParser.content, holdEq, windowEq]
    rw [queueEq]
    simp [encodeFrames]
  have valid : frame.Valid p.maxPayload := ready.wf.valid frame (by rw [queueEq]; simp)
  refine ⟨⟨wf, rcEq, ?_⟩, maxEq, ?_, ?_⟩
  · rw [errorEq, maxEq, windowEq]
    exact ready.latched
  · rw [content, length_append, Frame.length_wire valid.payload_lt]
    omega
  intro rest
  have single : ∀ other ∈ [frame], other.Valid p.maxPayload := by simpa using valid
  simpa [content, encodeFrames] using
    decodeFrames_encodeFrames_append single ((cmqParserNext p).1.content ++ rest)

lemma decodeFrames_nil_of_latched (wf : p.WF) (empty : p.queue = [])
    (bad : peelFrame p.maxPayload p.window = .bad) (rest : Bytes) :
    decodeFrames p.maxPayload (p.content ++ rest) = [] := by
  rw [decodeFrames_content wf, empty, decodeFrames_of_bad bad, nil_append]

lemma Serves.of_fatal (post : FeedPost c.parser data false p' rc) (failed : rc < 0)
    (bad : p'.pendingError = true → peelFrame p'.maxPayload p'.window = .bad) :
    Serves env c data { c with parser := p' } (-1) := by
  obtain ⟨latched, empty⟩ := post.fatal failed
  refine ⟨by simp, fun _ _ => ?_⟩
  rw [decodeFrames_transfer post.transfer bad,
    decodeFrames_nil_of_latched post.wf empty (bad latched), serveFrames]

lemma clientDispatchParser_serves (ready : Ready c.parser rc)
    (enough : dispatchCost c.parser < fuel) :
    ∃ c' rc', clientDispatchParser env fuel c rc = some (c', rc') ∧ Serves env c [] c' rc' := by
  induction fuel generalizing c rc with
  | zero => omega
  | succ fuel ih =>
    unfold clientDispatchParser
    by_cases queued : c.parser.queue ≠ []
    · -- One iteration of the inner loop takes the head frame.
      obtain ⟨frame, _, queueEq⟩ := exists_cons_of_ne_nil queued
      have head : cmqParserFrame c.parser = some frame := by
        rw [cmqParserFrame, queueEq, List.head?_cons]
      obtain ⟨ready', maxEq, shorter, first⟩ := ready.next head
      rw [if_pos (by rw [ready.rc_eq, if_pos queued]), head]
      simp only
      split
      next dropped =>
        refine ⟨c, -1, rfl, by simp, fun _ rest => ?_⟩
        simp [first, serveFrames, dropped]
      next held =>
      split
      next ends =>
        refine ⟨_, -1, rfl, by simp, fun _ rest => ?_⟩
        simp [first, serveFrames, held, ends]
      next stays =>
      have cheaper : dispatchCost (cmqParserNext c.parser).1 < fuel := by
        have large : 0 < cmqHeaderLen := by decide
        unfold dispatchCost at enough ⊢
        split <;> omega
      let c₁ : Connection σ :=
        { parser := (cmqParserNext c.parser).1
          session := env.handleFrame c.session frame
          dispatched := c.dispatched ++ [frame] }
      obtain ⟨c', rc', looped, later⟩ := ih (c := c₁) ready' cheaper
      have lengthLe := le_trans (Nat.le_add_right _ _) shorter
      refine ⟨c', rc', looped, later.of_step env maxEq lengthLe ?_⟩
      simp [first, serveFrames, held, stays, maxEq, c₁]
    -- The queue is empty: the error ends the connection, or the input is retried.
    have notOne : ¬ rc = 1 := by rw [ready.rc_eq, if_neg queued]; decide
    rw [not_not] at queued
    rw [if_neg notOne]
    split
    next pending =>
      have latched : c.parser.pendingError = true := by
        by_contra clear
        simp [cmqParserPendingError, clear] at pending
      refine ⟨c, -1, rfl, by simp, fun _ rest => ?_⟩
      rw [decodeFrames_nil_of_latched ready.wf queued (ready.latched latched), serveFrames]
    next clear =>
    have clear' : c.parser.pendingError = false := by
      by_contra latched
      simp [cmqParserPendingError, latched] at clear
    have post := cmqParserDrainInbuf_spec ready.wf clear'
    generalize cmqParserDrainInbuf c.parser = drained at post
    obtain ⟨p', rc'⟩ := drained
    simp only at post ⊢
    have bad : p'.pendingError = true →
        peelFrame p'.maxPayload p'.window = .bad :=
      fun latched => (post.latched latched).resolve_right (by simp)
    have same (rest : Bytes) := congrArg
      (serveFrames env (c.session, c.dispatched))
      (decodeFrames_transfer post.transfer bad rest)
    have lengthLe := post.transfer.content_length_le
    split
    next failed => exact ⟨_, -1, rfl, Serves.of_fatal env post failed bad⟩
    next success =>
    split
    next idle =>
      obtain ⟨-, stillClear, queueEq, holdNil, incomplete⟩ := post.idle idle
      refine ⟨_, 0, rfl, fun _ => ⟨?_, post.max_eq, lengthLe, same⟩, by simp⟩
      exact ⟨post.wf, queueEq.trans queued, holdNil, stillClear, incomplete⟩
    have filled : p'.queue ≠ [] := post.busy (by omega)
    have cheaper : dispatchCost p' < fuel := by
      unfold dispatchCost at enough ⊢
      rw [if_neg (not_not.mpr queued)] at enough
      rw [if_pos filled]
      simp only [length_nil] at lengthLe
      omega
    obtain ⟨c', rc'', looped, later⟩ :=
      ih (c := { c with parser := p' })
        (Ready.of_feedPost post queued success bad) cheaper
    exact ⟨c', rc'', looped, later.of_step env post.max_eq lengthLe same⟩

/-- One read serves the frames it completes and leaves the parser idle, or ends the
connection where the reference does. -/
lemma clientReadCb_serves (idle : Idle c.parser) (bounded : chunk.length ≤ c.parser.hard)
    (enough : 2 * (c.parser.content.length + chunk.length) + 2 ≤ fuel) :
    ∃ c' rc, clientReadCb env fuel c chunk = some (c', rc) ∧ Serves env c chunk c' rc := by
  by_cases empty : chunk = []
  · subst empty
    have ready : Ready c.parser 0 := ⟨idle.wf, by simp [idle.queue_nil], by simp [idle.clear]⟩
    have cheap : dispatchCost c.parser < fuel := by
      unfold dispatchCost
      split <;> omega
    obtain ⟨c', rc, looped, served⟩ := clientDispatchParser_serves env ready cheap
    exact ⟨c', rc, by simpa [clientReadCb, cmqParserFeed] using looped, served⟩
  have post := cmqParserFeed_spec idle.wf idle.clear idle.hold_nil empty
  unfold clientReadCb
  generalize cmqParserFeed c.parser chunk = fed at post
  obtain ⟨p', rc⟩ := fed
  simp only at post ⊢
  have bad : p'.pendingError = true → peelFrame p'.maxPayload p'.window = .bad :=
    fun latched => (post.latched latched).resolve_right (not_lt.mpr bounded)
  split
  next failed => exact ⟨_, -1, rfl, Serves.of_fatal env post failed bad⟩
  next success =>
  have lengthLe := post.transfer.content_length_le
  have cheap : dispatchCost p' < fuel := by
    unfold dispatchCost
    split <;> omega
  obtain ⟨c', rc', looped, later⟩ := clientDispatchParser_serves env
    (c := { c with parser := p' })
    (Ready.of_feedPost post idle.queue_nil success bad) cheap
  refine ⟨c', rc', looped, later.of_step env post.max_eq lengthLe fun rest => ?_⟩
  exact congrArg (serveFrames env (c.session, c.dispatched))
    (decodeFrames_transfer post.transfer bad rest)

lemma clientReads_serves (idle : Idle c.parser)
    (bounded : ∀ chunk ∈ chunks, chunk.length ≤ c.parser.hard)
    (enough : 2 * (c.parser.content.length + chunks.flatten.length) + 2 ≤ fuel) :
    ∃ c', clientReads env fuel c chunks = some c' ∧ (c'.session, c'.dispatched) =
        serveFrames env (c.session, c.dispatched)
          (decodeFrames c.parser.maxPayload (c.parser.content ++ chunks.flatten)) := by
  induction chunks generalizing c with
  | nil =>
    refine ⟨c, rfl, ?_⟩
    have nothing : decodeFrames c.parser.maxPayload (c.parser.window ++ []) = [] := by
      rw [append_nil]
      exact Codec.read_of_more idle.incomplete
    simp only [flatten_nil, decodeFrames_content idle.wf, idle.queue_nil,
      idle.hold_nil, nil_append, nothing, serveFrames]
  | cons chunk chunks ih =>
    simp only [flatten_cons, length_append] at enough ⊢
    obtain ⟨c', rc, step, stays, ends⟩ := clientReadCb_serves env idle
      (bounded chunk mem_cons_self) (by omega : _ ≤ fuel)
    unfold clientReads
    rw [step]
    simp only
    by_cases zero : rc = 0
    · obtain ⟨idle', maxEq, _, served⟩ := stays zero
      have bounded' : ∀ other ∈ chunks, other.length ≤ c'.parser.hard := by
        intro other member
        rw [CmqParser.hard, maxEq]
        exact bounded other (mem_cons_of_mem chunk member)
      obtain ⟨c'', read, result⟩ := ih idle' bounded' (by omega)
      exact ⟨c'', by rw [if_pos zero, read], result.trans (served _).symm⟩
    exact ⟨c', by rw [if_neg zero], (ends zero _).symm⟩

lemma idle_open (maxPayload : Nat) (session : σ) :
    Idle (Connection.open maxPayload session).parser where
  wf := cmqParserCreate_wf maxPayload
  queue_nil := rfl
  hold_nil := rfl
  clear := rfl
  incomplete := rfl

/-- However a stream is cut into chunks of at most one header and one maximal payload, the
dispatched frames are those of frame-by-frame decoding, cut where the connection ends. -/
theorem clientReads_dispatch_eq_decode (maxPayload : Nat) (session : σ)
    (chunks : List Bytes) (fuel : Nat)
    (bounded : ∀ chunk ∈ chunks,
      chunk.length ≤ 9 + (Connection.open maxPayload session).parser.maxPayload)
    (enough : 2 * chunks.flatten.length + 2 ≤ fuel) :
    ∃ c, clientReads env fuel (Connection.open maxPayload session) chunks = some c ∧
      (c.session, c.dispatched) = serveFrames env (session, [])
        (decodeFrames (Connection.open maxPayload session).parser.maxPayload
          chunks.flatten) ∧
      ((∀ other, env.clientRoutePoolHeld other = true) →
        (∀ other, env.closing other = false) →
        c.dispatched =
            decodeFrames (Connection.open maxPayload session).parser.maxPayload
              chunks.flatten ∧
          ∀ (frames : List Frame) (bufSize : Nat),
            (∀ frame ∈ frames,
              frame.Valid (Connection.open maxPayload session).parser.maxPayload ∧
                cmqHeaderLen + frame.payload.length ≤ bufSize) →
            chunks.flatten = frames.flatMap (fun frame =>
              cmqFrameEncode bufSize frame.hdr.op frame.hdr.flags frame.payload) →
            c.dispatched = frames) := by
  have empty : (Connection.open maxPayload session).parser.content = [] := rfl
  have fuelled : 2 * ((Connection.open maxPayload session).parser.content.length +
      chunks.flatten.length) + 2 ≤ fuel := by
    simpa [empty] using enough
  obtain ⟨c, read, served⟩ := clientReads_serves env (idle_open maxPayload session) bounded fuelled
  refine ⟨c, read, served, fun held stays => ?_⟩
  have all : c.dispatched =
      decodeFrames (Connection.open maxPayload session).parser.maxPayload
        chunks.flatten := by
    have dispatched := congrArg Prod.snd served
    rw [serveFrames_of_open env held stays] at dispatched
    exact dispatched
  refine ⟨all, fun frames bufSize fits stream => ?_⟩
  have encoded : chunks.flatten = encodeFrames frames := by
    rw [stream]
    apply flatMap_congr
    intro frame member
    rw [Frame.wire, cmqFrameEncode, cmqFrameEncode, if_neg (not_lt.mpr (fits frame member).2),
      if_neg (lt_irrefl _)]
  rw [all, encoded]
  have whole := decodeFrames_encodeFrames_append (fun frame member => (fits frame member).1) []
  rw [append_nil] at whole
  exact whole.trans (append_nil frames)

/-- A `PING` split in the middle of its header is dispatched as one frame. -/
theorem clientReads_dispatch_ping :
    ∃ c, clientReads ⟨fun _ _ => (), fun _ => true, fun _ => false⟩ 20
        (Connection.open 16 ()) [[0xCA, 0xFE, 0x01, 0x00], [0x0A, 0, 0, 0, 0]] = some c ∧
      c.dispatched =
        [{ hdr := acceptedHdr 0 CmqOp.ping.code 0, payload := [] }] := by
  obtain ⟨c, read, -, served⟩ := clientReads_dispatch_eq_decode
    (⟨fun _ _ => (), fun _ => true, fun _ => false⟩ : Session Unit) 16 ()
    [[0xCA, 0xFE, 0x01, 0x00], [0x0A, 0, 0, 0, 0]] 20 (by decide) (by decide)
  refine ⟨c, read, ?_⟩
  rw [(served (fun _ => rfl) (fun _ => rfl)).1]
  decide

end CMsgQueue.Server
