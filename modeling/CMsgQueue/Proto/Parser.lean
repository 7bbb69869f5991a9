import CMsgQueue.Proto.Frame

/-!
# The connection parser

The functions of `proto/cmq_parser.c`.  The input buffer is the list of its written bytes, and
the frame queue is the list from `head` to `tail`.  Allocations succeed.
-/

namespace CMsgQueue.Proto

open Framing

def cmqMaxPayload : Nat := 16 * 1024 * 1024
def cmqMaxFramePayload : Nat := cmqMaxPayload + 256 * 2 + 65536 + 64
def cmqParserFrameQueueMax : Nat := 64
def cmqParserQueuedBytesFactor : Nat := 2

/-- `struct cmq_parser`. -/
structure CmqParser where
  inbuf : Bytes
  inbufOff : Nat
  inbufCap : Nat
  queue : List Frame
  queued : Nat
  queuedBytes : Nat
  maxPayload : Nat
  pendingError : Bool
  hold : Bytes
  holdCap : Nat
  deriving DecidableEq

namespace CmqParser

def window (p : CmqParser) : Bytes := p.inbuf.drop p.inbufOff

/-- `CMQ_HEADER_LEN + max_payload`: the bound on the window and on the hold. -/
def hard (p : CmqParser) : Nat := cmqHeaderLen + p.maxPayload

def takeHold (p : CmqParser) : CmqParser := { p with hold := [], holdCap := 0 }

end CmqParser

/-- `cmq_parser_create`. -/
def cmqParserCreate : CmqParser where
  inbuf := []
  inbufOff := 0
  inbufCap := 1024
  queue := []
  queued := 0
  queuedBytes := 0
  maxPayload := cmqMaxPayload
  pendingError := false
  hold := []
  holdCap := 0

/-- `cmq_parser_set_max_payload`. -/
def cmqParserSetMaxPayload (p : CmqParser) (maxPayload : Nat) : CmqParser :=
  { p with
    maxPayload :=
      if maxPayload = 0 then cmqMaxPayload
      else if maxPayload > cmqMaxFramePayload then cmqMaxFramePayload
      else maxPayload }

/-- Payload bytes the queue may hold, saturating at `SIZE_MAX`. -/
def queuedBudget (maxPayload : Nat) : Nat :=
  if maxPayload ≤ sizeMax / cmqParserQueuedBytesFactor then
    maxPayload * cmqParserQueuedBytesFactor
  else sizeMax

/-- `cmq_push_frame`; `none` is the `NULL` of queue-full backpressure. -/
def cmqPushFrame (p : CmqParser) (frame : Frame) : Option CmqParser :=
  if p.queued ≥ cmqParserFrameQueueMax then none
  else if p.queuedBytes > queuedBudget p.maxPayload ∨
      frame.payload.length > queuedBudget p.maxPayload - p.queuedBytes then none
  else
    some { p with
      queue := p.queue ++ [frame]
      queued := p.queued + 1
      queuedBytes := p.queuedBytes + frame.payload.length }

/-- `while (ncap < need)`: double a capacity until it covers `need`.  Sixty-four
doublings take any positive capacity past `SIZE_MAX / 2`. -/
def growCap : Nat → Nat → Nat → Option Nat
  | 0, _, _ => none
  | fuel + 1, ncap, need =>
    if ncap < need then
      if ncap > sizeMax / 2 then none else growCap fuel (ncap * 2) need
    else some ncap

/-- `parser_hold_append`; `none` is the return value -1. -/
def parserHoldAppend (p : CmqParser) (data : Bytes) (hard : Nat) : Option CmqParser :=
  if data = [] then some p
  else if p.hold.length > hard ∨ data.length > hard - p.hold.length then none
  else if p.hold.length + data.length > p.holdCap then
    match growCap 65 (if p.holdCap = 0 then 256 else p.holdCap)
        (p.hold.length + data.length) with
    | none => none
    | some ncap =>
      if p.hold.length + data.length > min ncap hard then none
      else some { p with hold := p.hold ++ data, holdCap := min ncap hard }
  else some { p with hold := p.hold ++ data }

/-- `ensure_inbuf`; `none` is the return value -1. -/
def ensureInbuf (p : CmqParser) (need : Nat) : Option CmqParser :=
  if need ≤ p.inbufCap then some p
  else
    (growCap 65 (if p.inbufCap = 0 then 1024 else p.inbufCap) need).map
      fun newcap => { p with inbufCap := newcap }

/-- `parser_have_frames`. -/
def parserHaveFrames (p : CmqParser) (produced : Bool) : Int :=
  if produced ∨ p.queue ≠ [] then 1 else -1

/-- One iteration of the frame loop of `parser_parse_inbuf`. -/
inductive ParseStep where
  /-- the loop condition fails or the frame is incomplete -/
  | exhausted
  /-- `return parser_have_frames(p, produced)` -/
  | stopped (p : CmqParser)
  /-- one frame queued and consumed -/
  | pushed (p : CmqParser)

/-- Body of the frame loop of `parser_parse_inbuf`. -/
def parseStep (p : CmqParser) : ParseStep :=
  match p.window with
  | b0 :: b1 :: b2 :: flags :: op :: l0 :: l1 :: l2 :: l3 :: body =>
    if b0 ≠ cmqProtoMagic0 ∨ b1 ≠ cmqProtoMagic1 then
      .stopped { p with pendingError := true }
    else if b2 ≠ cmqProtoVersion then .stopped { p with pendingError := true }
    else if compressedControl flags op then .stopped { p with pendingError := true }
    else if le32 l0 l1 l2 l3 > p.maxPayload then
      .stopped { p with pendingError := true }
    else if p.window.length < cmqHeaderLen + le32 l0 l1 l2 l3 then .exhausted
    else
      let frame : Frame :=
        { hdr :=
            { magic0 := b0, magic1 := b1, version := b2, flags, op
              length := le32 l0 l1 l2 l3 }
          payload := body.take (le32 l0 l1 l2 l3) }
      match cmqPushFrame p frame with
      | none => .stopped p
      | some p' =>
        .pushed { p' with
          inbufOff := p'.inbufOff + (cmqHeaderLen + le32 l0 l1 l2 l3) }
  | _ => .exhausted

/-- The frame loop: the state, whether a frame was produced, and whether the loop
returned instead of falling through.  Every iteration consumes a header, so the
length of the window is enough fuel. -/
def parseLoop : Nat → CmqParser → Bool → CmqParser × Bool × Bool
  | 0, p, produced => (p, produced, false)
  | fuel + 1, p, produced =>
    match parseStep p with
    | .exhausted => (p, produced, false)
    | .stopped p' => (p', produced, true)
    | .pushed p' => parseLoop fuel p' true

/-- Opportunistic compaction at the end of `parser_parse_inbuf`. -/
def compactInbuf (p : CmqParser) : CmqParser :=
  if p.inbufOff > 0 ∧ (p.inbufOff ≥ 4096 ∨ p.inbufOff * 2 ≥ p.inbuf.length) then
    { p with inbuf := p.window, inbufOff := 0 }
  else p

/-- `parser_parse_inbuf`. -/
def parserParseInbuf (p : CmqParser) : CmqParser × Int :=
  if badPrefix p.window then
    ({ p with pendingError := true }, parserHaveFrames p false)
  else
    match parseLoop p.window.length p false with
    | (p', produced, true) => (p', parserHaveFrames p' produced)
    | (p', produced, false) =>
      if badPrefix p'.window then
        ({ p' with pendingError := true }, parserHaveFrames p' produced)
      else (compactInbuf p', if produced then 1 else 0)

/-- `CMQ_FEED_STOP`: bytes not yet copied are lost, so the error is latched. -/
def feedStop (p : CmqParser) (rest : Bytes) (any : Bool) : CmqParser × Int :=
  ({ p with pendingError := p.pendingError || !rest.isEmpty },
    if p.queue ≠ [] ∨ any then 1 else -1)

/-- One iteration of the copy loop of `cmq_parser_feed`: it returns, or it continues
with the bytes that are still to be copied. -/
inductive FeedStep where
  | ret (p : CmqParser) (rc : Int)
  | cont (p : CmqParser) (rest : Bytes) (any : Bool)

/-- The buffer the next piece is copied into: the unread bytes are moved to the front
when the piece would not fit behind them. -/
def movedInbuf (p : CmqParser) (chunk : Nat) : CmqParser :=
  if p.inbufOff > 0 ∧ p.inbufOff + p.window.length + chunk > p.inbufCap then
    { p with inbuf := p.window, inbufOff := 0 }
  else p

/-- The end of an iteration: parse the copied bytes, then return or continue. -/
def feedParse (copied : CmqParser) (rest : Bytes) (any : Bool) : FeedStep :=
  let parsed := parserParseInbuf copied
  if parsed.2 < 0 then
    let stop := feedStop parsed.1 rest any
    .ret stop.1 stop.2
  else .cont parsed.1 rest (any || parsed.2 > 0)

/-- The second half of an iteration: copy as much as `room` allows and parse. -/
def feedCopy (p : CmqParser) (rest : Bytes) (any : Bool) (room : Nat) : FeedStep :=
  let chunk := min rest.length room
  let moved := movedInbuf p chunk
  match ensureInbuf moved (moved.inbuf.length + chunk) with
  | none => let stop := feedStop moved rest any; .ret stop.1 stop.2
  | some grown =>
    feedParse { grown with inbuf := grown.inbuf ++ rest.take chunk }
      (rest.drop chunk) any

/-- Queue-full backpressure on a full window parks the unread bytes in the hold. -/
def feedHold (p : CmqParser) (rest : Bytes) (any : Bool) : FeedStep :=
  match parserHoldAppend p rest p.hard with
  | none => .ret { p with pendingError := true } (if p.queue ≠ [] ∨ any then 1 else -1)
  | some held => .ret held (if held.queue ≠ [] ∨ any ∨ held.hold ≠ [] then 1 else -1)

def feedStep (p : CmqParser) (rest : Bytes) (any : Bool) : FeedStep :=
  if p.pendingError then .ret p (if p.queue ≠ [] ∨ any then 1 else -1)
  else if p.window.length > p.hard then
    let stop := feedStop { p with pendingError := true } rest any
    .ret stop.1 stop.2
  else if p.hard - p.window.length = 0 then
    let parsed := parserParseInbuf p
    if parsed.2 < 0 then
      let stop := feedStop parsed.1 rest any
      .ret stop.1 stop.2
    else if parsed.1.window.length > parsed.1.hard then
      let stop := feedStop { parsed.1 with pendingError := true } rest
        (any || parsed.2 > 0)
      .ret stop.1 stop.2
    else if parsed.1.hard - parsed.1.window.length = 0 then
      feedHold parsed.1 rest (any || parsed.2 > 0)
    else
      feedCopy parsed.1 rest (any || parsed.2 > 0)
        (parsed.1.hard - parsed.1.window.length)
  else feedCopy p rest any (p.hard - p.window.length)

/-- `while (off < len)`.  An iteration that continues has copied at least one byte,
so the number of bytes is enough fuel. -/
def feedLoop : Nat → CmqParser → Bytes → Bool → CmqParser × Int
  | 0, p, _, any => (p, if any then 1 else 0)
  | fuel + 1, p, rest, any =>
    if rest = [] then (p, if any then 1 else 0)
    else
      match feedStep p rest any with
      | .ret p' rc => (p', rc)
      | .cont p' rest' any' => feedLoop fuel p' rest' any'

def latchedRc (p : CmqParser) : Int := if p.queue ≠ [] then 1 else -1

/-- `cmq_parser_feed` on a parser whose hold is empty. -/
def cmqParserFeedUnheld (p : CmqParser) (data : Bytes) : CmqParser × Int :=
  if data = [] then (p, 0)
  else if p.inbufCap = 0 then (p, -1)
  else if p.pendingError then (p, latchedRc p)
  else feedLoop data.length p data false

/-- `cmq_parser_feed`.  The recursive call of the source flushes a nonempty hold and
always finds the hold it was given emptied. -/
def cmqParserFeed (p : CmqParser) (data : Bytes) : CmqParser × Int :=
  if data = [] then (p, 0)
  else if p.inbufCap = 0 then (p, -1)
  else if p.pendingError then (p, latchedRc p)
  else if p.hold = [] then feedLoop data.length p data false
  else
    let flushed := cmqParserFeedUnheld p.takeHold p.hold
    if flushed.1.pendingError then (flushed.1, latchedRc flushed.1)
    else if flushed.2 < 0 then (flushed.1, -1)
    else if flushed.1.hold ≠ [] then
      match parserHoldAppend flushed.1 data flushed.1.hard with
      | none =>
        ({ flushed.1 with pendingError := true },
          if flushed.1.queue ≠ [] ∨ flushed.2 > 0 then 1 else -1)
      | some held => (held, 1)
    else feedLoop data.length flushed.1 data (flushed.2 > 0)

/-- `cmq_parser_drain_inbuf`. -/
def cmqParserDrainInbuf (p : CmqParser) : CmqParser × Int :=
  if p.inbufCap = 0 then (p, -1)
  else if p.pendingError then (p, latchedRc p)
  else
    let parsed := parserParseInbuf p
    if parsed.2 < 0 then (parsed.1, -1)
    else if parsed.1.hold ≠ [] ∧ parsed.1.pendingError = false then
      let fed := cmqParserFeed parsed.1.takeHold parsed.1.hold
      if fed.2 < 0 then (fed.1, -1)
      else (fed.1, if fed.2 > 0 then 1 else parsed.2)
    else parsed

/-- `cmq_parser_pending_error`. -/
def cmqParserPendingError (p : CmqParser) : Int := if p.pendingError then 1 else 0

/-- `cmq_parser_frame`. -/
def cmqParserFrame (p : CmqParser) : Option Frame := p.queue.head?

/-- `cmq_parser_next`. -/
def cmqParserNext (p : CmqParser) : CmqParser × Int :=
  match p.queue with
  | [] => (p, 0)
  | frame :: rest =>
    ({ p with
        queue := rest
        queued := if p.queued > 0 then p.queued - 1 else p.queued
        queuedBytes :=
          if p.queuedBytes ≥ frame.payload.length then
            p.queuedBytes - frame.payload.length
          else 0 },
      if rest ≠ [] then 1 else 0)

end CMsgQueue.Proto
