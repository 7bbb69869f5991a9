import CMsgQueue.Proto.FeedSpec

/-!
# Runs of the parser

A caller feeds bytes, takes frames and retries parked input in any order.  A run records the
bytes fed and the frames taken so far.
-/

namespace CMsgQueue.Proto

open Framing

/-- A call on the parser. -/
inductive ParserCall where
  | feed (data : Bytes)
  | next
  | drainInbuf
  deriving DecidableEq

/-- A parser together with the history of the calls made on it. -/
structure ParserRun where
  parser : CmqParser
  fed : Bytes
  taken : List Frame
  failed : Bool
  deriving DecidableEq

namespace ParserRun

def start (maxPayload : Nat) : ParserRun where
  parser := cmqParserSetMaxPayload cmqParserCreate maxPayload
  fed := []
  taken := []
  failed := false

/-- A call fails by returning -1 or by latching the error that
`cmq_parser_pending_error` reports. -/
def callFailed (result : CmqParser × Int) : Bool :=
  result.2 < 0 || cmqParserPendingError result.1 = 1

/-- One call.  The frame a caller has taken is the one `cmq_parser_next` removes. -/
def call (run : ParserRun) : ParserCall → ParserRun
  | .feed data =>
    let result := cmqParserFeed run.parser data
    { run with
      parser := result.1
      fed := run.fed ++ data
      failed := run.failed || callFailed result }
  | .next =>
    let result := cmqParserNext run.parser
    { run with
      parser := result.1
      taken := run.taken ++ (cmqParserFrame run.parser).toList
      failed := run.failed || callFailed result }
  | .drainInbuf =>
    let result := cmqParserDrainInbuf run.parser
    { run with
      parser := result.1
      failed := run.failed || callFailed result }

def calls (maxPayload : Nat) (sequence : List ParserCall) : ParserRun :=
  sequence.foldl call (start maxPayload)

structure Inv (maxPayload : Nat) (run : ParserRun) : Prop where
  wf : run.parser.WF
  max_eq : run.parser.maxPayload = maxPayload
  conserve : ∃ dropped,
    run.fed = encodeFrames run.taken ++ run.parser.content ++ dropped ∧
      (run.parser.pendingError = false → dropped = [])
  clear : run.failed = false → run.parser.pendingError = false

lemma clear_of_callFailed {failed : Bool} {result : CmqParser × Int}
    (success : (failed || callFailed result) = false) : result.1.pendingError = false := by
  cases set : result.1.pendingError with
  | false => rfl
  | true => simp [callFailed, cmqParserPendingError, set] at success

lemma conserve_of_transfer {fed data : Bytes} {taken : List Frame} {p p' : CmqParser}
    (before : ∃ dropped, fed = encodeFrames taken ++ p.content ++ dropped ∧
      (p.pendingError = false → dropped = []))
    (clear : p.pendingError = false) (moved : Transfer p data p') :
    ∃ dropped, fed ++ data = encodeFrames taken ++ p'.content ++ dropped ∧
      (p'.pendingError = false → dropped = []) := by
  obtain ⟨_, content, kept⟩ := before
  obtain ⟨dropped, content', kept'⟩ := moved.conserve
  refine ⟨dropped, ?_, kept'⟩
  rw [content, kept clear, List.append_nil, List.append_assoc, content', ← List.append_assoc]

lemma call_inv (inv : Inv maxPayload run) (op : ParserCall) : Inv maxPayload (run.call op) := by
  cases op with
  | feed data =>
    by_cases set : run.parser.pendingError = true
    · have same := cmqParserFeed_latched data set
      refine ⟨?_, ?_, ?_, clear_of_callFailed⟩
      · simpa only [call, same] using inv.wf
      · simpa only [call, same] using inv.max_eq
      obtain ⟨lost, content, -⟩ := inv.conserve
      refine ⟨lost ++ data, ?_, ?_⟩
      · simp only [call, same, content, List.append_assoc]
      simp [call, same, set]
    rw [Bool.not_eq_true] at set
    have moved := cmqParserFeed_transfer data inv.wf set
    exact ⟨moved.wf, moved.max_eq.trans inv.max_eq,
      conserve_of_transfer inv.conserve set moved, clear_of_callFailed⟩
  | next =>
    obtain ⟨wf, maxEq, errorEq, holdEq, windowEq, queueEq, -⟩ := cmqParserNext_spec inv.wf
    refine ⟨wf, maxEq.trans inv.max_eq, ?_, clear_of_callFailed⟩
    obtain ⟨lost, content, kept⟩ := inv.conserve
    refine ⟨lost, ?_, fun clear => kept (errorEq.symm.trans clear)⟩
    simp only [call, CmqParser.content, holdEq, windowEq]
    rw [content, CmqParser.content, queueEq]
    simp [encodeFrames]
  | drainInbuf =>
    by_cases set : run.parser.pendingError = true
    · have same := cmqParserDrainInbuf_latched set
      refine ⟨?_, ?_, ?_, clear_of_callFailed⟩
      · simpa only [call, same] using inv.wf
      · simpa only [call, same] using inv.max_eq
      simpa only [call, same] using inv.conserve
    rw [Bool.not_eq_true] at set
    have moved := (cmqParserDrainInbuf_spec inv.wf set).transfer
    have conserve := conserve_of_transfer inv.conserve set moved
    rw [List.append_nil] at conserve
    exact ⟨moved.wf, moved.max_eq.trans inv.max_eq, conserve, clear_of_callFailed⟩

lemma calls_inv (maxPayload : Nat) (sequence : List ParserCall) :
    Inv (start maxPayload).parser.maxPayload (calls maxPayload sequence) :=
  List.foldlRecOn sequence call
    ⟨cmqParserCreate_wf maxPayload, rfl, ⟨[], rfl, fun _ => rfl⟩, fun _ => rfl⟩
    fun _ inv op _ => call_inv inv op

/-- Over any sequence of calls, no byte is lost, duplicated or reordered while no call
has failed, and the queue, the window and the hold always stay within their bounds. -/
theorem calls_conserve_bytes (maxPayload : Nat) (sequence : List ParserCall) :
    ((calls maxPayload sequence).failed = false →
      encodeFrames (calls maxPayload sequence).taken ++
          encodeFrames (calls maxPayload sequence).parser.queue ++
          (calls maxPayload sequence).parser.window ++
          (calls maxPayload sequence).parser.hold =
        (calls maxPayload sequence).fed) ∧
    (calls maxPayload sequence).parser.queued =
      (calls maxPayload sequence).parser.queue.length ∧
    (calls maxPayload sequence).parser.queued ≤ 64 ∧
    (calls maxPayload sequence).parser.queuedBytes =
      ((calls maxPayload sequence).parser.queue.map fun frame =>
        frame.payload.length).sum ∧
    (calls maxPayload sequence).parser.queuedBytes ≤
      2 * (start maxPayload).parser.maxPayload ∧
    (calls maxPayload sequence).parser.window.length ≤
      9 + (start maxPayload).parser.maxPayload ∧
    (calls maxPayload sequence).parser.hold.length ≤
      9 + (start maxPayload).parser.maxPayload := by
  have inv := calls_inv maxPayload sequence
  have maxEq := inv.max_eq
  refine ⟨?_, inv.wf.queued_eq, inv.wf.queued_le, inv.wf.bytes_eq, ?_, ?_, ?_⟩
  · intro success
    obtain ⟨_, content, kept⟩ := inv.conserve
    rw [content, kept (inv.clear success)]
    simp [CmqParser.content]
  · rw [← maxEq]
    exact inv.wf.bytes_le
  · rw [← maxEq]
    exact inv.wf.window_le
  rw [← maxEq]
  exact inv.wf.hold_le

/-- One frame and the first byte of another, with the frame taken: nothing failed, and
the remaining byte is in the window. -/
theorem calls_conserve_bytes_ping :
    (calls 16 [.feed [0xCA, 0xFE, 0x01, 0, 0x0A, 0, 0, 0, 0, 0xCA], .next]).failed = false ∧
      encodeFrames (calls 16 [.feed [0xCA, 0xFE, 0x01, 0, 0x0A, 0, 0, 0, 0, 0xCA], .next]).taken ++
        encodeFrames [] ++ [0xCA] ++ [] =
      [0xCA, 0xFE, 0x01, 0, 0x0A, 0, 0, 0, 0, 0xCA] :=
  ⟨by decide,
    (calls_conserve_bytes 16
      [.feed [0xCA, 0xFE, 0x01, 0, 0x0A, 0, 0, 0, 0, 0xCA], .next]).1 (by decide)⟩

end ParserRun

end CMsgQueue.Proto
