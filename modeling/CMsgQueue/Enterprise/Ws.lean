import CMsgQueue.Lib.Bytes
import CMsgQueue.Lib.Framing

/-!
# WebSocket frames
-/

namespace CMsgQueue.Enterprise

open List Framing

/-- `cmq_ws_frame_t`, with the four bits of the opcode that are encoded. -/
structure WsFrame where
  fin : Bool
  rsv1 : Bool
  opcode : Fin 16
  masked : Bool
  maskKey : Nat
  payload : Bytes
  deriving DecidableEq

/-- The next `n` bytes and those behind them, once they have arrived. -/
def need (n : Nat) (rest : Bytes) (k : Bytes → Bytes → Verdict WsFrame) : Verdict WsFrame :=
  if rest.length < n then .more else k (rest.take n) (rest.drop n)

/-- `cmq_ws_frame_parse_ex` behind the length, which `headerLen` bytes tell. -/
def wsParseBody (frame : WsFrame) (headerLen payloadLen : Nat) (rest : Bytes) :
    Verdict WsFrame :=
  if payloadLen > 16 * 1024 * 1024 ∨
      payloadLen > sizeMax - headerLen - if frame.masked then 4 else 0 then .bad
  else if frame.masked then
    need 4 rest fun key rest => need payloadLen rest fun payload _ =>
      .item { frame with maskKey := getBe key, payload } (headerLen + 4 + payloadLen)
  else need payloadLen rest fun payload _ => .item { frame with payload } (headerLen + payloadLen)

/-- `cmq_ws_frame_parse_ex`: 0 is `more` and -1 is `bad`. -/
def cmqWsFrameParseEx (allowRsv1 : Bool) : Bytes → Verdict WsFrame
  | b0 :: b1 :: rest =>
    let frame : WsFrame := ⟨b0 &&& 0x80 != 0, b0 &&& 0x40 != 0, Fin.ofNat 16 b0.toNat,
      b1 &&& 0x80 != 0, 0, []⟩
    let len := (b1 &&& 0x7F).toNat
    if b0 &&& 0x30 ≠ 0 ∨ frame.rsv1 ∧ (allowRsv1 = false ∨ frame.opcode ≥ 8) ∨
        frame.opcode ≥ 8 ∧ (frame.fin = false ∨ len > 125) then .bad
    else if len = 126 then need 2 rest fun len rest => wsParseBody frame 4 (getBe len) rest
    else if len = 127 then
      need 8 rest fun len rest =>
        if len.headD 0 &&& 0x80 ≠ 0 then .bad else wsParseBody frame 10 (getBe len) rest
    else wsParseBody frame 2 len rest
  | _ => .more

/-- `ws_encode_header`. -/
def wsEncodeHeader (frame : WsFrame) : Bytes :=
  ((if frame.fin then 0x80 else 0) ||| (if frame.rsv1 then 0x40 else 0) |||
    UInt8.ofNat frame.opcode) ::
  if frame.payload.length ≤ 125 then [UInt8.ofNat frame.payload.length]
  else if frame.payload.length ≤ 65535 then 126 :: putBe 2 frame.payload.length
  else 127 :: putBe 8 frame.payload.length

def cmqWsFrameSerialize (bufLen : Nat) (frame : WsFrame) : Option Bytes :=
  let bytes := wsEncodeHeader frame ++ frame.payload
  if bytes.length > sizeMax ∨ bytes.length > bufLen ∨ bytes.length > 2 ^ 31 - 1 then none
  else some bytes

/-- A verdict stands whatever arrives later, and tells of no byte behind those that arrived. -/
def Stable (before : Nat) (read : Bytes → Verdict WsFrame) : Prop :=
  ∀ rest tail, read rest ≠ .more → read (rest ++ tail) = read rest ∧
    ∀ frame size, read rest = .item frame size → size ≤ before + rest.length

lemma stable_need {k : Bytes → Bytes → Verdict WsFrame}
    (stable : ∀ part, Stable (before + n) (k part)) : Stable before fun rest => need n rest k := by
  intro rest tail settled
  have long : n ≤ rest.length := Nat.le_of_not_lt fun short => settled (if_pos short)
  have longer : n ≤ (rest ++ tail).length := by rw [length_append]; omega
  dsimp only [need] at settled ⊢
  rw [if_neg (by omega)] at settled
  rw [if_neg (by omega), if_neg (by omega), take_append_of_le_length long,
    drop_append_of_le_length long]
  obtain ⟨same, bound⟩ := stable _ _ tail settled
  refine ⟨same, fun frame size item => ?_⟩
  have within := bound frame size item
  rw [length_drop] at within
  omega

lemma stable_item (frame : WsFrame) (size : Nat) : Stable size fun _ => .item frame size := by
  rintro _ _ -
  refine ⟨rfl, fun _ _ item => ?_⟩
  cases item
  exact Nat.le_add_right _ _

lemma stable_bad (before : Nat) : Stable before fun _ => .bad := fun _ _ _ => ⟨rfl, nofun⟩

lemma stable_wsParseBody (frame : WsFrame) (headerLen payloadLen : Nat) :
    Stable headerLen (wsParseBody frame headerLen payloadLen) := by
  unfold wsParseBody
  split_ifs
  · exact stable_bad _
  · exact stable_need fun _ => stable_need fun payload => stable_item _ _
  · exact stable_bad _
  exact stable_need fun payload => stable_item _ _

lemma stable_cmqWsFrameParseEx (allowRsv1 : Bool) : Stable 0 (cmqWsFrameParseEx allowRsv1) := by
  intro buf tail settled
  match buf with
  | [] | [_] => exact absurd rfl settled
  | b0 :: b1 :: rest =>
    suffices stable : Stable 2 fun rest => cmqWsFrameParseEx allowRsv1 (b0 :: b1 :: rest) by
      obtain ⟨same, bound⟩ := stable rest tail settled
      refine ⟨same, fun frame size item => ?_⟩
      have within := bound frame size item
      simp only [length_cons]
      omega
    unfold cmqWsFrameParseEx
    dsimp only
    split
    · exact stable_bad _
    split
    · exact stable_need fun len => stable_wsParseBody _ _ _
    split
    · refine stable_need fun len => ?_
      split
      · exact stable_bad _
      exact stable_wsParseBody _ _ _
    exact stable_wsParseBody _ _ _

lemma firstByte_bits : ∀ (fin rsv1 : Bool) (opcode : Fin 16),
    let b0 : UInt8 := (if fin then 0x80 else 0) ||| (if rsv1 then 0x40 else 0) ||| UInt8.ofNat opcode
    (b0 &&& 0x80 != 0) = fin ∧ (b0 &&& 0x40 != 0) = rsv1 ∧ Fin.ofNat 16 b0.toNat = opcode ∧
      b0 &&& 0x30 = 0 := by
  decide

lemma need_append (part tail : Bytes) (k : Bytes → Bytes → Verdict WsFrame)
    (length : part.length = n) : need n (part ++ tail) k = k part tail := by
  rw [need, if_neg (by rw [length_append]; omega), take_left' length, drop_left' length]

lemma wsParseBody_plain {frame : WsFrame} (plain : frame.masked = false)
    (small : payload.length ≤ 16 * 1024 * 1024) (short : headerLen ≤ 10) (tail : Bytes) :
    wsParseBody frame headerLen payload.length (payload ++ tail) =
      .item { frame with payload } (headerLen + payload.length) := by
  rw [wsParseBody, if_neg (by simp [plain, sizeMax]; omega), if_neg (by simp [plain]),
    need_append _ _ _ rfl]

lemma lengthByte_bits : ∀ len : Fin 126,
    (UInt8.ofNat len &&& 0x80 != 0) = false ∧ (UInt8.ofNat len &&& 0x7F).toNat = len := by
  decide

lemma parse_encoded {frame : WsFrame} (small : frame.payload.length ≤ 16 * 1024 * 1024)
    (control : frame.opcode ≥ 8 → frame.fin = true ∧ frame.payload.length ≤ 125)
    (reserved : frame.rsv1 = true → allowRsv1 = true ∧ frame.opcode < 8) (tail : Bytes) :
    cmqWsFrameParseEx allowRsv1 (wsEncodeHeader frame ++ frame.payload ++ tail) =
      .item { frame with masked := false, maskKey := 0 }
        (wsEncodeHeader frame ++ frame.payload).length := by
  obtain ⟨fin, rsv1, opcode, masked, maskKey, payload⟩ := frame
  obtain ⟨finEq, rsvEq, opcodeEq, clear⟩ := firstByte_bits fin rsv1 opcode
  unfold wsEncodeHeader
  dsimp only at *
  generalize (_ ||| _ ||| UInt8.ofNat opcode : UInt8) = b0 at *
  -- None of the checks on the first two bytes refuses.
  have accepted : ∀ len, (opcode ≥ 8 → len ≤ 125) → ¬(b0 &&& 0x30 ≠ 0 ∨
      rsv1 = true ∧ (allowRsv1 = false ∨ opcode ≥ 8) ∨ opcode ≥ 8 ∧ (fin = false ∨ len > 125)) := by
    rintro len short (set | ⟨set, refused⟩ | ⟨isControl, refused⟩)
    · exact set clear
    · simp [(reserved set).1, Fin.not_le.mpr (reserved set).2] at refused
    simp [(control isControl).1] at refused
    exact absurd (short isControl) (by omega)
  split_ifs with short medium
  · obtain ⟨unmasked, lenEq⟩ := lengthByte_bits ⟨payload.length, by omega⟩
    simp only [cons_append, nil_append, cmqWsFrameParseEx, finEq, rsvEq, opcodeEq, unmasked, lenEq]
    rw [if_neg (accepted _ fun _ => short), if_neg (by omega), if_neg (by omega),
      wsParseBody_plain rfl small (by omega)]
    simp only [length_cons]
    exact congrArg _ (by omega)
  · simp only [cons_append, append_assoc, cmqWsFrameParseEx, finEq, rsvEq, opcodeEq]
    rw [if_neg (accepted _ fun is => absurd (control is).2 short), if_pos (by rfl),
      need_append _ _ _ (length_putBe _ _), getBe_putBe (by omega),
      wsParseBody_plain rfl small (by omega)]
    simp only [length_cons, length_append, length_putBe]
    exact congrArg _ (by omega)
  simp only [cons_append, append_assoc, cmqWsFrameParseEx, finEq, rsvEq, opcodeEq]
  rw [if_neg (accepted _ fun is => absurd (control is).2 short), if_neg (by decide),
    if_pos (by rfl), need_append _ _ _ (length_putBe _ _), getBe_putBe (by omega), if_neg,
    wsParseBody_plain rfl small (by omega)]
  · simp only [length_cons, length_append, length_putBe]
    exact congrArg _ (by omega)
  rw [putBe, headD_cons, Nat.div_eq_of_lt (by omega)]
  decide

/-- Frames that `cmq_ws_frame_serialize` encodes are read back, with the reserved bit only on a data
frame where it is allowed; a part of the encoding asks for more, and verdicts are stable. -/
theorem cmqWsFrameParseEx_serialized (allowRsv1 : Bool) :
    (∀ bufLen frame bytes, cmqWsFrameSerialize bufLen frame = some bytes →
      frame.payload.length ≤ 16 * 1024 * 1024 →
      (frame.opcode ≥ 8 → frame.fin = true ∧ frame.payload.length ≤ 125) →
      (frame.rsv1 = true → allowRsv1 = true ∧ frame.opcode < 8) →
      (∀ tail, ∃ parsed, cmqWsFrameParseEx allowRsv1 (bytes ++ tail) = .item parsed bytes.length ∧
        parsed.fin = frame.fin ∧ parsed.opcode = frame.opcode ∧ parsed.payload = frame.payload) ∧
      ∀ n < bytes.length, cmqWsFrameParseEx allowRsv1 (bytes.take n) = .more) ∧
    ∀ buf tail, cmqWsFrameParseEx allowRsv1 buf ≠ .more →
      cmqWsFrameParseEx allowRsv1 (buf ++ tail) = cmqWsFrameParseEx allowRsv1 buf := by
  refine ⟨fun bufLen frame bytes encoded small control reserved => ?_, fun buf tail settled =>
    (stable_cmqWsFrameParseEx allowRsv1 buf tail settled).1⟩
  obtain ⟨-, rfl⟩ := by simpa [cmqWsFrameSerialize] using encoded
  have parsed := parse_encoded small control reserved
  refine ⟨fun tail => ⟨_, parsed tail, rfl, rfl, rfl⟩, fun n _ => ?_⟩
  -- A verdict on a part would be that on the whole, whose frame ends behind the part.
  by_contra settled
  obtain ⟨same, bound⟩ := stable_cmqWsFrameParseEx allowRsv1 _
    ((wsEncodeHeader frame ++ frame.payload).drop n) settled
  rw [take_append_drop] at same
  have whole := parsed []
  rw [append_nil, same] at whole
  have within := bound _ _ whole
  rw [length_take] at within
  omega

/-- A data frame with the reserved bit is refused where that is not allowed. -/
theorem cmqWsFrameParseEx_reserved :
    cmqWsFrameSerialize 16 ⟨true, true, 1, false, 0, [65]⟩ = some [0xC1, 1, 65] ∧
      cmqWsFrameParseEx false [0xC1, 1, 65] = .bad := by
  decide

end CMsgQueue.Enterprise
