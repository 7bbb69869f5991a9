import CMsgQueue.Cluster.Route

/-!
# The frames of one peer

Where the frames go that `cmq_route_broadcast` accepts for a peer: to its connection, to the retry
queue, or to the count of dropped messages.  The peers share the queue; whether it has room, and
which slot an entry takes among those of the peer, is given with each step.
-/

namespace CMsgQueue.Cluster

open List

/-- A peer, with the numbers of the broadcasts that its frames belong to. -/
structure RoutePeer where
  connected : Bool
  /-- The frames sent whole over the present connection. -/
  received : List Nat
  /-- The entries of the retry queue for the peer, by slot. -/
  pending : List (Nat × Bytes)
  broadcasts : Nat
  accepted : Nat
  sent : Nat
  /-- The frames that are counted as dropped: in `stat_messages_dropped` by
  `cmq_route_forward_op`, or in `retry_dropped` when a drain finds no room for its entry. -/
  dropped : Nat
deriving DecidableEq

/-- A step that concerns the peer. -/
inductive PeerEvent where
  | attach
  | detach
  /-- A broadcast; `room` is whether `cmq_route_retry_offer` takes the frame. -/
  | broadcast (data : Bytes) (calls : List WriteCall) (room : Bool) (place : Nat)
  /-- A round of `cmq_route_retry_drain` for one entry of the peer.  Its slot is free during the
  write, so another frame may take the last room. -/
  | drain (index : Nat) (calls : List WriteCall) (room : Bool) (place : Nat)

namespace RoutePeer

def init : RoutePeer := ⟨false, [], [], 0, 0, 0, 0⟩

/-- `cmq_route_broadcast` for the peer: a frame the socket does not take is offered to the queue,
and after a failed write the connection is dropped. -/
def broadcast (p : RoutePeer) (data : Bytes) (calls : List WriteCall) (room : Bool) (place : Nat) :
    RoutePeer :=
  let q := { p with broadcasts := p.broadcasts + 1 }
  if p.connected then
    let q := { q with accepted := p.accepted + 1 }
    let wr := (writeFull data calls).2
    if wr = 0 then { q with received := p.received ++ [p.broadcasts], sent := p.sent + 1 }
    else if wr = 1 then
      if room then { q with pending := p.pending.insertIdx place (p.broadcasts, data) }
      else { q with dropped := p.dropped + 1 }
    else { q with connected := false, dropped := p.dropped + 1 }
  else q

/-- A round of `cmq_route_retry_drain`: the entry is taken out before the write, and offered again
only if the socket takes no byte. -/
def drain (p : RoutePeer) (index : Nat) (calls : List WriteCall) (room : Bool) (place : Nat) :
    RoutePeer :=
  match p.pending[index]? with
  | none => p
  | some (number, data) =>
    let q := { p with pending := p.pending.eraseIdx index }
    if p.connected then
      let wr := (writeFull data calls).2
      if wr = 0 then { q with received := p.received ++ [number], sent := p.sent + 1 }
      else if wr = 1 then
        if room then
          { q with pending := q.pending.insertIdx (min place q.pending.length) (number, data) }
        else { q with dropped := p.dropped + 1 }
      else q
    else q

def step (p : RoutePeer) : PeerEvent → RoutePeer
  | .attach => if p.connected then p else { p with connected := true, received := [] }
  | .detach => { p with connected := false }
  | .broadcast data calls room place => p.broadcast data calls room (min place p.pending.length)
  | .drain index calls room place => p.drain index calls room place

/-- Every frame accepted for the peer is sent, pending or counted as dropped, and the frames on the
connection are in the order of their broadcasts. -/
structure Conserved (p : RoutePeer) : Prop where
  balance : p.accepted = p.sent + p.pending.length + p.dropped
  sorted : p.received.Pairwise (· < ·)

/-- No broadcast to the peer finds a frame pending for it, and no retry finds the peer down or fails
hard. -/
def InTurn (p : RoutePeer) : PeerEvent → Prop
  | .broadcast _ _ _ _ => p.connected = true → p.pending = []
  | .drain index calls _ _ => ∀ entry, p.pending[index]? = some entry →
      p.connected = true ∧ (writeFull entry.2 calls).2 ≠ -1
  | _ => True

instance (p : RoutePeer) : (event : PeerEvent) → Decidable (p.InTurn event)
  | .broadcast _ _ _ _ => inferInstanceAs (Decidable (_ → _))
  | .drain index _ _ _ => inferInstanceAs (Decidable (∀ entry ∈ p.pending[index]?, _))
  | .attach | .detach => inferInstanceAs (Decidable True)

/-- At most the newest frame is pending. -/
structure Inv (p : RoutePeer) : Prop extends Conserved p where
  single : p.pending.length ≤ 1
  known : ∀ number ∈ p.received, number < p.broadcasts
  newest : ∀ entry ∈ p.pending, entry.1 < p.broadcasts ∧ ∀ number ∈ p.received, number < entry.1

variable {p : RoutePeer}

lemma inv_broadcast (inv : p.Inv) (inTurn : p.InTurn (.broadcast data calls room place)) :
    (p.step (.broadcast data calls room place)).Inv := by
  obtain ⟨⟨balance, sorted⟩, single, known, newest⟩ := inv
  have later : ∀ entry ∈ p.pending, entry.1 < p.broadcasts + 1 ∧
      ∀ number ∈ p.received, number < entry.1 :=
    fun entry mem => ⟨Nat.lt_succ_of_lt (newest entry mem).1, (newest entry mem).2⟩
  have known' : ∀ number ∈ p.received, number < p.broadcasts + 1 :=
    fun number mem => Nat.lt_succ_of_lt (known number mem)
  rw [step, broadcast]
  dsimp only
  split
  next up =>
    have empty := inTurn up
    split
    · refine ⟨⟨by dsimp only; omega, ?_⟩, single, ?_, by simp [empty]⟩
      · exact pairwise_append.mpr ⟨sorted, by simp, by simpa using known⟩
      simpa [or_imp, forall_and] using known'
    split
    · split
      · simp only [empty, length_nil, Nat.min_zero, insertIdx_zero] at balance ⊢
        exact ⟨⟨by simp only [length_singleton]; omega, sorted⟩, le_rfl, known',
          by simpa using known⟩
      exact ⟨⟨by dsimp only; omega, sorted⟩, single, known', later⟩
    exact ⟨⟨by dsimp only; omega, sorted⟩, single, known', later⟩
  exact ⟨⟨balance, sorted⟩, single, known', later⟩

lemma inv_drain (inv : p.Inv) (inTurn : p.InTurn (.drain index calls room place)) :
    (p.step (.drain index calls room place)).Inv := by
  rw [step, drain]
  cases at_ : p.pending[index]? with
  | none => exact inv
  | some entry =>
    obtain ⟨up, ok⟩ := inTurn entry at_
    obtain ⟨⟨balance, sorted⟩, _, known, newest⟩ := inv
    -- the entry is the only one of the peer
    obtain ⟨_, -⟩ := List.getElem?_eq_some_iff.mp at_
    obtain ⟨only, alone⟩ := length_eq_one_iff.mp (show p.pending.length = 1 by omega)
    have first : index = 0 := by omega
    subst first
    rw [alone, List.getElem?_cons_zero, Option.some.injEq] at at_
    subst at_
    obtain ⟨recent, behind⟩ := newest only (by simp [alone])
    simp only [alone, up, eraseIdx_cons_zero, length_nil, Nat.min_zero]
    rw [alone] at balance
    rcases writeFull_cases only.2 calls with all | refused | ⟨_, -, broken⟩
    · simp only [all, if_true]
      refine ⟨⟨by simp only [length_nil]; omega, ?_⟩, by simp, ?_, by simp⟩
      · exact pairwise_append.mpr ⟨sorted, by simp, by simpa using behind⟩
      simpa [or_imp, forall_and] using ⟨known, recent⟩
    · simp only [refused, if_true]
      cases room with
      | true => exact ⟨⟨balance, sorted⟩, le_rfl, known, by simpa using ⟨recent, behind⟩⟩
      | false =>
        simp only [Int.reduceEq, if_false, Bool.false_eq_true]
        rw [length_singleton] at balance
        exact ⟨⟨by simp only [length_nil]; omega, sorted⟩, Nat.zero_le 1, known, by simp⟩
    exact absurd (by rw [broken]) ok

/-- In a run in which no broadcast overtakes a pending frame and no retry fails, every frame
accepted for a peer is sent, pending or counted as dropped, and they reach it in order. -/
theorem run_conserved (events : List PeerEvent) (met : Runs.Meets step InTurn init events) :
    (events.foldl step init).Conserved := by
  have start : init.Inv := ⟨⟨rfl, by simp [init]⟩, by simp [init], by simp [init], by simp [init]⟩
  have kept : ∀ p event, Inv p → p.InTurn event → (p.step event).Inv := by
    intro p event inv inTurn
    cases event with
    | attach =>
      rw [step]
      split
      · exact inv
      exact ⟨⟨inv.balance, by simp⟩, inv.single, by simp, fun entry mem =>
        ⟨(inv.newest entry mem).1, by simp⟩⟩
    | detach => exact ⟨⟨inv.balance, inv.sorted⟩, inv.single, inv.known, inv.newest⟩
    | broadcast _ calls _ place => exact inv_broadcast inv inTurn
    | drain => exact inv_drain inv inTurn
  exact (Runs.Meets.invariant kept start met).toConserved

/-- A frame is retried twice, and the second time another frame has taken the last room; the next
frame is sent at its retry. -/
def sampleRetries : List PeerEvent :=
  [.attach, .broadcast [1] [.again true] true 0, .drain 0 [.again true] true 0,
    .drain 0 [.again true] false 0, .broadcast [2] [.again true] true 0, .drain 0 [.wrote 1] true 0]

theorem run_conserved_retried :
    let p := sampleRetries.foldl step init
    p.Conserved ∧ p.accepted = 2 ∧ p.sent = 1 ∧ p.dropped = 1 ∧ p.received = [1] := by
  exact ⟨run_conserved sampleRetries (by decide), by decide⟩

/-- The peer goes down while a frame is pending, and the retry loses the frame uncounted; a second
frame overtakes a pending one. -/
theorem retry_loses_and_overtakes :
    let lost := [.attach, .broadcast [1] [.again true] true 0, .detach,
      .drain 0 [] true 0].foldl step init
    let overtaken := [.attach, .broadcast [1] [.again true] true 0,
      .broadcast [2] [.wrote 1] true 0, .drain 0 [.wrote 1] true 0].foldl step init
    (lost.accepted = 1 ∧ lost.sent + lost.pending.length + lost.dropped = 0) ∧
      overtaken.received = [1, 0] := by
  decide

end RoutePeer

end CMsgQueue.Cluster
