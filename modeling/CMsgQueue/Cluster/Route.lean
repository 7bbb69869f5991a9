import CMsgQueue.Lib.Bytes
import CMsgQueue.Lib.EditFirst
import CMsgQueue.Lib.Runs

/-!
# Frames to the route peers

The two ways in which `cluster/cmq_route.c` writes frames to its connections.  A broadcast writes a
frame to every connected peer, and a round of `cmq_route_retry_drain` writes a frame that a socket
did not take before.  What the sockets do is given with each step.
-/

namespace CMsgQueue.Cluster

open List

/-- The outcome of one `write`. -/
inductive WriteCall where
  /-- It takes some bytes, at most those that are left. -/
  | wrote (n : Nat)
  /-- `EINTR`. -/
  | interrupted
  /-- `EAGAIN`, with whether `poll` finds the socket writable within its rounds. -/
  | again (ready : Bool)
  | failed
deriving DecidableEq

/-- The loop of `write_full` from an offset: the offset at the end and the return value.  A socket
that answers no more is one that fails. -/
def writeFullLoop (len off : Nat) : List WriteCall → Nat × Int
  | [] => if off < len then (off, -1) else (off, 0)
  | call :: calls =>
    if off < len then
      match call with
      | .interrupted => writeFullLoop len off calls
      | .again ready =>
        if off = 0 then (off, 1)
        else if ready then writeFullLoop len off calls
        else (off, -1)
      | .failed => (off, -1)
      | .wrote n => if n = 0 then (off, -1) else writeFullLoop len (off + min n (len - off)) calls
    else (off, 0)

/-- `write_full`. -/
def writeFull (data : Bytes) (calls : List WriteCall) : Nat × Int :=
  writeFullLoop data.length 0 calls

/-- A `cmq_route_conn_t`, with what was written to its socket. -/
structure RouteConn where
  remoteId : Bytes
  connected : Bool
  wire : Bytes
  /-- The frames for which `write_full` returned 0. -/
  sent : List Bytes
deriving DecidableEq

namespace RouteConn

/-- `write_full` on the socket of a connection. -/
def write (c : RouteConn) (data : Bytes) (calls : List WriteCall) : RouteConn :=
  let wr := writeFull data calls
  { c with
    wire := c.wire ++ data.take wr.1
    sent := if wr.2 = 0 then c.sent ++ [data] else c.sent }

/-- What `cmq_route_broadcast` does for a connection; a frame that the socket did not take goes to
the retry queue. -/
def broadcast (c : RouteConn) (data : Bytes) (calls : List WriteCall) : RouteConn :=
  if c.connected then
    if (writeFull data calls).2 = -1 then
      { c.write data calls with connected := false, remoteId := [] }
    else c.write data calls
  else c

/-- The test of `route_write_named`. -/
def reaches (nodeId : Bytes) (c : RouteConn) : Bool := c.connected && c.remoteId == nodeId

/-- The bytes on a connection are whole frames, but for a part behind them once it is down. -/
def Whole (c : RouteConn) : Prop :=
  ∃ part, c.wire = c.sent.flatten ++ part ∧ (c.connected = true → part = [])

end RouteConn

/-- A step of the pool. -/
inductive RouteEvent where
  /-- A connection is installed in a slot that has none. -/
  | attach (slot : Nat) (remoteId : Bytes)
  | detach (slot : Nat)
  | broadcast (data : Bytes) (calls : Nat → List WriteCall)
  /-- A round of `cmq_route_retry_drain`, with the entry that it takes from the queue. -/
  | retry (nodeId data : Bytes) (calls : List WriteCall)

/-- What a step does to the connections of the slots.  `route_write_named`, the write of a retry,
takes the first connection of the peer and leaves it up whatever it returns. -/
def routeStep (conns : List RouteConn) : RouteEvent → List RouteConn
  | .attach slot remoteId =>
    match conns[slot]? with
    | none => conns ++ [⟨remoteId, true, [], []⟩]
    | some old => if old.connected then conns else conns.set slot ⟨remoteId, true, [], []⟩
  | .detach slot => conns.modify slot ({ · with connected := false })
  | .broadcast data calls => conns.mapIdx fun i c => c.broadcast data (calls i)
  | .retry nodeId data calls => conns.editFirst (RouteConn.reaches nodeId) fun c => [c.write data calls]

/-- No retry to a connected peer fails behind the first byte. -/
def Unbroken (conns : List RouteConn) : RouteEvent → Prop
  | .retry nodeId data calls => conns.find? (RouteConn.reaches nodeId) ≠ none →
      (writeFull data calls).2 = -1 → (writeFull data calls).1 = 0
  | _ => True

lemma writeFullLoop_cases (inside : off ≤ len) (calls : List WriteCall) :
    writeFullLoop len off calls = (len, 0) ∨ (off = 0 ∧ writeFullLoop len off calls = (0, 1)) ∨
      ∃ last < len, writeFullLoop len off calls = (last, -1) := by
  induction calls generalizing off with
  | nil =>
    unfold writeFullLoop
    split
    next short => exact .inr (.inr ⟨off, short, rfl⟩)
    next whole => exact .inl (by rw [show off = len by omega])
  | cons call calls ih =>
    unfold writeFullLoop
    split
    next short =>
      cases call with
      | interrupted => exact ih inside
      | again =>
        dsimp only
        split
        next zero => exact .inr (.inl ⟨zero, by rw [zero]⟩)
        split
        · exact ih inside
        exact .inr (.inr ⟨off, short, rfl⟩)
      | failed => exact .inr (.inr ⟨off, short, rfl⟩)
      | wrote n =>
        dsimp only
        split
        · exact .inr (.inr ⟨off, short, rfl⟩)
        rcases ih (show off + min n (len - off) ≤ len by omega) with whole | ⟨zero, -⟩ | broken
        · exact .inl whole
        · omega
        exact .inr (.inr broken)
    next whole => exact .inl (by rw [show off = len by omega])

lemma writeFull_cases (data : Bytes) (calls : List WriteCall) :
    writeFull data calls = (data.length, 0) ∨ writeFull data calls = (0, 1) ∨
      ∃ last < data.length, writeFull data calls = (last, -1) := by
  rcases writeFullLoop_cases (Nat.zero_le data.length) calls with whole | ⟨-, none⟩ | broken
  · exact .inl whole
  · exact .inr (.inl none)
  exact .inr (.inr broken)

namespace RouteConn

variable {c : RouteConn} {data : Bytes} {calls : List WriteCall}

lemma Whole.down (whole : c.Whole) (remoteId : Bytes) (part : Bytes) :
    Whole ⟨remoteId, false, c.wire ++ part, c.sent⟩ := by
  obtain ⟨rest, eq, -⟩ := whole
  exact ⟨rest ++ part, by simp [eq], fun up => by cases up⟩

lemma whole_write_iff (whole : c.Whole) (up : c.connected = true) :
    (c.write data calls).Whole ↔
      ((writeFull data calls).2 = -1 → (writeFull data calls).1 = 0) := by
  obtain ⟨_, wire, none⟩ := whole
  rw [none up] at wire
  rcases writeFull_cases data calls with all | refused | ⟨_, _, broken⟩
  · exact iff_of_true ⟨[], by simp [write, all, wire], fun _ => rfl⟩ (by simp [all])
  · exact iff_of_true ⟨[], by simp [write, refused, wire], fun _ => rfl⟩ (by simp [refused])
  simp only [Whole, write, broken, forall_const]
  constructor
  · rintro ⟨_, eq, empty⟩
    have length := congrArg List.length eq
    rw [empty up, wire, if_neg (by decide), append_nil, length_append, length_take] at length
    omega
  rintro rfl
  exact ⟨[], by simp [wire], fun _ => rfl⟩

lemma Whole.broadcast (whole : c.Whole) : (c.broadcast data calls).Whole := by
  unfold RouteConn.broadcast
  split
  next up =>
    split
    next failed =>
      simp only [write, failed]
      exact whole.down _ _
    next ok => exact (whole_write_iff whole up).mpr fun failed => absurd failed ok
  exact whole

end RouteConn

lemma whole_routeStep_iff (whole : ∀ c ∈ conns, c.Whole)
    (event : RouteEvent) : (∀ c ∈ routeStep conns event, c.Whole) ↔ Unbroken conns event := by
  cases event with
  | attach slot remoteId =>
    simp only [Unbroken, iff_true, routeStep]
    have fresh : RouteConn.Whole ⟨remoteId, true, [], []⟩ := ⟨[], rfl, fun _ => rfl⟩
    split
    · simpa [or_imp, forall_and] using ⟨whole, fresh⟩
    split
    · exact whole
    intro c mem
    rcases mem_or_eq_of_mem_set mem with old | rfl
    · exact whole c old
    exact fresh
  | detach slot =>
    simp only [Unbroken, iff_true, routeStep]
    intro c mem
    obtain ⟨i, inside, rfl⟩ := getElem_of_mem mem
    rw [getElem_modify]
    split
    · simpa using (whole _ (getElem_mem _)).down _ []
    exact whole _ (getElem_mem _)
  | broadcast data calls =>
    simp only [Unbroken, iff_true]
    intro c mem
    obtain ⟨i, inside, rfl⟩ := mem_mapIdx.mp mem
    exact (whole _ (getElem_mem _)).broadcast
  | retry nodeId data calls =>
    simp only [Unbroken, routeStep]
    cases found : conns.find? (RouteConn.reaches nodeId) with
    | none => simpa [editFirst_of_find?_eq_none _ found] using whole
    | some c =>
      obtain ⟨_, _, rfl, -, edited⟩ :=
        editFirst_of_find? (fun c : RouteConn => [c.write data calls]) found
      have up : c.connected = true := by
        have hit := List.find?_some found
        rw [RouteConn.reaches, Bool.and_eq_true] at hit
        exact hit.1
      simp only [mem_append, mem_cons, or_imp, forall_and, forall_eq] at whole
      rw [edited]
      simp only [mem_append, mem_singleton, or_imp, forall_and, forall_eq,
        RouteConn.whole_write_iff whole.2.1 up, ne_eq, reduceCtorEq, not_false_eq_true, forall_const]
      exact ⟨fun all => all.2.1, fun ok => ⟨whole.1, ok, whole.2.2⟩⟩

/-- In every state of a run the connections carry whole frames, exactly if no retry fails behind the
first byte. -/
theorem run_whole_iff (events : List RouteEvent) :
    (∀ n, ∀ c ∈ (events.take n).foldl routeStep [], c.Whole) ↔
      Runs.Meets routeStep Unbroken [] events := by
  have kept : ∀ conns event, (∀ c ∈ conns, RouteConn.Whole c) →
      ((∀ c ∈ routeStep conns event, c.Whole) ↔ Unbroken conns event) :=
    fun conns event whole => whole_routeStep_iff whole event
  exact Runs.Meets.iff_invariant kept (by simp)

/-- The socket refuses a frame, and then fails in the middle of the retry: the connection stays up
with half a frame, and the next frame comes behind it. -/
theorem retry_leaves_half :
    let conns := [.attach 0 (cstr "n"), .broadcast [1, 2] fun _ => [.again true],
      .retry (cstr "n") [1, 2] [.wrote 1, .failed], .broadcast [3, 4] fun _ => [.wrote 2]].foldl
        routeStep []
    conns = [⟨cstr "n", true, [1, 3, 4], [[3, 4]]⟩] ∧ ¬ ∀ c ∈ conns, c.Whole := by
  refine ⟨by decide, fun whole => ?_⟩
  obtain ⟨_, wire, none⟩ := whole ⟨cstr "n", true, [1, 3, 4], [[3, 4]]⟩ (by decide)
  rw [none rfl] at wire
  cases wire

end CMsgQueue.Cluster
