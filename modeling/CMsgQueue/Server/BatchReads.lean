import CMsgQueue.Server.BatchSpec

/-!
# The reads of a batch

Pass 1 checks where the parts of each entry are, and the later passes walk over the payload again.
Pass 2b looks for the reply subject behind the mapped subject, which may have another length.
-/

namespace CMsgQueue.Server

open List Proto

def checkedWires (body : Bytes) : (count offset : Nat) → Except Bytes (List BatchWire)
  | 0, _ => .ok []
  | count + 1, offset => do
    let wire ← checkedWire body offset
    return wire :: (← checkedWires body count wire.next)

def batchCopied (env : BatchEnv) (srv : CmqServer) (c : CmqClient) :
    (i : Nat) → List BatchPrep → List BatchPrep
  | _, [] => []
  | i, prep :: preps =>
    if !batchStays env (.entry i) srv c then []
    else if env.routes.isSome ∧ c.isRoute = false ∧ env.pub i = true then
      let gone := !batchStays env (.forward i) srv c || (env.entry i).route.1 == -2
      prep :: if gone then [] else batchCopied env srv c (i + 1) preps
    else batchCopied env srv c (i + 1) preps

def BatchWire.subject (body : Bytes) (wire : BatchWire) : Bytes :=
  (body.drop (wire.start + 2)).take wire.subjectLen

def batchReplyStart (prep : BatchPrep) : Nat := prep.wire.start + 2 + prep.subject.length + 2

/-- Every pass behind the first reads the entries where pass 1 has checked them, and stays inside
of the payload and of the buffers for the subjects. -/
structure ReadsChecked (env : BatchEnv) (srv : CmqServer) (c : CmqClient) (frame : Frame) :
    Prop where
  prepare : ∀ body next, batchBody env frame = .ok body →
    (batchCheck env c body (wireLen body) 0 2 srv).2 = .ok next →
    let preps := (batchPrepare env c body (wireLen body) 0 2
      (batchCheck env c body (wireLen body) 0 2 srv).1).2.1
    ∃ wires, checkedWires body (wireLen body) 2 = .ok wires ∧
      (∀ wire ∈ wires, wire.Inside body) ∧
      preps.map BatchPrep.wire <+: wires ∧ ∀ prep ∈ preps, prep.subject.length < cmqMaxSubject
  forward : ∀ final body preps, batchFront env srv c frame = (final, .ok (body, preps)) →
    ∀ prep ∈ batchCopied env final c 0 preps, (batchReplyTo body prep).isSome = true ∧
      (prep.wire.replyLen = 0 ∨
        batchReplyStart prep = prep.wire.start + 2 + prep.wire.subjectLen + 2)

/-- The map keeps the length of the subject of every entry with a reply subject that is
forwarded. -/
def LengthKept (env : BatchEnv) (srv : CmqServer) (c : CmqClient) (frame : Frame) : Prop :=
  ∀ final body preps, batchFront env srv c frame = (final, .ok (body, preps)) →
    ∀ prep ∈ batchCopied env final c 0 preps, prep.wire.replyLen = 0 ∨
      (accountApplyRewrite srv c.accountName (prep.wire.subject body)).map List.length =
        some prep.wire.subjectLen

variable {env : BatchEnv} {srv : CmqServer} {c : CmqClient} {body : Bytes}

lemma batchCheck_wires {count i next : Nat}
    (checked : (batchCheck env c body count i offset srv).2 = .ok next) :
    ∃ wires, checkedWires body count offset = .ok wires := by
  induction count generalizing i offset srv with
  | zero => exact ⟨[], rfl⟩
  | succ count ih =>
    rw [batchCheck] at checked
    rcases first : batchCheckEntry (env.entry i) srv c body offset with ⟨_, _ | _⟩
    · rw [first] at checked
      cases checked
    rw [first] at checked
    obtain ⟨-, wire, -, read, rfl, -⟩ := batchCheckEntry_passed first
    obtain ⟨wires, later⟩ := ih checked
    exact ⟨wire :: wires, by simp only [checkedWires, read, later, bind, Except.bind]; rfl⟩

/-- The subject of a prepared entry is the mapped one, or the map failed. -/
def Mapped (srv : CmqServer) (c : CmqClient) (body : Bytes) (refused : Option Bytes)
    (prep : BatchPrep) : Prop :=
  accountApplyRewrite srv c.accountName (prep.wire.subject body) = some prep.subject ∨
    prep.subject = prep.wire.subject body ∧ refused ≠ none

lemma batchPrepareEntry_mapped (env : PublishEnv) (srv : CmqServer) (c : CmqClient)
    (body : Bytes) (offset : Nat) :
    let entry := batchPrepareEntry env srv c body offset
    entry.2.1.wire = batchWire body offset ∧ Mapped srv c body entry.2.2 entry.2.1 := by
  have start : (batchWire body offset).start = offset := rfl
  unfold batchPrepareEntry Mapped BatchWire.subject
  simp only
  repeat' split
  all_goals simp_all

lemma Mapped.length_lt (mapped : Mapped srv c body refused prep)
    (inside : prep.wire.Inside body) : prep.subject.length < cmqMaxSubject := by
  have raw : (prep.wire.subject body).length < cmqMaxSubject :=
    (length_take_le _ _).trans_lt inside.1
  rcases mapped with rewritten | ⟨same, -⟩
  · generalize prep.subject = subject at rewritten
    unfold accountApplyRewrite at rewritten
    repeat' split at rewritten
    all_goals cases rewritten
    · exact raw
    omega
  rwa [same]

lemma batchPrepare_wires {srv' : CmqServer} (same : SameView srv srv') {count : Nat} (i : Nat)
    {wires : List BatchWire} (checked : checkedWires body count offset = .ok wires) :
    let prepared := batchPrepare env c body count i offset srv'
    (∀ wire ∈ wires, wire.Inside body) ∧ prepared.2.1.map BatchPrep.wire <+: wires ∧
      ∀ prep ∈ prepared.2.1, Mapped srv c body prepared.2.2 prep := by
  induction count generalizing i offset srv' wires with
  | zero =>
    cases checked
    exact ⟨forall_mem_nil _, nil_prefix, forall_mem_nil _⟩
  | succ count ih =>
    obtain ⟨wire, read, checked⟩ := bind_eq_ok checked
    obtain ⟨_, rest, checked⟩ := bind_eq_ok checked
    cases checked
    obtain ⟨rfl, inside⟩ := checkedWire_eq_ok read
    obtain ⟨wireEq, mapped⟩ := batchPrepareEntry_mapped (env.entry i) srv' c body offset
    have view := same.trans (batchPrepareEntry_view (env.entry i) srv' c body offset)
    obtain ⟨insides, wires, subjects⟩ := ih view (i + 1) rest
    rw [Mapped, same.accountApplyRewrite_eq] at mapped
    rw [batchPrepare]
    cases refused : (batchPrepareEntry (env.entry i) srv' c body offset).2.2 with
    | some =>
      rw [refused] at mapped
      simp only [map_cons, forall_mem_cons, wireEq]
      exact ⟨⟨inside, insides⟩, cons_prefix_cons.2 ⟨rfl, nil_prefix⟩, mapped, forall_mem_nil _⟩
    | none =>
      rw [refused] at mapped
      simp only [map_cons, forall_mem_cons, wireEq]
      refine ⟨⟨inside, insides⟩, cons_prefix_cons.2 ⟨rfl, wires⟩, ?_, subjects⟩
      exact mapped.imp_right fun other => absurd rfl other.2

lemma batchPrepare_checked {next : Nat}
    (checked : (batchCheck env c body (wireLen body) 0 2 srv).2 = .ok next) :
    let prepared := batchPrepare env c body (wireLen body) 0 2
      (batchCheck env c body (wireLen body) 0 2 srv).1
    ∃ wires, checkedWires body (wireLen body) 2 = .ok wires ∧
      (∀ wire ∈ wires, wire.Inside body) ∧ prepared.2.1.map BatchPrep.wire <+: wires ∧
      ∀ prep ∈ prepared.2.1, Mapped srv c body prepared.2.2 prep := by
  obtain ⟨wires, walked⟩ := batchCheck_wires checked
  obtain ⟨heap, view⟩ := batchCheck_view env c body (wireLen body) 0 2 srv
  rw [view]
  have same := (SameView.refl srv).change (.refl _) rfl srv.qgRrCounter heap
  exact ⟨wires, walked, batchPrepare_wires same 0 walked⟩

lemma batchCopied_subset : ∀ prep ∈ batchCopied env srv c i preps, prep ∈ preps := by
  induction preps generalizing i with
  | nil => exact nofun
  | cons _ preps =>
    intro prep member
    rw [batchCopied] at member
    repeat' split at member
    all_goals grind

/-- The later passes read what pass 1 has checked if and only if the map keeps the lengths of the
subjects in front of the reply subjects that are copied. -/
theorem batch_readsChecked_iff (env : BatchEnv) (srv : CmqServer) (c : CmqClient)
    (frame : Frame) : ReadsChecked env srv c frame ↔ LengthKept env srv c frame := by
  have copied : ∀ final body preps, batchFront env srv c frame = (final, .ok (body, preps)) →
      ∀ prep ∈ batchCopied env final c 0 preps, prep.wire.Inside body ∧
        accountApplyRewrite srv c.accountName (prep.wire.subject body) = some prep.subject := by
    intro final body preps front prep member
    obtain ⟨-, -, ⟨next, checked⟩, prepared⟩ := batchFront_passed front
    obtain ⟨wires, -, insides, pre, mapped⟩ := batchPrepare_checked checked
    rw [prepared] at pre mapped
    have inside := batchCopied_subset prep member
    exact ⟨insides _ (pre.subset (mem_map_of_mem inside)),
      (mapped prep inside).resolve_right fun other => other.2 rfl⟩
  constructor
  · intro reads final body preps front prep member
    refine (reads.forward final body preps front prep member).2.imp_right fun start => ?_
    rw [(copied final body preps front prep member).2, Option.map_some, Option.some.injEq]
    rw [batchReplyStart] at start
    omega
  intro kept
  refine ⟨fun body next _ checked => ?_, fun final body preps front prep member => ?_⟩
  · obtain ⟨wires, walked, insides, pre, mapped⟩ := batchPrepare_checked checked
    refine ⟨wires, walked, insides, pre, fun prep member => (mapped prep member).length_lt ?_⟩
    exact insides _ (pre.subset (mem_map_of_mem member))
  obtain ⟨⟨-, inside, _⟩, rewritten⟩ := copied final body preps front prep member
  rw [BatchWire.next] at inside
  have same := kept final body preps front prep member
  rw [rewritten, Option.map_some, Option.some.injEq] at same
  rw [batchReplyTo, batchReplyStart]
  rcases same with none | same
  · exact ⟨by rw [if_pos none]; rfl, .inl none⟩
  refine ⟨?_, .inr (by rw [same])⟩
  have fits : prep.wire.start + 2 + prep.subject.length + 2 + prep.wire.replyLen ≤
      body.length := by omega
  split <;> rfl

/-- An account map for `a`, and a batch whose entry has the reply subject `r`: the byte that
pass 2b copies for `r` is outside of the payload. -/
theorem batch_reads_outside :
    let srv := { oneSubscriber (cstr "$default") with
      accounts := ⟨[⟨cstr "$default", true, 1, 0, 0⟩],
        [⟨cstr "$default", [], [], [⟨cstr "a", cstr "longer.a"⟩]⟩], 1⟩ }
    let env := { BatchEnv.granted with routes := some ⟨1, 1, 0, 1⟩ }
    let item : BatchItem := ⟨cstr "a", cstr "r", [], by decide, by decide, by decide, by decide,
      by decide, by decide⟩
    ¬ ReadsChecked env srv samplePublisher (batchFrame [item]) := by
  intro srv env item reads
  let prep : BatchPrep := ⟨⟨2, 1, 1, 12, 0⟩, cstr "longer.a", [], false⟩
  have front : (batchFront env srv samplePublisher (batchFrame [item])).2 =
      .ok (batchBytes [item], [prep]) := by decide +kernel
  have copied : prep ∈ batchCopied env (batchFront env srv samplePublisher (batchFrame [item])).1
      samplePublisher 0 [prep] := by decide +kernel
  have read := (reads.forward _ _ _ (Prod.ext rfl front) prep copied).1
  cases read

end CMsgQueue.Server
