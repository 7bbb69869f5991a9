import CMsgQueue.Server.DeliverSpec
import CMsgQueue.Server.SublistSpec

/-!
# Queue groups

The member of a queue group that gets a message is chosen by `qg_rr_counter`, which all groups of
the server share.  Snapshots of several threads run at the same time; each round of the loop of
`snapshot_deliver_targets` is one step, with at most one access to the counter.  The subscriptions
and the clients stay as they are during a run.
-/

namespace CMsgQueue.Server

open List

/-- A choice of a member: the group, the value of the counter, and the member. -/
structure QgPick where
  key : GroupKey
  tick : Nat
  picked : Matched
  deriving DecidableEq

/-- A thread in `snapshot_deliver_targets`: the entries it has still to look at, with their
`used` marks, and the targets so far. -/
structure SnapshotThread where
  env : DeliverEnv
  entries : List (Option CmqSubRef × Bool)
  tgts : List CmqDeliverTgt

/-- The counter, the snapshots in progress, and the choices made, in the order of the
additions to the counter. -/
structure QgState where
  counter : Nat
  threads : List SnapshotThread
  picks : List QgPick

/-- A publish that was matched begins its snapshot, or a snapshot goes on. -/
inductive QgEvent where
  | publish (env : DeliverEnv) (subject : Bytes)
  | turn (i : Nat)

namespace SnapshotThread

/-- One round of the outer loop of `snapshot_deliver_targets`. -/
def turn (srv : CmqServer) (counter : Nat) (t : SnapshotThread) :
    SnapshotThread × Option QgPick :=
  match t.entries with
  | [] => (t, none)
  | entry :: entries =>
    if entry.2 then ({ t with entries }, none)
    else
      match refClient srv entry.1 with
      | none => ({ t with entries }, none)
      | some first =>
        if first.1.queueGroup = [] then
          if snapshotLive srv first.2 then
            ({ t with entries, tgts := t.tgts ++ [cmqFillDeliverTgt first.1 first.2] }, none)
          else ({ t with entries }, none)
        else
          let members := groupMembers t.env srv first (entry :: entries)
          let marked := entries.map fun other =>
            (other.1, other.2 || inGroup t.env srv first other)
          match members[counter % members.length]? with
          | none => ({ t with entries := marked }, none)
          | some picked =>
            ({ t with
                entries := marked
                tgts := t.tgts ++ [cmqFillDeliverTgt picked.1 picked.2] },
              some ⟨groupKey first, counter, picked⟩)

end SnapshotThread

/-- `cmq_atomic_fetch_add_u64`, which is done for a choice only. -/
def nextTick (counter : Nat) (pick : Option QgPick) : Nat :=
  if pick.isSome then (counter + 1) % 2 ^ 64 else counter

namespace QgState

def step (srv : CmqServer) (s : QgState) : QgEvent → QgState
  | .publish env subject =>
    match cmqSublistMatch env.realloc srv.sublist subject with
    | none => s
    | some result =>
      if env.targets = false then s
      else
        let entries := result.entries.map fun entry => (entry, false)
        { s with threads := s.threads ++ [⟨env, entries, []⟩] }
  | .turn i =>
    match s.threads[i]? with
    | none => s
    | some t =>
      let turned := t.turn srv s.counter
      { counter := nextTick s.counter turned.2
        threads := s.threads.set i turned.1
        picks := s.picks ++ turned.2.toList }

def start (counter : Nat) : QgState := ⟨counter, [], []⟩

def run (srv : CmqServer) (s : QgState) (events : List QgEvent) : QgState :=
  events.foldl (step srv) s

def picksOf (s : QgState) (key : GroupKey) : List QgPick :=
  s.picks.filter fun pick => pick.key = key

end QgState

/-! ## The members of a group -/

section Group

variable {srv : CmqServer} {key : GroupKey}

def unusedOf (srv : CmqServer) (key : GroupKey) (entries : List (Option CmqSubRef × Bool)) :
    List Matched :=
  ((entries.filter fun entry => !entry.2).filterMap fun entry => refClient srv entry.1).filter
    fun m => groupKey m = key

def subscribed (srv : CmqServer) (key : GroupKey) : List Matched :=
  (srv.sublist.root.entries.filterMap fun item => refClient srv item.2).filter fun m =>
    groupKey m = key

def liveMembers (srv : CmqServer) (key : GroupKey) : List Matched :=
  (subscribed srv key).filter fun m => snapshotLive srv m.2

lemma unusedOf_cons (srv : CmqServer) (key : GroupKey) (entry : Option CmqSubRef × Bool)
    (entries : List (Option CmqSubRef × Bool)) :
    unusedOf srv key (entry :: entries) =
      (if entry.2 then []
        else ((refClient srv entry.1).toList.filter fun m => groupKey m = key)) ++
        unusedOf srv key entries := by
  change (unused srv _).filter _ = _ ++ (unused srv _).filter _
  split
  next used => rw [unused_cons_used used, nil_append]
  next notUsed => rw [unused_cons notUsed, filter_append]

lemma unusedOf_marked (grouped : first.1.queueGroup ≠ [])
    (entries : List (Option CmqSubRef × Bool)) :
    unusedOf srv key (entries.map fun other =>
        (other.1, other.2 || inGroup env srv first other)) =
      if groupKey first = key then [] else unusedOf srv key entries := by
  change (unused srv _).filter _ = ite _ _ ((unused srv _).filter _)
  rw [unused_marked env grouped, filter_filter]
  split
  next here =>
    subst here
    simp
  next other => exact filter_congr fun m _ => by simp; rintro rfl; exact Ne.symm other

end Group

/-! ## Runs -/

/-- `handle_subscribe` files a reference under its own subject. -/
def FiledBySubject (srv : CmqServer) : Prop :=
  ∀ path ref, (path, some ref) ∈ srv.sublist.root.entries →
    (tokenize ref.subject).map (List.map slToken) = some path

def AllOrNone (srv : CmqServer) (key : GroupKey) (t : SnapshotThread) : Prop :=
  unusedOf srv key t.entries = subscribed srv key ∨ unusedOf srv key t.entries = []

def PickedByTick (srv : CmqServer) (key : GroupKey) (pick : QgPick) : Prop :=
  pick.key = key →
    (liveMembers srv key)[pick.tick % (liveMembers srv key).length]? = some pick.picked

section Runs

variable {srv : CmqServer} {key : GroupKey}

lemma filter_group {α β : Type} {test : α → Bool} {select : α → Option β} {kind : β → Bool}
    {kept : Bool} (items : List α)
    (together : ∀ item ∈ items, ∀ m, select item = some m → kind m = true → test item = kept) :
    ((items.filter test).filterMap select).filter kind =
      if kept then (items.filterMap select).filter kind else [] := by
  induction items with
  | nil => simp
  | cons item items ih =>
    have later := ih fun other member => together other (mem_cons_of_mem _ member)
    cases found : select item with
    | none => cases passed : test item <;> simp [passed, found, later]
    | some m =>
      cases same : kind m with
      | false => cases passed : test item <;> simp [passed, found, same, later]
      | true =>
        have passed := together item mem_cons_self m found same
        cases kept <;> simp [passed, found, same, later]

lemma allOrNone_match (filed : FiledBySubject srv) {env : DeliverEnv} {subject : Bytes}
    {result : SublistResult CmqSubRef}
    (found : cmqSublistMatch env.realloc srv.sublist subject = some result) :
    AllOrNone srv key ⟨env, result.entries.map fun entry => (entry, false), []⟩ := by
  unfold cmqSublistMatch at found
  split at found
  · cases found
  next tokens _ =>
  have appended := matchRecursive_appended env.realloc srv.sublist.root tokens ⟨[], 0⟩
  rw [found] at appended
  have entries := appended.1
  have unused : unusedOf srv key (result.entries.map fun entry => (entry, false)) =
      ((srv.sublist.root.entries.filter fun item => slMatch item.1 tokens).filterMap
        fun item => refClient srv item.2).filter fun m => groupKey m = key := by
    rw [entries, unusedOf]
    simp [filter_map, Function.comp_def]
  -- whether an item of the group is matched depends on the subject of the group alone
  have together : ∀ item ∈ srv.sublist.root.entries, ∀ m, refClient srv item.2 = some m →
      groupKey m = key → slMatch item.1 tokens =
        ((tokenize key.subject).map (List.map slToken)).any fun path => slMatch path tokens := by
    rintro ⟨path, entry⟩ member m located rfl
    simp only [refClient, Option.bind_eq_some_iff, Option.map_eq_some_iff] at located
    obtain ⟨ref, rfl, _, -, rfl⟩ := located
    rw [groupKey, filed path ref member, Option.any_some]
  rw [AllOrNone, unused, filter_group _ fun item member m located same =>
    together item member m located (of_decide_eq_true same)]
  split
  · exact .inl rfl
  exact .inr rfl

lemma AllOrNone.turn (whole : AllOrNone srv key t) (grouped : key.queueGroup ≠ [])
    (counter : Nat) :
    AllOrNone srv key (t.turn srv counter).1 ∧ ∀ pick, (t.turn srv counter).2 = some pick →
        pick.tick = counter ∧ PickedByTick srv key pick := by
  obtain ⟨env, entries, tgts⟩ := t
  cases entries with
  | nil => exact ⟨whole, nofun⟩
  | cons entry entries =>
    unfold AllOrNone at whole ⊢
    rw [unusedOf_cons] at whole
    unfold SnapshotThread.turn
    simp only
    split
    next used =>
      rw [if_pos used] at whole
      exact ⟨whole, nofun⟩
    next unused =>
    rw [if_neg unused] at whole
    split
    next missing =>
      rw [missing] at whole
      exact ⟨whole, nofun⟩
    next first found =>
    rw [found, Option.toList_some] at whole
    split
    next single =>
      have other : groupKey first ≠ key := by
        rintro rfl
        exact grouped single
      rw [filter_singleton, decide_eq_false other] at whole
      split <;> exact ⟨whole, nofun⟩
    next several =>
    have members : groupMembers env srv first (entry :: entries) =
        (unusedOf srv (groupKey first) (entry :: entries)).filter _ :=
      groupMembers_eq_unused env several
    have marked : AllOrNone srv key ⟨env, entries.map fun other =>
        (other.1, other.2 || inGroup env srv first other), tgts⟩ := by
      rw [AllOrNone, unusedOf_marked several]
      split
      · exact .inr rfl
      next other => rwa [filter_singleton, decide_eq_false other] at whole
    split
    · exact ⟨marked, nofun⟩
    next _ chosen =>
    refine ⟨marked, ?_⟩
    rintro pick ⟨⟩
    refine ⟨rfl, ?_⟩
    rintro rfl
    rw [filter_singleton, decide_eq_true rfl] at whole
    have all : unusedOf srv (groupKey first) (entry :: entries) =
        subscribed srv (groupKey first) := by
      rw [unusedOf_cons, if_neg unused, found, Option.toList_some,
        filter_singleton, decide_eq_true rfl]
      exact whole.resolve_right (cons_ne_nil _ _)
    rw [members, all] at chosen
    exact chosen

namespace QgState

/-- Every snapshot is whole, and every choice was made by the counter, which counts the choices of
all groups. -/
structure Inv (srv : CmqServer) (key : GroupKey) (origin : Nat) (s : QgState) : Prop where
  threads : ∀ t ∈ s.threads, AllOrNone srv key t
  picks : ∀ pick ∈ s.picks, PickedByTick srv key pick
  ticks : s.picks.map QgPick.tick = (range s.picks.length).map fun n => (origin + n) % 2 ^ 64
  counter_eq : s.counter = (origin + s.picks.length) % 2 ^ 64

lemma Inv.step (filed : FiledBySubject srv) (grouped : key.queueGroup ≠ [])
    (inv : Inv srv key origin s) (event : QgEvent) : Inv srv key origin (s.step srv event) := by
  cases event with
  | publish =>
    unfold QgState.step
    simp only
    split
    · exact inv
    next _ found =>
    split
    · exact inv
    exact { inv with
      threads := forall_mem_append.mpr ⟨inv.threads, forall_mem_singleton.mpr
        (allOrNone_match filed found)⟩ }
  | turn i =>
    unfold QgState.step
    simp only
    split
    · exact inv
    next t found =>
    obtain ⟨whole, chosen⟩ := (inv.threads t (mem_of_getElem? found)).turn grouped s.counter
    have threads : ∀ other ∈ s.threads.set i (t.turn srv s.counter).1, AllOrNone srv key other := by
      intro other member
      rcases mem_or_eq_of_mem_set member with old | rfl
      · exact inv.threads other old
      exact whole
    cases picked : (t.turn srv s.counter).2 with
    | none =>
      refine ⟨threads, by simpa using inv.picks, by simpa using inv.ticks, ?_⟩
      simpa [nextTick] using inv.counter_eq
    | some pick =>
      obtain ⟨tick, byTick⟩ := chosen pick picked
      refine ⟨threads, ?_, ?_, ?_⟩
      · simpa [or_imp, forall_and] using ⟨inv.picks, byTick⟩
      · simp only [Option.toList_some, map_append, inv.ticks, length_append, length_singleton,
          range_succ, map_cons, map_nil, tick, inv.counter_eq]
      simp [nextTick, inv.counter_eq, Nat.add_assoc]

lemma run_inv (filed : FiledBySubject srv) (grouped : key.queueGroup ≠ []) (counter : Nat)
    (small : counter < 2 ^ 64) (events : List QgEvent) :
    Inv srv key counter (run srv (start counter) events) := by
  suffices ∀ s, Inv srv key counter s → Inv srv key counter (run srv s events) from
    this _ ⟨nofun, nofun, rfl, (Nat.mod_eq_of_lt small).symm⟩
  induction events with
  | nil => exact fun _ inv => inv
  | cons event events ih => exact fun s inv => ih _ (inv.step filed grouped event)

lemma length_picks_run (srv : CmqServer) (s : QgState) (events : List QgEvent) :
    (run srv s events).picks.length ≤ s.picks.length + events.length := by
  induction events generalizing s with
  | nil => exact le_rfl
  | cons event events ih =>
    have one : (s.step srv event).picks.length ≤ s.picks.length + 1 := by
      have few : ∀ pick : Option QgPick, pick.toList.length ≤ 1 := by
        rintro (_ | _) <;> simp
      cases event with
      | publish =>
        unfold QgState.step
        grind
      | turn i =>
        simp only [QgState.step]
        split
        · exact Nat.le_succ _
        exact (length_append).trans_le (Nat.add_le_add_left (few _) _)
    exact (ih _).trans (by rw [length_cons]; omega)

/-- Any as many consecutive messages as the group has live members go to different
members. -/
def RoundRobin (srv : CmqServer) (key : GroupKey) (s : QgState) : Prop :=
  ∀ before window after, s.picksOf key = before ++ window ++ after →
    window.length = (liveMembers srv key).length → (window.map QgPick.picked).Nodup

/-- Take as many consecutive messages of the group as it has live members, and what the other
groups got meanwhile.  From one message of the group to another, the number of messages of all
groups is no multiple of the number of live members. -/
def Spaced (srv : CmqServer) (key : GroupKey) (s : QgState) : Prop :=
  ∀ before window after, s.picks = before ++ window ++ after →
    (window.filter fun pick => pick.key = key).length = (liveMembers srv key).length →
      ∀ i j (less : i < j) (inside : j < window.length), window[i].key = key →
        window[j].key = key → ¬ (liveMembers srv key).length ∣ j - i

lemma roundRobin_iff_windows :
    RoundRobin srv key s ↔ ∀ before window after, s.picks = before ++ window ++ after →
      (window.filter fun pick => pick.key = key).length = (liveMembers srv key).length →
        ((window.filter fun pick => pick.key = key).map QgPick.picked).Nodup := by
  constructor
  · intro served before window after split
    apply served (before.filter fun pick => pick.key = key) _ (after.filter fun pick => pick.key = key)
    rw [picksOf, split, filter_append, filter_append]
  intro served before window after split
  obtain ⟨front, after', whole, front_eq, rfl⟩ := filter_eq_append_iff.mp split
  obtain ⟨before', window', rfl, rfl, rfl⟩ := filter_eq_append_iff.mp front_eq
  exact served before' window' after' whole

lemma getElem?_window {picks before window after : List QgPick}
    (split : picks = before ++ window ++ after) (inside : i < window.length) :
    picks[before.length + i]? = some window[i] := by
  rw [split, append_assoc, getElem?_append_right (Nat.le_add_right _ _), Nat.add_sub_cancel_left,
    getElem?_append_left inside, getElem?_eq_getElem inside]

lemma picked_eq_iff {first second : QgPick} {members : List Matched} (distinct : members.Nodup)
    (placeFirst : members[first.tick % members.length]? = some first.picked)
    (placeSecond : members[second.tick % members.length]? = some second.picked) :
    first.picked = second.picked ↔ first.tick % members.length = second.tick % members.length := by
  refine ⟨fun eq => ?_, fun eq => ?_⟩
  · rw [eq, ← placeSecond] at placeFirst
    have inside := (List.getElem?_eq_some_iff.mp (placeFirst.trans placeSecond)).1
    exact (List.getElem?_inj inside distinct).mp placeFirst
  rw [eq, placeSecond] at placeFirst
  exact (Option.some.inj placeFirst).symm

/-- In every run of publishes, by any number of threads at the same time, a queue group with
distinct live members is served in turn if and only if the messages of the other groups leave its
own spaced.  The counter, which all groups advance, does not wrap around. -/
theorem run_roundRobin_iff_spaced (srv : CmqServer) (filed : FiledBySubject srv) (key : GroupKey)
    (grouped : key.queueGroup ≠ []) (distinct : (liveMembers srv key).Nodup) (counter : Nat)
    (events : List QgEvent) (unwrapped : counter + events.length < 2 ^ 64) :
    RoundRobin srv key (run srv (start counter) events) ↔
      Spaced srv key (run srv (start counter) events) := by
  have inv := run_inv filed grouped counter (by omega) events
  have few := length_picks_run srv (start counter) events
  generalize run srv (start counter) events = s at inv few
  rw [roundRobin_iff_windows]
  refine forall_congr' fun before => forall_congr' fun window => forall_congr' fun after =>
    forall_congr' fun split => forall_congr' fun _ => ?_
  -- the counter tells the place of a choice among all choices
  have ticks : ∀ i (inside : i < window.length), window[i].tick = counter + (before.length + i) := by
    intro i inside
    have tick := congrArg (·[before.length + i]?) inv.ticks
    have total : s.picks.length = before.length + window.length + after.length := by
      rw [split, length_append, length_append]
    have bound : before.length + i < s.picks.length := by omega
    have place := getElem?_window split inside
    simp only [getElem?_map, place, getElem?_range bound, Option.map_some, Option.some.injEq] at tick
    rw [tick]
    exact Nat.mod_eq_of_lt (by simp only [start, length_nil] at few; omega)
  have places : ∀ i (inside : i < window.length), window[i].key = key →
      (liveMembers srv key)[window[i].tick % (liveMembers srv key).length]? =
        some window[i].picked := by
    intro i inside
    apply inv.picks
    rw [split]
    exact mem_append_left _ (mem_append_right _ (getElem_mem inside))
  have same : ∀ i j (less : i < j) (inside : j < window.length), window[i].key = key →
      window[j].key = key →
      (window[i].picked = window[j].picked ↔ (liveMembers srv key).length ∣ j - i) := by
    intro i j less inside first second
    rw [picked_eq_iff distinct (places i _ first) (places j _ second), ticks, ticks]
    constructor
    · intro eq
      have between : counter + (before.length + j) - (counter + (before.length + i)) = j - i := by
        omega
      rw [← between]
      exact Nat.dvd_of_mod_eq_zero (Nat.sub_mod_eq_zero_of_mod_eq eq.symm)
    rintro ⟨rounds, eq⟩
    have later : counter + (before.length + j) =
        counter + (before.length + i) + (liveMembers srv key).length * rounds := by omega
    rw [later, Nat.add_mul_mod_self_left]
  rw [List.Nodup, pairwise_map, pairwise_filter, pairwise_iff_getElem]
  simp only [decide_eq_true_eq]
  constructor
  · intro apart i j less inside first second
    rw [← same i j less inside first second]
    exact apart i j (by omega) inside less first second
  intro spaced i j _ inside less first second
  rw [Ne, same i j less inside first second]
  exact spaced i j less inside first second

end QgState

end Runs

/-- Clients 1 and 2 share the queue group `x` on `a`, client 3 is alone in `y` on `b`. -/
def sampleGroups : CmqServer where
  __ := oneSubscriber (cstr "acc")
  sublist :=
    let insert (sl : CmqSublist CmqSubRef) (ref : CmqSubRef) :=
      (cmqSublistInsert .granted sl ref.subject (some ref)).1
    [⟨1, 1, cstr "a", cstr "x"⟩, ⟨2, 1, cstr "a", cstr "x"⟩, ⟨3, 1, cstr "b", cstr "y"⟩].foldl
      insert cmqSublistCreate
  clients := [1, 2, 3].map fun id =>
    ⟨id, 1, 5, .connected, [], cstr "acc", 1, 0, 0, false, -1⟩

def sampleKey : GroupKey := ⟨cstr "a", cstr "x", cstr "acc"⟩

namespace QgState

/-- Two messages of the other group come between two of this one, and both members get one. -/
def sampleSpaced : QgState :=
  run sampleGroups (start 0) [.publish .granted (cstr "a"), .turn 0, .publish .granted (cstr "b"),
    .publish .granted (cstr "b"), .turn 1, .turn 2, .publish .granted (cstr "a"), .turn 3]

theorem run_roundRobin_iff_spaced_sample :
    (sampleSpaced.picksOf sampleKey).map (fun pick => pick.picked.2.id) = [1, 2] ∧
      RoundRobin sampleGroups sampleKey sampleSpaced := by
  have filed : FiledBySubject sampleGroups := by
    have each : ∀ item ∈ sampleGroups.sublist.root.entries, item.2.all fun ref =>
        (tokenize ref.subject).map (List.map slToken) = some item.1 := by
      decide +kernel
    intro _ ref member
    simpa using each _ member
  refine ⟨by decide +kernel, (run_roundRobin_iff_spaced sampleGroups filed sampleKey (by decide)
    (by decide +kernel) 0 _ (by decide)).mpr ?_⟩
  intro before window after split _ i j less inside first second
  have two : (liveMembers sampleGroups sampleKey).length = 2 := by decide +kernel
  have ends : ∀ n < 4, (sampleSpaced.picks[n]?).map QgPick.key = some sampleKey →
      n = 0 ∨ n = 3 := by
    decide +kernel
  have total : sampleSpaced.picks.length = 4 := by decide +kernel
  have place : ∀ n (within : n < window.length), window[n].key = sampleKey →
      before.length + n = 0 ∨ before.length + n = 3 := by
    intro n within here
    have few : before.length + window.length ≤ 4 := by
      rw [← total, sampleSpaced, split, length_append, length_append]
      exact Nat.le_add_right _ _
    refine ends _ (by omega) ?_
    rw [sampleSpaced, getElem?_window split within, Option.map_some, here]
  have low := place i _ first
  have high := place j inside second
  rw [two]
  omega

/-- A message of another group comes in between, and client 1 gets both. -/
theorem picked_twice :
    ((run sampleGroups (start 0) [.publish .granted (cstr "a"), .turn 0,
        .publish .granted (cstr "b"), .turn 1, .publish .granted (cstr "a"), .turn 2]).picksOf
          sampleKey).map (fun pick => (pick.tick, pick.picked.2.id)) = [(0, 1), (2, 1)] ∧
      (liveMembers sampleGroups sampleKey).map (fun m => m.2.id) = [1, 2] ∧
      ¬ RoundRobin sampleGroups sampleKey (run sampleGroups (start 0)
        [.publish .granted (cstr "a"), .turn 0, .publish .granted (cstr "b"), .turn 1,
          .publish .granted (cstr "a"), .turn 2]) := by
  refine ⟨by decide +kernel, by decide +kernel, fun served => ?_⟩
  have distinct := served [] _ [] (by rw [nil_append, append_nil]) (by decide +kernel)
  revert distinct
  decide +kernel

end QgState

end CMsgQueue.Server
