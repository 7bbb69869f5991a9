import CMsgQueue.Server.Deliver

/-!
# Per-account quotas

`enterprise/cmq_quota.c` counts the publishes and connects of an account over a window of one
second.  Both kinds of check share the start of the window; each resets its own counters.
-/

namespace CMsgQueue.Enterprise

open Function

open CMsgQueue.Server (fnv1a)

/-- `CMQ_QUOTA_SLOTS`. -/
def cmqQuotaSlots : Nat := 1024
/-- `CMQ_QUOTA_MAX_PROBE`. -/
def cmqQuotaMaxProbe : Nat := 16
/-- `CMQ_QUOTA_KEY_MAX`. -/
def cmqQuotaKeyMax : Nat := 255

/-- `struct cmq_quota_slot`; a slot whose name is empty is free. -/
structure CmqQuotaSlot where
  account : Bytes
  windowStartMs : UInt64
  msgs : Nat
  bytes : Nat
  connects : Nat

/-- `struct cmq_quota`. -/
structure CmqQuota where
  maxMsgs : Nat
  maxBytes : Nat
  maxConnects : Nat
  slots : Nat → CmqQuotaSlot

/-- `cmq_quota_create`. -/
def cmqQuotaCreate (maxMsgs maxBytes maxConnects : Nat) : CmqQuota :=
  ⟨maxMsgs, maxBytes, maxConnects, fun _ => ⟨[], 0, 0, 0, 0⟩⟩

def quotaKey (account : Bytes) : Bytes := account.take cmqQuotaKeyMax

namespace CmqQuotaSlot

/-- A probe of `find_or_claim` stops at the account's slot, and at a free one with no
messages. -/
def stops (slot : CmqQuotaSlot) (account : Bytes) : Bool :=
  if slot.account = [] then slot.msgs = 0 else slot.account = quotaKey account

/-- `find_or_claim` takes a free slot and starts its window. -/
def claim (slot : CmqQuotaSlot) (account : Bytes) (claimMs : UInt64) : CmqQuotaSlot :=
  if slot.account = [] then
    { slot with account := quotaKey account, windowStartMs := claimMs }
  else slot

/-- `now - wstart >= 1000`. -/
def expired (slot : CmqQuotaSlot) (nowMs : UInt64) : Bool := 1000 ≤ nowMs - slot.windowStartMs

/-- The start of a publish check: a new window when the old one is over. -/
def renew (slot : CmqQuotaSlot) (nowMs : UInt64) : CmqQuotaSlot :=
  if slot.expired nowMs then { slot with windowStartMs := nowMs, msgs := 0, bytes := 0 }
  else slot

/-- `cmq_quota_check_publish` on its slot. -/
def publish (slot : CmqQuotaSlot) (maxMsgs maxBytes msgLen : Nat) (nowMs : UInt64) :
    CmqQuotaSlot × Bool :=
  let slot := slot.renew nowMs
  if slot.msgs < maxMsgs then ({ slot with msgs := slot.msgs + 1 }, true)
  else if maxMsgs > 0 then (slot, false)
  else if maxBytes > 0 then
    let sum := (slot.bytes + msgLen) % 2 ^ 64
    if sum ≤ maxBytes then ({ slot with bytes := sum }, true) else (slot, false)
  else (slot, true)

def reconnect (slot : CmqQuotaSlot) (nowMs : UInt64) : CmqQuotaSlot :=
  if slot.expired nowMs then { slot with windowStartMs := nowMs, connects := 0 } else slot

/-- `cmq_quota_check_connect` on its slot. -/
def connect (slot : CmqQuotaSlot) (maxConnects : Nat) (nowMs : UInt64) : CmqQuotaSlot × Bool :=
  let slot := slot.reconnect nowMs
  if slot.connects < maxConnects then ({ slot with connects := slot.connects + 1 }, true)
  else (slot, false)

end CmqQuotaSlot

/-- A call of `cmq_quota_check_publish`; `now_ms` is read for a claim and for the check. -/
structure QuotaPublish where
  account : Bytes
  msgLen : Nat
  claimMs : UInt64
  nowMs : UInt64
  deriving DecidableEq

/-- A check of either kind. -/
inductive QuotaCall
  | publish (p : QuotaPublish)
  | connect (account : Bytes) (claimMs nowMs : UInt64)
  deriving DecidableEq

namespace CmqQuota

variable {q : CmqQuota}

/-- The slot `find_or_claim` stops at. -/
def find (q : CmqQuota) (account : Bytes) : Option Nat :=
  ((List.range cmqQuotaMaxProbe).map fun probe =>
    (fnv1a (quotaKey account) % cmqQuotaSlots + probe) % cmqQuotaSlots).find? fun i =>
      (q.slots i).stops account

/-- A check of the account's slot; without one the call is let through. -/
def check (q : CmqQuota) (account : Bytes) (claimMs : UInt64)
    (body : CmqQuotaSlot → CmqQuotaSlot × Bool) : CmqQuota × Bool :=
  match q.find account with
  | none => (q, true)
  | some i =>
    let checked := body ((q.slots i).claim account claimMs)
    ({ q with slots := update q.slots i checked.1 }, checked.2)

/-- `cmq_quota_check_publish`. -/
def publish (q : CmqQuota) (p : QuotaPublish) : CmqQuota × Bool :=
  if q.maxMsgs = 0 ∧ q.maxBytes = 0 then (q, true)
  else q.check p.account p.claimMs fun slot => slot.publish q.maxMsgs q.maxBytes p.msgLen p.nowMs

/-- `cmq_quota_check_connect`. -/
def connect (q : CmqQuota) (account : Bytes) (claimMs nowMs : UInt64) : CmqQuota × Bool :=
  if q.maxConnects = 0 then (q, true)
  else q.check account claimMs fun slot => slot.connect q.maxConnects nowMs

def call (q : CmqQuota) : QuotaCall → CmqQuota × Bool
  | .publish p => q.publish p
  | .connect account claimMs nowMs => q.connect account claimMs nowMs

lemma check_cases (q : CmqQuota) (account : Bytes) (claimMs : UInt64)
    (body : CmqQuotaSlot → CmqQuotaSlot × Bool) :
    (q.find account = none ∧ q.check account claimMs body = (q, true)) ∨
      ∃ i, q.find account = some i ∧
        q.check account claimMs body =
          ({ q with slots :=
              update q.slots i (body ((q.slots i).claim account claimMs)).1 },
            (body ((q.slots i).claim account claimMs)).2) := by
  unfold check
  cases q.find account with
  | none => exact .inl ⟨rfl, rfl⟩
  | some i => exact .inr ⟨i, rfl, rfl⟩

lemma stops_of_find (found : q.find account = some i) : (q.slots i).stops account = true := by
  have stopped := List.find?_some (p := fun i => (q.slots i).stops account) found
  exact stopped

end CmqQuota

/-! ## The limits of a window -/

/-- A quota with the lengths admitted through each slot since its window was last reset, and all
lengths that were offered since then. -/
structure QuotaLog where
  quota : CmqQuota
  window : Nat → List Nat
  offered : Nat → List Nat

variable {maxMsgs maxBytes : Nat}

namespace QuotaLog

variable {s : QuotaLog} {p : QuotaPublish}

def renews (s : QuotaLog) (p : QuotaPublish) (i : Nat) : Bool :=
  ((s.quota.slots i).claim p.account p.claimMs).expired p.nowMs

def kept (s : QuotaLog) (p : QuotaPublish) (i : Nat) : List Nat :=
  if s.renews p i then [] else s.window i

def offers (s : QuotaLog) (p : QuotaPublish) (i : Nat) : List Nat :=
  (if s.renews p i then [] else s.offered i) ++ [p.msgLen]

def publish (s : QuotaLog) (p : QuotaPublish) : QuotaLog where
  quota := (s.quota.publish p).1
  window :=
    match s.quota.find p.account with
    | none => s.window
    | some i => update s.window i
        (if (s.quota.publish p).2 then s.kept p i ++ [p.msgLen] else s.kept p i)
  offered :=
    match s.quota.find p.account with
    | none => s.offered
    | some i => update s.offered i (s.offers p i)

def create (maxMsgs maxBytes maxConnects : Nat) : QuotaLog :=
  ⟨cmqQuotaCreate maxMsgs maxBytes maxConnects, fun _ => [], fun _ => []⟩

/-- No window holds more messages or bytes than the limits. -/
def Within (s : QuotaLog) : Prop :=
  ∀ i, (s.window i).length ≤ s.quota.maxMsgs ∧ (s.window i).sum ≤ s.quota.maxBytes

/-- Of the publishes offered in a window, as many as the message limit allows are together within
the byte limit. -/
def Fits (s : QuotaLog) (p : QuotaPublish) : Prop :=
  ∀ i ∈ s.quota.find p.account, ((s.offers p i).take s.quota.maxMsgs).sum ≤ s.quota.maxBytes

instance (s : QuotaLog) (p : QuotaPublish) : Decidable (s.Fits p) :=
  Option.decidableForallMem (s.quota.find p.account)

/-- The window has the first of the offered publishes, and the counter of the slot is their
number. -/
structure Inv (maxMsgs maxBytes : Nat) (s : QuotaLog) : Prop where
  limits : s.quota.maxMsgs = maxMsgs ∧ s.quota.maxBytes = maxBytes
  taken : ∀ i, s.window i = (s.offered i).take maxMsgs
  counted : ∀ i, (s.window i).length = (s.quota.slots i).msgs
  within : s.Within

section

variable (inv : s.Inv maxMsgs maxBytes)
include inv

lemma Inv.publish_cases (some_msgs : 0 < maxMsgs) :
    (s.quota.find p.account = none ∧ s.publish p = s) ∨
      ∃ i slot, s.quota.find p.account = some i ∧
        ((s.offers p i).take maxMsgs).length = slot.msgs ∧
        s.publish p = ⟨{ s.quota with slots := update s.quota.slots i slot },
          update s.window i ((s.offers p i).take maxMsgs),
          update s.offered i (s.offers p i)⟩ := by
  obtain ⟨rfl, rfl⟩ := inv.limits
  have limited : ¬ (s.quota.maxMsgs = 0 ∧ s.quota.maxBytes = 0) := by omega
  unfold QuotaLog.publish
  rw [CmqQuota.publish, if_neg limited]
  rcases s.quota.check_cases p.account p.claimMs
      (fun slot => slot.publish s.quota.maxMsgs s.quota.maxBytes p.msgLen p.nowMs) with
    ⟨found, checked⟩ | ⟨i, found, checked⟩
  · left
    rw [found, checked]
    exact ⟨rfl, rfl⟩
  right
  have held : ((s.quota.slots i).claim p.account p.claimMs).msgs = (s.quota.slots i).msgs := by
    unfold CmqQuotaSlot.claim
    split <;> rfl
  have count : (s.kept p i).length =
      (((s.quota.slots i).claim p.account p.claimMs).renew p.nowMs).msgs := by
    rw [kept, renews, CmqQuotaSlot.renew]
    split
    · rfl
    exact (inv.counted i).trans held.symm
  have first : (s.offers p i).take s.quota.maxMsgs =
      if (((s.quota.slots i).claim p.account p.claimMs).renew p.nowMs).msgs < s.quota.maxMsgs then
        s.kept p i ++ [p.msgLen] else s.kept p i := by
    have taken : s.kept p i = (if s.renews p i then [] else s.offered i).take s.quota.maxMsgs := by
      rw [kept]
      split
      · rw [List.take_nil]
      exact inv.taken i
    rw [offers, ← count, taken]
    generalize (if s.renews p i then [] else s.offered i) = base
    rw [List.length_take]
    split
    next room =>
      rw [List.take_of_length_le (by rw [List.length_append, List.length_singleton]; omega),
        List.take_of_length_le (by omega)]
    rw [List.take_append_of_le_length (by omega)]
  refine ⟨i, (((s.quota.slots i).claim p.account p.claimMs).publish s.quota.maxMsgs
    s.quota.maxBytes p.msgLen p.nowMs).1, found, ?_, ?_⟩
  · rw [first]
    dsimp only [CmqQuotaSlot.publish]
    split <;> simp [count]
  rw [found, checked, first]
  dsimp only [CmqQuotaSlot.publish]
  split <;> simp

lemma Inv.write {all : List Nat} (count : (all.take maxMsgs).length = slot.msgs)
    (smaller : (all.take maxMsgs).sum ≤ maxBytes) :
    Inv maxMsgs maxBytes ⟨{ s.quota with slots := update s.quota.slots i slot },
      update s.window i (all.take maxMsgs), update s.offered i all⟩ := by
  obtain ⟨msgs, bytes⟩ := inv.limits
  have fewer : (all.take maxMsgs).length ≤ maxMsgs := List.length_take_le _ _
  refine ⟨⟨msgs, bytes⟩, fun j => ?_, fun j => ?_, fun j => ?_⟩
  · by_cases same : j = i
    · subst same
      simp
    simpa [same] using inv.taken j
  · by_cases same : j = i
    · subst same
      simp [count]
    simpa [same] using inv.counted j
  by_cases same : j = i
  · subst same
    simp only [update_self, msgs, bytes]
    exact ⟨fewer, smaller⟩
  simpa [same] using inv.within j

lemma Inv.publish (some_msgs : 0 < maxMsgs) (fits : s.Fits p) :
    (s.publish p).Inv maxMsgs maxBytes := by
  rcases inv.publish_cases some_msgs with ⟨-, same⟩ | ⟨i, _, found, count, after⟩
  · exact same.symm ▸ inv
  have fits := fits i found
  rw [inv.limits.1, inv.limits.2] at fits
  rw [after]
  exact inv.write count fits

lemma Inv.fits (some_msgs : 0 < maxMsgs) (within : (s.publish p).Within) : s.Fits p := by
  intro i found
  rcases inv.publish_cases some_msgs with ⟨none, -⟩ | ⟨j, _, here, -, after⟩
  · rw [none] at found
    cases found
  obtain rfl : j = i := Option.some.inj (here.symm.trans found)
  rw [after] at within
  simpa [inv.limits.1] using (within j).2

end

/-- From an empty table with both limits set, every window stays within both limits if and only
if in every window the first publishes, as many as the message limit allows, are together within
the byte limit. -/
theorem within_iff_fits (maxMsgs maxBytes maxConnects : Nat) (some_msgs : 0 < maxMsgs)
    (calls : List QuotaPublish) :
    (∀ n, ((calls.take n).foldl publish (create maxMsgs maxBytes maxConnects)).Within) ↔
      Runs.Meets publish Fits (create maxMsgs maxBytes maxConnects) calls := by
  have gives : ∀ s, Inv maxMsgs maxBytes s → s.Within := fun _ inv => inv.within
  refine Runs.Meets.iff_property gives (fun _ _ inv fits => inv.publish some_msgs fits)
    (fun _ _ inv within => inv.fits some_msgs within)
    ⟨⟨rfl, rfl⟩, fun _ => List.take_nil.symm, fun _ => rfl, fun _ => ?_⟩
  exact ⟨Nat.zero_le _, Nat.zero_le _⟩

/-- Two publishes fill a window, a third one is refused, and the next window takes another. -/
def samplePublishes : List QuotaPublish :=
  [⟨cstr "a", 3, 0, 0⟩, ⟨cstr "a", 5, 1, 1⟩, ⟨cstr "a", 100, 2, 2⟩, ⟨cstr "a", 8, 1000, 1000⟩]

theorem within_iff_fits_refused :
    (∀ n, ((samplePublishes.take n).foldl publish (create 2 8 0)).Within) ∧
      Runs.answers CmqQuota.publish (cmqQuotaCreate 2 8 0) samplePublishes =
        [true, true, false, true] :=
  ⟨(within_iff_fits 2 8 0 (by decide) samplePublishes).mpr (by decide +kernel), by decide +kernel⟩

/-- Two publishes of 6 bytes are admitted in one window with a limit of 8 bytes. -/
theorem bytes_unlimited : ¬ Within ([⟨cstr "a", 6, 0, 0⟩, ⟨cstr "a", 6, 1, 1⟩].foldl publish
    (create 2 8 0)) :=
  fun within => absurd (within 140).2 (by decide +kernel)

end QuotaLog

/-! ## Publishes and connects -/

namespace CmqQuotaSlot

variable {slot : CmqQuotaSlot} {account : Bytes}

def forPublish (slot : CmqQuotaSlot) : CmqQuotaSlot := { slot with connects := 0 }

def forConnect (slot : CmqQuotaSlot) : CmqQuotaSlot :=
  { slot with bytes := 0, msgs := if slot.account = [] then slot.msgs else 0 }

lemma stops_forConnect : slot.forConnect.stops account = slot.stops account := by
  unfold stops forConnect
  split
  · simp
  rfl

lemma claim_forPublish (claimMs : UInt64) :
    (slot.claim account claimMs).forPublish = slot.forPublish.claim account claimMs := by
  unfold claim forPublish
  split <;> rfl

lemma claim_forConnect (stopped : slot.stops account = true) (claimMs : UInt64) :
    (slot.claim account claimMs).forConnect = slot.forConnect.claim account claimMs := by
  unfold claim forConnect
  by_cases free : slot.account = []
  · have none : slot.msgs = 0 := by simpa [stops, free] using stopped
    simp [free, none]
  simp [free]

lemma publish_forPublish (maxMsgs maxBytes msgLen : Nat) (nowMs : UInt64) :
    slot.forPublish.publish maxMsgs maxBytes msgLen nowMs =
      ((slot.publish maxMsgs maxBytes msgLen nowMs).1.forPublish,
        (slot.publish maxMsgs maxBytes msgLen nowMs).2) := by
  have renewed : slot.forPublish.renew nowMs = (slot.renew nowMs).forPublish := by
    have same : slot.forPublish.expired nowMs = slot.expired nowMs := rfl
    rw [renew, renew, same]
    split <;> rfl
  unfold publish
  rw [renewed]
  dsimp only [forPublish]
  split_ifs <;> rfl

lemma connect_forConnect (maxConnects : Nat) (nowMs : UInt64) :
    slot.forConnect.connect maxConnects nowMs =
      ((slot.connect maxConnects nowMs).1.forConnect, (slot.connect maxConnects nowMs).2) := by
  have renewed : slot.forConnect.reconnect nowMs = (slot.reconnect nowMs).forConnect := by
    have same : slot.forConnect.expired nowMs = slot.expired nowMs := rfl
    rw [reconnect, reconnect, same]
    split <;> rfl
  unfold connect
  rw [renewed]
  dsimp only [forConnect]
  split_ifs <;> rfl

end CmqQuotaSlot

/-- The part of a slot that one kind of check reads and writes. -/
structure QuotaView where
  view : CmqQuotaSlot → CmqQuotaSlot
  stops_view : ∀ slot account, (view slot).stops account = slot.stops account
  claim_view : ∀ slot account claimMs, slot.stops account = true →
    view (slot.claim account claimMs) = (view slot).claim account claimMs

def publishView : QuotaView :=
  ⟨.forPublish, fun _ _ => rfl, fun _ _ claimMs _ => CmqQuotaSlot.claim_forPublish claimMs⟩

def connectView : QuotaView :=
  ⟨.forConnect, fun _ _ => CmqQuotaSlot.stops_forConnect,
    fun _ _ claimMs stopped => CmqQuotaSlot.claim_forConnect stopped claimMs⟩

namespace QuotaView

variable {v : QuotaView} {q q' : CmqQuota}

structure Same (v : QuotaView) (q q' : CmqQuota) : Prop where
  limits : q.maxMsgs = q'.maxMsgs ∧ q.maxBytes = q'.maxBytes ∧ q.maxConnects = q'.maxConnects
  slots : ∀ i, v.view (q.slots i) = v.view (q'.slots i)

lemma Same.find (same : v.Same q q') (account : Bytes) : q.find account = q'.find account := by
  unfold CmqQuota.find
  congr 1
  funext i
  rw [← v.stops_view, same.slots, v.stops_view]

lemma Same.check (same : v.Same q q')
    (sees : ∀ slot, body (v.view slot) = (v.view (body slot).1, (body slot).2)) :
    (q.check account claimMs body).2 = (q'.check account claimMs body).2 ∧
      v.Same (q.check account claimMs body).1 (q'.check account claimMs body).1 := by
  unfold CmqQuota.check
  rw [← same.find account]
  cases found : q.find account with
  | none => exact ⟨rfl, same⟩
  | some i =>
    have claimed : v.view ((q.slots i).claim account claimMs) =
        v.view ((q'.slots i).claim account claimMs) := by
      rw [v.claim_view _ _ _ (CmqQuota.stops_of_find found), same.slots i,
        v.claim_view _ _ _ (CmqQuota.stops_of_find (same.find account ▸ found))]
    have both := (sees _).symm.trans ((congrArg body claimed).trans (sees _))
    rw [Prod.mk.injEq] at both
    refine ⟨both.2, same.limits, fun j => ?_⟩
    by_cases here : j = i
    · subst here
      simpa using both.1
    simpa [here] using same.slots j

lemma Same.ignore (same : v.Same q q')
    (unseen : ∀ i ∈ q.find account,
      v.view (body ((q.slots i).claim account claimMs)).1 = v.view (q.slots i)) :
    v.Same (q.check account claimMs body).1 q' := by
  unfold CmqQuota.check
  cases found : q.find account with
  | none => exact same
  | some i =>
    refine ⟨same.limits, fun j => ?_⟩
    by_cases here : j = i
    · subst here
      simpa using (unseen j found).trans (same.slots j)
    simpa [here] using same.slots j

end QuotaView

namespace CmqQuota

/-- A check finds a claimed slot inside its window, if it finds one. -/
def Quiet (q : CmqQuota) (account : Bytes) (nowMs : UInt64) : Prop :=
  ∀ i ∈ q.find account, (q.slots i).account ≠ [] ∧ (q.slots i).expired nowMs = false

instance (q : CmqQuota) (account : Bytes) (nowMs : UInt64) : Decidable (q.Quiet account nowMs) :=
  Option.decidableForallMem (q.find account)

/-- The call neither claims a slot nor starts a window. -/
def Neutral (q : CmqQuota) : QuotaCall → Prop
  | .publish p => (q.maxMsgs = 0 ∧ q.maxBytes = 0) ∨ q.Quiet p.account p.nowMs
  | .connect account _ nowMs => q.maxConnects = 0 ∨ q.Quiet account nowMs

/-- The call is a publish, or no connect that finds its account's slot out of the window. -/
def KeepsWindow (q : CmqQuota) : QuotaCall → Prop
  | .publish _ => True
  | .connect account _ nowMs => q.maxConnects = 0 ∨ ∀ i ∈ q.find account,
      (q.slots i).account ≠ [] → (q.slots i).expired nowMs = false

instance (q : CmqQuota) : (call : QuotaCall) → Decidable (q.Neutral call)
  | .publish _ => inferInstanceAs (Decidable (_ ∨ _))
  | .connect .. => inferInstanceAs (Decidable (_ ∨ _))

end CmqQuota

def QuotaCall.isPublish : QuotaCall → Bool
  | .publish _ => true
  | .connect .. => false

namespace QuotaView

variable {q q' : CmqQuota}

lemma Same.publish (same : publishView.Same q q') (p : QuotaPublish) :
    (q.publish p).2 = (q'.publish p).2 ∧ publishView.Same (q.publish p).1 (q'.publish p).1 := by
  obtain ⟨msgs, bytes, -⟩ := same.limits
  rw [CmqQuota.publish, CmqQuota.publish, msgs, bytes]
  split
  · exact ⟨rfl, same⟩
  exact same.check fun slot => slot.publish_forPublish ..

lemma Same.connect (same : connectView.Same q q') (account : Bytes) (claimMs nowMs : UInt64) :
    (q.connect account claimMs nowMs).2 = (q'.connect account claimMs nowMs).2 ∧
      connectView.Same (q.connect account claimMs nowMs).1
        (q'.connect account claimMs nowMs).1 := by
  rw [CmqQuota.connect, CmqQuota.connect, same.limits.2.2]
  split
  · exact ⟨rfl, same⟩
  exact same.check fun slot => slot.connect_forConnect ..

lemma Same.ignore_connect (same : publishView.Same q q')
    (neutral : q.Neutral (.connect account claimMs nowMs)) :
    publishView.Same (q.connect account claimMs nowMs).1 q' := by
  rw [CmqQuota.connect]
  split
  · exact same
  next limited =>
  refine same.ignore fun i found => ?_
  obtain ⟨owned, inside⟩ := neutral.resolve_left limited i found
  rw [CmqQuotaSlot.claim, if_neg owned]
  simp only [CmqQuotaSlot.connect, CmqQuotaSlot.reconnect, inside, Bool.false_eq_true, if_false]
  split <;> rfl

lemma Same.ignore_publish (same : connectView.Same q q')
    (neutral : q.Neutral (.publish p)) : connectView.Same (q.publish p).1 q' := by
  rw [CmqQuota.publish]
  split
  · exact same
  next limited =>
  refine same.ignore fun i found => ?_
  obtain ⟨owned, inside⟩ := neutral.resolve_left limited i found
  rw [CmqQuotaSlot.claim, if_neg owned]
  simp only [CmqQuotaSlot.publish, CmqQuotaSlot.renew, inside, Bool.false_eq_true, if_false]
  split_ifs <;> simp [connectView, CmqQuotaSlot.forConnect, owned]

end QuotaView

/-! ## Refused publishes -/

/-- A quota with the publishes it admitted and the last time it was asked. -/
structure QuotaHistory where
  quota : CmqQuota
  admitted : List QuotaPublish
  clock : UInt64

def admittedSince (admitted : List QuotaPublish) (key : Bytes) (since : UInt64) : Nat :=
  admitted.countP fun p => quotaKey p.account = key ∧ since ≤ p.nowMs

/-- The messages a slot counts were admitted in its window. -/
def CmqQuotaSlot.Counts (slot : CmqQuotaSlot) (admitted : List QuotaPublish) (clock : UInt64) :
    Prop :=
  slot.windowStartMs ≤ clock ∧
    slot.msgs ≤ admittedSince admitted slot.account slot.windowStartMs

namespace CmqQuotaSlot

variable {slot : CmqQuotaSlot} {admitted : List QuotaPublish} {clock nowMs : UInt64}

lemma account_claim {account : Bytes} (stopped : slot.stops account = true)
    (claimMs : UInt64) : (slot.claim account claimMs).account = quotaKey account := by
  unfold claim
  split
  · rfl
  next owned => simpa [stops, owned] using stopped

@[simp] lemma account_renew : (slot.renew nowMs).account = slot.account := by
  unfold renew
  split <;> rfl

lemma renew_recent (past : (slot.renew nowMs).windowStartMs ≤ nowMs) :
    nowMs.toNat < (slot.renew nowMs).windowStartMs.toNat + 1000 := by
  unfold renew at past ⊢
  split
  · exact Nat.lt_add_of_pos_right (by decide)
  next inside =>
  rw [if_neg inside] at past
  rw [expired, decide_eq_true_eq, UInt64.le_iff_toNat_le, UInt64.toNat_sub_of_le _ _ past]
    at inside
  have thousand : (1000 : UInt64).toNat = 1000 := rfl
  omega

section

variable (counts : slot.Counts admitted clock)
include counts

lemma Counts.mono (sub : admitted.Sublist more)
    (later : clock ≤ nowMs) : slot.Counts more nowMs :=
  ⟨UInt64.le_trans counts.1 later, Nat.le_trans counts.2 sub.countP_le⟩

lemma Counts.claim {account : Bytes} (stopped : slot.stops account = true) {claimMs : UInt64}
    (later : clock ≤ claimMs) : (slot.claim account claimMs).Counts admitted claimMs := by
  unfold CmqQuotaSlot.claim
  split
  next free =>
    have none : slot.msgs = 0 := by simpa [stops, free] using stopped
    exact ⟨UInt64.le_refl _, none ▸ Nat.zero_le _⟩
  exact counts.mono (.refl _) later

lemma Counts.renew (later : clock ≤ nowMs) : (slot.renew nowMs).Counts admitted nowMs := by
  unfold CmqQuotaSlot.renew
  split
  · exact ⟨UInt64.le_refl _, Nat.zero_le _⟩
  exact counts.mono (.refl _) later

lemma Counts.publish (later : clock ≤ p.nowMs) (key : slot.account = quotaKey p.account) :
    (slot.publish maxMsgs maxBytes p.msgLen p.nowMs).1.Counts
      (if (slot.publish maxMsgs maxBytes p.msgLen p.nowMs).2 then p :: admitted else admitted)
      p.nowMs := by
  have renewed := counts.renew later
  have account : (slot.renew p.nowMs).account = quotaKey p.account := account_renew.trans key
  unfold CmqQuotaSlot.publish
  generalize slot.renew p.nowMs = slot at renewed account ⊢
  by_cases room : slot.msgs < maxMsgs
  · simp only [room, if_true]
    obtain ⟨past, few⟩ := renewed
    refine ⟨past, ?_⟩
    rw [admittedSince, List.countP_cons_of_pos (by simp [account, past])]
    exact Nat.succ_le_succ few
  -- the count of messages stays as it is
  simp only [room, if_false]
  split_ifs <;> exact renewed.mono (by first | exact .refl _ | simp) (UInt64.le_refl _)

lemma Counts.connect (maxConnects : Nat) (later : clock ≤ nowMs)
    (inside : slot.msgs = 0 ∨ slot.expired nowMs = false) :
    (slot.connect maxConnects nowMs).1.Counts admitted nowMs := by
  have renewed : (slot.reconnect nowMs).Counts admitted nowMs := by
    unfold CmqQuotaSlot.reconnect
    split
    next past =>
      have none : slot.msgs = 0 := inside.resolve_right (by simp [past])
      exact ⟨UInt64.le_refl _, le_of_eq_of_le none (Nat.zero_le _)⟩
    exact counts.mono (.refl _) later
  unfold CmqQuotaSlot.connect
  dsimp only
  split <;> exact renewed

end

end CmqQuotaSlot

namespace QuotaHistory

variable {h : QuotaHistory}

def step (h : QuotaHistory) : QuotaCall → QuotaHistory
  | .publish p =>
    ⟨(h.quota.publish p).1, if (h.quota.publish p).2 then p :: h.admitted else h.admitted, p.nowMs⟩
  | .connect account claimMs nowMs => ⟨(h.quota.connect account claimMs nowMs).1, h.admitted, nowMs⟩

def Ordered (h : QuotaHistory) : QuotaCall → Prop
  | .publish p => h.clock ≤ p.claimMs ∧ p.claimMs ≤ p.nowMs
  | .connect _ claimMs nowMs => h.clock ≤ claimMs ∧ claimMs ≤ nowMs

def Inv (h : QuotaHistory) : Prop := ∀ i, (h.quota.slots i).Counts h.admitted h.clock

lemma Inv.step (inv : h.Inv) (ordered : h.Ordered call)
    (keeps : h.quota.KeepsWindow call) : (h.step call).Inv := by
  cases call with
  | publish p =>
    have past := UInt64.le_trans ordered.1 ordered.2
    have sub : ∀ b : Bool, h.admitted.Sublist (if b then p :: h.admitted else h.admitted) := by
      rintro (_ | _) <;> simp
    rw [QuotaHistory.step, CmqQuota.publish]
    split
    · exact fun i => (inv i).mono (sub true) past
    rcases h.quota.check_cases p.account p.claimMs (fun slot =>
        slot.publish h.quota.maxMsgs h.quota.maxBytes p.msgLen p.nowMs) with
      ⟨-, checked⟩ | ⟨i, found, checked⟩
    · rw [checked]
      exact fun i => (inv i).mono (sub true) past
    rw [checked]
    intro j
    by_cases here : j = i
    · subst here
      have stopped := CmqQuota.stops_of_find found
      simpa using ((inv j).claim stopped ordered.1).publish ordered.2
        (CmqQuotaSlot.account_claim stopped _)
    simpa [here] using (inv j).mono (sub _) past
  | connect account claimMs nowMs =>
    have past := UInt64.le_trans ordered.1 ordered.2
    rw [QuotaHistory.step, CmqQuota.connect]
    split
    · exact fun i => (inv i).mono (.refl _) past
    next limited =>
    rcases h.quota.check_cases account claimMs (fun slot =>
        slot.connect h.quota.maxConnects nowMs) with ⟨-, checked⟩ | ⟨i, found, checked⟩
    · rw [checked]
      exact fun i => (inv i).mono (.refl _) past
    have stopped := CmqQuota.stops_of_find found
    have inside : ((h.quota.slots i).claim account claimMs).msgs = 0 ∨
        ((h.quota.slots i).claim account claimMs).expired nowMs = false := by
      unfold CmqQuotaSlot.claim
      split
      next free => exact .inl (by simpa [CmqQuotaSlot.stops, free] using stopped)
      next owned => exact .inr (keeps.resolve_left limited i found owned)
    rw [checked]
    intro j
    by_cases here : j = i
    · subst here
      simpa using ((inv j).claim stopped ordered.1).connect h.quota.maxConnects ordered.2 inside
    simpa [here] using (inv j).mono (.refl _) past

lemma Inv.refused (inv : h.Inv) (ordered : h.Ordered (.publish p))
    (refused : (h.quota.publish p).2 = false) :
    h.quota.maxMsgs ≤ h.admitted.countP fun e =>
      quotaKey e.account = quotaKey p.account ∧ p.nowMs.toNat < e.nowMs.toNat + 1000 := by
  rw [CmqQuota.publish] at refused
  split at refused
  · cases refused
  rcases h.quota.check_cases p.account p.claimMs (fun slot =>
      slot.publish h.quota.maxMsgs h.quota.maxBytes p.msgLen p.nowMs) with
    ⟨-, checked⟩ | ⟨i, found, checked⟩
  · rw [checked] at refused
    cases refused
  rw [checked] at refused
  have stopped := CmqQuota.stops_of_find found
  have counts := ((inv i).claim stopped ordered.1).renew ordered.2
  have account := CmqQuotaSlot.account_claim stopped p.claimMs
  have full : h.quota.maxMsgs ≤
      (((h.quota.slots i).claim p.account p.claimMs).renew p.nowMs).msgs := by
    by_contra room
    simp [CmqQuotaSlot.publish, Nat.lt_of_not_le room] at refused
  have recent := CmqQuotaSlot.renew_recent counts.1
  refine (full.trans counts.2).trans (List.countP_mono_left fun e _ since => ?_)
  rw [decide_eq_true_eq, CmqQuotaSlot.account_renew, account] at since
  have later := UInt64.le_iff_toNat_le.mp since.2
  exact decide_eq_true ⟨since.1, by omega⟩

end QuotaHistory

/-- Calls of the other kind that claim no slot and start no window change no answer.  If no connect
finds its account's slot out of the window, a refused publish follows as many admitted ones of its
account as the limit says, each less than a second before it. -/
theorem quota_independent (maxMsgs maxBytes maxConnects : Nat) (calls : List QuotaCall) :
    let start := cmqQuotaCreate maxMsgs maxBytes maxConnects
    let next := fun (q : CmqQuota) call => (q.call call).1
    let h := calls.foldl QuotaHistory.step ⟨start, [], 0⟩
    (Runs.Meets next (fun q call => call.isPublish = false → q.Neutral call) start calls →
      Runs.answersOf CmqQuota.call QuotaCall.isPublish start calls =
        Runs.answers CmqQuota.call start (calls.filter QuotaCall.isPublish)) ∧
    (Runs.Meets next (fun q call => (!call.isPublish) = false → q.Neutral call) start calls →
      Runs.answersOf CmqQuota.call (fun call => !call.isPublish) start calls =
        Runs.answers CmqQuota.call start (calls.filter fun call => !call.isPublish)) ∧
    (Runs.Meets QuotaHistory.step
        (fun h call => h.Ordered call ∧ h.quota.KeepsWindow call) ⟨start, [], 0⟩ calls →
      ∀ p, h.Ordered (.publish p) → (h.quota.publish p).2 = false →
        h.quota.maxMsgs ≤ h.admitted.countP fun e =>
          quotaKey e.account = quotaKey p.account ∧ p.nowMs.toNat < e.nowMs.toNat + 1000) := by
  intro start next h
  refine ⟨fun met => ?_, fun met => ?_, fun met p => ?_⟩
  · have same : publishView.Same start start := ⟨⟨rfl, rfl, rfl⟩, fun _ => rfl⟩
    refine Runs.answersOf_eq_of_neutral (fun _ _ call kept same => ?_)
      (fun _ _ call removed neutral same => ?_) same met
    · cases call with
      | publish p => exact same.publish p
      | connect => cases kept
    cases call with
    | publish => cases removed
    | connect => exact same.ignore_connect neutral
  · have same : connectView.Same start start := ⟨⟨rfl, rfl, rfl⟩, fun _ => rfl⟩
    refine Runs.answersOf_eq_of_neutral (fun _ _ call kept same => ?_)
      (fun _ _ call removed neutral same => ?_) same met
    · cases call with
      | publish => cases kept
      | connect account claimMs nowMs => exact same.connect account claimMs nowMs
    cases call with
    | publish => exact same.ignore_publish neutral
    | connect => cases removed
  have kept : ∀ (h : QuotaHistory) call, h.Inv →
      h.Ordered call ∧ h.quota.KeepsWindow call → (h.step call).Inv :=
    fun _ _ inv met => inv.step met.1 met.2
  have inv : h.Inv := Runs.Meets.invariant kept (fun _ => ⟨UInt64.le_refl _, Nat.zero_le _⟩) met
  exact inv.refused

theorem quota_independent_connect :
    Runs.answersOf CmqQuota.call QuotaCall.isPublish (cmqQuotaCreate 1 0 1)
        [.publish ⟨cstr "a", 1, 0, 0⟩, .connect (cstr "a") 5 5, .publish ⟨cstr "a", 1, 9, 9⟩] =
      Runs.answers CmqQuota.call (cmqQuotaCreate 1 0 1)
        [.publish ⟨cstr "a", 1, 0, 0⟩, .publish ⟨cstr "a", 1, 9, 9⟩] :=
  (quota_independent 1 0 1 _).1 (by decide +kernel)

/-- A connect a second after the window began keeps the count of the publishes, and the next
one is refused 1500 ms after the last. -/
theorem connect_extends_window :
    Runs.answersOf CmqQuota.call QuotaCall.isPublish (cmqQuotaCreate 1 0 1)
        [.publish ⟨cstr "a", 1, 0, 0⟩, .connect (cstr "a") 1000 1000,
          .publish ⟨cstr "a", 1, 1500, 1500⟩] = [true, false] ∧
      Runs.answers CmqQuota.call (cmqQuotaCreate 1 0 1)
        [.publish ⟨cstr "a", 1, 0, 0⟩, .publish ⟨cstr "a", 1, 1500, 1500⟩] = [true, true] := by
  decide +kernel

end CMsgQueue.Enterprise
