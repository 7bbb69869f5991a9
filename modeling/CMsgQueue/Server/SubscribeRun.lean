import CMsgQueue.Server.SubscribeSpec

/-!
# Runs of subscribing

Whatever SUBSCRIBE and UNSUBSCRIBE frames arrive, from any clients and with allocations failing
at any point, the lists of the clients, the trie and the counters stay in agreement.
-/

namespace CMsgQueue.Server

open List Enterprise

/-! ## How a handler ends -/

def Rejected (effects : List SubEffect) : Prop := ∀ subId, SubEffect.suback subId 0 ∉ effects

def SubClient.IsClosing (c : SubClient) : Prop := c.state = .closing ∨ c.state = .closed

/-- A handler that worked for the client `c` has left it as `c'`. -/
structure Settled (front back : List SubClient) (c : SubClient) (srv : SubServer)
    (c' : SubClient) : Prop where
  inv : srv.Inv
  clients : srv.clients = front ++ c' :: back
  session : c.SameSession c'
  live : c'.subs ≠ [] → c.subs ≠ [] ∨ srv.clientAccountLive c' = true

/-- A SUBSCRIBE of the client `c` has left it as `c'`. -/
structure Answered (front back : List SubClient) (c : SubClient)
    (result : SubServer × List SubEffect) (c' : SubClient) : Prop
    extends Settled front back c result.1 c' where
  kept : Rejected result.2 → c'.subs = c.subs ∨ c'.IsClosing

lemma SubClient.forceClosing_eq (c : SubClient) :
    ∃ state, c.forceClosing = { c with state } ∧ c.forceClosing.IsClosing := by
  unfold SubClient.forceClosing
  split
  next down => exact ⟨c.state, rfl, down.symm⟩
  exact ⟨.closing, rfl, .inl rfl⟩

lemma SubClient.answered_eq (c : SubClient) (send : SendOutcome) :
    ∃ state, c.answered send = { c with state } ∧ (c.IsClosing → (c.answered send).IsClosing) := by
  cases send with
  | forceClosed =>
    obtain ⟨state, eq, down⟩ := c.forceClosing_eq
    exact ⟨state, eq, fun _ => down⟩
  | sent | failed => exact ⟨c.state, rfl, fun down => down⟩

section

variable {origin srv : SubServer} {front back : List SubClient} {c d : SubClient}
  {send : SendOutcome} {counted closing : Bool} {subId : Nat} {effects : List SubEffect}

section

variable (inv : origin.Inv)
  (split : origin.clients = front ++ c :: back)
  (books : Books front back c srv d.owned d.owned d.subs.length d.subs.length)
  (wellFormed : d.WellFormed)
  (session : c.SameSession d)
include inv split books wellFormed session

lemma settled_put (state : ClientState)
    (live : d.subs ≠ [] → c.subs ≠ [] ∨ srv.clientAccountLive d = true) :
    Settled front back c (srv.putClient { d with state }) { d with state } where
  inv := inv.of_books split books ⟨session.id, session.name, session.epoch⟩
    ⟨wellFormed.count_eq, wellFormed.distinct, wellFormed.nonzero⟩
  clients := by
    have ids := inv.ids
    rw [split, ← books.clients] at ids
    exact SubServer.putClient_clients books.clients ids session.id
  session := ⟨session.id, session.name, session.epoch⟩
  live := live

lemma answered_refuse (kept : d.subs = c.subs ∨ closing = true ∨ d.IsClosing)
    (nonempty : d.subs ≠ [] → c.subs ≠ []) :
    ∃ c', Answered front back c (srv.refuse send d counted closing subId effects) c' := by
  have left : ∃ state, (d.answered send).closingIf closing = { d with state } ∧
      (closing = true ∨ d.IsClosing → ((d.answered send).closingIf closing).IsClosing) := by
    obtain ⟨state, eq, down⟩ := d.answered_eq send
    cases closing with
    | true => exact ⟨.closing, by rw [eq]; rfl, fun _ => .inl rfl⟩
    | false => exact ⟨state, eq, fun closes => down (closes.resolve_left (by simp))⟩
  obtain ⟨state, eq, down⟩ := left
  unfold SubServer.refuse
  rw [eq] at down ⊢
  exact ⟨_, settled_put inv split (books.countRejected _) wellFormed session state
    fun some => .inl (nonempty some), fun _ => kept.imp_right down⟩

lemma answered_accept (live : srv.clientAccountLive d = true) (req : SubRequest) :
    ∃ c', Answered front back c (srv.accept send d req effects) c' := by
  obtain ⟨state, eq, -⟩ := d.answered_eq send
  unfold SubServer.accept
  rw [eq]
  refine ⟨_, settled_put inv split books wellFormed session state fun _ => .inr live,
    fun rejected => ?_⟩
  exact absurd (by simp) (rejected req.subId)

/-! ## The handlers -/

end

variable {env : SubscribeEnv} {req : SubRequest} {addr : Nat} {nudged deads : List SubEffect}

lemma subscribeNew_answered (inv : origin.Inv) (split : origin.clients = front ++ c :: back)
    (books : Books front back c srv ((some addr, (req.entry addr).refOf c.id) :: c.owned) c.owned
      c.subs.length c.subs.length)
    (wellFormed : c.WellFormed) (nonzero : req.subId ≠ 0)
    (new : c.subs.find? (fun entry => entry.subId == req.subId) = none) :
    ∃ c', Answered front back c (subscribeNew env srv c req addr nudged deads) c' := by
  have same : c.SameSession c := ⟨rfl, rfl, rfl⟩
  unfold subscribeNew
  cases found : srv.accounts.slot? c.accountName with
  | none => exact answered_refuse inv split books.freeRef wellFormed same (.inl rfl) fun some => some
  | some slot =>
    have points := SubAccounts.pointsTo_of_slot? found
    dsimp only
    by_cases credited : (cmqAccountIncSubscriptions srv.accounts slot c.accountEpoch).2 = 0
    case neg =>
      rw [if_pos credited]
      exact answered_refuse inv split books.freeRef wellFormed same (.inl rfl) fun some => some
    rw [if_neg (not_not.mpr credited)]
    have charged := (books.credit points credited).deleteAccounts env.deletedAtCredit
    have held := (points.inc c.accountEpoch).deleteAll env.deletedAtCredit
    generalize charger_eq : SubServer.deleteAccounts _ env.deletedAtCredit = charger
    rw [charger_eq] at charged
    replace held : charger.accounts.PointsTo slot c.accountName := charger_eq ▸ held
    by_cases live : charger.clientAccountLive c = false
    · rw [if_pos live]
      exact answered_refuse inv split (charged.debitSlot held rfl).freeRef wellFormed same
        (.inl rfl) fun some => some
    rw [if_neg live]
    by_cases inserted :
      (cmqSublistInsert env.insert charger.sublist req.subject (some addr)).2 = 0
    case neg =>
      rw [if_pos inserted, charged.insert_failed inserted]
      exact answered_refuse inv split (charged.debitSlot held rfl).freeRef wellFormed same
        (.inl rfl) fun some => some
    rw [if_neg (not_not.mpr inserted)]
    -- The entry is linked; from here on the client has one more.
    have linked := ((charged.insert ((req.entry addr).refOf c.id) inserted).countUp
      ).deleteAccounts env.deletedAtLink
    have heldStill := held.deleteAll env.deletedAtLink
    split
    · have unlinked : SubClient.unlink { c with
          subs := req.entry addr :: c.subs, subCount := c.subCount + 1 } (req.entry addr) = c := by
        simp [SubClient.unlink]
      rw [unlinked]
      exact answered_refuse inv split (linked.debitSlot heldStill rfl).dropRef.countDown
        wellFormed same (.inl rfl) fun some => some
    next live =>
    have longer : SubClient.WellFormed { c with
        subs := req.entry addr :: c.subs, subCount := c.subCount + 1 } :=
      wellFormed.link nonzero new
    exact answered_accept inv split linked longer ⟨rfl, rfl, rfl⟩
      (Bool.eq_true_of_not_eq_false live) req

lemma subscribeReplace_answered (inv : origin.Inv) (split : origin.clients = front ++ c :: back)
    (books : Books front back c srv ((some addr, (req.entry addr).refOf c.id) :: c.owned) c.owned
      c.subs.length c.subs.length)
    (wellFormed : c.WellFormed) {old : SubEntry} (member : old ∈ c.subs)
    (sameId : req.subId = old.subId) :
    ∃ c', Answered front back c (subscribeReplace env srv c req old addr nudged deads) c' := by
  have nonempty : c.subs ≠ [] := ne_nil_of_mem member
  have longer := (perm_cons_erase member).length_eq
  have parted := SubClient.owned_perm_erase member
  obtain ⟨oldRef, pointer⟩ :=
    ((books.perm ((parted.cons _).trans (.swap ..)) parted).heap).exists_addr
  unfold subscribeReplace
  rw [pointer] at parted ⊢
  dsimp only
  have removed : Books front back c
      { srv with sublist := (cmqSublistRemove srv.sublist old.subject (some oldRef)).1 }
      ((some addr, (req.entry addr).refOf c.id) :: c.owned) (c.unlink old).owned c.subs.length
      c.subs.length := (books.perm (.refl _) parted).remove
  generalize (cmqSublistRemove srv.sublist old.subject (some oldRef)).1 = without at removed ⊢
  -- The heap as the pieces that can be freed: the old reference, the new one and the rest.
  have cells := (parted.cons (some addr, (req.entry addr).refOf c.id)).trans (.swap ..)
  by_cases inserted : (cmqSublistInsert env.insert without req.subject (some addr)).2 = 0
  case neg =>
    have same := removed.insert_failed inserted
    rw [if_pos inserted, same]
    by_cases restored : (cmqSublistInsert env.restore without old.subject (some oldRef)).2 = 0
    case neg =>
      have same := removed.insert_failed restored
      rw [if_pos restored, same]
      rw [longer] at removed
      have dropped := (removed.perm cells (.refl _)).freeRef.freeRef.countDown
      obtain ⟨state, eq, closing⟩ := (c.unlink old).forceClosing_eq
      rw [eq] at closing ⊢
      exact answered_refuse inv split (dropped.debitAccount rfl rfl)
        (show SubClient.WellFormed { c.unlink old with state } from
          ⟨(wellFormed.unlink member).count_eq, (wellFormed.unlink member).distinct,
            (wellFormed.unlink member).nonzero⟩)
        ⟨rfl, rfl, rfl⟩ (.inr (.inr closing)) fun _ => nonempty
    rw [if_neg (not_not.mpr restored)]
    have whole := ((removed.insert (old.refOf c.id) restored).perm (.refl _) parted.symm).freeRef
    exact answered_refuse inv split whole wellFormed ⟨rfl, rfl, rfl⟩ (.inl rfl) fun some => some
  rw [if_neg (not_not.mpr inserted)]
  have swapped := ((removed.insert ((req.entry addr).refOf c.id) inserted).perm cells
    (.refl _)).freeRef.deleteAccounts env.deletedAtLink
  rw [longer] at swapped
  split
  · have unlinked : SubClient.unlink { c with subs := req.entry addr :: c.subs.erase old }
        (req.entry addr) = c.unlink old := by
      simp [SubClient.unlink]
    rw [unlinked]
    exact answered_refuse inv split (swapped.dropRef.countDown.debitAccount rfl rfl)
      (wellFormed.unlink member) ⟨rfl, rfl, rfl⟩ (.inr (.inl rfl)) fun _ => nonempty
  next live =>
  have replaced : SubClient.WellFormed { c with subs := req.entry addr :: c.subs.erase old } :=
    wellFormed.replace member sameId
  exact answered_accept inv split swapped replaced ⟨rfl, rfl, rfl⟩
    (Bool.eq_true_of_not_eq_false live) req

lemma subscribeFront_nonzero (ok : subscribeFront srv c payload = .ok req) : req.subId ≠ 0 := by
  unfold subscribeFront at ok
  split at ok
  · cases ok
  dsimp only at ok
  split at ok
  · cases ok
  next nonzero =>
  -- whichever test comes next, a request keeps the id that was read
  split at ok
  · cases ok
  split at ok
  · cases ok
  split at ok
  · cases ok
  split at ok
  · cases ok
  split at ok
  · cases ok
  cases ok
  exact nonzero

lemma handleSubscribe_answered (inv : srv.Inv) (split : srv.clients = front ++ c :: back)
    (env : SubscribeEnv) (payload : Bytes) :
    ∃ c', Answered front back c (handleSubscribe env srv c payload) c' := by
  have books := inv.books split
  have wellFormed : c.WellFormed := inv.lists c (by rw [split]; simp)
  have refused : ∀ counted subId, ∃ c',
      Answered front back c (srv.refuse env.send c counted false subId []) c' := fun _ _ =>
    answered_refuse inv split books wellFormed ⟨rfl, rfl, rfl⟩ (.inl rfl) fun some => some
  unfold handleSubscribe
  cases parsed : subscribeFront srv c payload with
  | error => exact refused _ _
  | ok req =>
    dsimp only
    split
    · exact refused _ _
    split
    · exact refused _ _
    cases env.ref with
    | none => exact refused _ _
    | some preferred =>
      have allocated := books.mallocRef
        ((req.entry (srv.freeAddr preferred)).refOf c.id) (srv.freeAddr_notMem preferred)
      dsimp only
      split
      · exact answered_refuse inv split allocated.freeRef wellFormed ⟨rfl, rfl, rfl⟩
          (.inl rfl) fun some => some
      split
      next new =>
        exact subscribeNew_answered inv split allocated wellFormed
          (subscribeFront_nonzero parsed) new
      next _ found =>
      have sameId := find?_some found
      exact subscribeReplace_answered inv split allocated wellFormed
        (mem_of_find?_eq_some found) (beq_iff_eq.mp sameId).symm

lemma handleUnsubscribe_settled (inv : srv.Inv) (split : srv.clients = front ++ c :: back)
    (send : SendOutcome) (payload : Bytes) :
    ∃ c', Settled front back c (handleUnsubscribe send srv c payload).1 c' := by
  have books := inv.books split
  have wellFormed : c.WellFormed := inv.lists c (by rw [split]; simp)
  have unchanged : ∃ c', Settled front back c (srv.putClient (c.answered send)) c' := by
    obtain ⟨state, eq, -⟩ := c.answered_eq send
    rw [eq]
    exact ⟨_, settled_put inv split books wellFormed ⟨rfl, rfl, rfl⟩ state .inl⟩
  unfold handleUnsubscribe
  split
  · exact unchanged
  dsimp only
  split
  · exact unchanged
  next entry found =>
  have member := mem_of_find?_eq_some found
  have parted := SubClient.owned_perm_erase member
  have longer := (perm_cons_erase member).length_eq
  rw [longer] at books
  have dropped := (books.perm parted parted).dropRef.countDown
  obtain ⟨state, eq, -⟩ := (c.unlink entry).answered_eq send
  rw [eq]
  exact ⟨_, settled_put inv split (dropped.debitAccount rfl rfl) (wellFormed.unlink member)
    ⟨rfl, rfl, rfl⟩ state fun _ => .inl (ne_nil_of_mem member)⟩

end

/-! ## Sessions -/

namespace SubServer

variable {srv : SubServer} {c : SubClient}

-- The handlers reach the accounts through the debits and credits only; the `simp` calls about
-- `accounts.mgr` below rest on this.

@[simp] lemma accounts_freeRef (addr : Nat) : (srv.freeRef addr).accounts = srv.accounts := rfl

@[simp] lemma accounts_countDown : srv.countDown.accounts = srv.accounts := rfl

@[simp] lemma accounts_putClient : (srv.putClient c).accounts = srv.accounts := rfl

@[simp] lemma deleteAccounts_nil : srv.deleteAccounts [] = srv := rfl

@[simp] lemma accounts_refuse :
    (srv.refuse send c counted closing subId effects).1.accounts = srv.accounts := rfl

@[simp] lemma accounts_accept : (srv.accept send c req effects).1.accounts = srv.accounts := rfl

@[simp] lemma accounts_dropRef (entry : SubEntry) :
    (srv.dropRef entry).accounts = srv.accounts := by
  unfold dropRef
  split <;> rfl

@[simp] lemma mgr_debitSlot (slot : Nat) :
    (srv.debitSlot slot c).accounts.mgr = srv.accounts.mgr :=
  SubAccounts.mgr_dec c.accountEpoch

@[simp] lemma mgr_debitAccount : (srv.debitAccount c).accounts.mgr = srv.accounts.mgr := by
  unfold debitAccount
  split
  · rfl
  exact mgr_debitSlot _

end SubServer

def SubscribeEnv.Undisturbed (env : SubscribeEnv) : Prop :=
  env.deletedAtCredit = [] ∧ env.deletedAtLink = []

section

variable {env : SubscribeEnv} {srv : SubServer} {c : SubClient} {req : SubRequest} {addr : Nat}
  {nudged deads : List SubEffect}

lemma mgr_subscribeNew (undisturbed : env.Undisturbed) :
    (subscribeNew env srv c req addr nudged deads).1.accounts.mgr = srv.accounts.mgr := by
  unfold subscribeNew
  rw [undisturbed.1, undisturbed.2]
  split
  · rfl
  dsimp only
  split
  · rfl
  split
  · simp [SubAccounts.mgr_inc]
  split
  · simp [SubAccounts.mgr_inc]
  split
  · simp [SubAccounts.mgr_inc]
  simp [SubAccounts.mgr_inc]

lemma mgr_subscribeReplace (undisturbed : env.Undisturbed) (old : SubEntry) :
    (subscribeReplace env srv c req old addr nudged deads).1.accounts.mgr = srv.accounts.mgr := by
  unfold subscribeReplace
  rw [undisturbed.2]
  cases old.ref with
  | none =>
    dsimp only
    split
    · rfl
    split <;> simp
  | some =>
    dsimp only
    split
    · split
      · simp
      rfl
    split <;> simp

lemma mgr_handleSubscribe (undisturbed : env.Undisturbed) (payload : Bytes) :
    (handleSubscribe env srv c payload).1.accounts.mgr = srv.accounts.mgr := by
  unfold handleSubscribe
  split
  · rfl
  dsimp only
  split
  · rfl
  split
  · rfl
  split
  · rfl
  split
  · rfl
  split
  · exact mgr_subscribeNew undisturbed
  exact mgr_subscribeReplace undisturbed _

end

/-! ## Runs -/

/-- A frame, or the deletion of an account between two frames. -/
inductive SubEvent where
  | subscribe (client : Nat) (env : SubscribeEnv) (payload : Bytes)
  | unsubscribe (client : Nat) (send : SendOutcome) (payload : Bytes)
  | deleteAccount (name : Bytes)

def SubEvent.Undisturbed : SubEvent → Prop
  | .subscribe _ env _ => env.Undisturbed
  | .unsubscribe .. => True
  | .deleteAccount _ => False

namespace SubServer

def step (srv : SubServer) : SubEvent → SubServer
  | .subscribe client env payload =>
    match srv.findClient client with
    | none => srv
    | some c => (handleSubscribe env srv c payload).1
  | .unsubscribe client send payload =>
    match srv.findClient client with
    | none => srv
    | some c => (handleUnsubscribe send srv c payload).1
  | .deleteAccount name => srv.deleteAccounts [name]

def run (srv : SubServer) (events : List SubEvent) : SubServer := events.foldl step srv

/-- A server on which nothing is subscribed. -/
structure Fresh (srv : SubServer) : Prop where
  ids : (srv.clients.map SubClient.id).Nodup
  idle : ∀ c ∈ srv.clients, c.subs = [] ∧ c.subCount = 0
  sublist : srv.sublist = cmqSublistCreate
  refs : srv.refs = []
  stat : srv.statSubscriptions = 0
  names : (srv.accounts.accounts.map fun account => account.name).Nodup
  short : ∀ account ∈ srv.accounts.accounts, account.name.length < cmqAccountNameSize
  uncharged : ∀ account ∈ srv.accounts.accounts, account.subscriptions = 0

structure Consistent (srv : SubServer) : Prop where
  count_eq : ∀ c ∈ srv.clients, c.subCount = c.subs.length
  distinct : ∀ c ∈ srv.clients, (c.subs.map fun entry => entry.subId).Nodup
  nonzero : ∀ c ∈ srv.clients, ∀ entry ∈ c.subs, entry.subId ≠ 0
  /-- The reference of an entry is in the trie once, under the subject of the entry. -/
  registered : ∀ c ∈ srv.clients, ∀ entry ∈ c.subs, ∃ addr, entry.ref = some addr ∧
    srv.readRef addr = some (entry.refOf c.id) ∧
    (SlNode.entries srv.sublist.root).filter (fun item => item.2 == some addr) =
      [slEntry (entry.subject, some addr)]
  /-- The trie holds nothing else. -/
  owned : ∀ item ∈ SlNode.entries srv.sublist.root,
    ∃ c ∈ srv.clients, ∃ entry ∈ c.subs, item = slEntry (entry.subject, entry.ref)
  server_count : srv.statSubscriptions = (srv.clients.map fun c => c.subs.length).sum
  account_count : ∀ account ∈ srv.accounts.accounts, account.active = true →
    account.subscriptions = entriesOn srv.clients account.toCmqAccount

variable {srv : SubServer}

lemma exists_split {id : Nat} {c : SubClient} (found : srv.findClient id = some c) :
    c.id = id ∧ ∃ front back, srv.clients = front ++ c :: back := by
  have named := find?_some found
  obtain ⟨front, back, split⟩ := append_of_mem (mem_of_find?_eq_some found)
  exact ⟨beq_iff_eq.mp named, front, back, split⟩

lemma Fresh.inv (fresh : srv.Fresh) : srv.Inv := by
  have empty : srv.clients.flatMap SubClient.owned = [] := by
    refine flatMap_eq_nil_iff.mpr fun c member => ?_
    rw [SubClient.owned, (fresh.idle c member).1, map_nil]
  constructor
  · exact fresh.ids
  · intro c member
    obtain ⟨none, zero⟩ := fresh.idle c member
    exact ⟨by rw [none, zero]; rfl, by rw [none]; exact nodup_nil, by rw [none]; simp⟩
  · rw [empty, fresh.refs]
    exact ⟨nodup_nil, .nil⟩
  · rw [empty, fresh.sublist]
    exact ⟨trivial, .nil, rfl, by simp⟩
  · rw [empty, fresh.stat]
    rfl
  refine ⟨fresh.names, fresh.short, fun account inside _ => ?_⟩
  rw [fresh.uncharged account inside]
  symm
  refine sum_eq_zero fun n member => ?_
  obtain ⟨c, inside, rfl⟩ := mem_map.mp member
  rw [(fresh.idle c (mem_filter.mp inside).1).1, length_nil]

lemma Inv.step (inv : srv.Inv) (event : SubEvent) : (srv.step event).Inv := by
  cases event with
  | subscribe client env payload =>
    unfold SubServer.step
    dsimp only
    split
    · exact inv
    next c found =>
    obtain ⟨-, front, back, split⟩ := exists_split found
    obtain ⟨c', answered⟩ := handleSubscribe_answered inv split env payload
    exact answered.inv
  | unsubscribe client send payload =>
    unfold SubServer.step
    dsimp only
    split
    · exact inv
    next c found =>
    obtain ⟨-, front, back, split⟩ := exists_split found
    obtain ⟨c', settled⟩ := handleUnsubscribe_settled inv split send payload
    exact settled.inv
  | deleteAccount name => exact { inv with charged := inv.charged.delete name }

lemma Inv.run (inv : srv.Inv) (events : List SubEvent) : (srv.run events).Inv := by
  induction events generalizing srv with
  | nil => exact inv
  | cons event events ih => exact ih (inv.step event)

lemma Inv.registered (inv : srv.Inv) (member : c ∈ srv.clients) (inside : entry ∈ c.subs) :
    ∃ addr, entry.ref = some addr ∧ srv.readRef addr = some (entry.refOf c.id) ∧
      (SlNode.entries srv.sublist.root).filter (fun item => item.2 == some addr) =
        [slEntry (entry.subject, some addr)] := by
  have booked : (entry.ref, entry.refOf c.id) ∈ srv.clients.flatMap SubClient.owned :=
    mem_flatMap.mpr ⟨c, member, mem_map_of_mem inside⟩
  obtain ⟨front, back, split⟩ := append_of_mem booked
  have parted : (srv.clients.flatMap SubClient.owned).Perm
      ((entry.ref, entry.refOf c.id) :: (front ++ back)) := split ▸ perm_middle
  have heap := inv.heap.congr parted
  obtain ⟨addr, pointer⟩ := heap.exists_addr
  rw [pointer] at heap parted
  refine ⟨addr, pointer, ?_, ?_⟩
  · rw [readRef, heap.read]
    rfl
  have listed := (inv.trie.congr parted).entries_perm.filter fun item => item.2 == some addr
  have others : (((front ++ back).map fun item => (item.2.subject, item.1)).map slEntry).filter
      (fun item => item.2 == some addr) = [] := by
    rw [map_map, filter_eq_nil_iff]
    intro item booked
    obtain ⟨other, inside, rfl⟩ := mem_map.mp booked
    simpa [slEntry] using heap.ne_addr other inside
  rw [map_cons, map_cons, filter_cons_of_pos (by simp [slEntry]), others] at listed
  exact perm_singleton.mp listed

lemma Inv.consistent (inv : srv.Inv) : srv.Consistent where
  count_eq := fun c member => (inv.lists c member).count_eq
  distinct := fun c member => (inv.lists c member).distinct
  nonzero := fun c member => (inv.lists c member).nonzero
  registered := fun _ member _ inside => inv.registered member inside
  owned := by
    intro _ listed
    have booked := inv.trie.entries_perm.mem_iff.mp listed
    simp only [map_map, mem_map, mem_flatMap, SubClient.owned] at booked
    obtain ⟨_, ⟨c, member, entry, inside, rfl⟩, rfl⟩ := booked
    exact ⟨c, member, entry, inside, rfl⟩
  server_count := by
    rw [inv.stat, length_flatMap]
    simp only [SubClient.owned, length_map]
  account_count := inv.charged.counter

/-! Sessions of the clients that have subscriptions -/

def Lives (srv : SubServer) : Prop :=
  ∀ c ∈ srv.clients, c.subs ≠ [] → srv.clientAccountLive c = true

lemma clientAccountLive_congr {srv' : SubServer} (same : srv'.accounts.mgr = srv.accounts.mgr)
    (c : SubClient) : srv'.clientAccountLive c = srv.clientAccountLive c := by
  unfold clientAccountLive
  rw [same]

lemma Lives.settled (lives : srv.Lives) (split : srv.clients = front ++ c :: back)
    (settled : Settled front back c srv' c') (same : srv'.accounts.mgr = srv.accounts.mgr) :
    srv'.Lives := by
  intro other member some
  rw [settled.clients] at member
  rcases mem_cons.mp (perm_middle.mem_iff.mp member) with rfl | member
  · rcases settled.live some with before | live
    · have alive := lives c (by rw [split]; simp) before
      rw [clientAccountLive_congr same]
      unfold clientAccountLive at alive ⊢
      rw [settled.session.name, settled.session.epoch]
      exact alive
    exact live
  rw [clientAccountLive_congr same]
  refine lives other ?_ some
  rw [split]
  exact perm_middle.mem_iff.mpr (mem_cons_of_mem _ member)

lemma Lives.step (lives : srv.Lives) (inv : srv.Inv)
    (undisturbed : event.Undisturbed) : (srv.step event).Lives := by
  cases event with
  | subscribe client env payload =>
    unfold SubServer.step
    dsimp only
    split
    · exact lives
    next c found =>
    obtain ⟨-, front, back, split⟩ := exists_split found
    obtain ⟨c', answered⟩ := handleSubscribe_answered inv split env payload
    exact lives.settled split answered.toSettled (mgr_handleSubscribe undisturbed payload)
  | unsubscribe client send payload =>
    unfold SubServer.step
    dsimp only
    split
    · exact lives
    next c found =>
    obtain ⟨-, front, back, split⟩ := exists_split found
    obtain ⟨c', settled⟩ := handleUnsubscribe_settled inv split send payload
    refine lives.settled split settled ?_
    unfold handleUnsubscribe
    split
    · rfl
    dsimp only
    split
    · rfl
    simp
  | deleteAccount => exact undisturbed.elim

lemma Lives.run (lives : srv.Lives) (inv : srv.Inv)
    (undisturbed : ∀ event ∈ events, event.Undisturbed) : (srv.run events).Lives := by
  induction events generalizing srv with
  | nil => exact lives
  | cons event events ih =>
    refine ih (lives.step inv (undisturbed event mem_cons_self)) (inv.step event) ?_
    exact fun later inside => undisturbed later (mem_cons_of_mem _ inside)

/-- A SUBSCRIBE that is refused leaves the entries of the client as they were, or closes the
connection. -/
lemma Inv.rejected (inv : srv.Inv) {id : Nat} {c : SubClient} (found : srv.findClient id = some c)
    (env : SubscribeEnv) (payload : Bytes)
    (rejected : Rejected (handleSubscribe env srv c payload).2) :
    ∃ c', (handleSubscribe env srv c payload).1.findClient id = some c' ∧
      (c'.subs = c.subs ∨ c'.IsClosing) := by
  obtain ⟨rfl, front, _, split⟩ := exists_split found
  obtain ⟨c', answered⟩ := handleSubscribe_answered inv split env payload
  refine ⟨c', ?_, answered.kept rejected⟩
  have ids := answered.inv.ids
  unfold findClient
  rw [answered.clients] at ids ⊢
  rw [map_append] at ids
  have apart := (nodup_cons.mp (perm_middle.nodup_iff.mp ids)).1
  rw [← map_append, mem_map, not_exists] at apart
  have skipped : front.find? (fun other => other.id == c.id) = none := by
    refine find?_eq_none.mpr fun other member same => ?_
    refine apart other ⟨mem_append_left _ member, ?_⟩
    rw [answered.session.id]
    exact beq_iff_eq.mp same
  rw [find?_append, skipped, Option.none_or, find?_cons_of_pos]
  exact beq_iff_eq.mpr answered.session.id

/-- After any SUBSCRIBE and UNSUBSCRIBE frames, the lists of the clients, the trie and the counters
agree; as long as no account is deleted, all subscriptions belong to sessions of active accounts;
and a SUBSCRIBE that is refused leaves the entries of its client or closes the connection. -/
theorem run_consistent {srv : SubServer} (fresh : srv.Fresh) (events : List SubEvent) :
    (srv.run events).Consistent ∧ ((∀ event ∈ events, event.Undisturbed) → (srv.run events).Lives) ∧
    ∀ id c env payload, (srv.run events).findClient id = some c →
      Rejected (handleSubscribe env (srv.run events) c payload).2 →
      ∃ c', (handleSubscribe env (srv.run events) c payload).1.findClient id = some c' ∧
        (c'.subs = c.subs ∨ c'.IsClosing) := by
  have inv := fresh.inv.run events
  refine ⟨inv.consistent, fun undisturbed => ?_, ?_⟩
  · have lives : srv.Lives := fun c member some => absurd (fresh.idle c member).1 some
    exact lives.run fresh.inv undisturbed
  intro id c env payload found rejected
  exact inv.rejected found env payload rejected

/-- A client without subscriptions in the first session of an account `A`. -/
def idleClient (id : Nat) : SubClient where
  id := id
  connGen := 1
  state := .connected
  subs := []
  subCount := 0
  accountName := cstr "A"
  accountEpoch := 1
  workerId := 0

def idleServer : SubServer where
  accounts := ⟨[⟨⟨cstr "A", true, 1, 0, 0⟩, 0, 2⟩], [], 0⟩
  sublist := cmqSublistCreate
  refs := []
  clients := [idleClient 1, idleClient 2]
  numWorkers := 1
  maxSubsPerClient := 0
  statSubscriptions := 0
  statSubscribesRejected := 0
  persist := false

def subscribing (client subId : Nat) (subject : Bytes) (insert restore : InsertAlloc) : SubEvent :=
  .subscribe client ⟨true, some 0, fun _ => true, true, insert, restore, [], [], .sent⟩
    (putBe 4 subId ++ putBe 2 subject.length ++ subject)

/-- Both clients subscribe, and then neither the replacement of the first client nor its old
registration can be put into the trie. -/
def droppedReplacement : List SubEvent :=
  [subscribing 1 7 (cstr "a") .granted .granted, subscribing 2 7 (cstr "_INBOX.x") .granted .granted,
    subscribing 1 7 (cstr "b") ⟨fun _ => false, false⟩ ⟨fun _ => false, false⟩]

theorem run_consistent_dropped :
    (idleServer.run droppedReplacement).statSubscriptions = 1 ∧
      (idleServer.run droppedReplacement).Consistent :=
  ⟨by decide +kernel, (run_consistent
    ⟨by decide, by decide, rfl, rfl, rfl, by decide, by decide, by decide⟩ _).1⟩

/-- After any frames the references on the heap are those of the clients' entries, each once: none
is leaked, shared or freed too early. -/
theorem run_refs_owned {srv : SubServer} (fresh : srv.Fresh) (events : List SubEvent) :
    ((srv.run events).refs.map Prod.fst).Nodup ∧
      ((srv.run events).refs.map fun cell => (some cell.1, cell.2)).Perm
        ((srv.run events).clients.flatMap SubClient.owned) := by
  have heap := (fresh.inv.run events).heap
  exact ⟨heap.distinct, heap.perm⟩

/-- After the dropped replacement the first client subscribes twice, and replaces one entry. -/
theorem run_refs_owned_replaced :
    let srv := idleServer.run (droppedReplacement ++
      [subscribing 1 7 (cstr "a") .granted .granted, subscribing 1 8 (cstr "b") .granted .granted,
        subscribing 1 7 (cstr "c") .granted .granted])
    srv.refs.length = 2 ∧ (srv.refs.map Prod.fst).Nodup ∧
      (srv.refs.map fun cell => (some cell.1, cell.2)).Perm
        (srv.clients.flatMap SubClient.owned) :=
  ⟨by decide +kernel,
    run_refs_owned ⟨by decide, by decide, rfl, rfl, rfl, by decide, by decide, by decide⟩ _⟩

end SubServer

end CMsgQueue.Server
