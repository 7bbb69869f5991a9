import CMsgQueue.Server.Subscribe
import CMsgQueue.Server.SublistRun

/-!
# The books of subscribing

A subscription is booked in the list of its client, in the heap of references, in the trie, in
the server's counter and in the counter of its account.  While a handler runs the books differ.
-/

namespace CMsgQueue.Server

open SubClient List Enterprise

/-! ## Entries of a client -/

namespace SubClient

def owned (c : SubClient) : List (Option Nat × CmqSubRef) :=
  c.subs.map fun entry => (entry.ref, entry.refOf c.id)

/-- The list of a client and its length agree, and its ids are distinct and nonzero. -/
structure WellFormed (c : SubClient) : Prop where
  count_eq : c.subCount = c.subs.length
  distinct : (c.subs.map fun entry => entry.subId).Nodup
  nonzero : ∀ entry ∈ c.subs, entry.subId ≠ 0

def on (c : SubClient) (account : CmqAccount) : Bool :=
  account.inSession c.accountName c.accountEpoch

variable {c : SubClient}

lemma WellFormed.link (wellFormed : c.WellFormed) (nonzero : entry.subId ≠ 0)
    (new : c.subs.find? (fun other => other.subId == entry.subId) = none) :
    { c with subs := entry :: c.subs, subCount := c.subCount + 1 : SubClient }.WellFormed where
  count_eq := by simp [wellFormed.count_eq]
  distinct := by
    simp only [find?_eq_none, beq_iff_eq] at new
    simp only [map_cons, nodup_cons, mem_map, not_exists, not_and]
    exact ⟨new, wellFormed.distinct⟩
  nonzero := by simpa [nonzero] using wellFormed.nonzero

lemma WellFormed.unlink (wellFormed : c.WellFormed) (member : entry ∈ c.subs) :
    (c.unlink entry).WellFormed where
  count_eq := by simp [SubClient.unlink, wellFormed.count_eq, length_erase_of_mem member]
  distinct := wellFormed.distinct.sublist ((erase_sublist).map _)
  nonzero := fun other inside => wellFormed.nonzero other (mem_of_mem_erase inside)

lemma WellFormed.replace (wellFormed : c.WellFormed) (member : old ∈ c.subs)
    (same : entry.subId = old.subId) :
    { c with subs := entry :: c.subs.erase old : SubClient }.WellFormed := by
  have ids := ((perm_cons_erase member).map fun entry : SubEntry => entry.subId).nodup_iff.mp
    wellFormed.distinct
  constructor
  · have positive := length_pos_of_mem member
    have shorter := length_erase_of_mem member
    have counted := wellFormed.count_eq
    simp only [length_cons]
    omega
  · simpa only [map_cons, same] using ids
  exact forall_mem_cons.mpr ⟨same ▸ wellFormed.nonzero old member,
    (wellFormed.unlink member).nonzero⟩

lemma owned_perm_erase (member : entry ∈ c.subs) :
    c.owned.Perm ((entry.ref, entry.refOf c.id) :: (c.unlink entry).owned) :=
  (perm_cons_erase member).map fun entry : SubEntry => (entry.ref, entry.refOf c.id)

end SubClient

/-! ## The heap -/

/-- The heap holds exactly the given references. -/
structure HeapHolds (refs : List (Nat × CmqSubRef)) (owned : List (Option Nat × CmqSubRef)) :
    Prop where
  distinct : (refs.map Prod.fst).Nodup
  perm : (refs.map fun cell => (some cell.1, cell.2)).Perm owned

namespace HeapHolds

variable {refs : List (Nat × CmqSubRef)} {owned : List (Option Nat × CmqSubRef)} {addr : Nat}
  {ref : CmqSubRef}

lemma exists_addr (holds : HeapHolds refs ((pointer, ref) :: owned)) :
    ∃ addr, pointer = some addr := by
  have inside := holds.perm.mem_iff.mpr mem_cons_self
  obtain ⟨cell, -, eq⟩ := mem_map.mp inside
  exact ⟨cell.1, (congrArg Prod.fst eq).symm⟩

lemma malloc (holds : HeapHolds refs owned) (free : addr ∉ refs.map Prod.fst) :
    HeapHolds ((addr, ref) :: refs) ((some addr, ref) :: owned) where
  distinct := nodup_cons.mpr ⟨free, holds.distinct⟩
  perm := holds.perm.cons _

section

variable (holds : HeapHolds refs ((some addr, ref) :: owned))
include holds

lemma free : HeapHolds (refs.filter fun cell => cell.1 ≠ addr) owned := by
  have inside : (addr, ref) ∈ refs := by
    have member := holds.perm.mem_iff.mpr mem_cons_self
    simpa using member
  obtain ⟨front, back, rfl⟩ := append_of_mem inside
  have split : (front ++ (addr, ref) :: back).Perm ((addr, ref) :: (front ++ back)) :=
    perm_middle
  -- no other cell has the address
  have distinct := (split.map Prod.fst).nodup_iff.mp holds.distinct
  rw [map_cons, nodup_cons] at distinct
  have others : (front ++ back).filter (fun cell => decide (cell.1 ≠ addr)) = front ++ back := by
    refine filter_eq_self.mpr fun cell member => decide_eq_true fun same => ?_
    exact distinct.1 (mem_map.mpr ⟨cell, member, same⟩)
  have filtered : (front ++ (addr, ref) :: back).filter (fun cell => decide (cell.1 ≠ addr)) =
      front ++ back := by
    rw [← others, filter_append, filter_cons_of_neg (by simp), filter_append]
  rw [filtered]
  exact ⟨distinct.2, ((split.map _).symm.trans holds.perm).cons_inv⟩

lemma ne_addr : ∀ item ∈ owned, item.1 ≠ some addr := by
  have pointers := holds.perm.map Prod.fst
  rw [map_map] at pointers
  have distinct : (refs.map (Prod.fst ∘ fun cell => (some cell.1, cell.2))).Nodup := by
    have injected := holds.distinct.map (Option.some_injective Nat)
    rwa [map_map] at injected
  have apart := (nodup_cons.mp (pointers.nodup_iff.mp distinct)).1
  exact fun item inside same => apart (mem_map.mpr ⟨item, inside, same⟩)

lemma read : refs.find? (fun cell => cell.1 == addr) = some (addr, ref) := by
  have inside : (addr, ref) ∈ refs := by
    have member := holds.perm.mem_iff.mpr mem_cons_self
    simpa using member
  cases found : refs.find? fun cell => cell.1 == addr with
  | none =>
    have missing := find?_eq_none.mp found (addr, ref) inside
    simp at missing
  | some cell =>
    have same := find?_some found
    rw [inj_on_of_nodup_map holds.distinct (mem_of_find?_eq_some found) inside (beq_iff_eq.mp same)]

end

lemma congr (holds : HeapHolds refs owned) (perm : owned.Perm owned') : HeapHolds refs owned' :=
  ⟨holds.distinct, holds.perm.trans perm⟩

end HeapHolds

lemma SubServer.freeAddr_notMem (srv : SubServer) (preferred : Nat) :
    srv.freeAddr preferred ∉ srv.refs.map Prod.fst := by
  unfold SubServer.freeAddr
  split
  · intro member
    have below := le_max?_getD_of_mem (k := 0) member
    omega
  next free => exact free

def TrieHolds (sublist : CmqSublist Nat) (owned : List (Option Nat × CmqSubRef)) : Prop :=
  SublistRun.Inv ⟨sublist, owned.map fun item => (item.2.subject, item.1)⟩

lemma TrieHolds.congr {sublist : CmqSublist Nat} {owned owned' : List (Option Nat × CmqSubRef)}
    (holds : TrieHolds sublist owned) (perm : owned.Perm owned') : TrieHolds sublist owned' :=
  SublistRun.Inv.perm holds (perm.map _)

/-! ## The counters of the accounts -/

def entriesOn (clients : List SubClient) (account : CmqAccount) : Nat :=
  ((clients.filter fun c => c.on account).map fun c => c.subs.length).sum

/-! ## The books -/

/-- What the books hold while a handler works for one client: the references in the heap and in
the trie, and the two counters, each without the entries of the other clients. -/
structure Books (front back : List SubClient) (c : SubClient) (srv : SubServer)
    (cells listed : List (Option Nat × CmqSubRef)) (total charge : Nat) : Prop where
  clients : srv.clients = front ++ c :: back
  heap : HeapHolds srv.refs (cells ++ (front ++ back).flatMap owned)
  trie : TrieHolds srv.sublist (listed ++ (front ++ back).flatMap owned)
  stat : srv.statSubscriptions = total + ((front ++ back).flatMap owned).length
  charged : Charged srv.accounts
    (charging c.accountName c.accountEpoch charge (entriesOn (front ++ back)))

namespace Books

variable {front back : List SubClient} {c : SubClient} {srv : SubServer}
  {cells listed : List (Option Nat × CmqSubRef)} {total charge : Nat} {addr : Nat}
  {ref : CmqSubRef}

lemma freeRef (books : Books front back c srv ((some addr, ref) :: cells) listed total charge) :
    Books front back c (srv.freeRef addr) cells listed total charge :=
  { books with heap := books.heap.free }

section

variable (books : Books front back c srv cells listed total charge)
include books

lemma perm (cellsPerm : cells.Perm cells')
    (listedPerm : listed.Perm listed') : Books front back c srv cells' listed' total charge :=
  { books with
    heap := books.heap.congr (cellsPerm.append_right _)
    trie := books.trie.congr (listedPerm.append_right _) }

lemma insert (ref : CmqSubRef)
    (success : (cmqSublistInsert alloc srv.sublist ref.subject (some addr)).2 = 0) :
    Books front back c
      { srv with sublist := (cmqSublistInsert alloc srv.sublist ref.subject (some addr)).1 }
      cells ((some addr, ref) :: listed) total charge :=
  { books with trie := SublistRun.Inv.insert books.trie success }

lemma insert_failed (failed : (cmqSublistInsert alloc srv.sublist subject (some addr)).2 ≠ 0) :
    (cmqSublistInsert alloc srv.sublist subject (some addr)).1 = srv.sublist :=
  SublistRun.Inv.insert_failed books.trie failed

lemma mallocRef (ref : CmqSubRef) (free : addr ∉ srv.refs.map Prod.fst) :
    Books front back c (srv.mallocRef addr ref) ((some addr, ref) :: cells) listed total
      charge :=
  { books with heap := books.heap.malloc free }

lemma countUp :
    Books front back c { srv with statSubscriptions := srv.statSubscriptions + 1 } cells listed
      (total + 1) charge :=
  { books with stat := by simp only [books.stat]; omega }

lemma credit (points : srv.accounts.PointsTo slot c.accountName)
    (success : (cmqAccountIncSubscriptions srv.accounts slot c.accountEpoch).2 = 0) :
    Books front back c
      { srv with accounts := (cmqAccountIncSubscriptions srv.accounts slot c.accountEpoch).1 }
      cells listed total (charge + 1) :=
  { books with charged := books.charged.inc points success }

lemma deleteAccounts (names : List Bytes) :
    Books front back c (srv.deleteAccounts names) cells listed total charge :=
  { books with charged := books.charged.deleteAll names }

lemma countRejected (n : Nat) :
    Books front back c { srv with statSubscribesRejected := n } cells listed total charge :=
  { books with }

end

lemma remove (books : Books front back c srv cells ((some addr, ref) :: listed) total charge) :
    Books front back c
      { srv with sublist := (cmqSublistRemove srv.sublist ref.subject (some addr)).1 }
      cells listed total charge :=
  { books with trie := SublistRun.Inv.remove books.trie }

lemma dropRef {entry : SubEntry} {owner : Nat}
    (books : Books front back c srv ((entry.ref, entry.refOf owner) :: cells)
      ((entry.ref, entry.refOf owner) :: listed) total charge) :
    Books front back c (srv.dropRef entry) cells listed total charge := by
  obtain ⟨_, pointer⟩ := HeapHolds.exists_addr books.heap
  rw [pointer] at books
  unfold SubServer.dropRef
  rw [pointer]
  exact books.remove.freeRef

lemma countDown (books : Books front back c srv cells listed (total + 1) charge) :
    Books front back c srv.countDown cells listed total charge :=
  { books with stat := by simp only [SubServer.countDown, books.stat]; omega }

section

variable (books : Books front back c srv cells listed total (charge + 1))
include books

lemma debitSlot (points : srv.accounts.PointsTo slot c.accountName)
    (same : session.accountEpoch = c.accountEpoch) :
    Books front back c (srv.debitSlot slot session) cells listed total charge :=
  { books with
    charged := by
      unfold SubServer.debitSlot
      rw [same]
      exact books.charged.dec points }

lemma debitAccount (name : session.accountName = c.accountName)
    (epoch : session.accountEpoch = c.accountEpoch) :
    Books front back c (srv.debitAccount session) cells listed total charge := by
  unfold SubServer.debitAccount
  rw [name]
  split
  next missing => exact { books with charged := books.charged.debit_none missing charge }
  next _ found => exact books.debitSlot (SubAccounts.pointsTo_of_slot? found) epoch

end

end Books

/-! ## The invariant -/

structure SubServer.Inv (srv : SubServer) : Prop where
  ids : (srv.clients.map SubClient.id).Nodup
  lists : ∀ c ∈ srv.clients, c.WellFormed
  heap : HeapHolds srv.refs (srv.clients.flatMap owned)
  trie : TrieHolds srv.sublist (srv.clients.flatMap owned)
  stat : srv.statSubscriptions = (srv.clients.flatMap owned).length
  charged : Charged srv.accounts (entriesOn srv.clients)

/-- The client after a handler is the one before it, apart from its entries and its state. -/
structure SubClient.SameSession (c c' : SubClient) : Prop where
  id : c'.id = c.id
  name : c'.accountName = c.accountName
  epoch : c'.accountEpoch = c.accountEpoch

lemma flatMap_owned_middle (front back : List SubClient) (c : SubClient) :
    ((front ++ c :: back).flatMap owned).Perm (c.owned ++ (front ++ back).flatMap owned) := by
  have split : (front ++ c :: back).Perm (c :: (front ++ back)) := perm_middle
  simpa using split.flatMap_right owned

lemma charging_entriesOn (c : SubClient) :
    charging c.accountName c.accountEpoch c.subs.length (entriesOn (front ++ back)) =
      entriesOn (front ++ c :: back) := by
  funext account
  unfold entriesOn
  simp only [filter_append, filter_cons, map_append, sum_append]
  change (if c.on account then c.subs.length else 0) + _ = _
  dsimp only
  split
  · simp only [map_cons, sum_cons]
    omega
  omega

namespace SubServer

variable {srv : SubServer} {front back : List SubClient} {c : SubClient}

lemma Inv.books (inv : srv.Inv) (split : srv.clients = front ++ c :: back) :
    Books front back c srv c.owned c.owned c.subs.length c.subs.length where
  clients := split
  heap := inv.heap.congr (split ▸ flatMap_owned_middle front back c)
  trie := inv.trie.congr (split ▸ flatMap_owned_middle front back c)
  stat := by
    rw [inv.stat, split, (flatMap_owned_middle front back c).length_eq]
    simp [owned]
  charged := by
    rw [charging_entriesOn, ← split]
    exact inv.charged

lemma putClient_clients (split : srv.clients = front ++ c :: back)
    (ids : (srv.clients.map SubClient.id).Nodup) (same : c'.id = c.id) :
    (srv.putClient c').clients = front ++ c' :: back := by
  rw [split, map_append] at ids
  have apart := (nodup_cons.mp (perm_middle.nodup_iff.mp ids)).1
  rw [← map_append, mem_map, not_exists] at apart
  have kept : ∀ part : List SubClient, (∀ other ∈ part, other ∈ front ++ back) →
      part.map (fun other => if other.id = c'.id then c' else other) = part := by
    intro part inside
    refine (map_congr_left fun other member => if_neg fun equal => ?_).trans (map_id _)
    exact apart other ⟨inside other member, equal.trans same⟩
  simp only [putClient, split, map_append, map_cons, same, if_true]
  rw [← same, kept front fun other member => mem_append_left _ member,
    kept back fun other member => mem_append_right _ member]

lemma Inv.of_books (inv : srv.Inv) (split : srv.clients = front ++ c :: back)
    (books : Books front back c srv' c'.owned c'.owned c'.subs.length c'.subs.length)
    (session : c.SameSession c') (wellFormed : c'.WellFormed) : (srv'.putClient c').Inv := by
  have ids := inv.ids
  rw [split, ← books.clients] at ids
  have clients := putClient_clients books.clients ids session.id
  constructor
  · rw [clients]
    rw [books.clients] at ids
    simpa only [map_append, map_cons, session.id] using ids
  · intro other member
    rw [clients] at member
    rcases mem_cons.mp (perm_middle.mem_iff.mp member) with rfl | member
    · exact wellFormed
    refine inv.lists other ?_
    rw [split]
    exact perm_middle.mem_iff.mpr (mem_cons_of_mem _ member)
  · rw [clients]
    exact books.heap.congr (flatMap_owned_middle front back c').symm
  · rw [clients]
    exact books.trie.congr (flatMap_owned_middle front back c').symm
  · rw [clients, (flatMap_owned_middle front back c').length_eq, length_append, owned, length_map]
    exact books.stat
  rw [clients, ← charging_entriesOn, session.name, session.epoch]
  exact books.charged

end SubServer

end CMsgQueue.Server
