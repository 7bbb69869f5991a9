import CMsgQueue.Server.IdmapSpec

/-!
# Calls of the id map

Every call returns and answers as the map that the table represents.  A put that needs a larger
table and does not get it changes nothing.
-/

namespace CMsgQueue.Server

open Option Function Probe

universe u

variable {γ : Type u}

namespace CmqIdmap

variable {m : CmqIdmap γ} {map : UInt32 → Option γ} {id : UInt32} {c : γ}

/-! ## The calls -/

lemma half_pow {cap : Nat} (bits : ∃ n, cap = 2 ^ n) (above : cap > 16) :
    ∃ k, cap / 2 = 2 ^ k ∧ 16 ≤ cap / 2 ∧ cap = 2 * (cap / 2) := by
  obtain ⟨n, rfl⟩ := bits
  cases n with
  | zero => omega
  | succ k =>
    refine ⟨k, by omega, ?_, by omega⟩
    by_contra small
    have few : k < 4 := by
      by_contra many
      have grows : 2 ^ 4 ≤ 2 ^ k := Nat.pow_le_pow_right (by decide) (by omega)
      omega
    have bounded : 2 ^ k ≤ 2 ^ 3 := Nat.pow_le_pow_right (by decide) (by omega)
    omega

section

variable (rep : m.Rep map)
include rep

lemma Rep.invalid (invalid : ¬ validId id) : map id = none := by
  cases found : map id with
  | none => rfl
  | some c =>
    obtain ⟨i, -, full⟩ := (rep.holds.mem_iff id c).mp found
    exact absurd (slot_eq_full.mp full).1 invalid

lemma Rep.findLoop (valid : validId id) (d : Nat) (below : d < m.cap)
    (passed : ∀ e < d, Passes id (m.slot (visit m.cap (idHash id) e))) (enough : m.cap ≤ d + fuel) :
    (∃ i c, m.findLoop id (m.first id) fuel (visit m.cap (idHash id) d) = some (some i) ∧
        i < m.cap ∧ m.key i = id ∧ m.val i = some c ∧ map id = some c) ∨
      (m.findLoop id (m.first id) fuel (visit m.cap (idHash id) d) = some none ∧
        map id = none) := by
  induction fuel generalizing d with
  | zero => omega
  | succ fuel ih =>
    have inside := visit_lt rep.positive (idHash id) d
    rw [CmqIdmap.findLoop]
    by_cases zero : m.key (visit m.cap (idHash id) d) = 0
    · rw [if_pos zero]
      exact .inr ⟨rfl, rep.holds.absent passed (.inr (slot_eq_empty.mpr zero))⟩
    rw [if_neg zero]
    by_cases here : m.key (visit m.cap (idHash id) d) = id
    · rw [if_pos here]
      obtain ⟨c, value, full⟩ := rep.toShape.slot_full inside valid here
      exact .inl ⟨_, c, rfl, inside, here, value, (rep.holds.mem_iff id c).mpr ⟨_, inside, full⟩⟩
    rw [if_neg here, rep.toShape.next_eq, rep.toShape.first_eq]
    have passed' := Nat.forall_lt_succ_right.mpr ⟨passed, passes_of_ne zero here⟩
    by_cases last : d + 1 = m.cap
    · have around : visit m.cap (idHash id) (d + 1) = visit m.cap (idHash id) 0 := by
        rw [last, visit, visit, Nat.add_mod_right, Nat.add_zero]
      rw [if_pos around]
      exact .inr ⟨rfl, rep.holds.absent passed' (.inl last)⟩
    have notAround : visit m.cap (idHash id) (d + 1) ≠ visit m.cap (idHash id) 0 := by
      intro same
      have congruent : d + 1 ≡ 0 [MOD m.cap] := Nat.ModEq.add_left_cancel' _ same
      have equal := congruent.eq_of_lt_of_lt (by omega) rep.positive
      omega
    rw [if_neg notAround, ← rep.toShape.first_eq]
    exact ih (d + 1) (by omega) passed' (by omega)

lemma Rep.find (valid : validId id) :
    (∃ i c, m.findLoop id (m.first id) m.cap (m.first id) = some (some i) ∧
        i < m.cap ∧ m.key i = id ∧ m.val i = some c ∧ map id = some c) ∨
      (m.findLoop id (m.first id) m.cap (m.first id) = some none ∧ map id = none) := by
  have found := rep.findLoop valid 0 rep.positive (fun _ none => absurd none (Nat.not_lt_zero _))
    (le_of_eq (Nat.zero_add m.cap).symm)
  rw [← rep.toShape.first_eq] at found
  exact found

lemma Rep.get (id : UInt32) : m.cmqIdmapGet id = some (map id) := by
  have notEmpty := rep.positive
  rw [cmqIdmapGet]
  by_cases valid : validId id
  · rw [if_neg (by rw [not_or, not_or]; exact ⟨by omega, valid.1, valid.2⟩)]
    rcases rep.find valid with ⟨i, c, found, -, -, value, is⟩ | ⟨found, is⟩
    · rw [found, is]
      simp [value]
    rw [found, is]
    rfl
  rw [if_pos (.inr (not_validId.mp valid)), rep.invalid valid]

lemma Rep.shrink (alloc : Bool) : ∃ m', m.shrink alloc = some m' ∧ m'.Rep map := by
  rw [CmqIdmap.shrink]
  by_cases small : m.tombs > m.cap / 4 ∧ m.live * 4 < m.cap ∧ m.cap > 16
  · rw [if_pos small]
    cases alloc with
    | false => exact ⟨m, rfl, rep⟩
    | true =>
      obtain ⟨k, half, large, _⟩ := half_pow rep.bits small.2.2
      obtain ⟨m', rehashed, shape, cap, tombs, live, holds⟩ :=
        rep.toShape.rehash rep.holds _ half (by omega)
      refine ⟨m', by rw [rehashed]; rfl, shape, ?_, ?_, holds⟩
      · rw [cap]
        exact large
      rw [live]
      omega
  rw [if_neg small]
  exact ⟨m, rfl, rep⟩

lemma Rep.bury (inside : i < m.cap) (valid : validId id) (here : m.key i = id)
    (value : m.val i = some c) : (m.bury i).Rep (update map id none) := by
  have livePos := rep.toShape.live_pos inside (here ▸ valid)
  have room := rep.room
  refine ⟨rep.toShape.bury inside (here ▸ valid), rep.large, ?_, ?_⟩
  · dsimp only [CmqIdmap.bury, store]
    omega
  have slots : (m.bury i).slot = update m.slot i .tomb :=
    rep.toShape.slot_store inside cmqIdmapTomb none
  rw [slots]
  exact rep.holds.erase inside (slot_eq_full.mpr ⟨valid, here, value⟩)

lemma Rep.del (id : UInt32) (alloc : Bool) :
    ∃ m', m.cmqIdmapDel id alloc = some m' ∧ m'.Rep (update map id none) := by
  have notEmpty := rep.positive
  have unchanged : map id = none → m.Rep (update map id none) := by
    intro absent
    rw [← absent, update_eq_self]
    exact rep
  rw [cmqIdmapDel]
  by_cases valid : validId id
  · rw [if_neg (by rw [not_or, not_or]; exact ⟨by omega, valid.1, valid.2⟩)]
    rcases rep.find valid with ⟨i, c, found, inside, here, value, -⟩ | ⟨found, absent⟩
    · rw [found]
      exact (rep.bury inside valid here value).shrink alloc
    rw [found]
    exact ⟨m, rfl, unchanged absent⟩
  rw [if_pos (.inr (not_validId.mp valid))]
  exact ⟨m, rfl, unchanged (rep.invalid valid)⟩

end

lemma idmapCapLoop_pow {cap fuel c c' : Nat} (found : idmapCapLoop cap fuel c = some c')
    (large : 16 ≤ c) (bits : ∃ n, c = 2 ^ n) : 16 ≤ c' ∧ ∃ n, c' = 2 ^ n := by
  induction fuel generalizing c with
  | zero => cases found
  | succ fuel ih =>
    rw [idmapCapLoop] at found
    split at found
    · split at found
      · cases found
      obtain ⟨n, rfl⟩ := bits
      exact ih found (by omega) ⟨n + 1, (Nat.pow_succ ..).symm⟩
    cases found
    exact ⟨large, bits⟩

lemma rep_create {cap : Nat} {alloc : Bool} (created : cmqIdmapCreate cap alloc = some m) :
    m.Rep fun _ => none := by
  unfold cmqIdmapCreate at created
  dsimp only at created
  split at created
  · cases created
  next c found =>
  obtain ⟨large, n, bits⟩ := idmapCapLoop_pow found (le_refl _) ⟨4, rfl⟩
  split at created
  · cases created
  cases created
  exact ⟨shape_replicate bits, large, by dsimp only; omega, holds_replicate c⟩

variable [DecidableEq γ]

/-- What `cmq_idmap_put` does once there is room: an id in use stays, a new one is stored. -/
def PutOutcome (m : CmqIdmap γ) (map : UInt32 → Option γ) (id : UInt32) (c : γ)
    (result : Option (CmqIdmap γ × Int)) : Prop :=
  (∃ other, map id = some other ∧ result = some (m, if other = c then 0 else -1)) ∨
    (map id = none ∧ ∃ m', result = some (m', 0) ∧ m'.Rep (update map id (some c)))

/-- The loop of `cmq_idmap_put` ends at the id or at the empty slot at `stop`; a tombstone seen
on the way is used for a new id. -/
lemma Rep.putLoop (rep : m.Rep map) (room : (m.live + m.tombs + 1) * 2 < m.cap)
    (valid : validId id) (c : γ) (stopBelow : stop < m.cap)
    (atStop : m.key (visit m.cap (idHash id) stop) = 0)
    (beforeStop : ∀ e < stop, m.key (visit m.cap (idHash id) e) ≠ 0) (d : Nat) (tomb : Option Nat)
    (dStop : d ≤ stop) (passed : ∀ e < d, Passes id (m.slot (visit m.cap (idHash id) e)))
    (isTomb : ∀ j ∈ tomb, ∃ e < d, visit m.cap (idHash id) e = j ∧ m.key j = cmqIdmapTomb)
    (enough : stop < d + fuel) :
    PutOutcome m map id c (m.putLoop id c fuel (visit m.cap (idHash id) d) tomb) := by
  induction fuel generalizing d tomb with
  | zero => omega
  | succ fuel ih =>
    have inside := visit_lt rep.positive (idHash id) d
    rw [CmqIdmap.putLoop]
    by_cases here : m.key (visit m.cap (idHash id) d) = id
    · rw [if_pos here]
      obtain ⟨other, value, full⟩ := rep.toShape.slot_full inside valid here
      refine .inl ⟨other, (rep.holds.mem_iff id other).mpr ⟨_, inside, full⟩, ?_⟩
      rw [value]
      simp only [Option.some.injEq]
    rw [if_neg here]
    by_cases zero : m.key (visit m.cap (idHash id) d) = 0
    · -- The end of the search: the id is not in the map.
      have absent : map id = none := rep.holds.absent passed (.inr (slot_eq_empty.mpr zero))
      rw [if_neg (by rw [zero]; decide), if_pos zero]
      refine .inr ⟨absent, _, rfl, ?_⟩
      obtain ⟨e, eBelow, _, vacant, place⟩ : ∃ e < m.cap, e ≤ d ∧
          ¬ validId (m.key (visit m.cap (idHash id) e)) ∧
          tomb.getD (visit m.cap (idHash id) d) = visit m.cap (idHash id) e := by
        cases tomb with
        | none => exact ⟨d, by omega, le_refl _, by rw [zero]; decide, getD_none⟩
        | some j =>
          obtain ⟨e, before, rfl, isTomb⟩ := isTomb j rfl
          exact ⟨e, by omega, le_of_lt before, by rw [isTomb]; decide, getD_some⟩
      rw [place]
      have eInside := visit_lt rep.positive (idHash id) e
      have filled := rep.toShape.holds_fill rep.holds absent eBelow
        (fun e' before => beforeStop e' (by omega)) vacant valid c
      refine ⟨rep.toShape.fill eInside vacant valid c, rep.large, ?_, ?_⟩
      · dsimp only [CmqIdmap.fill, store]
        split
        next isTomb => omega
        omega
      exact filled
    have notStop : d ≠ stop := fun same => zero (same ▸ atStop)
    have passed' := Nat.forall_lt_succ_right.mpr ⟨passed, passes_of_ne zero here⟩
    by_cases isTombHere : m.key (visit m.cap (idHash id) d) = cmqIdmapTomb
    · rw [if_pos isTombHere, rep.toShape.next_eq]
      refine ih (d + 1) _ (by omega) passed' (fun j is => ?_) (by omega)
      cases tomb with
      | none =>
        rw [none_or, mem_some_iff] at is
        exact ⟨d, Nat.lt_succ_self d, is, is ▸ isTombHere⟩
      | some k =>
        obtain ⟨e, before, place⟩ := isTomb j is
        exact ⟨e, Nat.lt_succ_of_lt before, place⟩
    rw [if_neg isTombHere, if_neg zero, rep.toShape.next_eq]
    refine ih (d + 1) tomb (by omega) passed' (fun j is => ?_) (by omega)
    obtain ⟨e, before, place⟩ := isTomb j is
    exact ⟨e, Nat.lt_succ_of_lt before, place⟩

lemma Rep.putRoom (rep : m.Rep map) (room : (m.live + m.tombs + 1) * 2 < m.cap)
    (valid : validId id) (c : γ) :
    PutOutcome m map id c (m.putLoop id c m.cap (m.first id) none) := by
  obtain ⟨_, below, here, before⟩ := rep.toShape.exists_empty (by omega) (idHash id)
  rw [rep.toShape.first_eq]
  exact rep.putLoop room valid c below here before 0 none (Nat.zero_le _)
    (fun _ none => absurd none (Nat.not_lt_zero _)) (by simp) (by omega)

/-- What `cmq_idmap_put` may answer.  It fails for an id or a client that is none, for an id that
another client has, and if the table has to grow and cannot. -/
def PutAnswers (m : CmqIdmap γ) (map : UInt32 → Option γ) (id : UInt32) (c : Option γ)
    (alloc : Bool) (status : Int) : Prop :=
  (status = 0 ∧ validId id ∧ c ≠ none ∧ (map id = none ∨ map id = c)) ∨
    (status = -1 ∧ (¬ validId id ∨ c = none ∨ (map id ≠ none ∧ map id ≠ c) ∨ alloc = false ∨
      m.cap > sizeMax / 16))

/-- The map after `cmq_idmap_put`. -/
def afterPut (map : UInt32 → Option γ) (id : UInt32) (c : Option γ) (status : Int) :
    UInt32 → Option γ :=
  if status = 0 then update map id c else map

lemma Rep.of_outcome (rep : m.Rep map) (valid : validId id)
    (outcome : PutOutcome m map id c result) :
    ∃ m' status, result = some (m', status) ∧ PutAnswers m₀ map id (some c) alloc status ∧
      m'.Rep (afterPut map id (some c) status) := by
  rcases outcome with ⟨other, bound, rfl⟩ | ⟨absent, m', rfl, rep'⟩
  · by_cases same : other = c
    · subst same
      rw [if_pos rfl]
      refine ⟨m, 0, rfl, .inl ⟨rfl, valid, nofun, .inr bound⟩, ?_⟩
      rw [afterPut, ← bound, update_eq_self]
      exact rep
    rw [if_neg same]
    refine ⟨m, -1, rfl, .inr ⟨rfl, .inr (.inr (.inl ⟨?_, ?_⟩))⟩, ?_⟩
    · rw [bound]
      exact nofun
    · rw [bound]
      exact fun eq => same (Option.some.inj eq)
    rw [afterPut]
    exact rep
  exact ⟨m', 0, rfl, .inl ⟨rfl, valid, nofun, .inl absent⟩, by
    exact rep'⟩

lemma Rep.put (rep : m.Rep map) (id : UInt32) (c : Option γ) (alloc : Bool) :
    ∃ m' status, m.cmqIdmapPut id c alloc = some (m', status) ∧
      PutAnswers m map id c alloc status ∧ m'.Rep (afterPut map id c status) := by
  have refusing : afterPut map id c (-1) = map := by rw [afterPut, if_neg (by decide)]
  have failed : (¬ validId id ∨ c = none ∨ (map id ≠ none ∧ map id ≠ c) ∨ alloc = false ∨
      m.cap > sizeMax / 16) → ∃ m' status, some (m, (-1 : Int)) = some (m', status) ∧
        PutAnswers m map id c alloc status ∧ m'.Rep (afterPut map id c status) := by
    intro reason
    exact ⟨m, -1, rfl, .inr ⟨rfl, reason⟩, by rw [refusing]; exact rep⟩
  cases c with
  | none => exact failed (.inr (.inl rfl))
  | some c =>
    dsimp only [cmqIdmapPut]
    by_cases valid : validId id
    · rw [if_neg (by rw [not_or]; exact valid)]
      by_cases full : (m.live + m.tombs + 1) * 2 ≥ m.cap
      · rw [if_pos full]
        by_cases huge : m.cap > sizeMax / 16
        · have refused := failed (.inr (.inr (.inr (.inr huge))))
          split
          · exact refused
          rw [if_pos (by unfold sizeMax at huge ⊢; omega)]
          exact refused
        rw [if_neg (by unfold sizeMax at huge ⊢; omega),
          if_neg (by unfold sizeMax at huge ⊢; omega)]
        cases alloc with
        | false => exact failed (.inr (.inr (.inr (.inl rfl))))
        | true =>
          obtain ⟨n, bits⟩ := rep.bits
          have room := rep.room
          have large := rep.large
          obtain ⟨m', rehashed, shape, cap, tombs, live, holds⟩ :=
            rep.toShape.rehash rep.holds (m.cap * 2) (n := n + 1)
              (by rw [bits, Nat.pow_succ]) (by omega)
          have rep' : m'.Rep map := ⟨shape, by omega, by omega, holds⟩
          rw [rehashed]
          exact rep'.of_outcome valid (rep'.putRoom (by omega) valid c)
      rw [if_neg full]
      exact rep.of_outcome valid (rep.putRoom (by omega) valid c)
    have refused : id = 0 ∨ id = cmqIdmapTomb := by
      by_contra neither
      exact valid (not_or.mp neither)
    rw [if_pos refused]
    exact failed (.inl valid)

end CmqIdmap

/-! ## Sequences of calls -/

variable [DecidableEq γ]

def IdmapOp.Answers (m : CmqIdmap γ) (map : UInt32 → Option γ) : IdmapOp γ → IdmapAnswer γ → Prop
  | .put id c alloc, .status code => CmqIdmap.PutAnswers m map id c alloc code
  | .get id, .client c => c = map id
  | .del _ _, .done => True
  | _, _ => False

/-- The map after a call: a put that succeeds binds its id, a del removes it. -/
def IdmapOp.effect (map : UInt32 → Option γ) : IdmapOp γ → IdmapAnswer γ → UInt32 → Option γ
  | .put id c _, .status code => CmqIdmap.afterPut map id c code
  | .del id _, _ => update map id none
  | _, _ => map

/-- A table behaves as a map in a sequence of calls: every call returns, with the answer of the
map. -/
def CmqIdmap.Behaves (m : CmqIdmap γ) (map : UInt32 → Option γ) : List (IdmapOp γ) → Prop
  | [] => True
  | op :: ops => ∃ m' answer, m.call op = some (m', answer) ∧ IdmapOp.Answers m map op answer ∧
      m'.Behaves (op.effect map answer) ops

namespace CmqIdmap

variable {m : CmqIdmap γ} {map : UInt32 → Option γ}

lemma Rep.call (rep : m.Rep map) (op : IdmapOp γ) :
    ∃ m' answer, m.call op = some (m', answer) ∧ IdmapOp.Answers m map op answer ∧
      m'.Rep (op.effect map answer) := by
  cases op with
  | put id c alloc =>
    obtain ⟨m', status, put, answers, rep'⟩ := rep.put id c alloc
    exact ⟨m', .status status, by rw [CmqIdmap.call, put]; rfl, answers, rep'⟩
  | get id => exact ⟨m, .client (map id), by rw [CmqIdmap.call, rep.get]; rfl, rfl, rep⟩
  | del id alloc =>
    obtain ⟨m', del, rep'⟩ := rep.del id alloc
    exact ⟨m', .done, by rw [CmqIdmap.call, del]; rfl, trivial, rep'⟩

lemma Rep.behaves (rep : m.Rep map) (ops : List (IdmapOp γ)) : m.Behaves map ops := by
  induction ops generalizing m map with
  | nil => trivial
  | cons op ops ih =>
    obtain ⟨m', answer, called, answers, rep'⟩ := rep.call op
    exact ⟨m', answer, called, answers, ih rep'⟩

/-- A new table of any capacity behaves as a map in every sequence of calls, whatever
allocations fail. -/
theorem create_behaves (cap : Nat) (alloc : Bool) (created : cmqIdmapCreate cap alloc = some m)
    (ops : List (IdmapOp γ)) : m.Behaves (fun _ => none) ops :=
  (rep_create created).behaves ops

theorem create_behaves_twice :
    ∃ m : CmqIdmap Nat, cmqIdmapCreate 3 true = some m ∧
      m.Behaves (fun _ => none) [.put 5 (some 1) true, .put 5 (some 2) true, .get 5, .del 5 true,
        .get 5] :=
  ⟨⟨List.replicate 16 0, List.replicate 16 none, 16, 0, 0⟩, rfl, create_behaves 3 true rfl _⟩

/-- After any calls less than half of the slots are in use, so that a search comes to an empty one.
The capacity is a power of two and the number of slots, `live` is the number of ids and `tombs`
that of the deleted ones. -/
theorem create_half_full (cap : Nat) (alloc : Bool) (ops : List (IdmapOp γ)) :
    match cmqIdmapCreate cap alloc with
    | none => True
    | some m => ∃ m', ops.foldlM (fun m op => (m.call op).map Prod.fst) m = some m' ∧
        (m'.live + m'.tombs) * 2 < m'.cap ∧ m'.live = liveCount m'.keys ∧
        m'.tombs = m'.keys.count cmqIdmapTomb ∧ m'.keys.length = m'.cap ∧ ∃ n, m'.cap = 2 ^ n := by
  split
  · trivial
  next m created =>
  have rep := rep_create created
  generalize (fun _ => none : UInt32 → Option γ) = map at rep
  clear created
  induction ops generalizing m map with
  | nil => exact ⟨m, rfl, rep.room, rep.live, rep.tombs, rep.keys, rep.bits⟩
  | cons op ops ih =>
    obtain ⟨m', _, called, -, rep'⟩ := rep.call op
    rw [List.foldlM_cons, called]
    exact ih m' _ rep'

end CmqIdmap

end CMsgQueue.Server
