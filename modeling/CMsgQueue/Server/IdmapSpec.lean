import Mathlib.Data.Nat.Find
import CMsgQueue.Server.Idmap

/-!
# The id map is a partial map

`CmqIdmap.Rep` says that a table represents a partial map from ids to clients.  An empty slot is
always left, so that every search ends.
-/

namespace CMsgQueue.Server

open Function List Probe

universe u

variable {γ : Type u}

def validId (id : UInt32) : Prop := id ≠ 0 ∧ id ≠ cmqIdmapTomb

instance (id : UInt32) : Decidable (validId id) := inferInstanceAs (Decidable (_ ∧ _))

lemma not_validId {id : UInt32} : ¬ validId id ↔ id = 0 ∨ id = cmqIdmapTomb := by
  rw [validId, not_and_or, ne_eq, ne_eq, not_not, not_not]

def slotOf (k : UInt32) (v : Option γ) : Slot UInt32 γ :=
  if k = 0 then .empty
  else if k = cmqIdmapTomb then .tomb
  else
    match v with
    | none => .tomb
    | some c => .full k c

def idHash (id : UInt32) : Nat := (cmqIdmapHash id).toNat

def liveCount (keys : List UInt32) : Nat := keys.countP fun k => decide (validId k)

namespace CmqIdmap

def slot (m : CmqIdmap γ) (i : Nat) : Slot UInt32 γ := slotOf (m.key i) (m.val i)

/-- The arrays have the capacity of the table, a power of two, and the counters count. -/
structure Shape (m : CmqIdmap γ) : Prop where
  bits : ∃ n, m.cap = 2 ^ n
  positive : 0 < m.cap
  keys : m.keys.length = m.cap
  vals : m.vals.length = m.cap
  live : m.live = liveCount m.keys
  tombs : m.tombs = m.keys.count cmqIdmapTomb
  bound : ∀ i < m.cap, validId (m.key i) → (m.val i).isSome = true

structure Rep (m : CmqIdmap γ) (map : UInt32 → Option γ) : Prop extends Shape m where
  large : 16 ≤ m.cap
  room : (m.live + m.tombs) * 2 < m.cap
  holds : Holds m.cap idHash m.slot map

variable {m : CmqIdmap γ} {map : UInt32 → Option γ} {id : UInt32} {c : γ} {i j d : Nat}

/-! ## Slots -/

lemma slotOf_eq_empty : slotOf k v = .empty ↔ k = 0 := by
  unfold slotOf
  constructor
  · intro empty
    by_contra nonzero
    rw [if_neg nonzero] at empty
    split at empty
    · cases empty
    cases v <;> cases empty
  exact fun zero => if_pos zero

lemma slotOf_valid (valid : validId id) (c : γ) : slotOf id (some c) = .full id c := by
  rw [slotOf, if_neg valid.1, if_neg valid.2]

lemma slotOf_eq_full : slotOf k v = .full id c ↔ validId id ∧ k = id ∧ v = some c := by
  constructor
  · intro full
    unfold slotOf at full
    split at full
    · cases full
    next nonzero =>
    split at full
    · cases full
    next notTomb =>
    cases v with
    | none => cases full
    | some c =>
      cases full
      exact ⟨⟨nonzero, notTomb⟩, rfl, rfl⟩
  rintro ⟨valid, rfl, rfl⟩
  exact slotOf_valid valid c

lemma slot_eq_empty : m.slot i = .empty ↔ m.key i = 0 := slotOf_eq_empty

lemma slot_eq_full : m.slot i = .full id c ↔ validId id ∧ m.key i = id ∧ m.val i = some c :=
  slotOf_eq_full

lemma passes_of_ne (nonempty : m.key i ≠ 0) (other : m.key i ≠ id) : Passes id (m.slot i) :=
  ⟨fun empty => nonempty (slot_eq_empty.mp empty), fun _ full => other (slot_eq_full.mp full).2.1⟩

lemma Shape.slot_full (shape : m.Shape) (inside : i < m.cap) (valid : validId id)
    (here : m.key i = id) : ∃ c, m.val i = some c ∧ m.slot i = .full id c := by
  obtain ⟨c, value⟩ := Option.isSome_iff_exists.mp (shape.bound i inside (here ▸ valid))
  exact ⟨c, value, slot_eq_full.mpr ⟨valid, here, value⟩⟩

lemma getD_set {α : Type _} {values : List α} (inside : i < values.length) (a d : α) :
    ((values.set i a).getD · d) = update (values.getD · d) i a := by
  funext j
  by_cases here : j = i
  · subst here
    rw [update_self, getD_eq_getElem?_getD, getElem?_set_self inside]
    rfl
  rw [update_of_ne here, getD_eq_getElem?_getD,
    getElem?_set_ne (Ne.symm here), getD_eq_getElem?_getD]

lemma key_store (m : CmqIdmap γ) (inside : i < m.keys.length) (id : UInt32) (v : Option γ) :
    (m.store i id v).key = update m.key i id :=
  getD_set inside id 0

lemma val_store (m : CmqIdmap γ) (inside : i < m.vals.length) (id : UInt32) (v : Option γ) :
    (m.store i id v).val = update m.val i v :=
  getD_set inside v none

lemma liveCount_add (keys : List UInt32) :
    liveCount keys + keys.count cmqIdmapTomb + keys.count 0 = keys.length := by
  induction keys with
  | nil => rfl
  | cons k keys ih =>
    unfold liveCount at ih ⊢
    rw [countP_cons, count_cons, count_cons, length_cons]
    by_cases zero : k = 0
    · rw [if_neg (by simp [zero, validId]), if_neg (by rw [zero]; decide), if_pos (by simp [zero])]
      omega
    by_cases tomb : k = cmqIdmapTomb
    · rw [if_neg (by simp [tomb, validId]), if_pos (by simp [tomb]), if_neg (by simp [zero])]
      omega
    rw [if_pos (by simp [validId, zero, tomb]), if_neg (by simp [tomb]), if_neg (by simp [zero])]
    omega

lemma getElem_keys (inside : i < m.keys.length) : m.keys[i] = m.key i := by
  rw [key, getD_eq_getElem?_getD, getElem?_eq_getElem inside]
  rfl

lemma shape_replicate (bits : ncap = 2 ^ n) :
    Shape (⟨List.replicate ncap 0, List.replicate ncap none, ncap, 0, 0⟩ : CmqIdmap γ) where
  bits := ⟨n, bits⟩
  positive := by
    rw [bits]
    exact Nat.two_pow_pos n
  keys := length_replicate
  vals := length_replicate
  live := by
    rw [liveCount, countP_eq_zero.mpr]
    intro k inside
    rw [eq_of_mem_replicate inside]
    decide
  tombs := by
    rw [count_eq_zero.mpr]
    intro inside
    have zero := eq_of_mem_replicate inside
    revert zero
    decide
  bound := by
    intro i inside valid
    rw [key, getD_eq_getElem?_getD, getElem?_replicate] at valid
    rw [if_pos inside] at valid
    exact absurd rfl valid.1

lemma holds_replicate (ncap : Nat) :
    Holds ncap idHash (⟨List.replicate ncap 0, List.replicate ncap none, ncap, 0, 0⟩ :
      CmqIdmap γ).slot fun _ => none := by
  have emptySlots : ∀ i, (⟨List.replicate ncap 0, List.replicate ncap none, ncap, 0, 0⟩ :
      CmqIdmap γ).slot i = .empty := by
    intro i
    rw [slot_eq_empty, key, getD_eq_getElem?_getD, getElem?_replicate]
    split <;> rfl
  rw [funext emptySlots]
  exact holds_empty _ _

section

variable (shape : m.Shape)
include shape

lemma Shape.slot_store (inside : i < m.cap) (id : UInt32) (v : Option γ) :
    (m.store i id v).slot = update m.slot i (slotOf id v) := by
  funext j
  unfold slot
  rw [key_store m (shape.keys ▸ inside), val_store m (shape.vals ▸ inside)]
  by_cases here : j = i
  · subst here
    rw [update_self, update_self, update_self]
  rw [update_of_ne here, update_of_ne here, update_of_ne here]

/-! ## Searches -/

lemma Shape.first_eq (id : UInt32) : m.first id = visit m.cap (idHash id) 0 := by
  obtain ⟨n, bits⟩ := shape.bits
  rw [first, bits, Nat.and_two_pow_sub_one_eq_mod, visit, Nat.add_zero, idHash]

lemma Shape.next_eq (start d : Nat) :
    m.next (visit m.cap start d) = visit m.cap start (d + 1) := by
  obtain ⟨n, bits⟩ := shape.bits
  rw [next, bits, Nat.and_two_pow_sub_one_eq_mod]
  simp [visit, Nat.add_assoc]

lemma Shape.exists_empty (room : m.live + m.tombs < m.cap) (start : Nat) :
    ∃ d < m.cap, m.key (visit m.cap start d) = 0 ∧ ∀ e < d, m.key (visit m.cap start e) ≠ 0 := by
  have total := liveCount_add m.keys
  rw [← shape.live, ← shape.tombs, shape.keys] at total
  have some_ : 0 < m.keys.count 0 := by omega
  obtain ⟨i, inside, zero⟩ := mem_iff_getElem.mp (count_pos_iff.mp some_)
  have here : m.key i = 0 := by
    rw [key, getD_eq_getElem?_getD, getElem?_eq_getElem inside, zero]
    rfl
  obtain ⟨d, below, place⟩ := exists_visit (shape.keys ▸ inside) start
  have exists_ : ∃ d, d < m.cap ∧ m.key (visit m.cap start d) = 0 :=
    ⟨d, below, by rw [place]; exact here⟩
  classical
  refine ⟨Nat.find exists_, (Nat.find_spec exists_).1, (Nat.find_spec exists_).2,
    fun e before zero => ?_⟩
  exact Nat.find_min exists_ before ⟨Nat.lt_trans before (Nat.find_spec exists_).1, zero⟩

lemma Shape.emptyLoop_eq (here : m.key (visit m.cap start d) = 0)
    (before : ∀ e < d, m.key (visit m.cap start e) ≠ 0) (k : Nat) (from_ : k ≤ d)
    (enough : d < k + fuel) :
    m.emptyLoop fuel (visit m.cap start k) = some (visit m.cap start d) := by
  induction fuel generalizing k with
  | zero => omega
  | succ fuel ih =>
    rw [emptyLoop]
    by_cases arrived : k = d
    · rw [arrived, if_pos here]
    rw [if_neg (before k (by omega)), shape.next_eq]
    exact ih (k + 1) (by omega) (by omega)

/-! ## Writing slots -/

lemma Shape.live_pos (inside : i < m.cap) (valid : validId (m.key i)) : 0 < m.live := by
  rw [shape.live]
  refine countP_pos_iff.mpr ⟨m.key i, ?_, by simpa using valid⟩
  rw [← getElem_keys (shape.keys ▸ inside)]
  exact getElem_mem _

lemma Shape.stored (inside : i < m.cap) {v : Option γ} {live tombs : Nat}
    (bound : validId id → v.isSome = true) (lives : live = liveCount (m.keys.set i id))
    (buried : tombs = (m.keys.set i id).count cmqIdmapTomb) :
    Shape { m.store i id v with live, tombs } where
  bits := shape.bits
  positive := shape.positive
  keys := by simpa [CmqIdmap.store] using shape.keys
  vals := by simpa [CmqIdmap.store] using shape.vals
  live := lives
  tombs := buried
  bound := by
    intro j below validKey
    change ((m.store i id v).val j).isSome = true
    change validId ((m.store i id v).key j) at validKey
    rw [val_store m (shape.vals ▸ inside)]
    rw [key_store m (shape.keys ▸ inside)] at validKey
    by_cases here : j = i
    · rw [here, update_self] at validKey ⊢
      exact bound validKey
    rw [update_of_ne here] at validKey ⊢
    exact shape.bound j below validKey

lemma Shape.fill (inside : i < m.cap) (vacant : ¬ validId (m.key i)) (valid : validId id)
    (c : γ) : (m.fill i id c).Shape := by
  refine shape.stored inside (fun _ => rfl) ?_ ?_
  · rw [liveCount, countP_set (shape.keys ▸ inside), getElem_keys (shape.keys ▸ inside),
      if_neg (by simpa using vacant), if_pos (by simpa using valid), shape.live]
    rfl
  rw [count_set (shape.keys ▸ inside), getElem_keys (shape.keys ▸ inside), ← shape.tombs]
  by_cases tomb : m.key i = cmqIdmapTomb
  · simp [tomb, valid.2]
  simp [tomb, valid.2]

lemma Shape.bury (inside : i < m.cap) (valid : validId (m.key i)) : (m.bury i).Shape := by
  refine shape.stored inside (fun tomb => absurd rfl tomb.2) ?_ ?_
  · rw [liveCount, countP_set (shape.keys ▸ inside), getElem_keys (shape.keys ▸ inside),
      if_pos (by simpa using valid), shape.live]
    rfl
  rw [count_set (shape.keys ▸ inside), getElem_keys (shape.keys ▸ inside), ← shape.tombs,
    if_neg (by simpa using valid.2)]
  rfl

lemma Shape.holds_fill (holds : Holds m.cap idHash m.slot map) (absent : map id = none)
    (below : d < m.cap) (nonempty : ∀ e < d, m.key (visit m.cap (idHash id) e) ≠ 0)
    (vacant : ¬ validId (m.key (visit m.cap (idHash id) d))) (valid : validId id) (c : γ) :
    Holds m.cap idHash (m.store (visit m.cap (idHash id) d) id (some c)).slot
      (update map id (some c)) := by
  rw [shape.slot_store (visit_lt shape.positive _ _), slotOf_valid valid]
  refine holds.insert shape.positive absent below (fun e before empty => ?_) (fun _ v full => ?_) c
  · exact nonempty e before (slot_eq_empty.mp empty)
  obtain ⟨validOther, here, -⟩ := slot_eq_full.mp full
  exact vacant (here ▸ validOther)

/-! ## `cmq_idmap_rehash` -/

lemma Shape.rehashLoop_eq (map part : UInt32 → Option γ) (holds : Holds m.cap idHash m.slot part)
    (clean : m.tombs = 0) (entries : List (UInt32 × Option γ))
    (bound : ∀ entry ∈ entries, validId entry.1 → entry.2.isSome = true)
    (distinct : entries.Pairwise fun a b => validId a.1 → a.1 ≠ b.1)
    (fresh : ∀ entry ∈ entries, validId entry.1 → part entry.1 = none)
    (room : m.live + liveCount (entries.map Prod.fst) < m.cap)
    (whole : ∀ k c, map k = some c ↔ part k = some c ∨ (validId k ∧ (k, some c) ∈ entries)) :
    ∃ m', m.rehashLoop entries = some m' ∧ m'.Shape ∧ m'.cap = m.cap ∧ m'.tombs = 0 ∧
      m'.live = m.live + liveCount (entries.map Prod.fst) ∧ Holds m'.cap idHash m'.slot map := by
  induction entries generalizing m part with
  | nil =>
    have same : map = part := by
      funext k
      refine Option.ext fun c => ?_
      simpa using whole k c
    subst same
    exact ⟨m, rfl, shape, rfl, clean, rfl, holds⟩
  | cons entry entries ih =>
    obtain ⟨k, v⟩ := entry
    have boundRest := fun other inside => bound other (mem_cons_of_mem _ inside)
    rw [pairwise_cons] at distinct
    rw [rehashLoop]
    by_cases valid : validId k
    · rw [if_neg (by rw [not_or]; exact valid)]
      obtain ⟨c, rfl⟩ := Option.isSome_iff_exists.mp (bound (k, v) mem_cons_self valid)
      have count : liveCount (((k, some c) :: entries).map Prod.fst) =
          liveCount (entries.map Prod.fst) + 1 := by
        rw [map_cons, liveCount, countP_cons, if_pos (by simpa using valid)]
        rfl
      obtain ⟨d, below, here, before⟩ := shape.exists_empty (by omega) (idHash k)
      have vacant : ¬ validId (m.key (visit m.cap (idHash k) d)) := by
        rw [here]
        decide
      have notTomb : m.key (visit m.cap (idHash k) d) ≠ cmqIdmapTomb := by
        rw [here]
        decide
      rw [shape.first_eq, shape.emptyLoop_eq here before 0 (Nat.zero_le _) (by omega)]
      have filled := shape.fill (visit_lt shape.positive _ d) vacant valid c
      rw [CmqIdmap.fill, if_neg notTomb] at filled
      have partAbsent := fresh (k, some c) mem_cons_self valid
      have next := ih filled (update part k (some c))
        (shape.holds_fill holds partAbsent below before vacant valid c) clean boundRest
        distinct.2 (fun other inside validOther => ?_) (by dsimp only [store]; omega)
        (fun k' c' => ?_)
      · obtain ⟨m', looped, shape', cap, tombs, live, holds'⟩ := next
        refine ⟨m', looped, shape', cap, tombs, ?_, holds'⟩
        rw [live]
        dsimp only
        omega
      · have different := distinct.1 other inside valid
        rw [update_of_ne (Ne.symm different)]
        exact fresh other (mem_cons_of_mem _ inside) validOther
      rw [whole k' c']
      by_cases same : k' = k
      · subst same
        rw [partAbsent]
        simp [valid, eq_comm]
      rw [update_of_ne same]
      simp [same]
    have skipped : k = 0 ∨ k = cmqIdmapTomb := by
      by_contra neither
      exact valid (not_or.mp neither)
    rw [if_pos skipped]
    have count : liveCount (((k, v) :: entries).map Prod.fst) =
        liveCount (entries.map Prod.fst) := by
      rw [map_cons, liveCount, countP_cons, if_neg (by simpa using valid)]
      rfl
    rw [count] at room ⊢
    refine ih shape part holds clean boundRest distinct.2
      (fun other inside => fresh other (mem_cons_of_mem _ inside)) room fun k' c' => ?_
    rw [whole k' c', mem_cons]
    constructor
    · rintro (found | ⟨validKey, here | inside⟩)
      · exact .inl found
      · cases here
        exact absurd validKey valid
      exact .inr ⟨validKey, inside⟩
    rintro (found | ⟨validKey, inside⟩)
    · exact .inl found
    exact .inr ⟨validKey, .inr inside⟩

lemma Shape.getElem?_zip (inside : i < m.cap) :
    (m.keys.zip m.vals)[i]? = some (m.key i, m.val i) := by
  have keysInside : i < m.keys.length := shape.keys ▸ inside
  have valsInside : i < m.vals.length := shape.vals ▸ inside
  rw [getElem?_zip_eq_some]
  constructor
  · rw [key, getD_eq_getElem?_getD, getElem?_eq_getElem keysInside]
    rfl
  rw [val, getD_eq_getElem?_getD, getElem?_eq_getElem valsInside]
  rfl

lemma Shape.length_zip : (m.keys.zip m.vals).length = m.cap := by
  rw [List.length_zip, shape.keys, shape.vals, Nat.min_self]

lemma Shape.mem_zip : entry ∈ m.keys.zip m.vals ↔ ∃ i < m.cap, (m.key i, m.val i) = entry := by
  rw [List.mem_iff_getElem?]
  constructor
  · rintro ⟨i, found⟩
    have inside : i < m.cap := by
      rw [← shape.length_zip]
      exact (List.getElem?_eq_some_iff.mp found).1
    rw [shape.getElem?_zip inside, Option.some.injEq] at found
    exact ⟨i, inside, found⟩
  rintro ⟨i, inside, rfl⟩
  exact ⟨i, shape.getElem?_zip inside⟩

lemma Shape.rehash (holds : Holds m.cap idHash m.slot map) (ncap : Nat) (bits : ncap = 2 ^ n)
    (room : m.live < ncap) :
    ∃ m', m.cmqIdmapRehash ncap true = some (m', 0) ∧ m'.Shape ∧ m'.cap = ncap ∧
      m'.tombs = 0 ∧ m'.live = m.live ∧ Holds m'.cap idHash m'.slot map := by
  have live : liveCount ((m.keys.zip m.vals).map Prod.fst) = m.live := by
    rw [map_fst_zip (by rw [shape.keys, shape.vals]), shape.live]
  have bound : ∀ entry ∈ m.keys.zip m.vals, validId entry.1 → entry.2.isSome = true := by
    intro entry inside valid
    obtain ⟨i, below, rfl⟩ := shape.mem_zip.mp inside
    exact shape.bound i below valid
  have distinct : (m.keys.zip m.vals).Pairwise fun a b => validId a.1 → a.1 ≠ b.1 := by
    rw [pairwise_iff_getElem]
    intro i j iLength jLength less
    have iInside : i < m.cap := shape.length_zip ▸ iLength
    have jInside : j < m.cap := shape.length_zip ▸ jLength
    have iEntry := shape.getElem?_zip iInside
    have jEntry := shape.getElem?_zip jInside
    rw [getElem?_eq_getElem iLength, Option.some.injEq] at iEntry
    rw [getElem?_eq_getElem jLength, Option.some.injEq] at jEntry
    rw [iEntry, jEntry]
    intro valid same
    obtain ⟨c, -, iFull⟩ := shape.slot_full iInside valid rfl
    obtain ⟨_, -, jFull⟩ := shape.slot_full jInside valid same.symm
    exact absurd (holds.unique iInside jInside iFull jFull) (Nat.ne_of_lt less)
  have whole : ∀ k c, map k = some c ↔
      (none : Option γ) = some c ∨ (validId k ∧ (k, some c) ∈ m.keys.zip m.vals) := by
    intro k c
    rw [holds.mem_iff]
    simp only [reduceCtorEq, false_or, shape.mem_zip, slot_eq_full, Prod.mk.injEq]
    constructor
    · rintro ⟨i, inside, valid, here, value⟩
      exact ⟨valid, i, inside, here, value⟩
    rintro ⟨valid, i, inside, here, value⟩
    exact ⟨i, inside, valid, here, value⟩
  obtain ⟨m', looped, shape', cap, tombs, live', holds'⟩ :=
    (shape_replicate bits).rehashLoop_eq map (fun _ => none) (holds_replicate ncap) rfl
      (m.keys.zip m.vals) bound distinct (fun _ _ _ => rfl) (by rw [live]; simpa using room) whole
  refine ⟨m', ?_, shape', cap, tombs, ?_, holds'⟩
  · rw [cmqIdmapRehash, looped]
    rfl
  rw [live', live]
  exact Nat.zero_add _

end

end CmqIdmap

end CMsgQueue.Server
