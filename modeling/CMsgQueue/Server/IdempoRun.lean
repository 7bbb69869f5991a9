import Mathlib.Data.List.Induction
import CMsgQueue.Server.IdempoSpec

/-!
# The duplicate window over a run

Every producer is answered from its own accepted numbers.  Other producers matter only by
taking slots: a producer without one is refused once none is free.
-/

namespace CMsgQueue.Server

open Option List

/-- A number the window takes after these: not taken before, and less than 64 below them all. -/
def IdempoFresh (accepted : List Nat) (seq : Nat) : Prop :=
  seq ∉ accepted ∧ ∀ s ∈ accepted, s < seq + cmqIdempoWin

instance (accepted : List Nat) (seq : Nat) : Decidable (IdempoFresh accepted seq) :=
  inferInstanceAs (Decidable (_ ∧ ∀ s ∈ accepted, s < seq + cmqIdempoWin))

def idempoAccept (accepted : List Nat) (seq : Nat) : List Nat :=
  if IdempoFresh accepted seq then seq :: accepted else accepted

def acceptedOf (pid : Nat) (calls : List (Nat × Nat)) : List Nat :=
  ((calls.filter (·.1 = pid)).map (·.2)).foldl idempoAccept []

lemma acceptedOf_concat_self (calls : List (Nat × Nat)) (pid seq : Nat) :
    acceptedOf pid (calls ++ [(pid, seq)]) = idempoAccept (acceptedOf pid calls) seq := by
  simp [acceptedOf]

lemma acceptedOf_concat_other (calls : List (Nat × Nat)) (other : p ≠ pid)
    (seq : Nat) : acceptedOf pid (calls ++ [(p, seq)]) = acceptedOf pid calls := by
  simp [acceptedOf, other]

namespace CmqIdempoSlot

variable {slot : CmqIdempoSlot} {pid seq : Nat} {accepted : List Nat}

/-- A slot holds the accepted numbers, as far as its window reaches. -/
structure Knows (slot : CmqIdempoSlot) (accepted : List Nat) : Prop where
  last_mem : slot.last ∈ accepted
  le_last : ∀ s ∈ accepted, s ≤ slot.last
  accepted_of_marked : ∀ s, slot.Marked s → s ∈ accepted
  kept : ∀ s ∈ accepted, slot.Marked s ∨ slot.TooOld s

lemma idempoSlotCheck_last (slot : CmqIdempoSlot) (pid seq : Nat) :
    (idempoSlotCheck slot pid seq).1.last =
      if slot.used = false then seq else max slot.last seq := by
  unfold idempoSlotCheck
  split
  · rfl
  split
  next above => exact (max_eq_right (le_of_lt above)).symm
  next below =>
  have held := max_eq_left (Nat.le_of_not_lt below)
  rw [held]
  dsimp only
  split
  · rfl
  split <;> rfl

lemma idempoSlotCheck_owner (seq : Nat) (owner : slot.used = true → slot.pid = pid) :
    (idempoSlotCheck slot pid seq).1.used = true ∧ (idempoSlotCheck slot pid seq).1.pid = pid := by
  have checked := idempoSlotCheck_checked slot pid seq
  generalize idempoSlotCheck slot pid seq = result at checked ⊢
  cases checked with
  | known used => exact ⟨used, owner used⟩
  | fresh _ used owned =>
    refine ⟨used, owned.trans ?_⟩
    split
    next taken => exact owner taken
    rfl

lemma idempoSlotCheck_knows (pid seq : Nat) (owned : slot.used = true → slot.Knows accepted)
    (unowned : slot.used = false → accepted = []) :
    (idempoSlotCheck slot pid seq).1.Knows (idempoAccept accepted seq) ∧
      (idempoSlotCheck slot pid seq).2 = if IdempoFresh accepted seq then 1 else 0 := by
  have last := idempoSlotCheck_last slot pid seq
  have checked := idempoSlotCheck_checked slot pid seq
  rw [idempoAccept]
  generalize idempoSlotCheck slot pid seq = result at last checked ⊢
  cases checked with
  | known used old =>
    have knows := owned used
    have stale : ¬ IdempoFresh accepted seq := by
      rintro ⟨unseen, recent⟩
      rcases old with marked | old
      · exact unseen (knows.accepted_of_marked seq marked)
      exact absurd (recent _ knows.last_mem) (not_lt.mpr old)
    rw [if_neg stale, if_neg stale]
    exact ⟨knows, rfl⟩
  | fresh after used _ unknown marks keeps =>
    cases free : slot.used with
    | false =>
      obtain rfl := unowned free
      replace last : after.last = seq := last.trans (if_pos free)
      have fresh : IdempoFresh [] seq := by simp [IdempoFresh]
      rw [if_pos fresh]
      refine ⟨⟨by simp [last], by simp [last], fun s marked => ?_, fun s mem => ?_⟩, rfl⟩
      · rcases marks s marked with rfl | ⟨taken, -⟩
        · exact mem_singleton_self s
        rw [free] at taken
        cases taken
      exact keeps s (.inl (mem_singleton.mp mem))
    | true =>
      have knows := owned free
      obtain ⟨unmarked, recent⟩ := unknown free
      have fresh : IdempoFresh accepted seq := by
        refine ⟨fun mem => ?_, fun s mem => ?_⟩
        · exact (knows.kept seq mem).elim unmarked recent
        exact lt_of_le_of_lt (knows.le_last s mem) (Nat.lt_of_not_le recent)
      rw [if_neg (by simp [free])] at last
      rw [if_pos fresh, if_pos fresh]
      refine ⟨⟨?_, ?_, fun s marked => ?_, fun s mem => ?_⟩, rfl⟩
      · rw [last]
        rcases Nat.le_total slot.last seq with up | down
        · rw [max_eq_right up]
          exact mem_cons_self
        rw [max_eq_left down]
        exact mem_cons_of_mem seq knows.last_mem
      · rw [last]
        refine forall_mem_cons.mpr ⟨le_max_right _ _, fun s mem => ?_⟩
        exact le_trans (knows.le_last s mem) (le_max_left _ _)
      · rcases marks s marked with rfl | ⟨-, old⟩
        · exact mem_cons_self
        exact mem_cons_of_mem seq (knows.accepted_of_marked s old)
      refine keeps s ((mem_cons.mp mem).imp_right fun old => ?_)
      exact ⟨free, knows.kept s old⟩

end CmqIdempoSlot

namespace CmqIdempo

variable {t : CmqIdempo} {pid seq : Nat} {calls : List (Nat × Nat)}

def Full (t : CmqIdempo) : Prop := ∀ slot ∈ t.slots, slot.used = true

lemma exists_probe (pid : Nat) (bound : idx < cmqIdempoPids) :
    ∃ i < cmqIdempoPids, idempoProbe pid i = idx := by
  have size : cmqIdempoPids = 256 := rfl
  refine ⟨(idx + (256 - pid * 2654435761 % 2 ^ 32 % 256)) % 256, by omega, ?_⟩
  rw [idempoProbe, size]
  omega

lemma idempoFind_eq_none_iff (size : t.slots.length = cmqIdempoPids) :
    idempoFind t pid = none ↔ t.slotOf pid = none ∧ t.Full := by
  rw [idempoFind, idempoFindLoop_eq, none_or, or_eq_none_iff, map_eq_none_iff, map_eq_none_iff]
  refine and_congr ?_ ?_
  · rw [slotOf]
    cases hit : (List.range cmqIdempoPids).find? (t.hits pid) with
    | none => simp
    | some i =>
      obtain ⟨slot, located, -⟩ := hits_iff.mp (find?_some hit)
      simp [located]
  simp only [find?_eq_none, mem_range, frees_iff]
  constructor
  · intro none slot mem
    obtain ⟨_, bound, rfl⟩ := mem_iff_getElem.mp mem
    obtain ⟨i, inside, rfl⟩ := exists_probe pid (size ▸ bound)
    by_contra free
    exact none i inside ⟨_, getElem?_eq_getElem bound, Bool.eq_false_iff.mpr free⟩
  rintro full i - ⟨slot, located, free⟩
  rw [full slot (mem_of_getElem? located)] at free
  cases free

lemma Full.set (full : t.Full) {after : CmqIdempoSlot} (used : after.used = true)
    (idx : Nat) : Full ⟨t.slots.set idx after⟩ := by
  intro slot mem
  rcases mem_or_eq_of_mem_set mem with old | rfl
  · exact full slot old
  exact used

def run (calls : List (Nat × Nat)) : CmqIdempo :=
  calls.foldl (fun t call => (cmqIdempoCheck t call.1 call.2).1) cmqIdempoCreate

/-- The table serves every producer from its own calls, or has no slot for it. -/
structure Tracks (t : CmqIdempo) (calls : List (Nat × Nat)) : Prop where
  size : t.slots.length = cmqIdempoPids
  knows : ∀ pid slot, pid ≠ 0 → t.slotOf pid = some slot → slot.Knows (acceptedOf pid calls)
  absent : ∀ pid, pid ≠ 0 → t.slotOf pid = none → t.Full ∨ acceptedOf pid calls = []

lemma Tracks.create : cmqIdempoCreate.Tracks [] :=
  ⟨length_replicate, fun pid slot _ held => by simp [slotOf_create] at held,
    fun _ _ _ => .inr rfl⟩

lemma Tracks.check (tracks : t.Tracks calls) (valid : pid ≠ 0) (seq : Nat) :
    (cmqIdempoCheck t pid seq).1.Tracks (calls ++ [(pid, seq)]) ∧
      (cmqIdempoCheck t pid seq).2 =
        if idempoFind t pid = none then -2
        else if IdempoFresh (acceptedOf pid calls) seq then 1 else 0 := by
  unfold cmqIdempoCheck
  rw [if_neg valid]
  cases found : idempoFind t pid with
  | none =>
    obtain ⟨missing, full⟩ := (idempoFind_eq_none_iff tracks.size).mp found
    refine ⟨⟨tracks.size, fun p slot nonzero held => ?_, fun p _ _ => .inl full⟩, rfl⟩
    have other : pid ≠ p := by
      rintro rfl
      simp [missing] at held
    rw [acceptedOf_concat_other calls other]
    exact tracks.knows p slot nonzero held
  | some idx =>
    obtain ⟨slot, located, owner, holds⟩ := slotOf_of_find found
    have unowned : slot.used = false → acceptedOf pid calls = [] := by
      intro free
      rw [free] at holds
      refine (tracks.absent pid valid holds).resolve_left fun full => ?_
      simp [full slot (mem_of_getElem? located)] at free
    obtain ⟨knows, answer⟩ := CmqIdempoSlot.idempoSlotCheck_knows pid seq
      (fun used => tracks.knows pid slot valid (holds.trans (if_pos used))) unowned
    obtain ⟨used, mine⟩ := CmqIdempoSlot.idempoSlotCheck_owner seq owner
    simp only [located]
    generalize idempoSlotCheck slot pid seq = result at knows answer used mine
    have self := slotOf_set_self found used mine
    have others : ∀ p, pid ≠ p → slotOf ⟨t.slots.set idx result.1⟩ p = t.slotOf p := by
      intro p other
      refine slotOf_set_other located (fun taken => ?_) (mine ▸ other)
      exact owner taken ▸ other
    refine ⟨⟨by simpa using tracks.size, fun p after nonzero held => ?_,
      fun p nonzero missing => ?_⟩, answer⟩
    · by_cases other : pid = p
      · subst other
        rw [self, Option.some.injEq] at held
        rw [acceptedOf_concat_self, ← held]
        exact knows
      rw [acceptedOf_concat_other calls other]
      exact tracks.knows p after nonzero (others p other ▸ held)
    have other : pid ≠ p := by
      rintro rfl
      simp [self] at missing
    rw [acceptedOf_concat_other calls other]
    exact (tracks.absent p nonzero (others p other ▸ missing)).imp_left (·.set used idx)

lemma tracks_run (calls : List (Nat × Nat)) : (run calls).Tracks calls := by
  induction calls using reverseRecOn with
  | nil => exact .create
  | append_singleton calls call ih =>
    obtain ⟨p, seq⟩ := call
    rw [run, foldl_concat]
    by_cases valid : p = 0
    · -- a call without a producer changes nothing
      subst valid
      refine ⟨ih.size, fun pid slot nonzero held => ?_, fun pid nonzero missing => ?_⟩
      · rw [acceptedOf_concat_other calls nonzero.symm]
        exact ih.knows pid slot nonzero held
      rw [acceptedOf_concat_other calls nonzero.symm]
      exact ih.absent pid nonzero missing
    exact (ih.check valid seq).1

lemma run_answer (calls : List (Nat × Nat)) (seq : Nat) (valid : pid ≠ 0) :
    (cmqIdempoCheck (run calls) pid seq).2 =
      if idempoFind (run calls) pid = none then -2
      else if IdempoFresh (acceptedOf pid calls) seq then 1 else 0 :=
  ((tracks_run calls).check valid seq).2

/-- A producer is answered 1 exactly for a number that is fresh among those its own calls had
accepted, as long as it has a slot or one is free, and -2 exactly when neither holds. -/
theorem run_check (calls others : List (Nat × Nat)) (pid seq : Nat) (valid : pid ≠ 0) :
    ((cmqIdempoCheck (run calls) pid seq).2 = 1 ↔
      ((run calls).slotOf pid ≠ none ∨ ∃ slot ∈ (run calls).slots, slot.used = false) ∧
        IdempoFresh (acceptedOf pid calls) seq) ∧
    ((cmqIdempoCheck (run calls) pid seq).2 = -2 ↔
      (run calls).slotOf pid = none ∧ ∀ slot ∈ (run calls).slots, slot.used = true) ∧
    (calls.filter (·.1 = pid) = others.filter (·.1 = pid) →
      (cmqIdempoCheck (run calls) pid seq).2 = (cmqIdempoCheck (run others) pid seq).2 ∨
        (cmqIdempoCheck (run calls) pid seq).2 = -2 ∨
        (cmqIdempoCheck (run others) pid seq).2 = -2) := by
  have full : idempoFind (run calls) pid = none ↔ (run calls).slotOf pid = none ∧ _ :=
    idempoFind_eq_none_iff (tracks_run calls).size
  have room : ((run calls).slotOf pid ≠ none ∨ ∃ slot ∈ (run calls).slots, slot.used = false) ↔
      idempoFind (run calls) pid ≠ none := by
    rw [Ne, Ne, full, not_and_or]
    simp [Full]
  rw [run_answer calls seq valid, run_answer others seq valid, room]
  refine ⟨?_, ?_, fun same => ?_⟩
  · split_ifs with none fresh
    · simp [none]
    · simp [none, fresh]
    simp [fresh]
  · rw [← Full, ← full]
    split_ifs with none <;> simp [none]
  rw [acceptedOf, acceptedOf, same]
  split_ifs <;> simp

theorem run_check_again : (cmqIdempoCheck (run [(7, 1), (9, 1)]) 7 1).2 ≠ 1 := fun new =>
  ((run_check [(7, 1), (9, 1)] [] 7 1 (by decide)).1.mp new).2.1 (by decide)

/-- Producer 0 is refused while every slot is free. -/
theorem check_no_producer : (cmqIdempoCheck (run []) 0 1).2 = -1 ∧
    (∀ slot ∈ (run []).slots, slot.used = false) ∧ IdempoFresh (acceptedOf 0 []) 1 :=
  ⟨rfl, fun slot mem => by rw [eq_of_mem_replicate mem], by decide⟩

end CmqIdempo

end CMsgQueue.Server
