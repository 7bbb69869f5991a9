import CMsgQueue.Server.Idempo

/-!
# What the duplicate window knows

For a producer with a slot the window decides every sequence number: it is marked, too old,
or new.  A check answers 1 for the new ones only and then marks them; nothing that was marked
or too old becomes new again.
-/

namespace CMsgQueue.Server

open List Option

/-! ## One slot -/

namespace CmqIdempoSlot

variable {slot : CmqIdempoSlot} {pid seq s : Nat}

def Marked (slot : CmqIdempoSlot) (seq : Nat) : Prop :=
  seq ≤ slot.last ∧ slot.bits.getLsbD (slot.last - seq) = true

def TooOld (slot : CmqIdempoSlot) (seq : Nat) : Prop := seq + cmqIdempoWin ≤ slot.last

instance : Decidable (slot.Marked seq) := inferInstanceAs (Decidable (_ ∧ _))
instance : Decidable (slot.TooOld seq) := inferInstanceAs (Decidable (_ ≤ _))

lemma getLsbD_one (i : Nat) : (1 : BitVec 64).getLsbD i = decide (i = 0) := by
  simp

lemma getLsbD_mask (i d : Nat) :
    ((1 : BitVec 64) <<< d).getLsbD i = (decide (i < 64) && decide (i = d)) := by
  by_cases inside : i < d
  · simp [inside, Nat.ne_of_lt inside]
  have zero : i - d = 0 ↔ i = d := by omega
  simp [inside, zero]

lemma and_mask_eq_zero (bits : BitVec 64) (inside : d < 64) :
    bits &&& (1 : BitVec 64) <<< d = 0 ↔ bits.getLsbD d = false := by
  constructor
  · intro zero
    have bit := congrArg (BitVec.getLsbD · d) zero
    simpa [inside] using bit
  intro unset
  apply BitVec.eq_of_getLsbD_eq
  intro i _
  rw [BitVec.getLsbD_and, getLsbD_mask]
  by_cases same : i = d
  · simp [same, unset]
  simp [same]

lemma marked_first : (⟨pid, true, seq, 1⟩ : CmqIdempoSlot).Marked s ↔ s = seq := by
  simp only [Marked, getLsbD_one, decide_eq_true_eq]
  omega

lemma marked_shift (above : slot.last < seq) :
    ({ slot with
        last := seq
        bits := if seq - slot.last ≥ cmqIdempoWin then 1
          else slot.bits <<< (seq - slot.last) ||| 1 } : CmqIdempoSlot).Marked s ↔
      s = seq ∨ (slot.Marked s ∧ seq < s + cmqIdempoWin) := by
  have win : cmqIdempoWin = 64 := rfl
  simp only [Marked]
  split
  next far =>
    simp only [getLsbD_one, decide_eq_true_eq]
    constructor
    · omega
    rintro (rfl | ⟨⟨below, bit⟩, _⟩)
    · omega
    omega
  rw [BitVec.getLsbD_or, BitVec.getLsbD_shiftLeft, getLsbD_one]
  by_cases same : s = seq
  · simp [same]
  simp only [same, false_or, Bool.or_eq_true, Bool.and_eq_true, decide_eq_true_eq,
    Bool.not_eq_true', decide_eq_false_iff_not]
  constructor
  · rintro ⟨below, (⟨⟨inside, far⟩, bit⟩ | _)⟩
    · have shift : seq - s - (seq - slot.last) = slot.last - s := by omega
      rw [shift] at bit
      exact ⟨⟨by omega, bit⟩, by omega⟩
    omega
  rintro ⟨⟨below, bit⟩, inside⟩
  have shift : seq - s - (seq - slot.last) = slot.last - s := by omega
  exact ⟨by omega, .inl ⟨⟨by omega, by omega⟩, by rw [shift]; exact bit⟩⟩

lemma marked_set (below : seq ≤ slot.last) (recent : slot.last - seq < 64) :
    ({ slot with bits := slot.bits ||| (1 : BitVec 64) <<< (slot.last - seq) } :
        CmqIdempoSlot).Marked s ↔ s = seq ∨ slot.Marked s := by
  simp only [Marked, BitVec.getLsbD_or, getLsbD_mask, Bool.or_eq_true, Bool.and_eq_true,
    decide_eq_true_eq]
  constructor
  · rintro ⟨low, (bit | ⟨-, _⟩)⟩
    · exact .inr ⟨low, bit⟩
    exact .inl (by omega)
  rintro (rfl | ⟨low, bit⟩)
  · exact ⟨below, .inr ⟨recent, rfl⟩⟩
  exact ⟨low, .inl bit⟩

/-- What a check does to a slot: it answers 0 for a marked or old number and leaves the slot,
and answers 1 for a new one and marks it. -/
inductive Checked (slot : CmqIdempoSlot) (pid seq : Nat) : CmqIdempoSlot × Int → Prop
  | known (used : slot.used = true) (old : slot.Marked seq ∨ slot.TooOld seq) :
      Checked slot pid seq (slot, 0)
  | fresh (after : CmqIdempoSlot) (used : after.used = true)
      (owner : after.pid = if slot.used then slot.pid else pid)
      (unknown : slot.used = true → ¬ slot.Marked seq ∧ ¬ slot.TooOld seq)
      (marks : ∀ s, after.Marked s → s = seq ∨ (slot.used = true ∧ slot.Marked s))
      (keeps : ∀ s, s = seq ∨ (slot.used = true ∧ (slot.Marked s ∨ slot.TooOld s)) →
        after.Marked s ∨ after.TooOld s) :
      Checked slot pid seq (after, 1)

lemma idempoSlotCheck_checked (slot : CmqIdempoSlot) (pid seq : Nat) :
    Checked slot pid seq (idempoSlotCheck slot pid seq) := by
  unfold idempoSlotCheck
  split
  next unused =>
    refine .fresh _ rfl (by simp [unused]) (by simp [unused]) (fun s marked => ?_) (fun s => ?_)
    · exact .inl (marked_first.mp marked)
    rintro (rfl | ⟨used, -⟩)
    · exact .inl (marked_first.mpr rfl)
    rw [unused] at used
    cases used
  next used =>
  rw [Bool.not_eq_false] at used
  split
  next above =>
    refine .fresh _ used (by simp [used]) (fun _ => ⟨?_, ?_⟩) (fun s marked => ?_) (fun s => ?_)
    · exact fun marked => absurd marked.1 (by omega)
    · exact fun old => absurd old (by rw [TooOld]; omega)
    · exact ((marked_shift above).mp marked).imp_right fun marked => ⟨used, marked.1⟩
    rintro (same | ⟨-, marked | old⟩)
    · exact .inl ((marked_shift above).mpr (.inl same))
    · by_cases near : seq < s + cmqIdempoWin
      · exact .inl ((marked_shift above).mpr (.inr ⟨marked, near⟩))
      exact .inr (not_lt.mp near)
    exact .inr (le_of_lt (lt_of_le_of_lt old above))
  next below =>
  rw [not_lt] at below
  simp only
  split
  next => exact .known used (.inr (by rw [TooOld]; omega))
  next near =>
  rw [not_le] at near
  split
  next set =>
    rw [ne_eq, and_mask_eq_zero _ near, Bool.not_eq_false] at set
    exact .known used (.inl ⟨below, set⟩)
  next unset =>
  rw [not_ne_iff, and_mask_eq_zero _ near] at unset
  refine .fresh _ used (by simp [used]) (fun _ => ⟨?_, ?_⟩) (fun s marked => ?_)
    (fun s => ?_)
  · intro marked
    rw [marked.2] at unset
    cases unset
  · exact fun old => absurd old (by rw [TooOld]; omega)
  · exact ((marked_set below near).mp marked).imp_right fun marked => ⟨used, marked⟩
  rintro (same | ⟨-, marked | old⟩)
  · exact .inl ((marked_set below near).mpr (.inl same))
  · exact .inl ((marked_set below near).mpr (.inr marked))
  exact .inr old

end CmqIdempoSlot

/-! ## The table -/

namespace CmqIdempo

variable {t : CmqIdempo} {pid seq : Nat}

def hits (t : CmqIdempo) (pid i : Nat) : Bool :=
  (t.slots[idempoProbe pid i]?).any fun slot => slot.used && slot.pid == pid

def frees (t : CmqIdempo) (pid i : Nat) : Bool :=
  (t.slots[idempoProbe pid i]?).any fun slot => !slot.used

lemma hits_iff : t.hits pid i = true ↔
    ∃ slot, t.slots[idempoProbe pid i]? = some slot ∧ slot.used = true ∧ slot.pid = pid := by
  simp [hits, Option.any_eq_true]

lemma frees_iff : t.frees pid i = true ↔
    ∃ slot, t.slots[idempoProbe pid i]? = some slot ∧ slot.used = false := by
  simp [frees, Option.any_eq_true]

def slotOf (t : CmqIdempo) (pid : Nat) : Option CmqIdempoSlot :=
  ((range cmqIdempoPids).find? (t.hits pid)).bind fun i => t.slots[idempoProbe pid i]?

lemma idempoFindLoop_eq (t : CmqIdempo) (pid : Nat) (probes : List Nat) (empty : Option Nat) :
    idempoFindLoop t pid probes empty = ((probes.find? (t.hits pid)).map (idempoProbe pid)).or
        (empty.or ((probes.find? (t.frees pid)).map (idempoProbe pid))) := by
  fun_induction idempoFindLoop t pid probes empty with
  | case1 empty => simp
  | case2 i probes empty missing ih =>
    rw [ih, find?_cons_of_neg (by simp [hits, missing]),
      find?_cons_of_neg (by simp [frees, missing])]
  | case3 i probes empty slot located hit =>
    rw [find?_cons_of_pos (by simp [hits, located, hit]), map_some, some_or]
  | case4 i probes empty slot located miss ih =>
    rw [ih, find?_cons_of_neg (p := t.hits pid) (by simpa [hits, located] using miss)]
    by_cases free : slot.used = false
    · rw [find?_cons_of_pos (by simp [frees, located, free]), map_some]
      cases empty with
      | none => rw [if_pos ⟨free, rfl⟩, some_or, none_or]
      | some => rw [if_neg (by simp), some_or, some_or]
    rw [find?_cons_of_neg (by simpa [frees, located] using free), if_neg (fun both => free both.1)]

variable {slot after : CmqIdempoSlot}

lemma slotOf_of_find (found : idempoFind t pid = some idx) :
    ∃ slot, t.slots[idx]? = some slot ∧ (slot.used = true → slot.pid = pid) ∧
      t.slotOf pid = if slot.used then some slot else none := by
  rw [idempoFind, idempoFindLoop_eq, none_or] at found
  cases hit : (range cmqIdempoPids).find? (t.hits pid) with
  | some i =>
    rw [hit, map_some, some_or, Option.some.injEq] at found
    obtain ⟨slot, located, used, owner⟩ := hits_iff.mp (find?_some hit)
    refine ⟨slot, found ▸ located, fun _ => owner, ?_⟩
    rw [slotOf, hit, bind_some, located, if_pos used]
  | none =>
    rw [hit, map_none, none_or, map_eq_some_iff] at found
    obtain ⟨i, free, rfl⟩ := found
    obtain ⟨slot, located, unused⟩ := frees_iff.mp (find?_some free)
    refine ⟨slot, located, fun used => ?_, ?_⟩
    · rw [unused] at used
      cases used
    rw [slotOf, hit, unused]
    rfl

lemma slotOf_set_other (located : t.slots[idx]? = some slot)
    (before : slot.used = true → slot.pid ≠ p) (behind : after.pid ≠ p) :
    slotOf ⟨t.slots.set idx after⟩ p = t.slotOf p := by
  have elsewhere : ∀ i, t.hits p i = true → idempoProbe p i ≠ idx := by
    rintro i hit rfl
    obtain ⟨_, here, used, owner⟩ := hits_iff.mp hit
    rw [located, Option.some.injEq] at here
    subst here
    exact before used owner
  have same : ∀ i, hits ⟨t.slots.set idx after⟩ p i = t.hits p i := by
    intro i
    by_cases here : idempoProbe p i = idx
    · have bound : idx < t.slots.length := (List.getElem?_eq_some_iff.mp located).1
      have miss : t.hits p i = false := by
        rw [← Bool.not_eq_true]
        exact fun hit => elsewhere i hit here
      rw [miss, hits, here, getElem?_set_self bound]
      simp [behind]
    simp [hits, getElem?_set_ne (Ne.symm here)]
  have sameHits : hits ⟨t.slots.set idx after⟩ p = t.hits p := funext same
  unfold slotOf
  rw [sameHits]
  cases hit : (range cmqIdempoPids).find? (t.hits p) with
  | none => rfl
  | some i => exact getElem?_set_ne (Ne.symm (elsewhere i (find?_some hit)))

lemma slotOf_set_self (found : idempoFind t pid = some idx) (used : after.used = true)
    (owner : after.pid = pid) : slotOf ⟨t.slots.set idx after⟩ pid = some after := by
  obtain ⟨_, located, -, -⟩ := slotOf_of_find found
  have bound : idx < t.slots.length := (List.getElem?_eq_some_iff.mp located).1
  have here : ∀ i, idempoProbe pid i = idx →
      hits ⟨t.slots.set idx after⟩ pid i = true := by
    rintro i rfl
    simp [hits, getElem?_set_self bound, used, owner]
  have away : ∀ i, idempoProbe pid i ≠ idx →
      hits ⟨t.slots.set idx after⟩ pid i = t.hits pid i := by
    intro i other
    simp [hits, getElem?_set_ne (Ne.symm other)]
  suffices first : ∃ i, (range cmqIdempoPids).find?
      (hits ⟨t.slots.set idx after⟩ pid) = some i ∧ idempoProbe pid i = idx by
    obtain ⟨i, hit, rfl⟩ := first
    rw [slotOf, hit]
    exact getElem?_set_self bound
  rw [idempoFind, idempoFindLoop_eq, none_or] at found
  cases hit : (range cmqIdempoPids).find? (t.hits pid) with
  | some i =>
    rw [hit, map_some, some_or, Option.some.injEq] at found
    -- the first hit stays the first one: only its own slot changed
    refine ⟨i, ?_, found⟩
    rw [← hit]
    congr 1
    funext j
    by_cases same : idempoProbe pid j = idx
    · have old := find?_some hit
      rw [here j same, ← old, hits, hits, found, same]
    exact away j same
  | none =>
    rw [hit, map_none, none_or, map_eq_some_iff] at found
    obtain ⟨i, free, probed⟩ := found
    have some' := find?_isSome.mpr ⟨i, mem_of_find?_eq_some free, here i probed⟩
    obtain ⟨j, first⟩ := isSome_iff_exists.mp some'
    refine ⟨j, first, ?_⟩
    by_contra other
    have old := find?_some first
    rw [away j other] at old
    exact find?_eq_none.mp hit j (mem_of_find?_eq_some first) old

/-! ## One check -/

/-- A sequence number of a producer that was accepted and is inside its window. -/
def Marked (t : CmqIdempo) (pid seq : Nat) : Prop :=
  ∃ slot, t.slotOf pid = some slot ∧ slot.Marked seq

def TooOld (t : CmqIdempo) (pid seq : Nat) : Prop :=
  ∃ slot, t.slotOf pid = some slot ∧ slot.TooOld seq

instance : Decidable (t.Marked pid seq) :=
  decidable_of_iff ((t.slotOf pid).any (fun slot => decide (slot.Marked seq)) = true)
    (by simp [Marked, Option.any_eq_true])

instance : Decidable (t.TooOld pid seq) :=
  decidable_of_iff ((t.slotOf pid).any (fun slot => decide (slot.TooOld seq)) = true)
    (by simp [TooOld, Option.any_eq_true])

/-- What a check does to the table: without room for the producer nothing, a known number is
refused, and a new one is marked. -/
inductive Checked (t : CmqIdempo) (pid seq : Nat) : CmqIdempo × Int → Prop
  | full (missing : idempoFind t pid = none) : Checked t pid seq (t, -2)
  | known (old : t.Marked pid seq ∨ t.TooOld pid seq) : Checked t pid seq (t, 0)
  | fresh (after : CmqIdempo) (unmarked : ¬ t.Marked pid seq) (recent : ¬ t.TooOld pid seq)
      (marks : ∀ p s, after.Marked p s → (p = pid ∧ s = seq) ∨ t.Marked p s)
      (keeps : ∀ p s, (p = pid ∧ s = seq) ∨ t.Marked p s ∨ t.TooOld p s →
        after.Marked p s ∨ after.TooOld p s) :
      Checked t pid seq (after, 1)

section

variable (owned : t.slotOf pid = if slot.used then some slot else none)
include owned

lemma marked_iff : t.Marked pid s ↔ slot.used = true ∧ slot.Marked s := by
  rw [Marked, owned]
  cases slot.used <;> simp

lemma tooOld_iff : t.TooOld pid s ↔ slot.used = true ∧ slot.TooOld s := by
  rw [TooOld, owned]
  cases slot.used <;> simp

end

lemma checked_of_fresh (found : idempoFind t pid = some idx) (located : t.slots[idx]? = some slot)
    (pidEq : slot.used = true → slot.pid = pid)
    (owned : t.slotOf pid = if slot.used then some slot else none)
    (fresh : slot.Checked pid seq (after, 1)) : Checked t pid seq (⟨t.slots.set idx after⟩, 1) := by
  cases fresh with
  | fresh _ used owner unknown marks keeps =>
    have mine : after.pid = pid := by
      rw [owner]
      split
      next slotUsed => exact pidEq slotUsed
      rfl
    have self : slotOf ⟨t.slots.set idx after⟩ pid =
        if after.used then some after else none := by
      rw [slotOf_set_self found used mine, if_pos used]
    have others : ∀ p, p ≠ pid → slotOf ⟨t.slots.set idx after⟩ p = t.slotOf p := by
      intro p other
      apply slotOf_set_other located
      · intro slotUsed
        rw [pidEq slotUsed]
        exact other.symm
      rw [mine]
      exact other.symm
    apply Checked.fresh
    · intro marked
      obtain ⟨slotUsed, marked⟩ := (marked_iff owned).mp marked
      exact (unknown slotUsed).1 marked
    · intro old
      obtain ⟨slotUsed, old⟩ := (tooOld_iff owned).mp old
      exact (unknown slotUsed).2 old
    · intro p s marked
      by_cases same : p = pid
      · subst same
        have marked := ((marked_iff self).mp marked).2
        exact (marks s marked).imp (fun eq => ⟨rfl, eq⟩) (marked_iff owned).mpr
      rw [Marked, others p same] at marked
      exact .inr marked
    intro p s known
    by_cases same : p = pid
    · subst same
      rw [marked_iff self, tooOld_iff self, ← and_or_left]
      refine ⟨used, keeps s ?_⟩
      rw [marked_iff owned, tooOld_iff owned, ← and_or_left] at known
      exact known.imp_left And.right
    rw [Marked, TooOld, others p same]
    exact known.resolve_left fun both => same both.1

lemma cmqIdempoCheck_checked (t : CmqIdempo) (seq : Nat) (valid : pid ≠ 0) :
    Checked t pid seq (cmqIdempoCheck t pid seq) := by
  rw [cmqIdempoCheck, if_neg valid]
  cases found : idempoFind t pid with
  | none => exact .full found
  | some idx =>
    obtain ⟨slot, located, pidEq, owned⟩ := slotOf_of_find found
    simp only [located]
    have checked := CmqIdempoSlot.idempoSlotCheck_checked slot pid seq
    generalize idempoSlotCheck slot pid seq = result at checked
    cases checked with
    | known used old =>
      have unchanged : t.slots.set idx slot = t.slots := by
        obtain ⟨_, eq⟩ := List.getElem?_eq_some_iff.mp located
        rw [← eq, set_getElem_self]
      simp only [unchanged]
      apply Checked.known
      rw [marked_iff owned, tooOld_iff owned, ← and_or_left]
      exact ⟨used, old⟩
    | fresh after used owner unknown marks keeps =>
      exact checked_of_fresh found located pidEq owned
        (.fresh after used owner unknown marks keeps)

/-! ## Headers and fresh tables -/

lemma slotOf_create (pid : Nat) : slotOf cmqIdempoCreate pid = none := by
  have miss : (range cmqIdempoPids).find? (hits cmqIdempoCreate pid) = none := by
    rw [find?_eq_none]
    intro i _ hit
    obtain ⟨_, located, used, -⟩ := hits_iff.mp hit
    have member := mem_of_getElem? located
    rw [cmqIdempoCreate, mem_replicate] at member
    rw [member.2] at used
    cases used
  rw [slotOf, miss, bind_none]

lemma idempoFind_create (pid : Nat) : idempoFind cmqIdempoCreate pid ≠ none := by
  have bound : idempoProbe pid 0 < cmqIdempoPids := Nat.mod_lt _ (by decide)
  have free : frees cmqIdempoCreate pid 0 = true := by
    refine frees_iff.mpr ⟨⟨0, false, 0, 0⟩, ?_, rfl⟩
    rw [cmqIdempoCreate, getElem?_replicate, if_pos bound]
  have found : ((range cmqIdempoPids).find? (frees cmqIdempoCreate pid)).isSome = true :=
    find?_isSome.mpr ⟨0, mem_range.mpr (by decide), free⟩
  rw [idempoFind, idempoFindLoop_eq, none_or, ne_eq, or_eq_none_iff,
    map_eq_none_iff, map_eq_none_iff]
  rintro ⟨-, nowhere⟩
  rw [nowhere] at found
  cases found

end CmqIdempo

end CMsgQueue.Server
