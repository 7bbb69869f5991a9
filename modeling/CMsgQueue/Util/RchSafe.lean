import CMsgQueue.Util.RchRun

/-!
# Orderly runs are safe

Without a swap the slot changes at most once, from empty to a handle that stays there.
Its count is then one more than the number of readers that hold it, so no release ever
takes it to zero.
-/

namespace CMsgQueue.Util

open RchPc RchHeap List

universe u

variable {τ : Type u}

/-- The thread points to nothing but the handle in the slot and objects that exist, and
drops no owner's reference. -/
def PcCalm (slot : Option Nat) (objects : Nat) : RchPc → Prop
  | .acquire h => h = none ∨ slot = h
  | .acquireCas h _ => slot = some h
  | .acquired h => slot = some h
  | .reading held => ∀ h obj, held = some (h, obj) → slot = some h ∧ obj < objects
  | .release held h => h = held.map Prod.fst ∧
      ∀ g obj, held = some (g, obj) → slot = some g ∧ obj < objects
  | .freeObject _ _ => False
  | .freeHandle _ => False
  | .releaseOwner _ => False
  | _ => True

variable {slot : Option Nat} {objects h : Nat} {pc : RchPc}

lemma PcCalm.mono (filled : ∀ h, slot = some h → slot' = some h) (grown : objects ≤ objects')
    (calm : PcCalm slot objects pc) : PcCalm slot' objects' pc := by
  cases pc with
  | acquire h =>
    cases h with
    | none => exact .inl rfl
    | some h => exact .inr (filled h (calm.resolve_left (by simp)))
  | acquireCas h => exact filled h calm
  | acquired h => exact filled h calm
  | reading held =>
    intro h obj heldEq
    obtain ⟨inSlot, bound⟩ := calm h obj heldEq
    exact ⟨filled h inSlot, Nat.lt_of_lt_of_le bound grown⟩
  | release held h =>
    refine ⟨calm.1, fun g obj heldEq => ?_⟩
    obtain ⟨inSlot, bound⟩ := calm.2 g obj heldEq
    exact ⟨filled g inSlot, Nat.lt_of_lt_of_le bound grown⟩
  | idle => trivial
  | freeObject | freeHandle => exact calm
  | created | attach | swap => trivial
  | releaseOwner h => exact calm

lemma PcCalm.slot_of_holds (calm : PcCalm slot objects pc) (holds : pc.holds h = true) :
    slot = some h := by
  cases pc with
  | acquired g =>
    rw [← beq_iff_eq.mp holds]
    exact calm
  | reading held =>
    cases held with
    | none => cases holds
    | some held =>
      rw [← beq_iff_eq.mp holds]
      exact (calm held.1 held.2 rfl).1
  | release held g =>
    cases held with
    | none => cases holds
    | some held =>
      rw [← beq_iff_eq.mp holds]
      exact (calm.2 held.1 held.2 rfl).1
  | _ => cases holds

/-- A heap in which nothing was freed. -/
structure RchHeap.Kept (heap : RchHeap τ) : Prop where
  unfaulted : heap.faulted = false
  handles : ∀ cell ∈ heap.handles, cell.frees = 0 ∧ cell.ptr < heap.objects.length
  objects : ∀ object ∈ heap.objects, object.frees = 0

namespace RchHeap.Kept

variable {heap : RchHeap τ}

section

variable (kept : heap.Kept)
include kept

lemma useHandle_eq (bound : h < heap.handles.length) : heap.useHandle h = heap := by
  have fresh := (kept.handles _ (getElem_mem bound)).1
  simp [useHandle, handleFreed, getElem?_eq_getElem bound, fresh]

lemma useObject_eq (bound : obj < heap.objects.length) : heap.useObject obj = heap := by
  have fresh := kept.objects _ (getElem_mem bound)
  simp [useObject, objectFreed, getElem?_eq_getElem bound, fresh]

lemma ptr_lt (bound : h < heap.handles.length) : heap.ptr h < heap.objects.length := by
  have inside := (kept.handles _ (getElem_mem bound)).2
  simpa [ptr, getElem?_eq_getElem bound] using inside

lemma setRefcount (h : Nat) (count : Int) : (heap.setRefcount h count).Kept := by
  refine ⟨kept.unfaulted, ?_, kept.objects⟩
  intro _ member
  obtain ⟨g, located⟩ := mem_iff_getElem?.mp member
  simp only [RchHeap.setRefcount, getElem?_modify] at located
  obtain ⟨old, oldLocated, rfl⟩ := Option.map_eq_some_iff.mp located
  have oldKept := kept.handles old (mem_of_getElem? oldLocated)
  split <;> exact oldKept

lemma cmqRchNew (object : τ) : (cmqRchNew heap object).1.Kept := by
  refine ⟨kept.unfaulted, forall_mem_append.mpr ⟨?_, ?_⟩, ?_⟩
  · intro cell member
    have old := kept.handles cell member
    exact ⟨old.1, by simpa [Util.cmqRchNew] using Nat.lt_succ_of_lt old.2⟩
  · simp [Util.cmqRchNew]
  exact forall_mem_append.mpr ⟨kept.objects, forall_mem_singleton.mpr rfl⟩

end

end RchHeap.Kept

/-- What an orderly step of a calm thread does. -/
inductive CalmStep (state after : RchLocal τ) : Prop where
  | move (slot_eq : after.slot = state.slot) (heap_eq : after.heap = state.heap)
      (calm : PcCalm state.slot state.heap.objects.length after.pc)
      (holds : ∀ h, after.pc.holds h = state.pc.holds h)
      (owns : ∀ h, state.pc.owns h = true → after.pc.owns h = true)
  /-- A reader takes or drops its reference. -/
  | count (h : Nat) (bound : h < state.heap.handles.length)
      (slot_eq : after.slot = state.slot)
      (heap_eq : after.heap = state.heap.setRefcount h
        (state.heap.refcount h + (after.pc.holds h).toNat - (state.pc.holds h).toNat))
      (calm : PcCalm state.slot state.heap.objects.length after.pc)
      (holds : ∀ g, g ≠ h → after.pc.holds g = state.pc.holds g)
      (owns : ∀ g, state.pc.owns g = false)
  | create (object : τ) (pc_eq : state.pc = .idle) (slot_eq : after.slot = state.slot)
      (heap_eq : after.heap = (cmqRchNew state.heap object).1)
      (created : after.pc = .created state.heap.handles.length)
  | attach (h : Nat) (pc_eq : state.pc = .attach h) (empty : state.slot = none)
      (slot_eq : after.slot = some h) (heap_eq : after.heap = state.heap)
      (idle : after.pc = .idle)

lemma rchOp_calm {state : RchLocal τ} {choice : RchChoice τ} (kept : state.heap.Kept)
    (allocated : ∀ h, state.slot = some h → h < state.heap.handles.length)
    (calm : PcCalm state.slot state.heap.objects.length state.pc)
    (counted : ∀ h, h < state.heap.handles.length →
      1 + ((state.pc.holds h).toNat : Int) ≤ state.heap.refcount h)
    (orderly : orderlyOp state choice = true) : CalmStep state (rchOp state choice) := by
  obtain ⟨slot, heap, swaps, pc⟩ := state
  cases pc with
  | idle =>
    cases choice with
    | reload object => exact .create object rfl rfl rfl rfl
    | read => exact .move rfl rfl (.inr rfl) (fun _ => rfl) (fun _ => id)
    | use | leave => exact .move rfl rfl trivial (fun _ => rfl) (fun _ => id)
  | acquire h =>
    cases h with
    | none => exact .move rfl rfl (by simp [PcCalm, rchOp]) (fun _ => rfl) (fun _ => id)
    | some h =>
      have inSlot : slot = some h := calm.resolve_left (by simp)
      have bound := allocated h inSlot
      have positive : ¬ heap.refcount h ≤ 0 := by
        have atLeast := counted h bound
        simp only [holds, Bool.toNat_false] at atLeast
        omega
      refine .move rfl (kept.useHandle_eq bound) ?_ ?_ ?_
      · simpa only [rchOp, if_neg positive, PcCalm] using inSlot
      · simp [rchOp, positive, holds]
      simp [owns]
  | acquireCas h old =>
    have inSlot : slot = some h := calm
    have bound := allocated h inSlot
    by_cases same : heap.refcount h = old
    · refine .count h bound ?_ ?_ ?_ ?_ (fun _ => rfl)
      · simp [rchOp, same]
      · simp [rchOp, same, kept.useHandle_eq bound, holds]
      · simpa [rchOp, same, PcCalm] using inSlot
      intro g differs
      simp [rchOp, same, holds, Ne.symm differs]
    refine .move ?_ ?_ ?_ ?_ (by simp [owns])
    · simp [rchOp, same]
    · simp [rchOp, same, kept.useHandle_eq bound]
    · simpa [rchOp, same, PcCalm] using inSlot
    simp [rchOp, same, holds]
  | acquired h =>
    have inSlot : slot = some h := calm
    have bound := allocated h inSlot
    refine .move rfl (kept.useHandle_eq bound) ?_ (fun _ => rfl) (by simp [owns])
    intro g obj heldEq
    cases heldEq
    exact ⟨inSlot, kept.ptr_lt bound⟩
  | reading held =>
    have leaving : slot = held.map Prod.fst →
        PcCalm slot heap.objects.length (.release held slot) := fun same => ⟨same, calm⟩
    have holds : ∀ h, (release held slot).holds h = (reading held).holds h := by
      cases held <;> exact fun _ => rfl
    cases choice with
    | use =>
      cases held with
      | none => exact .move rfl rfl calm (fun _ => rfl) (fun _ => id)
      | some held =>
        exact .move rfl (kept.useObject_eq (calm held.1 held.2 rfl).2) calm
          (fun _ => rfl) (fun _ => id)
    | read | reload _ | leave =>
      exact .move rfl rfl (leaving (of_decide_eq_true orderly)) holds
        (by simp [owns])
  | release held h =>
    obtain ⟨same, inside⟩ := calm
    cases held with
    | none =>
      cases same
      exact .move rfl rfl trivial (fun _ => rfl) (by simp [owns])
    | some held =>
      obtain ⟨g, obj⟩ := held
      have released : h = some g := same
      subst released
      have inSlot := (inside g obj rfl).1
      have bound := allocated g inSlot
      have many : heap.refcount g ≠ 1 := by
        have atLeast := counted g bound
        simp only [holds, beq_self_eq_true, Bool.toNat_true] at atLeast
        omega
      have idle : (rchOp ⟨slot, heap, swaps, .release (some (g, obj)) (some g)⟩ choice).pc =
          .idle := by
        simp [rchOp, fetchSub, many]
      refine .count g bound rfl ?_ ?_ ?_ (fun _ => rfl)
      · rw [idle]
        simp [rchOp, fetchSub, kept.useHandle_eq bound, holds]
      · rw [idle]
        trivial
      intro _ differs
      rw [idle]
      simp [holds, Ne.symm differs]
  | created h =>
    refine .move rfl rfl ?_ ?_ ?_ <;> simp only [rchOp] <;> split <;>
      simp [PcCalm, holds, owns]
  | attach h => exact .attach h rfl (of_decide_eq_true orderly) rfl rfl rfl
  | swap h => cases orderly
  | freeObject | freeHandle | releaseOwner => exact calm.elim

lemma rchOp_swaps_of_orderly
    (orderly : orderlyOp state choice = true) : (rchOp state choice).swaps = state.swaps := by
  rcases rchOp_swaps state choice with ⟨-, same⟩ | ⟨h, swapping, -⟩
  · exact same
  unfold orderlyOp at orderly
  rw [swapping] at orderly
  cases orderly

lemma RchHeap.refcount_setRefcount (heap : RchHeap τ) (count : Int) (g : Nat)
    (bound : h < heap.handles.length) :
    (heap.setRefcount h count).refcount g = if g = h then count else heap.refcount g := by
  by_cases same : g = h
  · simp [refcount, setRefcount, same, getElem?_eq_getElem bound]
  simp [refcount, setRefcount, Ne.symm same, same]

lemma RchHeap.refcount_cmqRchNew (heap : RchHeap τ) (object : τ)
    (bound : h < heap.handles.length + 1) :
    (cmqRchNew heap object).1.refcount h =
      if h = heap.handles.length then 1 else heap.refcount h := by
  by_cases last : h = heap.handles.length
  · simp [refcount, cmqRchNew, last]
  have old : h < heap.handles.length := by omega
  simp [refcount, cmqRchNew, last, getElem?_append_left old]

lemma countP_set_add {threads : List RchPc} {t : Nat} (after : RchPc) (p : RchPc → Bool)
    (running : threads[t]? = some pc) :
    (threads.set t after).countP p + (p pc).toNat = threads.countP p + (p after).toNat := by
  obtain ⟨bound, located⟩ := List.getElem?_eq_some_iff.mp running
  have contributes : (p pc).toNat ≤ threads.countP p := by
    cases contribution : p pc with
    | false => exact Nat.zero_le _
    | true => exact countP_pos_iff.mpr ⟨pc, mem_of_getElem? running, contribution⟩
  have asNat : ∀ b : Bool, (if b = true then 1 else 0) = b.toNat := by decide
  rw [countP_set bound, located, asNat, asNat]
  omega

namespace RchSystem

structure Calm (system : RchSystem τ) : Prop where
  owned : Owned system
  unswapped : system.swaps = []
  kept : system.heap.Kept
  threads : ∀ pc ∈ system.threads, PcCalm system.slot system.heap.objects.length pc
  counted : ∀ h, h < system.heap.handles.length →
    system.heap.refcount h = 1 + (system.threads.countP (holds h) : Nat)
  placed : ∀ h, h < system.heap.handles.length → system.slot = some h ∨
    ∃ (t : Nat) (pc : RchPc), system.threads[t]? = some pc ∧ pc.owns h = true

lemma start_calm (configured : Option τ) (threads : Nat) :
    Calm (start configured threads) where
  owned := start_owned configured threads
  unswapped := rfl
  kept := by
    cases configured with
    | none => exact ⟨rfl, by simp [start], by simp [start]⟩
    | some object =>
      refine RchHeap.Kept.cmqRchNew ?_ object
      exact ⟨rfl, by simp, by simp⟩
  threads := by
    intro pc member
    rw [eq_of_mem_replicate member]
    trivial
  counted := by
    intro h bound
    have nobody : (start configured threads).threads.countP (holds h) = 0 := by
      rw [countP_eq_zero]
      intro pc member
      rw [eq_of_mem_replicate member]
      exact Bool.false_ne_true
    rw [nobody]
    cases configured with
    | none => simp [start] at bound
    | some object =>
      have first : h = 0 := by simpa [start, cmqRchNew] using bound
      rw [first]
      rfl
  placed := by
    intro h bound
    cases configured with
    | none => simp [start] at bound
    | some object =>
      have first : h = 0 := by simpa [start, cmqRchNew] using bound
      exact .inl (by rw [first]; rfl)

lemma placed_set {threads : List RchPc} {t : Nat} {after : RchPc}
    (running : threads[t]? = some pc) (owns : pc.owns h = true → after.owns h = true)
    (placed : ∃ (i : Nat) (pc : RchPc), threads[i]? = some pc ∧ pc.owns h = true) :
    ∃ (i : Nat) (pc : RchPc), (threads.set t after)[i]? = some pc ∧ pc.owns h = true := by
  obtain ⟨i, other, located, owned⟩ := placed
  by_cases same : t = i
  · subst same
    rw [running, Option.some.injEq] at located
    subst located
    refine ⟨t, after, ?_, owns owned⟩
    simp [(List.getElem?_eq_some_iff.mp running).1]
  exact ⟨i, other, by rw [getElem?_set_ne same]; exact located, owned⟩

variable {system : RchSystem τ}

lemma Calm.countP_holds_fresh (inv : Calm system) :
    system.threads.countP (holds system.heap.handles.length) = 0 := by
  rw [countP_eq_zero]
  intro pc member holds
  have inSlot := (inv.threads pc member).slot_of_holds holds
  exact absurd (inv.owned.slot_lt _ inSlot) (Nat.lt_irrefl _)

/-- One thread moves, while the slot may be filled and objects may be allocated. -/
lemma Calm.threads_set (inv : Calm system) (t : Nat) {after : RchPc}
    (filled : ∀ h, system.slot = some h → slot = some h)
    (grown : system.heap.objects.length ≤ objects) (calm : PcCalm slot objects after) :
    ∀ pc ∈ system.threads.set t after, PcCalm slot objects pc := by
  intro pc member
  rcases mem_or_eq_of_mem_set member with member | rfl
  · exact (inv.threads pc member).mono filled grown
  exact calm

lemma step_calm (system : RchSystem τ) (event : RchEvent τ) (inv : Calm system)
    (orderly : system.orderly event = true) : Calm (system.step event) := by
  have owned := step_owned system event inv.owned
  unfold RchSystem.orderly at orderly
  unfold step at owned ⊢
  rcases Option.eq_none_or_eq_some system.threads[event.thread]? with absent | ⟨pc, running⟩
  · simp only [absent]
    exact inv
  simp only [running] at orderly owned ⊢
  have calm := inv.threads pc (mem_of_getElem? running)
  have unswapped := (rchOp_swaps_of_orderly orderly).trans inv.unswapped
  -- A thread's own reference is counted besides the one of the owner.
  have counted : ∀ h < system.heap.handles.length,
      1 + ((pc.holds h).toNat : Int) ≤ system.heap.refcount h := by
    intro h bound
    have moved := countP_set_add .idle (holds h) running
    have none : (holds h .idle).toNat = 0 := rfl
    rw [inv.counted h bound]
    omega
  have effect := rchOp_calm inv.kept inv.owned.slot_lt calm counted orderly
  generalize rchOp (system.view pc) event.choice = after at effect owned unswapped ⊢
  obtain ⟨slot, heap, _, pc'⟩ := after
  have moved : ∀ h, (system.threads.set event.thread pc').countP (holds h) +
      (pc.holds h).toNat = system.threads.countP (holds h) + (pc'.holds h).toNat :=
    fun h => countP_set_add pc' (holds h) running
  cases effect with
  | move slot_eq heap_eq calm' holds owns =>
    simp only [view] at slot_eq heap_eq holds owns
    subst slot_eq heap_eq
    refine ⟨owned, unswapped, inv.kept,
      inv.threads_set _ (fun _ => id) (Nat.le_refl _) calm', ?_, ?_⟩
    · intro h bound
      have count := moved h
      rw [holds h] at count
      rw [inv.counted h bound, Nat.add_right_cancel count]
    intro h bound
    exact (inv.placed h bound).imp_right (placed_set running (owns h))
  | count h bound slot_eq heap_eq calm' holds owns =>
    simp only [view] at slot_eq heap_eq holds owns bound
    subst slot_eq heap_eq
    refine ⟨owned, unswapped, inv.kept.setRefcount _ _,
      inv.threads_set _ (fun _ => id) (Nat.le_refl _) calm', ?_, ?_⟩
    · intro g gBound
      have gBound' : g < system.heap.handles.length := by simpa [setRefcount] using gBound
      have count := moved g
      dsimp only
      rw [refcount_setRefcount _ _ _ bound]
      by_cases same : g = h
      · subst same
        rw [inv.counted g gBound']
        omega
      rw [holds g same] at count
      rw [if_neg same, inv.counted g gBound', Nat.add_right_cancel count]
    intro g gBound
    have gBound' : g < system.heap.handles.length := by simpa [setRefcount] using gBound
    refine (inv.placed g gBound').imp_right (placed_set running fun owned => ?_)
    rw [owns g] at owned
    cases owned
  | create object pc_eq slot_eq heap_eq created =>
    simp only [view] at pc_eq slot_eq heap_eq created
    subst pc_eq slot_eq heap_eq created
    have grown : system.heap.objects.length ≤
        (cmqRchNew system.heap object).1.objects.length := by simp [cmqRchNew]
    have length : (cmqRchNew system.heap object).1.handles.length =
        system.heap.handles.length + 1 := by simp [cmqRchNew]
    refine ⟨owned, unswapped, inv.kept.cmqRchNew object,
      inv.threads_set _ (fun _ => id) grown trivial, ?_, ?_⟩
    · intro g gBound
      have same : (system.threads.set event.thread
          (.created system.heap.handles.length)).countP (holds g) =
            system.threads.countP (holds g) := moved g
      rw [same, refcount_cmqRchNew _ _ (length ▸ gBound)]
      split
      next last =>
        rw [last, inv.countP_holds_fresh]
        rfl
      exact inv.counted g (by dsimp only at gBound; omega)
    intro g gBound
    by_cases last : g = system.heap.handles.length
    · right
      refine ⟨event.thread, .created system.heap.handles.length, ?_, ?_⟩
      · simp [(List.getElem?_eq_some_iff.mp running).1]
      simp [owns, last]
    exact (inv.placed g (by dsimp only at gBound; omega)).imp_right
      (placed_set running (by simp [owns]))
  | attach h pc_eq empty slot_eq heap_eq idle =>
    simp only [view] at pc_eq empty slot_eq heap_eq idle
    subst pc_eq slot_eq heap_eq idle
    have fill : ∀ g, system.slot = some g → (some h : Option Nat) = some g := by
      intro g inSlot
      rw [empty] at inSlot
      cases inSlot
    refine ⟨owned, unswapped, inv.kept, inv.threads_set _ fill (Nat.le_refl _) trivial, ?_, ?_⟩
    · intro g gBound
      have same : (system.threads.set event.thread .idle).countP (holds g) =
          system.threads.countP (holds g) := moved g
      rw [same]
      exact inv.counted g gBound
    intro g gBound
    by_cases same : h = g
    · exact .inl (by rw [same])
    refine .inr (placed_set running ?_ ((inv.placed g gBound).resolve_left ?_))
    · intro owns
      exact absurd (beq_iff_eq.mp owns) same
    rw [empty]
    simp

lemma Calm.safe (inv : Calm system) : Safe system := by
  have objectKept : ∀ cell, system.heap.objectFrees cell = 0 := by
    intro cell
    unfold objectFrees
    cases located : system.heap.objects[cell.ptr]? with
    | none => rfl
    | some object => exact inv.kept.objects object (mem_of_getElem? located)
  refine ⟨?_, inv.kept.unfaulted, ?_, ?_, ?_⟩
  · rw [inv.unswapped]
    simp
  · intro cell member
    rw [(inv.kept.handles cell member).1, objectKept cell]
    exact ⟨Nat.zero_le 1, Nat.zero_le 1⟩
  · intro h cell located freed
    rw [(inv.kept.handles cell (mem_of_getElem? located)).1, objectKept cell] at freed
    exact absurd rfl (freed.elim id id)
  intro h cell located notInSlot unreached
  have bound := (List.getElem?_eq_some_iff.mp located).1
  obtain ⟨t, pc, at_t, owns⟩ := (inv.placed h bound).resolve_left notInSlot
  rw [(unreached pc (mem_of_getElem? at_t)).2.1] at owns
  cases owns

/-- Every orderly interleaving of readers and reloaders is safe in every state it
reaches, and no interleaving that calls `cmq_rch_swap` is. -/
theorem run_safe (configured : Option τ) (threads : Nat) (events : List (RchEvent τ)) :
    (Runs.Meets step (fun system event => system.orderly event = true)
        (start configured threads) events → Safe (run configured threads events)) ∧
      ((run configured threads events).swaps ≠ [] → ¬ Safe (run configured threads events)) := by
  refine ⟨fun orderly => ?_, not_safe_of_swaps configured threads events⟩
  exact (orderly.invariant step_calm (start_calm configured threads)).safe

/-- A read of the empty slot, an attach, and a read of the attached handle. -/
theorem run_safe_attach :
    Safe (run (none : Option Unit) 2
      [⟨0, .read⟩, ⟨1, .reload ()⟩, ⟨0, .leave⟩, ⟨1, .leave⟩, ⟨0, .leave⟩, ⟨0, .leave⟩,
        ⟨1, .leave⟩, ⟨0, .read⟩, ⟨0, .leave⟩, ⟨0, .leave⟩, ⟨0, .leave⟩, ⟨0, .use⟩,
        ⟨0, .leave⟩, ⟨0, .leave⟩]) :=
  (run_safe none 2 _).1 (by decide)

/-- A reload leaves the old handle in the slot and frees it, and the next reader uses it.
A reader that found the slot empty frees the handle that was attached meanwhile. -/
theorem run_not_safe :
    (∃ events : List (RchEvent Unit),
      let system := run (some ()) 2 events
      system.slot = some 0 ∧ system.swaps = [⟨1, some 0, some 0, some 0⟩] ∧
        system.heap.handles.map CmqRch.frees = [1, 0] ∧ system.heap.faulted = true ∧
        ¬ Safe system) ∧
    (∃ events : List (RchEvent Unit),
      let system := run none 2 events
      system.slot = some 0 ∧ system.swaps = [] ∧
        system.heap.handles.map CmqRch.frees = [1] ∧ ¬ Safe system) := by
  constructor
  · refine ⟨[⟨1, .reload ()⟩, ⟨1, .leave⟩, ⟨1, .leave⟩, ⟨1, .leave⟩, ⟨1, .leave⟩, ⟨1, .leave⟩,
      ⟨0, .read⟩, ⟨0, .leave⟩], by decide, by decide, by decide, by decide, fun safe => ?_⟩
    exact absurd safe.unused (by decide)
  refine ⟨[⟨0, .read⟩, ⟨0, .leave⟩, ⟨1, .reload ()⟩, ⟨1, .leave⟩, ⟨1, .leave⟩, ⟨0, .leave⟩,
    ⟨0, .leave⟩, ⟨0, .leave⟩, ⟨0, .leave⟩], by decide, by decide, by decide, fun safe => ?_⟩
  exact (safe.last 0 ⟨0, 0, 1⟩ (by decide) (.inl (by decide))).1 (by decide)

end RchSystem

end CMsgQueue.Util
