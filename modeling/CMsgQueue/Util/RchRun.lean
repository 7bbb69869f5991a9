import CMsgQueue.Util.Rch

/-!
# Safety of refcounted handles

No run that calls `cmq_rch_swap` is safe: the call never changes the slot, and its caller then
drops the reference of the handle still in it.  A release looks at the slot again, so a reader
that found it empty could release a handle attached since.
-/

namespace CMsgQueue.Util

open RchPc

universe u

variable {τ : Type u}

namespace RchPc

def holds (h : Nat) : RchPc → Bool
  | .acquired held => held == h
  | .reading (some (held, _)) => held == h
  | .release (some (held, _)) _ => held == h
  | _ => false

def owns (h : Nat) : RchPc → Bool
  | .created owned => owned == h
  | .attach owned => owned == h
  | .swap owned => owned == h
  | _ => false

/-- The thread is about to drop the owner's reference or to free the handle. -/
def drops (h : Nat) : RchPc → Bool
  | .releaseOwner (some dropped) => dropped == h
  | .freeObject dropped _ => dropped == h
  | .freeHandle dropped => dropped == h
  | _ => false

end RchPc

def RchHeap.objectFrees (heap : RchHeap τ) (cell : CmqRch) : Nat :=
  ((heap.objects[cell.ptr]?).map RchObject.frees).getD 0

/-- A step that is no swap, attaches only to an empty slot, and releases only the handle
that was acquired. -/
def orderlyOp (state : RchLocal τ) (choice : RchChoice τ) : Bool :=
  match state.pc, choice with
  | .swap _, _ => false
  | .attach _, _ => state.slot = none
  | .reading _, .use => true
  | .reading held, _ => state.slot = held.map Prod.fst
  | _, _ => true

namespace RchSystem

/-- What a run of readers and reloaders must keep. -/
structure Safe (system : RchSystem τ) : Prop where
  /-- A swap puts the new handle in the slot and returns the one that was there. -/
  swapped : ∀ record ∈ system.swaps,
    record.after = some record.newH ∧ record.returned = record.before
  /-- Nothing is used after it was freed. -/
  unused : system.heap.faulted = false
  /-- Nothing is freed twice. -/
  once : ∀ cell ∈ system.heap.handles, cell.frees ≤ 1 ∧ system.heap.objectFrees cell ≤ 1
  /-- What is freed is out of the slot and out of the readers' hands. -/
  last : ∀ h cell, system.heap.handles[h]? = some cell →
    cell.frees ≠ 0 ∨ system.heap.objectFrees cell ≠ 0 →
      system.slot ≠ some h ∧ ∀ pc ∈ system.threads, pc.holds h = false
  /-- What nobody can reach any more is freed. -/
  reclaimed : ∀ h cell, system.heap.handles[h]? = some cell → system.slot ≠ some h →
    (∀ pc ∈ system.threads, pc.holds h = false ∧ pc.owns h = false ∧ pc.drops h = false) →
      cell.frees = 1 ∧ system.heap.objectFrees cell = 1

def orderly (system : RchSystem τ) (event : RchEvent τ) : Bool :=
  match system.threads[event.thread]? with
  | none => true
  | some pc => orderlyOp (system.view pc) event.choice

end RchSystem

/-- The compare-exchange changes nothing, whether it succeeds or not. -/
lemma cmqRchSwap_eq (slot : Option Nat) (newH : Nat) : cmqRchSwap slot newH = (slot, slot) := by
  unfold cmqRchSwap
  split
  next same => rw [same]
  rfl

/-- What a step does to the slot and to the ownership of new handles. -/
inductive OwnerStep (state after : RchLocal τ) : Prop where
  | keep (slot_eq : after.slot = state.slot)
      (length_eq : after.heap.handles.length = state.heap.handles.length)
      (owns : ∀ h, after.pc.owns h = true → state.pc.owns h = true)
  | create (slot_eq : after.slot = state.slot)
      (length_eq : after.heap.handles.length = state.heap.handles.length + 1)
      (pc_eq : after.pc = .created state.heap.handles.length)
  | attach (h : Nat) (pc_eq : state.pc = .attach h) (slot_eq : after.slot = some h)
      (length_eq : after.heap.handles.length = state.heap.handles.length)
      (idle : after.pc = .idle)

lemma fetchSub_owner (state : RchLocal τ) (h : Nat) (obj : Option Nat) :
    OwnerStep state (fetchSub state h obj) := by
  refine .keep rfl (by simp [fetchSub, RchHeap.useHandle, RchHeap.setRefcount]) fun _ => ?_
  simp only [fetchSub]
  split <;> simp [owns]

lemma rchOp_owner (state : RchLocal τ) (choice : RchChoice τ) :
    OwnerStep state (rchOp state choice) := by
  obtain ⟨_, _, _, pc⟩ := state
  cases pc with
  | idle =>
    cases choice with
    | reload => exact .create rfl (by simp [rchOp, cmqRchNew]) rfl
    | read => exact .keep rfl rfl (by simp [rchOp, owns])
    | use | leave => exact .keep rfl rfl (by simp [rchOp])
  | acquire h =>
    cases h with
    | none => exact .keep rfl rfl (by simp [rchOp, owns])
    | some h =>
      refine .keep rfl rfl fun owned => ?_
      simp only [rchOp]
      split <;> simp [owns]
  | acquireCas h =>
    unfold rchOp
    simp only
    split
    · exact .keep rfl (by simp [RchHeap.setRefcount, RchHeap.useHandle])
        (by simp [owns])
    exact .keep rfl rfl (by simp [owns])
  | acquired h => exact .keep rfl rfl (by simp [rchOp, owns])
  | reading held =>
    refine .keep ?_ ?_ ?_ <;> cases choice <;> cases held <;>
      simp [rchOp, owns, RchHeap.useObject]
  | release held h =>
    cases h with
    | none => exact .keep rfl rfl (by simp [rchOp, owns])
    | some h => exact fetchSub_owner _ h _
  | freeObject h obj =>
    cases obj with
    | none | some => exact .keep rfl rfl (by simp [rchOp, owns])
  | freeHandle h =>
    exact .keep rfl (by simp [rchOp, RchHeap.freeHandle, RchHeap.useHandle])
      (by simp [rchOp, owns])
  | created h =>
    refine .keep rfl rfl fun owned => ?_
    simp only [rchOp]
    split <;> simp [owns]
  | attach h => exact .attach h rfl rfl rfl rfl
  | swap h =>
    exact .keep (by simp [rchOp, cmqRchSwap_eq]) rfl
      (by simp [rchOp, owns])
  | releaseOwner h =>
    cases h with
    | none => exact .keep rfl rfl (by simp [rchOp, owns])
    | some h => exact fetchSub_owner _ h _

lemma rchOp_swaps (state : RchLocal τ) (choice : RchChoice τ) :
    ((∀ h, state.pc ≠ .swap h) ∧ (rchOp state choice).swaps = state.swaps) ∨
      ∃ h, state.pc = .swap h ∧
        (rchOp state choice).swaps =
          { newH := h, before := state.slot, after := state.slot, returned := state.slot } ::
            state.swaps := by
  obtain ⟨slot, _, swaps, pc⟩ := state
  cases pc with
  | swap h => exact .inr ⟨h, rfl, by simp [rchOp, cmqRchSwap_eq]⟩
  | idle => cases choice <;> exact .inl ⟨by simp, rfl⟩
  | acquire h => cases h <;> exact .inl ⟨by simp, rfl⟩
  | acquireCas h =>
    refine .inl ⟨by simp, ?_⟩
    unfold rchOp
    simp only
    split <;> rfl
  | reading held => cases choice <;> cases held <;> exact .inl ⟨by simp, rfl⟩
  | release held h => cases h <;> exact .inl ⟨by simp, rfl⟩
  | releaseOwner h => cases h <;> exact .inl ⟨by simp, rfl⟩
  | acquired | freeObject | freeHandle | created | attach => exact .inl ⟨by simp, rfl⟩

namespace RchSystem

/-- Handles in the slot and in reloaders' hands are allocated, and a new handle is in
one place only. -/
structure Owned (system : RchSystem τ) : Prop where
  slot_lt : ∀ h, system.slot = some h → h < system.heap.handles.length
  owned : ∀ (t : Nat) (pc : RchPc) (h : Nat), system.threads[t]? = some pc → pc.owns h = true →
    h < system.heap.handles.length ∧ system.slot ≠ some h
  unique : ∀ (t t' : Nat) (pc pc' : RchPc) (h : Nat), system.threads[t]? = some pc →
    system.threads[t']? = some pc' → pc.owns h = true → pc'.owns h = true → t = t'

lemma start_owned (configured : Option τ) (threads : Nat) : Owned (start configured threads) := by
  have idle : ∀ (t : Nat) pc, (start configured threads).threads[t]? = some pc → pc = .idle := by
    intro t pc located
    exact List.eq_of_mem_replicate (List.mem_of_getElem? located)
  refine ⟨?_, ?_, ?_⟩
  · intro h inSlot
    cases configured with
    | none => cases inSlot
    | some =>
      cases inSlot
      simp [start, cmqRchNew]
  · intro t pc h located owns
    rw [idle t pc located] at owns
    cases owns
  intro t _ pc _ h located _ owns
  rw [idle t pc located] at owns
  cases owns

lemma getElem?_set_cases {threads : List RchPc} {t i : Nat} {after pc : RchPc}
    (located : (threads.set t after)[i]? = some pc) :
    (i = t ∧ pc = after) ∨ (i ≠ t ∧ threads[i]? = some pc) := by
  rw [List.getElem?_set] at located
  by_cases same : t = i
  · rw [if_pos same] at located
    split at located
    · cases located
      exact .inl ⟨same.symm, rfl⟩
    cases located
  rw [if_neg same] at located
  exact .inr ⟨fun eq => same eq.symm, located⟩

lemma step_owned (system : RchSystem τ) (event : RchEvent τ) (inv : Owned system) :
    Owned (system.step event) := by
  unfold step
  split
  · exact inv
  next pc running =>
  have effect := rchOp_owner (system.view pc) event.choice
  generalize rchOp (system.view pc) event.choice = after at effect
  -- A handle comes to a thread from itself or from the allocator, and to the slot from
  -- the thread that gives it up.
  have sources : system.heap.handles.length ≤ after.heap.handles.length ∧
      (∀ h, after.slot = some h →
        system.slot = some h ∨ pc.owns h = true ∧ after.pc.owns h = false) ∧
      ∀ h, after.pc.owns h = true →
        pc.owns h = true ∨ system.heap.handles.length ≤ h ∧ h < after.heap.handles.length := by
    cases effect with
    | keep slot_eq length_eq owns =>
      exact ⟨Nat.le_of_eq length_eq.symm, fun h inSlot => .inl (slot_eq.symm.trans inSlot),
        fun h owned => .inl (owns h owned)⟩
    | create slot_eq length_eq pc_eq =>
      have lengthNext : after.heap.handles.length = system.heap.handles.length + 1 := length_eq
      refine ⟨by omega, fun h inSlot => .inl (slot_eq.symm.trans inSlot), fun h owned => .inr ?_⟩
      rw [pc_eq] at owned
      have last := beq_iff_eq.mp owned
      omega
    | attach h pc_eq slot_eq length_eq idle =>
      refine ⟨Nat.le_of_eq length_eq.symm, fun g inSlot => .inr ?_, fun g owned => ?_⟩
      · have attached : h = g := Option.some.inj (slot_eq.symm.trans inSlot)
        rw [show pc = .attach h from pc_eq, idle]
        exact ⟨beq_iff_eq.mpr attached, rfl⟩
      rw [idle] at owned
      cases owned
  obtain ⟨grown, slots, owns⟩ := sources
  have apart : ∀ (i : Nat) pc' h, i ≠ event.thread → system.threads[i]? = some pc' →
      pc'.owns h = true → after.pc.owns h = false := by
    intro i pc' h differs located owned
    refine Bool.eq_false_iff.mpr fun both => ?_
    rcases owns h both with old | fresh
    · exact differs (inv.unique i _ pc' pc h located running owned old)
    exact Nat.not_lt.mpr fresh.1 (inv.owned i pc' h located owned).1
  refine ⟨fun h inSlot => ?_, fun i pc' h located owned => ?_, ?_⟩
  · rcases slots h inSlot with old | given
    · exact Nat.lt_of_lt_of_le (inv.slot_lt h old) grown
    exact Nat.lt_of_lt_of_le (inv.owned _ pc h running given.1).1 grown
  · rcases getElem?_set_cases located with ⟨-, rfl⟩ | ⟨differs, located⟩
    · rcases owns h owned with old | fresh
      · have before := inv.owned _ pc h running old
        refine ⟨Nat.lt_of_lt_of_le before.1 grown, fun inSlot => ?_⟩
        rcases slots h inSlot with same | given
        · exact before.2 same
        simp [owned] at given
      refine ⟨fresh.2, fun inSlot => ?_⟩
      rcases slots h inSlot with same | given
      · exact Nat.not_lt.mpr fresh.1 (inv.slot_lt h same)
      simp [owned] at given
    have before := inv.owned i pc' h located owned
    refine ⟨Nat.lt_of_lt_of_le before.1 grown, fun inSlot => ?_⟩
    rcases slots h inSlot with same | given
    · exact before.2 same
    exact differs (inv.unique i _ pc' pc h located running owned given.1)
  intro i j pc' pc'' h located located' owned owned'
  rcases getElem?_set_cases located with ⟨rfl, rfl⟩ | ⟨differs, located⟩
  · rcases getElem?_set_cases located' with ⟨rfl, -⟩ | ⟨differs, located'⟩
    · rfl
    simp [apart j pc'' h differs located' owned'] at owned
  rcases getElem?_set_cases located' with ⟨rfl, rfl⟩ | ⟨-, located'⟩
  · simp [apart i pc' h differs located owned] at owned'
  exact inv.unique i j pc' pc'' h located located' owned owned'

/-- A record of a swap shows a slot that does not hold the new handle. -/
lemma step_swaps (event : RchEvent τ) (inv : Owned system)
    (missed : ∀ record ∈ system.swaps, record.after ≠ some record.newH) :
    ∀ record ∈ (system.step event).swaps, record.after ≠ some record.newH := by
  unfold step
  split
  · exact missed
  next pc running =>
  intro record member
  rcases rchOp_swaps (system.view pc) event.choice with ⟨-, same⟩ | ⟨h, swapping, added⟩
  · simp only [same] at member
    exact missed record member
  simp only [added, List.mem_cons] at member
  rcases member with rfl | member
  · have owns : pc.owns h = true := by
      rw [show pc = .swap h from swapping]
      simp [owns]
    exact (inv.owned _ pc h running owns).2
  exact missed record member

lemma not_safe_of_swaps (configured : Option τ) (threads : Nat) (events : List (RchEvent τ))
    (swapped : (run configured threads events).swaps ≠ []) :
    ¬ Safe (run configured threads events) := by
  have missed : Owned (run configured threads events) ∧
      ∀ record ∈ (run configured threads events).swaps,
        record.after ≠ some record.newH := by
    refine List.foldlRecOn (motive := fun system => Owned system ∧
      ∀ record ∈ system.swaps, record.after ≠ some record.newH) events step ?_
      fun system inv event _ => ?_
    · exact ⟨start_owned configured threads, by simp [start]⟩
    exact ⟨step_owned system event inv.1, step_swaps event inv.1 inv.2⟩
  obtain ⟨record, member⟩ := List.exists_mem_of_ne_nil _ swapped
  intro safe
  exact missed.2 record member (safe.swapped record member).1

end RchSystem

end CMsgQueue.Util
