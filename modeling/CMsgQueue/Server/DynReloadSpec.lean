import CMsgQueue.Server.DynReload

/-!
# When a reload does what it reports

The probe leaves the heap as it was.  A swap leaves the old handle in the slot and drops the
owner's reference, so once the publishes in flight have left, every check uses freed memory.
-/

namespace CMsgQueue.Server

open List Enterprise Util

/-! ## Rules in force -/

namespace HandleLive

variable {heap : RchHeap CmqAcl} {h : Nat} {cell : CmqRch} {object : RchObject CmqAcl}

variable (live : HandleLive heap h cell object)
include live

lemma refcount_eq : heap.refcount h = cell.refcount := by
  simp [RchHeap.refcount, live.located]

lemma ptr_eq : heap.ptr h = cell.ptr := by
  simp [RchHeap.ptr, live.located]

lemma useHandle_eq : heap.useHandle h = heap := by
  simp [RchHeap.useHandle, RchHeap.handleFreed, live.located, live.kept]

lemma useObject_eq : heap.useObject cell.ptr = heap := by
  simp [RchHeap.useObject, RchHeap.objectFreed, live.held, live.heldKept]

lemma setRefcount (count : Int) (positive : 1 ≤ count) :
    HandleLive (heap.setRefcount h count) h { cell with refcount := count } object :=
  { live with
    located := by simp [RchHeap.setRefcount, live.located]
    counted := positive }

lemma setRefcount_twice (count : Int) :
    (heap.setRefcount h count).setRefcount h cell.refcount = heap := by
  have located := live.located
  obtain ⟨handles, _, _⟩ := heap
  simp only [RchHeap.setRefcount, RchHeap.mk.injEq, and_true] at located ⊢
  apply ext_getElem?
  intro g
  rw [getElem?_modify, getElem?_modify]
  by_cases same : h = g
  · subst same
    rw [located]
    simp
  cases handles[g]? <;> simp [same]

lemma cmqRchNew (newAcl : CmqAcl) :
    HandleLive (cmqRchNew heap newAcl).1 h cell object where
  located := by
    have bound := (List.getElem?_eq_some_iff.mp live.located).1
    simp only [Util.cmqRchNew, List.getElem?_append_left bound]
    exact live.located
  kept := live.kept
  counted := live.counted
  held := by
    have bound := (List.getElem?_eq_some_iff.mp live.held).1
    simp only [Util.cmqRchNew, List.getElem?_append_left bound]
    exact live.held
  heldKept := live.heldKept

lemma aclAdmit_eq (unfaulted : heap.faulted = false) (subject : Bytes) :
    aclAdmit heap (some h) subject = (heap, cmqAclCheck (some object.value) subject) := by
  have positive : ¬ heap.refcount h ≤ 0 := by
    have counted := live.counted
    rw [live.refcount_eq]
    omega
  have counted := live.counted
  have taken := live.setRefcount (heap.refcount h + 1) (by rw [live.refcount_eq]; omega)
  have restored : rchDrop (heap.setRefcount h (heap.refcount h + 1)) h (some cell.ptr) = heap := by
    have more : ¬ heap.refcount h + 1 = 1 := by rw [live.refcount_eq]; omega
    unfold rchDrop
    simp only [taken.refcount_eq, taken.useHandle_eq, if_neg more]
    rw [Int.add_sub_cancel, live.refcount_eq]
    exact live.setRefcount_twice _
  have used := taken.useObject_eq
  have located := taken.held
  unfold aclAdmit cmqRchAcquire cmqRchRelease
  simp only [if_neg positive, live.useHandle_eq, live.ptr_eq, used, restored, Option.bind_some,
    located]
  rw [show (heap.setRefcount h (heap.refcount h + 1)).faulted = false from unfaulted]
  rfl

lemma rchDrop_eq (more : 1 < cell.refcount) :
    rchDrop heap h (some cell.ptr) = heap.setRefcount h (cell.refcount - 1) := by
  have many : ¬ cell.refcount = 1 := by omega
  simp [rchDrop, live.refcount_eq, many, live.useHandle_eq]

lemma leave_decides (unfaulted : heap.faulted = false) (n : Nat) (less : n < cell.refcount)
    (subject : Bytes) :
    (aclAdmit (leave h n heap) (some h) subject).2 = cmqAclCheck (some object.value) subject := by
  induction n generalizing heap cell with
  | zero => exact congrArg Prod.snd (live.aclAdmit_eq unfaulted subject)
  | succ n ih =>
    simp only [leave, cmqRchRelease]
    rw [live.ptr_eq, live.rchDrop_eq (by omega)]
    exact ih (live.setRefcount (cell.refcount - 1) (by omega)) unfaulted (by simp only; omega)

lemma leave_last (n : Nat) (last : cell.refcount = n + 1) (subject : Bytes) :
    (aclAdmit (leave h (n + 1) heap) (some h) subject).2 = none := by
  induction n generalizing heap cell with
  | zero =>
    have dropped : (rchDrop heap h (some cell.ptr)).handles[h]? =
        some { cell with refcount := 0, frees := cell.frees + 1 } := by
      simp [rchDrop, live.refcount_eq, last, RchHeap.freeHandle, RchHeap.freeObject,
        RchHeap.useObject, RchHeap.setRefcount, RchHeap.useHandle, live.located]
    have freed : (rchDrop heap h (some cell.ptr)).handleFreed h = true := by
      simp [RchHeap.handleFreed, dropped]
    have gone : (rchDrop heap h (some cell.ptr)).refcount h ≤ 0 := by
      simp [RchHeap.refcount, dropped]
    simp [leave, cmqRchRelease, live.ptr_eq, aclAdmit, cmqRchAcquire, gone, RchHeap.useHandle,
      freed]
  | succ n ih =>
    rw [leave, cmqRchRelease, live.ptr_eq, live.rchDrop_eq (by omega)]
    exact ih (live.setRefcount (cell.refcount - 1) (by omega)) (by simp only; omega)

end HandleLive

lemma SlotLive.decision_leave {target : DynTarget}
    (live : SlotLive target.heap (target.aclH.getD none)) (n : Nat) (inFlight : n ≤ target.readers)
    (subject : Bytes) : (target.leave n).decision subject = target.decision subject := by
  unfold DynTarget.readers at inFlight
  unfold DynTarget.decision DynTarget.leave
  cases inSlot : target.aclH.getD none with
  | none => rfl
  | some h =>
    obtain ⟨_, _, handle⟩ := live.live h inSlot
    have counted := handle.counted
    simp only [inSlot, Option.elim_some, handle.refcount_eq] at inFlight ⊢
    rw [handle.leave_decides live.unfaulted n (by omega), handle.aclAdmit_eq live.unfaulted]

/-! ## Building the rules -/

instance (granted : Bool) (csv : Option Bytes) : Decidable (CsvFails granted csv) :=
  inferInstanceAs (Decidable (_ ∨ _))

lemma csvPatterns_of_empty (empty : csv.getD [] = []) : csvPatterns csv = [] := by
  simp [csvPatterns, empty]

lemma applyCsv_eq (granted : Bool) (side : AclSide) (acl : CmqAcl) (csv : Option Bytes)
    (empty : acl.patterns side = []) :
    (CsvFails granted csv ∧ (applyCsv granted side acl csv).2 = -1) ∨
      (¬ CsvFails granted csv ∧ applyCsv granted side acl csv =
        (acl.append side ((csvPatterns csv).map compilePattern), 0)) := by
  have zero : (acl.patterns side).length = 0 := by rw [empty]; rfl
  unfold applyCsv CsvFails
  by_cases absent : csv.getD [] = []
  · right
    rw [if_pos absent, csvPatterns_of_empty absent]
    refine ⟨by simp [absent], ?_⟩
    cases side <;> simp [CmqAcl.append]
  rw [if_neg absent]
  by_cases refused : granted = false
  · exact .inl ⟨.inl ⟨absent, refused⟩, by rw [if_pos refused]⟩
  rw [if_neg refused]
  by_cases long : cmqAclMaxPatterns < (csvPatterns csv).length
  · exact .inl ⟨.inr long, aclAddAll_full side acl _ (by omega) (by omega)⟩
  refine .inr ⟨?_, aclAddAll_eq side acl _ (by omega)⟩
  rintro (⟨-, no⟩ | no)
  · exact refused no
  exact long no

variable {fresh : DynConfig}

lemma configuredAcl_fresh (allowed : ¬ CsvFails allow fresh.aclAllow)
    (denied : ¬ CsvFails deny fresh.aclDeny) :
    configuredAcl (csvPatterns fresh.aclAllow) (csvPatterns fresh.aclDeny) =
      some (freshAcl fresh) := by
  have allowRoom := Nat.le_of_not_lt fun long => allowed (.inr long)
  have denyRoom := Nat.le_of_not_lt fun long => denied (.inr long)
  rw [configuredAcl_eq, if_pos ⟨allowRoom, denyRoom⟩]
  rfl

lemma cmqAclCheck_probe (fresh : DynConfig) :
    cmqAclCheck (some (freshAcl fresh)) probe ≠ none := by
  obtain ⟨_, decided, -⟩ := @cmqAclCheck_sees probe (csvPatterns fresh.aclAllow)
    (csvPatterns fresh.aclDeny) (fun inside => absurd inside.1 (by decide))
  rw [freshAcl, decided]
  exact nofun

/-! ## Installing the rules -/

lemma installAcl_empty (target : DynTarget) (newAcl : CmqAcl)
    (unfaulted : target.heap.faulted = false) :
    (installAcl true target none newAcl).2 = 0 ∧
      ∀ subject, (installAcl true target none newAcl).1.decision subject =
        cmqAclCheck (some newAcl) subject := by
  refine ⟨rfl, fun subject => ?_⟩
  have live : HandleLive (cmqRchNew target.heap newAcl).1 target.heap.handles.length
      ⟨target.heap.objects.length, 1, 0⟩ ⟨newAcl, 0⟩ :=
    ⟨by simp [cmqRchNew], rfl, Int.le_refl 1, by simp [cmqRchNew], rfl⟩
  have decided := live.aclAdmit_eq unfaulted subject
  exact congrArg Prod.snd decided

variable {object : RchObject CmqAcl}

/-- The swap leaves the old handle in the slot and its owner's reference is dropped. -/
lemma installAcl_some (granted : Bool) (target : DynTarget) (newAcl : CmqAcl)
    (live : HandleLive target.heap h cell object) (unfaulted : target.heap.faulted = false) :
    installAcl granted target (some h) newAcl =
      if cmqAclCheck (some newAcl) probe ≠ cmqAclCheck (some object.value) probe then
        (target, 0)
      else if granted = false then (target, -1)
      else
        ({ target with
            heap := rchDrop (cmqRchNew target.heap newAcl).1 h (some cell.ptr)
            aclH := some (some h) }, 0) := by
  have ptr := (live.cmqRchNew newAcl).ptr_eq
  unfold installAcl
  simp only [live.aclAdmit_eq unfaulted, cmqRchSwap_eq, cmqRchReleaseOwner, ptr]
  by_cases same : cmqAclCheck (some newAcl) probe = cmqAclCheck (some object.value) probe
  · simp [same]
  simp [same]

/-! ## The whole reload -/

def DynTarget.withLevel (target : DynTarget) (level : Int) : DynTarget :=
  { target with log := target.log.map fun _ => level, logLevel := some level }

lemma reloadSound_failed {target : DynTarget}
    (live : SlotLive target.heap (target.aclH.getD none)) (fresh : DynConfig) :
    ReloadSound target (target.withLevel fresh.logLevel) (-1) fresh ↔
      target.logLevel = some fresh.logLevel ∧
        ∀ level, target.log = some level → level = fresh.logLevel := by
  constructor
  · rintro ⟨-, kept⟩
    obtain ⟨sameLog, sameLevel, -⟩ := kept rfl
    refine ⟨sameLevel.symm, fun level logged => ?_⟩
    simp only [DynTarget.withLevel, logged, Option.map_some, Option.some.injEq] at sameLog
    exact sameLog.symm
  rintro ⟨sameLevel, sameLog⟩
  refine ⟨nofun, fun _ => ⟨?_, sameLevel.symm, live.decision_leave⟩⟩
  cases logged : target.log with
  | none => simp [DynTarget.withLevel, logged]
  | some level => simp [DynTarget.withLevel, logged, sameLog level logged]

lemma reloadSound_succeeded {target after : DynTarget}
    (configured : configuredAcl (csvPatterns fresh.aclAllow) (csvPatterns fresh.aclDeny) =
      some (freshAcl fresh)) :
    ReloadSound target after 0 fresh ↔ ∀ n ≤ target.readers, ∀ subject,
      (after.leave n).decision subject = cmqAclCheck (some (freshAcl fresh)) subject := by
  constructor
  · rintro ⟨applied, -⟩
    obtain ⟨_, built, decided⟩ := applied rfl
    rw [configured] at built
    rw [built]
    exact decided
  intro decided
  exact ⟨fun _ => ⟨freshAcl fresh, configured, decided⟩, nofun⟩

lemma cmqReloadApplyDynamic_cases (alloc : DynAlloc) (log : Option Int) (level : Int)
    (slot : Option Nat) (heap : RchHeap CmqAcl) (fresh : DynConfig)
    (lists : fresh.aclAllow ≠ none ∨ fresh.aclDeny ≠ none)
    (inRange : ¬ (fresh.logLevel < 0 ∨ fresh.logLevel > 5)) :
    let target : DynTarget := ⟨log, some level, some slot, heap⟩
    let built := alloc.acl = true ∧ ¬ CsvFails alloc.allow fresh.aclAllow ∧
      ¬ CsvFails alloc.deny fresh.aclDeny
    (¬ built ∧ cmqReloadApplyDynamic alloc target (some fresh) =
      (target.withLevel fresh.logLevel, -1)) ∨
    (built ∧ cmqReloadApplyDynamic alloc target (some fresh) =
      installAcl alloc.handle (target.withLevel fresh.logLevel) slot (freshAcl fresh)) := by
  have listed : ¬ (fresh.aclAllow = none ∧ fresh.aclDeny = none) := by tauto
  simp only [cmqReloadApplyDynamic, if_neg inRange, if_neg listed]
  cases create : alloc.acl with
  | false => exact .inl ⟨by simp, rfl⟩
  | true =>
    simp only [true_and]
    rcases applyCsv_eq alloc.allow .allow cmqAclCreate fresh.aclAllow rfl with
      ⟨failed, refused⟩ | ⟨passed, added⟩
    · exact .inl ⟨fun both => both.1 failed, by simp [refused]; rfl⟩
    simp only [added]
    rcases applyCsv_eq alloc.deny .deny
        (cmqAclCreate.append .allow ((csvPatterns fresh.aclAllow).map compilePattern))
        fresh.aclDeny rfl with ⟨failed, refused⟩ | ⟨passed', added'⟩
    · exact .inl ⟨fun both => both.2 failed, by simp [refused]; rfl⟩
    refine .inr ⟨⟨passed, passed'⟩, ?_⟩
    simp only [added']
    rfl

variable {target : DynTarget} {alloc : DynAlloc}

lemma reloadWhen_failed (inRange : ¬ (fresh.logLevel < 0 ∨ fresh.logLevel > 5))
    (fails : ReloadFails alloc target.heap slot fresh) :
    ReloadWhen alloc target slot fresh ↔ target.logLevel = some fresh.logLevel ∧
      ∀ level, target.log = some level → level = fresh.logLevel := by
  simp only [ReloadWhen, inRange, fails, false_or, true_and, not_true_eq_false, false_and, or_false]

lemma reloadWhen_passed (inRange : ¬ (fresh.logLevel < 0 ∨ fresh.logLevel > 5))
    (passes : ¬ ReloadFails alloc target.heap slot fresh) :
    ReloadWhen alloc target slot fresh ↔ slot = none := by
  simp only [ReloadWhen, inRange, passes, false_or, true_and, not_false_eq_true, false_and]

lemma installAcl_sound_iff {h : Nat} (live : SlotLive target.heap (some h))
    (inSlot : target.aclH = some (some h)) (inRange : ¬ (fresh.logLevel < 0 ∨ fresh.logLevel > 5))
    (built : alloc.acl = true ∧ ¬ CsvFails alloc.allow fresh.aclAllow ∧
      ¬ CsvFails alloc.deny fresh.aclDeny) :
    let result := installAcl alloc.handle (target.withLevel fresh.logLevel) (some h)
      (freshAcl fresh)
    ReloadSound target result.1 result.2 fresh ↔ ReloadWhen alloc target (some h) fresh := by
  obtain ⟨cell, object, handle⟩ := live.live h rfl
  have configured := configuredAcl_fresh built.2.1 built.2.2
  have current : currentAcl target.heap (some h) = some object.value := by
    simp [currentAcl, handle.located, handle.held]
  have failsIff : ReloadFails alloc target.heap (some h) fresh ↔ alloc.handle = false ∧
      cmqAclCheck (some (freshAcl fresh)) probe = cmqAclCheck (some object.value) probe := by
    simp only [ReloadFails, built, current, false_or, reduceCtorEq]
  have installed := installAcl_some alloc.handle (target.withLevel fresh.logLevel)
    (freshAcl fresh) handle live.unfaulted
  simp only [installed]
  by_cases same :
      cmqAclCheck (some (freshAcl fresh)) probe = cmqAclCheck (some object.value) probe
  · rw [if_neg (not_not.mpr same)]
    by_cases refused : alloc.handle = false
    · rw [if_pos refused, reloadSound_failed (by rwa [inSlot]), reloadWhen_failed inRange
        (failsIff.mpr ⟨refused, same⟩)]
    rw [if_neg refused, reloadSound_succeeded configured,
      reloadWhen_passed inRange (fun fails => refused (failsIff.mp fails).1)]
    -- Once the readers have left, the handle in the slot is freed.
    have created := handle.cmqRchNew (freshAcl fresh)
    have counted := handle.counted
    have readers : target.readers = (cell.refcount - 1).toNat := by
      rw [DynTarget.readers, inSlot, ← handle.refcount_eq]
      rfl
    have undecided := created.leave_last target.readers (by omega) probe
    rw [leave, created.ptr_eq] at undecided
    refine ⟨fun applied => ?_, nofun⟩
    exact absurd ((applied _ (le_refl _) probe).symm.trans undecided) (cmqAclCheck_probe fresh)
  -- The old rules are kept although the probe tells them from the fresh ones.
  rw [if_pos same, reloadSound_succeeded configured,
    reloadWhen_passed inRange (fun fails => same (failsIff.mp fails).2)]
  refine ⟨fun applied => absurd ?_ same, nofun⟩
  rw [← applied 0 (Nat.zero_le _) probe, DynTarget.withLevel, DynTarget.leave, inSlot]
  exact congrArg Prod.snd (handle.aclAdmit_eq live.unfaulted probe)

/-- `cmq_reload_apply_dynamic` does what it reports exactly when `ReloadWhen` holds. -/
theorem cmqReloadApplyDynamic_sound_iff (alloc : DynAlloc) (log : Option Int) (level : Int)
    (slot : Option Nat) (heap : RchHeap CmqAcl) (fresh : DynConfig)
    (live : SlotLive heap slot) (lists : fresh.aclAllow ≠ none ∨ fresh.aclDeny ≠ none) :
    let target : DynTarget := ⟨log, some level, some slot, heap⟩
    let result := cmqReloadApplyDynamic alloc target (some fresh)
    ReloadSound target result.1 result.2 fresh ↔ ReloadWhen alloc target slot fresh := by
  intro target result
  have live' : SlotLive target.heap (target.aclH.getD none) := live
  by_cases outside : fresh.logLevel < 0 ∨ fresh.logLevel > 5
  · have refused : result = (target, -1) := by
      simp only [result, cmqReloadApplyDynamic, target, if_pos outside]
    rw [refused]
    exact ⟨fun _ => .inl outside, fun _ => ⟨nofun, fun _ => ⟨rfl, rfl, live'.decision_leave⟩⟩⟩
  rcases cmqReloadApplyDynamic_cases alloc log level slot heap fresh lists outside with
    ⟨unbuilt, failed⟩ | ⟨built, installed⟩
  · have fails : ReloadFails alloc heap slot fresh := by
      simp only [not_and_or, Bool.not_eq_true] at unbuilt
      tauto
    rw [show result = _ from failed, reloadSound_failed live', reloadWhen_failed outside fails]
  rw [show result = _ from installed]
  cases slot with
  | some h => exact installAcl_sound_iff live rfl outside built
  | none =>
    have configured := configuredAcl_fresh built.2.1 built.2.2
    cases handle : alloc.handle with
    | false =>
      have fails : ReloadFails alloc heap none fresh :=
        .inr (.inr (.inr ⟨handle, .inl rfl⟩))
      rw [reloadWhen_failed outside fails]
      exact reloadSound_failed live' fresh
    | true =>
      obtain ⟨rc, decided⟩ := installAcl_empty (target.withLevel fresh.logLevel)
        (freshAcl fresh) live.unfaulted
      rw [rc, reloadSound_succeeded configured]
      have idle : ∀ n ≤ target.readers, n = 0 := fun n none => Nat.le_zero.mp none
      refine ⟨fun _ => .inr (.inr ⟨?_, rfl⟩), fun _ n none => ?_⟩
      · simp [ReloadFails, built, handle]
      rw [idle n none]
      exact decided

/-- A server that denies `a`. -/
def denyingTarget : DynTarget where
  log := some 2
  logLevel := some 2
  aclH := some (some 0)
  heap := (cmqRchNew ⟨[], [], false⟩ ⟨[], [compilePattern (cstr "a")]⟩).1

/-- Rules attached to an empty slot, and a reload that fails at its first allocation while a
publish has acquired the rules in force. -/
theorem cmqReloadApplyDynamic_sound_cases :
    (let target : DynTarget := ⟨some 2, some 2, some none, ⟨[], [], false⟩⟩
      let fresh : DynConfig := ⟨3, none, some (cstr "a.*,b")⟩
      let result := cmqReloadApplyDynamic ⟨true, true, true, true⟩ target (some fresh)
      result.2 = 0 ∧ ReloadSound target result.1 result.2 fresh) ∧
    (let target : DynTarget := ⟨some 2, some 2, some (some 0), denyingTarget.heap.setRefcount 0 2⟩
      let fresh : DynConfig := ⟨2, some (cstr "a"), none⟩
      let result := cmqReloadApplyDynamic ⟨false, true, true, true⟩ target (some fresh)
      target.readers = 1 ∧ result.2 = -1 ∧ ReloadSound target result.1 result.2 fresh) := by
  refine ⟨⟨by decide, ?_⟩, by decide, by decide, ?_⟩
  · refine (cmqReloadApplyDynamic_sound_iff ⟨true, true, true, true⟩ (some 2) 2 none
      ⟨[], [], false⟩ ⟨3, none, some (cstr "a.*,b")⟩ ⟨rfl, nofun⟩ (by decide)).mpr ?_
    refine .inr (.inr ⟨?_, rfl⟩)
    rintro (no | no | no | ⟨no, -⟩)
    · cases no
    · exact absurd no (by decide)
    · exact absurd no (by decide)
    cases no
  refine (cmqReloadApplyDynamic_sound_iff ⟨false, true, true, true⟩ (some 2) 2 (some 0)
    (denyingTarget.heap.setRefcount 0 2) ⟨2, some (cstr "a"), none⟩ ⟨rfl, ?_⟩ (by decide)).mpr
    (.inr (.inl ⟨.inl rfl, rfl, ?_⟩))
  · rintro _ ⟨⟩
    exact ⟨_, _, rfl, rfl, by decide, rfl, rfl⟩
  rintro _ ⟨⟩
  rfl

/-- A reload of the deny list to `b` succeeds and leaves freed rules in the slot; one to an allow
list of `a` succeeds and leaves the old rules in force; and one that fails for want of memory has
changed the log level. -/
theorem cmqReloadApplyDynamic_unsound :
    (∃ fresh after, cmqReloadApplyDynamic ⟨true, true, true, true⟩ denyingTarget
        (some fresh) = (after, 0) ∧
      after.aclH = some (some 0) ∧ after.decision (cstr "b") = none ∧
      ¬ ReloadSound denyingTarget after 0 fresh) ∧
    (∃ fresh after, cmqReloadApplyDynamic ⟨true, true, true, true⟩ denyingTarget
        (some fresh) = (after, 0) ∧
      after.decision (cstr "a") = some false ∧ after.decision (cstr "b") = some true ∧
      ¬ ReloadSound denyingTarget after 0 fresh) ∧
    (∃ fresh after, cmqReloadApplyDynamic ⟨false, true, true, true⟩ denyingTarget
        (some fresh) = (after, -1) ∧
      after.logLevel = some 3 ∧ ¬ ReloadSound denyingTarget after (-1) fresh) := by
  refine ⟨⟨⟨2, none, some (cstr "b")⟩, _, rfl, by decide, by decide, fun sound => ?_⟩,
    ⟨⟨2, some (cstr "a"), none⟩, _, rfl, by decide, by decide, fun sound => ?_⟩,
    ⟨⟨3, none, some (cstr "b")⟩, _, rfl, by decide, fun sound => ?_⟩⟩
  · exact absurd ((reloadSound_succeeded rfl).mp sound 0 (Nat.zero_le _) (cstr "b")) (by decide)
  · exact absurd ((reloadSound_succeeded rfl).mp sound 0 (Nat.zero_le _) (cstr "b")) (by decide)
  exact absurd (sound.kept rfl).2.1 (by decide)

end CMsgQueue.Server
