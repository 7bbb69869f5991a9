import CMsgQueue.Enterprise.RegistrySpec

/-!
# Subscribing, publishing and delivering across accounts

What may be delivered may be imported by the one side and exported by the other, and a gated
subject that may be imported is one that some account may deliver.
-/

namespace CMsgQueue.Enterprise

open Server

variable {mgr : CmqAccountManager} {pub sub subject : Bytes}

lemma mayDeliver_iff (differ : pub ≠ sub) : cmqAccountMayDeliver mgr pub sub subject = true ↔
    (accountIsActive mgr pub = true ∧ accountIsActive mgr sub = true) ∧
      (∃ row, findPerms mgr pub = some row ∧ row.exportsTo sub subject = true) ∧
      ∃ row, findPerms mgr sub = some row ∧ ∃ rule ∈ row.imports,
        subjectMatch rule.subject subject = true ∧ acctEqOrStar rule.sourceAccount pub = true := by
  unfold cmqAccountMayDeliver
  cases accountIsActive mgr pub <;> cases accountIsActive mgr sub <;>
    cases findPerms mgr pub <;> cases findPerms mgr sub <;>
    simp [differ, CmqAccountPerms.exportsTo]

lemma importExportPairOk_iff :
    importExportPairOk mgr (some row) account subject = true ↔
      ∃ rule ∈ row.imports, subjectMatch rule.subject subject = true ∧
        if rule.sourceAccount = [chStar] then
          ∃ source ∈ mgr.perms, source.account ≠ account ∧ source.exportsTo account subject = true
        else ∃ source, findPerms mgr rule.sourceAccount = some source ∧
          source.exportsTo account subject = true := by
  unfold importExportPairOk
  simp only [List.any_eq_true, Bool.and_eq_true]
  refine exists_congr fun rule => and_congr_right fun _ => and_congr_right fun _ => ?_
  split
  · simp
  cases findPerms mgr rule.sourceAccount <;> simp

lemma exportAllowed_of_exportsTo (exports : row.exportsTo account subject = true) :
    exportAllowed (some row) subject = true := by
  obtain ⟨rule, mem, passes⟩ := List.any_eq_true.mp exports
  rw [Bool.and_eq_true] at passes
  rw [exportAllowed, Bool.or_eq_true, List.any_eq_true]
  exact .inr ⟨rule, mem, passes.1⟩

lemma canImport_of_mayDeliver (differ : pub ≠ sub)
    (deliver : cmqAccountMayDeliver mgr pub sub subject = true) :
    cmqAccountCanImport mgr sub subject = true := by
  obtain ⟨⟨-, active⟩, ⟨source, sourceFound, exports⟩, _, found, rule, mem, hit, from_⟩ :=
    (mayDeliver_iff differ).mp deliver
  rw [cmqAccountCanImport, active, found]
  dsimp only
  rw [if_neg (by simp)]
  split
  · refine importExportPairOk_iff.mpr ⟨rule, mem, hit, ?_⟩
    obtain ⟨member, sourceAccount⟩ := PermsInv.account_of_find pub sourceFound
    split
    · exact ⟨source, member, sourceAccount ▸ differ, exports⟩
    next named =>
      have same : rule.sourceAccount = pub := by simpa [acctEqOrStar, named] using from_
      exact ⟨source, same ▸ sourceFound, exports⟩
  rfl

namespace CmqAccountManager

lemma Inv.findPerms_of_mem (inv : mgr.Inv) (mem : row ∈ mgr.perms) :
    findPerms mgr row.account = some row := by
  cases found : findPerms mgr row.account with
  | none =>
    have absent := List.find?_eq_none.mp found row mem
    simp at absent
  | some =>
    obtain ⟨member, same⟩ := PermsInv.account_of_find _ found
    rw [List.inj_on_of_nodup_map inv.perms.rows member mem same]

lemma Inv.mayDeliver (inv : mgr.Inv) (active : accountIsActive mgr account = true)
    (found : findPerms mgr account = some row) (mem : rule ∈ row.imports)
    (hit : subjectMatch rule.subject subject = true) (held : source ∈ mgr.perms)
    (exports : source.exportsTo account subject = true)
    (named : acctEqOrStar rule.sourceAccount source.account = true) :
    accountIsActive mgr source.account = true ∧
      cmqAccountMayDeliver mgr source.account account subject = true := by
  have owner := (inv.perms.ok source held).owner
  have here := inv.findPerms_of_mem held
  refine ⟨owner, ?_⟩
  by_cases self : source.account = account
  · -- an account that imports from itself
    rw [cmqAccountMayDeliver, here, exportAllowed_of_exportsTo exports]
    simp [self, active]
  exact (mayDeliver_iff self).mpr
    ⟨⟨owner, active⟩, ⟨source, here, exports⟩, row, found, rule, mem, hit, named⟩

/-- Delivery between accounts implies both permissions, and where the gate of a subscription
applies, the permission to import implies that an active account whose rows export the subject
may deliver. -/
theorem run_gates (calls : List AccountCall) (pub sub subject : Bytes) :
    let mgr := run calls
    (pub ≠ sub → cmqAccountMayDeliver mgr pub sub subject = true →
      cmqAccountCanImport mgr sub subject = true ∧
        cmqAccountCanExport mgr pub subject = true) ∧
    (exportOfferedTo mgr sub subject = true ∨
        importMatchesSubject (findPerms mgr sub) subject = true →
      cmqAccountCanImport mgr sub subject = true →
      ∃ source ∈ mgr.perms, source.exportsTo sub subject = true ∧
        accountIsActive mgr source.account = true ∧
        cmqAccountMayDeliver mgr source.account sub subject = true) := by
  intro mgr
  have inv : mgr.Inv := inv_run calls
  refine ⟨fun differ deliver => ⟨canImport_of_mayDeliver differ deliver, ?_⟩, fun gate ok => ?_⟩
  · obtain ⟨⟨active, -⟩, ⟨source, found, exports⟩, -⟩ := (mayDeliver_iff differ).mp deliver
    rw [cmqAccountCanExport, active, found, exportAllowed_of_exportsTo exports]
    rfl
  rw [← Bool.or_eq_true] at gate
  cases active : accountIsActive mgr sub with
  | false => simp [cmqAccountCanImport, active] at ok
  | true =>
    replace ok : importExportPairOk mgr (findPerms mgr sub) sub subject = true := by
      simpa [cmqAccountCanImport, active, gate] using ok
    cases found : findPerms mgr sub with
    | none => simp [found, importExportPairOk] at ok
    | some =>
      rw [found] at ok
      obtain ⟨_, mem, hit, source⟩ := importExportPairOk_iff.mp ok
      split at source
      next any =>
        obtain ⟨source, held, -, exports⟩ := source
        exact ⟨source, held, exports,
          inv.mayDeliver active found mem hit held exports (by simp [acctEqOrStar, any])⟩
      obtain ⟨source, here, exports⟩ := source
      obtain ⟨held, same⟩ := PermsInv.account_of_find _ here
      exact ⟨source, held, exports,
        inv.mayDeliver active found mem hit held exports (by simp [acctEqOrStar, same])⟩

theorem run_gates_offer :
    cmqAccountCanImport (run [.create 0 (cstr "a"), .create 0 (cstr "b"),
      .addExport (cstr "a") ⟨cstr "x", cstr "b"⟩, .addImport (cstr "b") ⟨cstr "x", cstr "a"⟩])
      (cstr "b") (cstr "x") = true :=
  ((run_gates _ (cstr "a") (cstr "b") (cstr "x")).1 (by decide) (by decide +kernel)).1

end CmqAccountManager

end CMsgQueue.Enterprise
