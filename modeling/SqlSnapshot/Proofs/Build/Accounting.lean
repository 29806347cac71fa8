import SqlSnapshot.Proofs.Build.Outcomes
import SqlSnapshot.Proofs.Build.Success
import SqlSnapshot.Proofs.Definition.ParseErrors

/-!
# The numbers of a report

The counts of a report are taken from different phases of the build.  They fit together because no
phase loses or repeats a procedure or an issue: every collected item is analyzed, reused or skipped,
every analyzed one is asked for, written or found unchanged once, and every issue is handed on.
-/

namespace SqlSnapshot

/-- The procedure whose definition is asked for. -/
def Call.definition? : Call → Option Descriptor
  | .procedureDefinition d => some d
  | _ => none

namespace World

/-- The procedures whose definitions were asked for so far, in order. -/
def definitions (w : World) : List Descriptor :=
  w.calls.filterMap Call.definition?

abbrev KeepsDefinitions (w w' : World) : Prop :=
  w'.definitions = w.definitions

instance : IsTrans World KeepsDefinitions where
  trans := fun _ _ _ h₁ h₂ => h₂.trans h₁

theorem KeepsCalls.keepsDefinitions
    {w w' : World} (h : w.KeepsCalls w') :
    w.KeepsDefinitions w' :=
  congrArg (List.filterMap Call.definition?) h.1

end World

/-! ## Counting items -/

namespace Collection

/-- Every item is analyzed, reused or skipped. -/
theorem count_add_count_add_count (c : Collection) :
    c.count .analyze + c.count .reuse + c.count .skip = c.items.length := by
  simp only [count, decided]
  induction c.items with
  | nil => rfl
  | cons i items ih =>
    cases hi : i.decision <;> simp only [List.filter_cons, hi, beq_self_eq_true, if_true,
      List.length_cons, reduceCtorEq, beq_iff_eq, if_false] <;> omega

theorem length_selected (c : Collection) :
    c.selected.length = c.count .analyze + c.count .reuse := by
  have hrest : c.items.length = c.count .skip + c.selected.length := by
    rw [selected, List.length_map]
    exact List.length_eq_length_filter_add fun i : CollectionItem => i.decision == .skip
  have hall := c.count_add_count_add_count
  omega

/-- What was chosen stands in the order of the names, without repeats. -/
def IsOrdered (c : Collection) : Prop :=
  c.selected.Pairwise fun d e => d.isBefore e = true

theorem IsOrdered.mergeSort_eq
    {c : Collection} (h : c.IsOrdered) :
    c.selected.mergeSort Descriptor.isAtMost = c.selected := by
  apply List.mergeSort_of_pairwise
  apply List.Pairwise.imp _ h
  intro d e hbefore
  rw [Descriptor.isAtMost_iff]
  exact ((Descriptor.isBefore_iff d e).mp hbefore).le

theorem IsOrdered.decided
    {c : Collection} (h : c.IsOrdered) {decision : Decision} (hchosen : decision ≠ .skip) :
    ((c.decided decision).map (·.descriptor)).Pairwise fun d e => d.isBefore e = true := by
  rw [decided_eq_filter_chosen c hchosen]
  exact List.Pairwise.sublist (List.filter_sublist.map _) h

end Collection

/-- The numbers of a report fit the collection that was built from and the issues that are
reported. -/
structure Report.AccountsFor (r : Report) (found : Collection) : Prop where
  items : r.analyzed + r.reused + r.skipped = found.items.length
  analyzed : r.analyzed = (found.decided .analyze).length
  files : r.filesWritten + r.filesUnchanged = r.analyzed
  selected : r.selected.Pairwise fun d e => d.isBefore e = true
  selectedCount : r.selected.length = r.analyzed + r.reused
  parseErrors : r.parseErrors = r.issues.countP fun i => i.code == Issue.parseErrorCode
  warnings : r.warnings = r.issues.countP fun i => i.severity == .warning

namespace Build

variable {env : Conditions} {o : Options} {w w' : World} {found : Collection}

/-! ## Collecting -/

theorem Selected.isOrdered
    {content : Option ByteArray} (h : Selected env o w content found) :
    found.IsOrdered := by
  have hnames : found.selected = (env.catalog.selectedRows o).map (·.descriptor) := by
    rw [eq_comm, ← List.forall₂_eq_eq_eq, List.forall₂_map_left_iff]
    exact (List.forall₂_map_right_iff.mpr (h.described.imp fun _ _ hi => hi.descriptor.symm))
  rw [Collection.IsOrdered, hnames, List.pairwise_map]
  apply (env.catalog.pairwise_selectedRows o).imp
  intro p q hlt
  exact (Descriptor.isBefore_iff _ _).mpr hlt

theorem noParseErrors_collect
    (h : run (collect env o) w = (.ok found, w')) :
    Issue.NoParseErrors found.issues := by
  obtain ⟨rows, w₁, -, h⟩ := run_bind_eq_ok.mp (eq_ok_of_checkCancelled h)
  obtain ⟨edges, w₂, -, h⟩ := run_bind_eq_ok.mp (eq_ok_of_checkCancelled h)
  obtain ⟨items, w₃, -, h⟩ := run_bind_eq_ok.mp (eq_ok_of_checkCancelled h)
  cases h
  apply Issue.NoParseErrors.append
  · intro i hi
    obtain ⟨d, -, rfl⟩ := List.mem_map.mp hi
    rfl
  · intro i hi
    obtain ⟨d, -, rfl⟩ := List.mem_map.mp hi
    rfl

theorem noParseErrors_selectPhase
    (h : run (selectPhase env o) w = (.ok found, w')) :
    Issue.NoParseErrors found.issues := by
  obtain ⟨_, w₁, -, h⟩ := run_bind_eq_ok.mp h
  obtain ⟨found', w₂, hcollect, h⟩ := run_bind_eq_ok.mp h
  obtain ⟨_, w₃, -, h⟩ := run_bind_eq_ok.mp h
  have hcheck := eq_ok_of_checkCancelled h
  cases hcheck
  exact noParseErrors_collect hcollect

/-! ## Asking for definitions -/

theorem isInterruptible_keepsDefinitions (env : Conditions) :
    IsInterruptible env (fun call => call.definition? = none)
      fun _ step => Leaves World.KeepsDefinitions step where
  pure := fun _ _ => rfl
  bind := fun hx hf => leaves_bind hx fun _ a _ _ => hf a
  get := fun _ => rfl
  ask := fun answer hcall => leaves_ask answer fun w => by
    simp [World.KeepsDefinitions, World.definitions, hcall]
  remember := fun _ _ _ => rfl
  checkCancelled := leaves_checkCancelled fun _ => rfl
  read := fun failed _ => leaves_access failed _ fun _ _ _ => rfl

theorem keepsDefinitions_selectPhase (env : Conditions) (o : Options) :
    Leaves World.KeepsDefinitions (selectPhase env o) := by
  refine (isInterruptible_keepsDefinitions env).selectPhase ?_ (fun _ _ _ => rfl) o
  intro call hcall
  cases call with
  | procedureDefinition d => cases hcall
  | _ => rfl

theorem definitions_of_inputsOf
    {items : List CollectionItem} {inputs : List AnalysisInput}
    (h : run (inputsOf env items) w = (.ok inputs, w')) :
    w'.definitions = w.definitions ++ items.map (·.descriptor) := by
  induction items generalizing inputs w w' with
  | nil =>
    cases h
    rw [List.map_nil, List.append_nil]
  | cons i items ih =>
    rw [inputsOf] at h
    obtain ⟨definition, w₁, hask, h⟩ := run_bind_eq_ok.mp (eq_ok_of_checkCancelled h)
    have hfirst : w₁.definitions = w.definitions ++ [i.descriptor] := by
      rw [World.definitions, (ask_eq_ok hask).2.1, List.filterMap_append]
      rfl
    obtain ⟨others, w₂, hothers, h⟩ := run_bind_eq_ok.mp h
    cases h
    rw [ih hothers, hfirst, List.append_assoc]
    rfl

theorem definitions_of_analyzePhase
    {results : List Analysis} (h : run (analyzePhase env found) w = (.ok results, w')) :
    w'.definitions = w.definitions ++ (found.decided .analyze).map (·.descriptor) := by
  obtain ⟨inputs, w₁, hinputs, h⟩ := run_bind_eq_ok.mp h
  rw [run_bind_of_eq_ok (run_get w₁)] at h
  obtain ⟨as, w₂, hanalyze, h⟩ := run_bind_eq_ok.mp h
  obtain ⟨_, w₃, hreport, h⟩ := run_bind_eq_ok.mp h
  have hcheck := eq_ok_of_checkCancelled h
  cases hcheck
  cases hreport
  rw [← definitions_of_inputsOf hinputs]
  unfold AnalysisInput.analyzeAll at hanalyze
  split at hanalyze
  · cases hanalyze
  · cases hanalyze
    rfl

theorem keepsDefinitions_writePhase (env : Conditions) (o : Options) (results : List Analysis) :
    Leaves World.KeepsDefinitions (writePhase env o results) := by
  have hP := isInterruptible_keepsDefinitions env
  refine leaves_bind (hP.enrichAll (fun _ _ => rfl) results) ?_
  rintro _ ⟨enriched, issues⟩ _ _
  refine leaves_bind (fun w => (keepsCalls_writeSnapshots env o enriched w).keepsDefinitions) ?_
  intro _ written _ _
  refine leaves_bind (fun _ => rfl) ?_
  intro _ _ _ _
  exact leaves_bind (hP.checkCancelled .write) fun _ _ _ _ _ => rfl

theorem keepsDefinitions_access
    {α : Type} (env : Conditions) (failed : α) (act : Disk → Disk × α) :
    Leaves World.KeepsDefinitions (access env failed act) :=
  leaves_access failed act fun _ _ _ => rfl

theorem keepsDefinitions_flushCache (env : Conditions) (written : WrittenSnapshots) :
    Leaves World.KeepsDefinitions (flushCache env written) := by
  have hflush : ∀ c : Cache, Leaves World.KeepsDefinitions (c.flush (replaceFile env)) := by
    intro c
    unfold Cache.flush
    split
    · exact fun _ => rfl
    · split
      · exact fun _ => rfl
      · refine leaves_bind (keepsDefinitions_access env _ _) ?_
        intro _ stored _ _
        cases stored with
        | true => exact fun _ => rfl
        | false => exact fun _ => rfl
  refine leaves_bind (fun _ => rfl) ?_
  intro _ before _ _
  exact leaves_bind (hflush _) fun _ _ _ _ _ => rfl

theorem keepsDefinitions_fingerprint
    (env : Conditions) (path : String) (digest : List (String × ByteArray) → String) :
    Leaves World.KeepsDefinitions (Build.fingerprint env path digest) := by
  refine leaves_bind (keepsDefinitions_access env _ _) ?_
  intro _ outcome _ _ w
  split
  · rfl
  · rfl
  · rfl

/-- A build asks for the definitions of the procedures that it analyzes, for each one once, and for
no others. -/
theorem definitions_of_complete
    {b : CompletedBuild} (h : run (complete env o) w = (.ok b, w')) :
    w'.definitions = w.definitions ++ (b.found.decided .analyze).map (·.descriptor) := by
  obtain ⟨found, w₁, hselect, h⟩ := run_bind_eq_ok.mp h
  obtain ⟨_, w₂, hreuse, h⟩ := run_bind_eq_ok.mp h
  obtain ⟨results, w₃, hanalyze, h⟩ := run_bind_eq_ok.mp h
  obtain ⟨⟨written, issues⟩, w₄, hwrite, h⟩ := run_bind_eq_ok.mp h
  obtain ⟨flushed, w₅, hflush, h⟩ := run_bind_eq_ok.mp h
  obtain ⟨fingerprint, w₆, hfingerprint, h⟩ := run_bind_eq_ok.mp h
  cases h
  have h₁ : w₁.definitions = w.definitions := (keepsDefinitions_selectPhase env o).of_run hselect
  have h₂ : w₂.definitions = w₁.definitions :=
    congrArg (List.filterMap Call.definition?) (reusePhase_eq_ok hreuse).2.2.1
  have h₄ : w₄.definitions = w₃.definitions :=
    (keepsDefinitions_writePhase env o results).of_run hwrite
  have h₅ : w₅.definitions = w₄.definitions :=
    (keepsDefinitions_flushCache env written).of_run hflush
  have h₆ : w'.definitions = w₅.definitions :=
    (keepsDefinitions_fingerprint env _ _).of_run hfingerprint
  rw [h₆, h₅, h₄, definitions_of_analyzePhase hanalyze, h₂, h₁]

/-! ## Counting parse errors -/

theorem countP_isParseError_analyze (i : AnalysisInput) :
    i.analyze.issues.countP Issue.isParseError =
      if i.analyze.content.usedFallback then 1 else 0 := by
  cases hdefinition : i.definition with
  | some definition =>
    simp only [AnalysisInput.analyze, hdefinition]
    exact Analysis.countP_isParseError_ofDefinition _ definition
  | none =>
    simp only [AnalysisInput.analyze, hdefinition]
    exact Analysis.countP_isParseError_withoutDefinition _

/-- The issues that are handed on hold one parse error for each analysis that fell back to searching
for keywords. -/
theorem countP_isParseError_of_enrichAll
    {inputs : List AnalysisInput} {enriched : List Analysis} {issues : List Issue}
    (htables : TablesAgree env.catalog w.tables)
    (h : run (enrichAll env (inputs.map (·.analyze))) w = (.ok (enriched, issues), w')) :
    issues.countP Issue.isParseError =
      (inputs.map (·.analyze)).countP (·.content.usedFallback) := by
  induction inputs generalizing enriched issues w w' with
  | nil =>
    cases h
    rfl
  | cons i inputs ih =>
    rw [List.map_cons, enrichAll] at h
    obtain ⟨⟨one, notes⟩, w₁, hone, h⟩ := run_bind_eq_ok.mp h
    obtain ⟨heq, htables₁, -, -⟩ :=
      (isSimulation_computes env).enrich i.analyze (fun b _ => computes_tableColumns env _ _) w _ w₁
        htables hone
    obtain ⟨⟨others, issues'⟩, w₂, hothers, h⟩ := run_bind_eq_ok.mp h
    cases h
    have hnotes : Issue.NoParseErrors notes.issues := by
      rw [show notes = (i.analyze.enrich (m := Id) fun s t => env.catalog.columns? s t).run.2 from
        congrArg Prod.snd heq]
      exact i.analyze.noParseErrors_enrich _
    rw [List.countP_append, List.countP_append, hnotes.countP_eq_zero, ih htables₁ hothers,
      countP_isParseError_analyze, List.map_cons, List.countP_cons]
    omega

/-- The issues of the write phase hold the parse errors of the analyses. -/
theorem countP_isParseError_of_writePhase
    {results : List Analysis} {written : WrittenSnapshots} {issues : List Issue}
    (htables : TablesAgree env.catalog w.tables)
    (hresults : ∃ inputs : List AnalysisInput, results = inputs.map (·.analyze))
    (h : run (writePhase env o results) w = (.ok (written, issues), w')) :
    issues.countP Issue.isParseError = results.countP (·.content.usedFallback) := by
  obtain ⟨inputs, rfl⟩ := hresults
  obtain ⟨⟨enriched, issues'⟩, w₁, henrich, h⟩ := run_bind_eq_ok.mp h
  obtain ⟨written', w₂, -, h⟩ := run_bind_eq_ok.mp h
  obtain ⟨_, w₃, -, h⟩ := run_bind_eq_ok.mp h
  have hcheck := eq_ok_of_checkCancelled h
  cases hcheck
  exact countP_isParseError_of_enrichAll htables henrich

/-! ## The report -/

theorem accountsFor_of_complete
    {b : CompletedBuild} (h : run (complete env o) w = (.ok b, w')) :
    (∃ w₁, run (selectPhase env o) w = (.ok b.found, w₁)) ∧ b.found.IsOrdered ∧
      b.report.AccountsFor b.found := by
  rw [complete_eq] at h
  obtain ⟨b', w₁, hbuild, h⟩ := run_bind_eq_ok.mp h
  obtain ⟨fingerprint, w₂, -, h⟩ := run_bind_eq_ok.mp h
  cases h
  obtain ⟨⟨found, results⟩, w₃, hprepare, h⟩ := run_bind_eq_ok.mp hbuild
  obtain ⟨⟨written, issues⟩, w₄, hwrite, h⟩ := run_bind_eq_ok.mp h
  obtain ⟨flushed, w₅, -, h⟩ := run_bind_eq_ok.mp h
  cases h
  obtain ⟨content, hprepared⟩ := prepare_eq_ok hprepare
  obtain ⟨found', w₆, hselect, h⟩ := run_bind_eq_ok.mp hprepare
  obtain ⟨_, w₇, -, h⟩ := run_bind_eq_ok.mp h
  obtain ⟨results', w₈, -, h⟩ := run_bind_eq_ok.mp h
  cases h
  have hordered := hprepared.selected.isOrdered
  obtain ⟨-, -, hperm, -⟩ := writePhase_eq_ok hprepared.tablesAgree hwrite
  have hcounted := isCounted_of_writePhase hwrite
  have hfiles : written.filesWritten + written.filesUnchanged =
      (found.decided .analyze).length := by
    have hlength := hperm.length_eq
    rwa [List.length_append, ← hcounted.updated, ← hcounted.unchanged, List.length_map,
      hprepared.results, List.length_map] at hlength
  have hparse : issues.countP Issue.isParseError = results.countP (·.content.usedFallback) :=
    countP_isParseError_of_writePhase hprepared.tablesAgree
      ⟨_, by rw [hprepared.results, List.map_map]; rfl⟩ hwrite
  refine ⟨⟨w₆, hselect⟩, hordered, ?_⟩
  exact {
    items := found.count_add_count_add_count
    analyzed := rfl
    files := hfiles
    selected := by
      change (found.selected.mergeSort Descriptor.isAtMost).Pairwise _
      rw [hordered.mergeSort_eq]
      exact hordered
    selectedCount := by
      change (found.selected.mergeSort Descriptor.isAtMost).length = _
      rw [List.length_mergeSort]
      exact found.length_selected
    parseErrors := by
      change results.countP (·.content.usedFallback) =
        (found.issues ++ issues).countP Issue.isParseError
      rw [List.countP_append, (noParseErrors_selectPhase hselect).countP_eq_zero, hparse,
        Nat.zero_add]
    warnings := rfl }

/-- The report of a build that succeeds adds up.  Every collected item is counted once, every
analyzed procedure has its definition asked for once and is written or found unchanged once, and the
parse errors and warnings that are counted are those that are listed. -/
theorem report_adds_up
    {r : Report} (h : run (snapshots env o) w = (.ok r, w')) :
    ∃ found w₁, run (selectPhase env o) w = (.ok found, w₁) ∧ r.AccountsFor found ∧
      ∃ asked, w'.definitions = w.definitions ++ asked ∧
        asked = (found.decided .analyze).map (·.descriptor) ∧
        asked.Pairwise fun d e => d.isBefore e = true := by
  obtain ⟨b, w₁, hcomplete, h⟩ := run_bind_eq_ok.mp h
  cases h
  obtain ⟨⟨w₂, hselect⟩, hordered, haccounts⟩ := accountsFor_of_complete hcomplete
  exact ⟨b.found, w₂, hselect, haccounts, _, definitions_of_complete hcomplete, rfl,
    hordered.decided (by decide)⟩

/-- The sample is built for the first time. -/
theorem report_adds_up_sample :
    ∃ r w', run (snapshots (.calm .sample ⟨5000, 0⟩) .sample) .sample = (.ok r, w') ∧
      ∃ found, r.AccountsFor found ∧ w'.definitions.length = r.filesWritten + r.filesUnchanged := by
  obtain ⟨b, w', hrun, -⟩ := exists_complete_sample rfl ⟨5000, 0⟩ (o := .sample) rfl (w := .sample)
    rfl (.refl _)
  have hbuild : run (snapshots (.calm .sample ⟨5000, 0⟩) .sample) .sample = (.ok b.report, w') :=
    run_bind_of_eq_ok hrun _
  obtain ⟨found, w₁, -, haccounts, asked, hasked, rfl, -⟩ := report_adds_up hbuild
  refine ⟨b.report, w', hbuild, found, haccounts, ?_⟩
  rw [hasked, haccounts.files, haccounts.analyzed]
  exact List.length_map _

end Build

end SqlSnapshot
