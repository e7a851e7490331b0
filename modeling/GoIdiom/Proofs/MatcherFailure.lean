import GoIdiom.Proofs.RunOrder

/-!
# Failing matchers

A matcher that gives up on a construct is reported there under an engine rule. Suppressions spare engine rules,
every aggregation keeps a finding of each violation, and the exit status asks for the rule and not for its severity.

With the rule on failing matchers alone the report can be lost all the same. A suppression that has to be reported
needs its own rule, and where that rule is missing the file fails as a whole: none of its findings is in the run.
Then a fault of the tool takes their place, so the exit status stays what it is.
-/

namespace GoIdiom

namespace Linter

variable {l : Linter}

/-- Whether the matcher of a rule that runs gives up on a construct of a file. -/
def FailsOn (l : Linter) (file : SourceFile) (c : Construct) : Prop :=
  ∃ rule ∈ l.rules, ∃ m cause, rule.matcher = some m ∧ m.kinds.contains c.kind = true ∧
    m.predicate c ⟨.ofConstructs file.constructs, l.config.optionsOf rule.id⟩ = .error cause

/-- An engine rule is registered. -/
theorem exists_get?_of_contains {id : String} (h : l.registry.contains id = true) :
    ∃ rule, l.registry.get? id = some rule := by
  obtain ⟨rule, hrule, hid⟩ := List.any_eq_true.mp h
  exact Option.isSome_iff_exists.mp (List.find?_isSome.mpr ⟨rule, hrule, hid⟩)

/-- A rule that is an engine rule is in the registry. -/
theorem contains_of_isEngineRule {id : String} (h : l.isEngineRule id = true) : l.registry.contains id = true := by
  obtain ⟨rule, hrule, hid⟩ := List.any_eq_true.mp h
  exact List.any_eq_true.mpr ⟨rule, hrule, (Bool.and_eq_true _ _ ▸ hid).2⟩

/-! ## The findings of a file -/

/-- A matcher that gives up does so in one of the trials of its file. -/
theorem exists_trial_of_failsOn {file : SourceFile} {c : Construct} (hc : c ∈ file.constructs)
    (h : l.FailsOn file c) :
    ∃ t ∈ l.trials l.rules file.constructs, t.construct = c ∧ ∃ cause, t.outcome = .error cause := by
  obtain ⟨rule, hrule, m, cause, hmatcher, hkind, houtcome⟩ := h
  refine ⟨⟨rule, c, _⟩, List.mem_flatMap.mpr ⟨rule, hrule, ?_⟩, rfl, cause, houtcome⟩
  rw [trialsOf, hmatcher]
  exact List.mem_map.mpr ⟨c, List.mem_filter.mpr ⟨hc, hkind⟩, rfl⟩

/-- Resolving keeps the findings of engine rules. -/
theorem mem_of_resolve {findings out : List Finding} {suppressions : List Suppression}
    (h : l.resolve findings suppressions = .ok out) {f : Finding} (hf : f ∈ findings)
    (hengine : l.isEngineRule f.ruleId = true) : f ∈ out := by
  obtain ⟨reported, -, h⟩ := Except.bind_eq_ok.mp h
  obtain rfl := Except.ok.inj h
  refine List.mem_append_left _ (List.mem_filter.mpr ⟨hf, ?_⟩)
  rw [keeps_eq, hengine, Bool.true_or]

/-- The findings of a file report the matchers that gave up. -/
theorem exists_mem_findingsIn (hengine : l.isEngineRule Style.Organization.ruleInternalError = true)
    {file : SourceFile} {c : Construct} (hc : c ∈ file.constructs) (hfails : l.FailsOn file c) {fs : List Finding}
    (h : l.findingsIn file = .ok fs) : ∃ f ∈ fs, f.violation = c.failure := by
  obtain ⟨candidates, hcandidates, h⟩ := Except.bind_eq_ok.mp h
  obtain ⟨resolved, hresolved, h⟩ := Except.bind_eq_ok.mp h
  obtain rfl := Except.ok.inj h
  obtain ⟨t, ht, rfl, cause, houtcome⟩ := exists_trial_of_failsOn hc hfails
  obtain ⟨here, hhere, hsubset⟩ := exists_of_mem_collect ht hcandidates
  obtain ⟨f, hf, hfailure⟩ := exists_mem_of_outcome_error houtcome hhere
  have hrule : f.ruleId = Style.Organization.ruleInternalError := congrArg (·.2.2.2) hfailure
  obtain ⟨g, hg, hv⟩ := Finding.exists_mem_aggregate (mem_of_resolve hresolved (hsubset hf) (hrule ▸ hengine))
  exact ⟨g, hg, hv.symm.trans hfailure⟩

/-! ## When the analysis succeeds -/

/-- Trials succeed when the rule on failing matchers is registered. -/
theorem exists_collect_eq_ok (h : l.registry.contains Style.Organization.ruleInternalError = true)
    (ts : List Trial) : ∃ fs, l.collect ts = .ok fs := by
  obtain ⟨rule, hrule⟩ := exists_get?_of_contains h
  induction ts with
  | nil => exact ⟨[], rfl⟩
  | cons t rest ih =>
    obtain ⟨more, hmore⟩ := ih
    have hfindings : ∃ here, t.findings l = .ok here := by
      rw [Trial.findings]
      cases t.outcome with
      | ok hits => exact ⟨_, rfl⟩
      | error cause => exact ⟨_, Except.bind_eq_ok.mpr ⟨_, engineFinding_of_get? hrule .., rfl⟩⟩
    obtain ⟨here, hhere⟩ := hfindings
    exact ⟨here ++ more, Except.bind_eq_ok.mpr ⟨here, hhere, Except.bind_eq_ok.mpr ⟨more, hmore, rfl⟩⟩⟩

/-- The rules under which the suppressions of a file are reported are registered: that on missing justifications for
the suppressions that have none, and that on broad suppressions for the wildcards. -/
def ReportsSuppressions (l : Linter) (file : SourceFile) : Prop :=
  ∀ s ∈ (l.suppressions file).suppressions,
    (s.isJustified = false → l.registry.contains Style.Organization.missingJustification = true) ∧
      (s.isWildcard = true → l.registry.contains Style.Organization.broadSuppression = true)

/-- What a suppression is reported for: that it has no justification, and that it is a wildcard. -/
theorem forall_mem_complaints_iff (s : Suppression) (p : String → Prop) : (∀ c ∈ complaints s, p c.1) ↔
    (s.isJustified = false → p Style.Organization.missingJustification) ∧
      (s.isWildcard = true → p Style.Organization.broadSuppression) := by
  rw [complaints, List.forall_mem_append]
  cases s.isJustified <;> cases s.isWildcard <;> simp

/-- The suppressions of a file can be reported exactly when the rule of every complaint about them is registered. -/
theorem reportsSuppressions_iff {file : SourceFile} : l.ReportsSuppressions file ↔
    ∀ x ∈ allComplaints (l.suppressions file).suppressions, l.registry.contains x.2.1 = true := by
  simp only [ReportsSuppressions, ← forall_mem_complaints_iff _ fun id => l.registry.contains id = true,
    allComplaints, List.forall_mem_flatMap, List.forall_mem_map]

/-- What is reported is reported under registered rules. -/
theorem contains_of_complaintFindings {xs : List (Suppression × String × String)} {fs : List Finding}
    (h : l.complaintFindings xs = .ok fs) : ∀ x ∈ xs, l.registry.contains x.2.1 = true := by
  induction xs generalizing fs with
  | nil => exact fun x hx => nomatch hx
  | cons x rest ih =>
    obtain ⟨f, hf, h⟩ := Except.bind_eq_ok.mp h
    obtain ⟨more, hmore, -⟩ := Except.bind_eq_ok.mp h
    refine List.forall_mem_cons.mpr ⟨?_, ih hmore⟩
    rw [engineFinding] at hf
    split at hf
    · cases hf
    · next rule hrule =>
      exact List.any_eq_true.mpr ⟨rule, List.mem_of_find?_eq_some hrule,
        List.find?_some (p := fun r : Rule => r.id == x.2.1) hrule⟩

/-- A file is analyzed to the end exactly when its suppressions can be reported. -/
theorem exists_findingsIn_eq_ok_iff (h : l.registry.contains Style.Organization.ruleInternalError = true)
    {file : SourceFile} : (∃ fs, l.findingsIn file = .ok fs) ↔ l.ReportsSuppressions file := by
  rw [reportsSuppressions_iff]
  constructor
  · rintro ⟨fs, hfs⟩
    obtain ⟨candidates, -, hfs⟩ := Except.bind_eq_ok.mp hfs
    obtain ⟨resolved, hresolved, -⟩ := Except.bind_eq_ok.mp hfs
    obtain ⟨reported, hreported, -⟩ := Except.bind_eq_ok.mp hresolved
    exact contains_of_complaintFindings hreported
  · intro hregistered
    obtain ⟨candidates, hcandidates⟩ := exists_collect_eq_ok h (l.trials l.rules file.constructs)
    have hreported := complaintFindings_eq_ok fun x hx => exists_get?_of_contains (hregistered x hx)
    have hresolved : ∃ resolved, l.resolve candidates (l.suppressions file).suppressions = .ok resolved :=
      ⟨_, Except.bind_eq_ok.mpr ⟨_, hreported, rfl⟩⟩
    obtain ⟨resolved, hresolved⟩ := hresolved
    exact ⟨_, Except.bind_eq_ok.mpr ⟨candidates, hcandidates,
      Except.bind_eq_ok.mpr ⟨resolved, hresolved, rfl⟩⟩⟩

/-! ## Runs -/

section

variable {w : Workspace} {path source : String} {file : SourceFile}

/-- The result for a file with a failing matcher reports it when the suppressions of the file can be reported. -/
theorem exists_mem_analyzeFile (hengine : l.isEngineRule Style.Organization.ruleInternalError = true)
    (htext : w.textAt path = .ok source) (hread : SourceFile.read source path = .ok file) {c : Construct}
    (hc : c ∈ file.constructs) (hfails : l.FailsOn file c) (hreports : l.ReportsSuppressions file) :
    ∃ f ∈ (l.analyzeFile w path).findings, f.violation = c.failure := by
  obtain ⟨fs, hfs⟩ := (exists_findingsIn_eq_ok_iff (contains_of_isEngineRule hengine)).mpr hreports
  simp only [analyzeFile, htext, analyzeSource, analyze, hread, hfs]
  obtain ⟨f, hf, hfailure⟩ := exists_mem_findingsIn hengine hc hfails hfs
  obtain ⟨g, hg, hv⟩ := Finding.exists_mem_aggregate hf
  exact ⟨g, hg, hv.symm.trans hfailure⟩

/-- A file whose suppressions cannot be reported has a fault of the tool and no findings. -/
theorem analyzeFile_of_not_reportsSuppressions
    (hregistered : l.registry.contains Style.Organization.ruleInternalError = true)
    (htext : w.textAt path = .ok source) (hread : SourceFile.read source path = .ok file)
    (hreports : ¬ l.ReportsSuppressions file) : l.analyzeFile w path =
      .ofFault path (.ofTool path "AttributeError: 'NoneType' object has no attribute 'category'") := by
  cases hfs : l.findingsIn file with
  | ok fs => exact absurd ((exists_findingsIn_eq_ok_iff hregistered).mp ⟨fs, hfs⟩) hreports
  | error missing =>
    simp only [analyzeFile, htext, analyzeSource, analyze, hread, hfs]
    rfl

/-- What a run finds is in one of its files, and in the result for that file. -/
theorem of_mem_findings_runSkipping {paths : List String} {cancelled : Bool} {skips : String → Bool} {f : Finding}
    (hf : f ∈ (l.runSkipping w paths cancelled skips).findings) :
    f.path ∈ l.filesOf w paths ∧ f ∈ (l.analyzeFile w f.path).findings := by
  rw [Run.findings, Finding.sort, List.mem_mergeSort] at hf
  obtain ⟨r, hr, hf⟩ := List.mem_flatMap.mp hf
  rw [results_runSkipping] at hr
  obtain ⟨path, hpath, rfl⟩ := List.mem_map.mp hr
  have heq : f.path = path := ((l.inOrder_analyzeFile w path).path f hf).trans (path_analyzeFile ..)
  rw [heq]
  exact ⟨(List.mem_filter.mp hpath).1, hf⟩

end

end Linter

namespace Run

variable {run : Run}

/-- A run has the findings of all its files. -/
theorem mem_findings {r : FileResult} (hr : r ∈ run.results) {f : Finding} (hf : f ∈ r.findings) :
    f ∈ run.findings := by
  rw [findings, Finding.sort, List.mem_mergeSort]
  exact List.mem_flatMap.mpr ⟨r, hr, hf⟩

/-- A run has the faults of all its files. -/
theorem mem_faults {r : FileResult} (hr : r ∈ run.results) {fault : Fault} (h : r.fault = some fault) :
    fault ∈ run.faults := by
  rw [faults, List.mem_mergeSort]
  exact List.mem_append_left _ (List.mem_filterMap.mpr ⟨r, hr, h⟩)

/-- A fault decides the exit status. -/
theorem exitStatus_of_mem_faults {fault : Fault} (h : fault ∈ run.faults) (warningsAsErrors : Bool) :
    run.exitStatus warningsAsErrors = .toolFault := by
  have hfaults : run.faults.isEmpty = false := List.isEmpty_eq_false_iff_exists_mem.mpr ⟨fault, h⟩
  rw [exitStatus, hasToolFaults, hfaults]
  rfl

/-- A failing matcher decides the exit status, whatever the severity of the report on it. -/
theorem exitStatus_of_mem_findings {f : Finding} (hf : f ∈ run.findings)
    (h : f.ruleId = Style.Organization.ruleInternalError) (warningsAsErrors : Bool) :
    run.exitStatus warningsAsErrors = .toolFault := by
  have hany : run.findings.any (·.ruleId == Style.Organization.ruleInternalError) = true :=
    List.any_eq_true.mpr ⟨f, hf, beq_iff_eq.mpr h⟩
  rw [exitStatus, hasToolFaults, hany, Bool.or_true]
  rfl

end Run

namespace Linter

/-- Every file that is found and not skipped has its result in the run. -/
theorem mem_results_runSkipping (l : Linter) {w : Workspace} {paths : List String} {path : String}
    (hpath : path ∈ (Discovery.ofPaths w l.config.exclude paths).files) {skips : String → Bool}
    (hskip : skips path = false) (cancelled : Bool) :
    l.analyzeFile w path ∈ (l.runSkipping w paths cancelled skips).results := by
  simp only [runSkipping, Run.byPath, List.mem_mergeSort]
  refine List.mem_map.mpr ⟨path, List.mem_filter.mpr ⟨hpath, ?_⟩, rfl⟩
  rw [hskip]
  rfl

/-- What becomes of a failing matcher. When the matcher of a rule that runs gives up on a construct of a file that
can be read, no configuration, suppression or directive keeps the run from ending with a tool fault. The findings
report the failure at the construct exactly when the suppressions of the file can be reported; else the run has no
finding in the file, and a fault of the tool instead. A registry with both rules on suppressions can always report
them. -/
theorem runSkipping_reports_failure (l : Linter)
    (hengine : l.isEngineRule Style.Organization.ruleInternalError = true) (w : Workspace) (paths : List String)
    (cancelled : Bool) (skips : String → Bool) {path source : String}
    (hpath : path ∈ (Discovery.ofPaths w l.config.exclude paths).files) (hskip : skips path = false)
    (htext : w.textAt path = .ok source) {file : SourceFile} (hread : SourceFile.read source path = .ok file)
    {c : Construct} (hc : c ∈ file.constructs) (hfails : l.FailsOn file c) :
    let run := l.runSkipping w paths cancelled skips
    (∀ warningsAsErrors, run.exitStatus warningsAsErrors = .toolFault) ∧
      ((∃ f ∈ run.findings, f.ruleId = Style.Organization.ruleInternalError ∧ f.path = path ∧
        f.line = c.pos.line ∧ f.col = c.pos.col) ↔ l.ReportsSuppressions file) ∧
      (¬ l.ReportsSuppressions file → (∀ f ∈ run.findings, f.path ≠ path) ∧
        .ofTool path "AttributeError: 'NoneType' object has no attribute 'category'" ∈ run.faults) ∧
      (l.registry.contains Style.Organization.missingJustification = true →
        l.registry.contains Style.Organization.broadSuppression = true → l.ReportsSuppressions file) := by
  intro run
  have hresult : l.analyzeFile w path ∈ run.results := mem_results_runSkipping l hpath hskip cancelled
  have hregistered := contains_of_isEngineRule hengine
  have hreport (hreports : l.ReportsSuppressions file) : ∃ f ∈ run.findings,
      f.ruleId = Style.Organization.ruleInternalError ∧ f.path = path ∧ f.line = c.pos.line ∧
      f.col = c.pos.col := by
    obtain ⟨f, hf, hfailure⟩ := exists_mem_analyzeFile hengine htext hread hc hfails hreports
    obtain ⟨hfpath, hline, hcol, hrule⟩ : f.path = c.path ∧ f.line = c.pos.line ∧ f.col = c.pos.col ∧
        f.ruleId = Style.Organization.ruleInternalError := by
      simpa only [Finding.violation, Construct.failure, Prod.mk.injEq] using hfailure
    have hcpath : c.path = path := (SourceFile.path_of_read hread).2 c hc
    exact ⟨f, Run.mem_findings hresult hf, hrule, hfpath.trans hcpath, hline, hcol⟩
  have hlost (hreports : ¬ l.ReportsSuppressions file) : (∀ f ∈ run.findings, f.path ≠ path) ∧
      .ofTool path "AttributeError: 'NoneType' object has no attribute 'category'" ∈ run.faults := by
    have hfault := analyzeFile_of_not_reportsSuppressions hregistered htext hread hreports
    refine ⟨fun f hf heq => ?_, Run.mem_faults hresult (congrArg FileResult.fault hfault)⟩
    obtain ⟨-, hmem⟩ := of_mem_findings_runSkipping hf
    rw [heq, hfault] at hmem
    cases hmem
  refine ⟨fun warningsAsErrors => ?_, ⟨?_, hreport⟩, hlost, fun hjustification hbroad s _ => ?_⟩
  · by_cases hreports : l.ReportsSuppressions file
    · obtain ⟨f, hf, hrule, -⟩ := hreport hreports
      exact Run.exitStatus_of_mem_findings hf hrule warningsAsErrors
    · exact Run.exitStatus_of_mem_faults (hlost hreports).2 warningsAsErrors
  · rintro ⟨f, hf, -, hfpath, -⟩
    by_contra hreports
    exact (hlost hreports).1 f hf hfpath
  · exact ⟨fun _ => hjustification, fun _ => hbroad⟩

/-- A limit that is no number, reported as information on a line that a wildcard exempts. -/
theorem runSkipping_reports_failure_exempted :
    let config : Config := { Config.empty with
      severities := [(Style.Organization.ruleInternalError, .info)]
      options := [("file-too-long", [("max_lines", .text "many")])] }
    let l : Linter := ⟨config, Style.registry⟩
    let source := "package p // gostyle:ignore *: generated\n"
    let w : Workspace := ⟨.directory [("a.go", .file source.toUTF8.toList)], []⟩
    let run := l.run w ["a.go"] false
    (∀ warningsAsErrors, run.exitStatus warningsAsErrors = .toolFault) ∧
      ∃ f ∈ run.findings, f.ruleId = Style.Organization.ruleInternalError ∧ f.path = "a.go" ∧
        f.line = 1 ∧ f.col = 1 := by
  intro config l source w run
  have hengine : l.isEngineRule Style.Organization.ruleInternalError = true := by
    rw [isEngineRule, Style.registry_rules, List.any_map]
    decide +kernel
  have hregistered (e) (he : e ∈ Style.Organization.engineEntries) : l.registry.contains e.id = true := by
    obtain ⟨rule, hrule, -⟩ := Style.registry_holdsEngineRules e he
    exact List.any_eq_true.mpr ⟨rule, List.mem_of_find?_eq_some hrule,
      List.find?_some (p := fun r : Rule => r.id == e.id) hrule⟩
  let c : Construct := ⟨"a.go", ⟨1, 1⟩, 1, .file 1 false "p"⟩
  let file : SourceFile := ⟨"a.go", [c, ⟨"a.go", ⟨1, 9⟩, 1, .package "p" false⟩],
    [⟨"// gostyle:ignore *: generated", ⟨1, 11⟩, 1, true⟩], "p", 1, false, [1, 1]⟩
  have hread : SourceFile.read source "a.go" = .ok file := by decide +kernel
  have htooLong : Style.Organization.rules[7] ∈ Style.rulesOf .organization := List.getElem_mem _
  obtain ⟨rule, hrule, hid, -, hmatcher⟩ := Style.exists_rule_of_mem_rulesOf htooLong
  have hfails : l.FailsOn file c := by
    refine ⟨rule, List.mem_filter.mpr ⟨List.mem_mergeSort.mpr hrule, ?_⟩, _,
      .notComparable ">" "int" "str", hmatcher, by decide, ?_⟩
    · exact Bool.or_eq_true_iff.mpr (Or.inr rfl)
    · rw [hid]
      rfl
  obtain ⟨hstatus, hreport, -, hreports⟩ :=
    runSkipping_reports_failure l hengine w ["a.go"] false (fun _ => false)
      (by decide +kernel) rfl (by decide +kernel) hread List.mem_cons_self hfails
  have hjustification := hregistered Style.Organization.engineEntries[0] (List.getElem_mem _)
  have hbroad := hregistered Style.Organization.engineEntries[1] (List.getElem_mem _)
  exact ⟨hstatus, hreport.mpr (hreports hjustification hbroad)⟩

/-- A registry with the rule on failing matchers alone, and a file with a directive that gives no reason: the
matcher of a rule that runs gives up on the file, and the findings of the run do not tell. -/
theorem runSkipping_losesFailure :
    let engine : Rule := ⟨Style.Organization.ruleInternalError, .organization, .error, "", none, none, true⟩
    let matcher : Matcher := ⟨[.file], fun _ _ => .error .notShowable⟩
    let failing : Rule := ⟨"failing", .organization, .info, "", none, some matcher, false⟩
    let l : Linter := ⟨.empty, ⟨[engine, failing]⟩⟩
    let source := "package p // gostyle:ignore failing\n"
    let w : Workspace := ⟨.directory [("a.go", .file source.toUTF8.toList)], []⟩
    let run := l.run w ["a.go"] false
    l.isEngineRule Style.Organization.ruleInternalError = true ∧
      (∃ file, w.textAt "a.go" = .ok source ∧ SourceFile.read source "a.go" = .ok file ∧
        ∃ c ∈ file.constructs, l.FailsOn file c) ∧
      run.results.map (·.path) = ["a.go"] ∧ run.findings = [] := by
  intro engine matcher failing l source w run
  let c : Construct := ⟨"a.go", ⟨1, 1⟩, 1, .file 1 false "p"⟩
  let file : SourceFile := ⟨"a.go", [c, ⟨"a.go", ⟨1, 9⟩, 1, .package "p" false⟩],
    [⟨"// gostyle:ignore failing", ⟨1, 11⟩, 1, true⟩], "p", 1, false, [1, 1]⟩
  have hread : SourceFile.read source "a.go" = .ok file := by decide +kernel
  have htext : w.textAt "a.go" = .ok source := by decide +kernel
  have hfails : l.FailsOn file c := by
    refine ⟨failing, List.mem_filter.mpr ⟨List.mem_mergeSort.mpr ?_, rfl⟩, matcher, .notShowable,
      rfl, rfl, rfl⟩
    exact List.mem_cons_of_mem _ List.mem_cons_self
  have hfiles : l.filesOf w ["a.go"] = ["a.go"] := by decide +kernel
  have hresults : run.results.map (·.path) = ["a.go"] := by
    have hpaths := map_path_results l w ["a.go"] false (fun _ => false)
    rw [hfiles] at hpaths
    exact hpaths
  have hreports : ¬ l.ReportsSuppressions file := by
    intro h
    have hmissing : l.registry.contains Style.Organization.missingJustification = false := by decide
    have hunjustified : ∃ s ∈ (l.suppressions file).suppressions, s.isJustified = false := by decide +kernel
    obtain ⟨s, hs, hunjustified⟩ := hunjustified
    rw [(h s hs).1 hunjustified] at hmissing
    cases hmissing
  refine ⟨rfl, ⟨file, htext, hread, c, List.mem_cons_self, hfails⟩, hresults,
    List.eq_nil_iff_forall_not_mem.mpr ?_⟩
  intro f hf
  obtain ⟨hpath, hmem⟩ := of_mem_findings_runSkipping hf
  rw [hfiles, List.mem_singleton] at hpath
  rw [hpath, analyzeFile_of_not_reportsSuppressions rfl htext hread hreports] at hmem
  cases hmem

end Linter

end GoIdiom
