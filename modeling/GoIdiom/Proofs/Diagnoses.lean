import GoIdiom.Proofs.Evaluation
import GoIdiom.Proofs.Lexing.File

/-!
# What becomes of engine diagnoses

The analysis reports matchers that give up and suppressions without a reason under the names of engine
rules. No suppression removes such a report, but aggregation keeps one message for each place: of several
matchers that give up at one place only the least message is shown, and of several suppressions that are
declared at one place likewise.
-/

namespace GoIdiom

variable {l : Linter}

/-- A finding of an engine rule is where it is reported, with the message that is reported. -/
theorem Linter.of_engineFinding {id path : String} {line col : Int} {message : String} {f : Finding}
    (h : l.engineFinding id path line col message = .ok f) :
    f.violation = (path, line, col, id) ∧ f.message = message := by
  rw [engineFinding] at h
  split at h
  · cases h
  · rw [← Except.ok.inj h]
    exact ⟨rfl, rfl⟩

/-- Every engine rule can be reported when it is registered. -/
theorem Linter.exists_engineFinding (hl : l.registry.HoldsEngineRules) {e : CatalogEntry}
    (he : e ∈ Style.Organization.engineEntries) (path : String) (line col : Int) (message : String) :
    ∃ f, l.engineFinding e.id path line col message = .ok f := by
  obtain ⟨rule, hrule, -⟩ := hl e he
  exact ⟨_, engineFinding_of_get? hrule path line col message⟩

namespace Trial

/-- The finding of a trial that fails. -/
theorem findings_of_error (hl : l.registry.HoldsEngineRules) {t : Trial} {cause : MatchFailure}
    (h : t.outcome = .error cause) :
    ∃ f, t.findingsOver l = [f] ∧ f.violation = t.construct.failure ∧ f.message = t.failureText cause := by
  have hentry : Style.Organization.engineEntries[2] ∈ Style.Organization.engineEntries := List.getElem_mem _
  obtain ⟨f, hf⟩ :=
    Linter.exists_engineFinding hl hentry t.construct.path t.construct.pos.line t.construct.pos.col
    (t.failureText cause)
  have hfound : t.findings l = .ok [f] := by
    rw [findings, h]
    exact Except.bind_eq_ok.mpr ⟨f, hf, rfl⟩
  refine ⟨f, ?_, Linter.of_engineFinding hf⟩
  rw [findingsOver, hfound]
  rfl

/-- A finding of a trial is made by one of its hits, or it is the report on its failure. -/
theorem of_mem_findingsOver {t : Trial} {f : Finding} (hf : f ∈ t.findingsOver l) :
    (∃ hits, t.outcome = .ok hits ∧ ∃ hit ∈ hits, f = t.findingOf l.config hit) ∨
    ∃ cause, t.outcome = .error cause ∧
      l.engineFinding Style.Organization.ruleInternalError t.construct.path t.construct.pos.line t.construct.pos.col
        (t.failureText cause) = .ok f := by
  rw [findingsOver, findings] at hf
  cases houtcome : t.outcome with
  | ok hits =>
    rw [houtcome] at hf
    obtain ⟨hit, hhit, rfl⟩ := List.mem_map.mp hf
    exact .inl ⟨hits, rfl, hit, hhit, rfl⟩
  | error cause =>
    simp only [houtcome] at hf
    cases hfinding : l.engineFinding Style.Organization.ruleInternalError t.construct.path t.construct.pos.line
        t.construct.pos.col (t.failureText cause) with
    | error missing =>
      rw [hfinding] at hf
      cases hf
    | ok g =>
      rw [hfinding] at hf
      obtain rfl := List.mem_singleton.mp hf
      exact .inr ⟨cause, rfl, hfinding⟩

end Trial

namespace Linter

/-- The message on a suppression without a reason. -/
def unjustifiedText (s : Suppression) : String :=
  "suppression of " ++ s.describe ++ " has no justification and is ignored"

/-- The violation of a suppression without a reason. -/
def unjustified (s : Suppression) : String × Int × Int × String :=
  (s.path, s.line, s.col, Style.Organization.missingJustification)

section Found

variable {constructs : List Construct} {suppressions : List Suppression} {f : Finding}

/-- The findings that the suppressions of a file leave, and the reports on them. -/
def resolved (l : Linter) (constructs : List Construct) (suppressions : List Suppression) : List Finding :=
  (l.candidates constructs).filter (l.keeps suppressions) ++ l.reports suppressions

/-- The result for a file holds its resolved findings, without repetitions. -/
theorem findings_analyzeSource (hl : l.registry.HoldsEngineRules) {source path : String} {file : SourceFile}
    (hread : SourceFile.read source path = .ok file) :
    (l.analyzeSource source path).findings =
      Finding.aggregate (l.resolved file.constructs (l.suppressions file).suppressions) := by
  rw [analyzeSource_eq hread (findingsIn_eq_ok hl file), resolved]
  have hagain := Finding.aggregate_aggregate_append
    (l.resolved file.constructs (l.suppressions file).suppressions) []
  rwa [List.append_nil, List.append_nil] at hagain

/-- Findings of rules that run are not under the name of an engine rule, unless a matcher gave up. -/
theorem exists_trial_of_mem_candidates (hspares : l.registry.SparesEngineNames)
    (hf : f ∈ l.candidates constructs) {e : CatalogEntry} (he : e ∈ Style.Organization.engineEntries)
    (hid : f.ruleId = e.id) : ∃ t ∈ l.trials l.rules constructs, ∃ cause, t.outcome = .error cause ∧
      f.violation = t.construct.failure ∧ f.message = t.failureText cause := by
  obtain ⟨t, ht, hf⟩ := List.mem_flatMap.mp hf
  rcases Trial.of_mem_findingsOver hf with ⟨hits, -, hit, -, rfl⟩ | ⟨cause, houtcome, hfinding⟩
  · obtain ⟨rule, hrule, m, hmatcher, c, -, -, rfl⟩ := mem_trials_iff.mp ht
    have hne := hspares rule (mem_rules_iff.mp hrule).1 (by rw [hmatcher]; exact Option.some_ne_none m) e he
    exact absurd hid hne
  · exact ⟨t, ht, cause, houtcome, of_engineFinding hfinding⟩

/-- What is complained about in a suppression. -/
theorem mem_complaints_iff {s : Suppression} {c : String × String} :
    c ∈ complaints s ↔
      (s.isJustified = false ∧ c = (Style.Organization.missingJustification, unjustifiedText s)) ∨
      (s.isWildcard = true ∧
        c = (Style.Organization.broadSuppression, "wildcard suppression silences every rule")) := by
  have htext : "suppression of " ++ s.describe ++ " has no justification and is ignored" = unjustifiedText s := rfl
  rw [complaints, List.mem_append, htext]
  apply or_congr
  · cases s.isJustified <;> simp
  · cases s.isWildcard <;> simp

/-- The reports on suppressions are the findings of their complaints. -/
theorem mem_reports : f ∈ l.reports suppressions ↔ ∃ s ∈ suppressions, ∃ c ∈ complaints s,
    l.engineFinding c.1 s.path s.line s.col c.2 = .ok f := by
  have hfound (s : Suppression) (c : String × String) :
      (l.engineFinding c.1 s.path s.line s.col c.2).toOption = some f ↔
        l.engineFinding c.1 s.path s.line s.col c.2 = .ok f := by
    cases l.engineFinding c.1 s.path s.line s.col c.2 <;> simp [Except.toOption]
  constructor
  · intro hf
    obtain ⟨x, hx, hf⟩ := List.mem_filterMap.mp hf
    obtain ⟨s, hs, hx⟩ := List.mem_flatMap.mp hx
    obtain ⟨c, hc, rfl⟩ := List.mem_map.mp hx
    exact ⟨s, hs, c, hc, (hfound s c).mp hf⟩
  · rintro ⟨s, hs, c, hc, hf⟩
    refine List.mem_filterMap.mpr ⟨(s, c), ?_, (hfound s c).mpr hf⟩
    exact List.mem_flatMap.mpr ⟨s, hs, List.mem_map_of_mem hc⟩

end Found

section Messages

variable (constructs : List Construct) (suppressions : List Suppression) {v : String × Int × Int × String}
  (message : String)

/-- The messages under the name of the rule on matchers that gave up. -/
theorem exists_resolved_failure_iff (hl : l.registry.HoldsEngineRules) (hspares : l.registry.SparesEngineNames)
    (hv : v.2.2.2 = Style.Organization.ruleInternalError) :
    (∃ f ∈ l.resolved constructs suppressions, f.violation = v ∧ f.message = message) ↔
      ∃ t ∈ l.trials l.rules constructs, ∃ cause, t.outcome = .error cause ∧ v = t.construct.failure ∧
        message = t.failureText cause := by
  have hentry : Style.Organization.engineEntries[2] ∈ Style.Organization.engineEntries := List.getElem_mem _
  constructor
  · rintro ⟨f, hf, rfl, rfl⟩
    rcases List.mem_append.mp hf with hf | hf
    · exact exists_trial_of_mem_candidates hspares (List.mem_filter.mp hf).1 hentry hv
    · obtain ⟨s, -, c, hc, hf⟩ := mem_reports.mp hf
      have hid : c.1 = Style.Organization.ruleInternalError := by
        rw [(of_engineFinding hf).1] at hv
        exact hv
      have hother : Style.Organization.missingJustification ≠ Style.Organization.ruleInternalError ∧
          Style.Organization.broadSuppression ≠ Style.Organization.ruleInternalError := by decide
      rcases mem_complaints_iff.mp hc with ⟨-, rfl⟩ | ⟨-, rfl⟩
      · exact absurd hid hother.1
      · exact absurd hid hother.2
  · rintro ⟨t, ht, cause, houtcome, rfl, rfl⟩
    obtain ⟨f, hf, hviolation, hmessage⟩ := Trial.findings_of_error hl houtcome
    have hcandidate : f ∈ l.candidates constructs :=
      List.mem_flatMap.mpr ⟨t, ht, hf ▸ List.mem_singleton_self f⟩
    have hrule : f.ruleId = Style.Organization.ruleInternalError := congrArg (·.2.2.2) hviolation
    obtain ⟨rule, hget, hengine⟩ := hl _ hentry
    have hrules : l.isEngineRule Style.Organization.ruleInternalError = true := isEngineRule_of_get? hget hengine
    have hkept : l.keeps suppressions f = true := by
      rw [keeps_eq, hrule, hrules, Bool.true_or]
    exact ⟨f, List.mem_append_left _ (List.mem_filter.mpr ⟨hcandidate, hkept⟩), hviolation, hmessage⟩

/-- The messages under the name of the rule on missing reasons. -/
theorem exists_resolved_unjustified_iff (hl : l.registry.HoldsEngineRules) (hspares : l.registry.SparesEngineNames)
    (hv : v.2.2.2 = Style.Organization.missingJustification) :
    (∃ f ∈ l.resolved constructs suppressions, f.violation = v ∧ f.message = message) ↔
      ∃ s ∈ suppressions, s.isJustified = false ∧ v = unjustified s ∧ message = unjustifiedText s := by
  have hentry : Style.Organization.engineEntries[0] ∈ Style.Organization.engineEntries := List.getElem_mem _
  have hother : Style.Organization.ruleInternalError ≠ Style.Organization.missingJustification ∧
      Style.Organization.broadSuppression ≠ Style.Organization.missingJustification := by decide
  constructor
  · rintro ⟨f, hf, rfl, rfl⟩
    rcases List.mem_append.mp hf with hf | hf
    · obtain ⟨t, -, cause, -, hfailure, -⟩ :=
        exists_trial_of_mem_candidates hspares (List.mem_filter.mp hf).1 hentry hv
      rw [hfailure] at hv
      exact absurd hv hother.1
    · obtain ⟨s, hs, c, hc, hf⟩ := mem_reports.mp hf
      obtain ⟨hviolation, hmessage⟩ := of_engineFinding hf
      rcases mem_complaints_iff.mp hc with ⟨hjustified, rfl⟩ | ⟨-, rfl⟩
      · exact ⟨s, hs, hjustified, hviolation, hmessage⟩
      · rw [hviolation] at hv
        exact absurd hv hother.2
  · rintro ⟨s, hs, hjustified, rfl, rfl⟩
    obtain ⟨f, hf⟩ := exists_engineFinding hl hentry s.path s.line s.col (unjustifiedText s)
    obtain ⟨hviolation, hmessage⟩ := of_engineFinding hf
    have hc := mem_complaints_iff.mpr (.inl ⟨hjustified, rfl⟩)
    exact ⟨f, List.mem_append_right _ (mem_reports.mpr ⟨s, hs, _, hc, hf⟩), hviolation, hmessage⟩

end Messages

section Results

variable {source path : String} {file : SourceFile}

/-- A matcher that gives up is reported exactly when no failure at its place has a lesser message. -/
theorem exists_failure_iff (hl : l.registry.HoldsEngineRules) (hspares : l.registry.SparesEngineNames)
    (hread : SourceFile.read source path = .ok file) {t : Trial} (ht : t ∈ l.trials l.rules file.constructs)
    {cause : MatchFailure} (hcause : t.outcome = .error cause) :
    (∃ f ∈ (l.analyzeSource source path).findings, f.violation = t.construct.failure ∧
        f.message = t.failureText cause) ↔
      ∀ u ∈ l.trials l.rules file.constructs, ∀ other, u.outcome = .error other →
        u.construct.failure = t.construct.failure → t.failureText cause ≤ u.failureText other := by
  have hiff (message : String) := exists_resolved_failure_iff file.constructs (l.suppressions file).suppressions
    message hl hspares (show t.construct.failure.2.2.2 = _ from rfl)
  rw [findings_analyzeSource hl hread,
    Finding.exists_mem_aggregate_iff ((hiff _).mpr ⟨t, ht, cause, hcause, rfl, rfl⟩)]
  constructor
  · intro hleast u hu other hother hplace
    exact hleast _ ((hiff _).mpr ⟨u, hu, other, hother, hplace.symm, rfl⟩)
  · intro hleast message hmessage
    obtain ⟨u, hu, other, hother, hplace, rfl⟩ := (hiff message).mp hmessage
    exact hleast u hu other hother hplace.symm

/-- A suppression without a reason is reported exactly when none declared at its place has a lesser message. -/
theorem exists_unjustified_iff (hl : l.registry.HoldsEngineRules) (hspares : l.registry.SparesEngineNames)
    (hread : SourceFile.read source path = .ok file) {s : Suppression}
    (hs : s ∈ (l.suppressions file).suppressions) (hjustified : s.isJustified = false) :
    (∃ f ∈ (l.analyzeSource source path).findings, f.violation = unjustified s ∧
      f.message = unjustifiedText s) ↔
      ∀ r ∈ (l.suppressions file).suppressions, r.isJustified = false → unjustified r = unjustified s →
        unjustifiedText s ≤ unjustifiedText r := by
  have hiff (message : String) := exists_resolved_unjustified_iff file.constructs (l.suppressions file).suppressions
    message hl hspares (show (unjustified s).2.2.2 = _ from rfl)
  rw [findings_analyzeSource hl hread,
    Finding.exists_mem_aggregate_iff ((hiff _).mpr ⟨s, hs, hjustified, rfl, rfl⟩)]
  constructor
  · intro hleast r hr hother hplace
    exact hleast _ ((hiff _).mpr ⟨r, hr, hother, hplace.symm, rfl⟩)
  · intro hleast message hmessage
    obtain ⟨r, hr, hother, hplace, rfl⟩ := (hiff message).mp hmessage
    exact hleast r hr hother hplace.symm

/-- A style rule that the configuration selects is tried on every construct of its kinds. -/
theorem exists_trial_of_mem_rulesOf (config : Config) {category : Category} {r : StyleRule}
    (hr : r ∈ Style.rulesOf category) (henabled : config.isEnabled r.id (some category) = true)
    {constructs : List Construct} {c : Construct} (hc : c ∈ constructs) (hkind : r.kinds.contains c.kind = true) :
    ∃ t ∈ Linter.trials ⟨config, Style.registry⟩ (Linter.rules ⟨config, Style.registry⟩) constructs,
      t.rule.id = r.id ∧ t.construct = c ∧
        t.outcome = r.predicate c ⟨.ofConstructs constructs, config.optionsOf r.id⟩ := by
  obtain ⟨rule, hrule, hid, hcategory, hmatcher⟩ := Style.exists_rule_of_mem_rulesOf hr
  have hruns : rule ∈ Linter.rules ⟨config, Style.registry⟩ := by
    refine mem_rules_iff.mpr ⟨hrule, .inr ?_⟩
    rw [hid, hcategory, henabled]
  exact ⟨_, mem_trials_iff.mpr ⟨rule, hruns, _, hmatcher, c, hc, hkind, rfl⟩, hid, rfl, by rw [hid]⟩

end Results

/-- What becomes of the diagnoses that the analysis makes itself. Of the matchers that give up at a place of a
source, the failure of one is in the result exactly when no failure there has a lesser message; and of the
suppressions without a reason that are declared at a place, one is in the result exactly when none of the
others there has a lesser message. -/
theorem analyzeSource_diagnoses (config : Config) {source path : String} {file : SourceFile}
    (hread : SourceFile.read source path = .ok file) :
    let l : Linter := ⟨config, Style.registry⟩
    let findings := (l.analyzeSource source path).findings
    let suppressions := (l.suppressions file).suppressions
    (∀ t ∈ l.trials l.rules file.constructs, ∀ cause, t.outcome = .error cause →
      ((∃ f ∈ findings, f.violation = t.construct.failure ∧ f.message = t.failureText cause) ↔
        ∀ u ∈ l.trials l.rules file.constructs, ∀ other, u.outcome = .error other →
          u.construct.failure = t.construct.failure → t.failureText cause ≤ u.failureText other)) ∧
      ∀ s ∈ suppressions, s.isJustified = false →
        ((∃ f ∈ findings, f.violation = unjustified s ∧ f.message = unjustifiedText s) ↔
          ∀ r ∈ suppressions, r.isJustified = false → unjustified r = unjustified s →
            unjustifiedText s ≤ unjustifiedText r) := by
  intro l findings suppressions
  have hl : l.registry.HoldsEngineRules := Style.registry_holdsEngineRules
  have hspares : l.registry.SparesEngineNames := Style.registry_sparesEngineNames
  constructor
  · intro t ht cause hcause
    exact exists_failure_iff hl hspares hread ht hcause
  · intro s hs hjustified
    exact exists_unjustified_iff hl hspares hread hs hjustified

/-- Two suppressions without a reason for all of a file: the one on the lesser rule is reported, and only it. -/
theorem analyzeSource_diagnoses_unjustified :
    let config : Config := { Config.empty with
      suppressions := [⟨"dot-import", ["*"], "", none⟩, ⟨"deep-nesting", ["*"], "", none⟩] }
    let findings := (Linter.analyzeSource ⟨config, Style.registry⟩ "package p\n" "p.go").findings
    let reported (message : String) : Prop :=
      ∃ f ∈ findings, f.violation = ("p.go", 1, 1, "missing-justification") ∧ f.message = message
    reported "suppression of deep-nesting has no justification and is ignored" ∧
      ¬reported "suppression of dot-import has no justification and is ignored" := by
  intro config findings reported
  have hread :
      SourceFile.read "package p\n" "p.go" = .ok ⟨"p.go", [⟨"p.go", ⟨1, 1⟩, 1, .file 1 false "p"⟩,
      ⟨"p.go", ⟨1, 9⟩, 1, .package "p" false⟩], [], "p", 1, false, [1, 1]⟩ := by
    decide +kernel
  have hsuppressions :
      (Linter.suppressions ⟨config, Style.registry⟩ ⟨"p.go", [⟨"p.go", ⟨1, 1⟩, 1, .file 1 false "p"⟩,
      ⟨"p.go", ⟨1, 9⟩, 1, .package "p" false⟩], [], "p", 1, false, [1, 1]⟩).suppressions =
        [⟨["dot-import"], "p.go", 1, Suppression.endOfFile, "", 1, 1, .configuration⟩,
          ⟨["deep-nesting"], "p.go", 1, Suppression.endOfFile, "", 1, 1, .configuration⟩] := by
    decide +kernel
  obtain ⟨-, hiff⟩ := analyzeSource_diagnoses config hread
  rw [hsuppressions] at hiff
  constructor
  · apply (hiff _ (List.mem_cons_of_mem _ List.mem_cons_self) rfl).mpr
    decide +kernel
  · intro hreported
    have hleast :=
      (hiff _ List.mem_cons_self rfl).mp hreported _ (List.mem_cons_of_mem _ List.mem_cons_self) rfl rfl
    exact absurd hleast (by decide +kernel)

/-- Two rules with limits that are no numbers give up on a function, and only one failure is reported. -/
theorem analyzeSource_hidesFailure :
    let config : Config := { Config.empty with
      options := [("function-too-long", [("max_lines", .text "x")]),
        ("too-many-parameters", [("max_params", .text "x")])] }
    let l : Linter := ⟨config, Style.registry⟩
    let source := "package p\n\nfunc f()\n"
    ∃ file, SourceFile.read source "p.go" = .ok file ∧
      ∃ t ∈ l.trials l.rules file.constructs, ∃ cause, t.outcome = .error cause ∧
      t.rule.id = "too-many-parameters" ∧
        ¬∃ f ∈ (l.analyzeSource source "p.go").findings, f.violation = t.construct.failure ∧
          f.message = t.failureText cause := by
  intro config l source
  let c : Construct := ⟨"p.go", ⟨3, 1⟩, 3,
    .function ⟨"f", none, [], [], [], false, 0, 0, [], [], false, false, "p"⟩⟩
  let file : SourceFile :=
    ⟨"p.go", [⟨"p.go", ⟨1, 1⟩, 3, .file 3 false "p"⟩, ⟨"p.go", ⟨1, 9⟩, 1, .package "p" false⟩, c],
    [], "p", 3, false, [1, 1, 3, 3, 3, 3]⟩
  have hread : SourceFile.read source "p.go" = .ok file := by decide +kernel
  have hc : c ∈ file.constructs := List.mem_cons_of_mem _ (List.mem_cons_of_mem _ List.mem_cons_self)
  have hparameters : Style.Organization.rules[3] ∈ Style.rulesOf .organization := List.getElem_mem _
  have hlength : Style.Organization.rules[2] ∈ Style.rulesOf .organization := List.getElem_mem _
  obtain ⟨t, ht, htid, htc, htoutcome⟩ := exists_trial_of_mem_rulesOf config hparameters rfl hc rfl
  obtain ⟨u, hu, huid, huc, huoutcome⟩ := exists_trial_of_mem_rulesOf config hlength rfl hc rfl
  refine ⟨file, hread, t, ht, .notComparable ">" "int" "str", htoutcome, htid, fun hreported => ?_⟩
  have hleast := (exists_failure_iff Style.registry_holdsEngineRules Style.registry_sparesEngineNames hread ht
    htoutcome).mp hreported u hu _ huoutcome (by rw [htc, huc])
  rw [Trial.failureText, Trial.failureText, htid, huid, htc, huc] at hleast
  exact absurd hleast (by decide +kernel)

end Linter

end GoIdiom
