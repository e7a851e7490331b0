import GoIdiom.Proofs.Deduplication
import GoIdiom.Proofs.Origins
import GoIdiom.Proofs.Registration
import GoIdiom.Proofs.Severity

/-!
# Attribution of findings

Every finding of the style catalog is in the file that was analyzed and under a registered rule that runs. Its
category is that of the rule, and its severity the one that the configuration sets for the rule, or else that of the
catalog. The rule on interfaces that are too large decides by itself when they are errors.
-/

namespace GoIdiom

variable {config : Config} {source path : String} {file : SourceFile}

/-- A rule of the style catalog is found under its identifier. -/
theorem Style.registry_get?_of_mem {rule : Rule} (h : rule ∈ Style.registry.rules) :
    Style.registry.get? rule.id = some rule := by
  rw [registry_rules] at h
  obtain ⟨e, he, rfl⟩ := List.mem_map.mp h
  exact registry_get? e he

namespace Linter

/-- The severity that the analysis of a file gives a finding of a rule: what the configuration sets for the rule, or
else that of the catalog, but for interfaces that are too large. -/
structure SeverityFits (config : Config) (file : SourceFile) (rule : Rule) (f : Finding) : Prop where
  ofRule : rule.id ≠ "interface-too-large" → f.severity = (config.severities.lookup rule.id).getD rule.severity
  tooLarge : rule.id = "interface-too-large" → ∃ c ∈ file.constructs, ∃ i, c.detail = .interface i ∧
    (f.line, f.col) = c.pos.shown ∧
    ∃ isError, Style.tooLargeIsError (config.optionsOf rule.id) i = .ok isError ∧
      f.severity = if isError then .error else (config.severities.lookup rule.id).getD rule.severity

/-- A finding that a file has under a registered rule. -/
structure Attributed (config : Config) (file : SourceFile) (rule : Rule) (f : Finding) : Prop where
  registered : Style.registry.get? f.ruleId = some rule
  runs : rule.isEngine = true ∨ config.Enables rule
  path : f.path = file.path
  category : f.category = rule.category
  severity : SeverityFits config file rule f

/-- The finding of a hit is attributed to the rule of the trial. -/
theorem Attributed.of_hit {t : Trial}
    (ht : t ∈ Linter.trials ⟨config, Style.registry⟩ (Linter.rules ⟨config, Style.registry⟩)
      file.constructs)
    (hpath : ∀ c ∈ file.constructs, c.path = file.path) {hits : List Hit}
    (houtcome : t.outcome = .ok hits) {hit : Hit} (hhit : hit ∈ hits) :
    Attributed config file t.rule (t.findingOf config hit) := by
  obtain ⟨rule, hrule, m, hm, c, hc, -, rfl⟩ := mem_trials_iff.mp ht
  obtain ⟨hregistered, hruns⟩ := mem_rules_iff.mp hrule
  obtain ⟨category, r, hr, hid, rfl⟩ := Style.exists_styleRule_of_mem_registry hregistered hm
  refine ⟨Style.registry_get?_of_mem hregistered, hruns.imp_right Config.isEnabled_iff.mp, hpath c hc,
    rfl, ?_, ?_⟩
  · intro hother
    have hopen := Style.leavesSeverity_of_mem hr (hid ▸ hother) c
      ⟨.ofConstructs file.constructs, config.optionsOf rule.id⟩
    rw [show r.predicate c _ = .ok hits from houtcome] at hopen
    rw [Trial.findingOf, hopen.of_ok hit hhit]
    rfl
  · intro hlarge
    have htoo := Style.InterfaceDesign.hits_tooLarge c ⟨.ofConstructs file.constructs, config.optionsOf rule.id⟩
    rw [← Style.predicate_of_tooLarge hr (hid.trans hlarge),
      show r.predicate c _ = .ok hits from houtcome] at htoo
    obtain ⟨i, isError, text, hdetail, hisError, rfl⟩ := htoo.of_ok hit hhit
    refine ⟨c, hc, i, hdetail, rfl, isError, hisError, ?_⟩
    cases isError <;> rfl

/-- The report of an engine rule is attributed to that rule. -/
theorem Attributed.of_engineFinding {id : String} (hentry : ∃ e ∈ Style.Organization.engineEntries, e.id = id)
    {line col : Int} {message : String} {f : Finding}
    (hf : Linter.engineFinding ⟨config, Style.registry⟩ id file.path line col message = .ok f) :
    ∃ rule, Attributed config file rule f := by
  obtain ⟨e, he, rfl⟩ := hentry
  obtain ⟨rule, hget, hengine⟩ := Style.registry_holdsEngineRules e he
  have hid : rule.id = e.id := (Registry.of_get? hget).2
  rw [engineFinding_of_get? hget] at hf
  obtain rfl := Except.ok.inj hf
  refine ⟨rule, hget, .inl hengine, rfl, rfl, fun _ => ?_, fun hlarge => ?_⟩
  · rw [hid]
    rfl
  -- The rule that chooses severities has a matcher, so it is no engine rule.
  have hother : ∀ e ∈ Style.Organization.engineEntries, e.id ≠ "interface-too-large" := by decide
  exact absurd (hid.symm.trans hlarge) (hother e he)

/-- A finding of the style catalog is attributed to a rule, whatever its origin. -/
theorem Origin.exists_attributed (hpath : ∀ c ∈ file.constructs, c.path = file.path) {f : Finding}
    (h : Origin ⟨config, Style.registry⟩ file f) : ∃ rule, Attributed config file rule f := by
  cases h with
  | hit ht houtcome hh hf => exact ⟨_, hf ▸ Attributed.of_hit ht hpath houtcome hh⟩
  | failure ht houtcome hf =>
    rw [hpath _ (construct_of_mem_trials ht)] at hf
    refine Attributed.of_engineFinding ?_ hf
    decide
  | complaint hs hc hf =>
    rw [(declaredIn_of_mem_suppressions hs).path] at hf
    refine Attributed.of_engineFinding ?_ hf
    exact id_of_mem_allComplaints (List.mem_flatMap.mpr ⟨_, hs, List.mem_map_of_mem hc⟩)

/-- Every finding is attributable. It is in the file that was analyzed, under a rule of the style catalog that is an
engine rule or that the configuration enables, in the category of that rule. Its severity is what the configuration
sets for the rule, or else that of the catalog; only an interface that is too large is an error from a number of
methods on, whatever the configuration sets. -/
theorem analyzeSource_attributed (config : Config) (source path : String) {f : Finding}
    (hf : f ∈ (Linter.analyzeSource ⟨config, Style.registry⟩ source path).findings) :
    f.path = path ∧ ∃ rule, Style.registry.get? f.ruleId = some rule ∧ f.category = rule.category ∧
      (rule.isEngine = true ∨ config.Enables rule) ∧
      (f.ruleId ≠ "interface-too-large" →
        f.severity = (config.severities.lookup f.ruleId).getD rule.severity) ∧
      (f.ruleId = "interface-too-large" → ∃ file, SourceFile.read source path = .ok file ∧
        ∃ c ∈ file.constructs, ∃ i, c.detail = .interface i ∧ (f.line, f.col) = c.pos.shown ∧
          ∃ isError, Style.tooLargeIsError (config.optionsOf f.ruleId) i = .ok isError ∧
            (∀ limit, ((config.optionsOf f.ruleId).lookup "error_at").getD (.int 5) = .int limit →
              (isError = true ↔ limit ≤ i.methods.length)) ∧
            f.severity = if isError then .error else (config.severities.lookup f.ruleId).getD rule.severity) := by
  cases hread : SourceFile.read source path with
  | error e =>
    rw [analyzeSource, analyze, hread] at hf
    cases hf
  | ok file =>
    obtain ⟨hfile, hconstructs⟩ := SourceFile.path_of_read hread
    obtain ⟨rule, h⟩ := (Origin.of_mem_findings Style.registry_holdsEngineRules hread hf).exists_attributed
      (hfile ▸ hconstructs)
    have hid : rule.id = f.ruleId := (Registry.of_get? h.registered).2
    have hseverity := h.severity
    refine ⟨h.path.trans hfile, rule, h.registered, h.category, h.runs, ?_, ?_⟩
    · rw [← hid]
      exact hseverity.ofRule
    · rw [← hid]
      intro hlarge
      obtain ⟨c, hc, i, hi, hplace, isError, hisError, hfits⟩ := hseverity.tooLarge hlarge
      refine ⟨file, rfl, c, hc, i, hi, hplace, isError, hisError, fun limit hlimit => ?_, hfits⟩
      rw [Style.tooLargeIsError_of_int hlimit] at hisError
      rw [← Except.ok.inj hisError, decide_eq_true_iff]

/-- A hit of a rule that runs makes a finding. -/
theorem mem_candidates_of_hit {l : Linter} {constructs : List Construct} {t : Trial}
    (ht : t ∈ l.trials l.rules constructs) {hits : List Hit} (houtcome : t.outcome = .ok hits) {hit : Hit}
    (hhit : hit ∈ hits) : t.findingOf l.config hit ∈ l.candidates constructs := by
  refine List.mem_flatMap.mpr ⟨t, ht, ?_⟩
  rw [Trial.findingsOver, Trial.findings, houtcome]
  exact List.mem_map_of_mem hhit

/-- A hit of a rule that runs is found where no suppression covers it. -/
theorem exists_mem_findings_of_hit {l : Linter} (hl : l.registry.HoldsEngineRules)
    (hread : SourceFile.read source path = .ok file) (hnone : (l.suppressions file).suppressions = [])
    {t : Trial} (ht : t ∈ l.trials l.rules file.constructs) {hits : List Hit} (houtcome : t.outcome = .ok hits)
    {hit : Hit} (hhit : hit ∈ hits) :
    ∃ f ∈ (l.analyzeSource source path).findings, f.violation = (t.findingOf l.config hit).violation := by
  have hkept : l.keeps [] (t.findingOf l.config hit) = true := by
    rw [keeps, List.any_nil, Bool.not_false, Bool.or_true]
  rw [findings_analyzeSource hl hread, hnone]
  obtain ⟨f, hf, hviolation⟩ := Finding.exists_mem_aggregate (List.mem_append_left (l.reports [])
    (List.mem_filter.mpr ⟨mem_candidates_of_hit ht houtcome hhit, hkept⟩))
  exact ⟨f, hf, hviolation.symm⟩

/-- Where no suppression is declared and no matcher gives up, the finding of a hit is in the result as it is. -/
theorem mem_findings_of_hit (hread : SourceFile.read source path = .ok file)
    (hok : ∀ t ∈ Linter.trials ⟨config, Style.registry⟩ (Linter.rules ⟨config, Style.registry⟩)
      file.constructs, ∃ hits, t.outcome = .ok hits)
    (hnone : (Linter.suppressions ⟨config, Style.registry⟩ file).suppressions = []) {t : Trial}
    (ht : t ∈ Linter.trials ⟨config, Style.registry⟩ (Linter.rules ⟨config, Style.registry⟩)
      file.constructs)
    {hits : List Hit} (houtcome : t.outcome = .ok hits) {hit : Hit} (hhit : hit ∈ hits) :
    t.findingOf config hit ∈ (Linter.analyzeSource ⟨config, Style.registry⟩ source path).findings := by
  have hkept (f : Finding) : Linter.keeps ⟨config, Style.registry⟩ [] f = true := by
    rw [keeps, List.any_nil, Bool.not_false, Bool.or_true]
  have hdistinct := violations_candidates_nodup (l := ⟨config, Style.registry⟩) rfl hread hok
  rw [findings_analyzeSource Style.registry_holdsEngineRules hread, hnone, resolved,
    List.filter_eq_self.mpr fun f _ => hkept f]
  -- Nothing is reported on suppressions, and aggregation only sorts findings of different violations.
  rw [show Linter.reports ⟨config, Style.registry⟩ [] = [] from rfl, List.append_nil]
  exact (Finding.aggregate_perm hdistinct).mem_iff.mpr (mem_candidates_of_hit ht houtcome hhit)

/-- A hit of a rule that the configuration enables is found where no suppression covers it. -/
theorem exists_mem_findings_of_rule (config : Config) (hread : SourceFile.read source path = .ok file)
    (hnone : (Linter.suppressions ⟨config, Style.registry⟩ file).suppressions = []) {category : Category}
    {r : StyleRule} (hr : r ∈ Style.rulesOf category) (henabled : config.isEnabled r.id (some category) = true)
    {c : Construct} (hc : c ∈ file.constructs) (hkind : r.kinds.contains c.kind = true) {message : String}
    {severity : Option Severity} (hhit : r.predicate c ⟨.ofConstructs file.constructs, config.optionsOf r.id⟩ =
      .ok [{ Hit.here message with severity := severity }]) :
    ∃ f ∈ (Linter.analyzeSource ⟨config, Style.registry⟩ source path).findings,
      f.ruleId = r.id ∧ (f.line, f.col) = c.pos.shown := by
  obtain ⟨t, ht, hid, htc, houtcome⟩ := exists_trial_of_mem_rulesOf config hr henabled hc hkind
  obtain ⟨f, hf, hviolation⟩ := exists_mem_findings_of_hit Style.registry_holdsEngineRules hread hnone ht
    (houtcome.trans hhit) (List.mem_singleton_self _)
  obtain ⟨-, hline, hcol, hrule⟩ := Finding.violation_eq_iff.mp hviolation
  refine ⟨f, hf, hrule.trans hid, ?_⟩
  rw [hline, hcol, Trial.findingOf, htc]
  rfl

/-- Severities that the configuration sets and the one that it cannot set: a dot import is an error, and an
interface with three methods is worth a remark, as the configuration says; a file of some lines is worth a remark as
the catalog says; but an interface with five methods is an error whatever the configuration says. -/
theorem analyzeSource_attributed_overridden :
    let config : Config := { Config.empty with
      severities := [("interface-too-large", .info), ("dot-import", .error)]
      options := [("file-too-long", [("max_lines", .int 1)])] }
    let source := "package p\n\nimport . \"fmt\"\n\ntype I interface \x7b A(); B(); C(); D(); E() \x7d\n\n" ++
      "type J interface \x7b A(); B(); C() \x7d\n"
    let findings := (Linter.analyzeSource ⟨config, Style.registry⟩ source "p.go").findings
    (∃ f ∈ findings, f.ruleId = "file-too-long" ∧ (f.line, f.col) = (1, 1) ∧ f.severity = .info) ∧
      (∃ f ∈ findings, f.ruleId = "dot-import" ∧ (f.line, f.col) = (3, 8) ∧ f.severity = .error) ∧
      (∃ f ∈ findings, f.ruleId = "interface-too-large" ∧ (f.line, f.col) = (5, 6) ∧
        f.severity = .error) ∧
      ∃ f ∈ findings, f.ruleId = "interface-too-large" ∧ (f.line, f.col) = (7, 6) ∧ f.severity = .info := by
  intro config source findings
  let i : InterfaceInfo :=
    ⟨"I", [], [⟨"A", "()", 5⟩, ⟨"B", "()", 5⟩, ⟨"C", "()", 5⟩, ⟨"D", "()", 5⟩,
      ⟨"E", "()", 5⟩], [], false⟩
  let j : InterfaceInfo := ⟨"J", [], [⟨"A", "()", 7⟩, ⟨"B", "()", 7⟩, ⟨"C", "()", 7⟩], [], false⟩
  let whole : Construct := ⟨"p.go", ⟨1, 1⟩, 7, .file 7 false "p"⟩
  let imported : Construct := ⟨"p.go", ⟨3, 8⟩, 3, .imported "fmt" (some ".")⟩
  let five : Construct := ⟨"p.go", ⟨5, 6⟩, 5, .interface i⟩
  let three : Construct := ⟨"p.go", ⟨7, 6⟩, 7, .interface j⟩
  let file : SourceFile :=
    ⟨"p.go", [whole, ⟨"p.go", ⟨1, 9⟩, 1, .package "p" false⟩, imported, five, three], [], "p", 7,
    false, [1, 1, 3, 3, 3] ++ List.replicate 20 5 ++ List.replicate 14 7⟩
  have hread : SourceFile.read source "p.go" = .ok file := by decide +kernel
  have hnone : (Linter.suppressions ⟨config, Style.registry⟩ file).suppressions = [] := by decide +kernel
  have hplaced {c : Construct} {k : InterfaceInfo} (hc : c ∈ file.constructs) (hk : c.detail = .interface k) :
      c.pos.shown = (5, 6) ∧ k = i ∨ c.pos.shown = (7, 6) ∧ k = j := by
    simp only [file, List.mem_cons, List.not_mem_nil, or_false] at hc
    rcases hc with rfl | rfl | rfl | rfl | rfl
    · cases hk
    · cases hk
    · cases hk
    · exact .inl ⟨rfl, (Detail.interface.inj hk).symm⟩
    · exact .inr ⟨rfl, (Detail.interface.inj hk).symm⟩
  have hchosen {f : Finding} (hf : f ∈ findings) (hid : f.ruleId = "interface-too-large") :
      (f.line, f.col) = (5, 6) ∧ f.severity = .error ∨ (f.line, f.col) = (7, 6) ∧ f.severity = .info := by
    obtain ⟨-, rule, -, -, -, -, hlarge⟩ := analyzeSource_attributed config source "p.go" hf
    obtain ⟨same, hsame, d, hd, k, hk, hshown, isError, -, hisError, hseverity⟩ := hlarge hid
    obtain rfl := Except.ok.inj (hread.symm.trans hsame)
    rw [hid] at hisError hseverity
    obtain ⟨hplace, rfl⟩ | ⟨hplace, rfl⟩ := hplaced hd hk
    · rw [(hisError 5 rfl).mpr (by decide)] at hseverity
      exact .inl ⟨hshown.trans hplace, hseverity⟩
    · rw [Bool.eq_false_of_not_eq_true fun h => absurd ((hisError 5 rfl).mp h) (by decide)] at hseverity
      exact .inr ⟨hshown.trans hplace, hseverity⟩
  refine ⟨?_, ?_, ?_, ?_⟩
  · have hr : Style.Organization.rules[7] ∈ Style.rulesOf .organization := List.getElem_mem _
    have hc : whole ∈ file.constructs := by simp [file]
    obtain ⟨f, hf, hid, hplace⟩ := exists_mem_findings_of_rule config hread hnone hr rfl hc rfl
      (show _ = Except.ok [{ Hit.here "file has 7 lines (limit 1)" with severity := none }] by decide +kernel)
    obtain ⟨-, rule, hrule, -, -, hseverity, -⟩ := analyzeSource_attributed config source "p.go" hf
    rw [hid] at hrule hseverity
    have hcatalog : (Style.registry.get? "file-too-long").map (·.severity) = some .info := by
      rw [Registry.get?, Style.registry_rules, List.find?_map]
      decide +kernel
    rw [show Style.registry.get? "file-too-long" = some rule from hrule] at hcatalog
    refine ⟨f, hf, hid, hplace, (hseverity (by decide)).trans ?_⟩
    exact Option.some.inj hcatalog
  · have hr : Style.Organization.rules[6] ∈ Style.rulesOf .organization := List.getElem_mem _
    have hc : imported ∈ file.constructs := by simp [file]
    obtain ⟨f, hf, hid, hplace⟩ := exists_mem_findings_of_rule config hread hnone hr rfl hc rfl
      (show _ = Except.ok [{ Hit.here "dot import of \"fmt\"" with severity := none }] by decide +kernel)
    obtain ⟨-, rule, -, -, -, hseverity, -⟩ := analyzeSource_attributed config source "p.go" hf
    rw [hid] at hseverity
    exact ⟨f, hf, hid, hplace, hseverity (by decide)⟩
  · have hr : Style.InterfaceDesign.rules[0] ∈ Style.rulesOf .interfaceDesign := List.getElem_mem _
    have hc : five ∈ file.constructs := by simp [file]
    obtain ⟨f, hf, hid, hplace⟩ := exists_mem_findings_of_rule config hread hnone hr rfl hc rfl
      (show _ = Except.ok [{ Hit.here "interface I has 5 methods (limit 2)" with severity := some .error }] by
        decide +kernel)
    obtain ⟨-, hseverity⟩ | ⟨hother, -⟩ := hchosen hf hid
    · exact ⟨f, hf, hid, hplace, hseverity⟩
    · exact absurd (hplace.symm.trans hother) (by decide)
  · have hr : Style.InterfaceDesign.rules[0] ∈ Style.rulesOf .interfaceDesign := List.getElem_mem _
    have hc : three ∈ file.constructs := by simp [file]
    obtain ⟨f, hf, hid, hplace⟩ := exists_mem_findings_of_rule config hread hnone hr rfl hc rfl
      (show _ = Except.ok [{ Hit.here "interface J has 3 methods (limit 2)" with severity := none }] by
        decide +kernel)
    obtain ⟨hother, -⟩ | ⟨-, hseverity⟩ := hchosen hf hid
    · exact absurd (hplace.symm.trans hother) (by decide)
    · exact ⟨f, hf, hid, hplace, hseverity⟩

end Linter

end GoIdiom
