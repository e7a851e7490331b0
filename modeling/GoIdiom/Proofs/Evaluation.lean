import GoIdiom.Linter
import GoIdiom.Proofs.Outcome
import GoIdiom.Proofs.Registry
import GoIdiom.Proofs.Suppression

/-!
# Evaluation

Over a registry that holds the engine rules the evaluation of rules never fails: a matcher that gives up
becomes a finding. Every finding is in the file of the construct that was looked at.
-/

namespace GoIdiom

/-- The violation of a matcher that gives up on a construct. -/
def Construct.failure (c : Construct) : String × Int × Int × String :=
  (c.path, c.pos.line, c.pos.col, Style.Organization.ruleInternalError)

variable {l : Linter}

namespace Trial

/-- The findings of a trial over a registry with the engine rules. -/
def findingsOver (l : Linter) (t : Trial) : List Finding := (t.findings l).toOption.getD []

/-- A trial never fails when the rule on failing matchers is registered. -/
theorem findings_eq_ok (hl : l.registry.HoldsEngineRules) (t : Trial) : t.findings l = .ok (t.findingsOver l) := by
  rw [findingsOver, findings]
  cases t.outcome with
  | ok hits => rfl
  | error cause =>
    have hentry : ∃ e ∈ Style.Organization.engineEntries,
        e.id = Style.Organization.ruleInternalError := by decide
    obtain ⟨e, he, hid⟩ := hentry
    obtain ⟨rule, hrule, -⟩ := hl e he
    rw [hid] at hrule
    simp only [Linter.engineFinding_of_get? hrule]
    rfl

/-- A finding of a trial is in the file of its construct. -/
theorem path_of_mem_findings {t : Trial} {fs : List Finding} (h : t.findings l = .ok fs) {f : Finding}
    (hf : f ∈ fs) : f.path = t.construct.path := by
  rw [findings] at h
  cases ht : t.outcome with
  | ok hits =>
    rw [ht] at h
    obtain rfl := Except.ok.inj h
    obtain ⟨hit, -, rfl⟩ := List.mem_map.mp hf
    rfl
  | error cause =>
    simp only [ht, Linter.engineFinding] at h
    cases hrule : l.registry.get? Style.Organization.ruleInternalError with
    | none =>
      rw [hrule] at h
      cases h
    | some rule =>
      rw [hrule] at h
      obtain rfl := Except.ok.inj h
      rw [List.mem_singleton.mp hf]

end Trial

namespace Linter

/-- A trial that fails makes the report on it. -/
theorem exists_mem_of_outcome_error {t : Trial} {cause : MatchFailure} (ht : t.outcome = .error cause)
    {fs : List Finding} (h : t.findings l = .ok fs) : ∃ f ∈ fs, f.violation = t.construct.failure := by
  simp only [Trial.findings, ht] at h
  obtain ⟨f, hf, hfs⟩ := Except.bind_eq_ok.mp h
  obtain rfl := Except.ok.inj hfs
  refine ⟨f, List.mem_singleton_self f, ?_⟩
  rw [engineFinding] at hf
  split at hf
  · cases hf
  · obtain rfl := Except.ok.inj hf
    rfl

/-- What a trial finds is collected. -/
theorem exists_of_mem_collect {ts : List Trial} {t : Trial} (ht : t ∈ ts) {fs : List Finding}
    (h : l.collect ts = .ok fs) : ∃ here, t.findings l = .ok here ∧ here ⊆ fs := by
  induction ts generalizing fs with
  | nil => cases ht
  | cons first rest ih =>
    obtain ⟨here, hhere, h⟩ := Except.bind_eq_ok.mp h
    obtain ⟨more, hmore, h⟩ := Except.bind_eq_ok.mp h
    obtain rfl := Except.ok.inj h
    rcases List.mem_cons.mp ht with rfl | ht
    · exact ⟨here, hhere, List.subset_append_left ..⟩
    · obtain ⟨found, hfound, hsubset⟩ := ih ht hmore
      exact ⟨found, hfound, List.subset_append_of_subset_right here hsubset⟩

/-- The rules that run are the registered ones that the configuration selects. -/
theorem mem_rules_iff {rule : Rule} : rule ∈ l.rules ↔ rule ∈ l.registry.rules ∧
    (rule.isEngine = true ∨ l.config.isEnabled rule.id (some rule.category) = true) := by
  rw [rules, Registry.enabled, List.mem_filter, Registry.all, List.mem_mergeSort, Bool.or_eq_true]

/-- The rules that run have the identifiers of different registered rules. -/
theorem rules_nodup (h : (l.registry.rules.map (·.id)).Nodup) : (l.rules.map (·.id)).Nodup := by
  have hall : (l.registry.all.map (·.id)).Nodup := ((List.mergeSort_perm ..).map _).nodup_iff.mpr h
  exact hall.sublist (List.filter_sublist.map _)

/-- Trials one after the other never fail. -/
theorem collect_eq_ok (hl : l.registry.HoldsEngineRules) (ts : List Trial) :
    l.collect ts = .ok (ts.flatMap (Trial.findingsOver l)) := by
  induction ts with
  | nil => rfl
  | cons t rest ih =>
    rw [collect, Trial.findings_eq_ok hl, ih]
    rfl

/-- The evaluation of rules never fails. -/
theorem evaluate_eq_ok (hl : l.registry.HoldsEngineRules) (rules : List Rule) (constructs : List Construct) :
    l.evaluate rules constructs = .ok ((l.trials rules constructs).flatMap (Trial.findingsOver l)) :=
  collect_eq_ok hl _

/-- The trials of a rule on the constructs of a file. -/
theorem mem_trialsOf_iff {index : ConstructIndex} {constructs : List Construct} {rule : Rule} {t : Trial} :
    t ∈ l.trialsOf index constructs rule ↔ ∃ m, rule.matcher = some m ∧ ∃ c ∈ constructs,
      m.kinds.contains c.kind = true ∧
      t = ⟨rule, c, m.predicate c ⟨index, l.config.optionsOf rule.id⟩⟩ := by
  rw [trialsOf]
  cases hmatcher : rule.matcher with
  | none =>
    constructor
    · intro h
      cases h
    · rintro ⟨m, ⟨⟩, -⟩
  | some m =>
    constructor
    · intro h
      obtain ⟨c, hc, rfl⟩ := List.mem_map.mp h
      obtain ⟨hc, hkind⟩ := List.mem_filter.mp hc
      exact ⟨m, rfl, c, hc, hkind, rfl⟩
    · rintro ⟨_, ⟨⟩, c, hc, hkind, rfl⟩
      exact List.mem_map_of_mem (List.mem_filter.mpr ⟨hc, hkind⟩)

/-- The trials of rules on the constructs of a file. -/
theorem mem_trials_iff {rules : List Rule} {constructs : List Construct} {t : Trial} :
    t ∈ l.trials rules constructs ↔ ∃ rule ∈ rules, ∃ m, rule.matcher = some m ∧ ∃ c ∈ constructs,
      m.kinds.contains c.kind = true ∧
        t = ⟨rule, c, m.predicate c ⟨.ofConstructs constructs, l.config.optionsOf rule.id⟩⟩ := by
  rw [trials, List.mem_flatMap]
  exact exists_congr fun rule => and_congr_right fun _ => mem_trialsOf_iff

/-- A trial looks at a construct of the file. -/
theorem construct_of_mem_trials {rules : List Rule} {constructs : List Construct} {t : Trial}
    (h : t ∈ l.trials rules constructs) : t.construct ∈ constructs := by
  obtain ⟨rule, -, m, -, c, hc, -, rfl⟩ := mem_trials_iff.mp h
  exact hc

/-- What is found in constructs of one file is in that file. -/
theorem path_of_mem_evaluate (hl : l.registry.HoldsEngineRules) {path : String} {rules : List Rule}
    {constructs : List Construct} (hpath : ∀ c ∈ constructs, c.path = path) {fs : List Finding}
    (h : l.evaluate rules constructs = .ok fs) {f : Finding} (hf : f ∈ fs) : f.path = path := by
  obtain rfl := Except.ok.inj ((evaluate_eq_ok hl rules constructs).symm.trans h)
  obtain ⟨t, ht, hmem⟩ := List.mem_flatMap.mp hf
  rw [Trial.path_of_mem_findings (Trial.findings_eq_ok hl t) hmem]
  exact hpath _ (construct_of_mem_trials ht)

/-- The findings in a file before any suppression, over a registry with the engine rules. -/
def candidates (l : Linter) (constructs : List Construct) : List Finding :=
  (l.trials l.rules constructs).flatMap (Trial.findingsOver l)

/-- The findings in a file are what suppressions leave, and the reports on them. -/
theorem findingsIn_eq_ok (hl : l.registry.HoldsEngineRules) (file : SourceFile) :
    let suppressions := (l.suppressions file).suppressions
    l.findingsIn file = .ok (Finding.aggregate
      ((l.candidates file.constructs).filter (l.keeps suppressions) ++ l.reports suppressions)) := by
  intro suppressions
  have hcandidates : l.evaluate l.rules file.constructs = .ok (l.candidates file.constructs) :=
    evaluate_eq_ok hl l.rules file.constructs
  rw [findingsIn, hcandidates]
  change (l.resolve (l.candidates file.constructs) suppressions >>= fun resolved =>
    .ok (Finding.aggregate resolved)) = _
  rw [resolve_eq_ok hl]
  rfl

/-- The result for a file whose findings are known. -/
theorem analyzeSource_eq {source path : String} {file : SourceFile} (hread : SourceFile.read source path = .ok file)
    {fs : List Finding} (h : l.findingsIn file = .ok fs) :
    l.analyzeSource source path = ⟨path, Finding.aggregate fs, none⟩ := by
  rw [analyzeSource, analyze, hread]
  dsimp only
  rw [h]
  rfl

end Linter

end GoIdiom
