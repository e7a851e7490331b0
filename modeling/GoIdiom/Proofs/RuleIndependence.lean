import GoIdiom.Proofs.Diagnoses

/-!
# Rules do not see each other

The aggregate of an evaluation does not depend on the order of the rules, and what it holds of one rule not
on the others. Findings under the name of a rule are its own, in the order of its trials; those under the
name of the rule on failing matchers are settled by their message, so their order is lost in the aggregate.

Rules that give up do share that name: what stands under it depends on all of them.
-/

namespace GoIdiom

variable {l : Linter}

namespace Finding

/-- The representative of a violation is found among the findings of its rule. -/
theorem leastOf_filter_rule (v : String × Int × Int × String) (findings : List Finding) :
    leastOf v (findings.filter (·.ruleId == v.2.2.2)) = leastOf v findings := by
  have hrule (f g : Finding) (h : f.violation = g.violation) :
      (f.ruleId == v.2.2.2) = (g.ruleId == v.2.2.2) := by
    rw [(violation_eq_iff.mp h).2.2.2]
  rw [leastOf_filter hrule]
  cases hleast : leastOf v findings with
  | none => rfl
  | some f =>
    have hid : f.ruleId = v.2.2.2 := congrArg (·.2.2.2) (leastOf_some hleast).2
    rw [Option.filter_some, if_pos (beq_iff_eq.mpr hid)]

end Finding

namespace Trial

/-- Whether a trial makes findings: its matcher did not give up, or the rule on that is registered. -/
def isReported (l : Linter) (t : Trial) : Bool :=
  l.registry.contains Style.Organization.ruleInternalError || t.outcome.toOption.isSome

/-- What a trial makes. -/
theorem findings_eq (t : Trial) :
    t.findings l = if t.isReported l then .ok (t.findingsOver l) else
      .error ⟨Style.Organization.ruleInternalError⟩ := by
  have hregistered : l.registry.contains Style.Organization.ruleInternalError =
      (l.registry.get? Style.Organization.ruleInternalError).isSome := by
    rw [Registry.contains, Registry.get?, List.isSome_find?]
  rw [isReported, hregistered, findingsOver, findings]
  cases t.outcome with
  | ok hits =>
    rw [Except.toOption, Option.isSome_some, Bool.or_true]
    rfl
  | error cause =>
    simp only [Linter.engineFinding]
    cases l.registry.get? Style.Organization.ruleInternalError with
    | none => rfl
    | some rule => rfl

/-- Under the name of another rule a trial finds nothing. -/
theorem filter_findingsOver {t : Trial} {id : String} (hid : id ≠ Style.Organization.ruleInternalError)
    (ht : t.rule.id ≠ id) : (t.findingsOver l).filter (·.ruleId == id) = [] := by
  rw [List.filter_eq_nil_iff]
  intro f hf
  rw [beq_iff_eq]
  rcases of_mem_findingsOver hf with ⟨hits, -, hit, -, rfl⟩ | ⟨cause, -, hfinding⟩
  · exact ht
  · have hrule : f.ruleId = Style.Organization.ruleInternalError :=
      congrArg (·.2.2.2) (Linter.of_engineFinding hfinding).1
    rw [hrule]
    exact hid.symm

/-- A report on a failing matcher is settled by its place and message. -/
theorem engineFinding_of_mem_findingsOver {t : Trial} (ht : t.rule.id ≠ Style.Organization.ruleInternalError)
    {f : Finding} (hf : f ∈ t.findingsOver l) (hid : f.ruleId = Style.Organization.ruleInternalError) :
    l.engineFinding f.ruleId f.path f.line f.col f.message = .ok f := by
  rcases of_mem_findingsOver hf with ⟨hits, -, hit, -, rfl⟩ | ⟨cause, -, hfinding⟩
  · exact absurd hid ht
  · obtain ⟨hviolation, hmessage⟩ := Linter.of_engineFinding hfinding
    obtain ⟨hpath, hline, hcol, hrule⟩ : f.path = _ ∧ f.line = _ ∧ f.col = _ ∧ f.ruleId = _ := by
      simpa only [Finding.violation, Prod.mk.injEq] using hviolation
    rwa [hpath, hline, hcol, hrule, hmessage]

end Trial

namespace Linter

/-- What trials make, one after the other. -/
theorem collect_eq (ts : List Trial) :
    l.collect ts = if ts.all (·.isReported l) then .ok (ts.flatMap (Trial.findingsOver l))
      else .error ⟨Style.Organization.ruleInternalError⟩ := by
  induction ts with
  | nil => rfl
  | cons t rest ih =>
    rw [collect, ih, Trial.findings_eq, List.all_cons]
    cases t.isReported l with
    | false => rfl
    | true =>
      cases rest.all (·.isReported l) with
      | false => rfl
      | true => rfl

section Rules

variable {rules others : List Rule} {constructs : List Construct} {rule : Rule} {id : String}

/-- What rules find, over a registry where all of it can be reported. -/
def found (l : Linter) (rules : List Rule) (constructs : List Construct) : List Finding :=
  (l.trials rules constructs).flatMap (Trial.findingsOver l)

/-- The findings of one rule under its own name. -/
def ownFindings (l : Linter) (constructs : List Construct) (rule : Rule) : List Finding :=
  ((l.trialsOf (.ofConstructs constructs) constructs rule).flatMap (Trial.findingsOver l)).filter
    (·.ruleId == rule.id)

/-- An evaluation gives all that is found, or misses the rule on failing matchers. -/
theorem evaluate_eq (rules : List Rule) (constructs : List Construct) :
    l.evaluate rules constructs = if (l.trials rules constructs).all (·.isReported l) then
      .ok (l.found rules constructs)
      else .error ⟨Style.Organization.ruleInternalError⟩ := collect_eq _

/-- Registered rules have a name of their own. -/
theorem nodup_ids (hids : (l.registry.rules.map (·.id)).Nodup) (hrules : rules ⊆ l.registry.rules)
    (hnodup : rules.Nodup) : (rules.map (·.id)).Nodup :=
  List.Nodup.map_on (fun _ hr _ hs h => List.inj_on_of_nodup_map hids (hrules hr) (hrules hs) h) hnodup

/-- The trials of a rule are under its name. -/
theorem rule_of_mem_trialsOf {index : ConstructIndex} {t : Trial} (ht : t ∈ l.trialsOf index constructs rule) :
    t.rule = rule := by
  obtain ⟨_, -, _, -, -, rfl⟩ := mem_trialsOf_iff.mp ht
  rfl

/-- Rules of other names find nothing under a name, unless it is that of the rule on failing matchers. -/
theorem filter_trialsOf (hid : id ≠ Style.Organization.ruleInternalError) (hrule : rule.id ≠ id) :
    ((l.trialsOf (.ofConstructs constructs) constructs rule).flatMap (Trial.findingsOver l)).filter
      (·.ruleId == id) =
      [] := by
  rw [List.filter_flatMap, List.flatMap_eq_nil_iff]
  intro t ht
  exact Trial.filter_findingsOver hid ((rule_of_mem_trialsOf ht).symm ▸ hrule)

/-- What one more rule finds. -/
theorem found_cons (rule : Rule) (rules : List Rule) : l.found (rule :: rules) constructs =
    (l.trialsOf (.ofConstructs constructs) constructs rule).flatMap (Trial.findingsOver l) ++
    l.found rules constructs := by
  rw [found, found, trials, trials, List.flatMap_cons, List.flatMap_append]

/-- Under a name that no rule has, nothing is found. -/
theorem filter_found_of_not_mem (hid : id ≠ Style.Organization.ruleInternalError)
    (h : ∀ r ∈ rules, r.id ≠ id) : (l.found rules constructs).filter (·.ruleId == id) = [] := by
  induction rules with
  | nil => rfl
  | cons r rest ih =>
    obtain ⟨hr, hrest⟩ := List.forall_mem_cons.mp h
    rw [found_cons, List.filter_append, filter_trialsOf hid hr, ih hrest, List.append_nil]

/-- Under the name of a rule stands what the rule finds, whatever other rules there are. -/
theorem filter_found (hnodup : (rules.map (·.id)).Nodup) (hrule : rule ∈ rules)
    (hid : rule.id ≠ Style.Organization.ruleInternalError) :
    (l.found rules constructs).filter (·.ruleId == rule.id) = l.ownFindings constructs rule := by
  induction rules with
  | nil => cases hrule
  | cons r rest ih =>
    rw [List.map_cons, List.nodup_cons] at hnodup
    have hapart : ∀ s ∈ rest, s.id ≠ r.id := fun s hs h => hnodup.1 (h ▸ List.mem_map_of_mem hs)
    rw [found_cons, List.filter_append]
    rcases List.mem_cons.mp hrule with rfl | hrest
    · rw [filter_found_of_not_mem hid hapart, List.append_nil, ownFindings]
    · rw [filter_trialsOf hid (hapart rule hrest).symm, List.nil_append, ih hnodup.2 hrest]

/-- The reports on failing matchers are settled by place and message. -/
theorem settled_failures (hnames : ∀ r ∈ rules, r.matcher ≠ none →
    r.id ≠ Style.Organization.ruleInternalError) :
    Finding.Settled ((l.found rules constructs).filter (·.ruleId == Style.Organization.ruleInternalError)) := by
  have hengine : ∀ f ∈ (l.found rules constructs).filter (·.ruleId == Style.Organization.ruleInternalError),
      l.engineFinding f.ruleId f.path f.line f.col f.message = .ok f := by
    intro f hf
    obtain ⟨hf, hid⟩ := List.mem_filter.mp hf
    obtain ⟨t, ht, hf⟩ := List.mem_flatMap.mp hf
    obtain ⟨r, hr, m, hm, c, -, -, rfl⟩ := mem_trials_iff.mp ht
    exact Trial.engineFinding_of_mem_findingsOver (hnames r hr (by rw [hm]; exact Option.some_ne_none m)) hf
      (beq_iff_eq.mp hid)
  intro f hf g hg hv hmessage
  have hfound := hengine f hf
  obtain ⟨hpath, hline, hcol, hrule⟩ := Finding.violation_eq_iff.mp hv
  rw [hpath, hline, hcol, hrule, hmessage, hengine g hg] at hfound
  exact (Except.ok.inj hfound).symm

/-- Reordering rules reorders what they find. -/
theorem found_perm (h : rules.Perm others) : (l.found rules constructs).Perm (l.found others constructs) :=
  (h.flatMap_right _).flatMap_right _

/-- The order of the rules is lost in the aggregate. -/
theorem aggregate_found_perm (hnodup : (rules.map (·.id)).Nodup)
    (hnames : ∀ r ∈ rules, r.matcher ≠ none → r.id ≠ Style.Organization.ruleInternalError)
    (h : rules.Perm others) :
    Finding.aggregate (l.found rules constructs) = Finding.aggregate (l.found others constructs) := by
  refine Finding.aggregate_congr fun v => ?_
  rw [← Finding.leastOf_filter_rule, ← Finding.leastOf_filter_rule v (l.found others constructs)]
  by_cases hid : v.2.2.2 = Style.Organization.ruleInternalError
  · rw [hid]
    exact Finding.leastOf_perm v ((found_perm h).filter _) (settled_failures hnames)
  by_cases hmem : ∃ r ∈ rules, r.id = v.2.2.2
  · obtain ⟨r, hr, hname⟩ := hmem
    rw [← hname] at hid ⊢
    rw [filter_found hnodup hr hid, filter_found ((h.map _).nodup_iff.mp hnodup) (h.mem_iff.mp hr) hid]
  · have hnone : ∀ r ∈ rules, r.id ≠ v.2.2.2 := fun r hr hname => hmem ⟨r, hr, hname⟩
    have hnone' : ∀ r ∈ others, r.id ≠ v.2.2.2 := fun r hr => hnone r (h.mem_iff.mpr hr)
    rw [filter_found_of_not_mem hid hnone, filter_found_of_not_mem hid hnone']

end Rules

/-- Rules are independent of each other and of their order. The aggregate of an evaluation is the same for every
order of the rules; and for a rule that is not the one on failing matchers, the findings under its name are the
same for all rules it runs with. The evaluation fails only where a matcher gives up and the rule on that is not
registered. -/
theorem evaluate_independent (l : Linter) (hids : (l.registry.rules.map (·.id)).Nodup)
    (hnames : ∀ r ∈ l.registry.rules, r.matcher ≠ none → r.id ≠ Style.Organization.ruleInternalError)
    (constructs : List Construct) {rules : List Rule} (hrules : rules ⊆ l.registry.rules) (hnodup : rules.Nodup) :
    (∀ reordered, rules.Perm reordered → (l.evaluate reordered constructs).map Finding.aggregate =
        (l.evaluate rules constructs).map Finding.aggregate) ∧
      (∀ r ∈ rules, r.id ≠ Style.Organization.ruleInternalError →
        ∀ others, others ⊆ l.registry.rules →
        others.Nodup → r ∈ others → ∀ a b, l.evaluate rules constructs = .ok a →
          l.evaluate others constructs = .ok b →
            (Finding.aggregate a).filter (·.ruleId == r.id) = (Finding.aggregate b).filter (·.ruleId == r.id)) ∧
      (l.registry.contains Style.Organization.ruleInternalError = true →
        ∃ a, l.evaluate rules constructs = .ok a) := by
  have hdistinct := nodup_ids hids hrules hnodup
  refine ⟨fun reordered hperm => ?_, fun r hr hid others hothers hnodup' hr' a b ha hb => ?_,
    fun hregistered => ?_⟩
  · have hall : (l.trials reordered constructs).all (·.isReported l) =
        (l.trials rules constructs).all (·.isReported l) :=
      (hperm.symm.flatMap_right _).all_eq
    have hfound : Finding.aggregate (l.found rules constructs) = Finding.aggregate (l.found reordered constructs) :=
      aggregate_found_perm hdistinct (fun s hs => hnames s (hrules hs)) hperm
    rw [evaluate_eq, evaluate_eq, hall]
    split
    · exact congrArg Except.ok hfound.symm
    · rfl
  · have hown {rules : List Rule} {fs : List Finding} (h : l.evaluate rules constructs = .ok fs) :
        fs = l.found rules constructs := by
      rw [evaluate_eq] at h
      split at h
      · exact (Except.ok.inj h).symm
      · cases h
    have hrule (f g : Finding) (h : f.violation = g.violation) : (f.ruleId == r.id) = (g.ruleId == r.id) := by
      rw [(Finding.violation_eq_iff.mp h).2.2.2]
    rw [← Finding.aggregate_filter hrule, ← Finding.aggregate_filter hrule, hown ha, hown hb,
      filter_found hdistinct hr hid, filter_found (nodup_ids hids hothers hnodup') hr' hid]
  · have hall : (l.trials rules constructs).all (·.isReported l) = true := by
      rw [List.all_eq_true]
      intro t ht
      rw [Trial.isReported, hregistered, Bool.true_or]
    exact ⟨_, (evaluate_eq rules constructs).trans (if_pos hall)⟩

/-- A rule that reports every file, and one that gives up on every file: the findings of the first are the same
with and without the second, and on either side of it. -/
theorem evaluate_independent_failing :
    let engine : Rule := ⟨"rule-internal-error", .organization, .error, "", none, none, true⟩
    let plain : Rule :=
      ⟨"plain", .organization, .info, "", none, some ⟨[.file], fun _ _ => .ok [.here "a file"]⟩, false⟩
    let failing : Rule :=
      ⟨"failing", .organization, .info, "", none, some ⟨[.file], fun _ _ => .error .notShowable⟩, false⟩
    let l : Linter := ⟨.empty, ⟨[engine, plain, failing]⟩⟩
    let constructs : List Construct := [⟨"p.go", ⟨1, 1⟩, 1, .file 1 false "p"⟩]
    (l.evaluate [failing, plain] constructs).map Finding.aggregate =
        (l.evaluate [plain, failing] constructs).map Finding.aggregate ∧
      ∃ a b, l.evaluate [plain] constructs = .ok a ∧ l.evaluate [plain, failing] constructs = .ok b ∧
        (Finding.aggregate a).filter (·.ruleId == "plain") =
          (Finding.aggregate b).filter (·.ruleId == "plain") := by
  intro engine plain failing l constructs
  have hids : (l.registry.rules.map (·.id)).Nodup := by decide
  have hnames : ∀ r ∈ l.registry.rules, r.matcher ≠ none →
      r.id ≠ Style.Organization.ruleInternalError := by
    intro r hr hmatcher
    simp only [l, List.mem_cons, List.not_mem_nil, or_false] at hr
    rcases hr with rfl | rfl | rfl
    · exact absurd rfl hmatcher
    · exact fun h => absurd (show ("plain" : String) = "rule-internal-error" from h) (by decide)
    · exact fun h => absurd (show ("failing" : String) = "rule-internal-error" from h) (by decide)
  have hrules : [plain, failing] ⊆ l.registry.rules := List.subset_cons_self _ _
  have hnodup : [plain, failing].Nodup := List.Nodup.of_map (·.id) (by decide)
  have hplain : [plain] ⊆ l.registry.rules :=
    List.cons_subset.mpr ⟨hrules List.mem_cons_self, List.nil_subset _⟩
  have hnodup' : [plain].Nodup := List.nodup_singleton plain
  obtain ⟨hperm, -, hok⟩ := evaluate_independent l hids hnames constructs hrules hnodup
  obtain ⟨-, hsame, hok'⟩ := evaluate_independent l hids hnames constructs hplain hnodup'
  obtain ⟨a, ha⟩ := hok' rfl
  obtain ⟨b, hb⟩ := hok rfl
  refine ⟨hperm _ (List.Perm.swap _ _ _), a, b, ha, hb, ?_⟩
  exact hsame plain List.mem_cons_self (by decide) _ hrules hnodup List.mem_cons_self a b ha hb

/-- The rule on failing matchers has a finding more with a rule that gives up. -/
theorem evaluate_sharesFailures :
    let engine : Rule := ⟨"rule-internal-error", .organization, .error, "", none, none, true⟩
    let failing : Rule :=
      ⟨"failing", .organization, .info, "", none, some ⟨[.file], fun _ _ => .error .notShowable⟩, false⟩
    let l : Linter := ⟨.empty, ⟨[engine, failing]⟩⟩
    let constructs : List Construct := [⟨"p.go", ⟨1, 1⟩, 1, .file 1 false "p"⟩]
    ∃ a b, l.evaluate [engine] constructs = .ok a ∧ l.evaluate [engine, failing] constructs = .ok b ∧
      (Finding.aggregate a).filter (·.ruleId == engine.id) ≠ (Finding.aggregate b).filter
        (·.ruleId == engine.id) := by
  intro engine failing l constructs
  let report : Finding := ⟨"rule-internal-error", .organization, .error, "p.go", 1, 1,
    Trial.failureText ⟨failing, constructs.head (List.cons_ne_nil _ _), .error .notShowable⟩ .notShowable,
    none⟩
  refine ⟨[], [report], rfl, rfl, fun h => ?_⟩
  obtain ⟨g, hg, hv⟩ := Finding.exists_mem_aggregate (List.mem_singleton_self report)
  have hrule : (g.ruleId == engine.id) = true := beq_iff_eq.mpr (Finding.violation_eq_iff.mp hv).2.2.2.symm
  have hmem := (List.mem_filter (p := (·.ruleId == engine.id))).mpr ⟨hg, hrule⟩
  rw [← h] at hmem
  have hnone := Finding.mem_of_mem_aggregate (List.mem_filter.mp hmem).1
  cases hnone

end Linter

end GoIdiom
