import GoIdiom.Linter
import GoIdiom.Proofs.Aggregation
import GoIdiom.Proofs.Registry

/-!
# The suppression law

Resolving never fails over a registry that holds the engine rules: it keeps the findings that no
justified suppression covers, and reports on the suppressions. A suppression covers all repetitions of
a violation or none, so resolving and aggregating may be interchanged; the reports are settled by their
text, so the order of the suppressions is lost in the aggregate.
-/

namespace GoIdiom

namespace Linter

variable {l : Linter}

/-- A registered engine rule is known to the linter as one. -/
theorem isEngineRule_of_get? {id : String} {rule : Rule} (h : l.registry.get? id = some rule)
    (hrule : rule.isEngine = true) : l.isEngineRule id = true := by
  obtain ⟨hmem, hid⟩ := Registry.of_get? h
  rw [isEngineRule, List.any_eq_true]
  exact ⟨rule, hmem, by rw [hrule, beq_iff_eq.mpr hid, Bool.and_true]⟩

/-- Whether a justified suppression covers a finding. -/
def covered (suppressions : List Suppression) (f : Finding) : Bool :=
  suppressions.any fun s => s.isJustified && s.covers f

/-- A finding stays when its rule is an engine rule or nothing covers it. -/
theorem keeps_eq (suppressions : List Suppression) (f : Finding) :
    l.keeps suppressions f = (l.isEngineRule f.ruleId || !covered suppressions f) := rfl

/-- What a suppression covers is decided by place and rule. -/
theorem covers_congr (s : Suppression) {f g : Finding} (h : f.violation = g.violation) :
    s.covers f = s.covers g := by
  obtain ⟨hpath, hline, -, hrule⟩ := Finding.violation_eq_iff.mp h
  rw [Suppression.covers, Suppression.covers, hpath, hline, hrule]

/-- What suppressions cover together is decided by place and rule. -/
theorem covered_congr (suppressions : List Suppression) {f g : Finding} (h : f.violation = g.violation) :
    covered suppressions f = covered suppressions g := by
  simp only [covered, covers_congr _ h]

/-- Whether a rule is an engine rule is the same for repetitions of a violation. -/
theorem isEngineRule_congr {f g : Finding} (h : f.violation = g.violation) :
    l.isEngineRule f.ruleId = l.isEngineRule g.ruleId := by
  rw [(Finding.violation_eq_iff.mp h).2.2.2]

/-- A suppression keeps all repetitions of a violation or none. -/
theorem keeps_congr (suppressions : List Suppression) {f g : Finding} (h : f.violation = g.violation) :
    l.keeps suppressions f = l.keeps suppressions g := by
  rw [keeps_eq, keeps_eq, isEngineRule_congr h, covered_congr suppressions h]

/-- The complaints about suppressions, each with the suppression it is about. -/
def allComplaints (suppressions : List Suppression) : List (Suppression × String × String) :=
  suppressions.flatMap fun s => (complaints s).map fun c => (s, c)

/-- The findings on the suppressions themselves, where their rules are registered. -/
def reports (l : Linter) (suppressions : List Suppression) : List Finding :=
  (allComplaints suppressions).filterMap fun (s, id, message) =>
    (l.engineFinding id s.path s.line s.col message).toOption

/-- Every complaint is made under an engine rule. -/
theorem id_of_mem_allComplaints {suppressions : List Suppression} {x : Suppression × String × String}
    (h : x ∈ allComplaints suppressions) : ∃ e ∈ Style.Organization.engineEntries, e.id = x.2.1 := by
  obtain ⟨s, _, hx⟩ := List.mem_flatMap.mp h
  obtain ⟨c, hc, rfl⟩ := List.mem_map.mp hx
  rw [complaints, List.mem_append] at hc
  rcases hc with hc | hc
  · split at hc
    · simp at hc
    · rw [List.mem_singleton.mp hc]
      exact ⟨_, List.mem_cons_self, rfl⟩
  · split at hc
    · rw [List.mem_singleton.mp hc]
      exact ⟨_, List.mem_cons_of_mem _ List.mem_cons_self, rfl⟩
    · simp at hc

/-- The finding of a registered engine rule. -/
theorem engineFinding_of_get? {id : String} {rule : Rule} (h : l.registry.get? id = some rule) (path : String)
    (line col : Int) (message : String) :
    l.engineFinding id path line col message = .ok
      ⟨id, rule.category, l.config.severityOf id rule.severity, path, line, col, message, rule.suggestion⟩ := by
  rw [engineFinding, h]

/-- Reporting on suppressions succeeds when every rule that is needed is registered. -/
theorem complaintFindings_eq_ok {xs : List (Suppression × String × String)}
    (h : ∀ x ∈ xs, ∃ rule, l.registry.get? x.2.1 = some rule) :
    l.complaintFindings xs = .ok (xs.filterMap fun (s, id, message) =>
      (l.engineFinding id s.path s.line s.col message).toOption) := by
  induction xs with
  | nil => rfl
  | cons x rest ih =>
    obtain ⟨s, id, message⟩ := x
    obtain ⟨rule, hrule⟩ := h _ List.mem_cons_self
    rw [complaintFindings, ih fun y hy => h y (List.mem_cons_of_mem _ hy)]
    simp only [List.filterMap_cons, engineFinding_of_get? hrule, Except.toOption]
    rfl

/-- What resolving gives over a registry with the engine rules. -/
theorem resolve_eq_ok (hl : l.registry.HoldsEngineRules) (findings : List Finding)
    (suppressions : List Suppression) :
    l.resolve findings suppressions =
      .ok (findings.filter (l.keeps suppressions) ++ l.reports suppressions) := by
  have h : l.complaintFindings (allComplaints suppressions) = .ok (l.reports suppressions) := by
    refine complaintFindings_eq_ok fun x hx => ?_
    obtain ⟨e, he, hid⟩ := id_of_mem_allComplaints hx
    obtain ⟨rule, hrule, _⟩ := hl e he
    exact ⟨rule, hid ▸ hrule⟩
  rw [allComplaints] at h
  rw [resolve, h]
  rfl

/-- A report on a suppression carries the rule, place and message of its complaint. -/
theorem exists_of_mem_reports {suppressions : List Suppression} {f : Finding}
    (h : f ∈ l.reports suppressions) :
    (∃ e ∈ Style.Organization.engineEntries, e.id = f.ruleId) ∧
      l.engineFinding f.ruleId f.path f.line f.col f.message = .ok f := by
  obtain ⟨⟨s, id, message⟩, hx, hf⟩ := List.mem_filterMap.mp h
  cases hrule : l.registry.get? id with
  | none => simp [engineFinding, hrule, Except.toOption] at hf
  | some rule =>
    simp only [engineFinding_of_get? hrule, Except.toOption, Option.some.injEq] at hf
    subst hf
    exact ⟨id_of_mem_allComplaints hx, engineFinding_of_get? hrule ..⟩

/-- Reports are findings of engine rules. -/
theorem isEngineRule_of_mem_reports (hl : l.registry.HoldsEngineRules) {suppressions : List Suppression}
    {f : Finding} (h : f ∈ l.reports suppressions) : l.isEngineRule f.ruleId = true := by
  obtain ⟨e, he, hid⟩ := (exists_of_mem_reports h).1
  obtain ⟨rule, hrule, hengine⟩ := hl e he
  exact isEngineRule_of_get? (hid ▸ hrule) hengine

/-- Reports are settled by rule, place and message. -/
theorem reports_settled (suppressions : List Suppression) : Finding.Settled (l.reports suppressions) := by
  intro f hf g hg hv hmessage
  have hfound := (exists_of_mem_reports hf).2
  obtain ⟨hpath, hline, hcol, hrule⟩ := Finding.violation_eq_iff.mp hv
  rw [hpath, hline, hcol, hrule, hmessage, (exists_of_mem_reports hg).2, Except.ok.injEq] at hfound
  exact hfound.symm

/-- Reordering suppressions reorders the reports on them. -/
theorem reports_perm {a b : List Suppression} (h : a.Perm b) : (l.reports a).Perm (l.reports b) :=
  (h.flatMap_right _).filterMap _

/-- The order of suppressions makes no difference to what they cover. -/
theorem keeps_perm {a b : List Suppression} (h : a.Perm b) : l.keeps a = l.keeps b := by
  funext f
  rw [keeps_eq, keeps_eq, covered, covered, h.any_eq]

/-- What resolving and aggregating leaves of rules that are no engine rules. -/
theorem filter_aggregate_resolved (hl : l.registry.HoldsEngineRules) (findings : List Finding)
    (suppressions : List Suppression) :
    (Finding.aggregate (findings.filter (l.keeps suppressions) ++ l.reports suppressions)).filter
        (fun f => !l.isEngineRule f.ruleId) =
      (Finding.aggregate findings).filter fun f => !l.isEngineRule f.ruleId && !covered suppressions f := by
  have hengine (f g : Finding) (h : f.violation = g.violation) :
      (!l.isEngineRule f.ruleId) = !l.isEngineRule g.ruleId := by rw [isEngineRule_congr h]
  have hreports : (l.reports suppressions).filter (fun f => !l.isEngineRule f.ruleId) = [] := by
    rw [List.filter_eq_nil_iff]
    intro f hf
    simp [isEngineRule_of_mem_reports hl hf]
  have hkeeps (f : Finding) : ((!l.isEngineRule f.ruleId) && l.keeps suppressions f) =
      (!l.isEngineRule f.ruleId && !covered suppressions f) := by
    rw [keeps_eq]
    cases l.isEngineRule f.ruleId <;> rfl
  rw [← Finding.aggregate_filter hengine, List.filter_append, hreports, List.append_nil, List.filter_filter]
  simp only [hkeeps]
  refine Finding.aggregate_filter (fun f g h => ?_) findings
  rw [isEngineRule_congr h, covered_congr suppressions h]

/-- The suppression law. Aggregating beforehand changes nothing; of the rules that are no engine rules
exactly the violations that a justified suppression covers are removed; no violation of an engine rule
is lost; and the order of the suppressions makes no difference. -/
theorem suppression_law (l : Linter) (hl : l.registry.HoldsEngineRules) (candidates : List Finding)
    (suppressions : List Suppression) :
    ∃ out, (l.resolve candidates suppressions).map Finding.aggregate = .ok out ∧
      (l.resolve (Finding.aggregate candidates) suppressions).map Finding.aggregate = .ok out ∧
      out.filter (fun f => !l.isEngineRule f.ruleId) =
        (Finding.aggregate candidates).filter (fun f => !l.isEngineRule f.ruleId &&
          !suppressions.any fun s => s.isJustified && s.covers f) ∧
      (∀ f ∈ candidates, l.isEngineRule f.ruleId = true → ∃ g ∈ out, f.samePlace g = true) ∧
      ∀ reordered, suppressions.Perm reordered →
        (l.resolve candidates reordered).map Finding.aggregate = .ok out := by
  refine ⟨Finding.aggregate (candidates.filter (l.keeps suppressions) ++ l.reports suppressions),
    ?_, ?_, filter_aggregate_resolved hl candidates suppressions, ?_, ?_⟩
  · rw [resolve_eq_ok hl]
    rfl
  · rw [resolve_eq_ok hl, ← Finding.aggregate_filter fun f g h => keeps_congr suppressions h]
    exact congrArg Except.ok (Finding.aggregate_aggregate_append _ _)
  · intro f hf hengine
    have hkept : f ∈ candidates.filter (l.keeps suppressions) ++ l.reports suppressions := by
      rw [List.mem_append, List.mem_filter, keeps_eq, hengine]
      exact Or.inl ⟨hf, rfl⟩
    obtain ⟨g, hg, hv⟩ := Finding.exists_mem_aggregate hkept
    exact ⟨g, hg, (Finding.samePlace_iff f g).mpr hv⟩
  · intro reordered hperm
    rw [resolve_eq_ok hl, ← keeps_perm hperm]
    exact congrArg Except.ok
      (Finding.aggregate_append_perm _ (reports_perm hperm) (reports_settled suppressions)).symm

/-- A wildcard without a reason silences nothing, and one justified suppression over it is enough. -/
theorem suppression_law_overlap :
    let l : Linter := ⟨.empty, Style.registry⟩
    let f : Finding := ⟨"deep-nesting", .organization, .warning, "p.go", 3, 1, "nested", none⟩
    let suppressions : List Suppression := [⟨["*"], "p.go", 1, 9, "", 1, 1, .comment⟩,
      ⟨["deep-nesting"], "p.go", 3, 3, "generated", 3, 5, .comment⟩]
    l.registry.HoldsEngineRules ∧
      ∃ out, (l.resolve [f, f] suppressions).map Finding.aggregate = .ok out ∧
        (l.resolve [f, f] suppressions.reverse).map Finding.aggregate = .ok out ∧
        out.filter (fun f => !l.isEngineRule f.ruleId) = [] := by
  intro l f suppressions
  obtain ⟨out, hout, _, hpolicy, _, hreorder⟩ :=
    suppression_law l Style.registry_holdsEngineRules [f, f] suppressions
  refine ⟨Style.registry_holdsEngineRules, out, hout, hreorder _ suppressions.reverse_perm.symm, ?_⟩
  rw [hpolicy, List.filter_eq_nil_iff]
  intro g hg
  have hmem := Finding.mem_of_mem_aggregate hg
  have hcovered : (suppressions.any fun s => s.isJustified && s.covers f) = true := by decide
  simp only [List.mem_cons, List.not_mem_nil, or_false, or_self] at hmem
  simp [hmem, hcovered]

end Linter

end GoIdiom
