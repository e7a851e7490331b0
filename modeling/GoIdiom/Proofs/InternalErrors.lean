import GoIdiom.Proofs.Evaluation
import GoIdiom.Proofs.Matchers

/-!
# Failures over the style catalog

When the rules of the style catalog look at a source with options of the right types, the only failures are
those on limits that are exceeded and cannot be shown. Without such limits no matcher gives up.
-/

namespace GoIdiom

/-- What is kept of a list without repetitions was in it. -/
theorem List.mem_of_mem_eraseDupsBy {α : Type} {same : α → α → Bool} {as : List α} {a : α}
    (h : a ∈ as.eraseDupsBy same) : a ∈ as := by
  have hloop {as bs : List α} (h : a ∈ List.eraseDupsBy.loop same as bs) : a ∈ as ∨ a ∈ bs := by
    induction as generalizing bs with
    | nil => exact Or.inr (List.mem_reverse.mp h)
    | cons x rest ih =>
      rw [List.eraseDupsBy.loop] at h
      split at h
      · exact (ih h).imp_left (List.mem_cons_of_mem x)
      · rcases ih h with h | h
        · exact Or.inl (List.mem_cons_of_mem x h)
        · rcases List.mem_cons.mp h with rfl | h
          · exact Or.inl List.mem_cons_self
          · exact Or.inr h
  exact (hloop h).resolve_right List.not_mem_nil

/-- The methods of an index have receivers. -/
theorem ConstructIndex.isSome_receiver_of_mem_methods (constructs : List Construct) :
    ∀ m ∈ (ofConstructs constructs).methods, m.2.info.receiver.isSome = true := by
  intro m hm
  obtain ⟨d, -, hm⟩ := List.mem_filterMap.mp (List.mem_of_mem_eraseDupsBy hm)
  obtain ⟨r, hr, rfl⟩ := Option.map_eq_some_iff.mp hm
  rw [hr]
  rfl

namespace Linter

variable {l : Linter}

/-- What is found by a trial of a rule that reports no failures tells whether the trial failed. -/
theorem exists_internalError_iff {t : Trial} (ht : t.rule.id ≠ Style.Organization.ruleInternalError)
    {fs : List Finding} (h : t.findings l = .ok fs) :
    (∃ f ∈ fs, f.ruleId = Style.Organization.ruleInternalError) ↔ ∃ cause, t.outcome = .error cause := by
  constructor
  · rintro ⟨f, hf, hid⟩
    cases houtcome : t.outcome with
    | error cause => exact ⟨cause, rfl⟩
    | ok hits =>
      simp only [Trial.findings, houtcome] at h
      obtain rfl := Except.ok.inj h
      obtain ⟨hit, -, rfl⟩ := List.mem_map.mp hf
      exact absurd hid ht
  · rintro ⟨cause, houtcome⟩
    obtain ⟨f, hf, hfailure⟩ := exists_mem_of_outcome_error houtcome h
    exact ⟨f, hf, congrArg (·.2.2.2) hfailure⟩

section Catalog

variable {config : Config} {rules : List Rule} {source path : String} {file : SourceFile} {t : Trial}

/-- What the matcher of a trial over the catalog is given. -/
theorem given_of_read (hfit : ∀ id, Style.OptionsFit (config.optionsOf id))
    (hread : SourceFile.read source path = .ok file) {c : Construct} (hc : c ∈ file.constructs) (id : String) :
    Style.Given c ⟨.ofConstructs file.constructs, config.optionsOf id⟩ :=
  ⟨SourceFile.wellFormed_of_read hread c hc,
    ConstructIndex.isSome_receiver_of_mem_methods file.constructs, hfit id⟩

/-- A trial over the catalog fails exactly when it would show a limit that cannot be shown. -/
theorem outcome_eq_error_iff (hfit : ∀ id, Style.OptionsFit (config.optionsOf id))
    (hrules : rules ⊆ Style.registry.rules) (hread : SourceFile.read source path = .ok file)
    (ht : t ∈ Linter.trials ⟨config, Style.registry⟩ rules file.constructs) (cause : MatchFailure) :
    t.outcome = .error cause ↔ cause = .notShowable ∧ ∃ limit,
      Style.shownLimit? ⟨.ofConstructs file.constructs, config.optionsOf t.rule.id⟩ t.rule.id
        t.construct.detail =
        some limit ∧ limit.isShowable = false := by
  obtain ⟨rule, hrule, m, hmatcher, c, hc, -, rfl⟩ := mem_trials_iff.mp ht
  obtain ⟨category, r, hr, hid, rfl⟩ := Style.exists_styleRule_of_mem_registry (hrules hrule) hmatcher
  have hfails := Style.failsOnLimit_of_mem hr c _ (given_of_read hfit hread hc rule.id) cause
  rwa [hid] at hfails

/-- Without options no matcher of the catalog gives up. -/
theorem exists_hits_of_noOptions (hnone : ∀ id, config.optionsOf id = [])
    (hrules : rules ⊆ Style.registry.rules) (hread : SourceFile.read source path = .ok file)
    (ht : t ∈ Linter.trials ⟨config, Style.registry⟩ rules file.constructs) :
    ∃ hits, t.outcome = .ok hits := by
  have hfit (id : String) : Style.OptionsFit (config.optionsOf id) := by
    rw [hnone]
    exact ⟨fun _ _ _ h => (nomatch h), fun _ h => (nomatch h)⟩
  cases houtcome : t.outcome with
  | ok hits => exact ⟨hits, rfl⟩
  | error cause =>
    obtain ⟨-, limit, hshown, hlimit⟩ := (outcome_eq_error_iff hfit hrules hread ht cause).mp houtcome
    rw [Style.isShowable_of_shownLimit? (hnone t.rule.id) hshown] at hlimit
    cases hlimit

/-- A rule that would show a limit that cannot be shown is reported as failing. -/
theorem exists_internalError_of_shownLimit? (hfit : ∀ id, Style.OptionsFit (config.optionsOf id))
    (hrules : rules ⊆ Style.registry.rules) (hread : SourceFile.read source path = .ok file) {rule : Rule}
    (hrule : rule ∈ rules) {c : Construct} (hc : c ∈ file.constructs) {limit : Document}
    (hshown : Style.shownLimit? ⟨.ofConstructs file.constructs, config.optionsOf rule.id⟩ rule.id c.detail =
      some limit)
    (hlimit : limit.isShowable = false) {fs : List Finding}
    (h : Linter.evaluate ⟨config, Style.registry⟩ rules file.constructs = .ok fs) :
    ∃ f ∈ fs, f.ruleId = Style.Organization.ruleInternalError := by
  have hl : Style.registry.HoldsEngineRules := Style.registry_holdsEngineRules
  obtain ⟨m, hmatcher, hkind⟩ := Style.exists_matcher_of_shownLimit? (hrules hrule) hshown
  obtain ⟨category, r, hr, hrid, -⟩ := Style.exists_styleRule_of_mem_registry (hrules hrule) hmatcher
  have hne : rule.id ≠ Style.Organization.ruleInternalError := hrid ▸ Style.id_ne_ruleInternalError hr
  have ht := (mem_trials_iff (l := ⟨config, Style.registry⟩)).mpr
    ⟨rule, hrule, m, hmatcher, c, hc, hkind, rfl⟩
  have hcause := (outcome_eq_error_iff hfit hrules hread ht .notShowable).mpr ⟨rfl, limit, hshown, hlimit⟩
  obtain ⟨here, hhere, hsubset⟩ := exists_of_mem_collect ht h
  obtain ⟨f, hf, hid⟩ := (exists_internalError_iff hne hhere).mpr ⟨_, hcause⟩
  exact ⟨f, hsubset hf, hid⟩

end Catalog

/-- Matchers of the style catalog give up only on limits. Over a source that can be read, and with options of
the types that matchers expect, a rule of the catalog fails exactly on the constructs that exceed a limit
which its report has to show and which has more digits than can be shown. -/
theorem internalError_iff_limit {config : Config} (hfit : ∀ id, Style.OptionsFit (config.optionsOf id))
    {rules : List Rule} (hrules : rules ⊆ Style.registry.rules) {source path : String} {file : SourceFile}
    (hread : SourceFile.read source path = .ok file) :
    let l : Linter := ⟨config, Style.registry⟩
    (∀ t ∈ l.trials rules file.constructs, ∀ cause, t.outcome = .error cause → cause = .notShowable) ∧
      ∃ fs, l.evaluate rules file.constructs = .ok fs ∧
        ((∃ f ∈ fs, f.ruleId = Style.Organization.ruleInternalError) ↔
          ∃ rule ∈ rules, ∃ c ∈ file.constructs, ∃ limit,
            Style.shownLimit? ⟨.ofConstructs file.constructs, config.optionsOf rule.id⟩ rule.id c.detail =
              some limit ∧ limit.isShowable = false) := by
  intro l
  have houtcome {t : Trial} (ht : t ∈ l.trials rules file.constructs) (cause : MatchFailure) :=
    outcome_eq_error_iff hfit hrules hread ht cause
  have hl : l.registry.HoldsEngineRules := Style.registry_holdsEngineRules
  refine ⟨fun t ht cause h => ((houtcome ht cause).mp h).1, _, evaluate_eq_ok hl rules file.constructs, ?_⟩
  constructor
  · rintro ⟨f, hf, hid⟩
    obtain ⟨t, ht, hf⟩ := List.mem_flatMap.mp hf
    obtain ⟨rule, hrule, m, hmatcher, c, hc, -, rfl⟩ := mem_trials_iff.mp ht
    obtain ⟨category, r, hr, hrid, -⟩ := Style.exists_styleRule_of_mem_registry (hrules hrule) hmatcher
    have hne : rule.id ≠ Style.Organization.ruleInternalError := hrid ▸ Style.id_ne_ruleInternalError hr
    obtain ⟨cause, hcause⟩ := (exists_internalError_iff hne (Trial.findings_eq_ok hl _)).mp ⟨f, hf, hid⟩
    obtain ⟨-, limit, hlimit⟩ := (houtcome ht cause).mp hcause
    exact ⟨rule, hrule, c, hc, limit, hlimit⟩
  · rintro ⟨rule, hrule, c, hc, limit, hshown, hlimit⟩
    exact exists_internalError_of_shownLimit? hfit hrules hread hrule hc hshown hlimit
      (evaluate_eq_ok hl rules file.constructs)

/-- A configuration of one limit has options of the right types. -/
theorem optionsFit_of_limit {rule name : String} {limit : Document} (hname : name ≠ "names")
    (hlimit : limit.isNumber = true) (id : String) :
    Style.OptionsFit (Config.optionsOf { Config.empty with options := [(rule, [(name, limit)])] } id) := by
  have hoptions : Config.optionsOf { Config.empty with options := [(rule, [(name, limit)])] } id =
      if id == rule then [(name, limit)] else [] := by
    rw [Config.optionsOf, List.lookup_cons]
    cases id == rule <;> rfl
  rw [hoptions]
  split
  · constructor
    · intro name' _ value hvalue
      rw [List.lookup_cons] at hvalue
      split at hvalue
      · exact Option.some.inj hvalue ▸ hlimit
      · cases hvalue
    · intro value hvalue
      rw [List.lookup_cons, beq_false_of_ne hname.symm] at hvalue
      cases hvalue
  · constructor
    · intro _ _ _ hvalue
      cases hvalue
    · intro _ hvalue
      cases hvalue

/-- A file that is longer than a limit which can be shown is reported, and no matcher gives up. -/
theorem internalError_iff_limit_zeroLines :
    let config : Config := { Config.empty with options := [("file-too-long", [("max_lines", .int 0)])] }
    let l : Linter := ⟨config, Style.registry⟩
    let constructs : List Construct :=
      [⟨"p.go", ⟨1, 1⟩, 1, .file 1 false "p"⟩, ⟨"p.go", ⟨1, 9⟩, 1, .package "p" false⟩]
    (∀ id, Style.OptionsFit (config.optionsOf id)) ∧ ∃ fs, l.evaluate l.registry.rules constructs = .ok fs ∧
      ¬∃ f ∈ fs, f.ruleId = Style.Organization.ruleInternalError := by
  intro config l constructs
  have hread : SourceFile.read "package p\n" "p.go" = .ok ⟨"p.go", constructs, [], "p", 1, false, [1, 1]⟩ := by
    decide +kernel
  have hfit (id : String) : Style.OptionsFit (config.optionsOf id) := optionsFit_of_limit (by decide) rfl id
  obtain ⟨-, fs, hfs, hiff⟩ := internalError_iff_limit hfit (List.Subset.refl _) hread
  refine ⟨hfit, fs, hfs, fun hfound => ?_⟩
  obtain ⟨rule, -, c, hc, limit, hshown, hlimit⟩ := hiff.mp hfound
  have hrule := Style.mem_limitRules hshown
  -- Of the rules that show a limit only the one on files looks at this file, and its limit is zero.
  simp only [constructs, List.mem_cons, List.not_mem_nil, or_false] at hc
  rcases hc with rfl | rfl
  · have hid : rule.id = "file-too-long" := by
      simpa [Style.limitRules, Detail.kind] using hrule
    rw [hid] at hshown
    have hzero : limit = .int 0 := by
      have hvalue :
          Style.shownLimit? ⟨.ofConstructs constructs, config.optionsOf "file-too-long"⟩ "file-too-long"
          (.file 1 false "p") = some (.int 0) := rfl
      exact Option.some.inj (hshown.symm.trans hvalue)
    rw [hzero] at hlimit
    exact absurd hlimit (by decide +kernel)
  · simp [Style.limitRules, Detail.kind] at hrule

/-- A limit of many digits, in options of the right types. An interface of five methods is reported as an
error, and the report fails to show the limit on methods. -/
theorem internalError_hugeLimit :
    let limit : Document := .int (.ofNat (.pow 16 3600))
    let config : Config := { Config.empty with options := [("interface-too-large", [("max_methods", limit)])] }
    let l : Linter := ⟨config, Style.registry⟩
    let source := "package p\n\ntype Store interface \x7b\n\tA()\n\tB()\n\tC()\n\tD()\n\tE()\n\x7d\n"
    (∀ id, Style.OptionsFit (config.optionsOf id)) ∧ ∃ file fs, SourceFile.read source "a.go" = .ok file ∧
      l.evaluate l.registry.rules file.constructs = .ok fs ∧
        ∃ f ∈ fs, f.ruleId = Style.Organization.ruleInternalError := by
  intro limit config l source
  have hfit (id : String) : Style.OptionsFit (config.optionsOf id) := optionsFit_of_limit (by decide) rfl id
  let store : InterfaceInfo :=
    ⟨"Store", [], [⟨"A", "()", 4⟩, ⟨"B", "()", 5⟩, ⟨"C", "()", 6⟩, ⟨"D", "()", 7⟩,
    ⟨"E", "()", 8⟩], [], false⟩
  let c : Construct := ⟨"a.go", ⟨3, 6⟩, 9, .interface store⟩
  let file : SourceFile :=
    ⟨"a.go", [⟨"a.go", ⟨1, 1⟩, 9, .file 9 false "p"⟩, ⟨"a.go", ⟨1, 9⟩, 1, .package "p" false⟩,
    c], [], "p", 9, false, [1, 1, 3, 3, 3, 3, 4, 4, 4, 5, 5, 5, 6, 6, 6, 7, 7, 7, 8, 8, 8, 9]⟩
  have hread : SourceFile.read source "a.go" = .ok file := by decide +kernel
  have hc : c ∈ file.constructs := List.mem_cons_of_mem _ (List.mem_cons_of_mem _ List.mem_cons_self)
  have htooLarge : Style.InterfaceDesign.rules[0] ∈ Style.rulesOf .interfaceDesign := List.getElem_mem _
  obtain ⟨rule, hrule, hid, -⟩ := Style.exists_rule_of_mem_rulesOf htooLarge
  have hshown : Style.shownLimit? ⟨.ofConstructs file.constructs, config.optionsOf rule.id⟩ rule.id c.detail =
      some limit := by
    rw [hid]
    rfl
  have hlimit : limit.isShowable = false := by decide +kernel
  have hl : l.registry.HoldsEngineRules := Style.registry_holdsEngineRules
  have hfs := evaluate_eq_ok hl l.registry.rules file.constructs
  exact ⟨hfit, file, _, hread, hfs,
    exists_internalError_of_shownLimit? hfit (List.Subset.refl _) hread hrule hc hshown
    hlimit hfs⟩

end Linter

end GoIdiom
