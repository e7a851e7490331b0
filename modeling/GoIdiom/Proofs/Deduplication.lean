import GoIdiom.Proofs.Aggregation
import GoIdiom.Proofs.InternalErrors
import GoIdiom.Proofs.Sites.Files
import GoIdiom.Proofs.Sites.Matchers
import Mathlib.Data.List.Flatten

/-!
# De-duplication over the style catalog

The findings of a rule are at sites of one layer, and these are distinct in every file that is read. So no two
findings of the style catalog in a file are the same violation, and aggregation only sorts them. The exception
are matchers that give up, which share one rule and the places of their constructs.
-/

namespace GoIdiom

/-- Places that findings give alike are the same. -/
theorem Position.shown_injective : Function.Injective Position.shown := by
  intro p q h
  obtain ⟨hline, hcol⟩ := Prod.mk.inj h
  exact Position.eq_iff.mpr ⟨Int.ofNat.inj hline, Int.ofNat.inj hcol⟩

namespace Trial

/-- The places that the hits of a trial are at. -/
def places (t : Trial) : List (Int × Int) :=
  match t.outcome with
  | .ok hits => hits.map (·.placeIn t.construct)
  | .error _ => []

/-- The violations that a trial finds, by rule and file, and by the places of its hits. -/
theorem violations_findingsOver (l : Linter) {t : Trial} {hits : List Hit} (h : t.outcome = .ok hits) :
    (t.findingsOver l).map Finding.violation =
      t.places.map fun place => (t.construct.path, place.1, place.2, t.rule.id) := by
  rw [findingsOver, findings, places, h]
  dsimp only [Except.toOption, Option.getD_some]
  rw [List.map_map, List.map_map]
  rfl

end Trial

namespace Linter

section Rule

variable {l : Linter} {index : ConstructIndex} {rule : Rule} {m : Matcher}

/-- The hits of a rule are at sites of the layer that its matcher keeps to. -/
theorem places_trialsOf_sublist (hm : rule.matcher = some m) {layer : Layer}
    (hlayer : ∀ c ctx, Style.Spreads (layer.sites c) c (m.predicate c ctx)) (constructs : List Construct) :
    ((l.trialsOf index constructs rule).flatMap Trial.places).Sublist
      ((constructs.flatMap layer.sites).map Position.shown) := by
  have htrial (c : Construct) :
      (Trial.places ⟨rule, c, m.predicate c ⟨index, l.config.optionsOf rule.id⟩⟩).Sublist
      ((layer.sites c).map Position.shown) := by
    have hspreads := hlayer c ⟨index, l.config.optionsOf rule.id⟩
    rw [Trial.places]
    dsimp only
    cases houtcome : m.predicate c ⟨index, l.config.optionsOf rule.id⟩ with
    | ok hits => exact (houtcome ▸ hspreads).of_ok
    | error cause => exact List.nil_sublist _
  simp only [trialsOf, hm]
  rw [List.flatMap_map, List.map_flatMap]
  exact (List.Sublist.flatMap_right _ fun c _ => htrial c).trans (List.filter_sublist.flatMap _)

/-- Where no matcher gives up, the violations that a rule finds in a file are told by the places of its hits. -/
theorem violations_trialsOf {constructs : List Construct} {path : String}
    (hpath : ∀ c ∈ constructs, c.path = path)
    (hok : ∀ t ∈ l.trialsOf index constructs rule, ∃ hits, t.outcome = .ok hits) :
    ((l.trialsOf index constructs rule).flatMap (Trial.findingsOver l)).map Finding.violation =
      ((l.trialsOf index constructs rule).flatMap Trial.places).map fun place =>
        (path, place.1, place.2, rule.id) := by
  rw [List.map_flatMap, List.map_flatMap]
  refine List.flatMap_congr fun t ht => ?_
  obtain ⟨hits, hhits⟩ := hok t ht
  obtain ⟨_, -, c, hc, -, rfl⟩ := mem_trialsOf_iff.mp ht
  rw [Trial.violations_findingsOver l hhits, hpath c hc]

end Rule

variable {source path : String} {file : SourceFile}

/-- The hits of a rule of the style catalog are at different places of a file that is read. -/
theorem places_trialsOf_nodup (l : Linter) (hread : SourceFile.read source path = .ok file) {rule : Rule}
    (hrule : rule ∈ Style.registry.rules) (index : ConstructIndex) :
    ((l.trialsOf index file.constructs rule).flatMap Trial.places).Nodup := by
  cases hm : rule.matcher with
  | none =>
    rw [trialsOf, hm]
    exact List.nodup_nil
  | some m =>
    obtain ⟨category, r, hr, -, rfl⟩ := Style.exists_styleRule_of_mem_registry hrule hm
    obtain ⟨layer, hlayer⟩ := Style.keepsToLayer_of_mem hr
    have hsites := (SourceFile.sites_nodup hread layer).map Position.shown_injective
    exact hsites.sublist (places_trialsOf_sublist hm hlayer file.constructs)

/-- Where no matcher gives up, the findings of the style catalog in a file are different violations. -/
theorem violations_candidates_nodup {l : Linter} (hl : l.registry = Style.registry)
    (hread : SourceFile.read source path = .ok file)
    (hok : ∀ t ∈ l.trials l.rules file.constructs, ∃ hits, t.outcome = .ok hits) :
    ((l.candidates file.constructs).map Finding.violation).Nodup := by
  have hrules : (l.rules.map (·.id)).Nodup := rules_nodup (hl ▸ Style.registry_nodup)
  have hregistered (rule : Rule) (hrule : rule ∈ l.rules) : rule ∈ Style.registry.rules :=
    hl ▸ (mem_rules_iff.mp hrule).1
  have hviolations : (l.candidates file.constructs).map Finding.violation =
      l.rules.flatMap fun rule => ((l.trialsOf (.ofConstructs file.constructs) file.constructs rule).flatMap
        Trial.places).map fun place => (path, place.1, place.2, rule.id) := by
    rw [candidates, trials, List.flatMap_assoc, List.map_flatMap]
    refine List.flatMap_congr fun rule hrule => ?_
    refine violations_trialsOf (SourceFile.path_of_read hread).2 fun t ht => ?_
    exact hok t (List.mem_flatMap.mpr ⟨rule, hrule, ht⟩)
  rw [hviolations, List.nodup_flatMap]
  constructor
  · intro rule hrule
    refine List.Nodup.map ?_ (places_trialsOf_nodup l hread (hregistered rule hrule) _)
    intro a b h
    simpa only [Prod.mk.injEq, true_and, and_true, ← Prod.ext_iff] using h
  · rw [List.Nodup, List.pairwise_map] at hrules
    refine hrules.imp fun {a b} hid v ha hb => hid ?_
    obtain ⟨_, -, rfl⟩ := List.mem_map.mp ha
    obtain ⟨_, -, hsame⟩ := List.mem_map.mp hb
    simp only [Prod.mk.injEq] at hsame
    exact hsame.2.2.2.symm

/-- De-duplication loses no finding of the style catalog. In a file that is read no two constructs share kind, line
and column; and unless a matcher gives up on one of them, no two findings share rule, path, line and column, so that
aggregation leaves all of them. -/
theorem evaluate_distinct (config : Config) (hread : SourceFile.read source path = .ok file)
    (hok : ∀ t ∈ Linter.trials ⟨config, Style.registry⟩ (Linter.rules ⟨config, Style.registry⟩)
      file.constructs, ∃ hits, t.outcome = .ok hits) :
    (file.constructs.map fun c => (c.kind, c.pos.line, c.pos.col)).Nodup ∧
      ∃ candidates,
        Linter.evaluate ⟨config, Style.registry⟩ (Linter.rules ⟨config, Style.registry⟩) file.constructs =
          .ok candidates ∧
        (candidates.map fun f => (f.ruleId, f.path, f.line, f.col)).Nodup ∧
        (Finding.aggregate candidates).Perm candidates := by
  have hdistinct := violations_candidates_nodup (l := ⟨config, Style.registry⟩) rfl hread hok
  refine ⟨SourceFile.kinds_nodup hread, _, evaluate_eq_ok Style.registry_holdsEngineRules _ _, ?_,
    Finding.aggregate_perm hdistinct⟩
  refine .of_map (fun key => (key.2.1, key.2.2.1, key.2.2.2, key.1)) ?_
  rw [List.map_map]
  exact hdistinct

/-- A struct with two contexts: two findings of one rule on one construct. -/
theorem evaluate_distinct_twoFields :
    let l : Linter := ⟨.empty, Style.registry⟩
    let source := "package p\n\ntype S struct \x7b\n\ta context.Context\n\tb context.Context\n\x7d\n"
    ∃ file, SourceFile.read source "p.go" = .ok file ∧
      (∀ t ∈ l.trials l.rules file.constructs, ∃ hits, t.outcome = .ok hits) ∧
      (file.constructs.map fun c => (c.kind, c.pos.line, c.pos.col)).Nodup ∧
      ∃ candidates, l.evaluate l.rules file.constructs = .ok candidates ∧
        (candidates.map fun f => (f.ruleId, f.path, f.line, f.col)).Nodup ∧
        (Finding.aggregate candidates).Perm candidates := by
  intro l source
  let fields : List Field :=
    [⟨["a"], "context.Context", ⟨4, 2⟩⟩, ⟨["b"], "context.Context", ⟨5, 2⟩⟩]
  let file : SourceFile :=
    ⟨"p.go", [⟨"p.go", ⟨1, 1⟩, 6, .file 6 false "p"⟩, ⟨"p.go", ⟨1, 9⟩, 1, .package "p" false⟩,
    ⟨"p.go", ⟨3, 6⟩, 6, .struct ⟨"S", [], fields⟩⟩], [], "p", 6, false,
    [1, 1, 3, 3, 3, 3, 4, 4, 4, 4, 5, 5, 5, 5, 6]⟩
  have hread : SourceFile.read source "p.go" = .ok file := by decide +kernel
  have hfit (id : String) : Style.OptionsFit (Config.empty.optionsOf id) :=
    ⟨fun _ _ _ h => (nomatch h), fun _ h => (nomatch h)⟩
  have hok : ∀ t ∈ l.trials l.rules file.constructs, ∃ hits, t.outcome = .ok hits := by
    intro t ht
    cases houtcome : t.outcome with
    | ok hits => exact ⟨hits, rfl⟩
    | error cause =>
      have hrules : l.rules ⊆ Style.registry.rules := fun r hr => List.mem_mergeSort.mp (List.mem_filter.mp hr).1
      obtain ⟨-, limit, hshown, -⟩ := (outcome_eq_error_iff hfit hrules hread ht cause).mp houtcome
      -- Only the rule on files shows a limit for a construct of this file, and the file does not exceed it.
      have hlimited := Style.mem_limitRules hshown
      have hmem : t.construct ∈ file.constructs := construct_of_mem_trials ht
      simp only [file, List.mem_cons, List.not_mem_nil, or_false] at hmem
      rcases hmem with hmem | hmem | hmem
      · have hid : t.rule.id = "file-too-long" := by
          simpa [hmem, Style.limitRules, Detail.kind] using hlimited
        have hnone : Style.shownLimit? ⟨.ofConstructs file.constructs, Config.empty.optionsOf "file-too-long"⟩
            "file-too-long" (.file 6 false "p") = none := rfl
        rw [hmem, hid, hnone] at hshown
        cases hshown
      · simp [hmem, Style.limitRules, Detail.kind] at hlimited
      · simp [hmem, Style.limitRules, Detail.kind] at hlimited
  exact ⟨file, hread, hok, evaluate_distinct .empty hread hok⟩

end Linter

end GoIdiom
