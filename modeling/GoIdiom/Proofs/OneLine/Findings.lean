import GoIdiom.Proofs.Attribution
import GoIdiom.Proofs.DirectiveTexts
import GoIdiom.Proofs.OneLine.Matchers
import GoIdiom.Report

/-!
# Findings in one line

A message is in one line unless its rule repeats a text of the source that is not: a text of a construct, or the
names of rules in a directive. A text report begins with the lines of its findings, and it is split back into them
exactly when no message has a line feed. Error texts in raw strings, among others, are repeated as they stand, so
there are findings that take more than one line.
-/

namespace GoIdiom

open Text

/-- A configuration whose texts are in one line, as far as messages show them. -/
structure Config.InLine (config : Config) : Prop where
  suppressions : ∀ e ∈ config.suppressions, OneLine e.rule
  options : ∀ id name s, (config.optionsOf id).lookup name = some (.text s) → OneLine s

/-- The texts of a file that findings of a rule may repeat as they stand: those of the constructs, and the names in
directives without a reason. -/
def SourceFile.quotedUnder (file : SourceFile) (id : String) : List String :=
  file.constructs.flatMap (fun c => Style.quotedBy id c.detail) ++
    if id = Style.Organization.missingJustification then
      (file.comments.filterMap Directive.ofComment?).flatMap (·.rules)
    else []

namespace Style

/-- The style rules have identifiers and suggestions in one line. -/
theorem oneLine_of_mem_rulesOf {category : Category} :
    ∀ r ∈ rulesOf category, OneLine r.id ∧ ∀ s ∈ r.suggestion, OneLine s := by
  cases category
  all_goals
    simp only [rulesOf, ErrorHandling.rules, InterfaceDesign.rules, Concurrency.rules, Naming.rules, Testing.rules,
      Organization.rules, List.forall_mem_cons, List.not_mem_nil, Option.mem_some_iff,
      Option.not_mem_none, forall_eq', false_implies, implies_true, and_true]
    and_intros <;> exact oneLine_literal rfl

/-- The engine rules have identifiers and suggestions in one line. -/
theorem oneLine_of_mem_engineEntries :
    ∀ e ∈ Organization.engineEntries, OneLine e.id ∧ ∀ s ∈ e.suggestion, OneLine s := by
  simp only [Organization.engineEntries, Organization.missingJustification, Organization.broadSuppression,
    Organization.ruleInternalError, List.forall_mem_cons, List.not_mem_nil, Option.mem_some_iff,
    Option.not_mem_none, forall_eq', false_implies, implies_true, and_true]
  and_intros <;> exact oneLine_literal rfl

/-- All rules of the catalog have identifiers and suggestions in one line. -/
theorem oneLine_of_mem_registry {rule : Rule} (h : rule ∈ registry.rules) :
    OneLine rule.id ∧ ∀ s ∈ rule.suggestion, OneLine s := by
  rw [registry_rules] at h
  obtain ⟨e, he, rfl⟩ := List.mem_map.mp h
  rcases List.mem_append.mp he with he | he
  · obtain ⟨category, -, he⟩ := List.mem_flatMap.mp he
    obtain ⟨r, hr, rfl⟩ := List.mem_map.mp he
    exact oneLine_of_mem_rulesOf r hr
  · exact oneLine_of_mem_engineEntries e he

end Style

namespace Linter

variable {config : Config} {source path : String} {file : SourceFile} {f : Finding}

/-- A finding whose message quotes texts that its rule may repeat, with everything else in one line. -/
structure Quotes (file : SourceFile) (f : Finding) : Prop where
  message : Quoting (file.quotedUnder f.ruleId) f.message
  ruleId : OneLine f.ruleId
  suggestion : ∀ s ∈ f.suggestion, OneLine s

/-- The report of an engine rule. -/
theorem Quotes.of_engineFinding {id path message : String} {line col : Int}
    (hf : Linter.engineFinding ⟨config, Style.registry⟩ id path line col message = .ok f)
    (h : Quoting (file.quotedUnder id) message) : Quotes file f := by
  rw [engineFinding] at hf
  split at hf
  · cases hf
  · next rule hrule =>
    obtain ⟨hmem, hid⟩ := Registry.of_get? hrule
    obtain ⟨hname, hsuggestion⟩ := Style.oneLine_of_mem_registry hmem
    obtain rfl := Except.ok.inj hf
    exact ⟨h, hid ▸ hname, hsuggestion⟩

/-- What a complaint about a suppression says. -/
theorem quoting_complaint (hconfig : config.InLine) {s : Suppression} (hs : s.DeclaredIn file config.suppressions)
    {c : String × String} (hc : c ∈ complaints s) : Quoting (file.quotedUnder c.1) c.2 := by
  rcases mem_complaints_iff.mp hc with ⟨-, rfl⟩ | ⟨-, rfl⟩
  · refine .append (.append (.words rfl) ?_) (.words rfl)
    have hseparator : OneLine ", " := oneLine_literal rfl
    cases hs with
    | comment hcomment hd first last =>
      refine quoting_joinWith hseparator fun rule hrule => List.mem_append_right _ ?_
      rw [if_pos rfl]
      exact List.mem_flatMap.mpr ⟨_, List.mem_filterMap.mpr ⟨_, hcomment, hd⟩, hrule⟩
    | entry he =>
      exact .plain (oneLine_joinWith hseparator (List.forall_mem_singleton.mpr (hconfig.suppressions _ he)))
  · exact .plain (oneLine_literal rfl)

/-- The wording of a failure. -/
theorem oneLine_failureText {t : Trial} {cause : MatchFailure} (hid : OneLine t.rule.id)
    (hcause : OneLine cause.message) : OneLine (t.failureText cause) := by
  have hkind : OneLine t.construct.kind.name := by
    cases t.construct.kind <;> exact oneLine_literal rfl
  rw [Trial.failureText]
  simp only [oneLine_append, hid, hkind, hcause, and_true]
  and_intros <;> exact oneLine_literal rfl

/-- A finding in a file quotes texts of the file, whatever its origin. -/
theorem Origin.quotes (hconfig : config.InLine) (hread : SourceFile.read source path = .ok file)
    (h : Origin ⟨config, Style.registry⟩ file f) : Quotes file f := by
  -- Every trial reports as the matcher of its rule does, and it sees the declarations of the file.
  have htrial {t : Trial}
      (ht : t ∈ Linter.trials ⟨config, Style.registry⟩ (Linter.rules ⟨config, Style.registry⟩)
      file.constructs) : t.rule ∈ Style.registry.rules ∧ t.construct ∈ file.constructs ∧
        Style.Reports (Style.quotedBy t.rule.id t.construct.detail) t.outcome := by
    obtain ⟨rule, hrule, m, hm, c, hc, -, rfl⟩ := mem_trials_iff.mp ht
    have hregistered := (mem_rules_iff.mp hrule).1
    obtain ⟨category, r, hr, hid, rfl⟩ := Style.exists_styleRule_of_mem_registry hregistered hm
    have hnames := SourceFile.namesInLine_of_read hread
    have hctx : MatchContext.InLine ⟨.ofConstructs file.constructs, config.optionsOf rule.id⟩ :=
      ⟨ConstructIndex.namesInLine_ofConstructs hnames, hconfig.options rule.id⟩
    have hreports := Style.reports_of_mem hr (hnames c hc) hctx
    rw [hid] at hreports
    exact ⟨hregistered, hc, hreports⟩
  cases h with
  | hit ht houtcome hh hf =>
    obtain ⟨hregistered, hc, hreports⟩ := htrial ht
    obtain ⟨hid, hsuggestion⟩ := Style.oneLine_of_mem_registry hregistered
    rw [houtcome] at hreports
    have hsaid := hreports.of_ok _ hh
    subst hf
    refine ⟨hsaid.message.mono fun text htext => ?_, hid, fun s hs => ?_⟩
    · exact List.mem_append_left _ (List.mem_flatMap.mpr ⟨_, hc, htext⟩)
    · rcases Option.or_eq_some_iff.mp hs with hs | ⟨-, hs⟩
      · exact hsaid.suggestion s hs
      · exact hsuggestion s hs
  | failure ht houtcome hf =>
    obtain ⟨hregistered, -, hreports⟩ := htrial ht
    rw [houtcome] at hreports
    have hid := (Style.oneLine_of_mem_registry hregistered).1
    exact .of_engineFinding hf (.plain (oneLine_failureText hid hreports.of_error))
  | complaint hs hc hf =>
    exact .of_engineFinding hf (quoting_complaint hconfig (declaredIn_of_mem_suppressions hs) hc)

/-- The findings in the result for a source quote texts of the file that is read from it. -/
theorem exists_quotes_of_mem_findings (hconfig : config.InLine)
    (hf : f ∈ (Linter.analyzeSource ⟨config, Style.registry⟩ source path).findings) :
    ∃ file, SourceFile.read source path = .ok file ∧ f.path = path ∧ Quotes file f := by
  cases hread : SourceFile.read source path with
  | error e =>
    rw [analyzeSource, analyze, hread] at hf
    cases hf
  | ok file =>
    have horigin := Origin.of_mem_findings Style.registry_holdsEngineRules hread hf
    obtain ⟨hfile, hconstructs⟩ := SourceFile.path_of_read hread
    obtain ⟨rule, hattributed⟩ := horigin.exists_attributed (hfile ▸ hconstructs)
    exact ⟨file, rfl, hattributed.path.trans hfile, horigin.quotes hconfig hread⟩

end Linter

/-! ## Reports -/

namespace Text

/-- The characters of lines, each with a separator behind it, are split into the lines and what follows. -/
theorem splitChars_flatMap {separator : Char} {lines : List (List Char)}
    (h : ∀ line ∈ lines, separator ∉ line) (rest : List Char) :
    splitChars separator (lines.flatMap (· ++ [separator]) ++ rest) = lines ++ splitChars separator rest := by
  induction lines with
  | nil => rfl
  | cons line more ih =>
    obtain ⟨hline, hmore⟩ := List.forall_mem_cons.mp h
    rw [List.flatMap_cons, List.append_assoc, List.append_assoc, List.singleton_append, splitChars_append hline,
      ih hmore, List.cons_append]

/-- A text that begins with lines is split into them exactly when none of them has a line feed. -/
theorem isPrefix_splitOn_iff {lines more : List String} :
    lines <+: splitOn (String.join ((lines ++ more).map (· ++ "\n"))) '\n' ↔
      ∀ line ∈ lines, '\n' ∉ line.toList := by
  constructor
  · intro h line hline
    obtain ⟨piece, hpiece, rfl⟩ := List.mem_map.mp (h.subset hline)
    rw [String.toList_ofList]
    exact not_mem_of_mem_splitChars piece hpiece
  · intro h
    have hchars : (String.join ((lines ++ more).map (· ++ "\n"))).toList =
        (lines.map String.toList).flatMap (· ++ ['\n']) ++ (String.join (more.map (· ++ "\n"))).toList := by
      simp only [List.map_append, String.toList_join, List.flatMap_append, List.flatMap_map, String.toList_append]
      rfl
    rw [splitOn, hchars, splitChars_flatMap (List.forall_mem_map.mpr h), List.map_append, List.map_map]
    have hback : lines.map (String.ofList ∘ String.toList) = lines :=
      List.map_id'' (fun s => String.ofList_toList) lines
    rw [hback]
    exact List.prefix_append _ _

end Text

namespace Finding

/-- A finding breaks its line exactly where its message does. -/
theorem mem_text_iff {f : Finding} (hpath : OneLine f.path) (hid : OneLine f.ruleId) {b : Char}
    (hb : b ∈ lineBreaks) : b ∈ f.text.toList ↔ b ∈ f.message.toList := by
  have hseverity : OneLine f.severity.name := by
    cases f.severity <;> exact oneLine_literal rfl
  have hhead :
      OneLine (f.path ++ ":" ++ toString f.line ++ ":" ++ toString f.col ++ ": [" ++ f.severity.name ++ "] " ++
      f.ruleId ++ ": ") := by
    simp only [oneLine_append, hpath, hid, hseverity, oneLine_toString_int, and_true, true_and]
    and_intros <;> exact oneLine_literal rfl
  rw [text, String.toList_append, List.mem_append]
  exact or_iff_right fun hmem => hhead b hmem hb

end Finding

namespace Report

/-- The lines of a finding are in one line exactly when its message is. -/
theorem forall_findingLines_iff (style : ReportStyle) {f : Finding} (hpath : OneLine f.path)
    (hid : OneLine f.ruleId) (hsuggestion : ∀ s ∈ f.suggestion, OneLine s) {b : Char} (hb : b ∈ lineBreaks) :
    (∀ line ∈ findingLines style f, b ∉ line.toList) ↔ b ∉ f.message.toList := by
  have hmore : ∀ line ∈ (findingLines style f).tail, b ∉ line.toList := by
    intro line hline
    rw [findingLines, List.tail_cons] at hline
    split at hline
    · next s hs =>
      have hs : OneLine s := hsuggestion s hs
      split at hline
      · obtain rfl := List.mem_singleton.mp hline
        exact fun hmem => ((oneLine_literal rfl : OneLine "    suggestion: ").append hs) b hmem hb
      · cases hline
    · cases hline
  rw [findingLines, List.forall_mem_cons, Finding.mem_text_iff hpath hid hb]
  exact and_iff_left hmore

end Report

namespace Linter

variable {config : Config}

/-- Where the lines of a report end. A message has a line break exactly when one of the texts that its rule repeats
has it: an error text, a comparison of an error with a text, the function of a call that is run, deferred or
ignored, the type of the elements of a channel or of a receiver, the path of an import, or the names of rules in a
directive. A report on results for paths in one line is split at its line feeds into the lines of its findings, and
what follows them, exactly when no message has a line feed. -/
theorem analyzeSource_lineBreaks (hconfig : config.InLine) :
    (∀ source path file, SourceFile.read source path = .ok file →
      ∀ f ∈ (Linter.analyzeSource ⟨config, Style.registry⟩ source path).findings, ∀ b ∈ lineBreaks,
        (b ∈ f.message.toList ↔
          ∃ text ∈ file.quotedUnder f.ruleId, text.toList <:+: f.message.toList ∧ b ∈ text.toList)) ∧
      ∀ (style : ReportStyle) (run : Run),
        (∀ r ∈ run.results, ∀ f ∈ r.findings, ∃ source path, OneLine path ∧
          f ∈ (Linter.analyzeSource ⟨config, Style.registry⟩ source path).findings) →
        (run.findings.flatMap (Report.findingLines style) <+: splitOn (Report.text style run) '\n' ↔
          ∀ f ∈ run.findings, '\n' ∉ f.message.toList) := by
  constructor
  · intro source path file hread f hf b hb
    obtain ⟨same, hsame, -, hquotes⟩ := exists_quotes_of_mem_findings hconfig hf
    obtain rfl := Except.ok.inj (hread.symm.trans hsame)
    exact ⟨hquotes.message.exists_mem hb, fun ⟨_, _, hin, hmem⟩ => hin.subset hmem⟩
  · intro style run hrun
    have hlines : ∀ f ∈ run.findings, (∀ line ∈ Report.findingLines style f, '\n' ∉ line.toList) ↔
        '\n' ∉ f.message.toList := by
      intro f hf
      obtain ⟨r, hr, hf⟩ := List.mem_flatMap.mp (List.mem_mergeSort.mp hf)
      obtain ⟨source, path, hpath, hf⟩ := hrun r hr f hf
      obtain ⟨_, -, rfl, hquotes⟩ := exists_quotes_of_mem_findings hconfig hf
      exact Report.forall_findingLines_iff style hpath hquotes.ruleId hquotes.suggestion List.mem_cons_self
    rw [Report.text, Report.textLines, List.append_assoc, List.append_assoc, isPrefix_splitOn_iff,
      List.forall_mem_flatMap]
    exact forall₂_congr hlines

/-- The empty configuration has no texts. -/
theorem inLine_empty : Config.empty.InLine where
  suppressions _ he := nomatch he
  options _ _ _ h := nomatch h

/-- An error text in a raw string of two lines is repeated in two lines. -/
theorem exists_finding_rawString :
    let source := "package p\n\nvar ErrFoo = errors.New(`Foo\nbar`)\n"
    ∃ file, SourceFile.read source "p.go" = .ok file ∧
      ∃ f ∈ (Linter.analyzeSource ⟨.empty, Style.registry⟩ source "p.go").findings,
        f.message = "error string capitalized: \"Foo\nbar\"" := by
  intro source
  let c : Construct :=
    ⟨"p.go", ⟨3, 14⟩, 3, .errorConstruct ⟨"errors.New", some "Foo\nbar", true, [], [], ""⟩⟩
  let call : CallInfo :=
    ⟨"errors.New", "New", some "errors", ["`Foo\nbar`"], false, "", false, false, false, none, "p"⟩
  let file : SourceFile :=
    ⟨"p.go", [⟨"p.go", ⟨1, 1⟩, 4, .file 4 false "p"⟩, ⟨"p.go", ⟨1, 9⟩, 1, .package "p" false⟩,
    ⟨"p.go", ⟨3, 5⟩, 4, .global ⟨[("ErrFoo", ⟨3, 5⟩)], false, "", "errors.New(`Foo\nbar`)"⟩⟩,
    ⟨"p.go", ⟨3, 14⟩, 3, .call call⟩, c], [], "p", 4, false, [1, 1, 3, 3, 3, 3, 3, 3, 3, 3, 4]⟩
  have hread : SourceFile.read source "p.go" = .ok file := by decide +kernel
  have hrule : Style.ErrorHandling.rules[6] ∈ Style.rulesOf .errorHandling := List.getElem_mem _
  have hc : c ∈ file.constructs := List.getElem_mem (by decide : 4 < file.constructs.length)
  obtain ⟨t, ht, -, -, houtcome⟩ := exists_trial_of_mem_rulesOf .empty hrule rfl hc rfl
  have hhit : Style.ErrorHandling.stringFormat c ⟨.ofConstructs file.constructs, []⟩ =
      .ok [.here "error string capitalized: \"Foo\nbar\""] := by
    decide +kernel
  have hok : ∀ t ∈ Linter.trials ⟨.empty, Style.registry⟩ (Linter.rules ⟨.empty, Style.registry⟩)
      file.constructs, ∃ hits, t.outcome = .ok hits := fun t ht =>
    exists_hits_of_noOptions (fun _ => rfl) (fun _ hr => (mem_rules_iff.mp hr).1) hread ht
  have hnone : (Linter.suppressions ⟨.empty, Style.registry⟩ file).suppressions = [] := by decide +kernel
  exact ⟨file, hread, _,
    mem_findings_of_hit hread hok hnone ht (houtcome.trans hhit) (List.mem_singleton_self _), rfl⟩

/-- The report on an error text in a raw string of two lines is not split into the lines of its findings. -/
theorem analyzeSource_lineBreaks_rawString :
    let l : Linter := ⟨.empty, Style.registry⟩
    let source := "package p\n\nvar ErrFoo = errors.New(`Foo\nbar`)\n"
    let run : Run := ⟨[l.analyzeSource source "p.go"], [], false, []⟩
    Config.empty.InLine ∧ OneLine "p.go" ∧
      (∃ file, SourceFile.read source "p.go" = .ok file ∧
        ∃ f ∈ run.findings, ∃ text ∈ file.quotedUnder f.ruleId, text.toList <:+: f.message.toList ∧
        '\n' ∈ text.toList) ∧
      ∀ style, ¬run.findings.flatMap (Report.findingLines style) <+: splitOn (Report.text style run) '\n' := by
  intro l source run
  have hpath : OneLine "p.go" := oneLine_literal rfl
  obtain ⟨htexts, hsplit⟩ := analyzeSource_lineBreaks inLine_empty
  obtain ⟨file, hread, f, hf, hmessage⟩ := exists_finding_rawString
  have hbreak : '\n' ∈ f.message.toList := by
    rw [hmessage]
    decide
  have hmem : f ∈ run.findings :=
    List.mem_mergeSort.mpr (List.mem_flatMap.mpr ⟨_, List.mem_singleton_self _, hf⟩)
  refine ⟨inLine_empty, hpath, ⟨file, hread, f, hmem, ?_⟩, fun style h => ?_⟩
  · exact (htexts source "p.go" file hread f hf '\n' List.mem_cons_self).mp hbreak
  · refine (hsplit style run fun r hr g hg => ⟨source, "p.go", hpath, ?_⟩).mp h f hmem hbreak
    rwa [List.mem_singleton.mp hr] at hg

/-- A message with a line feed, although the path is in one line and the configuration is empty. -/
theorem analyzeSource_message_lineFeed :
    let source := "package p\n\nvar ErrFoo = errors.New(`Foo\nbar`)\n"
    (∃ file, SourceFile.read source "p.go" = .ok file) ∧ OneLine "p.go" ∧ Config.empty.InLine ∧
      ∃ f ∈ (Linter.analyzeSource ⟨.empty, Style.registry⟩ source "p.go").findings,
        '\n' ∈ f.message.toList := by
  intro source
  obtain ⟨file, hread, f, hf, hmessage⟩ := exists_finding_rawString
  refine ⟨⟨file, hread⟩, oneLine_literal rfl, inLine_empty, f, hf, ?_⟩
  rw [hmessage]
  decide

end Linter

end GoIdiom
