import GoIdiom.Linter
import GoIdiom.Proofs.Directive
import GoIdiom.Proofs.Evaluation
import GoIdiom.Proofs.Lexing.File

/-!
# The effect of a directive behind code

A directive behind the last token of a line takes the findings of its rule in that line out of the
analysis, unless the rule is an engine rule, and changes nothing else.
-/

namespace GoIdiom

namespace Suppression

variable {s : Suppression} {r : String}

/-- A suppression of one rule by name is no wildcard. -/
theorem isWildcard_of_single (hrules : s.rules = [r]) (hr : r ≠ wildcard) : s.isWildcard = false := by
  rw [isWildcard, hrules, List.contains_cons, Bool.or_eq_false_iff]
  exact ⟨beq_false_of_ne (Ne.symm hr), rfl⟩

/-- A suppression of one rule in one line covers the findings of the rule there. -/
theorem covers_of_single (hrules : s.rules = [r]) (hr : r ≠ wildcard) (hline : s.first = s.last) {f : Finding}
    (hpath : f.path = s.path) : s.covers f = (f.ruleId == r && f.line == s.first) := by
  have hrange : (decide (s.first ≤ f.line) && decide (f.line ≤ s.first)) = (f.line == s.first) := by
    rw [Bool.eq_iff_iff, Bool.and_eq_true, decide_eq_true_eq, decide_eq_true_eq, beq_iff_eq]
    omega
  rw [covers, isWildcard_of_single hrules hr, hrules, ← hline, beq_iff_eq.mpr hpath, Bool.true_and, hrange,
    Bool.false_or, Bool.and_comm, List.contains_cons, List.contains_nil, Bool.or_false]

/-- A suppression of one rule covers no other rule. -/
theorem covers_eq_false_of_single (hrules : s.rules = [r]) (hr : r ≠ wildcard) {f : Finding}
    (hf : f.ruleId ≠ r) : s.covers f = false := by
  have hrule : (s.rules.contains f.ruleId) = false := by
    rw [hrules, List.contains_cons, List.contains_nil, Bool.or_false]
    exact beq_false_of_ne hf
  rw [covers, isWildcard_of_single hrules hr, hrule, Bool.or_false, Bool.and_false]

end Suppression

/-- The directive of a comment behind code is for its rule, and gives a reason. -/
theorem Directive.ofComment?_trailing {r why : String} (hr : Directive.IsRuleName r)
    (hwhy : ∃ c ∈ why.toList, Text.isBlank c = false) (rest : List Lexeme) (pos : Position) :
    ∃ reason, Directive.ofComment? (Lexed.trailing (Directive.lineText r why).toList rest pos) =
      some ⟨.line, [r], reason⟩ ∧ reason ≠ "" := by
  refine ⟨_, ?_, Text.trim_ne_empty hwhy (Lexeme.joined (rest.takeWhile Lexeme.isBlankPiece))⟩
  rw [Directive.ofComment?, Lexed.body_trailing, Directive.ofBody?_lineText hr]

namespace Linter

variable {l : Linter}

/-- A suppression that nothing is wrong with is not reported. -/
theorem reports_cons_of_justified {s : Suppression} (hs : s.isJustified = true) (hwild : s.isWildcard = false)
    (suppressions : List Suppression) : l.reports (s :: suppressions) = l.reports suppressions := by
  have hcomplaints : complaints s = [] := by
    rw [complaints, if_pos hs, hwild]
    rfl
  rw [reports, allComplaints, List.flatMap_cons, hcomplaints]
  rfl

/-- One suppression more takes out what it covers of the rules that are no engine rules. -/
theorem keeps_cons (s : Suppression) (suppressions : List Suppression) (f : Finding) :
    l.keeps (s :: suppressions) f =
      (l.keeps suppressions f && (l.isEngineRule f.ruleId || !(s.isJustified && s.covers f))) := by
  rw [keeps, keeps, List.any_cons]
  cases l.isEngineRule f.ruleId
  · rw [Bool.false_or, Bool.false_or, Bool.false_or, Bool.not_or, Bool.and_comm]
  · rfl

/-- One justified suppression of named rules more takes out of a file what it covers, except the findings of
engine rules. -/
theorem findingsIn_insert (hl : l.registry.HoldsEngineRules) {file file' : SourceFile}
    (hconstructs : file'.constructs = file.constructs) {s : Suppression} (hs : s.isJustified = true)
    (hwild : s.isWildcard = false)
    (hperm : (l.suppressions file').suppressions.Perm (s :: (l.suppressions file).suppressions))
    {fs : List Finding} (h : l.findingsIn file = .ok fs) :
    l.findingsIn file' = .ok (fs.filter fun f => l.isEngineRule f.ruleId || !s.covers f) := by
  have hfs := (findingsIn_eq_ok hl file).symm.trans h
  rw [Except.ok.injEq] at hfs
  have hcongr (f g : Finding) (hv : f.violation = g.violation) :
      (l.isEngineRule f.ruleId || !s.covers f) = (l.isEngineRule g.ruleId || !s.covers g) := by
    rw [isEngineRule_congr hv, covers_congr s hv]
  have hkept : l.keeps (s :: (l.suppressions file).suppressions) = fun f =>
      (l.isEngineRule f.ruleId || !s.covers f) && l.keeps (l.suppressions file).suppressions f := by
    funext f
    rw [keeps_cons, hs, Bool.true_and, Bool.and_comm]
  -- The reports on suppressions are of engine rules, so the filter passes over them.
  have hreports : (l.reports (l.suppressions file).suppressions).filter
      (fun f => l.isEngineRule f.ruleId || !s.covers f) = l.reports (l.suppressions file).suppressions := by
    rw [List.filter_eq_self]
    intro f hf
    rw [isEngineRule_of_mem_reports hl hf, Bool.true_or]
  have hsettled := reports_settled (l := l) (l.suppressions file').suppressions
  rw [findingsIn_eq_ok hl, hconstructs, ← hfs, ← Finding.aggregate_filter hcongr, List.filter_append, hreports,
    List.filter_filter, Finding.aggregate_append_perm _ (reports_perm hperm) hsettled,
    reports_cons_of_justified hs hwild, keeps_perm hperm, hkept]

/-- A finding in a file is in that file or of an engine rule. -/
theorem path_of_mem_findingsIn (hl : l.registry.HoldsEngineRules) {file : SourceFile}
    (hpath : ∀ c ∈ file.constructs, c.path = file.path) {fs : List Finding} (h : l.findingsIn file = .ok fs)
    {f : Finding} (hf : f ∈ fs) : f.path = file.path ∨ l.isEngineRule f.ruleId = true := by
  have hfs := (findingsIn_eq_ok hl file).symm.trans h
  rw [Except.ok.injEq] at hfs
  rw [← hfs] at hf
  have hmem := Finding.mem_of_mem_aggregate hf
  rw [List.mem_append, List.mem_filter] at hmem
  rcases hmem with hmem | hmem
  · exact .inl (path_of_mem_evaluate hl hpath (evaluate_eq_ok hl l.rules file.constructs) hmem.1)
  · exact .inr (isEngineRule_of_mem_reports hl hmem)

/-- The findings in a file with a directive for a line among its comments. -/
theorem findingsIn_directive (hl : l.registry.HoldsEngineRules) {file : SourceFile}
    (hpath : ∀ c ∈ file.constructs, c.path = file.path) {c : Comment} {r why : String}
    (hc : Directive.ofComment? c = some ⟨.line, [r], why⟩) (htrailing : c.trailing = true)
    (hr : r ≠ Suppression.wildcard) (hwhy : why ≠ "") {before after : List Comment}
    (hcomments : file.comments = before ++ after) {fs : List Finding} (h : l.findingsIn file = .ok fs) :
    l.findingsIn { file with comments := before ++ c :: after } =
      .ok (if l.isEngineRule r then fs else fs.filter fun f => !(f.ruleId == r && f.line == c.pos.line)) := by
  have hperm := l.suppressions_insert file hc rfl hcomments
  have hline : Suppression.lineOf (file.codeLines.mergeSort (· ≤ ·)) c = c.pos.line := if_pos htrailing
  simp only [hline] at hperm
  have hwild := Suppression.isWildcard_of_single
    (s := Directive.suppression ⟨.line, [r], why⟩ file.path c c.pos.line c.pos.line) rfl hr
  rw [findingsIn_insert hl (by rfl) (bne_iff_ne.mpr hwhy) hwild hperm h]
  refine congrArg Except.ok ?_
  -- A finding elsewhere is of an engine rule, and stays for that reason.
  have hpoint : ∀ f ∈ fs, (l.isEngineRule f.ruleId ||
      !Suppression.covers (Directive.suppression ⟨.line, [r], why⟩ file.path c c.pos.line c.pos.line) f) =
        (l.isEngineRule r || !(f.ruleId == r && f.line == c.pos.line)) := by
    intro f hf
    by_cases hrule : f.ruleId = r
    · rcases path_of_mem_findingsIn hl hpath h hf with hf | hf
      · rw [Suppression.covers_of_single rfl hr rfl hf, hrule]
        rfl
      · rw [hf, ← hrule, hf, Bool.true_or, Bool.true_or]
    · rw [Suppression.covers_eq_false_of_single rfl hr hrule, beq_false_of_ne hrule, Bool.false_and,
        Bool.not_false, Bool.or_true, Bool.or_true]
  rw [List.filter_congr hpoint]
  split
  · next hengine => simp only [hengine, Bool.true_or, List.filter_true]
  · next hengine => simp only [Bool.eq_false_iff.mpr hengine, Bool.false_or]

/-- The effect of a directive behind code. Behind the last token of a line it takes the findings of its rule
in the line of its comment out of the result, unless the rule is an engine rule; all other findings stay as
they are, and the analysis does not fail. -/
theorem analyzeSource_trailing_directive (config : Config) {source path : String} {file : SourceFile}
    (hfile : SourceFile.read source path = .ok file) {front rest : List Lexeme} {t : Lexeme} {kind : TokenKind}
    (hscan : Lexeme.scan source.toList = (front ++ t :: rest, none)) (ht : t.kind = .token kind)
    (hends : Lexeme.endsLine rest = true) {r why : String} (hr : Directive.IsRuleName r)
    (hwhy : ∃ c ∈ why.toList, Text.isBlank c = false) (hline : '\n' ∉ why.toList) :
    let l : Linter := ⟨config, Style.registry⟩
    let directive := (Directive.lineText r why).toList
    let commented := SourceFile.commented front t rest directive
    let comment := Lexed.trailing directive rest (Lexeme.endOf .start (front ++ [t]))
    let findings := (l.analyzeSource source path).findings
    (∃ lexed, tokenize commented = .ok lexed ∧ comment ∈ lexed.comments) ∧
      l.analyzeSource commented path = ⟨path, if l.isEngineRule r then findings
        else findings.filter fun f => !(f.ruleId == r && f.line == comment.pos.line), none⟩ := by
  intro l directive commented comment findings
  have hl : l.registry.HoldsEngineRules := Style.registry_holdsEngineRules
  have hbody : '\n' ∉ directive := Directive.lineFeed_not_mem_lineText hr hline
  obtain ⟨reason, hdirective, hreason⟩ :=
    Directive.ofComment?_trailing hr hwhy rest (Lexeme.endOf .start (front ++ [t]))
  obtain ⟨a, b, ha, hb, -, before, after, -, hafter⟩ := SourceFile.tokenize_commented hscan ht hends hbody path
  obtain ⟨before', after', hcomments, hread⟩ := SourceFile.read_commented hfile hscan ht hends hbody
  refine ⟨⟨b, hb, ?_⟩, ?_⟩
  · rw [hafter]
    exact List.mem_append_right _ List.mem_cons_self
  · obtain ⟨hpath, hconstructs⟩ := SourceFile.path_of_read hfile
    rw [← hpath] at hconstructs
    obtain ⟨fs, hfound⟩ : ∃ fs, l.findingsIn file = .ok fs := ⟨_, findingsIn_eq_ok hl file⟩
    have hfindings : findings = Finding.aggregate fs :=
      congrArg FileResult.findings (analyzeSource_eq hfile hfound)
    have hcongr (f g : Finding) (hv : f.violation = g.violation) :
        (!(f.ruleId == r && f.line == comment.pos.line)) = !(g.ruleId == r && g.line == comment.pos.line) := by
      obtain ⟨-, hline, -, hrule⟩ := Finding.violation_eq_iff.mp hv
      rw [hline, hrule]
    have hfilter := Finding.aggregate_filter hcongr fs
    rw [analyzeSource_eq hread
      (findingsIn_directive hl hconstructs hdirective rfl hr.single hreason hcomments hfound),
      hfindings, ← hfilter, ← apply_ite]

/-- A name of a package that is not to be reported, in a file with a blank behind it. -/
theorem analyzeSource_trailing_directive_packageClause :
    let l : Linter := ⟨.empty, Style.registry⟩
    let front : List Lexeme := [⟨.token .keyword, "package".toList⟩, ⟨.blank, [' ']⟩]
    let rest : List Lexeme := [⟨.blank, [' ']⟩, ⟨.lineFeed, ['\n']⟩]
    let commented := SourceFile.commented front ⟨.token .ident, "a_b".toList⟩ rest
      (Directive.lineText "package-name-format" "generated").toList
    commented = "package a_b // gostyle:ignore package-name-format: generated \n" ∧
      l.analyzeSource commented "p.go" = ⟨"p.go", (l.analyzeSource "package a_b \n" "p.go").findings.filter
        fun f => !(f.ruleId == "package-name-format" && f.line == 1), none⟩ := by
  intro l front rest commented
  have hfile : SourceFile.read "package a_b \n" "p.go" = .ok
      ⟨"p.go", [⟨"p.go", ⟨1, 1⟩, 1, .file 1 false "a_b"⟩,
        ⟨"p.go", ⟨1, 9⟩, 1, .package "a_b" false⟩], [], "a_b", 1, false,
        [1, 1]⟩ := by
    decide +kernel
  have hscan :
      Lexeme.scan "package a_b \n".toList = (front ++ ⟨.token .ident, "a_b".toList⟩ :: rest, none) := by
    decide +kernel
  have hr : Directive.IsRuleName "package-name-format" :=
    ⟨by decide +kernel, by decide, by decide, by decide, by decide, by decide⟩
  have hwhy : ∃ c ∈ "generated".toList, Text.isBlank c = false := ⟨'g', by decide, by decide⟩
  have hengine : l.isEngineRule "package-name-format" = false := by
    rw [isEngineRule, Style.registry_rules, List.any_map]
    decide +kernel
  have heffect :=
    (analyzeSource_trailing_directive .empty hfile hscan rfl (by decide +kernel) hr hwhy (by decide)).2
  rw [hengine] at heffect
  exact ⟨by decide +kernel, heffect⟩

end Linter

end GoIdiom
