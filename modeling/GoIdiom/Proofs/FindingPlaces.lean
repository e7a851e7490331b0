import GoIdiom.Proofs.Forest.Files
import GoIdiom.Proofs.Lexing.Lines
import GoIdiom.Proofs.Deduplication
import GoIdiom.Proofs.Origins

/-!
# Findings point into the file

Every finding of the style catalog is at a place that the text shows: the beginning of the file, a written token or
a comment. Only suppressions of the configuration that give a range of lines can be reported elsewhere.
-/

/-!
## Sites of constructs are written

Every site of a construct, the file apart, is where a written token begins: what is read from tokens does not depend
on the columns of inserted semicolons, and without these columns no such semicolon stands at the place of a token.
A construct ends in the line of a token that does not stand in front of its first one.
-/

namespace GoIdiom

variable {source path : String} {file : SourceFile} {lexed : Lexed}

namespace Lexed

/-- A written token begins at a place. -/
def HasTokenAt (lexed : Lexed) (p : Position) : Prop := ∃ t ∈ lexed.tokens, t.isInserted = false ∧ t.pos = p

/-- A comment begins at a place. -/
def HasCommentAt (lexed : Lexed) (p : Position) : Prop := ∃ c ∈ lexed.comments, c.pos = p

end Lexed

namespace SourceFile

/-- What is found in tokens has its sites at them. -/
theorem exists_token_of_mem_sites {ts : List Token} {package : String} {constructs : List Construct}
    (hread : readTokens path ts = .ok (package, constructs)) {c : Construct} (hc : c ∈ constructs) {layer : Layer}
    {p : Position} (hp : p ∈ layer.sites c) : ∃ t ∈ ts, t.pos = p := by
  have hle := (hread ▸ countAt_readTokens layer p path ts).of_ok
  have hsite : 0 < layer.countAt p constructs := List.count_pos_iff.mpr (List.mem_flatMap.mpr ⟨c, hc, hp⟩)
  exact List.mem_map.mp (List.count_pos_iff.mp (Nat.lt_of_lt_of_le hsite hle))

/-- A construct that is no file is not the first one of a file. -/
theorem mem_of_kind_ne_file {first c : Construct} {constructs : List Construct} (hfirst : first.kind = .file)
    (hc : c ∈ first :: constructs) (hkind : c.kind ≠ .file) : c ∈ constructs := by
  rcases List.mem_cons.mp hc with rfl | hc
  · exact absurd hfirst hkind
  · exact hc

/-- Sites of constructs are written tokens, the file apart. -/
theorem hasTokenAt_of_mem_sites (hlexed : tokenize source = .ok lexed) (h : read source path = .ok file)
    {c : Construct} (hc : c ∈ file.constructs) (hkind : c.kind ≠ .file) {layer : Layer} {p : Position}
    (hp : p ∈ layer.sites c) : lexed.HasTokenAt p := by
  obtain ⟨same, package, constructs, hsame, hread, rfl⟩ := read_eq_ok_iff.mp h
  obtain rfl := Except.ok.inj (hlexed.symm.trans hsame)
  have hmem : c ∈ constructs := mem_of_kind_ne_file rfl hc hkind
  obtain ⟨t, ht, hpos⟩ := exists_token_of_mem_sites hread hmem hp
  have hsettledRead :
      readTokens path (lexed.tokens.map (Relocation.settled path).token) = .ok (package, constructs) :=
    Except.eq_ok_of_toOption_eq (readTokens_map_settled (laid_of_tokenize hlexed)) hread
  obtain ⟨u, hu, hsettled⟩ := exists_token_of_mem_sites hsettledRead hmem hp
  obtain ⟨u, hmoved, rfl⟩ := List.mem_map.mp hu
  -- The token at the place has a column, so the settled token there is no inserted semicolon.
  have hcol : 1 ≤ p.col := hpos ▸ ((inLines_of_tokenize hlexed).1 t ht).column
  by_cases hinserted : u.isInserted = true
  · have hzero : ((Relocation.settled path).token u).pos.col = 0 := by
      rw [Relocation.token, if_pos hinserted]
      rfl
    rw [hsettled] at hzero
    omega
  · rw [Bool.not_eq_true] at hinserted
    rw [Relocation.pos_token _ hinserted] at hsettled
    exact ⟨u, hmoved, hinserted, hsettled⟩

/-- Tokens that stand behind one another do not go back in their lines. -/
theorem line_le_of_sublist (hlexed : tokenize source = .ok lexed) {first : Token} {more : List Token}
    (h : (first :: more).Sublist lexed.tokens) {last : Token} (hlast : last ∈ first :: more) :
    first.line ≤ last.line := by
  have hpairwise := (tokens_increasing hlexed).sublist h
  rcases List.mem_cons.mp hlast with rfl | hlast
  · exact Nat.le_refl _
  · have hbefore := (List.pairwise_cons.mp hpairwise).1 last hlast
    rw [Position.before_iff] at hbefore
    change first.pos.line ≤ last.pos.line
    omega

/-- A construct other than the file begins with a written token and ends in a line of the file, in which its first
token or a later one stands. -/
theorem written_of_mem_constructs (hlexed : tokenize source = .ok lexed) (h : read source path = .ok file)
    {c : Construct} (hc : c ∈ file.constructs) (hkind : c.kind ≠ .file) :
    lexed.HasTokenAt c.pos ∧ c.pos.line ≤ c.endLine ∧ c.endLine ≤ max file.lineCount 1 := by
  have htoken : lexed.HasTokenAt c.pos := hasTokenAt_of_mem_sites hlexed h hc hkind (Layer.mem_sites_kind rfl)
  refine ⟨htoken, ?_⟩
  obtain ⟨lineCount, package, constructs, hconstructs, hcovers⟩ := covers_read hlexed h
  have hcount : file.lineCount = countLines source.toList := by
    obtain ⟨_, _, _, -, -, rfl⟩ := read_eq_ok_iff.mp h
    rfl
  have hbound (t : Token) (ht : t ∈ lexed.tokens) : t.line ≤ max file.lineCount 1 :=
    hcount ▸ Nat.le_trans ((inLines_of_tokenize hlexed).1 t ht).last (Nat.le_max_left _ _)
  have hmem : c ∈ constructs := mem_of_kind_ne_file rfl (hconstructs ▸ hc) hkind
  rcases hcovers.spans c hmem with hline | ⟨first, more, hsub, hpos, last, hlast, hend⟩
  · obtain ⟨t, ht, -, hpos⟩ := htoken
    rw [hline, ← hpos]
    exact ⟨Nat.le_refl _, hbound t ht⟩
  · rw [hpos, hend]
    exact ⟨line_le_of_sublist hlexed hsub hlast, hbound last (hsub.subset hlast)⟩

end SourceFile

/-! ## Places of findings -/

variable {source path : String} {file : SourceFile} {lexed : Lexed}

namespace Lexed

/-- A place that a text shows: its beginning, a written token or a comment. -/
def Shows (lexed : Lexed) (p : Position) : Prop := p = .start ∨ lexed.HasTokenAt p ∨ lexed.HasCommentAt p

/-- What a text shows is in its lines. -/
theorem Shows.inLines (hlexed : tokenize source = .ok lexed) {p : Position} (h : lexed.Shows p) :
    p.InLines (max (SourceFile.countLines source.toList) 1) := by
  have hwiden {p : Position} (hp : p.InLines (SourceFile.countLines source.toList)) :
      p.InLines (max (SourceFile.countLines source.toList) 1) :=
    ⟨hp.first, Nat.le_trans hp.last (Nat.le_max_left _ _), hp.column⟩
  rcases h with rfl | ⟨t, ht, -, rfl⟩ | ⟨c, hc, rfl⟩
  · exact ⟨Nat.le_refl 1, Nat.le_max_right _ 1, Nat.le_refl 1⟩
  · exact hwiden ((inLines_of_tokenize hlexed).1 t ht)
  · exact hwiden ((inLines_of_tokenize hlexed).2 c hc)

end Lexed

namespace SourceFile

/-- A construct of a plain kind has its sites where it begins. -/
theorem eq_pos_of_mem_sites {c : Construct} (hkind : c.kind ∈ Layer.plainKinds) {layer : Layer} {p : Position}
    (hp : p ∈ layer.sites c) : p = c.pos := by
  have hle : (layer.sites c).count p ≤ [c.pos].count p := Layer.count_sites_le hkind
  have hsite : 0 < (layer.sites c).count p := List.count_pos_iff.mpr hp
  exact List.mem_singleton.mp (List.count_pos_iff.mp (Nat.lt_of_lt_of_le hsite hle))

/-- Every site of a construct is shown. -/
theorem shows_of_mem_sites (hlexed : tokenize source = .ok lexed) (h : read source path = .ok file) {c : Construct}
    (hc : c ∈ file.constructs) {layer : Layer} {p : Position} (hp : p ∈ layer.sites c) : lexed.Shows p := by
  by_cases hkind : c.kind = .file
  · obtain ⟨_, package, constructs, -, hread, rfl⟩ := read_eq_ok_iff.mp h
    have hplain : c.kind ∈ Layer.plainKinds := by
      rw [hkind]
      decide
    have hpos := eq_pos_of_mem_sites hplain hp
    rcases List.mem_cons.mp hc with rfl | hc
    · exact .inl hpos
    · exact absurd hkind (kind_ne_file_of_readTokens hread c hc)
  · exact .inr (.inl (hasTokenAt_of_mem_sites hlexed h hc hkind hp))

/-- Every construct begins at a place that is shown. -/
theorem shows_pos (hlexed : tokenize source = .ok lexed) (h : read source path = .ok file) {c : Construct}
    (hc : c ∈ file.constructs) : lexed.Shows c.pos :=
  shows_of_mem_sites hlexed h hc (Layer.mem_sites_kind rfl)

/-- A suppression that gives no lines is declared at a place that is shown. -/
theorem exists_shows_of_declaredIn (hlexed : tokenize source = .ok lexed) (h : read source path = .ok file)
    {entries : List SuppressionEntry} (hlines : ∀ e ∈ entries, e.lines = none) {s : Suppression}
    (hs : s.DeclaredIn file entries) : ∃ p, lexed.Shows p ∧ (s.line, s.col) = p.shown := by
  cases hs with
  | comment hc hd first last =>
    obtain ⟨same, _, _, hsame, -, rfl⟩ := read_eq_ok_iff.mp h
    obtain rfl := Except.ok.inj (hlexed.symm.trans hsame)
    exact ⟨_, .inr (.inr ⟨_, hc, rfl⟩), rfl⟩
  | entry he =>
    refine ⟨.start, .inl rfl, ?_⟩
    rw [Suppression.ofEntry, hlines _ he]
    rfl

end SourceFile

namespace Linter

/-- A finding of an engine rule is where it is reported. -/
theorem shown_of_engineFinding {l : Linter} {id path message : String} {line col : Int} {f : Finding}
    (h : l.engineFinding id path line col message = .ok f) : (f.line, f.col) = (line, col) := by
  have hviolation := (of_engineFinding h).1
  exact congrArg (fun v => (v.2.1, v.2.2.1)) hviolation

/-- A finding of the style catalog is at a place that is shown. -/
theorem exists_shows_of_origin {config : Config} (hlines : ∀ e ∈ config.suppressions, e.lines = none)
    (hlexed : tokenize source = .ok lexed) (hread : SourceFile.read source path = .ok file) {f : Finding}
    (horigin : Origin ⟨config, Style.registry⟩ file f) :
    ∃ p, lexed.Shows p ∧ (f.line, f.col) = p.shown := by
  cases horigin with
  | hit ht houtcome hh hf =>
    obtain ⟨rule, hrule, m, hm, c, hc, -, rfl⟩ := mem_trials_iff.mp ht
    obtain ⟨category, r, hr, -, rfl⟩ := Style.exists_styleRule_of_mem_registry (mem_rules_iff.mp hrule).1 hm
    obtain ⟨layer, hlayer⟩ := Style.keepsToLayer_of_mem hr
    have hspreads := hlayer c ⟨.ofConstructs file.constructs, config.optionsOf rule.id⟩
    rw [show r.predicate c _ = .ok _ from houtcome] at hspreads
    obtain ⟨p, hp, hplace⟩ := List.mem_map.mp (hspreads.of_ok.subset (List.mem_map_of_mem hh))
    refine ⟨p, SourceFile.shows_of_mem_sites hlexed hread hc hp, ?_⟩
    rw [hplace, hf]
    rfl
  | failure ht houtcome hf =>
    exact ⟨_, SourceFile.shows_pos hlexed hread (construct_of_mem_trials ht), shown_of_engineFinding hf⟩
  | complaint hs hc hf =>
    obtain ⟨p, hp, hplace⟩ :=
      SourceFile.exists_shows_of_declaredIn hlexed hread hlines (declaredIn_of_mem_suppressions hs)
    exact ⟨p, hp, (shown_of_engineFinding hf).trans hplace⟩

/-- Findings and constructs are in the file. Unless a suppression of the configuration gives a range of lines, every
finding in a source that is read is in one of its lines, or in the first, at a column counted from one, and it is at
the beginning of the file, at a written token or at a comment. Every construct besides the file begins at a written
token and ends in no earlier line, within the file. -/
theorem analyzeSource_points (config : Config) (hlines : ∀ e ∈ config.suppressions, e.lines = none)
    (hread : SourceFile.read source path = .ok file) : ∃ lexed, tokenize source = .ok lexed ∧
      (∀ f ∈ (Linter.analyzeSource ⟨config, Style.registry⟩ source path).findings,
        (1 ≤ f.line ∧ f.line ≤ max file.lineCount 1 ∧ 1 ≤ f.col) ∧
          ∃ p, lexed.Shows p ∧ (f.line, f.col) = p.shown) ∧
      ∀ c ∈ file.constructs, c.kind ≠ .file →
        lexed.HasTokenAt c.pos ∧ c.pos.line ≤ c.endLine ∧ c.endLine ≤ max file.lineCount 1 := by
  obtain ⟨lexed, package, constructs, hlexed, -, hfile⟩ := SourceFile.read_eq_ok_iff.mp hread
  refine ⟨lexed, hlexed, fun f hf => ?_,
    fun c hc hkind => SourceFile.written_of_mem_constructs hlexed hread hc hkind⟩
  obtain ⟨p, hp, hplace⟩ :=
    exists_shows_of_origin hlines hlexed hread (Origin.of_mem_findings Style.registry_holdsEngineRules hread hf)
  refine ⟨?_, p, hp, hplace⟩
  have hcount : file.lineCount = SourceFile.countLines source.toList := hfile ▸ rfl
  obtain ⟨hfirst, hlast, hcol⟩ := hp.inLines hlexed
  obtain ⟨hline, hcolumn⟩ := Prod.mk.inj hplace
  rw [hline, hcolumn, hcount]
  exact ⟨Int.ofNat_le.mpr hfirst, Int.ofNat_le.mpr hlast, Int.ofNat_le.mpr hcol⟩

/-- Two suppressions without a reason, in a comment and in the configuration: one is reported at the comment and the
other at the beginning of the file. -/
theorem analyzeSource_points_unjustified :
    let config : Config := { Config.empty with suppressions := [⟨"deep-nesting", ["*"], "", none⟩] }
    let source := "package p\n\nvar x int //gostyle:ignore dot-import\n"
    let findings := (Linter.analyzeSource ⟨config, Style.registry⟩ source "p.go").findings
    ∃ file, SourceFile.read source "p.go" = .ok file ∧ (∀ e ∈ config.suppressions, e.lines = none) ∧
      (∃ f ∈ findings, (f.line, f.col) = (3, 11)) ∧ (∃ f ∈ findings, (f.line, f.col) = (1, 1)) ∧
      ∃ lexed, tokenize source = .ok lexed ∧ lexed.HasCommentAt ⟨3, 11⟩ ∧
        (∀ f ∈ findings, (1 ≤ f.line ∧ f.line ≤ 3 ∧ 1 ≤ f.col) ∧ ∃ p, lexed.Shows p ∧
          (f.line, f.col) = p.shown) ∧
        ∀ c ∈ file.constructs, c.kind ≠ .file →
          lexed.HasTokenAt c.pos ∧ c.pos.line ≤ c.endLine ∧ c.endLine ≤ 3 := by
  intro config source findings
  let file : SourceFile :=
    ⟨"p.go", [⟨"p.go", ⟨1, 1⟩, 3, .file 3 false "p"⟩, ⟨"p.go", ⟨1, 9⟩, 1, .package "p" false⟩,
    ⟨"p.go", ⟨3, 5⟩, 3, .global ⟨[("x", ⟨3, 5⟩)], false, "int", ""⟩⟩],
    [⟨"//gostyle:ignore dot-import", ⟨3, 11⟩, 3, true⟩], "p", 3, false, [1, 1, 3, 3, 3]⟩
  have hread : SourceFile.read source "p.go" = .ok file := by decide +kernel
  have hlines : ∀ e ∈ config.suppressions, e.lines = none := by decide
  have hsuppressions : (Linter.suppressions ⟨config, Style.registry⟩ file).suppressions =
      [⟨["dot-import"], "p.go", 3, 3, "", 3, 11, .comment⟩,
        ⟨["deep-nesting"], "p.go", 1, Suppression.endOfFile, "", 1, 1, .configuration⟩] := by
    decide +kernel
  have hreported {s : Suppression} (hs : s ∈ (Linter.suppressions ⟨config, Style.registry⟩ file).suppressions)
      (hjustified : s.isJustified = false)
      (hleast : ∀ r ∈ (Linter.suppressions ⟨config, Style.registry⟩ file).suppressions,
        r.isJustified = false → unjustified r = unjustified s → unjustifiedText s ≤ unjustifiedText r) :
      ∃ f ∈ findings, (f.line, f.col) = (s.line, s.col) := by
    obtain ⟨f, hf, hviolation, -⟩ := (exists_unjustified_iff Style.registry_holdsEngineRules
      Style.registry_sparesEngineNames hread hs hjustified).mpr hleast
    exact ⟨f, hf, congrArg (fun v => (v.2.1, v.2.2.1)) hviolation⟩
  rw [hsuppressions] at hreported
  obtain ⟨lexed, hlexed, hfindings, hconstructs⟩ := analyzeSource_points config hlines hread
  refine ⟨file, hread, hlines, hreported List.mem_cons_self rfl (by decide +kernel),
    hreported (List.mem_cons_of_mem _ List.mem_cons_self) rfl (by decide +kernel), lexed, hlexed, ?_, hfindings,
    hconstructs⟩
  have hcomment : (tokenize source).toOption.any (fun l => l.comments.any fun c => c.pos = ⟨3, 11⟩) = true := by
    decide +kernel
  rw [hlexed] at hcomment
  obtain ⟨c, hc, hpos⟩ := List.any_eq_true.mp hcomment
  exact ⟨c, hc, of_decide_eq_true hpos⟩

end Linter

end GoIdiom
