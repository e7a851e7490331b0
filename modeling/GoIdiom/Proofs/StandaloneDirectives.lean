import GoIdiom.Proofs.BlockDirectives
import GoIdiom.Proofs.Lexing.File
import GoIdiom.Proofs.Lexing.Marks
import GoIdiom.Style.Catalog

/-!
# Directives in front of code

A directive in a comment with no code in front of it on its line is for the next line that holds code. The search
compares the line where the comment ends with those of the tokens, semicolons apart: code that follows the comment
in its last line is passed over, and so are lines that hold nothing but semicolons.
-/

namespace GoIdiom

variable {source path : String} {lexed : Lexed} {file : SourceFile} {c : Comment} {d : Directive} {t : Token}

namespace Lexed

open Lexeme

/-- The first written token behind a comment. -/
def firstBehind? (lexed : Lexed) (c : Comment) : Option Token :=
  (lexed.tokens.filter (!·.isInserted)).find? fun t => c.pos.before t.pos

/-- The first token, semicolons apart, on a line below a comment. -/
def codeBelow? (lexed : Lexed) (c : Comment) : Option Token :=
  (lexed.tokens.filter (!·.isSemi)).find? fun t => c.endLine < t.line

/-- The next line that holds code, or the line of the comment when there is none. -/
def lineBelow (lexed : Lexed) (c : Comment) : Nat := ((lexed.codeBelow? c).map Token.line).getD c.pos.line

section Places

variable {cs : List Char} {all ls : List Lexeme} {cause : Option SourceCause} {pos : Position} {last : Option Token}

/-- A comment begins where its piece does, and ends on the line where the piece ends. -/
theorem endLine_of_mem_step {l : Lexeme} (h : c ∈ (step pos last l).comments) :
    c.pos = pos ∧ c.endLine = (l.endPos pos).line := by
  rw [step] at h
  rw [endPos]
  cases hkind : l.kind with
  | lineComment =>
    rw [hkind] at h
    rw [List.mem_singleton.mp h]
    exact ⟨rfl, rfl⟩
  | blockComment =>
    simp only [hkind, endPos] at h
    split at h <;> rw [List.mem_singleton.mp h] <;> exact ⟨rfl, rfl⟩
  | lineFeed | blank | token =>
    rw [hkind] at h
    cases h

/-- Comments end in front of the tokens behind them. -/
theorem ends_of_mem_comments (h : scan cs = (all, cause)) (hls : ls ⊆ all) (pos : Position)
    (last : Option Token) :
    ∀ c ∈ (place pos last ls).comments, (c.pos = pos ∨ pos.before c.pos = true) ∧
    c.pos.line ≤ c.endLine ∧
      ∀ t ∈ (place pos last ls).tokens, c.pos.before t.pos = true → c.endLine ≤ t.line := by
  -- On the pieces: the first one ends in front of all that the others add.
  induction ls generalizing pos last with
  | nil => exact List.forall_mem_nil _
  | cons l rest ih =>
    obtain ⟨hl, hrest⟩ := List.cons_subset.mp hls
    have hend := before_endPos h hl pos
    have hbehind {p : Position} (hp : p = l.endPos pos ∨ (l.endPos pos).before p = true) :
        pos.before p = true ∧ (l.endPos pos).line ≤ p.line := by
      obtain rfl | hp := hp
      · exact ⟨hend, Nat.le_refl _⟩
      · exact ⟨Position.before_trans hend hp, Position.line_le_of_before hp⟩
    have htokens := (increasing_place h hrest (l.endPos pos) (step pos last l).last).1
    rw [place_cons]
    intro c hc
    obtain hc | hc := List.mem_append.mp hc
    · obtain ⟨rfl, hline⟩ := endLine_of_mem_step hc
      refine ⟨.inl rfl, hline ▸ Position.line_le_of_before hend, fun t ht hbefore => ?_⟩
      obtain ht | ht := List.mem_append.mp ht
      · rw [pos_of_mem_step ht] at hbefore
        exact absurd rfl (Position.ne_of_before hbefore)
      · rw [hline]
        exact (hbehind (htokens t ht)).2
    · obtain ⟨hplace, hlines, hafter⟩ := ih hrest (l.endPos pos) (step pos last l).last c hc
      refine ⟨.inr (hbehind hplace).1, hlines, fun t ht hbefore => ?_⟩
      obtain ht | ht := List.mem_append.mp ht
      · rw [pos_of_mem_step ht] at hbefore
        exact absurd hbefore (Position.not_before_of_before (hbehind hplace).1)
      · exact hafter t ht hbefore

end Places

/-- The comments of a source stand behind one another. -/
theorem comments_increasing (h : tokenize source = .ok lexed) :
    lexed.comments.Pairwise fun a b => a.pos.before b.pos = true := by
  obtain ⟨pieces, hscan, rfl⟩ := place_of_tokenize h
  have hplaces := (pairwise_locatedFrom hscan (List.Subset.refl pieces) []).2
  have hcomments : ((place .start none pieces).comments.map fun c => (c.text, c.pos)).Pairwise
      fun a b => a.2.before b.2 = true := by
    rw [show place .start none pieces = place (endOf .start []) none pieces from rfl, comments_place,
      List.pairwise_filterMap]
    refine hplaces.imp fun {o o'} hbefore a ha b hb => ?_
    rwa [pos_of_comment? ha, pos_of_comment? hb]
  exact List.pairwise_map.mp hcomments

end Lexed

namespace Suppression

variable {codeLines : List Nat} {lastLine : Int} {cs : List Comment}

/-- Whether a suppression is declared by a comment. -/
def isOf (c : Comment) (s : Suppression) : Bool :=
  s.origin == .comment && s.line == c.pos.line && s.col == c.pos.col

/-- A suppression declared at another place is of another comment. -/
theorem isOf_eq_false {s : Suppression} {e : Comment} (hplace : s.line = e.pos.line ∧ s.col = e.pos.col)
    (hne : e.pos ≠ c.pos) : isOf c s = false := by
  rw [← Bool.not_eq_true, isOf, Bool.and_eq_true, Bool.and_eq_true, beq_iff_eq, beq_iff_eq, beq_iff_eq]
  rintro ⟨⟨-, hline⟩, hcol⟩
  have hline' : e.pos.line = c.pos.line := Int.ofNat_inj.mp (hplace.1.symm.trans hline)
  have hcol' : e.pos.col = c.pos.col := Int.ofNat_inj.mp (hplace.2.symm.trans hcol)
  exact hne (Position.eq_iff.mpr ⟨hline', hcol'⟩)

/-- Of what comments in order declare, one for a line declares its one suppression. -/
theorem filter_declarations (hordered : cs.Pairwise fun a b => a.pos.before b.pos = true) (hc : c ∈ cs)
    (hd : Directive.ofComment? c = some d) (hkind : d.kind = .line) :
    (declarations path codeLines lastLine cs).filter (isOf c) =
      [d.suppression path c (lineOf codeLines c) (lineOf codeLines c)] := by
  induction cs with
  | nil => cases hc
  | cons first rest ih =>
    obtain ⟨hfirst, hrest⟩ := List.pairwise_cons.mp hordered
    rw [declarations, List.filter_append]
    obtain rfl | hc := List.mem_cons.mp hc
    · have hothers : (declarations path codeLines lastLine rest).filter (isOf c) = [] := by
        rw [List.filter_eq_nil_iff]
        intro s hs
        obtain ⟨e, he, hplace⟩ := exists_of_mem_declarations hs
        rw [isOf_eq_false hplace (Position.ne_of_before (hfirst e he)).symm]
        exact Bool.false_ne_true
      have hself : declaration path codeLines lastLine c rest =
          some (d.suppression path c (lineOf codeLines c) (lineOf codeLines c)) := by
        rw [declaration, hd, Option.bind_some, hkind]
      rw [hothers, hself, List.append_nil, Option.toList_some, List.filter_singleton]
      simp [isOf, Directive.suppression]
    · have hself : (declaration path codeLines lastLine first rest).toList.filter (isOf c) = [] := by
        rw [List.filter_eq_nil_iff]
        intro s hs
        rw [isOf_eq_false (place_of_mem_declaration (Option.mem_toList.mp hs))
          (Position.ne_of_before (hfirst c hc))]
        exact Bool.false_ne_true
      rw [hself, List.nil_append]
      exact ih hrest hc

/-- The search over the lines of code finds the next line that holds code. -/
theorem targetLine_eq (h : tokenize source = .ok lexed) (c : Comment) :
    targetLine ((SourceFile.codeLinesOf lexed.tokens).mergeSort (· ≤ ·)) c = lexed.lineBelow c := by
  have hsorted : (SourceFile.codeLinesOf lexed.tokens).Pairwise fun a b => decide (a ≤ b) = true := by
    apply List.pairwise_map.mpr
    apply ((tokens_increasing h).filter _).imp
    exact fun hbefore => decide_eq_true (Position.line_le_of_before hbefore)
  rw [targetLine, List.mergeSort_of_pairwise hsorted, SourceFile.codeLinesOf, List.find?_map]
  rfl

end Suppression

namespace Lexed

/-- A comment does not end above its first line. -/
theorem line_le_endLine (h : tokenize source = .ok lexed) (hc : c ∈ lexed.comments) :
    c.pos.line ≤ c.endLine := by
  obtain ⟨pieces, hscan, rfl⟩ := place_of_tokenize h
  exact (ends_of_mem_comments hscan (List.Subset.refl _) _ _ c hc).2.1

/-- Whatever stands on a line below a comment stands behind it. -/
theorem before_of_endLine_lt (h : tokenize source = .ok lexed) (hc : c ∈ lexed.comments)
    (hline : c.endLine < t.line) : c.pos.before t.pos = true :=
  Position.before_iff.mpr (.inl (Nat.lt_of_le_of_lt (line_le_endLine h hc) hline))

/-- What stands behind a comment stands on its last line or below. -/
theorem endLine_le (h : tokenize source = .ok lexed) (hc : c ∈ lexed.comments) (ht : t ∈ lexed.tokens)
    (hbefore : c.pos.before t.pos = true) : c.endLine ≤ t.line := by
  obtain ⟨pieces, hscan, rfl⟩ := place_of_tokenize h
  exact (ends_of_mem_comments hscan (List.Subset.refl _) _ _ c hc).2.2 t ht hbefore

/-- The first token of some kind stands on the line of any such token or above it. -/
theorem exists_find?_line_le {ts : List Token} {p : Token → Bool} {u : Token}
    (hordered : ts.Pairwise fun t u => t.pos.before u.pos = true) (hu : u ∈ ts) (hp : p u = true) :
    ∃ v, ts.find? p = some v ∧ v.line ≤ u.line := by
  induction ts with
  | nil => cases hu
  | cons first rest ih =>
    obtain ⟨hfirst, hrest⟩ := List.pairwise_cons.mp hordered
    by_cases hhere : p first = true
    · refine ⟨first, List.find?_cons_of_pos hhere, ?_⟩
      obtain rfl | hu := List.mem_cons.mp hu
      · exact Nat.le_refl _
      · exact Position.line_le_of_before (hfirst u hu)
    · rw [List.find?_cons_of_neg hhere]
      obtain rfl | hu := List.mem_cons.mp hu
      · exact absurd hp hhere
      · exact ih hrest hu

/-- The first token behind a comment is a token behind it. -/
theorem mem_of_firstBehind? (h : lexed.firstBehind? c = some t) :
    t ∈ lexed.tokens ∧ c.pos.before t.pos = true := by
  rw [firstBehind?] at h
  have hbehind := List.find?_some h
  exact ⟨(List.mem_filter.mp (List.mem_of_find?_eq_some h)).1, hbehind⟩

/-- No code stands between the first token behind a comment and the comment. -/
theorem line_le_of_firstBehind? (h : tokenize source = .ok lexed) {u : Token} (hu : u ∈ lexed.tokens)
    (hsemi : u.isSemi = false) (hbefore : c.pos.before u.pos = true) (ht : lexed.firstBehind? c = some t) :
    t.line ≤ u.line := by
  have hwritten : u ∈ lexed.tokens.filter (!·.isInserted) :=
    List.mem_filter.mpr ⟨hu, by rw [Token.isInserted_of_isSemi hsemi, Bool.not_false]⟩
  obtain ⟨v, hv, hle⟩ :=
    exists_find?_line_le (p := fun t => c.pos.before t.pos) ((tokens_increasing h).filter _) hwritten hbefore
  obtain rfl := Option.some.inj (hv.symm.trans ht)
  exact hle

/-- The next line that holds code is not below any other line that holds code. -/
theorem exists_codeBelow? (h : tokenize source = .ok lexed) {u : Token} (hu : u ∈ lexed.tokens)
    (hsemi : u.isSemi = false) (hline : c.endLine < u.line) :
    ∃ v, lexed.codeBelow? c = some v ∧ v.line ≤ u.line := by
  have hcode : u ∈ lexed.tokens.filter (!·.isSemi) := List.mem_filter.mpr ⟨hu, by rw [hsemi, Bool.not_false]⟩
  exact exists_find?_line_le ((tokens_increasing h).filter _) hcode (decide_eq_true hline)

/-- The next line that holds code is the one of the first token behind a comment exactly when that token stands
below the comment and not among semicolons only, or when it follows a comment of one line and no line below holds
code. -/
theorem lineBelow_eq_iff (h : tokenize source = .ok lexed) (hc : c ∈ lexed.comments)
    (ht : lexed.firstBehind? c = some t) :
    lexed.lineBelow c = t.line ↔
      (c.endLine < t.line ∧ ∃ u ∈ lexed.tokens, u.isSemi = false ∧ u.line = t.line) ∨
        (t.line = c.endLine ∧ c.endLine = c.pos.line ∧ lexed.codeBelow? c = none) := by
  obtain ⟨hmem, hbehind⟩ := mem_of_firstBehind? ht
  have hle := endLine_le h hc hmem hbehind
  rw [lineBelow]
  cases hbelow : lexed.codeBelow? c with
  | none =>
    have hnone : ¬∃ u ∈ lexed.tokens, u.isSemi = false ∧ c.endLine < u.line := by
      rintro ⟨u, hu, hsemi, hline⟩
      obtain ⟨v, hv, -⟩ := exists_codeBelow? h hu hsemi hline
      rw [hbelow] at hv
      cases hv
    have hlines := line_le_endLine h hc
    change c.pos.line = t.line ↔ _
    constructor
    · intro hline
      exact .inr ⟨by omega, by omega, rfl⟩
    · rintro (⟨hlt, u, hu, hsemi, hline⟩ | ⟨hline, hend, -⟩)
      · exact absurd ⟨u, hu, hsemi, hline ▸ hlt⟩ hnone
      · exact (hline.trans hend).symm
  | some v =>
    obtain ⟨hv, hsemi⟩ := List.mem_filter.mp (List.mem_of_find?_eq_some hbelow)
    have hsemi' : v.isSemi = false := by simpa using hsemi
    have hlt : c.endLine < v.line := by simpa using List.find?_some hbelow
    have hmin := line_le_of_firstBehind? h hv hsemi' (before_of_endLine_lt h hc hlt) ht
    change v.line = t.line ↔ _
    constructor
    · intro hline
      exact .inl ⟨hline ▸ hlt, v, hv, hsemi', hline⟩
    · rintro (⟨hlt', u, hu, husemi, hline⟩ | ⟨-, -, hnone⟩)
      · obtain ⟨w, hw, hwline⟩ := exists_codeBelow? h hu husemi (hline ▸ hlt')
        obtain rfl := Option.some.inj (hbelow.symm.trans hw)
        omega
      · cases hnone

/-- Behind a comment without tokens behind it no line holds code. -/
theorem lineBelow_of_firstBehind?_eq_none (h : tokenize source = .ok lexed) (hc : c ∈ lexed.comments)
    (hnone : lexed.firstBehind? c = none) : lexed.lineBelow c = c.pos.line := by
  rw [lineBelow]
  cases hbelow : lexed.codeBelow? c with
  | none => rfl
  | some v =>
    obtain ⟨hv, hsemi⟩ := List.mem_filter.mp (List.mem_of_find?_eq_some hbelow)
    have hlt : c.endLine < v.line := by simpa using List.find?_some hbelow
    have hwritten : v.isInserted = false := Token.isInserted_of_isSemi (by simpa using hsemi)
    rw [firstBehind?, List.find?_eq_none] at hnone
    have hbehind := hnone v (List.mem_filter.mpr ⟨hv, by rw [hwritten, Bool.not_false]⟩)
    exact absurd (before_of_endLine_lt h hc hlt) hbehind

end Lexed

namespace Linter

/-- What one comment with a directive for a line declares, among all the suppressions in a file. -/
theorem filter_suppressions (l : Linter) (hread : SourceFile.read source path = .ok file)
    (hc : c ∈ file.comments) (hd : Directive.ofComment? c = some d) (hkind : d.kind = .line) :
    let line := Suppression.lineOf (file.codeLines.mergeSort (· ≤ ·)) c
    (l.suppressions file).suppressions.filter (Suppression.isOf c) = [d.suppression path c line line] := by
  intro line
  obtain ⟨lexed, package, constructs, htokens, -, rfl⟩ := SourceFile.read_eq_ok_iff.mp hread
  have hordered := Lexed.comments_increasing htokens
  have hentries :
      (Suppression.ofEntries l.config.root path l.config.suppressions).filter (Suppression.isOf c) = [] := by
    rw [List.filter_eq_nil_iff]
    intro s hs
    obtain ⟨e, -, rfl⟩ := List.mem_map.mp hs
    exact Bool.false_ne_true
  change ((Suppression.ofComments path _ _ lexed.comments).suppressions ++
    Suppression.ofEntries l.config.root path l.config.suppressions).filter (Suppression.isOf c) = _
  rw [List.filter_append, hentries, List.append_nil, Suppression.suppressions_ofComments hordered]
  exact Suppression.filter_declarations hordered hc hd hkind

/-- A directive for a line, in a comment with no code in front of it on its line, exempts the next line that holds
code: the line of the first token, semicolons apart, that stands below the comment, and its own line when there is
none. Of the first token behind the comment that is the line exactly when it stands below the comment on a line that
holds code, or when it follows a comment of one line and no code stands below. -/
theorem suppressions_standalone (l : Linter) (hread : SourceFile.read source path = .ok file)
    (htokens : tokenize source = .ok lexed) (hc : c ∈ file.comments) (hd : Directive.ofComment? c = some d)
    (hkind : d.kind = .line) (htrailing : c.trailing = false) :
    (l.suppressions file).suppressions.filter (Suppression.isOf c) =
        [d.suppression path c (lexed.lineBelow c) (lexed.lineBelow c)] ∧
      (lexed.firstBehind? c = none → lexed.lineBelow c = c.pos.line) ∧
      ∀ t, lexed.firstBehind? c = some t → (lexed.lineBelow c = t.line ↔
        (c.endLine < t.line ∧ ∃ u ∈ lexed.tokens, u.isSemi = false ∧ u.line = t.line) ∨
          (t.line = c.endLine ∧ c.endLine = c.pos.line ∧ lexed.codeBelow? c = none)) := by
  have hfile : file.codeLines = SourceFile.codeLinesOf lexed.tokens ∧ file.comments = lexed.comments := by
    obtain ⟨lexed', package, constructs, htokens', -, rfl⟩ := SourceFile.read_eq_ok_iff.mp hread
    obtain rfl := Except.ok.inj (htokens'.symm.trans htokens)
    exact ⟨rfl, rfl⟩
  have hline : Suppression.lineOf (file.codeLines.mergeSort (· ≤ ·)) c = lexed.lineBelow c := by
    rw [Suppression.lineOf, htrailing, hfile.1, Suppression.targetLine_eq htokens]
    rfl
  have hcomment : c ∈ lexed.comments := hfile.2 ▸ hc
  refine ⟨?_, fun hnone => ?_, fun t ht => Lexed.lineBelow_eq_iff htokens hcomment ht⟩
  · rw [← hline]
    exact filter_suppressions l hread hc hd hkind
  · exact Lexed.lineBelow_of_firstBehind?_eq_none htokens hcomment hnone

/-- A block comment, a blank line and a comment in front of code. -/
theorem suppressions_standalone_blankLine :
    let l : Linter := ⟨.empty, Style.registry⟩
    let source := "package p\n\n/* gostyle:ignore global-mutable-state:\n tuned */\n\n// text\nvar a = 1\n"
    let c : Comment := ⟨"/* gostyle:ignore global-mutable-state:\n tuned */", ⟨3, 1⟩, 4, false⟩
    let d : Directive := ⟨.line, ["global-mutable-state"], "tuned"⟩
    ∃ file lexed t, SourceFile.read source "p.go" = .ok file ∧ tokenize source = .ok lexed ∧
    c ∈ file.comments ∧
      Directive.ofComment? c = some d ∧ d.kind = .line ∧ c.trailing = false ∧
      lexed.firstBehind? c = some t ∧
      t.line = 7 ∧ (l.suppressions file).suppressions.filter (Suppression.isOf c) =
        [d.suppression "p.go" c 7 7] := by
  intro l source c d
  let var : Token := ⟨.keyword, "var", ⟨7, 1⟩⟩
  let lexed : Lexed :=
    ⟨[⟨.keyword, "package", ⟨1, 1⟩⟩, ⟨.ident, "p", ⟨1, 9⟩⟩, ⟨.semi, "\n", ⟨1, 10⟩⟩, var,
    ⟨.ident, "a", ⟨7, 5⟩⟩, ⟨.op, "=", ⟨7, 7⟩⟩, ⟨.number, "1", ⟨7, 9⟩⟩,
    ⟨.semi, "\n", ⟨7, 10⟩⟩], [c, ⟨"// text", ⟨6, 1⟩, 6, false⟩]⟩
  have htokens : tokenize source = .ok lexed := by decide +kernel
  have hreads : (SourceFile.readTokens "p.go" lexed.tokens).toOption.isSome = true := by decide +kernel
  obtain ⟨⟨package, constructs⟩, hreads⟩ := Except.isSome_toOption_iff.mp hreads
  have hread := SourceFile.read_eq_ok_iff.mpr ⟨lexed, package, constructs, htokens, hreads, rfl⟩
  have hd : Directive.ofComment? c = some d := by decide +kernel
  obtain ⟨hfound, -, hfirst⟩ := suppressions_standalone l hread htokens List.mem_cons_self hd rfl rfl
  have hline : lexed.lineBelow c = var.line :=
    (hfirst var (by decide)).mpr (.inl ⟨by decide, var, by decide, rfl, rfl⟩)
  rw [hline] at hfound
  exact ⟨_, lexed, var, hread, htokens, List.mem_cons_self, hd, rfl, rfl, by decide, rfl, hfound⟩

/-- A comment in front of code on one line: the next line with code is exempted instead. -/
theorem suppressions_standalone_inFront :
    let l : Linter := ⟨.empty, Style.registry⟩
    let source := "package p\n\n/* gostyle:ignore global-mutable-state: tuned */ var a = 1\n\nvar b = 2\n"
    let c : Comment := ⟨"/* gostyle:ignore global-mutable-state: tuned */", ⟨3, 1⟩, 3, false⟩
    let d : Directive := ⟨.line, ["global-mutable-state"], "tuned"⟩
    ∃ file lexed t, SourceFile.read source "p.go" = .ok file ∧ tokenize source = .ok lexed ∧
    c ∈ file.comments ∧
      Directive.ofComment? c = some d ∧ c.trailing = false ∧ lexed.firstBehind? c = some t ∧ t.line = 3 ∧
      (l.suppressions file).suppressions.filter (Suppression.isOf c) = [d.suppression "p.go" c 5 5] ∧
      (l.suppressions file).suppressions.filter
        (Suppression.isOf c) ≠ [d.suppression "p.go" c t.line t.line] := by
  intro l source c d
  let tokens : List Token :=
    [⟨.keyword, "package", ⟨1, 1⟩⟩, ⟨.ident, "p", ⟨1, 9⟩⟩, ⟨.semi, "\n", ⟨1, 10⟩⟩,
    ⟨.keyword, "var", ⟨3, 50⟩⟩, ⟨.ident, "a", ⟨3, 54⟩⟩, ⟨.op, "=", ⟨3, 56⟩⟩,
    ⟨.number, "1", ⟨3, 58⟩⟩, ⟨.semi, "\n", ⟨3, 59⟩⟩, ⟨.keyword, "var", ⟨5, 1⟩⟩,
    ⟨.ident, "b", ⟨5, 5⟩⟩, ⟨.op, "=", ⟨5, 7⟩⟩, ⟨.number, "2", ⟨5, 9⟩⟩,
    ⟨.semi, "\n", ⟨5, 10⟩⟩]
  have htokens : tokenize source = .ok ⟨tokens, [c]⟩ := by decide +kernel
  have hreads : (SourceFile.readTokens "p.go" tokens).toOption.isSome = true := by decide +kernel
  obtain ⟨⟨package, constructs⟩, hreads⟩ := Except.isSome_toOption_iff.mp hreads
  have hread := SourceFile.read_eq_ok_iff.mpr ⟨⟨tokens, [c]⟩, package, constructs, htokens, hreads, rfl⟩
  have hd : Directive.ofComment? c = some d := by decide +kernel
  have hbelow : Lexed.lineBelow ⟨tokens, [c]⟩ c = 5 := by decide
  have hfound := filter_suppressions l hread List.mem_cons_self hd rfl
  have hline : Suppression.lineOf ((SourceFile.codeLinesOf tokens).mergeSort (· ≤ ·)) c = 5 := by
    rw [Suppression.lineOf, Suppression.targetLine_eq htokens, hbelow]
    rfl
  change _ = [d.suppression "p.go" c (Suppression.lineOf ((SourceFile.codeLinesOf tokens).mergeSort (· ≤ ·)) c)
    (Suppression.lineOf ((SourceFile.codeLinesOf tokens).mergeSort (· ≤ ·)) c)] at hfound
  rw [hline] at hfound
  refine ⟨_, _, ⟨.keyword, "var", ⟨3, 50⟩⟩, hread, htokens, List.mem_cons_self, hd, rfl, by decide, rfl,
    hfound, ?_⟩
  rw [hfound]
  decide

end Linter

end GoIdiom
