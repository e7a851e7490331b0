import GoIdiom.Proofs.Sites.Statements

/-!
# What the readers of statements accept

The statements that are read from tokens, as derivations: one rule for each way to read on, without the
faults, the labels that wait and the bounds of the readers. What holds of every statement tree that is read
is proved by induction on its derivation.
-/

namespace GoIdiom.Statement

/-- One of some keywords is a keyword that is listed. -/
theorem isKeywordIn_iff {t : Token} {texts : List String} :
    t.isKeywordIn texts = true ↔ ∃ text ∈ texts, t.isKeyword text = true := by
  constructor
  · intro h
    obtain ⟨hkind, hmem⟩ := Bool.and_eq_true_iff.mp h
    exact ⟨t.text, List.contains_iff_mem.mp hmem, Bool.and_eq_true_iff.mpr ⟨hkind, beq_self_eq_true _⟩⟩
  · rintro ⟨text, hmem, h⟩
    obtain ⟨hkind, hsame⟩ := Bool.and_eq_true_iff.mp h
    rw [← beq_iff_eq.mp hsame] at hmem
    exact Bool.and_eq_true_iff.mpr ⟨hkind, List.contains_iff_mem.mpr hmem⟩

mutual

/-- The tokens are those of the statements. -/
inductive DerivesList : List Token → List Statement → Prop
  | nil : DerivesList [] []
  | semi {t : Token} {rest : List Token} {ss : List Statement} (hsemi : t.isSemi = true)
      (hrest : DerivesList rest ss) : DerivesList (t :: rest) ss
  | label {name colon : Token} {rest : List Token} {ss : List Statement} (hname : name.isIdent = true)
      (hcolon : colon.isOp ":" = true) (hrest : DerivesList rest ss) : DerivesList (name :: colon :: rest) ss
  | compound {keyword : Token} {ts rest : List Token} {s : Statement} {ss : List Statement}
      (label : Option String) (hkeyword : keyword.isKeywordIn ["if", "for", "switch", "select"] = true)
      (hs : DerivesCompound keyword ts s rest) (hrest : DerivesList rest ss) :
      DerivesList (keyword :: ts) (s.withLabel label :: ss)
  | block {brace : Token} {ts : List Token} {g : Token.Group} {body ss : List Statement} (label : Option String)
      (hbrace : brace.isOp "\x7b" = true) (hg : Token.closeGroup ts = some g) (hbody : DerivesList g.inner body)
      (hrest : DerivesList g.rest ss) :
      DerivesList (brace :: ts) (.block ⟨label, brace.pos, g.closer.line⟩ body :: ss)
  | plain {t : Token} {ts own : List Token} {literals : List FuncLiteral} {ss : List Statement}
      (label : Option String) (hsemi : t.isSemi = false) (hcut : DerivesCut (takeRun t ts).1 literals own)
      (hrest : DerivesList (takeRun t ts).2 ss) :
      DerivesList (t :: ts)
        (.plain ⟨label, t.pos, (lastOr t (takeRun t ts).1).line⟩ (plainKind t) own literals :: ss)

/-- The keyword and the tokens after it begin with those of the compound statement. -/
inductive DerivesCompound : Token → List Token → Statement → List Token → Prop
  | loop {keyword : Token} {ts : List Token} {b : Block} {literals : List FuncLiteral} {header : List Token}
      {body : List Statement} (hkeyword : keyword.isKeyword "for" = true)
      (hb : Block.afterHeader? keyword ts = some b) (hcut : DerivesCut b.before literals header)
      (hbody : DerivesList b.inner body) :
      DerivesCompound keyword ts (.loop ⟨none, keyword.pos, b.closer.line⟩ header literals body) b.rest
  | switch {keyword : Token} {ts : List Token} {b : Block} {literals : List FuncLiteral} {header : List Token}
      {clauses : List Clause} (hkeyword : keyword.isKeyword "switch" = true)
      (hb : Block.afterHeader? keyword ts = some b) (hcut : DerivesCut b.before literals header)
      (hclauses : DerivesClauses b.inner clauses) :
      DerivesCompound keyword ts (.switch ⟨none, keyword.pos, b.closer.line⟩ header literals clauses) b.rest
  | select {keyword : Token} {ts : List Token} {b : Block} {literals : List FuncLiteral} {header : List Token}
      {clauses : List Clause} (hkeyword : keyword.isKeyword "select" = true)
      (hb : Block.afterHeader? keyword ts = some b) (hcut : DerivesCut b.before literals header)
      (hclauses : DerivesClauses b.inner clauses) :
      DerivesCompound keyword ts (.select ⟨none, keyword.pos, b.closer.line⟩ header literals clauses) b.rest
  | branch {keyword : Token} {ts rest : List Token} {b : Block} {literals : List FuncLiteral} {header : List Token}
      {body : List Statement} {other : Option (List Statement)} {endLine : Nat}
      (hkeyword : keyword.isKeyword "if" = true)
      (hb : Block.afterHeader? keyword ts = some b) (hcut : DerivesCut b.before literals header)
      (hbody : DerivesList b.inner body) (hother : DerivesOther b.closer.line b.rest other endLine rest) :
      DerivesCompound keyword ts (.branch ⟨none, keyword.pos, endLine⟩ header literals body other) rest

/-- The tokens begin with those of the other branch of a branch whose first block ends in the line. The branch
ends in the second line. -/
inductive DerivesOther : Nat → List Token → Option (List Statement) → Nat → List Token → Prop
  | none {line : Nat} {ts : List Token} : DerivesOther line ts none line ts
  | block {line : Nat} {word brace : Token} {ts : List Token} {g : Token.Group} {body : List Statement}
      (hword : word.isKeyword "else" = true) (hbrace : brace.isOp "\x7b" = true)
      (hg : Token.closeGroup ts = some g) (hbody : DerivesList g.inner body) :
      DerivesOther line (word :: brace :: ts) (some body) g.closer.line g.rest
  | branch {line : Nat} {word keyword : Token} {ts rest : List Token} {s : Statement}
      (hword : word.isKeyword "else" = true) (hkeyword : keyword.isKeyword "if" = true)
      (hs : DerivesCompound keyword ts s rest) :
      DerivesOther line (word :: keyword :: ts) (some [s]) s.endLine rest

/-- The tokens hold the clauses, behind others that are passed over. -/
inductive DerivesClauses : List Token → List Clause → Prop
  | nil {ts : List Token} (h : (Token.spanTop startsClause ts).2 = []) : DerivesClauses ts []
  | cons {ts rest header bodyTokens : List Token} {keyword colon : Token} {body : List Statement}
      {more : List Clause} (hkeyword : (Token.spanTop startsClause ts).2 = keyword :: rest)
      (hheader : Token.spanTop (·.isOp ":") (Token.spanTop startsClause rest).1 = (header, colon :: bodyTokens))
      (hbody : DerivesList bodyTokens body) (hmore : DerivesClauses (Token.spanTop startsClause rest).2 more) :
      DerivesClauses ts (.mk keyword.pos (keyword.text == "default") header body :: more)

/-- The function literals are those of the tokens, and the others are what is left when their bodies are cut
out. -/
inductive DerivesCut : List Token → List FuncLiteral → List Token → Prop
  | nil : DerivesCut [] [] []
  | keep {t : Token} {ts own : List Token} {literals : List FuncLiteral} (h : LiteralCut.ofKeyword? t ts = none)
      (hrest : DerivesCut ts literals own) : DerivesCut (t :: ts) literals (t :: own)
  | literal {t : Token} {ts own : List Token} {c : LiteralCut} {body : List Statement} {literals : List FuncLiteral}
      (hc : LiteralCut.ofKeyword? t ts = some c) (hbody : DerivesList c.body.inner body)
      (hrest : DerivesCut c.body.rest literals own) :
      DerivesCut (t :: ts)
        (.mk t.pos c.body.closer.line (Signature.params c.params) (Signature.results c.body.before) body ::
          literals)
        (c.shell ++ own)

end

mutual

/-- What is read as a statement list is derived so. -/
theorem derives_readList (follow : Option Token) (label : Option String) (ts : List Token) :
    Reads (DerivesList ts) (readList follow label ts) := by
  match ts with
  | [] =>
    rw [readList]
    exact .ok .nil
  | t :: rest =>
    rw [readList_cons]
    split
    · next hsemi => exact (derives_readList follow label rest).mono fun ss hss => .semi hsemi hss
    · next hsemi =>
      split
      · next hlabel =>
        obtain ⟨hname, hcolon⟩ := Bool.and_eq_true_iff.mp hlabel
        match rest with
        | [] => cases hcolon
        | colon :: after =>
          exact (derives_readList follow (some t.text) after).mono fun ss hss => .label hname hcolon hss
      · split
        · next hkeyword =>
          have hcompound := derives_compound follow t hkeyword rest
          cases hr : compound follow t rest with
          | error f => exact .error trivial
          | ok r =>
            have hlength := length_of_compound hr
            refine (derives_readList follow none r.2).bind fun more hmore => .ok ?_
            exact .compound label hkeyword (hr ▸ hcompound).of_ok hmore
        · cases hopened : if t.isOp "\x7b" = true then Token.closeGroup rest else none with
          | some g =>
            obtain ⟨hbrace, hg⟩ := Option.ite_none_right_eq_some.mp hopened
            refine (derives_readList (some g.closer) none g.inner).bind fun body hbody => ?_
            refine (derives_readList follow none g.rest).bind fun more hmore => .ok ?_
            exact .block label hbrace hg hbody hmore
          | none =>
            refine (derives_cutLiterals (takeRun t rest).1).bind fun cut hcut => ?_
            refine (derives_readList follow none (takeRun t rest).2).bind fun more hmore => .ok ?_
            exact .plain label (Bool.eq_false_iff.mpr hsemi) hcut hmore
termination_by (ts.length, 1)
decreasing_by
  all_goals simp only [Prod.lex_def, List.length_cons]
  all_goals try
    have := Token.closeGroup_length hg
    omega
  all_goals
    have := takeRun_length t rest
    have := takeRun_run_length t rest
    omega

/-- What is read as a compound statement is derived so. -/
theorem derives_compound (follow : Option Token) (keyword : Token)
    (hkeyword : keyword.isKeywordIn ["if", "for", "switch", "select"] = true) (ts : List Token) :
    Reads (fun r => DerivesCompound keyword ts r.1 r.2) (compound follow keyword ts) := by
  rw [compound_eq]
  cases hb : Block.afterHeader? keyword ts with
  | none => exact .error trivial
  | some b =>
    have hsize : b.before.length + b.inner.length + b.rest.length + 2 = ts.length := Block.size_afterHeader? hb
    dsimp only
    refine (derives_cutLiterals b.before).bind fun cut hcut => ?_
    split
    · next hclauses =>
      refine (derives_readClauses b.closer b.inner).bind fun clauses hderives => .ok ?_
      split
      · next hswitch => exact .switch hswitch hb hcut hderives
      · next hswitch =>
        have hselect : keyword.isKeyword "select" = true := by
          obtain ⟨text, hmem, htext⟩ := isKeywordIn_iff.mp hclauses
          simp only [List.mem_cons, List.not_mem_nil, or_false] at hmem
          rcases hmem with rfl | rfl
          · exact absurd htext hswitch
          · exact htext
        exact .select hselect hb hcut hderives
    · next hclauses =>
      refine (derives_readList (some b.closer) none b.inner).bind fun body hbody => ?_
      split
      · next hfor => exact .ok (.loop hfor hb hcut hbody)
      · next hfor =>
        have hif : keyword.isKeyword "if" = true := by
          obtain ⟨text, hmem, htext⟩ := isKeywordIn_iff.mp hkeyword
          have hother : text ∉ ["switch", "select"] :=
            fun h => hclauses (isKeywordIn_iff.mpr ⟨text, h, htext⟩)
          simp only [List.mem_cons, List.not_mem_nil, or_false, not_or] at hmem hother
          rcases hmem with rfl | rfl | rfl | rfl
          · exact htext
          · exact absurd htext hfor
          · exact absurd rfl hother.1
          · exact absurd rfl hother.2
        exact (derives_afterBranch follow keyword.pos b.closer.line cut.2 cut.1 body b.rest).mono
          fun r ⟨other, endLine, hr, hother⟩ => hr ▸ .branch hif hb hcut hbody hother
termination_by (ts.length, 0)
decreasing_by
  all_goals simp only [Prod.lex_def]
  all_goals omega

/-- What is read as the other branch of a branch is derived so. -/
theorem derives_afterBranch (follow : Option Token) (pos : Position) (line : Nat) (header : List Token)
    (literals : List FuncLiteral) (body : List Statement) (ts : List Token) :
    Reads (fun r => ∃ other endLine, r.1 = .branch ⟨none, pos, endLine⟩ header literals body other ∧
        DerivesOther line ts other endLine r.2)
      (afterBranch follow pos line header literals body ts) := by
  rw [afterBranch.eq_def]
  match ts with
  | [] => exact .ok ⟨none, line, rfl, .none⟩
  | [e] =>
    dsimp only
    split
    · exact .error trivial
    · exact .ok ⟨none, line, rfl, .none⟩
  | e :: n :: more =>
    dsimp only
    split
    · next helse =>
      split
      · next hif =>
        have hlisted : n.isKeywordIn ["if", "for", "switch", "select"] = true :=
          isKeywordIn_iff.mpr ⟨"if", by decide, hif⟩
        refine (derives_compound follow n hlisted more).bind fun r hr => .ok ?_
        exact ⟨some [r.1], r.1.endLine, rfl, .branch helse hif hr⟩
      · cases hopened : if n.isOp "\x7b" = true then Token.closeGroup more else none with
        | none => exact .error trivial
        | some g =>
          obtain ⟨hbrace, hg⟩ := Option.ite_none_right_eq_some.mp hopened
          refine (derives_readList (some g.closer) none g.inner).bind fun other hother => .ok ?_
          exact ⟨some other, g.closer.line, rfl, .block helse hbrace hg hother⟩
    · exact .ok ⟨none, line, rfl, .none⟩
termination_by (ts.length, 0)
decreasing_by
  all_goals simp only [Prod.lex_def, List.length_cons]
  all_goals try have := Token.closeGroup_length hg
  all_goals omega

/-- What is read as clauses is derived so. -/
theorem derives_readClauses (follow : Token) (ts : List Token) :
    Reads (DerivesClauses ts) (readClauses follow ts) := by
  rw [readClauses_eq]
  cases hclause : (Token.spanTop startsClause ts).2 with
  | nil => exact .ok (.nil hclause)
  | cons keyword rest =>
    dsimp only
    match hbody : Token.spanTop (·.isOp ":") (Token.spanTop startsClause rest).1 with
    | (header, []) => exact .error trivial
    | (header, colon :: bodyTokens) =>
      dsimp only
      refine (derives_readList (some ((Token.spanTop startsClause rest).2.headD follow)) none bodyTokens).bind
        fun body hread => ?_
      refine (derives_readClauses follow (Token.spanTop startsClause rest).2).bind fun more hmore => .ok ?_
      exact .cons hclause hbody hread hmore
termination_by (ts.length, 0)
decreasing_by
  all_goals have := clause_lengths hclause rfl hbody
  all_goals simp only [Prod.lex_def]
  all_goals omega

/-- What is cut out of tokens, and what is left of them, is derived so. -/
theorem derives_cutLiterals (ts : List Token) : Reads (fun cut => DerivesCut ts cut.1 cut.2) (cutLiterals ts) := by
  match ts with
  | [] =>
    rw [cutLiterals]
    exact .ok .nil
  | t :: rest =>
    rw [cutLiterals_cons]
    cases hc : LiteralCut.ofKeyword? t rest with
    | none => exact (derives_cutLiterals rest).bind fun cut hcut => .ok (.keep hc hcut)
    | some c =>
      dsimp only
      refine (derives_readList (some c.body.closer) none c.body.inner).bind fun body hbody => ?_
      exact (derives_cutLiterals c.body.rest).bind fun cut hcut => .ok (.literal hc hbody hcut)
termination_by (ts.length, 0)
decreasing_by
  all_goals simp only [Prod.lex_def, List.length_cons]
  all_goals try
    have := LiteralCut.rest_length hc
    have := LiteralCut.inner_length hc
    omega
  all_goals omega

end

/-- The statements of a token list are derived from it. -/
theorem derives_of_ofTokens {ts : List Token} {ss : List Statement} (h : ofTokens ts = .ok ss) :
    DerivesList ts ss := by
  obtain ⟨-, -, hread⟩ := Except.bind_eq_ok.mp h
  exact (hread ▸ derives_readList none none ts).of_ok

end GoIdiom.Statement
