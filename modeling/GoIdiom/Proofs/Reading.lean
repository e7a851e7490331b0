import GoIdiom.Proofs.Blocks
import GoIdiom.Statement.OfTokens

/-!
# The readers of statements by their cases

The readers carry bounds on what they leave, for their own termination. Here are their equations
without those bounds, and what the bounds say.
-/

namespace GoIdiom.Statement

/-- The compound statement that the keyword begins, and what follows it. -/
def compound (follow : Option Token) (keyword : Token) (tokens : List Token) :
    Except SourceFault (Statement × List Token) := (readCompound follow keyword tokens).map (·.1)

/-- The other branch of a branch that begins and ends at the given places, and what follows it. -/
def afterBranch (follow : Option Token) (pos : Position) (line : Nat) (header : List Token)
    (literals : List FuncLiteral) (body : List Statement) (tokens : List Token) :
    Except SourceFault (Statement × List Token) :=
  match tokens with
  | [] => .ok (.branch ⟨none, pos, line⟩ header literals body none, [])
  | e :: afterElse =>
    if e.isKeyword "else" then
      match afterElse with
      | [] => .error ⟨.missingElseBlock, (follow.getD e).pos⟩
      | n :: more =>
        if n.isKeyword "if" then do
          let (s, after) ← compound follow n more
          pure (.branch ⟨none, pos, s.endLine⟩ header literals body (some [s]), after)
        else
          match if n.isOp "\x7b" then Token.closeGroup more else none with
          | some g => do
            let otherwise ← readList (some g.closer) none g.inner
            pure (.branch ⟨none, pos, g.closer.line⟩ header literals body (some otherwise), g.rest)
          | none => .error ⟨.missingElseBlock, n.pos⟩
    else .ok (.branch ⟨none, pos, line⟩ header literals body none, e :: afterElse)

/-- The statements of a list by its first token. -/
theorem readList_cons (follow : Option Token) (label : Option String) (t : Token) (rest : List Token) :
    readList follow label (t :: rest) =
      (if t.isSemi then readList follow label rest
      else if t.isIdent && rest.head?.any (·.isOp ":") then readList follow (some t.text) (rest.drop 1)
      else if t.isKeywordIn ["if", "for", "switch", "select"] then do
        let (s, after) ← compound follow t rest
        let more ← readList follow none after
        pure (s.withLabel label :: more)
      else
        match if t.isOp "\x7b" then Token.closeGroup rest else none with
        | some g => do
          let body ← readList (some g.closer) none g.inner
          let more ← readList follow none g.rest
          pure (.block ⟨label, t.pos, g.closer.line⟩ body :: more)
        | none => do
          let (literals, own) ← cutLiterals (takeRun t rest).1
          let more ← readList follow none (takeRun t rest).2
          pure (.plain ⟨label, t.pos, (lastOr t (takeRun t rest).1).line⟩ (plainKind t) own literals ::
            more)) := by
  rw [readList]
  congr 3
  · rw [compound]
    cases readCompound follow t rest <;> rfl
  · split
    · next h => rw [h]
    · next h => rw [h]

/-- A compound statement is read from its block, its header and its clauses or branches. -/
theorem compound_eq (follow : Option Token) (keyword : Token) (tokens : List Token) :
    compound follow keyword tokens =
      (match Block.afterHeader? keyword tokens with
      | none => .error ⟨.missingBlock, keyword.pos⟩
      | some b => do
        let (literals, header) ← cutLiterals b.before
        if keyword.isKeywordIn ["switch", "select"] then do
          let clauses ← readClauses b.closer b.inner
          let place : Place := ⟨none, keyword.pos, b.closer.line⟩
          pure (if keyword.isKeyword "switch" then .switch place header literals clauses
            else .select place header literals clauses, b.rest)
        else do
          let body ← readList (some b.closer) none b.inner
          if keyword.isKeyword "for" then
            pure (.loop ⟨none, keyword.pos, b.closer.line⟩ header literals body, b.rest)
          else afterBranch follow keyword.pos b.closer.line header literals body b.rest) := by
  rw [compound, readCompound]
  split
  · next h =>
    conv => rhs; rw [h]
    rfl
  · next b h =>
    conv => rhs; rw [h]
    dsimp only
    cases cutLiterals b.before with
    | error e => rfl
    | ok cut =>
      obtain ⟨literals, header⟩ := cut
      dsimp only [bind, Except.bind]
      split
      · cases readClauses b.closer b.inner <;> rfl
      · cases readList (some b.closer) none b.inner with
        | error e => rfl
        | ok body =>
          simp only
          split
          · rfl
          · split
            · next hrest =>
              conv => rhs; rw [hrest]
              rfl
            · next e afterElse hrest =>
              conv => rhs; rw [hrest, afterBranch.eq_def]
              dsimp only
              by_cases helse : e.isKeyword "else" = true
              · rw [if_pos helse, if_pos helse]
                cases afterElse with
                | nil => rfl
                | cons n more =>
                  dsimp only
                  by_cases hif : n.isKeyword "if" = true
                  · rw [if_pos hif, if_pos hif, compound]
                    cases readCompound follow n more <;> rfl
                  · rw [if_neg hif, if_neg hif]
                    split
                    · next g hg =>
                      conv => rhs; rw [hg]
                      dsimp only
                      cases readList (some g.closer) none g.inner <;> rfl
                    · next hg =>
                      conv => rhs; rw [hg]
                      rfl
              · rw [if_neg helse, if_neg helse]
                rfl

/-- Clauses are read one by one, each up to the next keyword that starts one. -/
theorem readClauses_eq (follow : Token) (tokens : List Token) :
    readClauses follow tokens =
      (match (Token.spanTop startsClause tokens).2 with
      | [] => .ok []
      | keyword :: rest =>
        match Token.spanTop (·.isOp ":") (Token.spanTop startsClause rest).1 with
        | (_, []) => .error ⟨.missingCaseColon, keyword.pos⟩
        | (header, _ :: bodyTokens) => do
          let body ← readList (some ((Token.spanTop startsClause rest).2.headD follow)) none bodyTokens
          let more ← readClauses follow (Token.spanTop startsClause rest).2
          pure (.mk keyword.pos (keyword.text == "default") header body :: more)) := by
  rw [readClauses]
  split
  · next h => rw [h]
  · next keyword rest h =>
    rw [h]
    split
    next hc =>
    simp only [hc]
    split
    · next hb => rw [hb]
    · next hb => rw [hb]

/-- Literals are cut out of a run from its first token on. -/
theorem cutLiterals_cons (t : Token) (rest : List Token) :
    cutLiterals (t :: rest) =
      (match LiteralCut.ofKeyword? t rest with
      | some c => do
        let body ← readList (some c.body.closer) none c.body.inner
        let (literals, own) ← cutLiterals c.body.rest
        pure (.mk t.pos c.body.closer.line (Signature.params c.params) (Signature.results c.body.before) body ::
          literals, c.shell ++ own)
      | none => do
        let (literals, own) ← cutLiterals rest
        pure (literals, t :: own)) := by
  rw [cutLiterals]
  split
  · next h => rw [h]
  · next h => rw [h]

/-- Tokens without the keyword of function literals stay as they are. -/
theorem cutLiterals_eq_self {ts : List Token} (h : ∀ t ∈ ts, t.isKeyword "func" = false) :
    cutLiterals ts = .ok ([], ts) := by
  induction ts with
  | nil => rw [cutLiterals]
  | cons t rest ih =>
    obtain ⟨ht, hrest⟩ := List.forall_mem_cons.mp h
    rw [cutLiterals_cons, LiteralCut.ofKeyword?_eq_none ht, ih hrest]
    rfl

end GoIdiom.Statement
