import GoIdiom.Statement
import GoIdiom.Statement.Block

/-!
# Statements from tokens

A well bracketed token list is read as a statement list. Every recursive call is on a shorter list,
so reading always ends; it fails where a compound statement lacks its block, where `else` is followed
by neither `if` nor a block, and where a clause lacks its colon.

A reading function gets, besides its tokens, the token that follows them in the source: a fault at
the end of the tokens is placed there.
-/

namespace GoIdiom.Statement

/-- The statements up to the end of a statement that begins with `t`, which is no semicolon, and the
rest from its semicolon on. -/
def takeRun (t : Token) (rest : List Token) : List Token × List Token :=
  let piece := Token.takePiece t rest
  let more := Token.spanTop (·.isSemi) piece.2
  (piece.1 ++ more.1, more.2)

/-- A run and what follows it are the tokens. -/
theorem takeRun_append (t : Token) (rest : List Token) :
    (takeRun t rest).1 ++ (takeRun t rest).2 = t :: rest := by
  simp only [takeRun, List.append_assoc, Token.spanTop_append, Token.takePiece_append]

/-- What follows a run is shorter than the tokens. -/
theorem takeRun_length (t : Token) (rest : List Token) : (takeRun t rest).2.length ≤ rest.length :=
  Nat.le_trans (Token.spanTop_length _ _) (Token.takePiece_length t rest)

/-- A run is no longer than the tokens. -/
theorem takeRun_run_length (t : Token) (rest : List Token) :
    (takeRun t rest).1.length ≤ rest.length + 1 := by
  have h := congrArg List.length (takeRun_append t rest)
  simp only [List.length_append, List.length_cons] at h
  omega

/-- The kind of a plain statement by its first token. -/
def plainKind (t : Token) : PlainKind :=
  if t.kind != .keyword then .simple
  else
    match t.text with
    | "go" => .go
    | "defer" => .defer
    | "return" => .return
    | "break" => .break
    | "continue" => .continue
    | "goto" => .goto
    | "fallthrough" => .fallthrough
    | "var" | "const" | "type" => .declaration
    | _ => .simple

/-- The token that a run of tokens ends with, or the one before it. -/
def lastOr (t : Token) (run : List Token) : Token := run.getLastD t

/-- Whether a clause begins here. -/
def startsClause (t : Token) : Bool := t.isKeywordIn ["case", "default"]

/-- The body of a clause and what follows the clause are shorter than the run they were read from. -/
theorem clause_lengths {tokens rest clause after header body : List Token} {keyword colon : Token}
    (h : (Token.spanTop startsClause tokens).2 = keyword :: rest)
    (hc : Token.spanTop startsClause rest = (clause, after))
    (hb : Token.spanTop (·.isOp ":") clause = (header, colon :: body)) :
    body.length < tokens.length ∧ after.length < tokens.length := by
  have htail := Token.spanTop_length startsClause tokens
  have hrest := congrArg List.length (Token.spanTop_append startsClause rest)
  have hbody := Token.spanTop_length (·.isOp ":") clause
  rw [h, List.length_cons] at htail
  rw [hc, List.length_append] at hrest
  rw [hb, List.length_cons] at hbody
  simp only at hrest hbody
  omega

mutual

/-- Reads a statement list. `label` is a label read before it. -/
def readList (follow : Option Token) (label : Option String) (tokens : List Token) :
    Except SourceFault (List Statement) :=
  match tokens with
  | [] => .ok []
  | t :: rest =>
    if t.isSemi then readList follow label rest
    else if t.isIdent && rest.head?.any (·.isOp ":") then readList follow (some t.text) (rest.drop 1)
    else if t.isKeywordIn ["if", "for", "switch", "select"] then do
      let ⟨(s, after), h⟩ ← readCompound follow t rest
      have _hafter : after.length < rest.length := h
      let more ← readList follow none after
      pure (s.withLabel label :: more)
    else
      match _h : if t.isOp "\x7b" then Token.closeGroup rest else none with
      | some g => do
        let body ← readList (some g.closer) none g.inner
        let more ← readList follow none g.rest
        pure (.block ⟨label, t.pos, g.closer.line⟩ body :: more)
      | none => do
        let (literals, own) ← cutLiterals (takeRun t rest).1
        let more ← readList follow none (takeRun t rest).2
        let last := lastOr t (takeRun t rest).1
        pure (.plain ⟨label, t.pos, last.line⟩ (plainKind t) own literals :: more)
termination_by 2 * tokens.length + 1
decreasing_by
  all_goals simp only [List.length_cons, List.length_drop]
  all_goals try
    split at _h
    · have := Token.closeGroup_length _h; omega
    · simp at _h
  all_goals
    have := takeRun_length t rest
    have := takeRun_run_length t rest
    omega

/-- Reads the compound statement that the keyword begins, and gives what follows it. -/
def readCompound (follow : Option Token) (keyword : Token) (tokens : List Token) :
    Except SourceFault { r : Statement × List Token // r.2.length < tokens.length } :=
  match hb : Block.afterHeader? keyword tokens with
  | none => .error ⟨.missingBlock, keyword.pos⟩
  | some b => do
    have hsize : b.before.length + b.inner.length + b.rest.length + 2 = tokens.length :=
      Block.size_afterHeader? hb
    let (literals, header) ← cutLiterals b.before
    if keyword.isKeywordIn ["switch", "select"] then do
      let clauses ← readClauses b.closer b.inner
      let place : Place := ⟨none, keyword.pos, b.closer.line⟩
      let s := if keyword.isKeyword "switch" then Statement.switch place header literals clauses
        else .select place header literals clauses
      pure ⟨(s, b.rest), by simp only; omega⟩
    else do
      let body ← readList (some b.closer) none b.inner
      if keyword.isKeyword "for" then
        pure ⟨(.loop ⟨none, keyword.pos, b.closer.line⟩ header literals body, b.rest), by simp only; omega⟩
      else
        match hrest : b.rest with
        | [] => pure ⟨(.branch ⟨none, keyword.pos, b.closer.line⟩ header literals body none, []), by
            simp only [List.length_nil]; omega⟩
        | e :: afterElse =>
          if e.isKeyword "else" then
            match helse : afterElse with
            | [] => .error ⟨.missingElseBlock, (follow.getD e).pos⟩
            | n :: more =>
              if n.isKeyword "if" then do
                let ⟨(s, after), hs⟩ ← readCompound follow n more
                pure ⟨(.branch ⟨none, keyword.pos, s.endLine⟩ header literals body (some [s]), after), by
                  simp only [hrest, helse, List.length_cons] at hsize hs ⊢; omega⟩
              else
                match hg : if n.isOp "\x7b" then Token.closeGroup more else none with
                | some g => do
                  let otherwise ← readList (some g.closer) none g.inner
                  pure ⟨(.branch ⟨none, keyword.pos, g.closer.line⟩ header literals body (some otherwise),
                    g.rest), by
                      split at hg
                      · have := Token.closeGroup_length hg
                        simp only [hrest, helse, List.length_cons] at hsize ⊢; omega
                      · simp at hg⟩
                | none => .error ⟨.missingElseBlock, n.pos⟩
          else
            pure ⟨(.branch ⟨none, keyword.pos, b.closer.line⟩ header literals body none, e :: afterElse), by
              simp only [hrest] at hsize ⊢; omega⟩
termination_by 2 * tokens.length
decreasing_by
  all_goals try simp only [hrest, helse, List.length_cons] at hsize
  all_goals try
    split at hg
    · have := Token.closeGroup_length hg; omega
    · simp at hg
  all_goals omega

/-- Reads the clauses of a switch or select; tokens before the first clause are passed over. -/
def readClauses (follow : Token) (tokens : List Token) : Except SourceFault (List Clause) :=
  match _h : (Token.spanTop startsClause tokens).2 with
  | [] => .ok []
  | keyword :: rest =>
    match _hc : Token.spanTop startsClause rest with
    | (clause, after) =>
      match _hb : Token.spanTop (·.isOp ":") clause with
      | (_, []) => .error ⟨.missingCaseColon, keyword.pos⟩
      | (header, _ :: bodyTokens) => do
        let body ← readList (some (after.headD follow)) none bodyTokens
        let more ← readClauses follow after
        pure (.mk keyword.pos (keyword.text == "default") header body :: more)
termination_by 2 * tokens.length
decreasing_by
  all_goals have := clause_lengths _h _hc _hb
  all_goals omega

/-- Reads the function literals of a token run and leaves only the braces of their bodies in it. -/
def cutLiterals (tokens : List Token) : Except SourceFault (List FuncLiteral × List Token) :=
  match tokens with
  | [] => .ok ([], [])
  | t :: rest =>
    match _h : LiteralCut.ofKeyword? t rest with
    | some c => do
      let body ← readList (some c.body.closer) none c.body.inner
      let literal := FuncLiteral.mk t.pos c.body.closer.line (Signature.params c.params)
        (Signature.results c.body.before) body
      let (literals, own) ← cutLiterals c.body.rest
      pure (literal :: literals, c.shell ++ own)
    | none => do
      let (literals, own) ← cutLiterals rest
      pure (literals, t :: own)
termination_by 2 * tokens.length
decreasing_by
  all_goals simp only [List.length_cons]
  all_goals try
    have := LiteralCut.rest_length _h
    have := LiteralCut.inner_length _h
    omega
  all_goals omega

end

/-- The statements of a token list, which has to be well bracketed. -/
def ofTokens (tokens : List Token) : Except SourceFault (List Statement) := do
  let _ ← Token.matchBrackets tokens
  readList none none tokens

end GoIdiom.Statement
