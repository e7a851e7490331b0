import GoIdiom.Proofs.Indexed.Pairing
import GoIdiom.Statement.OfTokens

/-!
# Statements by indices

Statements are read from a range of indices. Every loop goes on with a later index, and every range that is read
inside another one is checked to be closed and, where the readers come back to themselves, smaller. So reading ends
by the checks alone, whatever the pairs of brackets are.
-/

namespace GoIdiom.Pairing

open Stop (advance)

variable (p : Pairing)

/-! ## Signatures -/

/-- Whether an entry of a parameter list that begins at an index declares a name. -/
def isNamed (index : Nat) (entry : List Token) : Except Stop Bool :=
  match entry with
  | first :: second :: _ =>
    if !first.isIdent || second.isOp "." then pure false
    else if second.isOp "[" then do
      let close ← p.closer (index + 1)
      pure (Signature.isArrayLength (p.slice (index + 2) close))
    else pure true
  | _ => pure false

/-- The entry of a parameter list in a range. -/
def entryIn (r : Range) : Except Stop ParamEntry :=
  match p.slice r.first r.stop with
  | [] => .error (.outside r.first)
  | first :: rest => do
    if ← p.isNamed r.first (first :: rest) then pure ⟨some first.text, rest, first⟩
    else pure ⟨none, first :: rest, first⟩

/-- The entries of a parameter list in ranges. -/
def entriesIn : List Range → Except Stop (List ParamEntry)
  | [] => pure []
  | r :: rest => do
    let entry ← p.entryIn r
    let more ← entriesIn rest
    pure (entry :: more)

/-- The parameters in the parentheses that open at an index. -/
def params (index : Nat) : Except Stop (List Param) := do
  let close ← p.closer index
  let parts ← p.split (·.isOp ",") (index + 1) close
  let entries ← p.entriesIn parts
  pure ((if entries.any (·.name.isSome) then (Signature.shareTypes entries).2 else entries).map Signature.paramOf)

/-- The results of a signature in a range. -/
def results (index stop : Nat) : Except Stop (List Param) :=
  if index < stop then do
    let first ← p.token index
    if first.isOp "(" then p.params index
    else pure [⟨none, Token.render (p.slice index stop), false, first.pos⟩]
  else pure []

/-! ## Statements -/

/-- The place of a statement that is read from a range: its first position and the line of its last token. -/
def placeOf (index last : Nat) : Except Stop Place := do
  let first ← p.token index
  let final ← p.token last
  pure ⟨none, first.pos, final.line⟩

mutual

/-- The statements in a range. `label` is a label that was read before it. -/
def statements (label : Option String) (index stop : Nat) : Except Stop (List Statement) :=
  if index < stop then do
    let t ← p.token index
    if t.isSemi then do
      let ⟨next, _⟩ ← advance index (index + 1)
      statements label next stop
    else if ← p.holdsTwice (·.isIdent) (·.isOp ":") index stop then do
      let ⟨next, _⟩ ← advance index (index + 2)
      statements (some t.text) next stop
    else if t.isKeywordIn ["if", "for", "switch", "select"] then do
      let ⟨_⟩ ← p.within ⟨index, stop⟩ ⟨index, stop⟩
      let (s, after) ← compound index stop
      let ⟨next, _⟩ ← advance index after
      let more ← statements none next stop
      pure (s.withLabel label :: more)
    else if t.isOp "\x7b" then do
      let close ← p.closer index
      let place ← p.placeOf index close
      let ⟨_⟩ ← p.narrow ⟨index, stop⟩ ⟨index + 1, close⟩
      let body ← statements none (index + 1) close
      let ⟨next, _⟩ ← advance index (close + 1)
      let more ← statements none next stop
      pure ((Statement.block place body).withLabel label :: more)
    else do
      let last ← p.statementEnd index stop
      let ⟨_⟩ ← p.within ⟨index, stop⟩ ⟨index, last⟩
      let s ← simple index last
      let ⟨next, _⟩ ← advance index last
      let more ← statements none next stop
      pure (s.withLabel label :: more)
  else pure []
termination_by (stop - index, 5, 0)
decreasing_by
  all_goals simp only [Prod.lex_def, true_and]
  all_goals try simp only [Range.size] at *
  all_goals omega

/-- The statement without a block of its own in a range. -/
def simple (index stop : Nat) : Except Stop Statement := do
  let first ← p.token index
  let (literals, own) ← cutLiterals index stop
  let place ← p.placeOf index (stop - 1)
  pure (.plain place (Statement.plainKind first) own literals)
termination_by (stop - index, 4, 0)

/-- The compound statement that the keyword at an index begins, and the index after it. -/
def compound (index stop : Nat) : Except Stop (Statement × Nat) := do
  let keyword ← p.token index
  let brace ← p.blockBrace index (index + 1) stop
  let close ← p.closer brace
  let ⟨_⟩ ← p.narrow ⟨index, stop⟩ ⟨index + 1, brace⟩
  let (literals, header) ← cutLiterals (index + 1) brace
  let place ← p.placeOf index close
  let ⟨_⟩ ← p.narrow ⟨index, stop⟩ ⟨brace + 1, close⟩
  if keyword.isKeywordIn ["switch", "select"] then do
    let begins ← p.starts Statement.startsClause (brace + 1) close
    let clauses ← clausesAt begins (brace + 1) close
    pure (if keyword.isKeyword "switch" then .switch place header literals clauses
      else .select place header literals clauses, close + 1)
  else do
    let body ← statements none (brace + 1) close
    if keyword.isKeyword "for" then pure (.loop place header literals body, close + 1)
    else
      let (other, after) ← otherBranch index (close + 1) stop
      let place ← p.placeOf index (after - 1)
      pure (.branch place header literals body other, after)
termination_by (stop - index, 3, 0)

/-- The other branch of the branch at an index, if there is one, and the index after it. -/
def otherBranch (index close stop : Nat) : Except Stop (Option (List Statement) × Nat) := do
  if ← p.holdsAt (·.isKeyword "else") close stop then
    if ← p.holdsAt (·.isKeyword "if") (close + 1) stop then do
      let ⟨_⟩ ← p.narrow ⟨index, stop⟩ ⟨close + 1, stop⟩
      let (s, after) ← compound (close + 1) stop
      pure (some [s], after)
    else if ← p.holdsAt (·.isOp "\x7b") (close + 1) stop then do
      let otherClose ← p.closer (close + 1)
      let ⟨_⟩ ← p.narrow ⟨index, stop⟩ ⟨close + 2, otherClose⟩
      let body ← statements none (close + 2) otherClose
      pure (some body, otherClose + 1)
    else p.faultAt .missingElseBlock (close + 1)
  else pure (none, close)
termination_by (stop - index, 2, 0)

/-- The clauses that begin at given indices of a range, each of which goes on to the next. -/
def clausesAt (begins : List Nat) (index stop : Nat) : Except Stop (List Clause) :=
  match begins with
  | [] => pure []
  | first :: rest => do
    let colon ← p.scan (·.isOp ":") (first + 1) (rest.headD stop)
    if colon < rest.headD stop then do
      let keyword ← p.token first
      let ⟨_⟩ ← p.narrow ⟨index, stop⟩ ⟨colon + 1, rest.headD stop⟩
      let body ← statements none (colon + 1) (rest.headD stop)
      let more ← clausesAt rest index stop
      pure (.mk keyword.pos (keyword.text == "default") (p.slice (first + 1) colon) body :: more)
    else p.faultAt .missingCaseColon first
termination_by (stop - index, 6, begins.length)
decreasing_by
  all_goals simp only [Prod.lex_def, List.length_cons, true_and]
  all_goals try simp only [Range.size] at *
  all_goals omega

/-- The function literals in a range, and its tokens with only the braces of their bodies. -/
def cutLiterals (index stop : Nat) : Except Stop (List FuncLiteral × List Token) :=
  if index < stop then do
    let t ← p.token index
    match ← p.literalBraces index stop with
    | some braces => do
      let literal ← literalAt index stop braces
      let closing ← p.token braces.stop
      let ⟨next, _⟩ ← advance index (braces.stop + 1)
      let (literals, own) ← cutLiterals next stop
      pure (literal :: literals, p.slice index (braces.first + 1) ++ closing :: own)
    | none => do
      let ⟨next, _⟩ ← advance index (index + 1)
      let (literals, own) ← cutLiterals next stop
      pure (literals, t :: own)
  else pure ([], [])
termination_by (stop - index, 1, 0)

/-- The function literal at an index of a range, whose body has the given braces. -/
def literalAt (index stop : Nat) (braces : Range) : Except Stop FuncLiteral := do
  let paramsClose ← p.closer (index + 1)
  let params ← p.params (index + 1)
  let results ← p.results (paramsClose + 1) braces.first
  let ⟨_⟩ ← p.narrow ⟨index, stop⟩ ⟨braces.first + 1, braces.stop⟩
  let body ← statements none (braces.first + 1) braces.stop
  let first ← p.token index
  let closing ← p.token braces.stop
  pure (.mk first.pos closing.line params results body)
termination_by (stop - index, 0, 0)

end

end GoIdiom.Pairing
