import GoIdiom.Cancellation
import GoIdiom.Construct.Expression

/-!
# Constructs in function bodies

A walk goes through the statements in source order. A statement's own constructs come first, then the
expressions in its own tokens, then the function literals there, then the statements inside it.
-/

namespace GoIdiom.Body

/-- Calls by which a test fails at once, up to their parenthesis. -/
def failingCalls : List String := [".Fatal(", ".Fatalf(", ".FailNow("]

/-- Whether a run begins with a call by which a test fails at once. -/
def failsTest (tokens : List Token) : Bool :=
  let cs := (Token.render tokens).toList
  cs.head?.any Text.isWord &&
    Text.startsWithAny (String.ofList (cs.dropWhile Text.isWord)) failingCalls

/-- The names that a loop header declares. -/
def declaredNames (header : List Token) : List String :=
  match Token.cutAssignment header with
  | none => []
  | some a =>
    if a.op.isOp ":=" then
      (Token.splitCommas a.left).filterMap fun group =>
        match group with
        | [t] => if t.isIdent && t.text != "_" then some t.text else none
        | _ => none
    else []

/-- Whether a call of a goroutine is handed a context or a signal. -/
def isContextArgument (argument : List Token) : Bool :=
  let text := Text.fold (Token.render argument)
  Text.endsWith text "ctx" || Text.startsWith text "context." || Text.endsWith text ".done()" ||
    Cancellation.isSignal argument

/-- The function literal that a go statement runs. -/
def launched (tokens : List Token) (literals : List FuncLiteral) : Option FuncLiteral :=
  if (tokens.drop 1).head?.any (·.isKeyword "func") then literals.head? else none

/-- The construct that a go statement is. -/
def goInfo (ctx : Context) (tokens : List Token) (literals : List FuncLiteral) : GoInfo :=
  let literal := launched tokens literals
  let call := Call.whole? (tokens.drop 1)
  let arguments := (call.map fun (_, inner) => Token.commaItems inner).getD []
  let callee := if literal.isSome then none else call.map fun (callee, _) => Token.render callee
  let calleeType := do
    let (base, method) ← Text.cutFirst (← callee) '.'
    let receiver ← ctx.scope.receiver
    if !Text.contains method "." && some base == receiver.name then some receiver.typeName else none
  { isLiteral := literal.isSome
    callee := callee
    calleeType := calleeType
    arguments := arguments.map Token.render
    passesContext := arguments.any isContextArgument
    cancellationSafe := literal.map fun l => Cancellation.waitsForCancellation l.body
    capturedLoopVars := (literal.map fun l =>
      (Cancellation.references l.body ctx.loopVars).filter fun name =>
        !l.params.any (·.name == some name)).getD []
    params := (literal.map (·.params)).getD []
    inLoop := ctx.inLoop
    function := ctx.function }

/-- The construct that a defer statement is. -/
def deferInfo (ctx : Context) (tokens : List Token) : DeferInfo :=
  let call := tokens.drop 1
  let isLiteral := call.head?.any (·.isKeyword "func")
  { callee := if isLiteral then none else (Call.whole? call).map fun (callee, _) => Token.render callee
    isLiteral := isLiteral
    loopDepth := ctx.loopDepth
    function := ctx.function }

/-- The construct that a return of values is, at the first token of the value in the error position. -/
def errorReturn? (file : FileInfo) (ctx : Context) (pos : Position) (values : List (List Token)) :
    Option Construct := do
  let index ← ctx.scope.errorIndex
  let (value, handling) ←
    if values.length = ctx.scope.results.length then
      (values[index]?).map fun v => (v, Handling.ofExpression ctx.scope.knows v)
    else
      match values with
      | [v] => some (v, if (Call.whole? v).isSome then .delegated else .other)
      | _ => none
  let first ← value.head?
  let errorName := if value.length = 1 && first.isIdent then some first.text else none
  let origin := if handling == .bare then errorName.map fun name => ctx.scope.origin name pos else none
  pure ⟨file.path, first.pos, first.line, .errorReturn
    { handling := handling
      errorName := errorName
      origin := origin
      guard := ctx.guard
      expression := Token.render value
      function := ctx.function }⟩

/-- What a return statement adds. -/
def returnTrace (file : FileInfo) (ctx : Context) (pos : Position) (tokens : List Token) : Trace :=
  let values := Token.commaItems (tokens.drop 1)
  if values.isEmpty then
    { Trace.empty with nakedReturns := if ctx.scope.hasNamedResults then [pos] else [] }
  else .ofConstructs (errorReturn? file ctx pos values).toList

/-- Whether a group is the blank name. -/
def isBlankName : List Token → Bool
  | [t] => t.text == "_"
  | _ => false

/-- The construct that a simple statement is when it drops the last result of a call. -/
def ignored? (file : FileInfo) (tokens : List Token) : Option Construct := do
  let a ← Token.cutAssignment tokens
  let targets := Token.splitCommas a.left
  let value ← match Token.commaItems a.right with
    | [value] => some value
    | _ => none
  let last ← targets.getLast?
  let first ← last.head?
  let (callee, _) ← Call.whole? value
  if isBlankName last then
    some ⟨file.path, first.pos, first.line,
      .errorIgnored ⟨Token.render callee, targets.length, targets.all isBlankName⟩⟩
  else none

/-- What a plain statement is besides its expressions. -/
def plainTrace (file : FileInfo) (ctx : Context) (place : Place) (kind : PlainKind) (tokens : List Token)
    (literals : List FuncLiteral) : Trace :=
  let at' (detail : Detail) : Trace := .ofConstructs [⟨file.path, place.pos, place.endLine, detail⟩]
  match kind with
  | .go => at' (.go (goInfo ctx tokens literals))
  | .defer => at' (.defer (deferInfo ctx tokens))
  | .return => returnTrace file ctx place.pos tokens
  | .simple => .ofConstructs (ignored? file tokens).toList
  | _ => .empty

/-- The error variable that a condition finds set; `before` is what stands before the run, reversed. -/
def checkedFrom (before : List Token) : List Token → Option String
  | [] => none
  | t :: rest =>
    let here := match before, rest with
      | left :: outer, right :: _ =>
        if t.isOp "!=" && right.isIdent && right.text == "nil" && left.isIdent && Name.isError left.text &&
            !outer.head?.any (·.isOp ".") then
          some left.text
        else none
      | _, _ => none
    match here with
    | some name => some name
    | none => checkedFrom (t :: before) rest

/-- Whether a run mentions a name. -/
def mentions (tokens : List Token) (name : String) : Bool := tokens.any fun t => t.isIdent && t.text == name

/-- What a branch does about an error that its condition finds set. -/
def errorCheck? (ctx : Context) (condition : List Token) (body : List Statement) (hasElse : Bool) :
    Option ErrorCheckInfo :=
  (checkedFrom [] condition).map fun name =>
    let nested := Statement.flattenList body
    let returns := nested.filter (·.isPlain .return)
    { errorName := name
      statements := body.length
      returns := !returns.isEmpty
      returnsError := returns.any fun s => mentions s.tokens name
      terminates := nested.any fun s => Cancellation.terminates s.tokens || failsTest s.tokens
      diverts := nested.any fun s => s.isPlain .continue || s.isPlain .break || s.isPlain .goto
      logs := nested.any fun s => (Call.list s.tokens).any fun c => Name.isLogCall c.name
      referencesError := !(Cancellation.references body [name]).isEmpty
      hasElse := hasElse
      function := ctx.function }

/-- The form of a loop and the variables it declares. -/
def loopForm (header : List Token) : LoopForm × List String :=
  if header.any (·.isKeyword "range") then (.range, declaredNames header)
  else
    match Token.splitSemis header with
    | [init, _, _] => (.clause, declaredNames init)
    | _ =>
      if header.isEmpty || Token.render header == "true" then (.infinite, []) else (.condition, [])

/-- What a switch decides on: the last part of its header, the name decided on, and whether the
decision is on its type. -/
structure Subject where
  tag : List Token
  name : Option String
  onType : Bool
deriving DecidableEq, Repr

/-- The subject of a switch. -/
def subject (header : List Token) : Subject :=
  let tag := (Token.splitSemis header).getLastD []
  if Text.endsWith (Token.render tag) ".(type)" then
    let value := ((Token.cutAssignment tag).map (·.right)).getD tag
    ⟨tag, value.head?.map (·.text), true⟩
  else
    match tag with
    | [t] => ⟨tag, some t.text, false⟩
    | _ => ⟨tag, none, false⟩

/-- The guard that a clause of a switch establishes. -/
def clauseGuard (s : Subject) (isDefault : Bool) (header : List Token) : Option Guard :=
  if s.name.any Name.isError then
    if s.onType then some .typeAssert
    else if !isDefault && Token.render header != "nil" then some .sentinel
    else none
  else if s.tag.isEmpty then Guard.ofCondition header
  else none

/-- The construct that a select statement is. -/
def selectInfo (ctx : Context) (clauses : List Clause) : SelectInfo :=
  let cases := clauses.filter (!·.isDefault)
  { cases := cases.length
    hasDefault := cases.length != clauses.length
    waitsForCancellation := cases.any fun c => Cancellation.receives c.header
    inLoop := ctx.inLoop
    function := ctx.function }

/-- Whether the other branch is one more branch on the same level. -/
def isElseIf : List Statement → Bool
  | [.branch ..] => true
  | _ => false

mutual

/-- Walks through a statement. -/
def walkStatement (file : FileInfo) (ctx : Context) : Statement → Walk
  | .plain place kind tokens literals =>
    Walk.all [
      .ok (plainTrace file ctx place kind tokens literals),
      Expression.walk file ctx (kind == .simple) tokens,
      walkLiterals file ctx (kind == .go && (launched tokens literals).isSome) literals]
  | .block _ body => walkList file ctx body
  | .branch place header literals body otherwise =>
    let parts := Token.splitSemis header
    let condition := parts.getLastD []
    let guard := (parts.dropLast.map Guard.ofInit).foldl Guard.stronger (Guard.ofCondition condition)
    let inner := ctx.enterGuarded guard
    Walk.all [
      Expression.walk file ctx false header,
      walkLiterals file ctx false literals,
      .found ((errorCheck? ctx condition body otherwise.isSome).toList.map fun info =>
        ⟨file.path, place.pos, place.endLine, .errorCheck info⟩),
      (walkList file inner body).map (Trace.atDepth inner.depth),
      walkOther file ctx otherwise]
  | .loop place header literals body =>
    let form := loopForm header
    let inner := ctx.enterLoop form.2
    Walk.all [
      Expression.walk file ctx false header,
      walkLiterals file ctx false literals,
      .found [⟨file.path, place.pos, place.endLine,
        .loop ⟨form.1, form.2, ctx.loopDepth + 1, ctx.function⟩⟩],
      (walkList file inner body).map (Trace.atDepth inner.depth)]
  | .switch place header literals clauses =>
    let s := subject header
    let text := Token.render s.tag
    Walk.all [
      Expression.walk file ctx false header,
      walkLiterals file ctx false literals,
      .found (if Text.endsWith text ".Error()" then
        [⟨file.path, place.pos, place.pos.line, .errorCompare ⟨.string, "switch", text, ctx.function⟩⟩]
      else []),
      walkClauses file ctx (clauseGuard s) clauses]
  | .select place header literals clauses =>
    Walk.all [
      Expression.walk file ctx false header,
      walkLiterals file ctx false literals,
      .found [⟨file.path, place.pos, place.endLine, .select (selectInfo ctx clauses)⟩],
      walkClauses file ctx (fun _ _ => none) clauses]

/-- Walks through a statement list. -/
def walkList (file : FileInfo) (ctx : Context) : List Statement → Walk
  | [] => .ok .empty
  | s :: rest => Walk.andThen (walkStatement file ctx s) (walkList file ctx rest)

/-- Walks through the other branch, which is a block unless it is one more branch. -/
def walkOther (file : FileInfo) (ctx : Context) : Option (List Statement) → Walk
  | none => .ok .empty
  | some body =>
    if isElseIf body then walkList file ctx body
    else (walkList file ctx.enter body).map (Trace.atDepth ctx.enter.depth)

/-- Walks through clauses; each establishes a guard by its header. -/
def walkClauses (file : FileInfo) (ctx : Context) (guard : Bool → List Token → Option Guard) :
    List Clause → Walk
  | [] => .ok .empty
  | .mk _ isDefault header body :: rest =>
    let inner := ctx.enterGuarded (guard isDefault header)
    Walk.all [
      Expression.walk file ctx false header,
      (walkList file inner body).map (Trace.atDepth inner.depth),
      walkClauses file ctx guard rest]

/-- Walks through function literals, of which a goroutine may run the first. Their returns without
values are not those of the declared function. -/
def walkLiterals (file : FileInfo) (ctx : Context) (launchesFirst : Bool) : List FuncLiteral → Walk
  | [] => .ok .empty
  | .mk _ _ params results body :: rest =>
    let inner := ctx.enterLiteral (Frame.ofBody params results body) launchesFirst
    Walk.andThen
      ((walkList file inner body).map fun t => { t.atDepth inner.depth with nakedReturns := [] })
      (walkLiterals file ctx false rest)

end

end GoIdiom.Body
