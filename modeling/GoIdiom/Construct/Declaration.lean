import GoIdiom.Construct.Body
import GoIdiom.Statement.OfTokens

/-!
# Constructs of top-level declarations

A file is a package clause and declarations. Declarations are read one after the other; each gives its
constructs, and the first fault ends the reading. A faulty declaration is reported at the token that
stands where something else was expected, or at the last token of the file.
-/

namespace GoIdiom

/-- Why a file has no constructs. -/
inductive FileFault where
  | source (fault : SourceFault)
  | size (fault : SizeFault)
deriving DecidableEq, Repr

/-- The result of reading a part of a file. -/
abbrev Reading := Except FileFault

namespace Declaration

/-- Fails with a fault of the source. -/
def fail {α : Type} (cause : SourceCause) (pos : Position) : Reading α := .error (.source ⟨cause, pos⟩)

/-- Lifts a result that may hold a fault of the source. -/
def ofSource {α : Type} (x : Except SourceFault α) : Reading α := x.mapError .source

/-- Lifts the result of a walk. -/
def ofWalk (x : Walk) : Reading Trace := x.mapError .size

/-- The declarations of an import. -/
def importSpec (file : FileInfo) (first : Token) (rest : List Token) : Reading (List Construct) :=
  let last := rest.getLastD first
  if last.kind == .string then
    let localName := if rest.isEmpty then none else some first.text
    .ok [⟨file.path, first.pos, first.line, .imported (Text.inner last.text) localName⟩]
  else fail .missingImportPath last.pos

/-- Whether brackets after a type's name hold type parameters. -/
def holdsTypeParams : List Token → Bool
  | first :: second :: _ =>
    first.isIdent && (second.isIdent || second.kind == .keyword || second.isOpIn [",", "~"])
  | _ => false

/-- The contents of the group that a run begins with after its opener, if it begins with one. -/
def groupAfter? (keyword : String) : List Token → Option (List Token)
  | t :: opener :: rest =>
    if t.isKeyword keyword && opener.isOp "\x7b" then (Token.closeGroup rest).map (·.inner) else none
  | _ => none

/-- Reads the elements of an interface. -/
def interfaceInfo (name : String) (typeParams : List Param) (elements : List (List Token)) : InterfaceInfo :=
  let isMethod : List Token → Bool
    | first :: second :: _ => first.isIdent && second.isOp "("
    | _ => false
  let isName (e : List Token) : Bool := e.all fun t => t.isIdent || t.isOp "."
  { name := name
    typeParams := typeParams
    methods := (elements.filter isMethod).filterMap fun e =>
      match e with
      | first :: rest => some ⟨first.text, Token.render rest, first.line⟩
      | [] => none
    embedded := (elements.filter fun e => !isMethod e && isName e).map Token.render
    hasConstraint := elements.any fun e => !isMethod e && !isName e }

/-- The names that share a field line, after the first of them, and the tokens of their type. -/
def moreNames : List Token → List String × List Token
  | comma :: name :: rest =>
    if comma.isOp "," && name.isIdent then
      let (names, type) := moreNames rest
      (name.text :: names, type)
    else ([], comma :: name :: rest)
  | tokens => ([], tokens)

/-- Reads one line of a struct. A text at its end is a tag. -/
def fieldOf (element : List Token) : Option Field :=
  let element :=
    if element.length > 1 && element.getLast?.any (·.kind == .string) then element.dropLast else element
  match element with
  | [] => none
  | first :: rest =>
    if Signature.declaresName element then
      let (names, type) := moreNames rest
      some ⟨first.text :: names, Token.render type, first.pos⟩
    else some ⟨[], Token.render element, first.pos⟩

/-- The constructs of a type declaration that begins with `first`. `follow` is the token after it. -/
def typeSpec (file : FileInfo) (follow : Option Token) (first : Token) (rest : List Token) :
    Reading (List Construct) :=
  if !first.isIdent then fail .missingTypeName first.pos
  else
    let last := rest.getLastD first
    let (typeParams, afterParams) : List Param × List Token :=
      match rest with
      | t :: inside =>
        match if t.isOp "[" then Token.closeGroup inside else none with
        | some g => if holdsTypeParams g.inner then (Signature.params g.inner, g.rest) else ([], rest)
        | none => ([], rest)
      | [] => ([], rest)
    let isAlias := afterParams.head?.any (·.isOp "=")
    let type := if isAlias then afterParams.drop 1 else afterParams
    if type.isEmpty then fail .missingType (follow.getD last).pos
    else
      let detail : Detail :=
        match groupAfter? "interface" type, groupAfter? "struct" type with
        | some inner, _ =>
          .interface (interfaceInfo first.text typeParams (Token.splitParts (·.isSemi) inner))
        | none, some inner =>
          .struct ⟨first.text, typeParams, (Token.splitParts (·.isSemi) inner).filterMap fieldOf⟩
        | none, none => .type ⟨first.text, typeParams, Token.render type, isAlias⟩
      .ok [⟨file.path, first.pos, last.line, detail⟩]

/-- The names at the head of a variable declaration, and what follows them. -/
def variableNames : List Token → List Token × List Token
  | name :: rest =>
    if name.isIdent then
      match rest with
      | comma :: more =>
        if comma.isOp "," then
          let (names, after) := variableNames more
          (name :: names, after)
        else ([name], rest)
      | [] => ([name], [])
    else ([], name :: rest)
  | [] => ([], [])

/-- The constructs of a variable or constant declaration that begins with `first`. -/
def variableSpec (file : FileInfo) (keyword first : Token) (rest : List Token) :
    Reading (List Construct) := do
  let (names, afterNames) := variableNames (first :: rest)
  if names.isEmpty then fail (.missingVariableName keyword.text) first.pos
  let (type, fromEquals) := Token.spanTop (·.isOp "=") afterNames
  let (literals, value) ← ofSource (Statement.cutLiterals (fromEquals.drop 1))
  let declared : Construct := ⟨file.path, first.pos, (rest.getLastD first).line, .global
    { names := names.map fun t => (t.text, t.pos)
      isConst := keyword.text == "const"
      type := Token.render type
      value := Token.render value }⟩
  let ctx := Context.ofScope ⟨"", none, [⟨[], [], []⟩]⟩
  let trace ← ofWalk (Walk.andThen (Expression.walk file ctx false value)
    (Body.walkLiterals file ctx false literals))
  pure (declared :: trace.constructs)

/-- The constructs of one declaration under a keyword. `follow` is the token after it. -/
def spec (file : FileInfo) (keyword : Token) (follow : Option Token) (tokens : List Token) :
    Reading (List Construct) :=
  match tokens with
  | [] => .ok []
  | first :: rest =>
    match keyword.text with
    | "import" => importSpec file first rest
    | "type" => typeSpec file follow first rest
    | _ => variableSpec file keyword first rest

/-- The constructs of declarations one after the other, of which the last is followed by `follow`. -/
def specs (file : FileInfo) (keyword : Token) (follow : Token) :
    List (List Token × Option Token) → Reading (List Construct)
  | [] => .ok []
  | (tokens, ended) :: rest => do
    let found ← spec file keyword (some (ended.getD follow)) tokens
    let more ← specs file keyword follow rest
    pure (found ++ more)

/-- Constructs, and the tokens left, which are fewer than those given. -/
abbrev Step (tokens : List Token) :=
  { r : List Construct × List Token // r.2.length ≤ tokens.length }

/-- A group of brackets of the given kind at the head of a run. -/
def groupAt? (opener : String) : List Token → Option Token.Group
  | [] => none
  | t :: rest => if t.isOp opener then Token.closeGroup rest else none

/-- What follows a group is shorter than the tokens. -/
theorem groupAt?_length {opener : String} {tokens : List Token} {g : Token.Group}
    (h : groupAt? opener tokens = some g) : g.rest.length < tokens.length := by
  cases tokens with
  | nil => simp [groupAt?] at h
  | cons t rest =>
    simp only [groupAt?] at h
    split at h
    · have := Token.closeGroup_length h; simp only [List.length_cons]; omega
    · simp at h

/-- Reads a declaration, or a group of them in parentheses, after its keyword. -/
def grouped (file : FileInfo) (keyword : Token) (tokens : List Token) : Reading (Step tokens) :=
  match h : groupAt? "(" tokens with
  | some g => do
    let found ← specs file keyword g.closer (Token.endedParts (·.isSemi) g.inner)
    pure ⟨(found, g.rest), Nat.le_of_lt (groupAt?_length h)⟩
  | none =>
    let run := Token.spanTop (·.isSemi) tokens
    if run.1.isEmpty then fail (.missingDeclaration keyword.text) (run.2.headD keyword).pos
    else do
      let found ← spec file keyword run.2.head? run.1
      pure ⟨(found, run.2), Token.spanTop_length _ _⟩

/-- The head of a function declaration: receiver, name and parameters, and what follows. -/
structure FunctionHead where
  receiver : Option Receiver
  name : Token
  typeParams : List Param
  params : List Param
  close : Token
  rest : List Token
deriving DecidableEq, Repr

/-- The receiver that a parameter list of one entry declares. -/
def receiverOf (p : Param) : Receiver :=
  let base := p.type.toList.dropWhile (· == '*')
  ⟨p.name, String.ofList (base.takeWhile (· != '[')), p.isPointer, p.pos⟩

/-- Reads type parameters and parameters after the name of a function. -/
def functionParams (receiver : Option Receiver) (name : Token) (tokens : List Token) :
    Reading { head : FunctionHead // head.rest.length < tokens.length } :=
  match ht : groupAt? "[" tokens with
  | some types =>
    match hp : groupAt? "(" types.rest with
    | some g =>
      .ok ⟨⟨receiver, name, Signature.params types.inner, Signature.params g.inner, g.closer, g.rest⟩, by
        have := groupAt?_length ht
        have := groupAt?_length hp
        simp only; omega⟩
    | none => fail .missingParameters (types.rest.headD types.closer).pos
  | none =>
    match hp : groupAt? "(" tokens with
    | some g =>
      .ok ⟨⟨receiver, name, [], Signature.params g.inner, g.closer, g.rest⟩, groupAt?_length hp⟩
    | none => fail .missingParameters (tokens.headD name).pos

/-- Reads name and parameters of a function. `previous` is the token before the run. -/
def functionNamed (receiver : Option Receiver) (previous : Token) (tokens : List Token) :
    Reading { head : FunctionHead // head.rest.length < tokens.length } :=
  match tokens with
  | [] => fail .missingFunctionName previous.pos
  | name :: rest =>
    if name.isIdent then do
      let head ← functionParams receiver name rest
      pure ⟨head.1, Nat.lt_succ_of_lt head.2⟩
    else fail .missingFunctionName name.pos

/-- Reads the head of a function declaration after its keyword. -/
def functionHead (keyword : Token) (tokens : List Token) :
    Reading { head : FunctionHead // head.rest.length < tokens.length } :=
  match hg : groupAt? "(" tokens with
  | none => functionNamed none keyword tokens
  | some g =>
    match Signature.params g.inner with
    | [p] => do
      let head ← functionNamed (some (receiverOf p)) g.closer g.rest
      pure ⟨head.1, Nat.lt_trans head.2 (groupAt?_length hg)⟩
    | _ => fail .receiverCount (tokens.headD keyword).pos

/-- The constructs of a function without a body, or with the given body block and statements. -/
def functionConstructs (file : FileInfo) (keyword : Token) (head : FunctionHead) (signature : List Token)
    (body : Option Block) (statements : List Statement) : Reading (List Construct) := do
  let results := Signature.results (match body with
    | some b => b.before
    | none => signature)
  let name := head.name.text
  let scope : Scope := ⟨name, head.receiver, [Frame.ofBody head.params results statements]⟩
  let trace ← ofWalk (Body.walkList file (Context.ofScope scope) statements)
  let info : FunctionInfo :=
    { name := name
      receiver := head.receiver
      params := head.params
      results := results
      typeParams := head.typeParams
      hasBody := body.isSome
      bodyLines := (body.map fun b => b.closer.line - b.opener.line - 1).getD 0
      maxDepth := trace.depth
      nakedReturns := trace.nakedReturns
      callees := trace.callees.eraseDups
      cancellationSafe := Cancellation.waitsForCancellation statements
      inTestFile := file.isTest
      package := file.package }
  let endLine := (signature.getLastD head.close).line
  let place (detail : Detail) : Construct := ⟨file.path, keyword.pos, endLine, detail⟩
  let tests := if file.isTest && head.receiver.isNone then
      (Name.testHeads.find? (Text.startsWith name)).toList.map fun word =>
        place (.testFunction
          { name := name
            head := word
            params := head.params
            results := results
            testParam := info.testParam
            asserts := info.testParam.any (fun t => !(Cancellation.references statements [t]).isEmpty) ||
              info.callees.any fun c => Text.startsWithAny c ["assert.", "require."] })
    else []
  pure (trace.constructs ++ place (.function info) :: tests)

/-- Reads a function declaration after its keyword. -/
def function (file : FileInfo) (keyword : Token) (tokens : List Token) : Reading (Step tokens) := do
  let ⟨head, hhead⟩ ← functionHead keyword tokens
  let run := Token.spanTop (·.isSemi) head.rest
  let body := Block.body? head.close run.1
  let statements ← match body with
    | some b => ofSource (Statement.readList (some b.closer) none b.inner)
    | none => pure []
  let found ← functionConstructs file keyword head run.1 body statements
  pure ⟨(found, run.2), Nat.le_of_lt (Nat.lt_of_le_of_lt (Token.spanTop_length _ _) hhead)⟩

/-- The constructs of the declarations of a file. -/
def list (file : FileInfo) (tokens : List Token) : Reading (List Construct) :=
  match tokens with
  | [] => .ok []
  | t :: rest =>
    if t.isSemi then list file rest
    else if t.isKeywordIn ["import", "type", "var", "const"] then do
      let ⟨(found, after), h⟩ ← grouped file t rest
      have _hafter : after.length ≤ rest.length := h
      let more ← list file after
      pure (found ++ more)
    else if t.isKeyword "func" then do
      let ⟨(found, after), h⟩ ← function file t rest
      have _hafter : after.length ≤ rest.length := h
      let more ← list file after
      pure (found ++ more)
    else fail (.unexpectedTopLevel t.text) t.pos
termination_by tokens.length
decreasing_by all_goals simp only [List.length_cons]; omega

end Declaration

end GoIdiom
