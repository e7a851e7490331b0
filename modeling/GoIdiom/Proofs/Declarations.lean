import GoIdiom.SourceFile

/-!
# The readers of declarations by their cases

The readers of declarations carry bounds on what they leave. Here are their equations without those
bounds.
-/

namespace GoIdiom.Declaration

/-- The constructs of a declaration, or of a group of them, after its keyword, and what follows it. -/
def declared (file : FileInfo) (keyword : Token) (tokens : List Token) : Reading (List Construct × List Token) :=
  (grouped file keyword tokens).map (·.1)

/-- Type parameters and parameters after the name of a function. -/
def paramsOf (receiver : Option Receiver) (name : Token) (tokens : List Token) : Reading FunctionHead :=
  (functionParams receiver name tokens).map (·.1)

/-- Name and parameters of a function. -/
def namedHead (receiver : Option Receiver) (previous : Token) (tokens : List Token) : Reading FunctionHead :=
  (functionNamed receiver previous tokens).map (·.1)

/-- The head of a function after its keyword. -/
def headOf (keyword : Token) (tokens : List Token) : Reading FunctionHead :=
  (functionHead keyword tokens).map (·.1)

/-- The constructs of a function after its keyword, and what follows it. -/
def declaredFunction (file : FileInfo) (keyword : Token) (tokens : List Token) :
    Reading (List Construct × List Token) := (function file keyword tokens).map (·.1)

/-- The type parameters after the name of a type, and what follows them. -/
def typeParamsAt (tokens : List Token) : List Param × List Token :=
  match groupAt? "[" tokens with
  | some g => if holdsTypeParams g.inner then (Signature.params g.inner, g.rest) else ([], tokens)
  | none => ([], tokens)

/-- Whether an element of an interface is a method. -/
def isMethod : List Token → Bool
  | first :: second :: _ => first.isIdent && second.isOp "("
  | _ => false

/-- Whether an element of an interface is the name of another one. -/
def isTypeName (element : List Token) : Bool := element.all fun t => t.isIdent || t.isOp "."

/-- The method that an element of an interface declares. -/
def methodOf : List Token → Option Method
  | first :: rest => some ⟨first.text, Token.render rest, first.line⟩
  | [] => none

/-- The record of an interface, without the walk that finds it. -/
theorem interfaceInfo_eq (name : String) (typeParams : List Param) (elements : List (List Token)) :
    interfaceInfo name typeParams elements =
      { name := name
        typeParams := typeParams
        methods := (elements.filter isMethod).filterMap methodOf
        embedded := (elements.filter fun e => !isMethod e && isTypeName e).map Token.render
        hasConstraint := elements.any fun e => !isMethod e && !isTypeName e } := rfl

/-- The tokens of a field without its tag. -/
def untagged (element : List Token) : List Token :=
  if element.length > 1 && element.getLast?.any (·.kind == .string) then element.dropLast else element

/-- The field that tokens without a tag declare. -/
def fieldIn : List Token → Option Field
  | [] => none
  | first :: rest =>
    if Signature.declaresName (first :: rest) then
      some ⟨first.text :: (moreNames rest).1, Token.render (moreNames rest).2, first.pos⟩
    else some ⟨[], Token.render (first :: rest), first.pos⟩

/-- A field read behind its tag. -/
theorem fieldOf_eq (element : List Token) : fieldOf element = fieldIn (untagged element) := by
  unfold fieldOf
  rw [← untagged]
  cases untagged element <;> rfl

/-- What is told of a type that is written in the given tokens. -/
def typeDetail (name : String) (typeParams : List Param) (isAlias : Bool) (type : List Token) : Detail :=
  match groupAfter? "interface" type, groupAfter? "struct" type with
  | some inner, _ => .interface (interfaceInfo name typeParams (Token.splitParts (·.isSemi) inner))
  | none, some inner => .struct ⟨name, typeParams, (Token.splitParts (·.isSemi) inner).filterMap fieldOf⟩
  | none, none => .type ⟨name, typeParams, Token.render type, isAlias⟩

/-- Whether the tokens of a type begin with the sign of an alias, and the tokens after it. -/
def aliasOf (tokens : List Token) : Bool × List Token :=
  let isAlias := tokens.head?.any (·.isOp "=")
  (isAlias, if isAlias then tokens.drop 1 else tokens)

/-- A type specification read with the cuts it makes named. -/
theorem typeSpec_eq (file : FileInfo) (follow : Option Token) (first : Token) (rest : List Token) :
    typeSpec file follow first rest =
      (if !first.isIdent then fail .missingTypeName first.pos
      else
        let head := typeParamsAt rest
        let type := aliasOf head.2
        if type.2.isEmpty then fail .missingType (follow.getD (rest.getLastD first)).pos
        else
          .ok [⟨file.path, first.pos, (rest.getLastD first).line,
            typeDetail first.text head.1 type.1 type.2⟩]) := by
  have hhead : (match rest with
      | t :: inside =>
        match if t.isOp "[" then Token.closeGroup inside else none with
        | some g => if holdsTypeParams g.inner then (Signature.params g.inner, g.rest) else ([], rest)
        | none => ([], rest)
      | [] => ([], rest)) = typeParamsAt rest := by
    cases rest <;> rfl
  rw [← hhead]
  rfl

/-- A variable specification read with the cuts it makes named. -/
theorem variableSpec_eq (file : FileInfo) (keyword first : Token) (rest : List Token) :
    variableSpec file keyword first rest =
      (let names := variableNames (first :: rest)
      let type := Token.spanTop (·.isOp "=") names.2
      if names.1.isEmpty then fail (.missingVariableName keyword.text) first.pos
      else do
        let value ← ofSource (Statement.cutLiterals (type.2.drop 1))
        let ctx := Context.ofScope ⟨"", none, [⟨[], [], []⟩]⟩
        let trace ← ofWalk (Walk.andThen (Expression.walk file ctx false value.2)
          (Body.walkLiterals file ctx false value.1))
        pure (⟨file.path, first.pos, (rest.getLastD first).line, .global
          { names := names.1.map fun t => (t.text, t.pos)
            isConst := keyword.text == "const"
            type := Token.render type.1
            value := Token.render value.2 }⟩ :: trace.constructs)) := by
  rw [variableSpec]
  dsimp only
  split
  · rfl
  · rfl

/-- A declaration is a group of specifications or a single one. -/
theorem declared_eq (file : FileInfo) (keyword : Token) (tokens : List Token) :
    declared file keyword tokens =
      (match groupAt? "(" tokens with
      | some g => do
        let found ← specs file keyword g.closer (Token.endedParts (·.isSemi) g.inner)
        pure (found, g.rest)
      | none =>
        if (Token.spanTop (·.isSemi) tokens).1.isEmpty then
          fail (.missingDeclaration keyword.text) ((Token.spanTop (·.isSemi) tokens).2.headD keyword).pos
        else do
          let found ← spec file keyword (Token.spanTop (·.isSemi) tokens).2.head?
            (Token.spanTop (·.isSemi) tokens).1
          pure (found, (Token.spanTop (·.isSemi) tokens).2)) := by
  rw [declared, grouped]
  split
  · next g h =>
    conv => rhs; rw [h]
    dsimp only
    cases specs file keyword g.closer (Token.endedParts (·.isSemi) g.inner) <;> rfl
  · next h =>
    conv => rhs; rw [h]
    dsimp only
    split
    · rfl
    · cases spec file keyword (Token.spanTop (·.isSemi) tokens).2.head?
        (Token.spanTop (·.isSemi) tokens).1 <;> rfl

/-- The head of a function from its type parameters on. -/
theorem paramsOf_eq (receiver : Option Receiver) (name : Token) (tokens : List Token) :
    paramsOf receiver name tokens =
      (match groupAt? "[" tokens with
      | some types =>
        match groupAt? "(" types.rest with
        | some g =>
          .ok ⟨receiver, name, Signature.params types.inner, Signature.params g.inner, g.closer, g.rest⟩
        | none => fail .missingParameters (types.rest.headD types.closer).pos
      | none =>
        match groupAt? "(" tokens with
        | some g => .ok ⟨receiver, name, [], Signature.params g.inner, g.closer, g.rest⟩
        | none => fail .missingParameters (tokens.headD name).pos) := by
  rw [paramsOf, functionParams]
  split
  · next types h =>
    conv => rhs; rw [h]
    dsimp only
    split
    · next g hg =>
      conv => rhs; rw [hg]
      rfl
    · next hg =>
      conv => rhs; rw [hg]
      rfl
  · next h =>
    conv => rhs; rw [h]
    dsimp only
    split
    · next g hg =>
      conv => rhs; rw [hg]
      rfl
    · next hg =>
      conv => rhs; rw [hg]
      rfl

/-- The head of a function from its name on. -/
theorem namedHead_eq (receiver : Option Receiver) (previous : Token) (tokens : List Token) :
    namedHead receiver previous tokens =
      (match tokens with
      | [] => fail .missingFunctionName previous.pos
      | name :: rest =>
        if name.isIdent then paramsOf receiver name rest else fail .missingFunctionName name.pos) := by
  rw [namedHead, functionNamed.eq_def]
  cases tokens with
  | nil => rfl
  | cons name rest =>
    dsimp only
    split
    · rw [paramsOf]
      cases functionParams receiver name rest <;> rfl
    · rfl

/-- The head of a function from its receiver on, if it has one. -/
theorem headOf_eq (keyword : Token) (tokens : List Token) :
    headOf keyword tokens =
      (match groupAt? "(" tokens with
      | none => namedHead none keyword tokens
      | some g =>
        match Signature.params g.inner with
        | [p] => namedHead (some (receiverOf p)) g.closer g.rest
        | _ => fail .receiverCount (tokens.headD keyword).pos) := by
  rw [headOf, functionHead]
  split
  · next h =>
    conv => rhs; rw [h]
    rfl
  · next g h =>
    conv => rhs; rw [h]
    dsimp only
    cases Signature.params g.inner with
    | nil => rfl
    | cons p more =>
      cases more with
      | nil =>
        dsimp only [namedHead]
        cases functionNamed (some (receiverOf p)) g.closer g.rest <;> rfl
      | cons => rfl

/-- A declared function is read from its head, its signature and its body. -/
theorem declaredFunction_eq (file : FileInfo) (keyword : Token) (tokens : List Token) :
    declaredFunction file keyword tokens = (do
      let head ← headOf keyword tokens
      let run := Token.spanTop (·.isSemi) head.rest
      let body := Block.body? head.close run.1
      let statements ← match body with
        | some b => ofSource (Statement.readList (some b.closer) none b.inner)
        | none => pure []
      let found ← functionConstructs file keyword head run.1 body statements
      pure (found, run.2)) := by
  rw [declaredFunction, function, headOf]
  cases functionHead keyword tokens with
  | error e => rfl
  | ok head =>
    dsimp only [bind, Except.bind, Except.map]
    cases hbody : Block.body? head.1.close (Token.spanTop (·.isSemi) head.1.rest).1 with
    | none =>
      cases functionConstructs file keyword head.1 (Token.spanTop (·.isSemi) head.1.rest).1 none [] <;> rfl
    | some b =>
      dsimp only
      cases ofSource (Statement.readList (some b.closer) none b.inner) with
      | error e => rfl
      | ok statements =>
        dsimp only
        cases functionConstructs file keyword head.1 (Token.spanTop (·.isSemi) head.1.rest).1 (some b)
          statements <;> rfl

/-- The results of a function with the given signature, which ends before the body if there is one. -/
def resultsOf (signature : List Token) (body : Option Block) : List Param :=
  Signature.results (match body with
    | some b => b.before
    | none => signature)

/-- The scope of the statements of a function. -/
def scopeOf (head : FunctionHead) (results : List Param) (statements : List Statement) : Scope :=
  ⟨head.name.text, head.receiver, [Frame.ofBody head.params results statements]⟩

/-- What is told of a function when its statements have been walked through. -/
def infoOf (file : FileInfo) (head : FunctionHead) (results : List Param) (body : Option Block)
    (statements : List Statement) (trace : Trace) : FunctionInfo :=
  { name := head.name.text
    receiver := head.receiver
    params := head.params
    results := results
    typeParams := head.typeParams
    hasBody := body.isSome
    bodyLines := (body.map fun b => b.closer.line - b.opener.line - 1).getD 0
    maxDepth := trace.depth
    nakedReturns := trace.nakedReturns
    callees := trace.callees.eraseDups
    cancellationSafe := Cancellation.waitsForCancellation statements
    inTestFile := file.isTest
    package := file.package }

/-- What is told of a function as a test. -/
def testOf? (file : FileInfo) (head : FunctionHead) (statements : List Statement) (info : FunctionInfo) :
    Option TestInfo :=
  if file.isTest && head.receiver.isNone then
    (Name.testHeads.find? (Text.startsWith head.name.text)).map fun word =>
      { name := head.name.text
        head := word
        params := head.params
        results := info.results
        testParam := info.testParam
        asserts := info.testParam.any (fun t => !(Cancellation.references statements [t]).isEmpty) ||
          info.callees.any fun c => Text.startsWithAny c ["assert.", "require."] }
  else none

/-- The constructs of a function are put together from its walk. -/
theorem functionConstructs_eq (file : FileInfo) (keyword : Token) (head : FunctionHead) (signature : List Token)
    (body : Option Block) (statements : List Statement) :
    functionConstructs file keyword head signature body statements = (do
      let results := resultsOf signature body
      let trace ← ofWalk (Body.walkList file (Context.ofScope (scopeOf head results statements)) statements)
      let info := infoOf file head results body statements trace
      let place (detail : Detail) : Construct :=
        ⟨file.path, keyword.pos, (signature.getLastD head.close).line, detail⟩
      pure (trace.constructs ++ place (.function info) ::
        (testOf? file head statements info).toList.map (place ∘ .testFunction))) := by
  have htests (info : FunctionInfo) (place : Detail → Construct) :
      (if file.isTest && head.receiver.isNone then
        (Name.testHeads.find? (Text.startsWith head.name.text)).toList.map fun word =>
          place (.testFunction ⟨head.name.text, word, head.params, info.results, info.testParam,
            info.testParam.any (fun t => !(Cancellation.references statements [t]).isEmpty) ||
              info.callees.any fun c => Text.startsWithAny c ["assert.", "require."]⟩)
      else []) = (testOf? file head statements info).toList.map (place ∘ .testFunction) := by
    rw [testOf?]
    split
    · cases Name.testHeads.find? (Text.startsWith head.name.text) <;> rfl
    · rfl
  refine congrArg (Bind.bind (ofWalk (Body.walkList file (Context.ofScope
    (scopeOf head (resultsOf signature body) statements)) statements))) (funext fun trace => ?_)
  exact congrArg (fun tests => pure (trace.constructs ++ _ :: tests))
    (htests (infoOf file head (resultsOf signature body) body statements trace)
      fun detail => ⟨file.path, keyword.pos, (signature.getLastD head.close).line, detail⟩)

/-- A file's declarations are read from its first token on. -/
theorem list_cons (file : FileInfo) (t : Token) (rest : List Token) :
    list file (t :: rest) =
      (if t.isSemi then list file rest
      else if t.isKeywordIn ["import", "type", "var", "const"] then do
        let (found, after) ← declared file t rest
        let more ← list file after
        pure (found ++ more)
      else if t.isKeyword "func" then do
        let (found, after) ← declaredFunction file t rest
        let more ← list file after
        pure (found ++ more)
      else fail (.unexpectedTopLevel t.text) t.pos) := by
  rw [list, declared, declaredFunction]
  split
  · rfl
  · split
    · cases grouped file t rest <;> rfl
    · split
      · cases function file t rest <;> rfl
      · rfl

/-- A declaration leaves no more tokens than follow its keyword. -/
theorem length_of_declared {file : FileInfo} {keyword : Token} {tokens : List Token}
    {r : List Construct × List Token} (h : declared file keyword tokens = .ok r) :
    r.2.length ≤ tokens.length := by
  rw [declared] at h
  cases hgrouped : grouped file keyword tokens with
  | error e => rw [hgrouped] at h; cases h
  | ok x =>
    rw [hgrouped] at h
    cases h
    exact x.2

/-- A function leaves no more tokens than follow its keyword. -/
theorem length_of_declaredFunction {file : FileInfo} {keyword : Token} {tokens : List Token}
    {r : List Construct × List Token} (h : declaredFunction file keyword tokens = .ok r) :
    r.2.length ≤ tokens.length := by
  rw [declaredFunction] at h
  cases hfunction : function file keyword tokens with
  | error e => rw [hfunction] at h; cases h
  | ok x =>
    rw [hfunction] at h
    cases h
    exact x.2

end GoIdiom.Declaration
