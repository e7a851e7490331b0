import GoIdiom.Text.Word
import GoIdiom.Token.Lexeme
import GoIdiom.Construct.Trace

/-!
# Constructs in expressions

Every call of a token run is a construct. A call may also make a channel, make an error or compare an
error; after the calls come the comparisons of the run that look at an error.
-/

/-!
## Verbs of format strings

A verb is a letter or percent sign after a percent sign, with flags, a width, a precision and an
argument index between them.
-/

namespace GoIdiom.FormatVerb

/-- A flag of a verb. -/
def isFlag (c : Char) : Bool := ['-', '+', '#', ' ', '0'].contains c

/-- The length of a width: digits, or a star. -/
def widthLength : List Char → Nat
  | [] => 0
  | c :: rest => if c = '*' then 1 else Lexeme.runLength Text.isDecimal (c :: rest)

/-- The length of a precision, which is none without a width after its point. -/
def precisionLength : List Char → Nat
  | '.' :: rest => if widthLength rest = 0 then 0 else widthLength rest + 1
  | _ => 0

/-- The length of an argument index, which is none without digits and a closing bracket. -/
def indexLength : List Char → Nat
  | '[' :: rest =>
    let digits := Lexeme.runLength Text.isDecimal rest
    if digits != 0 && (rest.drop digits).head? == some ']' then digits + 2 else 0
  | _ => 0

/-- A plain Latin letter, or the percent sign that stands for itself. -/
def isVerb (c : Char) : Bool := c.isAlpha || c == '%'

/-- The verb after a percent sign, and how many characters the whole has after that sign. -/
def verbAfterSign? (cs : List Char) : Option (Char × Nat) :=
  let n := Lexeme.partsLength [Lexeme.runLength isFlag, widthLength, precisionLength, indexLength] cs
  match cs.drop n with
  | [] => none
  | c :: _ => if isVerb c then some (c, n + 1) else none

/-- All verbs in a format string, the percent sign that stands for itself among them. -/
def all : List Char → List Char
  | [] => []
  | c :: rest =>
    if c = '%' then
      match verbAfterSign? rest with
      | some (verb, n) => verb :: all (rest.drop n)
      | none => all rest
    else all rest
termination_by cs => cs.length
decreasing_by all_goals simp only [List.length_drop, List.length_cons]; omega

/-- The verbs in a format string that take an argument. -/
def list (message : String) : List String :=
  ((all message.toList).filter (· != '%')).map fun c => String.ofList [c]

end GoIdiom.FormatVerb

/-! ## Calls and comparisons -/

namespace GoIdiom.Expression

/-- Calls that make errors. -/
def constructingCalls : List String := ["errors.New", "fmt.Errorf"]

/-- Calls that look for one text in another. -/
def stringMatchers : List String :=
  ["strings.Contains", "strings.HasPrefix", "strings.HasSuffix", "strings.EqualFold", "strings.Index"]

/-- The size written by a token, if the token consists of digits. -/
def size? (t : Token) : Except SizeFault (Option Nat) :=
  let cs := t.text.toList
  if cs.isEmpty || !cs.all Text.isDigit then .ok none
  else if !cs.all Char.isDigit then .error (.notDecimal t.text)
  else if cs.length > SizeFault.digitLimit then .error (.tooLong cs.length)
  else .ok (some (Nat.ofDigitChars 10 cs 0))

/-- The channel that a call of `make` makes. -/
def channelOf (type : List Token) (sizes : List (List Token)) : Except SizeFault ChannelInfo := do
  let size ← match sizes with
    | [t] :: _ => size? t
    | _ => .ok none
  pure ⟨Token.render (type.drop 1), sizes.head?.map Token.render, size⟩

/-- The error that a call makes. -/
def errorOf (c : Call) (function : String) : ErrorConstructInfo :=
  let literal : Option Token := match c.arguments with
    | [t] :: _ => if t.kind == .string then some t else none
    | _ => none
  let message := literal.map fun t => Text.inner t.text
  { constructor := c.name
    message := message
    isRaw := literal.any fun t => Text.startsWith t.text "\x60"
    verbs := (message.map FormatVerb.list).getD []
    errorArguments := (c.arguments.drop 1).filterMap fun argument =>
      match argument with
      | [t] => if Name.isError t.text then some (Token.render [t]) else none
      | _ => none
    function := function }

/-- What a call is besides a call. -/
def special (ctx : Context) (c : Call) : Except SizeFault (Option Detail) := do
  match c.arguments with
  | type :: sizes =>
    if c.name == "make" && type.head?.any (·.isKeyword "chan") then
      let channel ← channelOf type sizes
      return some (.channelMake channel)
  | [] => pure ()
  if constructingCalls.contains c.name then return some (.errorConstruct (errorOf c ctx.function))
  let compared (method : CompareMethod) : Option Detail :=
    some (.errorCompare ⟨method, c.name, Token.render c.tokens, ctx.function⟩)
  if stringMatchers.contains c.name &&
      c.arguments.head?.any fun a => Text.endsWith (Token.render a) ".Error()" then
    return compared .string
  if c.name == "errors.Is" then return compared .errorsIs
  if c.name == "errors.As" then return compared .errorsAs
  return none

/-- The construct that a call is. -/
def callInfo (file : FileInfo) (ctx : Context) (isStatement : Bool) (c : Call) : CallInfo :=
  { callee := c.name
    name := c.lastName
    receiver := c.receiver
    arguments := c.arguments.map Token.render
    isStatement := isStatement && c.isWholeRun
    function := ctx.function
    inGoroutine := ctx.inGoroutine
    inLoop := ctx.inLoop
    inTestFile := file.isTest
    testParam := ctx.scope.testParam
    package := file.package }

/-- The constructs of one call. -/
def walkCall (file : FileInfo) (ctx : Context) (isStatement : Bool) (c : Call) : Walk := do
  let place (detail : Detail) : Construct := ⟨file.path, c.first.pos, c.first.line, detail⟩
  let more ← special ctx c
  pure { Trace.empty with
    constructs := place (.call (callInfo file ctx isStatement c)) :: more.toList.map place
    callees := [c.name] }

/-- Whether the tokens before a comparison, in reverse, end in a call of a method `Error`. -/
def endsInErrorCall : List Token → Bool
  | close :: opener :: name :: dot :: _ =>
    close.isOp ")" && opener.isOp "(" && name.text == "Error" && dot.isOp "."
  | _ => false

/-- Whether the name before a comparison is selected from something. -/
def isSelected : List Token → Bool
  | _ :: dot :: _ => dot.isOp "."
  | _ => false

/-- What a comparison tells about an error, if anything. -/
def comparisonInfo (function : String) (c : Comparison) : Option ErrorCompareInfo :=
  let stringLeft := endsInErrorCall c.before
  let shown := ((c.before.take (if stringLeft then 4 else 1)).reverse ++ [c.op]) ++ c.right
  let info (method : CompareMethod) : ErrorCompareInfo := ⟨method, c.op.text, Token.render shown, function⟩
  if stringLeft || Text.endsWith c.rightText ".Error()" then some (info .string)
  else if (c.leftIsError && !isSelected c.before && c.rightText != "" && c.rightText != "nil") ||
      (c.rightIsError && c.left.text != "nil") then
    some (info .equality)
  else none

/-- The constructs that comparisons of a run are. -/
def comparisons (file : FileInfo) (ctx : Context) (tokens : List Token) : List Construct :=
  (Comparison.list tokens).filterMap fun c =>
    (comparisonInfo ctx.function c).map fun info =>
      ⟨file.path, c.op.pos, c.op.line, .errorCompare info⟩

/-- The constructs in a token run, which may be all of a statement. -/
def walk (file : FileInfo) (ctx : Context) (isStatement : Bool) (tokens : List Token) : Walk :=
  Walk.andThen (Walk.all ((Call.list tokens).map (walkCall file ctx isStatement)))
    (Walk.found (comparisons file ctx tokens))

end GoIdiom.Expression
