import GoIdiom.Construct
import GoIdiom.Statement

/-!
# Scopes and the origins of variables

The scope of a statement is the chain of function literals around it up to the declared function. For
every one of them the assignments of its own body are known, in source order, with the kind of value
assigned.
-/

namespace GoIdiom

/-- An assignment to a name. -/
structure Assigned where
  name : String
  pos : Position
  origin : Origin
deriving DecidableEq, Repr

/-- The signature of a function or function literal, and the assignments of its own body. -/
structure Frame where
  params : List Param
  results : List Param
  assignments : List Assigned
deriving DecidableEq, Repr

/-- The function that statements belong to: its name and receiver, and the frames around the
statements, innermost first. -/
structure Scope where
  function : String
  receiver : Option Receiver
  frames : List Frame
deriving DecidableEq, Repr

/-- The origin of a value by what its expression is. -/
def Origin.ofHandling : Handling → Origin
  | .wrapped => .wrapped
  | .constructed => .constructed
  | .delegated => .call
  | .nil => .nil
  | .asserted => .asserted
  | .bare | .sentinel | .other => .value

/-- The origin of the value of an expression. Whether a name is known makes no difference to it. -/
def Origin.ofExpression (tokens : List Token) : Origin :=
  .ofHandling (Handling.ofExpression (fun _ => false) tokens)

namespace Assigned

/-- The names of a `var` declaration up to its type or value. -/
def declaredNames : List Token → List Token
  | name :: comma :: rest =>
    if name.isIdent then if comma.isOp "," then name :: declaredNames rest else [name] else []
  | [name] => if name.isIdent then [name] else []
  | [] => []

/-- Pairs targets with the values assigned to them: one each, or one value for all of them. -/
def pairs (targets values : List (List Token)) : List (List Token × List Token) :=
  if values.length = targets.length then targets.zip values
  else
    match values with
    | [value] => targets.map fun target => (target, value)
    | _ => []

/-- The assignments of values to targets, a target being one name other than the blank one. -/
def ofTargets (targets values : List (List Token)) : List Assigned :=
  (pairs targets values).filterMap fun (target, value) =>
    match target with
    | [t] => if t.isIdent && t.text != "_" then some ⟨t.text, t.pos, .ofExpression value⟩ else none
    | _ => none

/-- The assignments that one token run makes. -/
def ofTokens (tokens : List Token) : List Assigned :=
  match tokens with
  | [] => []
  | first :: rest =>
    if first.isKeyword "var" then
      let names := declaredNames rest
      match Token.cutAssignment rest with
      | none => names.map fun t => ⟨t.text, t.pos, .nil⟩
      | some a => ofTargets (names.map fun t => [t]) (Token.commaItems a.right)
    else
      match Token.cutAssignment tokens with
      | none => []
      | some a => ofTargets (Token.splitCommas a.left) (Token.commaItems a.right)

/-- The assignments that a statement makes itself, nested statements left out. -/
def ofStatement (s : Statement) : List Assigned :=
  match s with
  | .plain _ .simple tokens _ | .plain _ .declaration tokens _ => ofTokens tokens
  | .branch _ header .. =>
    match Token.splitSemis header with
    | [init, _] => ofTokens init
    | _ => []
  | .switch _ header .. =>
    match Token.splitSemis header with
    | [init, _] => ofTokens init
    | _ => ofTokens header
  | .loop _ header .. =>
    match Token.splitSemis header with
    | [init, _, _] => ofTokens init
    | _ => ofTokens header
  | _ => []

end Assigned

namespace Frame

/-- The frame of a body, with all assignments the body makes outside function literals. -/
def ofBody (params results : List Param) (body : List Statement) : Frame :=
  ⟨params, results, (Statement.flattenList body).flatMap Assigned.ofStatement⟩

/-- Whether the name is a parameter of the frame. -/
def hasParam (f : Frame) (name : String) : Bool := f.params.any (·.name == some name)

/-- Whether the name is a result of the frame. -/
def hasResult (f : Frame) (name : String) : Bool := f.results.any (·.name == some name)

/-- Whether the name is declared or assigned in the frame. -/
def knows (f : Frame) (name : String) : Bool :=
  f.assignments.any (·.name == name) || f.hasParam name || f.hasResult name

/-- The parameter that a test reports through. -/
def testParam (f : Frame) : Option String :=
  f.params.findSome? fun p => if testingTypes.contains p.type then p.name else none

/-- Whether a result has a name. -/
def hasNamedResults (f : Frame) : Bool := f.results.any (·.name.isSome)

/-- The index of the last result that is an error. -/
def errorIndex (f : Frame) : Option Nat :=
  ((f.results.zipIdx.filter fun (r, _) => r.type == "error").getLast?).map (·.2)

/-- The last assignment to a name before a place. -/
def lastBefore (f : Frame) (name : String) (pos : Position) : Option Assigned :=
  (f.assignments.filter fun a => a.name == name && a.pos.before pos).getLast?

end Frame

namespace Scope

/-- Whether a name is declared or assigned in some frame. -/
def knows (s : Scope) (name : String) : Bool := s.frames.any (·.knows name)

/-- Where the value of a name was made that is visible at a place, from the innermost frame on. -/
def originIn (name : String) (pos : Position) : List Frame → Origin
  | [] => .unknown
  | f :: outer =>
    match f.lastBefore name pos with
    | some a => a.origin
    | none =>
      if f.hasParam name then .param
      else if f.hasResult name then .result
      else originIn name pos outer

/-- Where the value of a name was made that is visible at a place. -/
def origin (s : Scope) (name : String) (pos : Position) : Origin := originIn name pos s.frames

/-- The parameter of the innermost frame with one that a test reports through. -/
def testParam (s : Scope) : Option String := s.frames.findSome? (·.testParam)

/-- The results of the innermost function. -/
def results (s : Scope) : List Param := (s.frames.head?.map (·.results)).getD []

/-- Whether the innermost function names its results. -/
def hasNamedResults (s : Scope) : Bool := s.frames.head?.any (·.hasNamedResults)

/-- The index of the innermost function's last result that is an error. -/
def errorIndex (s : Scope) : Option Nat := s.frames.head?.bind (·.errorIndex)

/-- The scope inside a function literal. -/
def enter (s : Scope) (f : Frame) : Scope := { s with frames := f :: s.frames }

end Scope

end GoIdiom
