import GoIdiom.Name
import GoIdiom.Call
import GoIdiom.Cancellation

/-!
# Error values in expressions

How a condition tests an error, and what kind of value an expression puts into an error result.
-/

namespace GoIdiom

/-- How much a condition knows about an error. -/
inductive Guard where
  | nilCheck
  | typeAssert
  | sentinel
deriving DecidableEq, Repr

namespace Guard

/-- The name of a guard. -/
def name : Guard → String
  | nilCheck => "nil-check"
  | typeAssert => "type-assert"
  | sentinel => "sentinel"

/-- Guards in order, no guard being the weakest. -/
def rank : Option Guard → Nat
  | none => 0
  | some nilCheck => 1
  | some typeAssert => 2
  | some sentinel => 3

/-- The stronger of two guards. -/
def stronger (a b : Option Guard) : Option Guard := if rank a ≥ rank b then a else b

end Guard

/-- A comparison: the tokens before its operator in reverse order, and the operand after it. -/
structure Comparison where
  before : List Token
  op : Token
  right : List Token
deriving DecidableEq, Repr

namespace Comparison

/-- The comparisons in a run; `before` is what stands before the run, in reverse. -/
def listFrom (before : List Token) : List Token → List Comparison
  | [] => []
  | t :: rest =>
    if t.isOpIn ["==", "!="] && !before.isEmpty then
      ⟨before, t, Cancellation.operand rest⟩ :: listFrom (t :: before) rest
    else listFrom (t :: before) rest

/-- The comparisons for equality in a run that something stands before. -/
def list (tokens : List Token) : List Comparison := listFrom [] tokens

/-- The token before the operator. -/
def left (c : Comparison) : Token := c.before.headD default

/-- Whether the token before the operator is named like an error. -/
def leftIsError (c : Comparison) : Bool := c.left.isIdent && Name.isError c.left.text

/-- Whether the operand after the operator is one token named like an error. -/
def rightIsError (c : Comparison) : Bool :=
  match c.right with
  | [t] => Name.isError t.text
  | _ => false

/-- The operand after the operator as text. -/
def rightText (c : Comparison) : String := Token.render c.right

/-- What the comparison tells about an error. -/
def guard (c : Comparison) : Option Guard :=
  if c.leftIsError && c.rightText == "nil" then some .nilCheck
  else if (c.leftIsError && c.rightText != "") || (c.rightIsError && c.left.text != "nil") then
    some .sentinel
  else none

end Comparison

namespace Guard

/-- The strongest guard that a condition expresses. -/
def ofCondition (tokens : List Token) : Option Guard :=
  let text := Token.render tokens
  let compared := (Comparison.list tokens).foldl (fun g c => stronger g c.guard) none
  if Text.contains text "errors.Is(" || compared == some sentinel then some sentinel
  else if Text.contains text "errors.As(" || Text.contains text ".(" then some typeAssert
  else compared

/-- The guard that the first part of a branch's header establishes by what it assigns. -/
def ofInit (tokens : List Token) : Option Guard :=
  match Token.cutAssignment tokens with
  | none => none
  | some a =>
    let text := Token.render a.right
    if Text.startsWith text "errors.Is(" then some sentinel
    else if Text.startsWith text "errors.As(" then some typeAssert
    else if Call.isTypeAssertion a.right && a.right.head?.any fun t => t.isIdent && Name.isError t.text then
      some typeAssert
    else none

end Guard

/-- What an expression in an error position is. -/
inductive Handling where
  | nil
  | bare
  | sentinel
  | other
  | asserted
  | wrapped
  | constructed
  | delegated
deriving DecidableEq, Repr

namespace Handling

/-- The name of a way of handling. -/
def name : Handling → String
  | nil => "nil"
  | bare => "bare"
  | sentinel => "sentinel"
  | other => "other"
  | asserted => "asserted"
  | wrapped => "wrapped"
  | constructed => "constructed"
  | delegated => "delegated"

/-- Calls that wrap an error. -/
def wrappingCalls : List String :=
  ["errors.Wrap", "errors.Wrapf", "errors.WithMessage", "errors.WithMessagef", "errors.WithStack",
   "errors.Join"]

mutual

/-- Whether names and points alternate, a name being next. -/
def isNameNext : List Token → Bool
  | [] => true
  | t :: rest => t.isIdent && isPointNext rest

/-- Whether names and points alternate, a point being next. -/
def isPointNext : List Token → Bool
  | [] => true
  | t :: rest => t.isOp "." && isNameNext rest

end

/-- What a call with the given callee and contents of the parentheses makes of an error. -/
def ofCall (callee : String) (inner : List Token) : Handling :=
  if wrappingCalls.contains callee then wrapped
  else if callee == "fmt.Errorf" then
    if inner.head?.any fun t => t.kind == .string && Text.contains t.text "%w" then wrapped
    else constructed
  else if callee == "errors.New" then constructed
  else delegated

/-- What an expression in an error position is, where `known` tells the names in scope. -/
def ofExpression (known : String → Bool) (tokens : List Token) : Handling :=
  match tokens with
  | [] => other
  | first :: rest =>
    if Token.render tokens == "nil" then nil
    else if rest.isEmpty && first.isIdent then
      if first.text == "err" || known first.text then bare else sentinel
    else if isNameNext tokens then if known first.text then other else sentinel
    else if Call.isTypeAssertion tokens then asserted
    else
      match Call.whole? tokens with
      | some (callee, inner) => ofCall (Token.render callee) inner
      | none =>
        if first.isOp "&" || tokens.getLast?.any (·.isOp "\x7d") then constructed else other

end Handling

end GoIdiom
