import GoIdiom.Text.Search
import GoIdiom.Token
import GoIdiom.Token.Split

/-!
# Calls and comparisons in token runs

Expressions stay flat, so calls are found by their parentheses: a chain of selectors ending in a name
stands before them.
-/

namespace GoIdiom

/-- A call: its callee and arguments, its tokens, and whether it is all of the run it was found in. -/
structure Call where
  callee : List Token
  arguments : List (List Token)
  tokens : List Token
  isWholeRun : Bool
deriving DecidableEq, Repr

namespace Call

/-- The callee as text. -/
def name (c : Call) : String := Token.render c.callee

/-- The first token of the call. -/
def first (c : Call) : Token := c.callee.headD default

/-- The last part of the callee. -/
def lastName (c : Call) : String :=
  match Text.cutLast c.name '.' with
  | some (_, last) => last
  | none => c.name

/-- What the function is selected from. -/
def receiver (c : Call) : Option String := (Text.cutLast c.name '.').map (·.1)

/-- The selector chain that ends a run, given in reverse order, and what stands before the chain. -/
def chainBack : List Token → List Token × List Token
  | name :: dot :: selected :: rest =>
    if dot.isOp "." && selected.isIdent then
      let (chain, before) := chainBack (selected :: rest)
      (chain ++ [dot, name], before)
    else ([name], dot :: selected :: rest)
  | name :: rest => ([name], rest)
  | [] => ([], [])

/-- The calls whose parenthesis is in the run; `before` is what stands before the run, in reverse. -/
def listFrom (before : List Token) : List Token → List Call
  | [] => []
  | t :: rest =>
    let here :=
      if t.isOp "(" && before.head?.any (·.isIdent) then
        match Token.closeGroup rest with
        | some g =>
          let (chain, outside) := chainBack before
          [{ callee := chain
             arguments := Token.commaItems g.inner
             tokens := chain ++ t :: (g.inner ++ [g.closer])
             isWholeRun := outside.isEmpty && g.rest.isEmpty }]
        | none => []
      else []
    here ++ listFrom (t :: before) rest

/-- Every call in a token run, in the order of the opening parentheses. -/
def list (tokens : List Token) : List Call := listFrom [] tokens

/-- Cuts a run that is one call, of any function expression, into callee and contents of the
parentheses. -/
def whole? (tokens : List Token) : Option (List Token × List Token) :=
  if tokens.getLast?.any (·.isOp ")") then
    match Token.lastGroup? tokens with
    | some (callee, inner) =>
      if callee.getLast?.any fun t => t.isIdent || t.isOpIn [")", "]", "\x7d"] then some (callee, inner)
      else none
    | none => none
  else none

/-- Whether a run is a type assertion. -/
def isTypeAssertion (tokens : List Token) : Bool :=
  tokens.getLast?.any (·.isOp ")") &&
    (Token.lastGroup? tokens).any fun (before, _) => before.getLast?.any (·.isOp ".")

end Call

end GoIdiom
