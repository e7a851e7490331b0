import GoIdiom.Text.Search
import GoIdiom.Token
import GoIdiom.Token.Split

/-!
# Parameter lists and results

A parameter list is read from the tokens between its parentheses. When one entry has a name, the
entries that are a single word are names too and share the type of the next entry that has one.
-/

namespace GoIdiom

/-- A parameter or result. The position is that of its first token. -/
structure Param where
  name : Option String
  type : String
  variadic : Bool
  pos : Position
deriving DecidableEq, Repr, Inhabited

namespace Param

/-- Whether the type is written as a pointer. -/
def isPointer (p : Param) : Bool := Text.startsWith p.type "*"

end Param

/-- One entry of a parameter list before its type is shared. -/
structure ParamEntry where
  name : Option String
  typeTokens : List Token
  first : Token
deriving DecidableEq, Repr

namespace Signature

/-- Whether the contents of brackets after a word make an array or slice type of what follows, so that
the word is a name, rather than type arguments of the word. -/
def isArrayLength : List Token → Bool
  | [] => true
  | [t] => t.kind == .number || t.isOp "..."
  | t :: _ => t.isOp "..."

/-- Whether the run begins with a declared name that a type follows. -/
def declaresName : List Token → Bool
  | first :: second :: rest =>
    first.isIdent && !second.isOp "." &&
      (!second.isOp "[" || (Token.closeGroup rest).any (isArrayLength ·.inner))
  | _ => false

/-- Reads one entry. -/
def entryOf : List Token → Option ParamEntry
  | [] => none
  | first :: rest =>
    if declaresName (first :: rest) then some ⟨some first.text, rest, first⟩
    else some ⟨none, first :: rest, first⟩

/-- Gives names without a type the type of the next entry that has one. The first component is the
type that an entry before these would take. -/
def shareTypes : List ParamEntry → List Token × List ParamEntry
  | [] => ([], [])
  | e :: rest =>
    let (pending, done) := shareTypes rest
    match e.name, e.typeTokens with
    | none, [t] =>
      if t.isIdent then (pending, ⟨some t.text, pending, e.first⟩ :: done)
      else (e.typeTokens, e :: done)
    | _, _ => (e.typeTokens, e :: done)

/-- The parameter that an entry stands for. -/
def paramOf (e : ParamEntry) : Param :=
  match e.typeTokens with
  | t :: rest =>
    if t.isOp "..." then ⟨e.name, Token.render rest, true, e.first.pos⟩
    else ⟨e.name, Token.render (t :: rest), false, e.first.pos⟩
  | [] => ⟨e.name, "", false, e.first.pos⟩

/-- The parameters between a pair of brackets. -/
def params (inner : List Token) : List Param :=
  let entries := (Token.splitParts (·.isOp ",") inner).filterMap entryOf
  (if entries.any (·.name.isSome) then (shareTypes entries).2 else entries).map paramOf

/-- The results written between a parameter list and what ends the signature. -/
def results : List Token → List Param
  | [] => []
  | t :: rest =>
    if t.isOp "(" then
      match Token.closeGroup rest with
      | some g => params g.inner
      | none => []
    else [⟨none, Token.render (t :: rest), false, t.pos⟩]

end Signature

end GoIdiom
