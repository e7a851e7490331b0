import GoIdiom.Statement.Block
import GoIdiom.Token.Bracket

/-!
# Reading a token list by indices

The readers of statements take lists apart. The same reading can be done in place: a position is an index into the
token list, a run is a range of indices, and the closer of an opener is looked up among the pairs of brackets. Read
this way, the loops and searches could look behind the end of the list, miss a pair, or not go on. Here every
look-up and every step of a loop is checked, and a check that fails stops the reading with its own cause.
-/

namespace GoIdiom

/-- A token list with the pairs of its brackets, which are all matched. -/
structure Pairing where
  tokens : List Token
  pairs : List (Nat × Nat)
  matched : Token.matchBrackets tokens = .ok pairs

/-- The indices from the first one up to another. -/
structure Range where
  first : Nat
  stop : Nat
deriving DecidableEq, Repr

/-- The number of indices. -/
def Range.size (r : Range) : Nat := r.stop - r.first

/-- Why reading stops: an index outside the list, an index that begins no pair, a loop that does not go on, a range
that is not inside another one as it has to be, or a fault of the source. -/
inductive Stop where
  | outside (index : Nat)
  | unpaired (index : Nat)
  | stuck (index next : Nat)
  | misplaced (outer inner : Range)
  | fault (f : SourceFault)
deriving DecidableEq, Repr

/-- The index that a loop goes on with, which has to be a later one. -/
def Stop.advance (index next : Nat) : Except Stop { n : Nat // index < n } :=
  if h : index < next then .ok ⟨next, h⟩ else .error (.stuck index next)

open Stop (advance)

namespace Pairing

variable (p : Pairing)

/-! ## Look-ups -/

/-- The token at an index. -/
def token (index : Nat) : Except Stop Token :=
  match p.tokens[index]? with
  | some t => .ok t
  | none => .error (.outside index)

/-- The index of the bracket that closes the one at an index. -/
def closer (index : Nat) : Except Stop Nat :=
  match p.pairs.lookup index with
  | some close => .ok close
  | none => .error (.unpaired index)

/-- The index after a token, or after the group that it opens. -/
def skip (index : Nat) : Nat :=
  match p.pairs.lookup index with
  | some close => close + 1
  | none => index + 1

/-- The tokens in a range. -/
def slice (first stop : Nat) : List Token := (p.tokens.drop first).take (stop - first)

/-- Whether every bracket in a range has its partner in the range. -/
def isClosed (r : Range) : Bool := (Token.matchBrackets (p.slice r.first r.stop)).toOption.isSome

/-- Checks that a range is inside another one, and that its brackets are closed. -/
def within (outer inner : Range) : Except Stop (PLift (inner.size ≤ outer.size)) :=
  if h : outer.first ≤ inner.first ∧ inner.first ≤ inner.stop ∧ inner.stop ≤ outer.stop ∧
    p.isClosed inner = true then
    .ok ⟨by simp only [Range.size]; omega⟩
  else .error (.misplaced outer inner)

/-- Checks that a range is inside another one and smaller, and that its brackets are closed. -/
def narrow (outer inner : Range) : Except Stop (PLift (inner.size < outer.size)) := do
  let _ ← p.within outer inner
  if h : inner.size < outer.size then .ok ⟨h⟩ else .error (.misplaced outer inner)

/-- A fault at an index, or at the last token if the index is behind it. -/
def faultAt {α : Type} (cause : SourceCause) (index : Nat) : Except Stop α := do
  let t ← p.token (min index (p.tokens.length - 1))
  .error (.fault ⟨cause, t.pos⟩)

/-- Whether the token at an index satisfies a condition, if the index is before the end. -/
def holdsAt (condition : Token → Bool) (index stop : Nat) : Except Stop Bool :=
  if index < stop then (p.token index).map condition else .ok false

/-- Whether the tokens at an index and after it satisfy conditions, both before the end. -/
def holdsTwice (first second : Token → Bool) (index stop : Nat) : Except Stop Bool := do
  let t ← p.token index
  if first t then p.holdsAt second (index + 1) stop else pure false

/-- Whether braces at an index hold the fields or methods of a type, by the token before them. -/
def opensType (index : Nat) : Except Stop Bool :=
  if 0 < index then (p.token (index - 1)).map Block.opensType else .ok false

/-! ## Loops over a range -/

/-- The index of the first token outside brackets that stops the loop, or the end. -/
def scan (stops : Token → Bool) (index stop : Nat) : Except Stop Nat :=
  if index < stop then do
    let t ← p.token index
    if stops t then pure index
    else
      let ⟨next, _⟩ ← advance index (p.skip index)
      scan stops next stop
  else pure index
termination_by stop - index

/-- The index of the semicolon that ends the statement at an index. -/
def statementEnd (index stop : Nat) : Except Stop Nat := do
  let last ← p.scan (·.isSemi) index stop
  pure (min last stop)

/-- The ranges between separators outside brackets, the first of which has already begun. -/
def ranges (separates : Token → Bool) (first index stop : Nat) : Except Stop (List Range) :=
  if index < stop then do
    let t ← p.token index
    if separates t then do
      let ⟨next, _⟩ ← advance index (index + 1)
      let more ← ranges separates next next stop
      pure (⟨first, index⟩ :: more)
    else
      let ⟨next, _⟩ ← advance index (p.skip index)
      ranges separates first next stop
  else pure [⟨first, stop⟩]
termination_by stop - index

/-- The ranges between separators outside brackets, empty ones left out. -/
def split (separates : Token → Bool) (index stop : Nat) : Except Stop (List Range) := do
  let found ← p.ranges separates index index stop
  pure (found.filter fun r => r.first < r.stop)

/-- The indices of the tokens outside brackets that begin something. -/
def starts (begins : Token → Bool) (index stop : Nat) : Except Stop (List Nat) :=
  if index < stop then do
    let t ← p.token index
    if begins t then do
      let ⟨next, _⟩ ← advance index (index + 1)
      let more ← starts begins next stop
      pure (index :: more)
    else
      let ⟨next, _⟩ ← advance index (p.skip index)
      starts begins next stop
  else pure []
termination_by stop - index

/-! ## Searching braces -/

/-- The index of the brace that opens the body after a signature. -/
def bodyBrace (index stop : Nat) : Except Stop (Option Nat) :=
  if index < stop then do
    let t ← p.token index
    if t.isSemi then pure none
    else if t.isOp "\x7b" then do
      if ← p.opensType index then
        let close ← p.closer index
        let ⟨next, _⟩ ← advance index (close + 1)
        bodyBrace next stop
      else pure (some index)
    else
      let ⟨next, _⟩ ← advance index (p.skip index)
      bodyBrace next stop
  else pure none
termination_by stop - index

/-- The braces of the body of a function literal that begins at an index. A function type has none. -/
def literalBraces (index stop : Nat) : Except Stop (Option Range) := do
  if ← p.holdsTwice (·.isKeyword "func") (·.isOp "(") index stop then
    let paramsClose ← p.closer (index + 1)
    match ← p.bodyBrace (paramsClose + 1) stop with
    | some opener => do
      let close ← p.closer opener
      pure (some ⟨opener, close⟩)
    | none => pure none
  else pure none

/-- Whether a statement ends before an index, an other branch counting as its end. -/
def endsAt (index stop : Nat) : Except Stop Bool :=
  if index < stop then (p.token index).map fun t => t.isSemi || t.isKeyword "else" || t.isOp "\x7d" else .ok true

/-- The index of the brace that opens the block after the header of a keyword, searched from an index on. -/
def blockBrace (keyword index stop : Nat) : Except Stop Nat :=
  if index < stop then do
    let t ← p.token index
    match ← p.literalBraces index stop with
    | some braces => do
      let ⟨next, _⟩ ← advance index (braces.stop + 1)
      blockBrace keyword next stop
    | none =>
      if t.isOp "\x7b" then do
        let close ← p.closer index
        if ← p.opensType index then
          let ⟨next, _⟩ ← advance index (close + 1)
          blockBrace keyword next stop
        else if ← p.endsAt (close + 1) stop then pure index
        else
          let ⟨next, _⟩ ← advance index (close + 1)
          blockBrace keyword next stop
      else
        let ⟨next, _⟩ ← advance index (p.skip index)
        blockBrace keyword next stop
  else p.faultAt .missingBlock keyword
termination_by stop - index

end Pairing

end GoIdiom
