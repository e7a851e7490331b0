import GoIdiom.Document.Toml.Fault
import GoIdiom.Text.CharClass
import GoIdiom.Text.Search

/-!
# Dividing lists and inline tables

A list is divided at its commas before its items are read. In a list of texts, pieces are joined again until
their marks close; in a list of tables, braces decide; in a list of lists, brackets do. The entries of a
table on one line are joined again until their values look complete.
-/

namespace GoIdiom.Document.Toml

/-- Drops the blanks around characters. -/
def strip (cs : List Char) : List Char := Text.stripChars Text.isBlank cs

/-- Two pieces with the comma between them. -/
def rejoin (a b : List Char) : List Char := a ++ ',' :: b

/-- Whether the first thing inside the brackets of a list is a text. -/
def isTextList (cs : List Char) : Bool := (strip (inside cs)).head?.any isMark

/-- Whether a piece ends with the character that it begins with, unless a backslash escapes it. -/
def isBounded (piece : List Char) : Bool :=
  piece.isEmpty || (piece.getLast? == piece.head? && !endsEscaping (inside piece))

/-- Whether a piece begins with three equal characters, and neither of the two before its last is equal to
them. -/
def isUnfinishedLong (piece : List Char) : Bool :=
  match piece, piece.reverse with
  | a :: b :: c :: _, _ :: y :: z :: _ => a == b && b == c && y != a && z != a
  | _, _ => false

/-- Whether a piece is a complete text. -/
def isWholeText (piece : List Char) : Bool := isBounded (strip piece) && !isUnfinishedLong (strip piece)

/-- Joins pieces of a list of texts until each is complete. The last piece is not looked at. -/
def joinTexts (begun : Option (List Char)) : List (List Char) → Read (List (List Char))
  | [] => if begun.isSome then .error .cutShort else .ok []
  | piece :: rest =>
    let joined := begun.elim piece (rejoin · piece)
    if begun.isNone && rest.isEmpty then .ok [piece]
    else if isWholeText joined then (joinTexts none rest).map (joined :: ·)
    else joinTexts (some joined) rest

/-- A place in a list of tables: right behind a table, before the next one, or in one, with what it holds so
far kept from its end. -/
inductive BracePlace where
  | behind
  | between
  | within (inText : Bool) (depth : Nat) (held : List Char)

/-- The tables of a list of tables, each with its braces. One that is not closed is dropped. -/
def bracedItems : BracePlace → List Char → List (List Char)
  | _, [] => []
  | .behind, _ :: rest => bracedItems .between rest
  | .between, c :: rest => bracedItems (if c = '\x7b' then .within false 1 [c] else .between) rest
  | .within inText depth held, c :: rest =>
    let inText := if isMark c then !inText || escapes held else inText
    let depth := if !inText && c == '\x7b' then depth + 1 else depth
    if inText || c ≠ '\x7d' then bracedItems (.within inText depth (c :: held)) rest
    else if depth > 1 then bracedItems (.within inText (depth - 1) (c :: held)) rest
    else (c :: held).reverse :: bracedItems .behind rest

/-- The pieces between commas outside brackets. -/
def splitNested (depth : Int) : List Char → List (List Char)
  | [] => [[]]
  | c :: rest =>
    if c = ',' && depth == 0 then [] :: splitNested depth rest
    else
      let depth := if c = '[' then depth + 1 else if c = ']' then depth - 1 else depth
      match splitNested depth rest with
      | [] => [[c]]
      | piece :: pieces => (c :: piece) :: pieces

/-- The items of a list with its brackets. -/
def listItems (cs : List Char) : Read (List (List Char)) :=
  let body := inside cs
  if body.contains '[' && (strip (body.takeWhile (· != '['))).isEmpty then .ok (splitNested 0 body)
  else if (strip body).head? == some '\x7b' then
    match body with
    | first :: rest => .ok (bracedItems (.within false (if first = '\x7b' then 1 else 0) [first]) rest)
    | [] => .ok []
  else if isTextList cs then joinTexts none (Text.splitChars ',' body)
  else .ok (Text.splitChars ',' body)

/-- Whether the value of an entry looks complete: it begins like a number, is a truth value, or ends with
the character that closes its first one. -/
def looksWhole (value : List Char) : Bool :=
  value == "true".toList || value == "false".toList ||
    match value.head?, value.getLast? with
    | some a, some b =>
      a == '-' || a.isDigit || (isMark a && b == a) || (a == '[' && b == ']') || (a == '\x7b' && b == '\x7d')
    | _, _ => false

/-- Joins pieces of a table on one line until each is an entry. -/
def joinEntries (begun : Option (List Char)) : List (List Char) → Read (List (List Char))
  | [] => if begun.isSome then .error .malformed else .ok []
  | piece :: rest =>
    let joined := begun.elim piece (rejoin · piece)
    match Text.cutNth? ['='] 1 joined with
    | none => .error .malformed
    | some (_, value) =>
      if (strip value).isEmpty then .error .cutShort
      else if looksWhole (strip value) then (joinEntries none rest).map (joined :: ·)
      else joinEntries (some joined) rest

/-- The entries of a table on one line with its braces. -/
def inlineEntries (cs : List Char) : Read (List (List Char)) :=
  if (strip (inside cs)).isEmpty then .ok [] else joinEntries none (Text.splitChars ',' (inside cs))

end GoIdiom.Document.Toml
