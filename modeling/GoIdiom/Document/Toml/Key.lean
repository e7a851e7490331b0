import GoIdiom.Document.Toml.Fault
import GoIdiom.Text.Numeral
import GoIdiom.Text.Search
import GoIdiom.Text.CharClass

/-!
# Keys

The names in keys and headers, which may stand between marks.
-/

/-!
## Quoted texts

What stands between marks, escapes read. Escapes with code points are read before the short ones, and
between apostrophes there are none.
-/

namespace GoIdiom.Document.Toml

/-- The characters that short escapes stand for. -/
def shortEscapes : List (Char × Char) :=
  [('0', '\x00'), ('b', '\x08'), ('f', '\x0c'), ('n', '\n'), ('r', '\r'), ('t', '\t'), ('"', '"')]

/-- Reads the short escapes. Escapes with code points are kept. -/
def readEscapes : List Char → Read (List Char)
  | '\\' :: c :: rest =>
    match shortEscapes.lookup c with
    | some d => (readEscapes rest).map (d :: ·)
    | none =>
      if c = '\\' then (readEscapes rest).map ('\\' :: ·)
      else if c = 'u' || c = 'U' then (readEscapes rest).map ('\\' :: c :: ·)
      else .error .malformed
  | c :: rest => (readEscapes rest).map (c :: ·)
  | [] => .ok []

/-- The character with a code point. Surrogates are no characters. -/
def charOfCode (code : Nat) : Read Char :=
  if code ≥ Nat.pow 2 31 then .error .beyondRange
  else if code.isValidChar then .ok (Char.ofNat code)
  else .error .malformed

/-- The character that the hexadecimal digits of an escape stand for. -/
def charOfDigits (digits : List Char) : Read Char :=
  if digits.any fun c => (Text.digitValue? c).isNone then .error .malformed
  else
    match digits with
    | [] => .error .cutShort
    | first :: rest =>
      if first.toLower = 'd' then
        match rest with
        | [] => .error .cutShort
        | second :: _ =>
          if '0' ≤ second && second ≤ '7' then charOfCode ((Text.wholeIn? 16 digits).getD 0)
          else .error .malformed
      else charOfCode ((Text.wholeIn? 16 digits).getD 0)

/-- Reads the escapes with code points between occurrences of their opening. One that a backslash escapes
is kept. -/
def readCodesIn (opening : List Char) (width : Nat) (escaped : Bool) : List (List Char) → Read (List Char)
  | [] => .ok []
  | piece :: rest =>
    if escaped then (readCodesIn opening width (endsEscaping piece) rest).map (opening ++ piece ++ ·)
    else do
      let c ← charOfDigits (piece.take width)
      let more ← readCodesIn opening width false rest
      pure (c :: piece.drop width ++ more)

/-- Reads the escapes with code points of the given width. -/
def readCodes (opening : List Char) (width : Nat) (cs : List Char) : Read (List Char) :=
  match Text.splitRun opening cs with
  | first :: rest => (readCodesIn opening width (endsEscaping first) rest).map (first ++ ·)
  | [] => .ok []

/-- Whether every backslash begins an escape, from the pieces after the backslashes. -/
def escapesFit (escaped : Bool) : List (List Char) → Bool
  | [] => true
  | [] :: rest => escapesFit (!escaped) rest
  | (c :: _) :: rest =>
    (escaped || c == 'u' || c == 'U' || (shortEscapes.lookup c).isSome) && escapesFit false rest

/-- Whether nothing follows the mark that closes a text, from the pieces between marks. A long text closes
only after two marks in a row. -/
def marksFit (isLong closed : Bool) (inRow : Nat) : List (List Char) → Bool
  | [] => true
  | piece :: rest =>
    if piece.isEmpty then
      if isLong then marksFit isLong closed (inRow + 1) rest else marksFit isLong true inRow rest
    else if endsEscaping piece then marksFit isLong closed inRow rest
    else if closed then false
    else if !isLong || inRow > 1 then marksFit isLong true inRow rest
    else marksFit isLong closed 0 rest

/-- Whether the pieces between marks are those of a text that closes once. -/
def closesOnce : List (List Char) → Bool
  | [] :: [] :: rest => marksFit true false 0 rest
  | pieces => marksFit false false 0 pieces

/-- Takes the marks off a text: three on either side if the second and third character are marks too. -/
def unmarked (mark : Char) (cs : List Char) : List Char :=
  match cs with
  | [_, b] => if b = mark then [] else inside cs
  | _ :: b :: c :: _ => if b = mark && b = c then inside (inside (inside cs)) else inside cs
  | _ => inside cs

/-- Reads all escapes of a text, its marks included. -/
def readAllEscapes (cs : List Char) : Read (List Char) := do
  if !escapesFit false (Text.splitChars '\\' cs).tail then .error .malformed
  let cs ← readCodes ['\\', 'u'] 4 cs
  let cs ← readCodes ['\\', 'U'] 8 cs
  readEscapes cs

/-- The text that characters with marks stand for. -/
def readText (mark : Char) (cs : List Char) : Read String := do
  if !closesOnce (Text.splitChars mark cs.tail) then .error .malformed
  let read ← if mark = '"' then readAllEscapes cs else pure cs
  pure (String.ofList (unmarked mark read))

/-!
## Keys and headers

Points divide the key of an entry and the name in a header into the names that lead to a table. What stands
between marks is not divided: a line is cut at its marks into pieces, every second of which counts as
quoted.
-/

/-- Joins the pieces between quotation marks until the apostrophes before them are paired. Gives the pieces
between apostrophes and what is left. -/
def pairApostrophes (pieces : List (List Char)) : List (List Char) → List (List Char) × List (List Char)
  | [] => (pieces, [])
  | next :: rest =>
    if pieces.length % 2 = 1 then (pieces, next :: rest)
    else
      let last := pieces.getLast?.getD [] ++ '"' :: next
      pairApostrophes (pieces.dropLast ++ Text.splitChars '\'' last) rest

/-- Cuts the first piece at its apostrophes. -/
def cutFirstPiece : List (List Char) → List (List Char)
  | [] => []
  | piece :: rest => Text.splitChars '\'' piece ++ rest

/-- The pieces of a line between marks. Apostrophes count before the first quotation mark, and between
marks they are part of the text. -/
def markPieces (line : List Char) : List (List Char) :=
  match Text.splitChars '"' line with
  | first :: second :: rest =>
    if first.contains '\'' then
      let (pieces, left) := pairApostrophes (Text.splitChars '\'' first) (second :: rest)
      pieces ++ cutFirstPiece left
    else cutFirstPiece (first :: second :: rest)
  | pieces => cutFirstPiece pieces

/-- The number of separators before the first piece outside marks that holds one. -/
def separatorsBefore (separator : List Char) (quoted : Bool) : List (List Char) → Nat
  | [] => 0
  | piece :: rest =>
    let count := (Text.splitRun separator piece).length - 1
    if !quoted && count != 0 then 0 else count + separatorsBefore separator (!quoted) rest

/-- The number of the first separator of a line that stands outside marks. -/
def separatorNumber (separator line : List Char) : Nat :=
  1 + separatorsBefore separator false (markPieces line)

/-- Drops empty names at the end. -/
def dropEmptyLast (names : List (List Char)) : List (List Char) :=
  (names.reverse.dropWhile (·.isEmpty)).reverse

/-- The names of a key in pieces between marks: points divide every other piece. -/
def namesOfPieces (quoted : Bool) : List (List Char) → List (List Char)
  | [] => []
  | piece :: rest =>
    (if quoted then [piece] else (Text.splitChars '.' piece).map (Text.stripChars Text.isBlank)) ++
      namesOfPieces (!quoted) rest

/-- The names that points divide a key into. Without marks the blanks around them are kept. -/
def dottedNames (key : List Char) : List (List Char) :=
  dropEmptyLast
    (if key.any isMark then namesOfPieces false (markPieces key) else Text.splitChars '.' key)

/-- Where an entry stands: the tables that lead to it, and its own name. -/
structure Key where
  path : List String
  name : String
deriving DecidableEq, Repr

/-- The key of an entry. Empty names on the way are passed over, and escapes are read only in a single
quoted name. -/
def Key.ofChars (key : List Char) : Read Key :=
  if key.contains '.' then
    match (dottedNames key).getLast? with
    | none => .error .cutShort
    | some last =>
      .ok ⟨(((dottedNames key).dropLast).filter fun n => !n.isEmpty).map String.ofList,
        String.ofList (Text.stripChars Text.isBlank last)⟩
  else
    match key with
    | [] => .error .cutShort
    | mark :: _ =>
      if isMark mark && key.getLast? == some mark then do
        pure ⟨[], String.ofList (← readEscapes (inside key))⟩
      else .ok ⟨[], String.ofList key⟩

/-- Whether a quoted name is closed. -/
def isClosedName (name : List Char) : Bool := name.length != 1 && name.getLast? == name.head?

/-- Whether a name without marks may stand in a header. -/
def isBareName (name : List Char) : Bool :=
  !name.isEmpty && name.all fun c => c.isAlphanum || c == '_' || c == '-'

/-- The names of a header from the pieces between its points. A quoted name that is not closed goes on in
the next piece. -/
def headerNames (begun : Option (List Char)) : List (List Char) → Read (List String)
  | [] => if begun.isSome then .error .malformed else .ok []
  | piece :: rest => do
    let joined := match begun with
      | some before => before ++ '.' :: piece
      | none => Text.stripChars Text.isBlank piece
    let name := Text.stripChars Text.isBlank joined
    if name.head?.any isMark then
      if isClosedName name then pure (String.ofList (inside name) :: (← headerNames none rest))
      else headerNames (some joined) rest
    else if isBareName name then pure (String.ofList name :: (← headerNames none rest))
    else .error .malformed

/-- The names in a header, which ends with the given brackets and stands on its line alone. -/
def header (closing line : List Char) : Read (List String) :=
  match Text.cutNth? closing (separatorNumber closing line) line with
  | some (before, after) =>
    if (Text.stripChars Text.isBlank after).isEmpty then headerNames none (Text.splitChars '.' before)
    else .error .malformed
  | none => .error .malformed

end GoIdiom.Document.Toml
