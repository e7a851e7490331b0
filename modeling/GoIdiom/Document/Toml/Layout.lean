import GoIdiom.Document.Toml.Fault
import GoIdiom.Text.CharClass
import GoIdiom.Text.Search
import GoIdiom.Text.Word

/-!
# Lines of a configuration file

The first pass over a file keeps every character in its place. Comments become blanks, a list on several
lines is joined into one line, and keys, marks and brackets are checked as far as they can be without
reading any value. The text is looked at as a ring: what stands before its first character is its end.
-/

namespace GoIdiom.Document.Toml

/-- Whether a key is being read: none, a name of it, or what follows a name. -/
inductive KeyPart where
  | none
  | name
  | gap
deriving DecidableEq, Repr

/-- Whether a header is open: none, that of a table, or that of an item of a list of tables. -/
inductive OpenHeader where
  | none
  | table
  | item
deriving DecidableEq, Repr

/-- The state of the first pass. What has been laid out is kept from its end, `lists` counts the brackets
that are open, and a line is `fresh` while it holds blanks only. -/
structure Layout where
  behind : List Char
  quote : Option Char
  long : Bool
  lists : Int
  header : OpenHeader
  key : KeyPart
  dotted : Bool
  fresh : Bool
  comment : Bool
deriving DecidableEq, Repr

namespace Layout

/-- The state before the first character of a text. -/
def start (text : List Char) : Layout :=
  { behind := text.reverse
    quote := none
    long := false
    lists := 0
    header := .none
    key := .none
    dotted := false
    fresh := true
    comment := false }

/-- Lays out a character. -/
def push (l : Layout) (c : Char) : Layout := { l with behind := c :: l.behind }

/-- What follows a name goes on until a further name begins. -/
def pushGap (l : Layout) (c : Char) (next : Option Char) : Read Layout :=
  match next with
  | some n => .ok { l.push c with key := if Text.isBlank n || n == '.' then .gap else .name }
  | none => .error .cutShort

/-- Whether a character may stand in a name without marks. -/
def isNameChar (c : Char) : Bool := Text.isWord c || c == '-'

/-- A character of a quoted name. -/
def stepQuotedName (l : Layout) (mark c : Char) : Layout :=
  if c = mark && !escapes l.behind then { l.push c with key := .gap, quote := none } else l.push c

/-- A character after which a key ends, or which a key may not hold. -/
def endKey (l : Layout) (c : Char) : Read Layout :=
  if c = '=' then .ok { l.push c with key := .none, dotted := false } else .error .malformed

/-- A character of a name without marks. -/
def stepName (l : Layout) (c : Char) : Read Layout :=
  if Text.isBlank c then .ok { l.push c with key := .gap }
  else if c = '.' then .ok { l.push c with dotted := true }
  else if isNameChar c then .ok (l.push c)
  else if l.dotted && l.behind.head? == some '.' && isMark c then .ok { l.push c with quote := some c }
  else l.endKey c

/-- A character after a name. -/
def stepGap (l : Layout) (c : Char) (next : Option Char) : Read Layout :=
  if Text.isBlank c then if l.dotted then l.pushGap c next else .ok (l.push c)
  else if c = '.' then { l with dotted := true }.pushGap c next
  else l.endKey c

/-- A character of a key. -/
def stepKey (l : Layout) (c : Char) (next : Option Char) : Read Layout :=
  if c = '\n' then .error .malformed
  else
    match l.quote with
    | some mark => .ok (l.stepQuotedName mark c)
    | none => if l.key = .name then l.stepName c else l.stepGap c next

/-- A mark opens or closes a text. The third in a row opens or closes a text on several lines; quotation
marks count only if they are not escaped. -/
def turnMark (l : Layout) (c : Char) : Layout :=
  let third := l.behind.take 2 == [c, c]
  let single := l.behind.head? != some c
  let escaped := c == '"' && (third || single) && escapes (if third then l.behind.drop 2 else l.behind)
  if escaped then l
  else if third then { l with long := !l.long, quote := if l.long then none else some c }
  else { l with quote := if l.quote.isSome then none else some c }

/-- A bracket outside texts belongs to a header if it begins a line or closes an open header, and to a
list elsewhere. -/
def turnBracket (l : Layout) (c : Char) (next : Option Char) : Layout :=
  match c, l.header with
  | '[', .none =>
    if l.fresh then { l with header := if next == some '[' then .item else .table }
    else { l with lists := l.lists + 1 }
  | ']', .none => { l with lists := l.lists - 1 }
  | ']', .table => { l with header := .none }
  | ']', .item => if l.behind.head? == some ']' then { l with header := .none } else l
  | _, _ => l

/-- The end of a line in a text. After two marks it becomes a further one, and the first of three marks
becomes blank, so that a line break after three marks is dropped. -/
def joinText (l : Layout) : Layout :=
  match l.behind with
  | a :: b :: c :: rest =>
    if isMark a && b == a then { l with behind := a :: a :: a :: (if c = a then ' ' else c) :: rest }
    else l.push '\n'
  | _ => l.push '\n'

/-- The end of a line. Only texts of the long kind go on behind it, and lists. -/
def endLine (l : Layout) : Read Layout :=
  if l.quote.isSome && !l.long then .error .malformed
  else if l.long then .ok l.joinText
  else if l.lists ≠ 0 then .ok (l.push ' ')
  else .ok { l.push '\n' with fresh := true }

/-- The first character of a line that is not blank begins a key, unless a header is open. -/
def beginKey (l : Layout) (c : Char) : Read Layout :=
  if !l.fresh || c = ' ' || c = '\t' then .ok l
  else if l.header ≠ .none then .ok { l with fresh := false }
  else if c = '=' then .error .malformed
  else .ok { l with fresh := false, key := .name }

/-- A character outside keys. -/
def stepValue (l : Layout) (c : Char) (next : Option Char) : Read Layout :=
  if c = '\n' then { l with comment := false }.endLine
  else if l.comment then .ok (l.push ' ')
  else if isMark c && (l.quote == none || l.quote == some c) then do
    pure ((← (l.turnMark c).beginKey c).push c)
  else if l.quote.isSome then do pure ((← l.beginKey c).push c)
  else if c = '#' && l.header = .none then .ok { l.push ' ' with comment := true }
  else do pure ((← (l.turnBracket c next).beginKey c).push c)

/-- One character, the one after it being known. -/
def step (l : Layout) (c : Char) (next : Option Char) : Read Layout :=
  if l.key = .none then l.stepValue c next else l.stepKey c next

/-- Lays out characters. -/
def run (l : Layout) : List Char → Read Layout
  | [] => .ok l
  | c :: rest => do (← l.step c rest.head?).run rest

end Layout

/-- The lines of a text, with keys and texts closed. -/
def lines (text : List Char) : Read (List (List Char)) := do
  let l ← (Layout.start text).run text
  if l.key ≠ .none || l.quote.isSome then .error .malformed
  else pure (Text.splitChars '\n' (l.behind.take text.length).reverse)

end GoIdiom.Document.Toml
