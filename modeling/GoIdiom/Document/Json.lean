import GoIdiom.Document
import GoIdiom.Text.Numeral

/-!
# Documents in JSON

Documents are written either compactly or with every item on a line of its own, indented by two
blanks a level; characters outside ASCII are escaped by their sixteen-bit units. Reading keeps the
order of keys, lets the last of repeated keys win, and takes a number with a point or an exponent
for a double.
-/

namespace GoIdiom.Document

/-- How JSON text writes doubles without digits. -/
def jsonSpecials : Decimal.SpecialTexts := ⟨"Infinity", "NaN"⟩

/-- One sixteen-bit unit as an escape. -/
def unitEscape (unit : Nat) : List Char := '\\' :: 'u' :: Text.hexPadded 4 unit

/-- How one character is written in a JSON string. -/
def jsonChar (c : Char) : List Char :=
  if c = '"' || c = '\\' then ['\\', c]
  else if c = '\n' then ['\\', 'n']
  else if c = '\r' then ['\\', 'r']
  else if c = '\t' then ['\\', 't']
  else if c = '\x08' then ['\\', 'b']
  else if c = '\x0c' then ['\\', 'f']
  else if ' ' ≤ c && c ≤ '~' then [c]
  else if c.toNat < 0x10000 then unitEscape c.toNat
  else
    let offset := c.toNat - 0x10000
    unitEscape (0xD800 + offset / 0x400) ++ unitEscape (0xDC00 + offset % 0x400)

/-- A JSON string. -/
def jsonString (s : String) : String := "\"" ++ String.ofList (s.toList.flatMap jsonChar) ++ "\""

/-- A value without parts, if the document is one. -/
def jsonScalar : Document → String
  | null => "null"
  | bool value => if value then "true" else "false"
  | int value => toString value
  | float value => Decimal.text jsonSpecials value
  | text value => jsonString value
  | moment value => jsonString value.text
  | list _ => "[]"
  | table _ | inlineTable _ => "\x7b\x7d"

mutual

/-- The document on one line. -/
def compact : Document → String
  | list items => "[" ++ Text.joinWith "," (compactList items) ++ "]"
  | table entries | inlineTable entries => "\x7b" ++ Text.joinWith "," (compactTable entries) ++ "\x7d"
  | d => jsonScalar d

/-- The items of a list, each on one line. -/
def compactList : List Document → List String
  | [] => []
  | item :: rest => compact item :: compactList rest

/-- The entries of a table, each on one line. -/
def compactTable : List (String × Document) → List String
  | [] => []
  | (key, value) :: rest => (jsonString key ++ ":" ++ compact value) :: compactTable rest

end

/-- The line break before an item at the given depth. -/
def lineAt (depth : Nat) : String := "\n" ++ String.ofList (List.replicate (2 * depth) ' ')

/-- Puts the items of a list or table on lines of their own. -/
def bracketed (opening closing : String) (depth : Nat) (items : List String) : String :=
  if items.isEmpty then opening ++ closing
  else opening ++ lineAt (depth + 1) ++ Text.joinWith ("," ++ lineAt (depth + 1)) items ++
    lineAt depth ++ closing

mutual

/-- The document with every item on a line of its own, at the given depth. -/
def indented (depth : Nat) : Document → String
  | list items => bracketed "[" "]" depth (indentedList (depth + 1) items)
  | table entries | inlineTable entries =>
    bracketed "\x7b" "\x7d" depth (indentedTable (depth + 1) entries)
  | d => jsonScalar d

/-- The items of a list at the given depth. -/
def indentedList (depth : Nat) : List Document → List String
  | [] => []
  | item :: rest => indented depth item :: indentedList depth rest

/-- The entries of a table at the given depth. -/
def indentedTable (depth : Nat) : List (String × Document) → List String
  | [] => []
  | (key, value) :: rest => (jsonString key ++ ": " ++ indented depth value) :: indentedTable depth rest

end

/-- Adds an entry, or replaces the value of an entry that is there. -/
def insertEntry (key : String) (value : Document) : Table → Table
  | [] => [(key, value)]
  | entry :: rest =>
    if entry.1 = key then (key, value) :: rest else entry :: insertEntry key value rest

namespace Json

/-- Drops the blanks that may stand between the parts of a JSON text. -/
def skipBlanks (cs : List Char) : List Char :=
  cs.dropWhile fun c => c == ' ' || c == '\n' || c == '\r' || c == '\t'

/-- The number that hexadecimal digits stand for. -/
def hexNumber? (cs : List Char) : Option Nat :=
  cs.foldl (fun n c => do pure ((← n) * 16 + (← Text.digitValue? c))) (some 0)

/-- The character of an escape after its backslash, and how many characters the escape has. -/
def escape? : List Char → Option (Char × Nat)
  | 'u' :: rest => do
    let unit ← if rest.length < 4 then none else hexNumber? (rest.take 4)
    if 0xD800 ≤ unit && unit < 0xDC00 then
      match rest.drop 4 with
      | '\\' :: 'u' :: low =>
        match hexNumber? (low.take 4) with
        | some second =>
          if 0xDC00 ≤ second && second < 0xE000 then
            some (Char.ofNat (0x10000 + (unit - 0xD800) * 0x400 + (second - 0xDC00)), 11)
          else some ('\uFFFD', 5)
        | none => none
      | _ => some ('\uFFFD', 5)
    else if 0xDC00 ≤ unit && unit < 0xE000 then some ('\uFFFD', 5)
    else some (Char.ofNat unit, 5)
  | 'n' :: _ => some ('\n', 1)
  | 'r' :: _ => some ('\r', 1)
  | 't' :: _ => some ('\t', 1)
  | 'b' :: _ => some ('\x08', 1)
  | 'f' :: _ => some ('\x0c', 1)
  | c :: _ => if c = '"' || c = '\\' || c = '/' then some (c, 1) else none
  | [] => none

/-- The rest of a string after its opening mark, and what follows the closing mark. -/
def readString : List Char → Option (List Char × List Char)
  | [] => none
  | c :: rest =>
    if c = '"' then some ([], rest)
    else if c = '\\' then
      match escape? rest with
      | some (d, n) => (readString (rest.drop n)).map fun (chars, after) => (d :: chars, after)
      | none => none
    else (readString rest).map fun (chars, after) => (c :: chars, after)
termination_by cs => cs.length
decreasing_by all_goals simp only [List.length_drop, List.length_cons]; omega

/-- A number read from its text, a double when it has a point or an exponent. -/
def number? (cs : List Char) : Option Document :=
  let (negative, body) := match cs with
    | '-' :: rest => (true, rest)
    | rest => (false, rest)
  if (body.takeWhile Char.isDigit).isEmpty then none
  else if body.all Char.isDigit then some (.int (Text.withSign negative (Text.decimalNumber body)))
  else (Text.scientific? body).map fun x => .float (if negative then -x else x)

/-- The characters a number may be written with. -/
def isNumberChar (c : Char) : Bool :=
  c.isDigit || c == '-' || c == '+' || c == '.' || c == 'e' || c == 'E'

mutual

/-- A value, and what follows it. Every nested value takes one unit of fuel. -/
def readValue : Nat → List Char → Option (Document × List Char)
  | 0, _ => none
  | fuel + 1, cs =>
    match skipBlanks cs with
    | '"' :: rest => (readString rest).map fun (s, after) => (.text (String.ofList s), after)
    | '[' :: rest =>
      match skipBlanks rest with
      | ']' :: after => some (.list [], after)
      | _ => (readItems fuel rest).map fun (items, after) => (.list items, after)
    | '\x7b' :: rest =>
      match skipBlanks rest with
      | '\x7d' :: after => some (.table [], after)
      | _ => (readEntries fuel rest []).map fun (entries, after) => (.table entries, after)
    | 'n' :: 'u' :: 'l' :: 'l' :: after => some (.null, after)
    | 't' :: 'r' :: 'u' :: 'e' :: after => some (.bool true, after)
    | 'f' :: 'a' :: 'l' :: 's' :: 'e' :: after => some (.bool false, after)
    | other =>
      (number? (other.takeWhile isNumberChar)).map fun d => (d, other.dropWhile isNumberChar)

/-- The items of a list up to its closing bracket. -/
def readItems : Nat → List Char → Option (List Document × List Char)
  | 0, _ => none
  | fuel + 1, cs =>
    match readValue fuel cs with
    | none => none
    | some (item, after) =>
      match skipBlanks after with
      | ',' :: rest => (readItems fuel rest).map fun (items, after) => (item :: items, after)
      | ']' :: rest => some ([item], rest)
      | _ => none

/-- The entries of a table up to its closing brace, after those read before. -/
def readEntries : Nat → List Char → Table → Option (Table × List Char)
  | 0, _, _ => none
  | fuel + 1, cs, entries =>
    match skipBlanks cs with
    | '"' :: rest =>
      match readString rest with
      | none => none
      | some (key, after) =>
        match skipBlanks after with
        | ':' :: rest =>
          match readValue fuel rest with
          | none => none
          | some (value, after) =>
            let entries := insertEntry (String.ofList key) value entries
            match skipBlanks after with
            | ',' :: rest => readEntries fuel rest entries
            | '\x7d' :: rest => some (entries, rest)
            | _ => none
        | _ => none
    | _ => none

end

end Json

/-- The document a JSON text stands for. -/
def ofJson? (s : String) : Option Document :=
  let cs := s.toList
  match Json.readValue (cs.length + 1) cs with
  | some (d, rest) => if (Json.skipBlanks rest).isEmpty then some d else none
  | none => none

end GoIdiom.Document
