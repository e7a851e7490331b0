import GoIdiom.Document.Toml.Division
import GoIdiom.Document.Toml.Key
import GoIdiom.Document.Toml.Scalar

/-!
# Entries

An entry is a key and a value with an equality sign between them. A value that begins right behind the sign
and is neither a text, a list, a table nor a truth value has to be a number, a date or a time; otherwise the
next equality sign of the line is tried. A text on several lines is left open at the end of the line.
-/

namespace GoIdiom.Document.Toml

/-- The characters of an entry before and after its equality sign, blanks dropped, and whether its value is
written as strictly as numbers have to be. -/
structure EntryText where
  key : List Char
  value : List Char
  strict : Bool
deriving DecidableEq, Repr

namespace EntryText

/-- Whether a value may stand behind an equality sign. -/
def isAdmitted (value : List Char) : Read Bool := do
  if value.isEmpty || value.head?.any (fun c => isMark c || [' ', '\t', '[', '\x7b'].contains c) ||
      strip value == "true".toList || strip value == "false".toList then
    pure true
  else if (Text.double? value).isSome then pure true
  else pure ((← date? value).isSome || (timeNumbers? value).isSome)

/-- The parts of an entry, blanks dropped. -/
def ofParts (key value : List Char) (strict : Bool) : EntryText := ⟨strip key, strip value, strict⟩

/-- Moves the equality sign on until the value is admitted. The pieces are those of the value between its
signs; the value may have lost its underscores, and is tried with them if there is no further sign. -/
def settle (key value : List Char) (strict : Bool) : List (List Char) → Read EntryText
  | [] => .error .malformed
  | piece :: rest => do
    if ← isAdmitted value then pure (ofParts key value strict)
    else
      match rest with
      | [] =>
        let strict := strict && isStrict piece
        if value != piece && (← isAdmitted piece) then pure (ofParts key piece strict)
        else .error .malformed
      | _ =>
        let next := ['='].intercalate rest
        settle (key ++ '=' :: piece) next (strict && isStrict next) rest

/-- The parts of a line with an equality sign. A value that begins with a digit loses its underscores. -/
def ofLine (line : List Char) : Read EntryText :=
  let signs := (Text.splitChars '=' line).length - 1
  match Text.cutNth? ['='] (min (separatorNumber ['='] line) signs) line with
  | some (key, value) =>
    let body := if value.head?.any Char.isDigit then value.filter (· != '_') else value
    settle key body (isStrict value) (Text.splitChars '=' value)
  | none => .error .malformed

end EntryText

/-- The last text of a list that its line leaves open, from the pieces between commas behind it. -/
def lastText (piece : List Char) : List (List Char) → Read (List Char)
  | [] => .ok piece
  | before :: rest =>
    match piece.head? with
    | none => .error .cutShort
    | some c => if isMark c then .ok piece else lastText (rejoin before piece) rest

/-- Whether characters begin with three marks and do not end with three further ones. -/
def opensText : List Char → Read Bool
  | [] => .error .cutShort
  | a :: rest =>
    if !isMark a then .ok false
    else
      match rest with
      | [] => .error .cutShort
      | b :: rest =>
        if b ≠ a then .ok false
        else
          match rest with
          | [] => .error .cutShort
          | c :: rest => .ok (c == a && (rest.length < 3 || rest.reverse.take 3 != [a, a, a]))

/-- Whether a value leaves a text open at the end of its line. In a list of texts without its closing bracket
the last one counts. -/
def leavesTextOpen (value : List Char) : Read Bool :=
  if value.length < 3 then .ok false
  else if value.head? == some '[' && (strip value).getLast? != some ']' && isTextList value then
    match (Text.splitChars ',' (strip value.tail)).reverse with
    | last :: before => do opensText (← lastText last before)
    | [] => .error .cutShort
  else opensText value

/-- An entry whose text goes on in the next line. The next line loses the blanks around it if the text so
far ends with a backslash, or holds no line break. -/
structure OpenEntry where
  name : String
  text : List Char
  continues : Bool
deriving DecidableEq, Repr

namespace OpenEntry

/-- The entry at the end of a line: a backslash there is dropped, and otherwise the line breaks. -/
def atLineEnd (name : String) (text : List Char) : OpenEntry :=
  if endsEscaping text then ⟨name, text.dropLast, true⟩ else ⟨name, text ++ ['\n'], false⟩

/-- Whether blanks around the next line are dropped. -/
def stripsNext (e : OpenEntry) : Bool := e.continues || !e.text.contains '\n'

/-- Whether a line closes the text. A list closes with its bracket, a text with three marks. -/
def closes (e : OpenEntry) (line : List Char) : Read Bool :=
  match (e.text ++ line).head?, line.getLast? with
  | some '[', none => .error .cutShort
  | some '[', some c => .ok (c == ']')
  | some mark, _ => .ok (line.reverse.take 3 == [mark, mark, mark])
  | none, _ => .ok false

end OpenEntry

end GoIdiom.Document.Toml
