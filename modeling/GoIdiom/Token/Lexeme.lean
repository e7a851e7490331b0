import GoIdiom.Text.Word
import GoIdiom.Token
import GoIdiom.SourceFault

/-!
# Lexemes and tokens

A source text is cut into consecutive pieces: line feeds, blanks, comments and the texts of tokens.
Each step decides from the characters ahead what the next piece is and how many characters it has,
so the pieces concatenate to the part of the text that was read.
-/

namespace GoIdiom

/-- What a piece of the source text is. -/
inductive LexemeKind where
  | lineFeed
  | blank
  | lineComment
  | blockComment
  | token (kind : TokenKind)
deriving DecidableEq, Repr

/-- A piece of the source text. -/
structure Lexeme where
  kind : LexemeKind
  chars : List Char
deriving DecidableEq, Repr

namespace Lexeme

/-- How many characters at the head are in the class. -/
def runLength (p : Char → Bool) : List Char → Nat
  | [] => 0
  | c :: rest => if p c then runLength p rest + 1 else 0

/-- The length of consecutive parts, each measured on what the parts before it leave. -/
def partsLength : List (List Char → Nat) → List Char → Nat
  | [], _ => 0
  | part :: parts, cs => part cs + partsLength parts (cs.drop (part cs))

/-- Blanks that do not end a line. -/
def isInlineBlank (c : Char) : Bool := c == ' ' || c == '\t' || c == '\r' || c == '\x0c' || c == '\x0b'

/-- A decimal digit, or the underscore between digits. -/
def isDecimalPart (c : Char) : Bool := c.isDigit || c == '_'

/-- A hexadecimal digit, or the underscore between digits. -/
def isHexPart (c : Char) : Bool :=
  isDecimalPart c || ('a' ≤ c && c ≤ 'f') || ('A' ≤ c && c ≤ 'F')

/-- A binary digit, or the underscore between digits. -/
def isBinaryPart (c : Char) : Bool := c == '0' || c == '1' || c == '_'

/-- An octal digit, or the underscore between digits. -/
def isOctalPart (c : Char) : Bool := ('0' ≤ c && c ≤ '7') || c == '_'

/-- The length of a point with the digits after it. -/
def fractionLength (p : Char → Bool) : List Char → Nat
  | '.' :: rest => runLength p rest + 1
  | _ => 0

/-- The length of a sign. -/
def signLength : List Char → Nat
  | '+' :: _ => 1
  | '-' :: _ => 1
  | _ => 0

/-- The length of an exponent, which is none without a digit after its mark. -/
def exponentLength (marks : List Char) : List Char → Nat
  | [] => 0
  | c :: rest =>
    let digits := runLength isDecimalPart (rest.drop (signLength rest))
    if marks.contains c && digits != 0 then 1 + signLength rest + digits else 0

/-- The length of the mark of an imaginary number. -/
def imaginaryLength : List Char → Nat
  | 'i' :: _ => 1
  | _ => 0

/-- The length of a number with a base mark, from the mark on: no number without a digit. -/
def basedLength (p : Char → Bool) (afterMark : List Char) : Option Nat :=
  let digits := runLength p afterMark
  if digits = 0 then none else some (1 + digits + imaginaryLength (afterMark.drop digits))

/-- The length of a decimal number after its first digit. -/
def decimalLength (rest : List Char) : Nat :=
  partsLength [runLength isDecimalPart, fractionLength isDecimalPart, exponentLength ['e', 'E'],
    imaginaryLength] rest

/-- The length of a number after its first character, if one begins here. -/
def numberLength (c : Char) (rest : List Char) : Option Nat :=
  if c = '.' then
    match rest with
    | [] => none
    | d :: _ =>
      if d.isDigit then
        some (partsLength [runLength isDecimalPart, exponentLength ['e', 'E'], imaginaryLength] rest)
      else none
  else if c.isDigit then
    let based :=
      if c = '0' then
        match rest with
        | [] => none
        | mark :: digits =>
          if mark = 'x' || mark = 'X' then
            some (1 + partsLength [runLength isHexPart, fractionLength isHexPart,
              exponentLength ['p', 'P'], imaginaryLength] digits)
          else if mark = 'b' || mark = 'B' then basedLength isBinaryPart digits
          else if mark = 'o' || mark = 'O' then basedLength isOctalPart digits
          else none
      else none
    some (based.getD (decimalLength rest))
  else none

/-- How far the end of a block comment is, its closing marker included. -/
def blockLength : List Char → Option Nat
  | [] => none
  | '*' :: '/' :: _ => some 2
  | _ :: rest => (blockLength rest).map (· + 1)

/-- How far the closing mark of a raw string is, the mark included. -/
def rawLength : List Char → Option Nat
  | [] => none
  | c :: rest => if c = '\x60' then some 1 else (rawLength rest).map (· + 1)

/-- How far the closing mark of a string or rune is, the mark included. A backslash takes the
character after it along, even a line feed; any other line feed leaves the literal open. -/
def literalLength (mark : Char) : List Char → Option Nat
  | [] => none
  | c :: rest =>
    if c = mark then some 1
    else if c = '\n' then none
    else if c = '\\' then
      match rest with
      | [] => none
      | _ :: rest' => (literalLength mark rest').map (· + 2)
    else (literalLength mark rest).map (· + 1)

/-- The operators, longer ones first. -/
def operators : List String :=
  ["<<=", ">>=", "&^=", "...", "&&", "||", "<-", "++", "--", "==", "!=", "<=", ">=", ":=", "+=", "-=",
   "*=", "/=", "%=", "&=", "|=", "^=", "<<", ">>", "&^", "+", "-", "*", "/", "%", "&", "|", "^", "<",
   ">", "=", "!", "(", ")", "[", "]", "\x7b", "\x7d", ",", ";", ".", ":", "~"]

/-- The operator at the head, longest first. -/
def operatorAt (cs : List Char) : Option String := operators.find? fun op => op.toList.isPrefixOf cs

/-- The kind of a word. -/
def wordKind (word : String) : TokenKind := if Token.keywords.contains word then .keyword else .ident

/-- The kind of the piece that begins with `c`, and how many characters follow `c` in it. -/
def classify (c : Char) (rest : List Char) : Except SourceCause (LexemeKind × Nat) :=
  if c = '\n' then .ok (.lineFeed, 0)
  else if isInlineBlank c then .ok (.blank, runLength isInlineBlank rest)
  else if c = '/' && rest.head? == some '/' then .ok (.lineComment, runLength (· != '\n') rest)
  else if c = '/' && rest.head? == some '*' then
    match blockLength (rest.drop 1) with
    | some n => .ok (.blockComment, n + 1)
    | none => .error .openComment
  else if c = '\x60' then
    match rawLength rest with
    | some n => .ok (.token .string, n)
    | none => .error .openString
  else if c = '"' then
    match literalLength '"' rest with
    | some n => .ok (.token .string, n)
    | none => .error .openString
  else if c = '\'' then
    match literalLength '\'' rest with
    | some n => .ok (.token .char, n)
    | none => .error .openRune
  else
    match numberLength c rest with
    | some n => .ok (.token .number, n)
    | none =>
      if Text.isWordStart c then
        let n := runLength Text.isWord rest
        .ok (.token (wordKind (String.ofList (c :: rest.take n))), n)
      else
        match operatorAt (c :: rest) with
        | some op => .ok (.token (if op == ";" then .semi else .op), op.length - 1)
        | none => .error (.unexpectedCharacter c)

/-- The pieces up to the end of the text, or up to the first character no piece begins with. -/
def scan : List Char → List Lexeme × Option SourceCause
  | [] => ([], none)
  | c :: rest =>
    match classify c rest with
    | .error cause => ([], some cause)
    | .ok (kind, n) =>
      let more := scan (rest.drop n)
      (⟨kind, c :: rest.take n⟩ :: more.1, more.2)
termination_by cs => cs.length
decreasing_by simp only [List.length_drop, List.length_cons]; omega

/-- Where the piece ends that begins at the given place. Line feeds count in comments and raw strings. -/
def endPos (l : Lexeme) (pos : Position) : Position :=
  match l.kind with
  | .lineFeed | .blockComment => pos.after l.chars
  | .token .string =>
    if l.chars.head? == some '\x60' then pos.after l.chars else pos.right l.chars.length
  | _ => pos.right l.chars.length

/-- The text of the piece. -/
def text (l : Lexeme) : String := String.ofList l.chars

end Lexeme

/-!
## From lexemes to tokens

Pieces are placed one after the other, comments are set apart, and a semicolon is inserted where a
line break follows a token that can end a statement. A block comment over several lines breaks the
line at its beginning, and the end of the text breaks the last line.
-/

/-- The tokens of a source text, with inserted semicolons, and its comments. -/
structure Lexed where
  tokens : List Token
  comments : List Comment
deriving DecidableEq, Repr, Inhabited

namespace Lexed

/-- The semicolon inserted by a line break at a place, given the last token of that line. -/
def lineBreak (last : Option Token) (pos : Position) : List Token :=
  match last with
  | some t => if t.endsStatement then [⟨.semi, "\n", pos⟩] else []
  | none => []

/-- Places the pieces from `pos` on. `last` is the last token since the line was broken, if any. -/
def place (pos : Position) (last : Option Token) : List Lexeme → Lexed
  | [] => ⟨lineBreak last pos, []⟩
  | l :: rest =>
    let next := l.endPos pos
    match l.kind with
    | .lineFeed =>
      let more := place next none rest
      ⟨lineBreak last pos ++ more.tokens, more.comments⟩
    | .blank => place next last rest
    | .lineComment =>
      let more := place next last rest
      ⟨more.tokens, ⟨l.text, pos, pos.line, last.isSome⟩ :: more.comments⟩
    | .blockComment =>
      let comment : Comment := ⟨l.text, pos, next.line, last.isSome⟩
      if l.chars.contains '\n' then
        let more := place next none rest
        ⟨lineBreak last pos ++ more.tokens, comment :: more.comments⟩
      else
        let more := place next last rest
        ⟨more.tokens, comment :: more.comments⟩
    | .token kind =>
      let t : Token := ⟨kind, l.text, pos⟩
      let more := place next (some t) rest
      ⟨t :: more.tokens, more.comments⟩

end Lexed

/-- The place after all the pieces. -/
def Lexeme.endOf (pos : Position) : List Lexeme → Position
  | [] => pos
  | l :: rest => endOf (l.endPos pos) rest

/-- Tokens and comments of a source text. -/
def tokenize (source : String) : Except SourceFault Lexed :=
  match Lexeme.scan source.toList with
  | (pieces, none) => .ok (Lexed.place .start none pieces)
  | (pieces, some cause) => .error ⟨cause, Lexeme.endOf .start pieces⟩

end GoIdiom
