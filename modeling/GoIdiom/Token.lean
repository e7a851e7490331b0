import GoIdiom.Position

/-!
# Tokens and comments

A token keeps its text as written and the position of its first character. Comments are kept apart:
they carry directives and nothing else.
-/

namespace GoIdiom

/-- What a token is. -/
inductive TokenKind where
  | ident
  | keyword
  | number
  | string
  | char
  | op
  | semi
deriving DecidableEq, Repr, Inhabited

/-- The name of a kind of token. -/
def TokenKind.name : TokenKind → String
  | ident => "ident"
  | keyword => "keyword"
  | number => "number"
  | string => "string"
  | char => "char"
  | op => "op"
  | semi => "semi"

/-- A lexical token. An inserted semicolon has a line feed for its text. -/
structure Token where
  kind : TokenKind
  text : String
  pos : Position
deriving DecidableEq, Repr, Inhabited

namespace Token

/-- The words that are never identifiers. -/
def keywords : List String :=
  ["break", "case", "chan", "const", "continue", "default", "defer", "else", "fallthrough", "for",
   "func", "go", "goto", "if", "import", "interface", "map", "package", "range", "return", "select",
   "struct", "switch", "type", "var"]

/-- The line of the first character. -/
def line (t : Token) : Nat := t.pos.line

/-- The operator written so. -/
def isOp (t : Token) (text : String) : Bool := t.kind == .op && t.text == text

/-- An operator written in one of these ways. -/
def isOpIn (t : Token) (texts : List String) : Bool := t.kind == .op && texts.contains t.text

/-- The keyword written so. -/
def isKeyword (t : Token) (text : String) : Bool := t.kind == .keyword && t.text == text

/-- One of these keywords. -/
def isKeywordIn (t : Token) (texts : List String) : Bool := t.kind == .keyword && texts.contains t.text

/-- An identifier. -/
def isIdent (t : Token) : Bool := t.kind == .ident

/-- A semicolon, written or inserted. -/
def isSemi (t : Token) : Bool := t.kind == .semi

/-- An opening bracket. -/
def isOpener (t : Token) : Bool := t.isOpIn ["(", "[", "\x7b"]

/-- A closing bracket. -/
def isCloser (t : Token) : Bool := t.isOpIn [")", "]", "\x7d"]

/-- Whether a line that ends after this token ends a statement. -/
def endsStatement (t : Token) : Bool :=
  match t.kind with
  | .ident | .number | .string | .char => true
  | .keyword => ["break", "continue", "fallthrough", "return"].contains t.text
  | .op => ["++", "--", ")", "]", "\x7d"].contains t.text
  | .semi => false

end Token

/-- A comment, with the markers in its text. It is trailing when code precedes it on its line. -/
structure Comment where
  text : String
  pos : Position
  endLine : Nat
  trailing : Bool
deriving DecidableEq, Repr, Inhabited

namespace Comment

/-- The text between the markers. -/
def body (c : Comment) : String :=
  match c.text.toList with
  | '/' :: '/' :: rest => String.ofList rest
  | cs => String.ofList ((cs.drop 2).take (cs.length - 4))

end Comment

end GoIdiom

/-!
## Token runs as compact text

A run of tokens is written on one line with as few blanks as keep words apart; assignment and
comparison operators stand between blanks. Messages show this text, and several decisions search it.
-/

namespace GoIdiom.Token

/-- Operators that stand between blanks. -/
def spacedOperators : List String := ["==", "!=", "&&", "||", ":=", "=", "<=", ">=", "+=", "-=", "|"]

/-- An operator that stands between blanks. -/
def isSpaced (t : Token) : Bool := t.isOpIn spacedOperators

/-- A token that would run into a word beside it. -/
def isWordLike (t : Token) : Bool :=
  match t.kind with
  | .ident | .keyword | .number | .string | .char => true
  | .op | .semi => false

/-- Whether a blank stands between two neighbours. -/
def needsBlank (previous t : Token) : Bool :=
  previous.isSemi || previous.isOp "," || previous.isSpaced || t.isSpaced ||
    (t.isWordLike && (previous.isWordLike || previous.isOp ")"))

/-- The texts of the tokens with the blanks between them, after a token that stands before them. -/
def renderPieces (previous : Option Token) : List Token → List String
  | [] => []
  | t :: rest =>
    if t.isSemi then ";" :: renderPieces (some t) rest
    else if previous.any (needsBlank · t) then " " :: t.text :: renderPieces (some t) rest
    else t.text :: renderPieces (some t) rest

/-- A token run as compact text. -/
def render (tokens : List Token) : String := String.join (renderPieces none tokens)

end GoIdiom.Token
