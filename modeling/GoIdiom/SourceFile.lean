import GoIdiom.Construct.Declaration
import GoIdiom.Token.Lexeme

/-!
# Source files

A source file is reduced to its constructs and comments, and the lines that hold code. Nothing that
reads a source file afterwards sees its tokens.
-/

namespace GoIdiom

/-- What the rest of the analysis needs to know about a file. -/
structure SourceFile where
  path : String
  constructs : List Construct
  comments : List Comment
  package : String
  lineCount : Nat
  isTest : Bool
  codeLines : List Nat
deriving DecidableEq, Repr

namespace SourceFile

/-- Whether a path is one of a test file. -/
def isTestPath (path : String) : Bool := Text.endsWith path "_test.go"

/-- The number of lines of a text; a line feed at its end begins no further line. -/
def countLines (source : List Char) : Nat :=
  source.count '\n' + (if source.getLast?.any (· != '\n') then 1 else 0)

/-- The place that a fault is reported at when a token is expected at the head of a run: that token, or
the last one of the file, or the beginning of a file without tokens. -/
def expectedAt (all run : List Token) : Position :=
  match run.head? with
  | some t => t.pos
  | none => (all.getLast?.map (·.pos)).getD .start

/-- The package of a token list and its constructs. -/
def readTokens (path : String) (tokens : List Token) : Reading (String × List Construct) := do
  let isTest := isTestPath path
  let _ ← Declaration.ofSource (Token.matchBrackets tokens)
  let start := tokens.dropWhile (·.isSemi)
  match start with
  | [] => Declaration.fail .missingPackageClause (expectedAt tokens start)
  | keyword :: rest =>
    if !keyword.isKeyword "package" then Declaration.fail .missingPackageClause keyword.pos
    else
      match rest with
      | [] => Declaration.fail .missingPackageName keyword.pos
      | name :: rest =>
        if !name.isIdent then Declaration.fail .missingPackageName name.pos
        else do
          let clause : Construct := ⟨path, name.pos, name.line, .package name.text isTest⟩
          let found ← Declaration.list ⟨path, isTest, name.text⟩ rest
          pure (name.text, clause :: found)

/-- Reduces a source text to its constructs and comments. -/
def read (source path : String) : Reading SourceFile := do
  let lexed ← Declaration.ofSource (tokenize source)
  let (package, constructs) ← readTokens path lexed.tokens
  let isTest := isTestPath path
  let lineCount := countLines source.toList
  let file : Construct := ⟨path, .start, max lineCount 1, .file lineCount isTest package⟩
  pure
    { path := path
      constructs := file :: constructs
      comments := lexed.comments
      package := package
      lineCount := lineCount
      isTest := isTest
      codeLines := (lexed.tokens.filter (!·.isSemi)).map (·.line) }

end SourceFile

end GoIdiom
