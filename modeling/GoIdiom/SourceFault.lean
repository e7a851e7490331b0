import GoIdiom.Position
import GoIdiom.Text.Quoted

/-!
# Why a source text cannot be decomposed

Every cause has one wording, and every fault names the place it was noticed at.
-/

namespace GoIdiom

/-- What is wrong with a source text. -/
inductive SourceCause where
  | unexpectedCharacter (c : Char)
  | openComment
  | openString
  | openRune
  | strayCloser (closer : String)
  | mismatchedCloser (opener : String) (openerPos : Position) (closer : String)
  | unclosedBracket (opener : String)
  | missingBlock
  | missingElseBlock
  | missingCaseColon
  | missingPackageClause
  | missingPackageName
  | unexpectedTopLevel (text : String)
  | missingDeclaration (keyword : String)
  | missingImportPath
  | missingTypeName
  | missingType
  | missingVariableName (keyword : String)
  | receiverCount
  | missingFunctionName
  | missingParameters
deriving DecidableEq, Repr

/-- The wording of a cause. -/
def SourceCause.message : SourceCause → String
  | unexpectedCharacter c => "unexpected character " ++ Text.quoted (String.ofList [c])
  | openComment => "comment not terminated"
  | openString => "string literal not terminated"
  | openRune => "rune literal not terminated"
  | strayCloser closer => "unexpected '" ++ closer ++ "'"
  | mismatchedCloser opener pos closer =>
    "'" ++ opener ++ "' at " ++ toString pos.line ++ ":" ++ toString pos.col ++ " closed by '" ++
      closer ++ "'"
  | unclosedBracket opener => "unclosed '" ++ opener ++ "'"
  | missingBlock => "expected '\x7b' to open block"
  | missingElseBlock => "expected 'if' or '\x7b' after 'else'"
  | missingCaseColon => "expected ':' after case"
  | missingPackageClause => "expected 'package' clause"
  | missingPackageName => "expected package name"
  | unexpectedTopLevel text => "unexpected " ++ Text.quoted text ++ " at top level"
  | missingDeclaration keyword => "expected declaration after '" ++ keyword ++ "'"
  | missingImportPath => "expected import path"
  | missingTypeName => "expected type name"
  | missingType => "expected type"
  | missingVariableName keyword => "expected name in '" ++ keyword ++ "' declaration"
  | receiverCount => "method has multiple receivers"
  | missingFunctionName => "expected function name"
  | missingParameters => "expected '(' after function name"

/-- A cause and the place it was noticed at. -/
structure SourceFault where
  cause : SourceCause
  pos : Position
deriving DecidableEq, Repr

namespace SourceFault

/-- The wording of the fault without its place. -/
def message (f : SourceFault) : String := f.cause.message

/-- The wording of the fault after the place, in the given file. -/
def located (f : SourceFault) (path : String) : String :=
  path ++ ":" ++ toString f.pos.line ++ ":" ++ toString f.pos.col ++ ": " ++ f.message

end SourceFault

end GoIdiom
