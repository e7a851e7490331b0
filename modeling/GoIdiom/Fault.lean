import GoIdiom.Construct.Declaration

/-!
# Faults of a run

A fault says why a file could not be analyzed. Faults are kept apart from findings: they are about the
file or the tool, not about style.
-/

namespace GoIdiom

/-- Why a file could not be analyzed, in words, at a place in it. -/
structure Fault where
  path : String
  kind : String
  message : String
  line : Int
  col : Int
deriving DecidableEq, Repr

namespace Fault

/-- The kind of faults of sources that cannot be decomposed. -/
def parseKind : String := "parse-error"

/-- The kind of faults of files that cannot be read. -/
def readKind : String := "read-error"

/-- The kind of faults of the tool. -/
def internalKind : String := "internal-error"

/-- The fault on one line. -/
def text (f : Fault) : String :=
  f.path ++ ":" ++ toString f.line ++ ":" ++ toString f.col ++ ": " ++ f.kind ++ ": " ++ f.message

/-- A source that cannot be decomposed. -/
def ofSource (path : String) (f : SourceFault) : Fault :=
  ⟨path, parseKind, f.message, f.pos.line, f.pos.col⟩

/-- A file that cannot be read. -/
def unreadable (path message : String) : Fault := ⟨path, readKind, message, 1, 1⟩

/-- A failure of the tool. -/
def ofTool (path message : String) : Fault := ⟨path, internalKind, message, 1, 1⟩

/-- Reading order of faults. -/
def le (a b : Fault) : Bool :=
  (compareLex (compareOn path) (compareLex (compareOn line) (compareOn col)) a b).isLE

end Fault

end GoIdiom
