import GoIdiom.FileTree
import GoIdiom.Run
import GoIdiom.Text.Encoded

/-!
# Running over files

Every file is analyzed on its own, so that the result does not depend on the order of the work. Files
that are not begun when the run is cancelled are skipped.
-/

namespace GoIdiom

/-- Why a file cannot be read. -/
inductive ReadFault where
  | notDirectory (path : String)
  | encoding (fault : Text.EncodingFault)
deriving DecidableEq, Repr

/-- The wording of a fault. -/
def ReadFault.message : ReadFault → String
  | notDirectory path => "[Errno 20] Not a directory: " ++ Text.quoted path
  | encoding fault => fault.message

/-- The text of the file at a path. -/
def Workspace.textAt (w : Workspace) (path : String) : Except ReadFault String :=
  match w.bytesAt? path with
  | none => .error (.notDirectory path)
  | some bytes => (Text.ofBytes bytes).mapError .encoding

namespace Linter

/-- The result for the file at a path. -/
def analyzeFile (l : Linter) (w : Workspace) (path : String) : FileResult :=
  match w.textAt path with
  | .ok source => l.analyzeSource source path
  | .error fault => .ofFault path (.unreadable path fault.message)

/-- Runs over the files that paths stand for, except those that are skipped. -/
def runSkipping (l : Linter) (w : Workspace) (paths : List String) (cancelled : Bool)
    (skips : String → Bool) : Run :=
  let found := Discovery.ofPaths w l.config.exclude paths
  { results := Run.byPath ((found.files.filter fun p => !skips p).map (l.analyzeFile w))
    skipped := found.files.filter skips
    cancelled := cancelled
    pathFaults := found.faults }

/-- Runs over the files that paths stand for. A run that is cancelled before it begins skips all. -/
def run (l : Linter) (w : Workspace) (paths : List String) (cancelled : Bool) : Run :=
  l.runSkipping w paths cancelled fun _ => cancelled

end Linter

end GoIdiom
