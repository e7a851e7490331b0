import GoIdiom.Text.Glob
import GoIdiom.Text.Search

/-!
# Paths as text

Paths are compared in a plain form: doubled slashes and dots for the same directory are left out, and
two slashes at the beginning are kept apart from one.
-/

namespace GoIdiom.PathText

/-- The names between slashes, without empty ones and dots. -/
def names (path : String) : List String :=
  (Text.splitOn path '/').filter fun n => n != "" && n != "."

/-- The slashes that begin an absolute path. -/
def root (path : String) : String :=
  match path.toList with
  | '/' :: '/' :: '/' :: _ => "/"
  | '/' :: '/' :: _ => "//"
  | '/' :: _ => "/"
  | _ => ""

/-- The plain form of a path. -/
def plain (path : String) : String :=
  let text := root path ++ Text.joinWith "/" (names path)
  if text == "" then "." else text

/-- The last name of a path. -/
def fileName (path : String) : String := (names path).getLastD ""

/-- Whether a path is absolute. -/
def isAbsolute (path : String) : Bool := root path != ""

/-- The names that lead from the top to a path, when those of the working directory are given. -/
def resolve (working : List String) (path : String) : List String :=
  (names path).foldl (fun dir name => if name == ".." then dir.dropLast else dir ++ [name])
    (if isAbsolute path then [] else working)

/-- The plain form of a path relative to a directory above it. -/
def relativeTo? (directory resolved : List String) : Option String :=
  if directory.isPrefixOf resolved then
    let rest := Text.joinWith "/" (resolved.drop directory.length)
    some (if rest == "" then "." else rest)
  else none

end GoIdiom.PathText
