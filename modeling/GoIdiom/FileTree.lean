import GoIdiom.PathText
import GoIdiom.Fault

/-!
# File trees

A tree of directories and files as a run sees it. A path leads through it name by name; every name but
the last one has to be that of a directory, and two dots lead to the directory above.
-/

namespace GoIdiom

/-- A file with its bytes, or a directory with its entries. -/
inductive FileTree where
  | file (bytes : List UInt8)
  | directory (entries : List (String × FileTree))
deriving Inhabited

namespace FileTree

/-- Whether the tree is a directory. -/
def isDirectory : FileTree → Bool
  | file _ => false
  | directory _ => true

/-- What the names lead to. -/
def get? (t : FileTree) : List String → Option FileTree
  | [] => some t
  | name :: rest =>
    match t with
    | file _ => none
    | directory entries =>
      match entries.lookup name with
      | some inner => get? inner rest
      | none => none

/-- Replaces the entry of a name, or adds one. -/
def setEntry (name : String) (t : FileTree) (entries : List (String × FileTree)) :
    List (String × FileTree) :=
  if entries.any (·.1 == name) then entries.map fun e => if e.1 == name then (name, t) else e
  else entries ++ [(name, t)]

/-- The tree with another one put where the names lead. Missing directories are made. -/
def put (inner : FileTree) : List String → FileTree → FileTree
  | [], _ => inner
  | name :: rest, t =>
    let entries := match t with
      | directory entries => entries
      | file _ => []
    directory (setEntry name (put inner rest ((entries.lookup name).getD (directory []))) entries)

end FileTree

/-- A tree, and the names that lead to the working directory in it. -/
structure Workspace where
  tree : FileTree
  working : List String

namespace Workspace

/-- The place one name further. Nothing lies below a file or a place that does not exist. -/
def step (w : Workspace) (place : List String) (name : String) : Option (List String) :=
  if (w.tree.get? place).any (·.isDirectory) then
    if name == "" || name == "." then some place
    else if name == ".." then some place.dropLast
    else some (place ++ [name])
  else none

/-- What names lead to from the top or the working directory. -/
def follow? (w : Workspace) (fromTop : Bool) (names : List String) : Option FileTree := do
  let place ← names.foldlM w.step (if fromTop then [] else w.working)
  w.tree.get? place

/-- What the plain form of a path leads to. -/
def find? (w : Workspace) (path : String) : Option FileTree :=
  w.follow? (PathText.isAbsolute path) (PathText.names path)

/-- What a path leads to as it is written: slashes and dots at its end ask for a directory. -/
def findExactly? (w : Workspace) (path : String) : Option FileTree :=
  if path == "" then none else w.follow? (PathText.isAbsolute path) (Text.splitOn path '/')

/-- The bytes of the file at a path as it is written. -/
def bytesAt? (w : Workspace) (path : String) : Option (List UInt8) :=
  match w.findExactly? path with
  | some (.file bytes) => some bytes
  | _ => none

end Workspace

/-!
## Finding the files to analyze

Directories stand for the source files below them, except in directories that hold the code of others,
test data or hidden files. A file that is given itself is always taken. Files that a pattern excludes
are left out either way.
-/

namespace Discovery

/-- The ending of source files. -/
def sourceEnding : String := ".go"

/-- Directories that are never searched. -/
def skippedNames : List String := ["vendor", "testdata"]

/-- Whether a directory below a given one is left out. -/
def skipsDirectory (name : String) : Bool :=
  skippedNames.contains name || Text.startsWithAny name [".", "_"]

/-- Whether a pattern excludes a path, by its plain form or its last name. -/
def excludes (patterns : List String) (path : String) : Bool :=
  patterns.any fun p => Text.globMatches (PathText.plain path) p || Text.globMatches (PathText.fileName path) p

/-- The path of an entry of a directory. -/
def below (directory name : String) : String :=
  if Text.endsWith directory "/" then directory ++ name else directory ++ "/" ++ name

mutual

/-- The paths of the source files in a tree that a path leads to. -/
def sourcesIn (path : String) : FileTree → List String
  | .file _ => []
  | .directory entries => sourcesAmong path entries

/-- The paths of the source files among the entries of a directory. -/
def sourcesAmong (path : String) : List (String × FileTree) → List String
  | [] => []
  | (name, .file _) :: rest =>
    (if Text.endsWith name sourceEnding then [below path name] else []) ++ sourcesAmong path rest
  | (name, .directory entries) :: rest =>
    (if skipsDirectory name then [] else sourcesIn (below path name) (.directory entries)) ++
      sourcesAmong path rest

end

/-- The files that one path stands for, or nothing if it leads nowhere. -/
def ofPath (w : Workspace) (path : String) : Option (List String) :=
  match w.find? path with
  | some (.directory entries) => some (sourcesAmong (PathText.plain path) entries)
  | some (.file _) => some [path]
  | none => none

end Discovery

/-- The files that paths stand for, and the faults of those that lead nowhere. -/
structure Discovery where
  files : List String
  faults : List Fault
deriving DecidableEq, Repr

namespace Discovery

/-- Finds the files that paths stand for: each one once, in order. -/
def ofPaths (w : Workspace) (patterns paths : List String) : Discovery :=
  let found := paths.flatMap fun p => (ofPath w p).getD []
  let missing := paths.filter fun p => (ofPath w p).isNone
  { files := ((found.filter fun p => !excludes patterns p).mergeSort (· ≤ ·)).eraseDups
    faults := missing.map fun p => .unreadable p "no such file or directory" }

end Discovery

end GoIdiom
