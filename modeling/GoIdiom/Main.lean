import GoIdiom.CommandLine

/-!
# The program

Takes a picture of the files that the arguments can reach, and leaves everything else to the command line.
-/

namespace GoIdiom.Program

/-- How deep directories are searched. -/
def depthLimit : Nat := 512

/-- The bytes of a file, none if they cannot be read. -/
def readBytes (path : String) : IO (List UInt8) := do
  try
    pure (← IO.FS.readBinFile path).toList
  catch _ => pure []

/-- The tree at a path. Below it, only directories and source files that can be analyzed are looked into,
and directories that are links are not. -/
def readTree : Nat → String → IO FileTree
  | 0, _ => pure (.directory [])
  | depth + 1, path => do
    let here ← IO.FS.realPath path
    if !(← here.isDir) then return .file (← readBytes path)
    let mut entries := []
    for entry in ← here.readDir do
      let name := entry.fileName
      let inner := Discovery.below here.toString name
      if ← entry.path.isDir then
        let isLink := (← IO.FS.realPath inner).toString != inner
        let tree ← if isLink || Discovery.skipsDirectory name then pure (.directory []) else readTree depth inner
        entries := (name, tree) :: entries
      else
        let bytes ← if Text.endsWith name Discovery.sourceEnding then readBytes inner else pure []
        entries := (name, .file bytes) :: entries
    return .directory entries

/-- Adds the tree at some names to a picture, if something is there. -/
def addTree (tree : FileTree) (names : List String) : IO FileTree := do
  try
    let found ← readTree depthLimit ("/" ++ Text.joinWith "/" names)
    pure (FileTree.put found names tree)
  catch _ => pure tree

/-- The places that arguments name, and those where a configuration may be. -/
def places (working : List String) (args : List String) : List (List String) :=
  let arguments := (CommandLine.Argument.list args).toOption.getD []
  let texts := CommandLine.Request.pathsOf arguments ++ CommandLine.Request.values arguments .config
  let above := (List.range (working.length + 1)).map fun n => working.take n ++ [CommandLine.configName]
  (texts.map (PathText.resolve working) ++ above).mergeSort fun a b => a.length ≤ b.length

/-- The files that the arguments can reach. -/
def readWorkspace (args : List String) : IO Workspace := do
  let working := PathText.names (← IO.currentDir).toString
  let mut tree := FileTree.put (.directory []) working (.directory [])
  for place in places working args do
    tree ← addTree tree place
  pure ⟨tree, working⟩

end GoIdiom.Program

/-- Lints the files and directories that the arguments name. -/
def main (args : List String) : IO UInt32 := do
  let workspace ← GoIdiom.Program.readWorkspace args
  let outcome := GoIdiom.CommandLine.run workspace args
  IO.print outcome.output
  if let some complaint := outcome.complaint then IO.eprintln complaint
  pure outcome.code.toUInt32
