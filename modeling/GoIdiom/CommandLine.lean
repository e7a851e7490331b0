import GoIdiom.CommandLine.Request
import GoIdiom.Config.OfDocument
import GoIdiom.Linter.Running
import GoIdiom.Report.Interchange
import GoIdiom.Style.Catalog

/-!
# The command line

The arguments are read, the configuration is loaded and adjusted, the files are analyzed and the run is
reported. The process returns the status of the run, or two when the arguments or the configuration are
refused.
-/

namespace GoIdiom.CommandLine

/-- What the process returns, prints, and complains about. -/
structure Outcome where
  code : Nat
  output : String
  complaint : Option String
deriving DecidableEq, Repr

/-- The name of the configuration file that is looked for. -/
def configName : String := ".gostyle_lint.toml"

/-- Why a configuration file cannot be used. Files that break a rule are refused; one whose text cannot be
read, or whose suppressions are no collection, stops the process. -/
inductive LoadFault where
  | refused (message : String)
  | stopped (message : String)
deriving DecidableEq, Repr

/-- The directory nearest to the working directory that holds a configuration file, from it upwards. -/
def configDirectory? (w : Workspace) : Option (List String) :=
  ((List.range (w.working.length + 1)).reverse.map w.working.take).find? fun dir =>
    (w.tree.get? (dir ++ [configName])).isSome

/-- What a fault of the configuration means for the process. -/
def LoadFault.ofConfig : ConfigFault → LoadFault
  | .malformed source cause => refused (source ++ ": " ++ cause.message)
  | .unreadable source .malformed => refused (source ++ ": not a valid configuration file")
  | .unreadable source _ => stopped (source ++ " cannot be read")
  | .notDocument | .notCollection => stopped "suppressions are not a collection"

/-- The configuration in a file, for the directory it stands in. -/
def configOfFile (w : Workspace) (source : String) (directory : List String) (file : Option FileTree) :
    Except LoadFault Config :=
  match file with
  | some (.file bytes) => do
    let text ← (Text.ofBytes bytes).mapError fun fault => .stopped fault.message
    let config ← (Config.ofText source text).mapError .ofConfig
    pure { config with root := some ⟨w.working, directory⟩ }
  | _ => .error (.stopped (source ++ " is not a file"))

/-- The configuration of a run: that of the given file, or of the nearest one. -/
def loadConfig (w : Workspace) (path : Option String) : Except LoadFault Config :=
  match path with
  | some path => configOfFile w path (PathText.resolve w.working path).dropLast (w.findExactly? path)
  | none =>
    match configDirectory? w with
    | some dir => configOfFile w configName dir (w.tree.get? (dir ++ [configName]))
    | none => .ok .empty

/-- A text filled with blanks at its end. -/
def padRight (width : Nat) (s : String) : String := s ++ String.ofList (List.replicate (width - s.length) ' ')

/-- A text filled with blanks at its beginning. -/
def padLeft (width : Nat) (s : String) : String := String.ofList (List.replicate (width - s.length) ' ') ++ s

/-- The line of a rule in the list of rules. -/
def ruleLine (r : Rule) : String :=
  "  " ++ padRight 30 r.id ++ " [" ++ padLeft 7 r.severity.name ++ "]  " ++ r.title

/-- The categories by name. -/
def sortedCategories : List Category := Category.all.mergeSort fun a b => a.name ≤ b.name

/-- The list of rules by category. -/
def ruleLines (registry : Registry) : List String :=
  ["Available Rules:", ""] ++ sortedCategories.flatMap fun c =>
    match registry.all.filter (·.category == c) with
    | [] => []
    | rules => (c.name.toUpper ++ ":") :: rules.map ruleLine ++ [""]

/-- Lines as text. -/
def unlines (lines : List String) : String := String.join (lines.map (· ++ "\n"))

/-- The list of options. -/
def helpLines : List String :=
  ["Usage: gostyle-lint [OPTIONS] [PATHS]...", "", "Options:"] ++
    Setting.all.map (fun s => "  " ++ s.name ++ " VALUE") ++ Flag.all.map fun f => "  " ++ f.name

/-- The outcome when the arguments are refused. -/
def refuseUsage (fault : UsageFault) : Outcome := ⟨2, "", some ("Error: " ++ fault.message)⟩

/-- The outcome when the configuration cannot be used. -/
def refuseConfig : LoadFault → Outcome
  | .refused message => ⟨2, "", some ("Error: invalid configuration: " ++ message)⟩
  | .stopped message => ⟨1, "", some ("Error: " ++ message)⟩

/-- The answer to the first flag that asks about the program itself. -/
def aboutProgram? (arguments : List Argument) : Option Outcome :=
  arguments.findSome? fun
    | .flag .help => some ⟨0, unlines helpLines, none⟩
    | .flag .version => some ⟨0, Report.toolName ++ ", version " ++ Report.toolVersion ++ "\n", none⟩
    | _ => none

/-- Analyzes and reports what a request asks for. -/
def lint (registry : Registry) (w : Workspace) (r : Request) (config : Config) : Outcome :=
  let config := r.adjust config
  let run := Linter.run ⟨config, registry⟩ w r.paths false
  let style : ReportStyle :=
    { format := config.format
      showSuggestions := config.showSuggestions
      warningsAsErrors := config.warningsAsErrors
      titles := registry.titles }
  ⟨(run.exitStatus config.warningsAsErrors).code, Report.render style run, none⟩

/-- Does what a request asks for. -/
def answer (registry : Registry) (w : Workspace) (r : Request) : Outcome :=
  if r.listsRules then ⟨0, unlines (ruleLines registry), none⟩
  else if r.paths.isEmpty then refuseUsage .noPaths
  else
    match loadConfig w r.configPath with
    | .ok config => lint registry w r config
    | .error fault => refuseConfig fault

/-- The outcome of the command line with the given arguments. -/
def run (w : Workspace) (args : List String) : Outcome :=
  match Argument.list args with
  | .error fault => refuseUsage fault
  | .ok arguments =>
    match aboutProgram? arguments with
    | some outcome => outcome
    | none =>
      match Request.ofArguments w arguments with
      | .ok request => answer Style.registry w request
      | .error fault => refuseUsage fault

end GoIdiom.CommandLine
