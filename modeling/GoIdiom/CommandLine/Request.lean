import GoIdiom.Text.Search
import GoIdiom.Config
import GoIdiom.FileTree
import GoIdiom.Text.Numeral

/-!
# Requests

The arguments together ask for one run. Every path has to lead somewhere and every value has to be one of
those allowed; of a setting that is given more than once, and can have one value only, the last counts.
-/

/-!
## Arguments of the command line

Options begin with hyphens, one for single letters and two for words; everything else is a path, and so
is whatever follows two hyphens that stand alone. The value of an option is attached to it or is the next
argument, whatever that looks like.
-/

namespace GoIdiom.CommandLine

/-- An option without a value. -/
inductive Flag where
  | warningsAsErrors
  | suggestions
  | listRules
  | verbose
  | version
  | help
deriving DecidableEq, Repr

namespace Flag

/-- All flags. -/
def all : List Flag := [.warningsAsErrors, .suggestions, .listRules, .verbose, .version, .help]

/-- The long name of a flag. -/
def name : Flag → String
  | warningsAsErrors => "--warnings-as-errors"
  | suggestions => "--suggestions"
  | listRules => "--list-rules"
  | verbose => "--verbose"
  | version => "--version"
  | help => "--help"

end Flag

/-- An option with a value. -/
inductive Setting where
  | config
  | format
  | enableCategory
  | enableRule
  | disableRule
  | jobs
deriving DecidableEq, Repr

namespace Setting

/-- All settings. -/
def all : List Setting := [.config, .format, .enableCategory, .enableRule, .disableRule, .jobs]

/-- The long name of a setting. -/
def name : Setting → String
  | config => "--config"
  | format => "--format"
  | enableCategory => "--enable-category"
  | enableRule => "--enable-rule"
  | disableRule => "--disable-rule"
  | jobs => "--jobs"

end Setting

/-- What one or two arguments mean. -/
inductive Argument where
  | path (text : String)
  | flag (flag : Flag)
  | setting (setting : Setting) (value : String)
deriving DecidableEq, Repr

/-- Why arguments are refused. -/
inductive UsageFault where
  | unknownOption (name : String)
  | missingValue (name : String)
  | unexpectedValue (name : String)
  | badValue (name value : String)
  | noSuchPath (path : String)
  | noPaths
deriving DecidableEq, Repr

/-- The wording of a fault. -/
def UsageFault.message : UsageFault → String
  | unknownOption name => "No such option: " ++ name
  | missingValue name => "Option '" ++ name ++ "' requires an argument."
  | unexpectedValue name => "Option '" ++ name ++ "' does not take a value."
  | badValue name value => "Invalid value for '" ++ name ++ "': '" ++ value ++ "'"
  | noSuchPath path => "Path '" ++ path ++ "' does not exist."
  | noPaths => "Provide at least one file or directory to analyze"

namespace Argument

/-- Options read from one argument, the last of which may still wait for its value. -/
structure Opened where
  arguments : List Argument
  awaiting : Option Setting
deriving DecidableEq, Repr

/-- Reads letters after one hyphen. What follows a letter that takes a value is that value. -/
def ofLetters : List Char → Except UsageFault Opened
  | [] => .ok ⟨[], none⟩
  | c :: rest =>
    if c = 'v' then (ofLetters rest).map fun o => { o with arguments := .flag .verbose :: o.arguments }
    else if c = 'j' then
      .ok (if rest.isEmpty then ⟨[], some .jobs⟩ else ⟨[.setting .jobs (String.ofList rest)], none⟩)
    else .error (.unknownOption (String.ofList ['-', c]))

/-- Reads a long name, to which a value may be attached. -/
def ofName (name : String) (value : Option String) : Except UsageFault Opened :=
  match Flag.all.find? (·.name == name), Setting.all.find? (·.name == name), value with
  | some f, _, none => .ok ⟨[.flag f], none⟩
  | some _, _, some _ => .error (.unexpectedValue name)
  | none, some s, some value => .ok ⟨[.setting s value], none⟩
  | none, some s, none => .ok ⟨[], some s⟩
  | none, none, _ => .error (.unknownOption name)

/-- Whether an argument is an option. -/
def isOption (text : String) : Bool := Text.startsWith text "-" && text.length > 1

/-- Reads an option. -/
def ofOption (text : String) : Except UsageFault Opened :=
  if Text.startsWith text "--" then
    match Text.cutFirst text '=' with
    | some (name, value) => ofName name (some value)
    | none => ofName text none
  else ofLetters (text.toList.drop 1)

/-- Reads all arguments. -/
def list : List String → Except UsageFault (List Argument)
  | [] => .ok []
  | text :: rest =>
    if text == "--" then .ok (rest.map .path)
    else if isOption text then
      match ofOption text, rest with
      | .error fault, _ => .error fault
      | .ok ⟨found, none⟩, rest => (list rest).map (found ++ ·)
      | .ok ⟨_, some s⟩, [] => .error (.missingValue s.name)
      | .ok ⟨found, some s⟩, value :: rest => (list rest).map (found ++ .setting s value :: ·)
    else (list rest).map (.path text :: ·)

end Argument

/-! ## What is asked for -/

/-- What the arguments ask for. -/
structure Request where
  paths : List String
  configPath : Option String
  format : Option OutputFormat
  categories : List Category
  enabledRules : List String
  disabledRules : List String
  warningsAsErrors : Bool
  showSuggestions : Bool
  listsRules : Bool
deriving DecidableEq, Repr

namespace Request

/-- The values given for a setting. -/
def values (arguments : List Argument) (setting : Setting) : List String :=
  arguments.filterMap fun
    | .setting s value => if s == setting then some value else none
    | _ => none

/-- Whether a flag is given. -/
def has (arguments : List Argument) (flag : Flag) : Bool := arguments.contains (.flag flag)

/-- The paths. -/
def pathsOf (arguments : List Argument) : List String :=
  arguments.filterMap fun
    | .path text => some text
    | _ => none

/-- Whether a text is a whole number that is not negative. -/
def isCount (text : String) : Bool := (Text.integer? text.toList).any (0 ≤ ·)

/-- Reads a value that has to be known. -/
def known {α : Type} (setting : Setting) (ofName? : String → Option α) (value : String) :
    Except UsageFault α :=
  match ofName? value with
  | some x => .ok x
  | none => .error (.badValue setting.name value)

/-- Refuses the first text that fails a test. -/
def require (test : String → Bool) (fault : String → UsageFault) : List String → Except UsageFault Unit
  | [] => .ok ()
  | text :: rest => if test text then require test fault rest else .error (fault text)

/-- Whether a path leads to a file. -/
def isFile (w : Workspace) (path : String) : Bool := (w.findExactly? path).any fun t => !t.isDirectory

/-- Checks the arguments. -/
def ofArguments (w : Workspace) (arguments : List Argument) : Except UsageFault Request := do
  let paths := pathsOf arguments
  require (fun p => (w.findExactly? p).isSome) .noSuchPath paths
  let configPath := (values arguments .config).getLast?
  require (isFile w) (.badValue Setting.config.name) configPath.toList
  let format ← match (values arguments .format).getLast? with
    | some value => (known .format OutputFormat.ofName? value).map some
    | none => pure none
  let categories ← (values arguments .enableCategory).mapM (known .enableCategory Category.ofName?)
  require isCount (.badValue Setting.jobs.name) (values arguments .jobs).getLast?.toList
  pure
    { paths := paths
      configPath := configPath
      format := format
      categories := categories
      enabledRules := values arguments .enableRule
      disabledRules := values arguments .disableRule
      warningsAsErrors := has arguments .warningsAsErrors
      showSuggestions := has arguments .suggestions
      listsRules := has arguments .listRules }

/-- The configuration with what the arguments change. -/
def adjust (r : Request) (config : Config) : Config :=
  { config with
    format := r.format.getD config.format
    enabledCategories := if r.categories.isEmpty then config.enabledCategories else some r.categories
    enabledRules := if r.enabledRules.isEmpty then config.enabledRules else some r.enabledRules
    disabledRules := config.disabledRules ++ r.disabledRules
    warningsAsErrors := config.warningsAsErrors || r.warningsAsErrors
    showSuggestions := config.showSuggestions || r.showSuggestions }

end Request

end GoIdiom.CommandLine
