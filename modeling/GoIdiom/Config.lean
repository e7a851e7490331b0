import GoIdiom.Finding
import GoIdiom.Document

/-!
# Configuration

Which rules run, with which severities and options, what is left out, and how a run is reported.
-/

namespace GoIdiom

/-- A bound of a line range as the configuration writes it. A truth value counts as line one or
zero. -/
inductive LineBound where
  | number (value : Int)
  | truth (value : Bool)
deriving DecidableEq, Repr

/-- The line that a bound stands for. -/
def LineBound.line : LineBound → Int
  | number value => value
  | truth value => if value then 1 else 0

/-- A suppression that the configuration declares. -/
structure SuppressionEntry where
  rule : String
  paths : List String
  justification : String
  lines : Option (LineBound × LineBound)
deriving DecidableEq, Repr

/-- How a run is reported. -/
inductive OutputFormat where
  | text
  | structured
  | sarif
deriving DecidableEq, Repr, Inhabited

namespace OutputFormat

/-- All formats. -/
def all : List OutputFormat := [.text, .structured, .sarif]

/-- The name of a format. -/
def name : OutputFormat → String
  | text => "text"
  | structured => "structured"
  | sarif => "sarif"

/-- The format with a name. -/
def ofName? (name : String) : Option OutputFormat := all.find? (·.name == name)

end OutputFormat

/-- The directory of the configuration file and the working directory, each by the names that lead to
it from the top. -/
structure ConfigRoot where
  working : List String
  directory : List String
deriving DecidableEq, Repr

/-- A configuration. Without enabled categories all categories are; without enabled rules every rule
of an enabled category is. -/
structure Config where
  enabledCategories : Option (List Category)
  enabledRules : Option (List String)
  disabledRules : List String
  severities : List (String × Severity)
  options : List (String × Table)
  warningsAsErrors : Bool
  showSuggestions : Bool
  format : OutputFormat
  jobs : Nat
  exclude : List String
  suppressions : List SuppressionEntry
  root : Option ConfigRoot
deriving Inhabited

namespace Config

/-- The configuration that a run has without any file. -/
def empty : Config :=
  { enabledCategories := none
    enabledRules := none
    disabledRules := []
    severities := []
    options := []
    warningsAsErrors := false
    showSuggestions := false
    format := .text
    jobs := 0
    exclude := []
    suppressions := []
    root := none }

/-- Whether a rule runs. A disabled rule never does, an enabled one always; otherwise its category
decides. -/
def isEnabled (config : Config) (rule : String) (category : Option Category) : Bool :=
  if config.disabledRules.contains rule then false
  else if config.enabledRules.any (·.contains rule) then true
  else
    match config.enabledCategories with
    | some categories => category.any categories.contains
    | none => config.enabledRules.isNone

/-- The severity that the configuration gives a rule, or else the given one. -/
def severityOf (config : Config) (rule : String) (fallback : Severity) : Severity :=
  (config.severities.lookup rule).getD fallback

/-- The options of a rule. -/
def optionsOf (config : Config) (rule : String) : Table := (config.options.lookup rule).getD []

end Config

end GoIdiom
