import GoIdiom.Config
import GoIdiom.Document.Toml
import GoIdiom.Text.CharClass
import GoIdiom.Text.Letter

/-!
# Reading a configuration

The sections of a configuration document are checked one after the other, and the first thing of the
wrong shape is reported. Unknown sections and keys are passed over.
-/

namespace GoIdiom

/-- What is wrong with a configuration document. -/
inductive ConfigCause where
  | notTable (section' : String)
  | ruleNotText (rule typeName : String)
  | ruleValue (rule value : String)
  | notTextList (place : String)
  | unknownCategories (names : List String)
  | unknownFormat
  | notTruth (place : String)
  | jobs
  | optionsNotTable (rule : String)
  | entryNotTable (index : Nat)
  | entryRule (index : Nat)
  | entryLines (index : Nat)
  | entryJustification (index : Nat)
deriving DecidableEq, Repr

/-- The wording of a cause. -/
def ConfigCause.message : ConfigCause → String
  | notTable name => "[" ++ name ++ "] must be a table"
  | ruleNotText rule typeName => "[rules] " ++ rule ++ " must be a string, got " ++ typeName
  | ruleValue rule value =>
    "[rules] " ++ rule ++ " = " ++ Text.quoted value ++ " is not off/error/warning/info"
  | notTextList place => place ++ " must be a list of strings"
  | unknownCategories names => "unknown categories " ++ (Document.list (names.map .text)).shown
  | unknownFormat => "[output] format must be one of " ++ Text.joinWith ", " (OutputFormat.all.map (·.name))
  | notTruth place => place ++ " must be true or false"
  | jobs => "[analysis] jobs must be a non-negative integer"
  | optionsNotTable rule => "[options." ++ rule ++ "] must be a table"
  | entryNotTable index => "suppressions[" ++ toString index ++ "]: expected a table"
  | entryRule index => "suppressions[" ++ toString index ++ "]: 'rule' is required"
  | entryLines index => "suppressions[" ++ toString index ++ "]: 'lines' must be [start, end]"
  | entryJustification index => "suppressions[" ++ toString index ++ "]: 'justification' must be a string"

/-- Why a configuration cannot be read. A text may stand for no document, a document that is no table has
no sections, and suppressions that are no collection have no entries to report. -/
inductive ConfigFault where
  | malformed (source : String) (cause : ConfigCause)
  | unreadable (source : String) (fault : TomlFault)
  | notDocument
  | notCollection
deriving DecidableEq, Repr

/-- The wording of a fault, for those that have one. -/
def ConfigFault.message? : ConfigFault → Option String
  | malformed source cause => some (source ++ ": " ++ cause.message)
  | _ => none

namespace Config

/-- The sections of a configuration are read in this monad, whose errors are causes. -/
abbrev Check := Except ConfigCause

/-- Words that turn a rule off. -/
def offWords : List String := ["off", "false", "disabled"]

/-- A section, empty when it is missing. -/
def sectionOf (data : Table) (name : String) : Check Table :=
  match data.lookup name with
  | none => .ok []
  | some value =>
    match value.entries? with
    | some entries => .ok entries
    | none => .error (.notTable name)

/-- A list of texts. -/
def textList (value : Document) (place : String) : Check (List String) :=
  match value with
  | .list items =>
    match Document.texts? items with
    | some texts => .ok texts
    | none => .error (.notTextList place)
  | _ => .error (.notTextList place)

/-- A truth value. -/
def truth (value : Document) (place : String) : Check Bool :=
  match value with
  | .bool b => .ok b
  | _ => .error (.notTruth place)

/-- Applies the value under a key, if there is one. -/
def whenPresent (entries : Table) (key : String) (config : Config) (apply : Document → Check Config) :
    Check Config :=
  match entries.lookup key with
  | some value => apply value
  | none => .ok config

/-- What the section of rules says about one rule. -/
def applyRule (config : Config) (rule : String) (value : Document) : Check Config :=
  match value with
  | .text word =>
    let word := Text.lower word
    if offWords.contains word then .ok { config with disabledRules := config.disabledRules ++ [rule] }
    else
      match Severity.ofName? word with
      | some severity => .ok { config with severities := config.severities ++ [(rule, severity)] }
      | none => .error (.ruleValue rule word)
  | other => .error (.ruleNotText rule other.typeName)

/-- The section of rules. -/
def applyRules (config : Config) : Table → Check Config
  | [] => .ok config
  | (rule, value) :: rest => do applyRules (← applyRule config rule value) rest

/-- The section of categories. -/
def applyCategories (config : Config) (entries : Table) : Check Config :=
  whenPresent entries "enabled" config fun value => do
    let names ← textList value "[categories] enabled"
    let unknown := (names.filter fun n => (Category.ofName? n).isNone).eraseDups.mergeSort (· ≤ ·)
    if unknown.isEmpty then
      pure { config with enabledCategories := some (names.filterMap Category.ofName?) }
    else .error (.unknownCategories unknown)

/-- The section of the output. -/
def applyOutput (config : Config) (entries : Table) : Check Config := do
  let config ← whenPresent entries "format" config fun value =>
    match value with
    | .text name =>
      match OutputFormat.ofName? name with
      | some format => .ok { config with format }
      | none => .error .unknownFormat
    | _ => .error .unknownFormat
  let config ← whenPresent entries "treat_warnings_as_errors" config fun value => do
    let b ← truth value "[output] treat_warnings_as_errors"
    pure { config with warningsAsErrors := b }
  whenPresent entries "show_suggestions" config fun value => do
    let b ← truth value "[output] show_suggestions"
    pure { config with showSuggestions := b }

/-- The section of the analysis. -/
def applyAnalysis (config : Config) (entries : Table) : Check Config := do
  let config ← whenPresent entries "jobs" config fun value =>
    match value with
    | .int n => if n < 0 then .error .jobs else .ok { config with jobs := n.toNat }
    | _ => .error .jobs
  whenPresent entries "exclude" config fun value => do
    let patterns ← textList value "[analysis] exclude"
    pure { config with exclude := patterns }

/-- The section of options. -/
def applyOptions (config : Config) : Table → Check Config
  | [] => .ok config
  | (rule, value) :: rest =>
    match value.entries? with
    | some options => applyOptions { config with options := config.options ++ [(rule, options)] } rest
    | none => .error (.optionsNotTable rule)

/-- A bound of a line range. -/
def lineBound? : Document → Option LineBound
  | .int n => some (.number n)
  | .bool b => some (.truth b)
  | _ => none

/-- The line range of a suppression. -/
def lineRange? : Document → Option (LineBound × LineBound)
  | .list [first, last] => do
    let a ← lineBound? first
    let b ← lineBound? last
    if a.line ≤ b.line then some (a, b) else none
  | _ => none

/-- The rule that a suppression is declared for. -/
def declaredRule (index : Nat) (entry : Table) : Check String :=
  match entry.lookup "rule" with
  | some (.text rule) => .ok rule
  | _ => .error (.entryRule index)

/-- The paths that a suppression is declared for: one, several or, without any, all. -/
def declaredPaths (index : Nat) (entry : Table) : Check (List String) :=
  match entry.lookup "paths" with
  | none => .ok ["**"]
  | some (.text path) => .ok [path]
  | some value => textList value ("suppressions[" ++ toString index ++ "] paths")

/-- The lines that a suppression is declared for, if it is not for all. -/
def declaredLines (index : Nat) (entry : Table) : Check (Option (LineBound × LineBound)) :=
  match entry.lookup "lines" with
  | none | some .null => .ok none
  | some value =>
    match lineRange? value with
    | some range => .ok (some range)
    | none => .error (.entryLines index)

/-- Why a suppression is declared. -/
def declaredJustification (index : Nat) (entry : Table) : Check String :=
  match entry.lookup "justification" with
  | none => .ok ""
  | some (.text text) => .ok (Text.trim text)
  | some _ => .error (.entryJustification index)

/-- One declared suppression. -/
def suppressionEntry (index : Nat) (value : Document) : Check SuppressionEntry :=
  match value.entries? with
  | some entry => do
    let rule ← declaredRule index entry
    let paths ← declaredPaths index entry
    let lines ← declaredLines index entry
    let justification ← declaredJustification index entry
    pure ⟨rule, paths, justification, lines⟩
  | none => .error (.entryNotTable index)

/-- The declared suppressions, counted from an index. -/
def suppressionEntries (index : Nat) : List Document → Check (List SuppressionEntry)
  | [] => .ok []
  | value :: rest => do
    let entry ← suppressionEntry index value
    let more ← suppressionEntries (index + 1) rest
    pure (entry :: more)

/-- The entries of a collection; those of a text are its characters, those of a table its keys. -/
def entriesOf? : Document → Option (List Document)
  | .list items => some items
  | .text s => some (s.toList.map fun c => .text (String.ofList [c]))
  | .table entries | .inlineTable entries => some (entries.map fun (key, _) => .text key)
  | _ => none

/-- All sections but the suppressions. -/
def ofSections (data : Table) : Check Config := do
  let config ← applyRules empty (← sectionOf data "rules")
  let config ← applyCategories config (← sectionOf data "categories")
  let config ← applyOutput config (← sectionOf data "output")
  let config ← applyAnalysis config (← sectionOf data "analysis")
  applyOptions config (← sectionOf data "options")

/-- The configuration that a document stands for. Faults name the source of the document. -/
def ofDocument (source : String) (data : Document) : Except ConfigFault Config :=
  match data.entries? with
  | some entries => do
    let config ← (ofSections entries).mapError (ConfigFault.malformed source)
    match entriesOf? ((entries.lookup "suppressions").getD (.list [])) with
    | none => .error .notCollection
    | some values => do
      let suppressions ← (suppressionEntries 0 values).mapError (ConfigFault.malformed source)
      pure { config with suppressions }
  | none => .error .notDocument

/-- The configuration that the text of a configuration file stands for. -/
def ofText (source text : String) : Except ConfigFault Config :=
  match Document.ofToml text with
  | .ok data => ofDocument source data
  | .error fault => .error (.unreadable source fault)

end Config

end GoIdiom
