/-!
# Findings

A finding is one violation at one place. Findings are ordered by path, line, column, rule and message;
two findings of one rule at one place are the same violation seen twice.
-/

/-!
## Categories and severities

Every rule belongs to one category, and every finding has a severity.
-/

namespace GoIdiom

/-- How serious a finding is. -/
inductive Severity where
  | error
  | warning
  | info
deriving DecidableEq, Repr, Inhabited

namespace Severity

/-- All severities, the gravest first. -/
def all : List Severity := [.error, .warning, .info]

/-- The name of a severity. -/
def name : Severity → String
  | error => "error"
  | warning => "warning"
  | info => "info"

/-- The severity with a name. -/
def ofName? (name : String) : Option Severity := all.find? (·.name == name)

end Severity

/-- The part of the style catalog that a rule belongs to. -/
inductive Category where
  | errorHandling
  | interfaceDesign
  | concurrency
  | naming
  | testing
  | organization
deriving DecidableEq, Repr, Inhabited

namespace Category

/-- All categories. -/
def all : List Category :=
  [.errorHandling, .interfaceDesign, .concurrency, .naming, .testing, .organization]

/-- The name of a category. -/
def name : Category → String
  | errorHandling => "error-handling"
  | interfaceDesign => "interface-design"
  | concurrency => "concurrency"
  | naming => "naming"
  | testing => "testing"
  | organization => "organization"

/-- The category with a name. -/
def ofName? (name : String) : Option Category := all.find? (·.name == name)

end Category

/-! ## Findings -/

/-- A violation of a rule. -/
structure Finding where
  ruleId : String
  category : Category
  severity : Severity
  path : String
  line : Int
  col : Int
  message : String
  suggestion : Option String
deriving DecidableEq, Repr, Inhabited

namespace Finding

/-- The finding on one line. -/
def text (f : Finding) : String :=
  f.path ++ ":" ++ toString f.line ++ ":" ++ toString f.col ++ ": [" ++ f.severity.name ++ "] " ++
    f.ruleId ++ ": " ++ f.message

/-- The order of findings in a report. -/
def order : Finding → Finding → Ordering :=
  compareLex (compareOn path) <| compareLex (compareOn line) <| compareLex (compareOn col) <|
    compareLex (compareOn ruleId) (compareOn message)

/-- Whether the first finding may stand before the second. -/
def le (a b : Finding) : Bool := (order a b).isLE

/-- Whether two findings are the same violation. -/
def samePlace (a b : Finding) : Bool :=
  a.ruleId == b.ruleId && a.path == b.path && a.line == b.line && a.col == b.col

/-- Sorts findings; equal ones keep their order. -/
def sort (findings : List Finding) : List Finding := findings.mergeSort le

/-- Keeps the first finding of every violation. -/
def firsts : List Finding → List Finding
  | [] => []
  | f :: rest => f :: (firsts rest).filter fun g => !samePlace f g

/-- Sorts findings and drops those that repeat a violation. -/
def aggregate (findings : List Finding) : List Finding := firsts (sort findings)

end Finding

/-- How many findings there are of every severity. -/
structure Counts where
  error : Nat
  warning : Nat
  info : Nat
deriving DecidableEq, Repr

namespace Counts

/-- Counts findings by severity. -/
def ofFindings (findings : List Finding) : Counts :=
  let count (s : Severity) : Nat := (findings.filter (·.severity == s)).length
  ⟨count .error, count .warning, count .info⟩

/-- The number of all findings. -/
def total (c : Counts) : Nat := c.error + c.warning + c.info

end Counts

end GoIdiom
