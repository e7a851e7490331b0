import GoIdiom.Report

/-!
# Reports for other tools

The static analysis results interchange format, version 2.1.0: one run with the rules that reported
something, the faults as notifications, and the findings as results.
-/

namespace GoIdiom.Report

/-- Where the schema of the format is. -/
def schemaAddress : String :=
  "https://raw.githubusercontent.com/oasis-tcs/sarif-spec/master/Schemata/sarif-schema-2.1.0.json"

/-- The version of the format. -/
def schemaVersion : String := "2.1.0"

/-- The level of a severity. -/
def levelOf : Severity → String
  | .error => "error"
  | .warning => "warning"
  | .info => "note"

/-- A message or description. -/
def messageDocument (s : String) : Document := .table [("text", .text s)]

/-- A place in a file, as the only item of a list of places. -/
def placeDocument (path : String) (line col : Int) : Document :=
  .list [.table [("physicalLocation", .table [("artifactLocation", .table [("uri", .text path)]),
    ("region", .table [("startLine", .int line), ("startColumn", .int col)])])]]

/-- A finding as a result, with its suggestion if it has one. -/
def resultEntry (f : Finding) : Document :=
  let fixes := match f.suggestion with
    | some s =>
      if s == "" then [] else [("fixes", Document.list [.table [("description", messageDocument s)]])]
    | none => []
  .table ([("ruleId", .text f.ruleId), ("level", .text (levelOf f.severity)),
    ("message", messageDocument f.message), ("locations", placeDocument f.path f.line f.col)] ++ fixes)

/-- The rules that reported something. -/
def reportedRules (findings : List Finding) : List String :=
  (findings.map (·.ruleId)).eraseDups.mergeSort (· ≤ ·)

/-- A rule with its title, if it has one. -/
def ruleEntry (titles : List (String × String)) (id : String) : Document :=
  let title := match titles.lookup id with
    | some title => [("shortDescription", messageDocument title)]
    | none => []
  .table ([("id", .text id)] ++ title)

/-- A fault as a notification. -/
def notificationEntry (f : Fault) : Document :=
  .table [("level", .text "error"), ("descriptor", .table [("id", .text f.kind)]),
    ("message", messageDocument f.message), ("locations", placeDocument f.path f.line f.col)]

/-- A run in the interchange format. -/
def interchangeDocument (titles : List (String × String)) (run : Run) : Document :=
  let findings := run.findings
  let faults := run.faults
  let rules := (reportedRules findings).map (ruleEntry titles)
  let invocation := Document.table [("executionSuccessful", .bool (faults.isEmpty && !run.cancelled)),
    ("toolExecutionNotifications", .list (faults.map notificationEntry))]
  .table [("$schema", .text schemaAddress), ("version", .text schemaVersion),
    ("runs", .list [.table [("tool", .table [("driver", .table (toolEntries ++ [("rules", .list rules)]))]),
      ("invocations", .list [invocation]), ("results", .list (findings.map resultEntry))]])]

/-- The report in the interchange format. -/
def interchange (style : ReportStyle) (run : Run) : String :=
  (interchangeDocument style.titles run).indented 0 ++ "\n"

/-- The report of a run. -/
def render (style : ReportStyle) (run : Run) : String :=
  match style.format with
  | .text => text style run
  | .structured => structured style run
  | .sarif => interchange style run

end GoIdiom.Report
