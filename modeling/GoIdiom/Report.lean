import GoIdiom.Config
import GoIdiom.Document.Json
import GoIdiom.Run

/-!
# Reports

A run is reported as text for people, as a structured document, or as a document in the static analysis
results interchange format. All of them give the same findings and faults in the same order.
-/

namespace GoIdiom

/-- How a run is reported. The titles are those of the rules that have one. -/
structure ReportStyle where
  format : OutputFormat
  showSuggestions : Bool
  warningsAsErrors : Bool
  titles : List (String × String)
deriving Repr

namespace Report

/-- The name of the tool. -/
def toolName : String := "gostyle-lint"

/-- The version of the tool. -/
def toolVersion : String := "0.1.0"

/-- A number of things, in the singular or the plural. -/
def countOf (count : Nat) (word : String) : String :=
  toString count ++ " " ++ word ++ (if count == 1 then "" else "s")

/-- The lines of a finding. -/
def findingLines (style : ReportStyle) (f : Finding) : List String :=
  f.text :: (match f.suggestion with
    | some s => if style.showSuggestions && s != "" then ["    suggestion: " ++ s] else []
    | none => [])

/-- The lines that list faults, after an empty line if findings precede them. -/
def faultLines (afterFindings : Bool) (faults : List Fault) : List String :=
  if faults.isEmpty then []
  else
    (if afterFindings then [""] else []) ++
      ("Could not analyze " ++ countOf faults.length "file" ++ ":") :: faults.map ("  " ++ ·.text)

/-- The lines that list the files a cancelled run left out. -/
def skippedLines (run : Run) : List String :=
  if run.cancelled then
    ("Run cancelled; " ++ countOf run.skipped.length "file" ++ " not analyzed:") ::
      run.skipped.map ("  " ++ ·)
  else []

/-- The last line of a text report. -/
def summaryLine (run : Run) : String :=
  let c := run.counts
  let parts :=
    (if c.error > 0 then [countOf c.error "error"] else []) ++
    (if c.warning > 0 then [countOf c.warning "warning"] else []) ++
    (if c.info > 0 then [toString c.info ++ " info"] else [])
  let detail := if parts.isEmpty then "no findings" else Text.joinWith ", " parts
  countOf c.total "issue" ++ " found (" ++ detail ++ ") in " ++ countOf run.results.length "file" ++
    (if run.faults.isEmpty then "" else ", " ++ toString run.faults.length ++ " not analyzed")

/-- The lines of a text report. -/
def textLines (style : ReportStyle) (run : Run) : List String :=
  let findings := run.findings
  let faults := run.faults
  findings.flatMap (findingLines style) ++ faultLines (!findings.isEmpty) faults ++ skippedLines run ++
    (if findings.isEmpty && faults.isEmpty then
      ["No issues found in " ++ countOf run.results.length "file" ++ "."]
    else ["", summaryLine run])

/-- The report as text. -/
def text (style : ReportStyle) (run : Run) : String :=
  String.join ((textLines style run).map (· ++ "\n"))

end Report

end GoIdiom

/-!
## Structured reports

A document with all results of a run. Its keys have a fixed order, so that equal runs have equal reports.
-/

namespace GoIdiom.Report

/-- A number in a document. -/
def number (n : Nat) : Document := .int n

/-- A text in a document, or nothing. -/
def optionalText (s : Option String) : Document := (s.map Document.text).getD .null

/-- The name and version of the tool. -/
def toolEntries : Table := [("name", .text toolName), ("version", .text toolVersion)]

/-- A finding. -/
def findingDocument (f : Finding) : Document :=
  .table [("rule_id", .text f.ruleId), ("category", .text f.category.name), ("severity", .text f.severity.name),
    ("path", .text f.path), ("line", .int f.line), ("col", .int f.col), ("message", .text f.message),
    ("suggestion", optionalText f.suggestion)]

/-- A fault. -/
def faultDocument (f : Fault) : Document :=
  .table [("path", .text f.path), ("kind", .text f.kind), ("line", .int f.line), ("col", .int f.col),
    ("message", .text f.message)]

/-- The numbers of findings. -/
def countEntries (c : Counts) : Table :=
  [("error", number c.error), ("warning", number c.warning), ("info", number c.info), ("total", number c.total)]

/-- The result of a file. -/
def resultDocument (r : FileResult) : Document :=
  .table [("path", .text r.path), ("findings", .list (r.findings.map findingDocument)),
    ("summary", .table (countEntries r.counts)), ("fault", (r.fault.map faultDocument).getD .null)]

/-- The summary of a run. -/
def summaryDocument (s : RunSummary) : Document :=
  .table ([("files", number s.files), ("analyzed", number s.analyzed), ("failed", number s.failed),
    ("skipped", number s.skipped)] ++ countEntries s.counts)

/-- A run. -/
def runDocument (warningsAsErrors : Bool) (run : Run) : Document :=
  .table [("tool", .table toolEntries), ("files", .list (run.results.map resultDocument)),
    ("faults", .list (run.faults.map faultDocument)), ("skipped", .list (run.skipped.map .text)),
    ("cancelled", .bool run.cancelled), ("summary", summaryDocument run.summary),
    ("exit_status", number (run.exitStatus warningsAsErrors).code)]

/-- The report as a structured document. -/
def structured (style : ReportStyle) (run : Run) : String :=
  (runDocument style.warningsAsErrors run).indented 0 ++ "\n"

end GoIdiom.Report
