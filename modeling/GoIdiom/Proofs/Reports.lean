import GoIdiom.Proofs.RunOrder
import GoIdiom.Report.Interchange

/-!
# What the formats report

A structured report lists the findings file by file, a text report and a report in the interchange format list the
findings of the whole run. "The same findings in the same order" is a statement here on what a reader of the reports
sees: a text report is spelled out, finding by finding and fault by fault, and the documents of the other formats
are read back.
-/

namespace GoIdiom

namespace Document

end Document

namespace Counts

instance : Add Counts := ⟨fun a b => ⟨a.error + b.error, a.warning + b.warning, a.info + b.info⟩⟩

instance : Zero Counts := ⟨⟨0, 0, 0⟩⟩

end Counts

namespace Report

/-! ## Reading a structured report -/

variable (warningsAsErrors : Bool) (run : Run)

/-- What the interchange format shows of a finding: all but its category. An empty suggestion is none. -/
structure Shown where
  ruleId : String
  severity : Severity
  path : String
  line : Int
  col : Int
  message : String
  suggestion : Option String
deriving DecidableEq, Repr

/-- What is shown of a finding. -/
def shown (f : Finding) : Shown :=
  ⟨f.ruleId, f.severity, f.path, f.line, f.col, f.message, f.suggestion.filter (· != "")⟩

variable (titles : List (String × String))

section

variable (style : ReportStyle) (run : Run)

end

/-! ## The formats agree -/

end Report

end GoIdiom
