import GoIdiom.Linter

/-!
# Runs

A run analyzes several files. Its result keeps the result of every file that was analyzed and the files
that were not, and faults of the paths it was given; findings and faults are read off in order.
-/

namespace GoIdiom

/-- How a run ends. -/
inductive ExitStatus where
  | clean
  | findings
  | toolFault
deriving DecidableEq, Repr

/-- The number that a process returns for a status. -/
def ExitStatus.code : ExitStatus → Nat
  | clean => 0
  | findings => 1
  | toolFault => 2

/-- The results of a run. -/
structure Run where
  results : List FileResult
  skipped : List String
  cancelled : Bool
  pathFaults : List Fault
deriving DecidableEq, Repr

/-- The numbers that sum up a run. -/
structure RunSummary where
  files : Nat
  analyzed : Nat
  failed : Nat
  skipped : Nat
  counts : Counts
deriving DecidableEq, Repr

namespace Run

/-- The results by path. -/
def byPath (results : List FileResult) : List FileResult := results.mergeSort fun a b => a.path ≤ b.path

/-- The findings in all files, in order. -/
def findings (r : Run) : List Finding := Finding.sort (r.results.flatMap (·.findings))

/-- The faults of files and paths, in order. -/
def faults (r : Run) : List Fault := (r.results.filterMap (·.fault) ++ r.pathFaults).mergeSort Fault.le

/-- The number of findings by severity. -/
def counts (r : Run) : Counts := .ofFindings r.findings

/-- Whether something could not be analyzed, or a matcher gave up. -/
def hasToolFaults (r : Run) : Bool :=
  !r.faults.isEmpty || r.findings.any (·.ruleId == Style.Organization.ruleInternalError)

/-- How the run ends. Faults and cancellation outweigh findings. -/
def exitStatus (r : Run) (warningsAsErrors : Bool) : ExitStatus :=
  if r.hasToolFaults || r.cancelled then .toolFault
  else if r.counts.error > 0 || (warningsAsErrors && r.counts.warning > 0) then .findings
  else .clean

/-- The summary of the run. -/
def summary (r : Run) : RunSummary :=
  { files := r.results.length + r.skipped.length
    analyzed := (r.results.filter (!·.failed)).length
    failed := r.faults.length
    skipped := r.skipped.length
    counts := r.counts }

end Run

end GoIdiom
