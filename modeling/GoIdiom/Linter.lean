import GoIdiom.Rule.Registry
import GoIdiom.Notice
import GoIdiom.Style.Organization
import GoIdiom.SourceFile
import GoIdiom.Suppression
import GoIdiom.Suppression.Directive
import GoIdiom.Fault

/-!
# The linter

A linter is a registry of rules together with a configuration. Besides the rules that have a matcher it
reports engine rules itself, and takes everything about them from the registry.
-/

namespace GoIdiom

/-- The rules that can run, and the configuration they run with. -/
structure Linter where
  config : Config
  registry : Registry

/-- An engine rule that has to be reported and is not in the registry. -/
structure MissingRule where
  id : String
deriving DecidableEq, Repr

namespace Linter

/-- The rules that run, in the order of the registry. -/
def rules (l : Linter) : List Rule := l.registry.enabled l.config

/-- Whether an identifier is that of an engine rule. -/
def isEngineRule (l : Linter) (id : String) : Bool := l.registry.rules.any fun r => r.isEngine && r.id == id

/-- A finding of an engine rule. -/
def engineFinding (l : Linter) (id path : String) (line col : Int) (message : String) :
    Except MissingRule Finding :=
  match l.registry.get? id with
  | none => .error ⟨id⟩
  | some rule =>
    .ok
      { ruleId := id
        category := rule.category
        severity := l.config.severityOf id rule.severity
        path := path
        line := line
        col := col
        message := message
        suggestion := rule.suggestion }

end Linter

/-!
## Evaluating rules

Every rule is tried on every construct of the kinds it looks at. Trials do not see each other: a matcher
that gives up on a construct becomes a finding there, and nothing else changes.
-/

/-- A rule, a construct that it looked at, and what came of it. -/
structure Trial where
  rule : Rule
  construct : Construct
  outcome : Except MatchFailure (List Hit)

namespace Trial

/-- The finding that a hit of the trial makes. A severity that the matcher chooses is kept. -/
def findingOf (config : Config) (t : Trial) (hit : Hit) : Finding :=
  { ruleId := t.rule.id
    category := t.rule.category
    severity := hit.severity.getD (config.severityOf t.rule.id t.rule.severity)
    path := t.construct.path
    line := hit.line.getD t.construct.pos.line
    col := hit.col.getD t.construct.pos.col
    message := hit.message
    suggestion := hit.suggestion.or t.rule.suggestion }

/-- The report on a matcher that gave up. -/
def failureText (t : Trial) (cause : MatchFailure) : String :=
  "Rule '" ++ t.rule.id ++ "' failed on " ++ t.construct.kind.name ++ " unit (" ++ cause.message ++ ")"

/-- The findings of a trial. -/
def findings (l : Linter) (t : Trial) : Except MissingRule (List Finding) :=
  match t.outcome with
  | .ok hits => .ok (hits.map (t.findingOf l.config))
  | .error cause => do
    let f ← l.engineFinding Style.Organization.ruleInternalError t.construct.path t.construct.pos.line
      t.construct.pos.col (t.failureText cause)
    pure [f]

/-- The notices of a trial. -/
def notices (t : Trial) : List Notice :=
  match t.outcome with
  | .ok _ => []
  | .error cause => [.matcherFailed t.construct.path t.construct.pos (t.failureText cause)]

end Trial

namespace Linter

/-- The trials of a rule on the constructs of a file. A rule without a matcher is not tried. -/
def trialsOf (l : Linter) (index : ConstructIndex) (constructs : List Construct) (rule : Rule) : List Trial :=
  match rule.matcher with
  | none => []
  | some m =>
    (constructs.filter fun c => m.kinds.contains c.kind).map fun c =>
      ⟨rule, c, m.predicate c ⟨index, l.config.optionsOf rule.id⟩⟩

/-- The trials of rules on the constructs of a file. -/
def trials (l : Linter) (rules : List Rule) (constructs : List Construct) : List Trial :=
  rules.flatMap (l.trialsOf (.ofConstructs constructs) constructs)

/-- The findings of trials, one after the other. -/
def collect (l : Linter) : List Trial → Except MissingRule (List Finding)
  | [] => .ok []
  | t :: rest => do
    let here ← t.findings l
    let more ← collect l rest
    pure (here ++ more)

/-- The findings of rules on the constructs of a file, before any suppression. -/
def evaluate (l : Linter) (rules : List Rule) (constructs : List Construct) :
    Except MissingRule (List Finding) :=
  l.collect (l.trials rules constructs)

end Linter

end GoIdiom

/-!
## Applying suppressions

Justified suppressions remove the findings they cover, those of engine rules excepted. What is wrong
with a suppression is reported where it is declared.
-/

namespace GoIdiom.Linter

/-- The notice on a suppression that names rules which are not in the registry. -/
def unknownRules (l : Linter) (s : Suppression) : List Notice :=
  let unknown := s.rules.filter fun r => r != Suppression.wildcard && !l.registry.contains r
  if unknown.isEmpty then [] else [.unknownRules s.path s.line unknown]

/-- The suppressions in a file: those of its comments, then those of the configuration. -/
def suppressions (l : Linter) (file : SourceFile) : Suppression.Found :=
  let found := Suppression.ofComments file.path file.codeLines file.lineCount file.comments
  let all := found.suppressions ++ Suppression.ofEntries l.config.root file.path l.config.suppressions
  ⟨all, found.notices ++ all.flatMap l.unknownRules⟩

/-- Whether a finding stays: no justified suppression covers it, or its rule is an engine rule. -/
def keeps (l : Linter) (suppressions : List Suppression) (f : Finding) : Bool :=
  l.isEngineRule f.ruleId || !suppressions.any fun s => s.isJustified && s.covers f

/-- What is wrong with a suppression, by the rules it breaks. -/
def complaints (s : Suppression) : List (String × String) :=
  (if s.isJustified then []
    else [(Style.Organization.missingJustification,
      "suppression of " ++ s.describe ++ " has no justification and is ignored")]) ++
  (if s.isWildcard then [(Style.Organization.broadSuppression, "wildcard suppression silences every rule")]
    else [])

/-- The findings on suppressions themselves. -/
def complaintFindings (l : Linter) : List (Suppression × String × String) → Except MissingRule (List Finding)
  | [] => .ok []
  | (s, id, message) :: rest => do
    let f ← l.engineFinding id s.path s.line s.col message
    let more ← complaintFindings l rest
    pure (f :: more)

/-- The findings that stay, followed by those on the suppressions. -/
def resolve (l : Linter) (findings : List Finding) (suppressions : List Suppression) :
    Except MissingRule (List Finding) := do
  let reported ← l.complaintFindings (suppressions.flatMap fun s => (complaints s).map fun c => (s, c))
  pure (findings.filter (l.keeps suppressions) ++ reported)

end GoIdiom.Linter

/-!
## Analyzing a file

A source text is decomposed, the rules are evaluated, and suppressions are applied. Whatever goes wrong
on the way becomes a fault of the file.
-/

namespace GoIdiom

/-- Why a source text could not be analyzed: the file, a rule that has to be reported, or nesting that is too deep
for the interpreter, by what the interpreter says of it. -/
inductive AnalysisFault where
  | file (fault : FileFault)
  | missingRule (id : String)
  | nesting (cause : String)
deriving DecidableEq, Repr

namespace AnalysisFault

/-- The fault that is recorded for a file. Nesting that is too deep is a fault of the source and not of the tool. -/
def record (path : String) : AnalysisFault → Fault
  | file (.source f) => .ofSource path f
  | file (.size f) => .ofTool path ("ValueError: " ++ f.message)
  | missingRule _ => .ofTool path "AttributeError: 'NoneType' object has no attribute 'category'"
  | nesting cause => ⟨path, Fault.parseKind, "nesting too deep to analyze (" ++ cause ++ ")", 1, 1⟩

end AnalysisFault

/-- The findings in one file, or the fault that stopped its analysis. -/
structure FileResult where
  path : String
  findings : List Finding
  fault : Option Fault
deriving DecidableEq, Repr

namespace FileResult

/-- The result of an analysis, its findings sorted and without repetitions. -/
def ofFindings (path : String) (findings : List Finding) : FileResult :=
  ⟨path, Finding.aggregate findings, none⟩

/-- The result for a file with a fault. -/
def ofFault (path : String) (fault : Fault) : FileResult := ⟨path, [], some fault⟩

/-- Whether the file could not be analyzed. -/
def failed (r : FileResult) : Bool := r.fault.isSome

/-- The number of findings by severity. -/
def counts (r : FileResult) : Counts := .ofFindings r.findings

end FileResult

namespace Linter

/-- The findings in a decomposed file. -/
def findingsIn (l : Linter) (file : SourceFile) : Except MissingRule (List Finding) := do
  let candidates ← l.evaluate l.rules file.constructs
  let resolved ← l.resolve candidates (l.suppressions file).suppressions
  pure (Finding.aggregate resolved)

/-- The findings in a source text, or what stopped their search. -/
def analyze (l : Linter) (source path : String) : Except AnalysisFault (List Finding) :=
  match SourceFile.read source path with
  | .error f => .error (.file f)
  | .ok file => (l.findingsIn file).mapError fun m => .missingRule m.id

/-- The result for a source text; every failure is recorded as a fault. -/
def analyzeSource (l : Linter) (source path : String) : FileResult :=
  match l.analyze source path with
  | .ok findings => .ofFindings path findings
  | .error f => .ofFault path (f.record path)

end Linter

end GoIdiom

/-!
## The room for nesting

How deep a source text may be nested depends on the interpreter that analyzes it. What the interpreter says of a
source text whose nesting exhausts its room is a parameter here; with room enough the analysis is the one above.
-/

namespace GoIdiom.Linter

/-- The findings in a source text, or what stopped their search, where the room for nesting may be exhausted. -/
def analyzeWithin (l : Linter) (exhausts : String → Option String) (source path : String) :
    Except AnalysisFault (List Finding) :=
  match exhausts source with
  | some cause => .error (.nesting cause)
  | none => l.analyze source path

/-- The result for a source text where the room for nesting may be exhausted. -/
def analyzeSourceWithin (l : Linter) (exhausts : String → Option String) (source path : String) : FileResult :=
  match l.analyzeWithin exhausts source path with
  | .ok findings => .ofFindings path findings
  | .error f => .ofFault path (f.record path)

end GoIdiom.Linter
