import GoIdiom.Style

/-!
# Rules on organization

Files and functions stay small, packages keep no state, and the program ends in one place. The engine
rules of this category have no matcher: they concern suppressions and matchers.
-/

namespace GoIdiom.Style.Organization

/-- Calls that end the program. -/
def exitCalls : List String := ["os.Exit", "log.Fatal", "log.Fatalf", "log.Fatalln"]

/-- The beginnings of values that are set once and never changed. -/
def immutableValues : List String := ["regexp.MustCompile(", "template.Must(", "errors.New(", "fmt.Errorf("]

/-- A function runs on its own when the package is loaded. -/
def initFunction : Predicate := fun c _ =>
  match c.detail with
  | .function f =>
    report (Hit.when (f.name == "init" && f.receiver.isNone) "init() runs implicitly on import")
  | _ => report []

/-- A package keeps state in a variable. -/
def globalState : Predicate := fun c _ =>
  match c.detail with
  | .global g =>
    let names := (g.names.map (·.1)).filter fun n => n != "_" && !Text.startsWithAny n ["Err", "err"]
    report (Hit.when
      (!g.isConst && !g.isSentinel && !names.isEmpty && !Text.startsWithAny g.value immutableValues)
      ("package-level variable " ++ Text.joinWith ", " names))
  | _ => report []

/-- The body of a function is long. -/
def functionTooLong : Predicate := fun c ctx =>
  match c.detail with
  | .function f =>
    reportAbove f.bodyLines (ctx.option "max_lines" (.int 80))
      (f.name ++ " is " ++ toString f.bodyLines ++ " lines long")
  | _ => report []

/-- A function has many parameters. -/
def tooManyParameters : Predicate := fun c ctx =>
  match c.detail with
  | .function f =>
    reportAbove f.params.length (ctx.option "max_params" (.int 5))
      (f.name ++ " takes " ++ toString f.params.length ++ " parameters")
  | _ => report []

/-- Control flow is deeply nested. -/
def deepNesting : Predicate := fun c ctx =>
  match c.detail with
  | .function f =>
    reportAbove f.maxDepth (ctx.option "max_depth" (.int 4))
      (f.name ++ " nests control flow " ++ toString f.maxDepth ++ " levels deep")
  | _ => report []

/-- A long function returns named results without naming them. -/
def nakedReturn : Predicate := fun c ctx =>
  match c.detail with
  | .function f =>
    if !f.hasNamedResults then report []
    else do
      let short ← MatchContext.within f.bodyLines (ctx.option "max_lines" (.int 10))
      report (if short then []
        else f.nakedReturns.map fun pos =>
          .at' pos ("naked return in " ++ f.name ++ " (" ++ toString f.bodyLines ++ " lines)"))
  | _ => report []

/-- An import hides where names come from. -/
def dotImport : Predicate := fun c _ =>
  match c.detail with
  | .imported path localName => report (Hit.when (localName == some ".") ("dot import of \"" ++ path ++ "\""))
  | _ => report []

/-- A file is long. -/
def fileTooLong : Predicate := fun c ctx =>
  match c.detail with
  | .file lineCount _ _ =>
    reportAbove lineCount (ctx.option "max_lines" (.int 1000)) ("file has " ++ toString lineCount ++ " lines")
  | _ => report []

/-- The program is ended outside its main function. -/
def exitOutsideMain : Predicate := fun c _ =>
  match c.detail with
  | .call call =>
    let inMain := call.package == "main" && call.function == "main"
    let inTestMain := call.inTestFile && call.function == "TestMain"
    report (Hit.when (exitCalls.contains call.callee && !inMain && !inTestMain)
      (call.callee ++ " in " ++ functionOr call.function "package initialization"))
  | _ => report []

/-- The rules on organization that have a matcher. -/
def rules : List StyleRule := [
  { id := "init-function"
    severity := .info
    title := "init() hides side effects"
    suggestion := some "Prefer explicit initialization called from main or a constructor"
    kinds := [.function]
    predicate := initFunction },
  { id := "global-mutable-state"
    severity := .info
    title := "Package-level mutable variable"
    suggestion := some "Keep state in a struct passed explicitly"
    kinds := [.global]
    predicate := globalState },
  { id := "function-too-long"
    severity := .warning
    title := "Function body is too long"
    suggestion := some "Extract well-named helper functions"
    kinds := [.function]
    predicate := functionTooLong },
  { id := "too-many-parameters"
    severity := .warning
    title := "Function has too many parameters"
    suggestion := some "Group related parameters into an options struct"
    kinds := [.function]
    predicate := tooManyParameters },
  { id := "deep-nesting"
    severity := .warning
    title := "Control flow is nested too deeply"
    suggestion := some "Return early and extract nested blocks into functions"
    kinds := [.function]
    predicate := deepNesting },
  { id := "naked-return"
    severity := .info
    title := "Naked return in a long function"
    suggestion := some "Return the values explicitly"
    kinds := [.function]
    predicate := nakedReturn },
  { id := "dot-import"
    severity := .warning
    title := "Dot import hides where names come from"
    suggestion := none
    kinds := [.imported]
    predicate := dotImport },
  { id := "file-too-long"
    severity := .info
    title := "File is too long"
    suggestion := some "Split the file by responsibility"
    kinds := [.file]
    predicate := fileTooLong },
  { id := "exit-outside-main"
    severity := .warning
    title := "Process exit outside main"
    suggestion := some "Return an error and let main decide how to exit"
    kinds := [.call]
    predicate := exitOutsideMain }]

/-- The rule on suppressions without a reason. -/
def missingJustification : String := "missing-justification"

/-- The rule on suppressions of every rule. -/
def broadSuppression : String := "broad-suppression"

/-- The rule on matchers that gave up. -/
def ruleInternalError : String := "rule-internal-error"

/-- The entries of the engine rules. -/
def engineEntries : List CatalogEntry := [
  { id := missingJustification
    category := .organization
    severity := .warning
    title := "Suppression without justification"
    suggestion := some "Write the reason after the colon: // gostyle:ignore rule-id: why"
    isEngine := true },
  { id := broadSuppression
    category := .organization
    severity := .info
    title := "Wildcard suppression"
    suggestion := some "Name the rules being suppressed"
    isEngine := true },
  { id := ruleInternalError
    category := .organization
    severity := .error
    title := "A rule failed while analyzing this code"
    suggestion := none
    isEngine := true }]

end GoIdiom.Style.Organization
