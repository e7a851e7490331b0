import GoIdiom.Style

/-!
# Rules on tests

Tests are found by the tool that runs them, can fail, do not wait, and report where they fail.
-/

namespace GoIdiom.Style.Testing

/-- The parameter types of test functions by the word that begins their name. -/
def paramTypes : List (String × String) :=
  [("Test", "*testing.T"), ("Benchmark", "*testing.B"), ("Fuzz", "*testing.F")]

/-- Methods that end the goroutine they are called in. -/
def endingMethods : List String := ["Fatal", "Fatalf", "FailNow", "Skip", "Skipf", "SkipNow"]

/-- Whether a test is found by its name: what follows the first word does not begin in lower case. -/
def isRecognized (t : TestInfo) : Bool := !Name.startsLower t.suffix

/-- A test is not found by its name. -/
def nameFormat : Predicate := fun c _ =>
  match c.detail with
  | .testFunction t =>
    report (Hit.when (!isRecognized t)
      (t.name ++ " is ignored by go test: the letter after " ++ t.head ++ " is lower case"))
  | _ => report []

/-- The parameter types that a test should have. -/
def expectedTypes (t : TestInfo) : Except MatchFailure (List String) :=
  if t.name == "TestMain" then .ok ["*testing.M"]
  else if t.head == "Example" then .ok []
  else
    match paramTypes.lookup t.head with
    | some type => .ok [type]
    | none => .error (.noKey t.head)

/-- A test has other parameters or results than it should. -/
def signature : Predicate := fun c _ =>
  match c.detail with
  | .testFunction t =>
    if !isRecognized t then report []
    else do
      let expected ← expectedTypes t
      report (Hit.when (t.params.map (·.type) != expected || !t.results.isEmpty)
        (t.name ++ " must be declared as func " ++ t.name ++ "(" ++ Text.joinWith ", " expected ++ ")"))
  | _ => report []

/-- A test cannot fail. -/
def withoutAssertions : Predicate := fun c _ =>
  match c.detail with
  | .testFunction t =>
    report (Hit.when (t.head == "Test" && t.name != "TestMain" && isRecognized t && !t.asserts)
      (t.name ++ " never uses its *testing.T, so it cannot fail"))
  | _ => report []

/-- A test waits for some time. -/
def sleep : Predicate := fun c _ =>
  match c.detail with
  | .call call =>
    report (Hit.when (call.inTestFile && call.callee == "time.Sleep")
      ("time.Sleep in " ++ functionOr call.function "test code"))
  | _ => report []

/-- A goroutine tries to end the test. -/
def fatalInGoroutine : Predicate := fun c _ =>
  match c.detail with
  | .call call =>
    report (Hit.when
      (call.inGoroutine && call.testParam.isSome && call.receiver == call.testParam &&
        endingMethods.contains call.name)
      (call.callee ++ " called from a goroutine does not stop the test"))
  | _ => report []

/-- A function that reports failures is not marked as a helper. -/
def helperMissing : Predicate := fun c _ =>
  match c.detail with
  | .function f =>
    let isTest := f.receiver.isNone && Name.isTest f.name
    report (Hit.when (f.inTestFile && !isTest && f.reportsFailure && !f.callsHelper)
      ("helper " ++ f.name ++ " reports failures but does not call " ++ f.testParam.getD "" ++ ".Helper()"))
  | _ => report []

/-- The rules on tests. -/
def rules : List StyleRule := [
  { id := "test-name-format"
    severity := .warning
    title := "Test function name is not recognized by go test"
    suggestion := some "The character after Test/Benchmark/Example/Fuzz must not be lower case"
    kinds := [.testFunction]
    predicate := nameFormat },
  { id := "test-signature"
    severity := .error
    title := "Test function has the wrong signature"
    suggestion := none
    kinds := [.testFunction]
    predicate := signature },
  { id := "test-without-assertions"
    severity := .warning
    title := "Test never reports a failure"
    suggestion := some "Check results with t.Errorf/t.Fatalf"
    kinds := [.testFunction]
    predicate := withoutAssertions },
  { id := "test-sleep"
    severity := .warning
    title := "time.Sleep in tests makes them slow and flaky"
    suggestion := some "Synchronize on channels, WaitGroups or a fake clock"
    kinds := [.call]
    predicate := sleep },
  { id := "test-fatal-in-goroutine"
    severity := .error
    title := "FailNow/Fatal called from a goroutine other than the test's"
    suggestion := some "Report with t.Error and return, or send the failure back to the test goroutine"
    kinds := [.call]
    predicate := fatalInGoroutine },
  { id := "test-helper-missing"
    severity := .info
    title := "Test helper does not call t.Helper()"
    suggestion := some "Call t.Helper() first so failures point at the caller"
    kinds := [.function]
    predicate := helperMissing }]

end GoIdiom.Style.Testing
