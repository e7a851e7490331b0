import GoIdiom.Style

/-!
# Rules on error handling

Errors are wrapped on their way up, checked, compared by identity and worded in a uniform way.
-/

namespace GoIdiom.Style.ErrorHandling

/-- Whether the last result of a function is an error. -/
def returnsError (f : FunctionInfo) : Bool := f.results.getLast?.any (·.type == "error")

/-- An error from elsewhere is returned as it is, unless it was matched before. -/
def notWrapped : Predicate := fun c _ =>
  match c.detail with
  | .errorReturn e =>
    let matched := e.guard == some .sentinel || e.guard == some .typeAssert
    let foreign := e.origin == some .call || e.origin == some .value || e.origin == some .unknown
    report (Hit.when (e.handling == .bare && !matched && foreign)
      ("error '" ++ e.errorName.getD "None" ++ "' is returned from " ++
        functionOr e.function "function" ++ " without added context"))
  | _ => report []

/-- The error result of a call is dropped: by the blank name, or by a call statement to a function of
the file. -/
def ignored : Predicate := fun c ctx =>
  match c.detail with
  | .call call =>
    let known := (ctx.index.function? call.callee).any returnsError
    report (Hit.when (call.isStatement && call.receiver.isNone && known)
      ("error returned by " ++ call.callee ++ "() is ignored"))
  | .errorIgnored e =>
    let harmless := (ctx.index.function? e.callee).any fun f => !returnsError f
    report (Hit.when (!harmless) ("error returned by " ++ e.callee ++ "() is discarded with '_'"))
  | _ => report []

/-- An error is compared by its message. -/
def stringCompare : Predicate := fun c _ =>
  match c.detail with
  | .errorCompare e =>
    report (Hit.when (e.method == .string) ("error compared by its message: " ++ e.expression))
  | _ => report []

/-- Nothing is done about an error that is set. -/
def checkEmpty : Predicate := fun c _ =>
  match c.detail with
  | .errorCheck e =>
    report (Hit.when e.isEmpty ("'if " ++ e.errorName ++ " != nil' has an empty body"))
  | _ => report []

/-- An error that is set is neither used nor ends anything. -/
def swallowed : Predicate := fun c _ =>
  match c.detail with
  | .errorCheck e =>
    report (Hit.when (!(e.isEmpty || e.returns || e.terminates || e.diverts || e.referencesError))
      ("'" ++ e.errorName ++ "' is checked but neither used nor propagated"))
  | _ => report []

/-- An error is logged and returned. -/
def logAndReturn : Predicate := fun c _ =>
  match c.detail with
  | .errorCheck e =>
    report (Hit.when (e.logs && e.returnsError)
      ("'" ++ e.errorName ++ "' is logged and also returned; it will be reported twice"))
  | _ => report []

/-- What punctuation a message may not end with: marks, and a line feed, written or escaped. -/
def trailingMarks : List String := [".", "!", ":", "\\n", "\n"]

/-- What is wrong with the wording of an error message. -/
def wordingProblems (message : String) : List String :=
  let cs := message.toList
  let capitalized := match cs with
    | first :: second :: _ => Text.isUpper first && Text.isLower second
    | _ => false
  let trimmed := String.ofList (cs.reverse.dropWhile (· == ' ')).reverse
  (if capitalized then ["capitalized"] else []) ++
    (if Text.endsWithAny trimmed trailingMarks then ["ends with punctuation"] else [])

/-- A message begins like a sentence or ends like one. -/
def stringFormat : Predicate := fun c _ =>
  match c.detail with
  | .errorConstruct e =>
    let message := e.message.getD ""
    let problems := if message == "" then [] else wordingProblems message
    report (Hit.when (!problems.isEmpty)
      ("error string " ++ Text.joinWith " and " problems ++ ": \"" ++ message ++ "\""))
  | _ => report []

/-- An error is formatted into another without keeping it as the cause. -/
def wrapVerb : Predicate := fun c _ =>
  match c.detail with
  | .errorConstruct e =>
    report (Hit.when
      (e.constructor == "fmt.Errorf" && !e.wraps && !e.errorArguments.isEmpty && e.message.isSome)
      ("fmt.Errorf formats " ++ Text.joinWith ", " e.errorArguments ++ " without %w; the cause is lost"))
  | _ => report []

/-- A function returns an error before other results. -/
def notLastResult : Predicate := fun c _ =>
  match c.detail with
  | .function f =>
    match f.results.findIdx? (·.type == "error") with
    | some index =>
      report (Hit.when (!returnsError f)
        (f.name ++ " returns error at position " ++ toString (index + 1) ++ " of " ++
          toString f.results.length))
    | none => report []
  | _ => report []

/-- Library code panics outside initialization and functions that are named for it. -/
def panicInLibrary : Predicate := fun c _ =>
  match c.detail with
  | .call call =>
    report (Hit.when
      (call.callee == "panic" && !call.inTestFile && call.package != "main" &&
        call.function != "init" && !Text.startsWithAny call.function ["Must", "must"])
      ("panic in " ++ functionOr call.function "package initialization" ++ " of library package " ++
        call.package))
  | _ => report []

/-- The rules on error handling. -/
def rules : List StyleRule := [
  { id := "error-not-wrapped"
    severity := .error
    title := "Errors from lower calls must be wrapped with context"
    suggestion := some "return fmt.Errorf(\"doing X: %w\", err)"
    kinds := [.errorReturn]
    predicate := notWrapped },
  { id := "error-ignored"
    severity := .warning
    title := "Error results must not be discarded"
    suggestion := some "Handle the error or return it to the caller"
    kinds := [.errorIgnored, .call]
    predicate := ignored },
  { id := "error-string-compare"
    severity := .error
    title := "Errors must not be compared by their message text"
    suggestion := some "Use errors.Is with a sentinel error or errors.As with an error type"
    kinds := [.errorCompare]
    predicate := stringCompare },
  { id := "error-check-empty"
    severity := .error
    title := "Error check with an empty body"
    suggestion := some "Return, wrap or explicitly handle the error"
    kinds := [.errorCheck]
    predicate := checkEmpty },
  { id := "error-swallowed"
    severity := .warning
    title := "Error is checked but never used or propagated"
    suggestion := some "Return the error, log it with context, or document why it is safe to drop"
    kinds := [.errorCheck]
    predicate := swallowed },
  { id := "log-and-return"
    severity := .warning
    title := "Error is both logged and returned"
    suggestion := some "Either log the error or return it, not both"
    kinds := [.errorCheck]
    predicate := logAndReturn },
  { id := "error-string-format"
    severity := .warning
    title := "Error strings should not be capitalized or end with punctuation"
    suggestion := some "Start the message in lower case and drop the trailing punctuation"
    kinds := [.errorConstruct]
    predicate := stringFormat },
  { id := "error-wrap-verb"
    severity := .warning
    title := "Errors passed to fmt.Errorf should be wrapped with %w"
    suggestion := some "Use %w so callers can inspect the cause with errors.Is/errors.As"
    kinds := [.errorConstruct]
    predicate := wrapVerb },
  { id := "error-not-last-result"
    severity := .warning
    title := "Error should be the last result"
    suggestion := some "Move the error to the last result position"
    kinds := [.function]
    predicate := notLastResult },
  { id := "panic-in-library"
    severity := .warning
    title := "Library code should return errors instead of panicking"
    suggestion := some "Return an error; reserve panic for truly unrecoverable states"
    kinds := [.call]
    predicate := panicInLibrary }]

end GoIdiom.Style.ErrorHandling
