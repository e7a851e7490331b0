import GoIdiom.Style

/-!
# Rules on concurrency

Goroutines can be stopped, locks are not copied, contexts are passed on and channels are small.
-/

namespace GoIdiom.Style.Concurrency

/-- The name after the first dot of the callee of a go statement. -/
def methodName (g : GoInfo) : Except MatchFailure String :=
  match g.callee with
  | none => .error (.noAttribute "split")
  | some callee =>
    match Text.cutFirst callee '.' with
    | some (_, method) => .ok method
    | none => .error (.outOfRange "list")

/-- The function of the file that a go statement calls. -/
def target? (ctx : MatchContext) (g : GoInfo) : Except MatchFailure (Option FunctionInfo) :=
  match g.calleeType.filter (· != "") with
  | some type => (methodName g).map (ctx.index.method? type)
  | none => .ok (g.callee.bind fun callee =>
      if Text.contains callee "." then none else ctx.index.function? callee)

/-- The callee of a go statement as messages give it. -/
def calleeText (g : GoInfo) : String := g.callee.getD "None"

/-- A goroutine may run on after it should have ended. -/
def lifecycle : Predicate := fun c ctx =>
  match c.detail with
  | .go g =>
    if g.isLiteral then
      report (Hit.when (g.cancellationSafe != some true)
        "goroutine does not wait on a cancellation signal on every path")
    else do
      match (← target? ctx g).filter (·.hasBody) with
      | some f =>
        report (Hit.when (!f.cancellationSafe)
          ("goroutine runs " ++ calleeText g ++ ", which never waits on a cancellation signal"))
      | none =>
        report (Hit.when (!g.passesContext)
          ("goroutine runs " ++ calleeText g ++ " without a context or done channel"))
  | _ => report []

/-- Whether a value of the type holds a lock. -/
def holdsMutex (ctx : MatchContext) (type : String) : Bool :=
  mutexTypes.contains type || (ctx.index.struct? type).any (·.hasMutex)

/-- A lock is copied by a receiver or parameter. -/
def mutexCopy : Predicate := fun c ctx =>
  match c.detail with
  | .function f =>
    let receivers := (f.receiver.toList.filter fun r => !r.pointer && holdsMutex ctx r.typeName).map fun r =>
      Hit.at' r.pos ("value receiver of " ++ r.typeName ++ "." ++ f.name ++ " copies a mutex")
    let params := (f.params.filter fun p => holdsMutex ctx p.type).map fun p =>
      Hit.at' p.pos ("parameter '" ++ p.name.getD p.type ++ "' of " ++ f.name ++ " copies a mutex (" ++
        p.type ++ ")")
    report (receivers ++ params)
  | _ => report []

/-- The hits for wait groups that parameters copy. -/
def waitGroups (owner : String) (params : List Param) : List Hit :=
  (params.filter (·.type == "sync.WaitGroup")).map fun p =>
    .at' p.pos (owner ++ " takes sync.WaitGroup '" ++ p.name.getD "_" ++ "' by value")

/-- A wait group is copied by a parameter. -/
def waitGroupByValue : Predicate := fun c _ =>
  match c.detail with
  | .function f => report (waitGroups f.name f.params)
  | .go g => report (waitGroups "goroutine literal" g.params)
  | _ => report []

/-- A deferred call inside a loop piles up. -/
def deferInLoop : Predicate := fun c _ =>
  match c.detail with
  | .defer d =>
    let callee := functionOr (d.callee.getD "") "function literal"
    report (Hit.when (d.loopDepth > 0)
      ("defer " ++ callee ++ " inside a loop runs only when " ++ functionOr d.function "the function" ++
        " returns"))
  | _ => report []

/-- A goroutine shares a loop variable. -/
def loopCapture : Predicate := fun c _ =>
  match c.detail with
  | .go g =>
    report (Hit.when (!g.capturedLoopVars.isEmpty)
      ("goroutine captures loop variable " ++ Text.joinWith ", " g.capturedLoopVars))
  | _ => report []

/-- A channel has a large buffer. -/
def bufferSize : Predicate := fun c ctx =>
  match c.detail with
  | .channelMake ch =>
    match ch.size with
    | some size => do
      let large ← MatchContext.above size (ctx.option "max_size" (.int 1))
      report (Hit.when large ("channel of " ++ ch.element ++ " has a buffer of " ++ toString size))
    | none => report []
  | _ => report []

/-- A select chooses among one case. -/
def selectSingle : Predicate := fun c _ =>
  match c.detail with
  | .select s => report (Hit.when (s.cases == 1 && !s.hasDefault) "select with a single case")
  | _ => report []

/-- A select has nothing to choose. -/
def selectEmpty : Predicate := fun c _ =>
  match c.detail with
  | .select s => report (Hit.when (s.cases == 0 && !s.hasDefault) "empty select blocks forever")
  | _ => report []

/-- A context comes after other parameters. -/
def contextNotFirst : Predicate := fun c _ =>
  match c.detail with
  | .function f =>
    match f.contextIndex with
    | some index =>
      report (Hit.when (index > 0)
        ("context.Context is parameter " ++ toString (index + 1) ++ " of " ++ f.name))
    | none => report []
  | _ => report []

/-- A struct keeps a context. -/
def contextInStruct : Predicate := fun c _ =>
  match c.detail with
  | .struct s =>
    report (s.contextFields.map fun f =>
      .at' f.pos (s.name ++ " stores a context.Context in " ++
        functionOr (Text.joinWith ", " f.names) "embedded field"))
  | _ => report []

/-- A struct exports the methods of its lock. -/
def mutexEmbedded : Predicate := fun c _ =>
  match c.detail with
  | .struct s =>
    report ((s.fields.filter fun f => f.isEmbedded && mutexTypes.contains f.type).map fun f =>
      .at' f.pos (s.name ++ " embeds " ++ f.type ++ ", exporting Lock and Unlock"))
  | _ => report []

/-- The rules on concurrency. -/
def rules : List StyleRule := [
  { id := "goroutine-lifecycle"
    severity := .warning
    title := "Goroutine has no cancellation path"
    suggestion := some "Select on ctx.Done() (or a done channel) on every path that does not return"
    kinds := [.go]
    predicate := lifecycle },
  { id := "mutex-copy"
    severity := .error
    title := "Value holding a mutex is copied"
    suggestion := some "Use a pointer receiver or pass a pointer"
    kinds := [.function]
    predicate := mutexCopy },
  { id := "waitgroup-by-value"
    severity := .error
    title := "sync.WaitGroup passed by value"
    suggestion := some "Pass *sync.WaitGroup"
    kinds := [.function, .go]
    predicate := waitGroupByValue },
  { id := "defer-in-loop"
    severity := .warning
    title := "defer inside a loop runs only when the function returns"
    suggestion := some "Move the loop body into a function or release the resource explicitly"
    kinds := [.defer]
    predicate := deferInLoop },
  { id := "goroutine-loop-capture"
    severity := .warning
    title := "Goroutine closure captures a loop variable"
    suggestion := some "Pass the loop variable as an argument to the goroutine"
    kinds := [.go]
    predicate := loopCapture },
  { id := "channel-buffer-size"
    severity := .info
    title := "Channel buffer should be zero or one"
    suggestion := some
      "Unbuffered or size-one channels make back-pressure explicit; justify larger buffers"
    kinds := [.channelMake]
    predicate := bufferSize },
  { id := "select-single-case"
    severity := .info
    title := "select with a single case"
    suggestion := some "Use a plain channel operation"
    kinds := [.select]
    predicate := selectSingle },
  { id := "select-empty"
    severity := .warning
    title := "Empty select blocks forever"
    suggestion := some "Wait on a signal or context instead"
    kinds := [.select]
    predicate := selectEmpty },
  { id := "context-not-first"
    severity := .warning
    title := "context.Context should be the first parameter"
    suggestion := some "func F(ctx context.Context, ...)"
    kinds := [.function]
    predicate := contextNotFirst },
  { id := "context-in-struct"
    severity := .warning
    title := "context.Context stored in a struct"
    suggestion := some "Pass the context explicitly to each method that needs it"
    kinds := [.struct]
    predicate := contextInStruct },
  { id := "mutex-embedded"
    severity := .info
    title := "Mutex embedded in a struct"
    suggestion := some "Use a named field (mu sync.Mutex) so Lock/Unlock stay private"
    kinds := [.struct]
    predicate := mutexEmbedded }]

end GoIdiom.Style.Concurrency
