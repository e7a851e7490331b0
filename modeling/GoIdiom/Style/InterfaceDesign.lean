import GoIdiom.Style

/-!
# Rules on interface design

Interfaces are small, named for their method, accepted rather than returned, and never pointed to.
-/

namespace GoIdiom.Style.InterfaceDesign

/-- Types that any value has. -/
def anyTypes : List String := ["interface\x7b\x7d", "any"]

/-- Interfaces that every reader knows. -/
def knownInterfaces : List String :=
  ["error", "any", "interface\x7b\x7d", "context.Context", "fmt.Stringer", "sort.Interface",
   "http.Handler", "io.Reader", "io.Writer", "io.Closer", "io.ReadCloser", "io.ReadWriter",
   "io.WriteCloser", "io.ReadWriteCloser", "io.ReaderAt", "io.WriterTo", "io.ReaderFrom"]

/-- Whether a type name is known to be one of an interface. -/
def isInterface (ctx : MatchContext) (type : String) : Bool :=
  knownInterfaces.contains type || ctx.index.hasInterface type

/-- Whether a type is a pointer to an interface. -/
def pointsToInterface (ctx : MatchContext) (type : String) : Bool :=
  Text.startsWith type "*" && isInterface ctx (Text.dropChars type 1)

/-- An interface has too many methods; from some number on this is an error. -/
def tooLarge : Predicate := fun c ctx =>
  match c.detail with
  | .interface i => do
    let count := i.methods.length
    let limit := ctx.option "max_methods" (.int 2)
    let message := "interface " ++ i.name ++ " has " ++ toString count ++ " methods"
    if ← MatchContext.reaches count (ctx.option "error_at" (.int 5)) then
      report [{ Hit.here (message ++ (← limitText limit)) with severity := some .error }]
    else reportAbove count limit message
  | _ => report []

/-- A parameter accepts any value. -/
def emptyParam : Predicate := fun c _ =>
  match c.detail with
  | .function f =>
    report ((f.params.filter fun p => anyTypes.contains p.type && !p.variadic).map fun p =>
      .at' p.pos ("'" ++ p.name.getD "parameter" ++ "' of " ++ f.name ++ " accepts " ++ p.type))
  | _ => report []

/-- The name of an interface with this one method. -/
def agentName (method : String) : String := method ++ (if Text.endsWith method "e" then "r" else "er")

/-- An interface with one method is not named for it. -/
def nameSuffix : Predicate := fun c _ =>
  match c.detail with
  | .interface i =>
    match i.methods with
    | [method] =>
      report (Hit.when
        (i.embedded.isEmpty && !i.hasConstraint && !Text.endsWith (Text.lower i.name) "er")
        ("single-method interface " ++ i.name ++ " should be named " ++ agentName method.name))
    | _ => report []
  | _ => report []

/-- An exported function returns an interface of the file. -/
def returned : Predicate := fun c ctx =>
  match c.detail with
  | .function f =>
    report (if f.isExported then
      (f.results.filter fun r => ctx.index.hasInterface r.type).map fun r =>
        .at' r.pos (f.name ++ " returns interface " ++ r.type ++ " instead of a concrete type")
    else [])
  | _ => report []

/-- A field, parameter or result is a pointer to an interface. -/
def pointer : Predicate := fun c ctx =>
  match c.detail with
  | .struct s =>
    report ((s.fields.filter fun f => pointsToInterface ctx f.type).map fun f =>
      .at' f.pos ("field " ++ f.type ++ " of " ++ s.name ++ " is a pointer to an interface"))
  | .function f =>
    report (((f.params ++ f.results).filter fun p => pointsToInterface ctx p.type).map fun p =>
      .at' p.pos (f.name ++ " uses " ++ p.type ++ ", a pointer to an interface"))
  | _ => report []

/-- The rules on interface design. -/
def rules : List StyleRule := [
  { id := "interface-too-large"
    severity := .warning
    title := "Interface has too many methods"
    suggestion := some "Split into smaller, role-based interfaces and compose them"
    kinds := [.interface]
    predicate := tooLarge },
  { id := "interface-empty-param"
    severity := .info
    title := "Parameter accepts any value"
    suggestion := some "Accept a concrete type, a small interface or a type parameter"
    kinds := [.function]
    predicate := emptyParam },
  { id := "interface-name-suffix"
    severity := .info
    title := "Single-method interface should be named after its method with an -er suffix"
    suggestion := some "e.g. Read -> Reader, Close -> Closer"
    kinds := [.interface]
    predicate := nameSuffix },
  { id := "interface-return"
    severity := .warning
    title := "Accept interfaces, return concrete types"
    suggestion := some "Return the concrete type and let callers choose an interface"
    kinds := [.function]
    predicate := returned },
  { id := "interface-pointer"
    severity := .warning
    title := "Pointer to an interface"
    suggestion := some "Interfaces are already reference-like; pass the interface value"
    kinds := [.function, .struct]
    predicate := pointer }]

end GoIdiom.Style.InterfaceDesign
