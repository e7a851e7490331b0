import GoIdiom.Style
import GoIdiom.Text.CharClass
import GoIdiom.Text.Word

/-!
# Rules on naming

Names are short, in mixed caps, and do not repeat what their surroundings say.
-/

namespace GoIdiom.Style.Naming

/-- Package names that say nothing about their contents. -/
def genericPackageNames : List String := ["util", "common", "helpers", "misc"]

/-- Initialisms in the mixed case that gives them away. -/
def mixedInitialisms : List String :=
  ["Acl", "Api", "Ascii", "Cpu", "Css", "Dns", "Eof", "Guid", "Html", "Http", "Https", "Id", "Ip", "Json",
   "Qps", "Rpc", "Smtp", "Sql", "Ssh", "Tcp", "Tls", "Ttl", "Udp", "Uid", "Uuid", "Uri", "Url", "Xml",
   "Xsrf", "Xss"]

/-- The length of the word at the head: a capital with small letters, capitals up to the next word, or
digits. -/
def wordLength (cs : List Char) : Nat :=
  let small (cs : List Char) : Nat := (cs.takeWhile Char.isLower).length
  match cs with
  | [] => 0
  | c :: rest =>
    if c.isLower then small cs
    else if c.isUpper then
      if small rest > 0 then small rest + 1
      else
        let capitals := (cs.takeWhile Char.isUpper).length
        if (cs.drop capitals).head?.any Char.isLower then capitals - 1 else capitals
    else (cs.takeWhile Text.isDecimal).length

/-- The words of a name in mixed caps. -/
def words : List Char → List String
  | [] => []
  | c :: rest =>
    match wordLength (c :: rest) with
    | 0 => words rest
    | n + 1 => String.ofList (c :: rest.take n) :: words (rest.drop n)
termination_by cs => cs.length
decreasing_by all_goals simp only [List.length_drop, List.length_cons]; omega

/-- The names that a construct declares, each with its place if it is not the construct's own. -/
def declared (c : Construct) : List (String × Option Position) :=
  match c.detail with
  | .global g => g.names.map fun (name, pos) => (name, some pos)
  | .function f =>
    if f.inTestFile && f.receiver.isNone && Name.isTest f.name then [] else [(f.name, none)]
  | .struct s => [(s.name, none)]
  | .interface i => [(i.name, none)]
  | .type t => [(t.name, none)]
  | _ => []

/-- A hit at a name. -/
def hitAt (pos : Option Position) (message : String) : Hit :=
  match pos with
  | some p => .at' p message
  | none => .here message

/-- The kinds of constructs that declare names. -/
def namedKinds : List ConstructKind := [.function, .struct, .interface, .type, .global]

/-- A method's name begins with the name of its type. -/
def methodStutter : Predicate := fun c _ =>
  match c.detail with
  | .function f =>
    match f.receiver with
    | some r =>
      report (Hit.when (f.isExported && r.typeName != "" && Text.startsWith f.name r.typeName)
        ("method " ++ r.typeName ++ "." ++ f.name ++ " repeats the type name"))
    | none => report []
  | _ => report []

/-- An accessor's name begins with `Get`. -/
def getterHead : Predicate := fun c _ =>
  match c.detail with
  | .function f =>
    let rest := Text.dropChars f.name 3
    report (if f.receiver.isSome && f.params.isEmpty && !f.results.isEmpty &&
        Text.startsWith f.name "Get" && rest.toList.head?.any Text.isUpper then
      [{ Hit.here ("accessor " ++ f.name ++ " should be named " ++ rest) with
          suggestion := some ("rename " ++ f.name ++ " to " ++ rest) }]
    else [])
  | _ => report []

/-- A receiver is named like in other languages. -/
def receiverSelf : Predicate := fun c _ =>
  match c.detail with
  | .function f =>
    report (f.receiver.toList.flatMap fun r =>
      let name := r.name.getD ""
      Hit.when (name == "this" || name == "self")
        ("receiver of " ++ r.typeName ++ "." ++ f.name ++ " is named '" ++ name ++ "'"))
  | _ => report []

/-- The name of a receiver that is no blank. -/
def receiverName? (f : FunctionInfo) : Option String := (f.receiver.bind (·.name)).filter (· != "_")

/-- The first of some methods whose receiver has a name, and that name. -/
def firstNamed : List Declared → Except MatchFailure (Option (String × String))
  | [] => .ok none
  | d :: rest =>
    if d.info.receiver.isNone then .error (.noAttribute "name")
    else
      match receiverName? d.info with
      | some other => .ok (some (other, d.info.name))
      | none => firstNamed rest

/-- A receiver is named differently from that of the type's first method. -/
def receiverInconsistent : Predicate := fun c ctx =>
  match c.detail with
  | .function f =>
    match f.receiver, receiverName? f with
    | some r, some name => do
      match ← firstNamed (ctx.index.methodsOf r.typeName) with
      | some (other, method) =>
        report (Hit.when (other != name)
          ("receiver '" ++ name ++ "' of " ++ r.typeName ++ "." ++ f.name ++ " differs from '" ++ other ++
            "' used by " ++ r.typeName ++ "." ++ method))
      | none => report []
    | _, _ => report []
  | _ => report []

/-- The name of a package without the ending of external tests. -/
def packageName (name : String) (isTest : Bool) : String :=
  if isTest && Text.endsWith name "_test" then Text.dropLastChars name 5 else name

/-- A package name is too general. -/
def packageGeneric : Predicate := fun c ctx =>
  match c.detail with
  | .package name isTest => do
    let name := packageName name isTest
    let generic ← MatchContext.holdsName name
      (ctx.option "names" (.list (genericPackageNames.map .text)))
    report (Hit.when generic ("package name '" ++ name ++ "' says nothing about its contents"))
  | _ => report []

/-- A package name has capitals or underscores. -/
def packageFormat : Predicate := fun c _ =>
  match c.detail with
  | .package name isTest =>
    let name := packageName name isTest
    report (Hit.when (name != Text.lower name || Text.contains name "_")
      ("package name '" ++ name ++ "' should be lower case without underscores"))
  | _ => report []

/-- A name has an underscore between other characters. -/
def underscore : Predicate := fun c _ =>
  report ((declared c).filterMap fun (name, pos) =>
    if (Text.stripChars (· == '_') name.toList).contains '_' then
      some (hitAt pos ("'" ++ name ++ "' contains an underscore"))
    else none)

/-- A name writes an initialism in mixed case. -/
def initialismCase : Predicate := fun c _ =>
  report ((declared c).filterMap fun (name, pos) =>
    let mixed := (words name.toList).filter mixedInitialisms.contains
    if mixed.isEmpty then none
    else
      let fixed := Text.joinWith ", " (mixed.map fun w => w ++ " -> " ++ Text.upper w)
      some (hitAt pos ("'" ++ name ++ "' writes initialisms in mixed case (" ++ fixed ++ ")")))

/-- The name that a type construct declares. -/
def typeName? (c : Construct) : Option String :=
  match c.detail with
  | .struct s => some s.name
  | .interface i => some i.name
  | .type t => some t.name
  | _ => none

/-- A type's name begins with the name of its package. -/
def packageStutter : Predicate := fun c ctx =>
  match typeName? c, ctx.index.package with
  | some name, some package =>
    let rest := Text.dropChars name package.length
    report (Hit.when
      (package != "" && package != "main" && Name.isExported name &&
        Text.startsWith (Text.lower name) (Text.lower package) && Name.isExported rest)
      (package ++ "." ++ name ++ " stutters; consider " ++ package ++ "." ++ rest))
  | _, _ => report []

/-- The name with its first character in upper case. -/
def capitalized (name : String) : String :=
  match name.toList with
  | [] => ""
  | c :: rest => String.ofList (Text.upperOf c ++ rest)

/-- The hits for error values that are not named like ones. -/
def errorValues : List (String × Position) → Except MatchFailure (List Hit)
  | [] => report []
  | (name, pos) :: rest =>
    if name == "" then .error (.outOfRange "string")
    else do
      let head := if Name.isExported name then "Err" else "err"
      let more ← errorValues rest
      report (if name != "_" && !Text.startsWith name head then
        .at' pos ("error value " ++ name ++ " should be named " ++ head ++ capitalized name) :: more
      else more)

/-- An error value or type is not named like one. -/
def errorNaming : Predicate := fun c ctx =>
  match c.detail with
  | .global g => if g.isSentinel then errorValues g.names else report []
  | .struct _ | .type _ =>
    let name := (typeName? c).getD ""
    report (Hit.when ((ctx.index.method? name "Error").isSome && !Text.endsWith name "Error")
      ("error type " ++ name ++ " should be named " ++ name ++ "Error"))
  | _ => report []

/-- The rules on naming. -/
def rules : List StyleRule := [
  { id := "method-stutter"
    severity := .warning
    title := "Method name repeats its type name"
    suggestion := some "Drop the type name from the method name"
    kinds := [.function]
    predicate := methodStutter },
  { id := "getter-prefix"
    severity := .info
    title := "Accessor should not start with Get"
    suggestion := some "Name the accessor after the value (Owner, not GetOwner)"
    kinds := [.function]
    predicate := getterHead },
  { id := "receiver-name-self"
    severity := .warning
    title := "Receiver named this or self"
    suggestion := some "Use a short name derived from the type (c for Client)"
    kinds := [.function]
    predicate := receiverSelf },
  { id := "receiver-name-inconsistent"
    severity := .info
    title := "Receiver names differ between methods of the same type"
    suggestion := some "Use the same receiver name in every method of a type"
    kinds := [.function]
    predicate := receiverInconsistent },
  { id := "package-name-generic"
    severity := .warning
    title := "Package name is too generic"
    suggestion := some "Name the package after what it provides"
    kinds := [.package]
    predicate := packageGeneric },
  { id := "package-name-format"
    severity := .warning
    title := "Package name should be short, lower case and without underscores"
    suggestion := none
    kinds := [.package]
    predicate := packageFormat },
  { id := "name-underscore"
    severity := .info
    title := "Go names use MixedCaps, not underscores"
    suggestion := none
    kinds := namedKinds
    predicate := underscore },
  { id := "initialism-case"
    severity := .info
    title := "Initialisms should keep a consistent case"
    suggestion := some "e.g. URL, ID, HTTP (or url, id, http)"
    kinds := namedKinds
    predicate := initialismCase },
  { id := "type-package-stutter"
    severity := .info
    title := "Type name repeats the package name"
    suggestion := some "Callers already write the package name; drop it from the type"
    kinds := [.struct, .interface, .type]
    predicate := packageStutter },
  { id := "error-var-naming"
    severity := .info
    title := "Error values and types should follow the Err/Error naming convention"
    suggestion := some "Sentinels are named ErrFoo, error types FooError"
    kinds := [.global, .struct, .type]
    predicate := errorNaming }]

end GoIdiom.Style.Naming
