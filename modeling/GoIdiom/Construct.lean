import GoIdiom.Signature
import GoIdiom.ErrorValue

/-!
# Constructs

A construct is one syntactic form that rules look at: a declaration, a statement of some kind, a call,
or a use of an error. Rules see constructs only, never tokens or statements.
-/

namespace GoIdiom

/-- The receiver of a method. -/
structure Receiver where
  name : Option String
  typeName : String
  pointer : Bool
  pos : Position
deriving DecidableEq, Repr

/-- One line of a struct. An embedded field has no names. -/
structure Field where
  names : List String
  type : String
  pos : Position
deriving DecidableEq, Repr

/-- Whether a field is embedded. -/
def Field.isEmbedded (f : Field) : Bool := f.names.isEmpty

/-- A method of an interface. -/
structure Method where
  name : String
  signature : String
  line : Nat
deriving DecidableEq, Repr

/-- Types that lock. -/
def mutexTypes : List String := ["sync.Mutex", "sync.RWMutex"]

/-- The type of a context. -/
def contextType : String := "context.Context"

/-- Types of the parameter that a test reports through. -/
def testingTypes : List String := ["*testing.T", "*testing.B", "*testing.F", "testing.TB"]

/-- A function or method declaration. -/
structure FunctionInfo where
  name : String
  receiver : Option Receiver
  params : List Param
  results : List Param
  typeParams : List Param
  hasBody : Bool
  bodyLines : Nat
  maxDepth : Nat
  nakedReturns : List Position
  callees : List String
  cancellationSafe : Bool
  inTestFile : Bool
  package : String
deriving DecidableEq, Repr

namespace FunctionInfo

/-- Whether other packages can call the function. -/
def isExported (f : FunctionInfo) : Bool := Name.isExported f.name

/-- The index of the first context parameter. -/
def contextIndex (f : FunctionInfo) : Option Nat := f.params.findIdx? (·.type == contextType)

/-- Whether a result has a name. -/
def hasNamedResults (f : FunctionInfo) : Bool := f.results.any (·.name.isSome)

/-- The first named parameter that a test reports through. -/
def testParam (f : FunctionInfo) : Option String :=
  f.params.findSome? fun p => if testingTypes.contains p.type then p.name else none

/-- Whether the function marks itself as a test helper. -/
def callsHelper (f : FunctionInfo) : Bool :=
  f.testParam.any fun t => f.callees.contains (t ++ ".Helper")

/-- Whether the function reports failures through its test parameter. -/
def reportsFailure (f : FunctionInfo) : Bool :=
  f.testParam.any fun t => f.callees.any fun c =>
    Text.startsWithAny c [t ++ ".Error", t ++ ".Fatal", t ++ ".Fail"]

end FunctionInfo

/-- A test function. -/
structure TestInfo where
  name : String
  head : String
  params : List Param
  results : List Param
  testParam : Option String
  asserts : Bool
deriving DecidableEq, Repr

/-- The name of a test function after the word that makes it one. -/
def TestInfo.suffix (t : TestInfo) : String := Text.dropChars t.name t.head.length

/-- An interface type. -/
structure InterfaceInfo where
  name : String
  typeParams : List Param
  methods : List Method
  embedded : List String
  hasConstraint : Bool
deriving DecidableEq, Repr

/-- A struct type. -/
structure StructInfo where
  name : String
  typeParams : List Param
  fields : List Field
deriving DecidableEq, Repr

namespace StructInfo

/-- Whether a field locks. -/
def hasMutex (s : StructInfo) : Bool := s.fields.any fun f => mutexTypes.contains f.type

/-- Whether a field is a wait group. -/
def hasWaitGroup (s : StructInfo) : Bool := s.fields.any (·.type == "sync.WaitGroup")

/-- The fields that hold a context. -/
def contextFields (s : StructInfo) : List Field := s.fields.filter (·.type == contextType)

end StructInfo

/-- Any other type declaration. -/
structure TypeInfo where
  name : String
  typeParams : List Param
  underlying : String
  isAlias : Bool
deriving DecidableEq, Repr

/-- A package-level variable or constant declaration. -/
structure GlobalInfo where
  names : List (String × Position)
  isConst : Bool
  type : String
  value : String
deriving DecidableEq, Repr

namespace GlobalInfo

/-- The first name declared. -/
def name (g : GlobalInfo) : String := (g.names.head?.map (·.1)).getD ""

/-- Whether the value makes a new error. -/
def isSentinel (g : GlobalInfo) : Bool := Text.startsWithAny g.value ["errors.New(", "fmt.Errorf("]

end GlobalInfo

/-- A go statement. -/
structure GoInfo where
  isLiteral : Bool
  callee : Option String
  calleeType : Option String
  arguments : List String
  passesContext : Bool
  cancellationSafe : Option Bool
  capturedLoopVars : List String
  params : List Param
  inLoop : Bool
  function : String
deriving DecidableEq, Repr

/-- A defer statement. -/
structure DeferInfo where
  callee : Option String
  isLiteral : Bool
  loopDepth : Nat
  function : String
deriving DecidableEq, Repr

/-- The form of a loop. -/
inductive LoopForm where
  | range
  | clause
  | infinite
  | condition
deriving DecidableEq, Repr

/-- The name of a form of loop. -/
def LoopForm.name : LoopForm → String
  | range => "range"
  | clause => "clause"
  | infinite => "infinite"
  | condition => "condition"

/-- A for statement. -/
structure LoopInfo where
  form : LoopForm
  names : List String
  depth : Nat
  function : String
deriving DecidableEq, Repr

/-- A select statement. -/
structure SelectInfo where
  cases : Nat
  hasDefault : Bool
  waitsForCancellation : Bool
  inLoop : Bool
  function : String
deriving DecidableEq, Repr

/-- The making of a channel. The size is known when it is written as plain digits. -/
structure ChannelInfo where
  element : String
  buffer : Option String
  size : Option Nat
deriving DecidableEq, Repr

/-- Whether the channel has a buffer. -/
def ChannelInfo.isBuffered (c : ChannelInfo) : Bool := c.buffer.isSome && c.size != some 0

/-- A call. -/
structure CallInfo where
  callee : String
  name : String
  receiver : Option String
  arguments : List String
  isStatement : Bool
  function : String
  inGoroutine : Bool
  inLoop : Bool
  inTestFile : Bool
  testParam : Option String
  package : String
deriving DecidableEq, Repr

/-- A branch on an error being set. -/
structure ErrorCheckInfo where
  errorName : String
  statements : Nat
  returns : Bool
  returnsError : Bool
  terminates : Bool
  diverts : Bool
  logs : Bool
  referencesError : Bool
  hasElse : Bool
  function : String
deriving DecidableEq, Repr

/-- Whether nothing is done about the error. -/
def ErrorCheckInfo.isEmpty (e : ErrorCheckInfo) : Bool := e.statements == 0

/-- Where the value of a variable was made. -/
inductive Origin where
  | wrapped
  | constructed
  | call
  | nil
  | asserted
  | value
  | param
  | result
  | unknown
deriving DecidableEq, Repr

/-- The name of an origin. -/
def Origin.name : Origin → String
  | wrapped => "wrapped"
  | constructed => "constructed"
  | call => "call"
  | nil => "nil"
  | asserted => "asserted"
  | value => "value"
  | param => "param"
  | result => "result"
  | unknown => "unknown"

/-- A return of a value in an error position. -/
structure ErrorReturnInfo where
  handling : Handling
  errorName : Option String
  origin : Option Origin
  guard : Option Guard
  expression : String
  function : String
deriving DecidableEq, Repr

/-- A call that makes a new error. -/
structure ErrorConstructInfo where
  constructor : String
  message : Option String
  isRaw : Bool
  verbs : List String
  errorArguments : List String
  function : String
deriving DecidableEq, Repr

/-- Whether the new error keeps its cause. -/
def ErrorConstructInfo.wraps (e : ErrorConstructInfo) : Bool := e.verbs.contains "w"

/-- How an error is compared. -/
inductive CompareMethod where
  | string
  | equality
  | errorsIs
  | errorsAs
deriving DecidableEq, Repr

/-- The name of a way of comparing. -/
def CompareMethod.name : CompareMethod → String
  | string => "string"
  | equality => "equality"
  | errorsIs => "errors-is"
  | errorsAs => "errors-as"

/-- A comparison of an error. -/
structure ErrorCompareInfo where
  method : CompareMethod
  operator : String
  expression : String
  function : String
deriving DecidableEq, Repr

/-- A call whose last result goes to the blank name. -/
structure ErrorIgnoredInfo where
  callee : String
  results : Nat
  discardsAll : Bool
deriving DecidableEq, Repr

/-- What a construct is, with what rules need to know about it. -/
inductive Detail where
  | file (lineCount : Nat) (isTest : Bool) (package : String)
  | package (name : String) (isTest : Bool)
  | imported (path : String) (localName : Option String)
  | function (info : FunctionInfo)
  | testFunction (info : TestInfo)
  | interface (info : InterfaceInfo)
  | struct (info : StructInfo)
  | type (info : TypeInfo)
  | global (info : GlobalInfo)
  | go (info : GoInfo)
  | defer (info : DeferInfo)
  | loop (info : LoopInfo)
  | select (info : SelectInfo)
  | channelMake (info : ChannelInfo)
  | call (info : CallInfo)
  | errorCheck (info : ErrorCheckInfo)
  | errorReturn (info : ErrorReturnInfo)
  | errorConstruct (info : ErrorConstructInfo)
  | errorCompare (info : ErrorCompareInfo)
  | errorIgnored (info : ErrorIgnoredInfo)
deriving DecidableEq, Repr

/-- The kinds of constructs, by which rules choose what they look at. -/
inductive ConstructKind where
  | file
  | package
  | imported
  | function
  | testFunction
  | interface
  | struct
  | type
  | global
  | go
  | defer
  | loop
  | select
  | channelMake
  | call
  | errorCheck
  | errorReturn
  | errorConstruct
  | errorCompare
  | errorIgnored
deriving DecidableEq, Repr

namespace ConstructKind

/-- All kinds. -/
def all : List ConstructKind :=
  [.file, .package, .imported, .function, .testFunction, .interface, .struct, .type, .global, .go,
   .defer, .loop, .select, .channelMake, .call, .errorCheck, .errorReturn, .errorConstruct,
   .errorCompare, .errorIgnored]

/-- The name of a kind. -/
def name : ConstructKind → String
  | file => "file"
  | package => "package"
  | imported => "import"
  | function => "function"
  | testFunction => "test-function"
  | interface => "interface"
  | struct => "struct"
  | type => "type"
  | global => "var"
  | go => "go"
  | defer => "defer"
  | loop => "loop"
  | select => "select"
  | channelMake => "channel-make"
  | call => "call"
  | errorCheck => "error-check"
  | errorReturn => "error-return"
  | errorConstruct => "error-construct"
  | errorCompare => "error-compare"
  | errorIgnored => "error-ignored"

/-- The kind with a name. -/
def ofName? (name : String) : Option ConstructKind := all.find? (·.name == name)

end ConstructKind

namespace Detail

/-- The kind of a construct with this detail. -/
def kind : Detail → ConstructKind
  | file .. => .file
  | package .. => .package
  | imported .. => .imported
  | function _ => .function
  | testFunction _ => .testFunction
  | interface _ => .interface
  | struct _ => .struct
  | type _ => .type
  | global _ => .global
  | go _ => .go
  | defer _ => .defer
  | loop _ => .loop
  | select _ => .select
  | channelMake _ => .channelMake
  | call _ => .call
  | errorCheck _ => .errorCheck
  | errorReturn _ => .errorReturn
  | errorConstruct _ => .errorConstruct
  | errorCompare _ => .errorCompare
  | errorIgnored _ => .errorIgnored

/-- The name that a construct declares, imports under or calls by. -/
def name? : Detail → Option String
  | package name _ => some name
  | imported _ localName => localName
  | function f => some f.name
  | testFunction t => some t.name
  | interface i => some i.name
  | struct s => some s.name
  | type t => some t.name
  | global g => some g.name
  | call c => some c.name
  | _ => none

end Detail

/-- A construct of a file: where it begins, its last line, and what it is. -/
structure Construct where
  path : String
  pos : Position
  endLine : Nat
  detail : Detail
deriving DecidableEq, Repr

namespace Construct

/-- The kind of the construct. -/
def kind (c : Construct) : ConstructKind := c.detail.kind

end Construct

end GoIdiom
