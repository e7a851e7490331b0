import GoIdiom.Construct.Scope
import GoIdiom.Text.Word

/-!
# What a walk through a body finds

A walk collects constructs in source order and, for the declared function, the functions called, the
deepest nesting, and the returns without values. It fails only on a channel size that is written in
digits but is no number.
-/

namespace GoIdiom

/-- The file that constructs are found in. -/
structure FileInfo where
  path : String
  isTest : Bool
  package : String
deriving DecidableEq, Repr

/-- Why digits cannot be read as a channel size. -/
inductive SizeFault where
  | notDecimal (text : String)
  | tooLong (digits : Nat)
deriving DecidableEq, Repr

namespace SizeFault

/-- The number of digits up to which sizes are read. -/
def digitLimit : Nat := 4300

/-- The wording of the fault. At most two hundred characters of the text are shown. -/
def message : SizeFault → String
  | notDecimal text =>
    "invalid literal for int() with base 10: " ++ String.ofList ((Text.quoted text).toList.take 200)
  | tooLong digits =>
    "Exceeds the limit (" ++ toString digitLimit ++
      " digits) for integer string conversion: value has " ++ toString digits ++
      " digits; use sys.set_int_max_str_digits() to increase the limit"

end SizeFault

/-- What a walk found. -/
structure Trace where
  constructs : List Construct
  callees : List String
  depth : Nat
  nakedReturns : List Position
deriving DecidableEq, Repr

namespace Trace

/-- Nothing found. -/
def empty : Trace := ⟨[], [], 0, []⟩

/-- Constructs and nothing else. -/
def ofConstructs (constructs : List Construct) : Trace := { empty with constructs }

/-- What two walks found, one after the other. -/
def append (a b : Trace) : Trace :=
  ⟨a.constructs ++ b.constructs, a.callees ++ b.callees, max a.depth b.depth, a.nakedReturns ++ b.nakedReturns⟩

instance : Append Trace := ⟨append⟩

/-- What was found inside a block at a depth. -/
def atDepth (depth : Nat) (t : Trace) : Trace := { t with depth := max depth t.depth }

end Trace

/-- The result of a walk. -/
abbrev Walk := Except SizeFault Trace

namespace Walk

/-- One walk after the other. -/
def andThen (a b : Walk) : Walk := do
  let x ← a
  let y ← b
  pure (x ++ y)

/-- Walks one after the other. -/
def all : List Walk → Walk
  | [] => .ok .empty
  | w :: rest => andThen w (all rest)

/-- A walk that finds constructs and nothing else. -/
def found (constructs : List Construct) : Walk := .ok (.ofConstructs constructs)

end Walk

/-- Where a walk is: the scope, the depth of blocks and loops around it, the names of those loops,
the strongest guard on an error, and whether a goroutine was started around it. -/
structure Context where
  scope : Scope
  depth : Nat
  loopDepth : Nat
  loopVars : List String
  guard : Option Guard
  inGoroutine : Bool
deriving DecidableEq, Repr

namespace Context

/-- The beginning of a function. -/
def ofScope (scope : Scope) : Context := ⟨scope, 0, 0, [], none, false⟩

/-- Inside a block. -/
def enter (ctx : Context) : Context := { ctx with depth := ctx.depth + 1 }

/-- Inside a block under a guard. -/
def enterGuarded (ctx : Context) (guard : Option Guard) : Context :=
  { ctx.enter with guard := Guard.stronger ctx.guard guard }

/-- Inside a loop. -/
def enterLoop (ctx : Context) (names : List String) : Context :=
  { ctx.enter with loopDepth := ctx.loopDepth + 1, loopVars := ctx.loopVars ++ names }

/-- Inside a function literal, perhaps one that a goroutine runs. -/
def enterLiteral (ctx : Context) (frame : Frame) (launched : Bool) : Context :=
  { ctx.enter with
    scope := ctx.scope.enter frame
    loopDepth := 0
    guard := none
    inGoroutine := ctx.inGoroutine || launched }

/-- Whether a loop is around this place in its function. -/
def inLoop (ctx : Context) : Bool := ctx.loopDepth > 0

/-- The name of the declared function. -/
def function (ctx : Context) : String := ctx.scope.function

end Context

end GoIdiom
