import GoIdiom.Config
import GoIdiom.Construct.Index
import GoIdiom.Finding

/-!
# Rules and matchers

A rule is its entry in the catalog together with a matcher, which looks at constructs of some kinds
and reports hits. Engine rules have no matcher: the analysis itself reports them.
-/

namespace GoIdiom

/-- One violation that a matcher reports. What it leaves open is taken from the rule and construct. -/
structure Hit where
  message : String
  severity : Option Severity
  suggestion : Option String
  line : Option Int
  col : Option Int
deriving DecidableEq, Repr

namespace Hit

/-- A hit at the construct itself. -/
def here (message : String) : Hit := ⟨message, none, none, none, none⟩

/-- A hit at a place inside the construct. -/
def at' (pos : Position) (message : String) : Hit := ⟨message, none, none, some pos.line, some pos.col⟩

end Hit

/-- Why a matcher gave up on a construct. -/
inductive MatchFailure where
  | notComparable (operator left right : String)
  | notContainer (typeName : String)
  | noAttribute (name : String)
  | noKey (key : String)
  | outOfRange (sequence : String)
  | notShowable
  | refused (text : String)
deriving DecidableEq, Repr

/-- The wording of a failure. -/
def MatchFailure.message : MatchFailure → String
  | notComparable operator left right =>
    "TypeError: '" ++ operator ++ "' not supported between instances of '" ++ left ++ "' and '" ++ right ++ "'"
  | notContainer typeName => "TypeError: argument of type '" ++ typeName ++ "' is not iterable"
  | noAttribute name => "AttributeError: 'NoneType' object has no attribute '" ++ name ++ "'"
  | noKey key => "KeyError: " ++ Text.quoted key
  | outOfRange sequence => "IndexError: " ++ sequence ++ " index out of range"
  | notShowable =>
    "ValueError: Exceeds the limit (" ++ toString Document.digitLimit ++
      " digits) for integer string conversion; use sys.set_int_max_str_digits() to increase the limit"
  | refused text => "ValueError: " ++ text

/-- What a matcher may consult besides its construct: the declarations of the file and the options of
the rule. -/
structure MatchContext where
  index : ConstructIndex
  options : Table

namespace MatchContext

/-- The value of an option. -/
def option (ctx : MatchContext) (name : String) (fallback : Document) : Document :=
  (ctx.options.lookup name).getD fallback

/-- How a number compares with a limit, which has to be numeric. -/
def measure (operator : String) (n : Nat) (limit : Document) : Except MatchFailure (Option Ordering) :=
  match limit.compareWith n with
  | some order => .ok order
  | none => .error (.notComparable operator "int" limit.qualifiedName)

/-- Whether a number is above a limit. -/
def above (n : Nat) (limit : Document) : Except MatchFailure Bool :=
  (measure ">" n limit).map (· == some .gt)

/-- Whether a number is a limit or above it. -/
def reaches (n : Nat) (limit : Document) : Except MatchFailure Bool :=
  (measure ">=" n limit).map fun order => order == some .gt || order == some .eq

/-- Whether a number is a limit or below it. -/
def within (n : Nat) (limit : Document) : Except MatchFailure Bool :=
  (measure "<=" n limit).map fun order => order == some .lt || order == some .eq

/-- Whether a name is in a collection: an item of a list, a key of a table or a part of a text. -/
def holdsName (name : String) : Document → Except MatchFailure Bool
  | .list items => .ok (items.any fun d => match d with
    | .text s => s == name
    | _ => false)
  | .table entries | .inlineTable entries => .ok (entries.any (·.1 == name))
  | .text s => .ok (Text.contains s name)
  | other => .error (.notContainer other.qualifiedName)

end MatchContext

/-- What a matcher does with a construct of one of its kinds. -/
abbrev Predicate := Construct → MatchContext → Except MatchFailure (List Hit)

/-- The kinds of constructs that a matcher looks at, and what it does with them. -/
structure Matcher where
  kinds : List ConstructKind
  predicate : Predicate

/-- A rule. -/
structure Rule where
  id : String
  category : Category
  severity : Severity
  title : String
  suggestion : Option String
  matcher : Option Matcher
  isEngine : Bool

namespace Rule

/-- The kinds of constructs that the rule looks at. -/
def kinds (r : Rule) : List ConstructKind := (r.matcher.map (·.kinds)).getD []

/-- The order of rules: by category, then by identifier. -/
def order : Rule → Rule → Ordering :=
  compareLex (compareOn (·.category.name)) (compareOn (·.id))

end Rule

end GoIdiom
