import GoIdiom.Rule.Registry

/-!
# Style rules

A style rule is written down with its matcher: what it looks at, what it reports, and how severe that
is. Its category is that of the list it stands in.
-/

namespace GoIdiom

/-- A rule of the style catalog with its matcher. -/
structure StyleRule where
  id : String
  severity : Severity
  title : String
  suggestion : Option String
  kinds : List ConstructKind
  predicate : Predicate

namespace StyleRule

/-- The catalog entry of the rule. -/
def entry (category : Category) (r : StyleRule) : CatalogEntry :=
  ⟨r.id, category, r.severity, r.title, r.suggestion, false⟩

/-- The matcher of the rule under its identifier. -/
def item (r : StyleRule) : String × Matcher := (r.id, ⟨r.kinds, r.predicate⟩)

end StyleRule

namespace Hit

/-- A hit at the construct itself under a condition. -/
def when (condition : Bool) (message : String) : List Hit := if condition then [here message] else []

end Hit

/-- Reports hits. -/
def report (hits : List Hit) : Except MatchFailure (List Hit) := .ok hits

/-- The end of a message that names a limit, which has to be a value that can be shown. -/
def limitText (limit : Document) : Except MatchFailure String :=
  if limit.isShowable then .ok (" (limit " ++ limit.plain ++ ")") else .error .notShowable

/-- Reports a count that is above a limit; the message ends with the limit. -/
def reportAbove (count : Nat) (limit : Document) (message : String) : Except MatchFailure (List Hit) := do
  if ← MatchContext.above count limit then report [.here (message ++ (← limitText limit))] else report []

/-- The name of the function around a construct, or what stands for it at package level. -/
def functionOr (function fallback : String) : String := if function == "" then fallback else function

end GoIdiom
