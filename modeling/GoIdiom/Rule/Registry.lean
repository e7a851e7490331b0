import GoIdiom.Rule

/-!
# The registry of rules

A registry grows by rules with new identifiers only. It is built by joining catalog entries with the
matchers of each category; an entry without a matcher, a matcher without an entry, and a matcher
under another category are refused.
-/

namespace GoIdiom

/-- The entry of a rule in the catalog. -/
structure CatalogEntry where
  id : String
  category : Category
  severity : Severity
  title : String
  suggestion : Option String
  isEngine : Bool
deriving DecidableEq, Repr

/-- Why rules do not make a registry. -/
inductive RegistryFault where
  | duplicate (id : String)
  | noKinds (id : String)
  | noMatcher (id : String)
  | engineMatcher (id : String)
  | otherCategory (id : String) (catalogued matched : Category)
  | noEntry (ids : List String)
deriving DecidableEq, Repr

/-- The wording of a fault. -/
def RegistryFault.message : RegistryFault → String
  | duplicate id => "Rule '" ++ id ++ "' is already registered"
  | noKinds id => "Matcher for '" ++ id ++ "' must declare at least one unit kind"
  | noMatcher id => "Rule '" ++ id ++ "' has no matcher"
  | engineMatcher id => "Engine rule '" ++ id ++ "' must not have a matcher"
  | otherCategory id catalogued matched =>
    "Rule '" ++ id ++ "' is catalogued as " ++ catalogued.name ++ " but its matcher is in " ++ matched.name
  | noEntry ids => "Matchers without catalog entries: " ++ Text.joinWith ", " ids

/-- The matchers of one category, in the order they were registered. -/
structure MatcherSet where
  category : Category
  entries : List (String × Matcher)

namespace MatcherSet

/-- A set without matchers. -/
def empty (category : Category) : MatcherSet := ⟨category, []⟩

/-- Adds the matcher of a rule, which has to name a kind of construct. -/
def register (s : MatcherSet) (id : String) (m : Matcher) : Except RegistryFault MatcherSet :=
  if m.kinds.isEmpty then .error (.noKinds id)
  else if s.entries.any (·.1 == id) then .error (.duplicate id)
  else .ok { s with entries := s.entries ++ [(id, m)] }

/-- The matchers by identifier. -/
def items (s : MatcherSet) : List (String × Matcher) := s.entries.mergeSort fun a b => a.1 ≤ b.1

/-- A set of matchers with distinct identifiers. -/
def ofList (category : Category) (entries : List (String × Matcher)) : MatcherSet := ⟨category, entries⟩

end MatcherSet

/-- Rules with distinct identifiers, in the order they were registered. -/
structure Registry where
  rules : List Rule

namespace Registry

/-- A registry without rules. -/
def empty : Registry := ⟨[]⟩

/-- The rule with an identifier. -/
def get? (r : Registry) (id : String) : Option Rule := r.rules.find? (·.id == id)

/-- Whether there is a rule with an identifier. -/
def contains (r : Registry) (id : String) : Bool := r.rules.any (·.id == id)

/-- The number of rules. -/
def size (r : Registry) : Nat := r.rules.length

/-- Adds a rule with a new identifier. -/
def register (r : Registry) (rule : Rule) : Except RegistryFault Registry :=
  if r.contains rule.id then .error (.duplicate rule.id) else .ok ⟨r.rules ++ [rule]⟩

/-- All rules by category and identifier. -/
def all (r : Registry) : List Rule := r.rules.mergeSort fun a b => (Rule.order a b).isLE

/-- The titles of all rules. -/
def titles (r : Registry) : List (String × String) := r.all.map fun rule => (rule.id, rule.title)

/-- The rules that a configuration selects; engine rules always are. -/
def enabled (r : Registry) (config : Config) : List Rule :=
  r.all.filter fun rule => rule.isEngine || config.isEnabled rule.id (some rule.category)

/-- A matcher with its rule and category. -/
structure Filed where
  id : String
  category : Category
  matcher : Matcher

/-- Files the matchers of a set after those of other sets. -/
def fileItems (filed : List Filed) (category : Category) :
    List (String × Matcher) → Except RegistryFault (List Filed)
  | [] => .ok filed
  | (id, matcher) :: rest =>
    if filed.any (·.id == id) then .error (.duplicate id)
    else fileItems (filed ++ [⟨id, category, matcher⟩]) category rest

/-- Files the matchers of all sets. -/
def fileSets (filed : List Filed) : List MatcherSet → Except RegistryFault (List Filed)
  | [] => .ok filed
  | s :: rest => do fileSets (← fileItems filed s.category s.items) rest

/-- Registers the entries, each with its matcher, which is no longer filed afterwards. -/
def joinEntries (registry : Registry) (filed : List Filed) :
    List CatalogEntry → Except RegistryFault (Registry × List Filed)
  | [] => .ok (registry, filed)
  | e :: rest => do
    let found := filed.find? (·.id == e.id)
    match found with
    | none =>
      if !e.isEngine && !registry.contains e.id then .error (.noMatcher e.id)
    | some m =>
      if e.isEngine then .error (.engineMatcher e.id)
      else if m.category != e.category then .error (.otherCategory e.id e.category m.category)
    let registry ← registry.register
      ⟨e.id, e.category, e.severity, e.title, e.suggestion, found.map (·.matcher), e.isEngine⟩
    joinEntries registry (filed.filter (·.id != e.id)) rest

/-- Joins the entries of a catalog with matchers. -/
def build (entries : List CatalogEntry) (sets : List MatcherSet) : Except RegistryFault Registry := do
  let filed ← fileSets [] sets
  let (registry, left) ← joinEntries empty filed entries
  if left.isEmpty then pure registry
  else .error (.noEntry ((left.map (·.id)).mergeSort (· ≤ ·)))

end Registry

end GoIdiom
