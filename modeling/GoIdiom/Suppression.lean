import GoIdiom.Config
import GoIdiom.Finding
import GoIdiom.PathText

/-!
# Suppressions

A suppression exempts lines of one file from some rules. It takes effect only with a justification;
one that names the wildcard exempts from every rule.
-/

namespace GoIdiom

/-- Where a suppression is declared. -/
inductive SuppressionOrigin where
  | comment
  | configuration
deriving DecidableEq, Repr

/-- The name of an origin. -/
def SuppressionOrigin.name : SuppressionOrigin → String
  | comment => "comment"
  | configuration => "config"

/-- An exemption of the lines from `first` to `last`. -/
structure Suppression where
  rules : List String
  path : String
  first : Int
  last : Int
  justification : String
  line : Int
  col : Int
  origin : SuppressionOrigin
deriving DecidableEq, Repr

namespace Suppression

/-- The name that stands for every rule. -/
def wildcard : String := "*"

/-- The last line of a range that reaches to the end of the file, beyond the lines of any file. -/
def endOfFile : Int := 9223372036854775807

/-- Whether a reason is given. -/
def isJustified (s : Suppression) : Bool := s.justification != ""

/-- Whether the suppression is for every rule. -/
def isWildcard (s : Suppression) : Bool := s.rules.contains wildcard

/-- Whether the suppression is for the rule and lines of a finding. -/
def covers (s : Suppression) (f : Finding) : Bool :=
  f.path == s.path && s.first ≤ f.line && f.line ≤ s.last && (s.isWildcard || s.rules.contains f.ruleId)

/-- The rules in one line. -/
def describe (s : Suppression) : String := Text.joinWith ", " s.rules

/-- Whether the first suppression is declared at or before the second. -/
def declaredBefore (a b : Suppression) : Bool :=
  (compareLex (compareOn line) (compareOn col) a b).isLE

end Suppression

end GoIdiom

/-!
## Suppressions in the configuration

An entry of the configuration is for the files whose path one of its patterns matches, either as given
or as seen from the directory of the configuration file.
-/

namespace GoIdiom.Suppression

/-- The path as seen from the directory of the configuration file, if it lies below it. -/
def fromRoot (root : Option ConfigRoot) (path : String) : Option String := do
  let root ← root
  PathText.relativeTo? root.directory (PathText.resolve root.working path)

/-- The forms of a path that patterns are matched against. -/
def pathForms (root : Option ConfigRoot) (path : String) : List String :=
  PathText.plain path :: (fromRoot root path).toList

/-- Whether an entry is for a file. -/
def appliesTo (root : Option ConfigRoot) (path : String) (e : SuppressionEntry) : Bool :=
  e.paths.any fun pattern => (pathForms root path).any fun form => Text.globMatches form pattern

/-- The suppression that an entry makes in a file. -/
def ofEntry (path : String) (e : SuppressionEntry) : Suppression :=
  let (first, last) := (e.lines.map fun (a, b) => (a.line, b.line)).getD (1, endOfFile)
  ⟨[e.rule], path, first, last, e.justification, first, 1, .configuration⟩

/-- The suppressions that the entries of a configuration make in a file. -/
def ofEntries (root : Option ConfigRoot) (path : String) (entries : List SuppressionEntry) :
    List Suppression :=
  (entries.filter (appliesTo root path)).map (ofEntry path)

end GoIdiom.Suppression
