import GoIdiom.Style.Concurrency
import GoIdiom.Style.ErrorHandling
import GoIdiom.Style.InterfaceDesign
import GoIdiom.Style.Naming
import GoIdiom.Style.Organization
import GoIdiom.Style.Testing

/-!
# The style catalog

All style rules by category, and the registry they make together with the engine rules.
-/

namespace GoIdiom.Style

/-- The rules of every category that have a matcher. -/
def rulesOf : Category → List StyleRule
  | .errorHandling => ErrorHandling.rules
  | .interfaceDesign => InterfaceDesign.rules
  | .concurrency => Concurrency.rules
  | .naming => Naming.rules
  | .testing => Testing.rules
  | .organization => Organization.rules

/-- The entries of all rules. -/
def entries : List CatalogEntry :=
  Category.all.flatMap (fun c => (rulesOf c).map (StyleRule.entry c)) ++ Organization.engineEntries

/-- The matchers of every category. -/
def matcherSets : List MatcherSet :=
  Category.all.map fun c => .ofList c ((rulesOf c).map StyleRule.item)

/-- The registry of all rules, or why the catalog and the matchers do not fit together. -/
def registry? : Except RegistryFault Registry := Registry.build entries matcherSets

/-- The registry of all rules. -/
def registry : Registry :=
  match registry? with
  | .ok r => r
  | .error _ => .empty

end GoIdiom.Style
