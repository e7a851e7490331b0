import GoIdiom.Rule.Registry

/-!
# Reading a rule catalog

A catalog document has a version and a list of entries. Every entry names its category and severity;
anything else is taken as it is.
-/

namespace GoIdiom

/-- What is wrong with a catalog document. -/
inductive CatalogCause where
  | notTable
  | version (found : Document)
  | rulesNotList
  | entryNotTable (index : Nat) (typeName : String)
  | missingKeys (index : Nat) (keys : List String)
  | unknownCategory (rule category : String)
  | unknownSeverity (rule severity : String)
  | notAName

namespace Catalog

/-- The version of catalogs that are read. -/
def version : Nat := 1

/-- The keys that every entry has. -/
def requiredKeys : List String := ["id", "category", "severity", "title"]

end Catalog

/-- The wording of a cause, in a catalog of the given name. -/
def CatalogCause.message (catalog : String) : CatalogCause → String
  | notTable => catalog ++ ": expected a mapping at top level"
  | version found =>
    "Unsupported catalog version " ++ found.shown ++ " in " ++ catalog ++ " (expected " ++
      toString Catalog.version ++ ")"
  | rulesNotList => catalog ++ ": 'rules' must be a list"
  | entryNotTable index typeName =>
    catalog ++ ": rules[" ++ toString index ++ "]: expected a mapping, got " ++ typeName
  | missingKeys index keys =>
    catalog ++ ": rules[" ++ toString index ++ "]: missing required keys " ++
      (Document.list (keys.map .text)).shown
  | unknownCategory rule category => catalog ++ ": rule '" ++ rule ++ "': unknown category '" ++ category ++ "'"
  | unknownSeverity rule severity => catalog ++ ": rule '" ++ rule ++ "': unknown severity '" ++ severity ++ "'"
  | notAName => catalog ++ ": a list or table stands where a name is expected"

namespace Catalog

/-- The value under a key, which is known to be there. -/
def valueOf (entry : Table) (key : String) : Document := (entry.lookup key).getD .null

/-- A value that may be looked up among names: no list and no table. -/
def nameOf (d : Document) : Except CatalogCause String :=
  match d with
  | .list _ | .table _ | .inlineTable _ => .error .notAName
  | other => .ok other.plain

/-- Looks a value up among names. -/
def lookUp {α : Type} (ofName? : String → Option α) (d : Document) (unknown : String → CatalogCause) :
    Except CatalogCause α := do
  let name ← nameOf d
  match d, ofName? name with
  | .text _, some value => pure value
  | _, _ => .error (unknown name)

/-- One entry. -/
def entryOf (index : Nat) (d : Document) : Except CatalogCause CatalogEntry :=
  match d.entries? with
  | some entry => do
    let missing := requiredKeys.filter fun key => (entry.lookup key).isNone
    if !missing.isEmpty then .error (.missingKeys index missing)
    let id := (valueOf entry "id").plain
    let category ← lookUp Category.ofName? (valueOf entry "category") (.unknownCategory id)
    let severity ← lookUp Severity.ofName? (valueOf entry "severity") (.unknownSeverity id)
    pure
      { id := id
        category := category
        severity := severity
        title := (valueOf entry "title").plain
        suggestion := match valueOf entry "suggestion" with
          | .null => none
          | other => some other.plain
        isEngine := (valueOf entry "engine").isSet }
  | none => .error (.entryNotTable index d.typeName)

/-- The entries of a list, counted from an index. -/
def entriesFrom (index : Nat) : List Document → Except CatalogCause (List CatalogEntry)
  | [] => .ok []
  | d :: rest => do
    let entry ← entryOf index d
    let more ← entriesFrom (index + 1) rest
    pure (entry :: more)

/-- The entries of a catalog document. -/
def ofDocument (d : Document) : Except CatalogCause (List CatalogEntry) :=
  match d.entries? with
  | some spec =>
    let found := valueOf spec "version"
    if !found.equalsInt version then .error (.version found)
    else
      match valueOf spec "rules" with
      | .list items => entriesFrom 0 items
      | _ => .error .rulesNotList
  | none => .error .notTable

end Catalog

end GoIdiom
