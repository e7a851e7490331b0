import GoIdiom.Document.Toml.Value
import GoIdiom.Document.Toml.Layout

/-!
# Reading configuration files

A configuration file is read line by line: headers open a table or a further item of a list of tables, and
other lines put entries into the place that is open. A line without an equality sign stands for nothing, and
neither does a text that the end of the file leaves open.
-/

/-!
## Places in a document

A place is the way from a document to a value in it, by keys of tables and last items of lists. Headers open
places: they make the tables that are missing, and a table is opened by its own header only once.
-/

namespace GoIdiom.Document.Toml

/-- A step into a value. -/
inductive Step where
  | entry (name : String)
  | last
deriving DecidableEq, Repr

/-- The last part of a list or a text. -/
def lastPart : Document → Read Document
  | .list items => items.getLast?.elim (.error .cutShort) .ok
  | .text s => s.toList.getLast?.elim (.error .cutShort) fun c => .ok (.text (String.ofList [c]))
  | _ => .error .notTable

/-- The value at a place. What is not there counts as null. -/
def valueAt : List Step → Document → Document
  | [], d => d
  | .entry name :: rest, d => valueAt rest ((d.entries?.bind (·.lookup name)).getD .null)
  | .last :: rest, d => valueAt rest ((lastPart d).toOption.getD .null)

/-- Puts a value at a place, the last step of which may lead to a new key. -/
def setAt : List Step → Document → Document → Document
  | [], value, _ => value
  | .entry name :: rest, value, d =>
    match d.entries? with
    | some t => d.withEntries (insertEntry name (setAt rest value ((t.lookup name).getD .null)) t)
    | none => d
  | .last :: rest, value, d =>
    match d with
    | .list items =>
      match items.getLast? with
      | some item => .list (items.dropLast ++ [setAt rest value item])
      | none => d
    | _ => d

/-- A document, the place that is open, and the names of tables that were made only on the way to another. -/
structure Draft where
  root : Document
  place : List Step
  implied : List String

namespace Draft

/-- A draft without entries. -/
def empty : Draft := ⟨.table [], [], []⟩

/-- The value at the open place. -/
def here (d : Draft) : Document := valueAt d.place d.root

/-- Puts another value at the open place. -/
def setHere (d : Draft) (value : Document) : Draft := { d with root := setAt d.place value d.root }

/-- Goes on into the open place. -/
def enter (d : Draft) (step : Step) : Draft := { d with place := d.place ++ [step] }

/-- What a header makes under its last name. -/
def made (isItem : Bool) : Document := if isItem then .list [.table []] else .table []

/-- Opens the last name of a header, which is in use. A table that was made on the way to another may be
opened once, and a list of tables gets a further item. -/
def reopen (isItem : Bool) (name : String) (old : Document) (d : Draft) : Read Draft :=
  let opened := d.enter (.entry name)
  if d.implied.contains name then
    if isItem then .error .malformed else .ok { opened with implied := d.implied.erase name }
  else if !isItem then .error .malformed
  else
    match old with
    | .list items => .ok (opened.setHere (.list (items ++ [.table []])))
    | _ => .error .notTable

/-- Opens a name of a header in the open table. -/
def openEntry (isItem isLast : Bool) (name : String) (t : Table) (d : Draft) : Read Draft :=
  match t.lookup name with
  | some old => if isLast then d.reopen isItem name old else .ok (d.enter (.entry name))
  | none =>
    let d := if isLast then d else { d with implied := d.implied ++ [name] }
    .ok ((d.enter (.entry name)).setHere (made (isItem && isLast)))

/-- Opens a name of a header in the last part of the open value. What is there is kept. -/
def openInLast (isItem isLast : Bool) (name : String) (d : Draft) : Read Draft := do
  match (← lastPart d.here).entries? with
  | some t =>
    let opened := (d.enter .last).enter (.entry name)
    pure (if (t.lookup name).isSome then opened else opened.setHere (made (isItem && isLast)))
  | none => .error .notTable

/-- Goes on into the last part of the open value, unless it is a table. -/
def enterLast (d : Draft) : Read Draft :=
  if d.here.entries?.isSome then .ok d else (lastPart d.here).map fun _ => d.enter .last

/-- Opens one name of a header. -/
def openName (isItem isLast : Bool) (name : String) (d : Draft) : Read Draft := do
  if name == "" then .error .malformed
  let opened ← match d.here.entries? with
    | some t => d.openEntry isItem isLast name t
    | none => d.openInLast isItem isLast name
  if isItem then opened.enterLast else pure opened

/-- Opens the names of a header one after the other. -/
def openNames (isItem : Bool) : List String → Draft → Read Draft
  | [], d => .ok d
  | name :: rest, d => do openNames isItem rest (← d.openName isItem rest.isEmpty name)

/-- Opens the place of a header, from the whole document on. -/
def openHeader (isItem : Bool) (names : List String) (d : Draft) : Read Draft :=
  openNames isItem names { d with place := [] }

end Draft

end GoIdiom.Document.Toml

/-! ## Lines -/

namespace GoIdiom.Document

namespace Toml

/-- The document so far, and the entry that the next line goes on with. -/
structure Reading where
  draft : Draft
  pending : Option OpenEntry

namespace Reading

/-- The state before the first line. -/
def start : Reading := ⟨.empty, none⟩

/-- Puts the value of an entry that was left open into the open place, whatever has that name there. -/
def close (r : Reading) (name : String) (value : Document) : Read Reading :=
  match r.draft.here.entries? with
  | some t => .ok ⟨r.draft.setHere (r.draft.here.withEntries (insertEntry name value t)), none⟩
  | none => .error .notTable

/-- A line that goes on with an open entry. -/
def goOn (r : Reading) (e : OpenEntry) (line : List Char) : Read Reading := do
  if ← e.closes line then r.close e.name (← valueOf true (e.text ++ line))
  else pure { r with pending := some (.atLineEnd e.name (e.text ++ line)) }

/-- A line with a header, its brackets at the front taken off. -/
def openPlace (r : Reading) (isItem : Bool) (line : List Char) : Read Reading := do
  let names ← header (if isItem then [']', ']'] else [']']) line
  pure { r with draft := ← r.draft.openHeader isItem names }

/-- A line that begins an entry. -/
def beginEntry (r : Reading) (line : List Char) : Read Reading := do
  let (d, pending) ← putEntry valueOfText r.draft.here line
  pure ⟨r.draft.setHere d, pending⟩

/-- A line with a table, whose entries are put into the open place. -/
def spread (r : Reading) (line : List Char) : Read Reading := do
  if line.getLast? != some '\x7d' then .error .malformed
  else
    let d ← putEntries valueOfText r.draft.here (← inlineEntries line)
    pure { r with draft := r.draft.setHere d }

/-- Reads a line. -/
def follow (r : Reading) (line : List Char) : Read Reading :=
  match r.pending with
  | some e =>
    let line := if e.stripsNext then strip line else line
    if line.isEmpty && e.continues then .ok r else r.goOn e line
  | none =>
    match strip line with
    | [] => .ok r
    | ['['] => .error .malformed
    | '[' :: '[' :: rest => r.openPlace true rest
    | '[' :: rest => r.openPlace false rest
    | '\x7b' :: rest => r.spread ('\x7b' :: rest)
    | other => if other.contains '=' then r.beginEntry other else .ok r

end Reading

end Toml

/-- The document that the text of a configuration file stands for. -/
def ofToml (s : String) : Except TomlFault Document := do
  let lines ← Toml.lines s.toList
  let reading ← lines.foldlM Toml.Reading.follow Toml.Reading.start
  pure reading.draft.root

end GoIdiom.Document
