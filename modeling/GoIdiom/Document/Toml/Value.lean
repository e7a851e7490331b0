import GoIdiom.Document.Json
import GoIdiom.Document.Toml.Entry

/-!
# Values

Truth values, texts, lists whose items are of one kind, tables on one line, and scalars. An entry is put into
the table that its key leads to; tables on the way are made, and a key is given a value only once.
-/

namespace GoIdiom.Document

/-- A table of the same kind with other entries. -/
def withEntries (d : Document) (entries : Table) : Document :=
  match d with
  | inlineTable _ => inlineTable entries
  | _ => table entries

namespace Toml

/-- The kinds of values that a list may not mix. -/
inductive ValueKind where
  | truth
  | whole
  | double
  | text
  | date
  | time
  | list
  | table
deriving DecidableEq, Repr

/-- The kind of a value. A date with a time is a date. -/
def ValueKind.of : Document → ValueKind
  | .null | .bool _ => truth
  | .int _ => whole
  | .float _ => double
  | .text _ => text
  | .moment (.time _) => time
  | .moment _ => date
  | .list _ => list
  | .table _ | .inlineTable _ => table

/-- Adds an item to those of a list, the nearest first, if it is of their kind. -/
def addItem (items : List Document) (item : Document) : Read (List Document) :=
  match items with
  | [] => .ok [item]
  | other :: _ => if ValueKind.of other = ValueKind.of item then .ok (item :: items) else .error .malformed

/-- Adds an entry, whose key has to be new. -/
def addEntry (d : Document) (name : String) (value : Document) : Read Document :=
  match d.entries? with
  | some t => if (t.lookup name).isSome then .error .malformed else .ok (d.withEntries (insertEntry name value t))
  | none => .error .malformed

/-- Leaves an entry open, whose key has to be new and not empty. -/
def leaveOpen (d : Document) (name : String) (value : List Char) : Read (Document × Option OpenEntry) :=
  match d.entries? with
  | some t =>
    if (t.lookup name).isSome then .error .malformed
    else if name == "" then .error .nameless
    else .ok (d, some (.atLineEnd name value))
  | none => .error .malformed

/-- Changes the table that names lead to. Missing tables are made. -/
def changeUnder {α : Type} (change : Document → Read (Document × α)) :
    List String → Document → Read (Document × α)
  | [], d => change d
  | name :: rest, d =>
    match d.entries? with
    | some t => do
      let (inner, x) ← changeUnder change rest ((t.lookup name).getD (.table []))
      pure (d.withEntries (insertEntry name inner t), x)
    | none => .error .notTable

/-- Puts the value of an entry under its name, or leaves the entry open. -/
def putValue (read : EntryText → Read Document) (text : EntryText) (name : String) (d : Document) :
    Read (Document × Option OpenEntry) := do
  if ← leavesTextOpen text.value then leaveOpen d name text.value
  else
    let value ← read text
    pure (← addEntry d name value, none)

/-- Puts the entry of a line into a table. -/
def putEntry (read : EntryText → Read Document) (d : Document) (line : List Char) :
    Read (Document × Option OpenEntry) := do
  let text ← EntryText.ofLine line
  let key ← Key.ofChars text.key
  changeUnder (putValue read text key.name) key.path d

/-- Puts entries into a table up to the first one that is left open. -/
def putEntries (read : EntryText → Read Document) (d : Document) : List (List Char) → Read Document
  | [] => .ok d
  | line :: rest => do
    match ← putEntry read d line with
    | (d, none) => putEntries read d rest
    | (d, some _) => pure d

/-- Whether characters spell a word in letters that are not all small. -/
def misspells (cs : List Char) (word : String) : Bool :=
  String.ofList (cs.map Char.toLower) == word && cs != word.toList

/-- A value. Every nested value takes one unit of fuel. -/
def readValue : Nat → Bool → List Char → Read Document
  | 0, _, _ => .error .malformed
  | fuel + 1, strict, cs =>
    if cs == "true".toList then .ok (.bool true)
    else if cs == "false".toList then .ok (.bool false)
    else if misspells cs "true" || misspells cs "false" then .error .malformed
    else
      match cs with
      | [] => .error .malformed
      | '[' :: _ => do
        let items ← listItems (strip cs)
        let read ← ((items.map strip).filter fun item => !item.isEmpty).foldlM
          (fun before item => do addItem before (← readValue fuel true item)) []
        pure (.list read.reverse)
      | '\x7b' :: _ => do
        putEntries (fun text => readValue fuel text.strict text.value) (.inlineTable []) (← inlineEntries cs)
      | c :: _ => if isMark c then (readText c cs).map .text else readScalar strict cs

/-- The value that characters stand for. -/
def valueOf (strict : Bool) (cs : List Char) : Read Document := readValue (cs.length + 1) strict cs

/-- The value of an entry. -/
def valueOfText (text : EntryText) : Read Document := valueOf text.strict text.value

end Toml

end GoIdiom.Document
