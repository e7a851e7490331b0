/-!
# Wildcard patterns

In a pattern a star stands for any characters, a question mark for one, and brackets for one
character of a class, which an exclamation mark negates. Slashes are characters like any other. A
bracket that is not closed stands for itself.
-/

namespace GoIdiom.Text

/-- One element of a pattern. -/
inductive GlobPiece where
  | star
  | any
  | never
  | literal (c : Char)
  | oneOf (negated : Bool) (chunks : List (List Char))
deriving DecidableEq, Repr

namespace Glob

/-- Where the class ends that a bracket opens: at the first closing bracket that is not its first
character, after an exclamation mark if there is one. -/
def classLength? (cs : List Char) : Option Nat :=
  let negation := if cs.head? == some '!' then 1 else 0
  let bracket := if (cs.drop negation).head? == some ']' then 1 else 0
  let start := negation + bracket
  let rest := cs.drop start
  let inside := rest.takeWhile (· != ']')
  if inside.length < rest.length then some (start + inside.length) else none

/-- The chunks of a class between hyphens that make ranges. `current` is the chunk being read, in
reverse, and a hyphen counts only when `wait` characters of the chunk have gone by. -/
def chunksFrom (current : List Char) (wait : Nat) : List Char → List (List Char)
  | [] => [current.reverse]
  | c :: rest =>
    match wait with
    | 0 => if c = '-' then current.reverse :: chunksFrom [] 2 rest else chunksFrom (c :: current) 0 rest
    | w + 1 => chunksFrom (c :: current) w rest

/-- Takes a last chunk without characters for a hyphen that stands for itself. -/
def closeChunks : List (List Char) → List (List Char)
  | [] => []
  | [chunk] => [chunk]
  | [chunk, []] => [chunk ++ ['-']]
  | chunk :: rest => chunk :: closeChunks rest

/-- Joins neighbouring chunks whose range is empty, without the two ends of that range. -/
def joinEmptyRanges : List (List Char) → List (List Char)
  | [] => []
  | chunk :: rest =>
    match joinEmptyRanges rest with
    | [] => [chunk]
    | next :: more =>
      match chunk.getLast?, next.head? with
      | some low, some high =>
        if high < low then (chunk.dropLast ++ next.drop 1) :: more else chunk :: next :: more
      | _, _ => chunk :: next :: more

/-- The piece that the inside of brackets stands for. -/
def classPiece (inside : List Char) : GlobPiece :=
  let chunks :=
    if inside.contains '-' then
      joinEmptyRanges (closeChunks (chunksFrom [] (if inside.head? == some '!' then 2 else 1) inside))
    else [inside]
  match chunks with
  | [[]] => .never
  | [['!']] => .any
  | ['!'] :: next :: rest => .oneOf true (('-' :: next) :: rest)
  | ('!' :: chunk) :: rest => .oneOf true (chunk :: rest)
  | _ => .oneOf false chunks

/-- The pieces of a pattern. -/
def pieces : List Char → List GlobPiece
  | [] => []
  | c :: rest =>
    if c = '*' then .star :: pieces rest
    else if c = '?' then .any :: pieces rest
    else if c = '[' then
      match classLength? rest with
      | some n => classPiece (rest.take n) :: pieces (rest.drop (n + 1))
      | none => .literal '[' :: pieces rest
    else .literal c :: pieces rest
termination_by cs => cs.length
decreasing_by all_goals simp only [List.length_drop, List.length_cons]; omega

/-- Whether a character is in the range between two neighbouring chunks. -/
def inRange (c : Char) : List (List Char) → Bool
  | chunk :: next :: rest =>
    (match chunk.getLast?, next.head? with
      | some low, some high => low ≤ c && c ≤ high
      | _, _ => false) || inRange c (next :: rest)
  | _ => false

/-- Whether a piece that stands for one character stands for this one. -/
def admits (c : Char) : GlobPiece → Bool
  | .star => false
  | .any => true
  | .never => false
  | .literal d => c == d
  | .oneOf negated chunks => (chunks.any (·.contains c) || inRange c chunks) != negated

/-- All ends of a list, the list itself and the empty one among them. -/
def suffixes : List Char → List (List Char)
  | [] => [[]]
  | c :: rest => (c :: rest) :: suffixes rest

/-- Whether the pieces stand for all the characters. -/
def matchesPieces : List GlobPiece → List Char → Bool
  | [], cs => cs.isEmpty
  | .star :: rest, cs => (suffixes cs).any (matchesPieces rest)
  | piece :: rest, cs =>
    match cs with
    | [] => false
    | c :: more => admits c piece && matchesPieces rest more

end Glob

/-- Whether the text is one that the pattern stands for. -/
def globMatches (s pattern : String) : Bool := Glob.matchesPieces (Glob.pieces pattern.toList) s.toList

end GoIdiom.Text
