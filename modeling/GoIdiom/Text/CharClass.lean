/-!
# Classes of characters as tables of code points

A class is a list of arithmetic progressions of code points in increasing order, so a look-up ends
at the first progression that begins beyond the code point sought.
-/

namespace GoIdiom.Text

/-- The code points `first, first + step, …, last`. -/
structure CodeRange where
  first : Nat
  last : Nat
  step : Nat
deriving DecidableEq, Repr

namespace CodeRange

/-- Membership in one progression. -/
def contains (r : CodeRange) (code : Nat) : Bool :=
  r.first ≤ code && code ≤ r.last && (code - r.first) % r.step == 0

/-- Membership in a class given in increasing order. -/
def covers : List CodeRange → Nat → Bool
  | [], _ => false
  | r :: rest, code => if code < r.first then false else r.contains code || covers rest code

end CodeRange

/-- A progression of code points that are all mapped by adding one distance. -/
structure CodeShift where
  range : CodeRange
  distance : Int
deriving DecidableEq, Repr

namespace CodeShift

/-- The image of a character, which is the character itself outside the table. -/
def apply : List CodeShift → Char → Char
  | [], c => c
  | s :: rest, c =>
    if c.toNat < s.range.first then c
    else if s.range.contains c.toNat then Char.ofNat (c.toNat + s.distance).toNat
    else apply rest c

end CodeShift

/-!
## Blank characters and trimming

White space of Unicode 14.0, the information separators U+001C to U+001F among it.
-/

/-- White space of every kind. -/
def blankRanges : List CodeRange :=
  [⟨0x9, 0xD, 1⟩, ⟨0x1C, 0x20, 1⟩, ⟨0x85, 0x85, 1⟩, ⟨0xA0, 0xA0, 1⟩, ⟨0x1680, 0x1680, 1⟩,
   ⟨0x2000, 0x200A, 1⟩, ⟨0x2028, 0x2029, 1⟩, ⟨0x202F, 0x202F, 1⟩, ⟨0x205F, 0x205F, 1⟩,
   ⟨0x3000, 0x3000, 1⟩]

/-- White space of any kind. -/
def isBlank (c : Char) : Bool := CodeRange.covers blankRanges c.toNat

/-- Drops leading characters of the given class. -/
def trimLeftChars (p : Char → Bool) (cs : List Char) : List Char := cs.dropWhile p

/-- Drops trailing characters of the given class. -/
def trimRightChars (p : Char → Bool) (cs : List Char) : List Char := (cs.reverse.dropWhile p).reverse

/-- Drops characters of the given class from both ends. -/
def stripChars (p : Char → Bool) (cs : List Char) : List Char := trimRightChars p (trimLeftChars p cs)

/-- Drops white space from both ends. -/
def trim (s : String) : String := String.ofList (stripChars isBlank s.toList)

end GoIdiom.Text
