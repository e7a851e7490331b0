/-!
# Looking for one text in another

Tests and cuts over the characters of a text: what it begins with, ends with or contains, and
where a separator divides it.
-/

namespace GoIdiom.Text

/-- Whether the first text begins with the second. -/
def startsWith (s head : String) : Bool := head.toList.isPrefixOf s.toList

/-- Whether the first text begins with one of the others. -/
def startsWithAny (s : String) (heads : List String) : Bool := heads.any (startsWith s)

/-- Whether the first text ends with the second. -/
def endsWith (s tail : String) : Bool := tail.toList.isSuffixOf s.toList

/-- Whether the first text ends with one of the others. -/
def endsWithAny (s : String) (tails : List String) : Bool := tails.any (endsWith s)

/-- Whether the needle stands somewhere in the characters. -/
def hasRun (needle : List Char) : List Char → Bool
  | [] => needle.isEmpty
  | c :: rest => needle.isPrefixOf (c :: rest) || hasRun needle rest

/-- Whether the second text stands somewhere in the first. -/
def contains (s needle : String) : Bool := hasRun needle.toList s.toList

/-- The pieces between occurrences of a separator, one more than there are occurrences. -/
def splitChars (separator : Char) : List Char → List (List Char)
  | [] => [[]]
  | c :: rest =>
    if c = separator then [] :: splitChars separator rest
    else match splitChars separator rest with
      | [] => [[c]]
      | piece :: pieces => (c :: piece) :: pieces

/-- The pieces between occurrences of a separator of several characters. Occurrences do not overlap, and
`skip` characters of the last one are still to be passed over. -/
def splitRunFrom (separator : List Char) : Nat → List Char → List (List Char)
  | _, [] => [[]]
  | skip + 1, _ :: rest => splitRunFrom separator skip rest
  | 0, c :: rest =>
    if separator.isPrefixOf (c :: rest) then [] :: splitRunFrom separator (separator.length - 1) rest
    else match splitRunFrom separator 0 rest with
      | [] => [[c]]
      | piece :: pieces => (c :: piece) :: pieces

/-- The pieces between occurrences of a separator of several characters. -/
def splitRun (separator cs : List Char) : List (List Char) := splitRunFrom separator 0 cs

/-- What stands before and after an occurrence of a separator, the first one having the number one. -/
def cutNth? (separator : List Char) (n : Nat) (cs : List Char) : Option (List Char × List Char) :=
  let pieces := splitRun separator cs
  if n < pieces.length then
    some (separator.intercalate (pieces.take n), separator.intercalate (pieces.drop n))
  else none

/-- The pieces of a text between occurrences of a separator. -/
def splitOn (s : String) (separator : Char) : List String :=
  (splitChars separator s.toList).map String.ofList

/-- What stands before and after the first occurrence of a separator. -/
def cutFirst (s : String) (separator : Char) : Option (String × String) :=
  match s.toList.span (· != separator) with
  | (_, []) => none
  | (before, _ :: after) => some (String.ofList before, String.ofList after)

/-- What stands before and after the last occurrence of a separator. -/
def cutLast (s : String) (separator : Char) : Option (String × String) :=
  match s.toList.reverse.span (· != separator) with
  | (_, []) => none
  | (after, _ :: before) => some (String.ofList before.reverse, String.ofList after.reverse)

/-- The text without its first characters. -/
def dropChars (s : String) (count : Nat) : String := String.ofList (s.toList.drop count)

/-- The text without its last characters. -/
def dropLastChars (s : String) (count : Nat) : String :=
  String.ofList (s.toList.take (s.length - count))

/-- The text without its first and its last character. -/
def inner (s : String) : String := dropLastChars (dropChars s 1) 1

/-- The texts joined with a separator between neighbours. -/
def joinWith (separator : String) (parts : List String) : String := String.intercalate separator parts

/-!
## Comparison without regard to case

Names are compared with words of plain Latin letters. Besides the two cases of each letter, the
dotted and dotless i, the long s and the sign for kelvins count as the letters they are forms of.
-/

/-- The plain lower-case letter that a character is a form of, or the character itself. -/
def foldChar (c : Char) : Char :=
  if 'A' ≤ c && c ≤ 'Z' then Char.ofNat (c.toNat + 32)
  else if c = 'İ' || c = 'ı' then 'i'
  else if c = 'ſ' then 's'
  else if c = '\u212A' then 'k'
  else c

/-- The text with every character folded. -/
def fold (s : String) : String := String.ofList (s.toList.map foldChar)

end GoIdiom.Text
