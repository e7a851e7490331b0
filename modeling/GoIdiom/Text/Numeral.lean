import GoIdiom.Decimal
import GoIdiom.Text.CharClass
import GoIdiom.Text.Search
import GoIdiom.Text.Word

/-!
# Numerals

Texts that stand for numbers: blanks may stand around them, a sign before them, and single underscores
between digits. A decimal digit of any script counts as the digit of its value.
-/

namespace GoIdiom.Text

/-- The value of a decimal digit. The ten digits of a script stand in a row, from zero on. -/
def decimalValue? (c : Char) : Option Nat :=
  (decimalRanges.find? (·.contains c.toNat)).map fun r => (c.toNat - r.first) % 10

/-- A character as numerals are read: blanks and digits of other scripts become those of ASCII. -/
def plainChar (c : Char) : Char :=
  if c.toNat < 0x80 then c
  else if isBlank c then ' '
  else
    match decimalValue? c with
    | some d => Nat.digitChar d
    | none => c

/-- Blanks that may stand around a numeral, once its characters are plain. -/
def isPlainBlank (c : Char) : Bool := c == ' ' || ('\t' ≤ c && c ≤ '\r')

/-- The plain characters of a numeral without the blanks around it. -/
def plainChars (cs : List Char) : List Char := stripChars isPlainBlank (cs.map plainChar)

/-- Takes a sign off the head, and says whether it is a minus. -/
def takeSign : List Char → Bool × List Char
  | '-' :: rest => (true, rest)
  | '+' :: rest => (false, rest)
  | rest => (false, rest)

/-- The value of a digit in a base up to sixteen. -/
def digitValue? (c : Char) : Option Nat :=
  if c.isDigit then some (c.toNat - '0'.toNat)
  else if 'a' ≤ c && c ≤ 'f' then some (c.toNat - 'a'.toNat + 10)
  else if 'A' ≤ c && c ≤ 'F' then some (c.toNat - 'A'.toNat + 10)
  else none

/-- The number that digits in a base up to sixteen stand for, none for no digits. -/
def wholeIn? (base : Nat) (digits : List Char) : Option Nat :=
  if digits.isEmpty then none
  else digits.foldl (fun n c => do
    let d ← digitValue? c
    if d < base then some ((← n) * base + d) else none) (some 0)

/-- The number that decimal digits stand for, zero for no digits. -/
def decimalNumber (digits : List Char) : Nat :=
  digits.foldl (fun n c => n * 10 + (c.toNat - '0'.toNat)) 0

/-- Decimal numbers with more digits are not read. -/
def maxDigits : Nat := 4300

/-- The number that decimal digits stand for, unless there are none or too many. -/
def decimal? (digits : List Char) : Option Nat :=
  if digits.length ≤ maxDigits then wholeIn? 10 digits else none

/-- A natural number with the given sign. -/
def withSign (negative : Bool) (n : Nat) : Int := if negative then -(n : Int) else n

/-- The whole number that a decimal numeral stands for. -/
def integer? (cs : List Char) : Option Int :=
  let (negative, body) := takeSign (plainChars cs)
  let groups := splitChars '_' body
  if groups.all fun g => !g.isEmpty then (decimal? groups.flatten).map (withSign negative) else none

/-- A whole number without a sign, whose base its first two characters tell. A decimal one does not begin
with zero, unless it is zero. -/
def natural? : List Char → Option Nat
  | '0' :: c :: rest =>
    if c = 'x' || c = 'X' then wholeIn? 16 rest
    else if c = 'o' || c = 'O' then wholeIn? 8 rest
    else if c = 'b' || c = 'B' then wholeIn? 2 rest
    else if c = '0' && rest.all (· == '0') then decimal? (c :: c :: rest)
    else none
  | digits => decimal? digits

/-- The whole number that a numeral in its own base, without underscores, stands for. -/
def basedInteger? (cs : List Char) : Option Int :=
  let (negative, body) := takeSign (plainChars cs)
  (natural? body).map (withSign negative)

/-- Whether every underscore stands between two digits; the character before is given. -/
def spacesDigits (before : Char) : List Char → Bool
  | [] => before != '_'
  | c :: rest =>
    (if c = '_' then before.isDigit else before != '_' || c.isDigit) && spacesDigits c rest

/-- The power of ten that an exponent with its mark stands for; without one it is zero. -/
def exponent? : List Char → Option Int
  | [] => some 0
  | mark :: rest =>
    let (negative, digits) := takeSign rest
    if (mark == 'e' || mark == 'E') && !digits.isEmpty && digits.all Char.isDigit then
      some (withSign negative (decimalNumber digits))
    else none

/-- A double in digits, with or without a point and an exponent. One digit has to stand before or after
the point. -/
def scientific? (cs : List Char) : Option Float :=
  let whole := cs.takeWhile Char.isDigit
  let rest := cs.dropWhile Char.isDigit
  let (fraction, tail) := match rest with
    | '.' :: after => (after.takeWhile Char.isDigit, after.dropWhile Char.isDigit)
    | _ => ([], rest)
  if whole.isEmpty && fraction.isEmpty then none
  else (exponent? tail).map fun e => Decimal.nearest (decimalNumber (whole ++ fraction)) (e - fraction.length)

/-- The double that a numeral stands for; infinity and the undefined double have words of their own. -/
def double? (cs : List Char) : Option Float :=
  let plain := plainChars cs
  if !spacesDigits ' ' plain then none
  else
    let (negative, body) := takeSign (plain.filter (· != '_'))
    let word := String.ofList (body.map Char.toLower)
    let magnitude :=
      if word == "inf" || word == "infinity" then some (1.0 / 0.0)
      else if word == "nan" then some (0.0 / 0.0)
      else scientific? body
    magnitude.map fun x => if negative then -x else x

end GoIdiom.Text
