import GoIdiom.Text.Search
import GoIdiom.Decimal
import GoIdiom.Text.Quoted

/-!
# Documents

A document is the value of a configuration file or a rule catalog before its shape is checked:
scalars, lists and tables in any nesting. The keys of a table keep their order and do not repeat. A
table that a configuration file writes on one line differs from other tables by its type name only.
-/

/-!
## Dates and times

Days of the calendar from year one to year 9999, times of day down to the microsecond, and both together,
with or without a distance from universal time.
-/

namespace GoIdiom

/-- Whether a year has a leap day. -/
def isLeapYear (year : Nat) : Bool := year % 4 == 0 && (year % 100 != 0 || year % 400 == 0)

/-- The number of days of a month. -/
def daysInMonth (year month : Nat) : Nat :=
  if month = 2 then if isLeapYear year then 29 else 28
  else if [4, 6, 9, 11].contains month then 30
  else 31

/-- A day of the calendar. -/
structure Date where
  year : Nat
  month : Nat
  day : Nat
  year_mem : 1 ≤ year ∧ year ≤ 9999
  month_mem : 1 ≤ month ∧ month ≤ 12
  day_mem : 1 ≤ day ∧ day ≤ daysInMonth year month
deriving DecidableEq, Repr

/-- The day with the given numbers, if the calendar has it. -/
def Date.of? (year month day : Nat) : Option Date :=
  if h : (1 ≤ year ∧ year ≤ 9999) ∧ (1 ≤ month ∧ month ≤ 12) ∧
      1 ≤ day ∧ day ≤ daysInMonth year month then
    some ⟨year, month, day, h.1, h.2.1, h.2.2⟩
  else none

/-- A time of day. -/
structure Clock where
  hour : Nat
  minute : Nat
  second : Nat
  micro : Nat
  hour_lt : hour < 24
  minute_lt : minute < 60
  second_lt : second < 60
  micro_lt : micro < 1000000
deriving DecidableEq, Repr

/-- The time with the given numbers, if a day has it. -/
def Clock.of? (hour minute second micro : Nat) : Option Clock :=
  if h : hour < 24 ∧ minute < 60 ∧ second < 60 ∧ micro < 1000000 then
    some ⟨hour, minute, second, micro, h.1, h.2.1, h.2.2.1, h.2.2.2⟩
  else none

/-- A date, a time of day, or both. The offset is in minutes east of universal time. -/
inductive Moment where
  | date (date : Date)
  | time (clock : Clock)
  | dateTime (date : Date) (clock : Clock) (offset : Option Int)
deriving DecidableEq, Repr

/-- A number with at least the given count of digits. -/
def zeroPadded (width n : Nat) : String :=
  let digits := toString n
  String.ofList (List.replicate (width - digits.length) '0') ++ digits

/-- The text of a day. -/
def Date.text (d : Date) : String :=
  zeroPadded 4 d.year ++ "-" ++ zeroPadded 2 d.month ++ "-" ++ zeroPadded 2 d.day

/-- The text of a time; microseconds are written unless there are none. -/
def Clock.text (c : Clock) : String :=
  zeroPadded 2 c.hour ++ ":" ++ zeroPadded 2 c.minute ++ ":" ++ zeroPadded 2 c.second ++
    if c.micro = 0 then "" else "." ++ zeroPadded 6 c.micro

/-- The text of an offset. -/
def offsetText (minutes : Int) : String :=
  (if minutes < 0 then "-" else "+") ++ zeroPadded 2 (minutes.natAbs / 60) ++ ":" ++
    zeroPadded 2 (minutes.natAbs % 60)

namespace Moment

/-- The name of the kind of moment, as messages give it. -/
def typeName : Moment → String
  | date _ => "date"
  | time _ => "time"
  | dateTime _ _ _ => "datetime"

/-- The text of a moment. -/
def text : Moment → String
  | date d => d.text
  | time c => c.text
  | dateTime d c offset => d.text ++ " " ++ c.text ++ offset.elim "" offsetText

end Moment

/-! ## Values -/

/-- A value of unchecked shape. -/
inductive Document where
  | null
  | bool (value : Bool)
  | int (value : Int)
  | float (value : Float)
  | text (value : String)
  | moment (value : Moment)
  | list (items : List Document)
  | table (entries : List (String × Document))
  | inlineTable (entries : List (String × Document))
deriving Inhabited

/-- The entries of a table. -/
abbrev Table := List (String × Document)

namespace Document

/-- The name of the kind of value, as messages give it. -/
def typeName : Document → String
  | null => "NoneType"
  | bool _ => "bool"
  | int _ => "int"
  | float _ => "float"
  | text _ => "str"
  | moment value => value.typeName
  | list _ => "list"
  | table _ => "dict"
  | inlineTable _ => "DynamicInlineTableDict"

/-- The full type name, which messages about operators give. -/
def qualifiedName : Document → String
  | moment value => "datetime." ++ value.typeName
  | d => d.typeName

/-- The entries of a table of either kind. -/
def entries? : Document → Option Table
  | table entries | inlineTable entries => some entries
  | _ => none

/-- How messages write doubles without digits. -/
def messageSpecials : Decimal.SpecialTexts := ⟨"inf", "nan"⟩

mutual

/-- The value as messages show it: texts are quoted. -/
def shown : Document → String
  | null => "None"
  | bool value => if value then "True" else "False"
  | int value => toString value
  | float value => Decimal.text messageSpecials value
  | text value => Text.quoted value
  | moment value => value.text
  | list items => "[" ++ Text.joinWith ", " (shownList items) ++ "]"
  | table entries | inlineTable entries =>
    "\x7b" ++ Text.joinWith ", " (shownTable entries) ++ "\x7d"

/-- The items of a list as messages show them. -/
def shownList : List Document → List String
  | [] => []
  | item :: rest => shown item :: shownList rest

/-- The entries of a table as messages show them. -/
def shownTable : List (String × Document) → List String
  | [] => []
  | (key, value) :: rest => (Text.quoted key ++ ": " ++ shown value) :: shownTable rest

end

/-- The value inside running text: a text stands without quotes. -/
def plain : Document → String
  | text value => value
  | d => shown d

/-- The number of digits up to which whole numbers are written out. -/
def digitLimit : Nat := 4300

mutual

/-- Whether the value can be shown: every whole number in it has few enough digits. -/
def isShowable : Document → Bool
  | int value => value.natAbs < 10 ^ digitLimit
  | list items => listShowable items
  | table entries | inlineTable entries => tableShowable entries
  | _ => true

/-- Whether the items of a list can be shown. -/
def listShowable : List Document → Bool
  | [] => true
  | item :: rest => isShowable item && listShowable rest

/-- Whether the entries of a table can be shown. -/
def tableShowable : List (String × Document) → Bool
  | [] => true
  | (_, value) :: rest => isShowable value && tableShowable rest

end

/-- Whether the value counts as set: zeros and empty values do not. -/
def isSet : Document → Bool
  | null => false
  | bool value => value
  | int value => value != 0
  | float value => value != 0
  | text value => value != ""
  | moment _ => true
  | list items => !items.isEmpty
  | table entries | inlineTable entries => !entries.isEmpty

/-- How a whole number compares with a numeric value; a truth value counts as one or zero. The outer
option is empty for values that are not numeric, the inner one for an undefined double. -/
def compareWith (n : Int) : Document → Option (Option Ordering)
  | bool value => some (some (compare n (if value then 1 else 0)))
  | int value => some (some (compare n value))
  | float value => some ((Decimal.Binary.ofFloat value).compareWith n)
  | _ => none

/-- Whether the value is numerically equal to a whole number. -/
def equalsInt (d : Document) (n : Int) : Bool := d.compareWith n == some (some .eq)

/-- The texts of a list that holds nothing else. -/
def texts? : List Document → Option (List String)
  | [] => some []
  | text value :: rest => (texts? rest).map (value :: ·)
  | _ :: _ => none

end Document

end GoIdiom
