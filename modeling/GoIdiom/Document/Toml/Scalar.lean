import GoIdiom.Document
import GoIdiom.Document.Toml.Fault
import GoIdiom.Text.Numeral

/-!
# Numbers, dates and times

A date has its numbers at fixed places, whatever stands between them; a value of ten characters is a day
and any other one a day with a time. A time of day needs its colons, and what follows it is passed over.
-/

namespace GoIdiom.Document.Toml

/-- The characters from one place up to another. -/
def slice (cs : List Char) (first last : Nat) : List Char := (cs.take last).drop first

/-- The natural number between two places. -/
def numberAt? (cs : List Char) (first last : Nat) : Option Nat :=
  match Text.integer? (slice cs first last) with
  | some (.ofNat n) => some n
  | _ => none

/-- The microseconds that the digits after a point stand for. Beyond six digits doubles are multiplied, so
that nines enough make a full second, and a number beyond all doubles cannot be read. -/
def microseconds? (digits : List Char) : Read (Option Int) :=
  match Text.integer? digits with
  | none => .ok none
  | some n =>
    if digits.length ≤ 6 then .ok (some (n * Nat.pow 10 (6 - digits.length)))
    else
      let whole := Decimal.nearest n.natAbs 0
      if whole.isInf then .error .beyondRange
      else
        let micro := (whole * Decimal.nearest 1 (6 - (digits.length : Int))).toUInt64.toNat
        .ok (some (Text.withSign (n < 0) micro))

/-- The minutes that a zone is ahead of universal time. -/
def zone? (cs : List Char) : Option Int :=
  if cs == ['Z'] then some 0
  else do
    let hours ← Text.integer? (slice cs 1 3)
    let minutes ← Text.integer? (slice cs 4 6)
    pure ((if cs.head? == some '-' then -1 else 1) * (60 * hours + minutes))

/-- The digits of a second's fraction and the zone after them, if there is one. -/
def fractionAndZone (cs : List Char) : List Char × Option (List Char) :=
  let sign : Char := if cs.contains '+' then '+' else '-'
  if cs.getLast?.any fun c => c == 'Z' || c == 'z' then (cs.dropLast, some ['Z'])
  else if cs.contains sign then
    (cs.takeWhile (· != sign), some (cs.dropWhile (· != sign)))
  else (cs, none)

/-- The microseconds and the offset that follow a date with a time. If one of them cannot be read, there is
neither. -/
def dateTail (cs : List Char) : Read (Int × Option Int) :=
  match cs with
  | [] => .ok (0, none)
  | '.' :: rest => do
    let (digits, zone) := fractionAndZone rest
    match zone, zone.bind zone? with
    | some _, none => pure (0, none)
    | _, offset =>
      match ← microseconds? digits with
      | some micro => pure (micro, offset)
      | none => pure (0, none)
  | _ => .ok (0, zone? cs)

/-- The day at the head. -/
def day? (cs : List Char) : Option Date := do
  Date.of? (← numberAt? cs 0 4) (← numberAt? cs 5 7) (← numberAt? cs 8 10)

/-- The date, with or without a time, that a value stands for. It has a hyphen. -/
def date? (cs : List Char) : Read (Option Moment) := do
  let (micro, offset) ← dateTail (cs.drop 19)
  if !cs.tail.contains '-' then pure none
  else if cs.length = 10 then pure ((day? cs).map .date)
  else
    pure do
      let clock ← Clock.of? (← numberAt? cs 11 13) (← numberAt? cs 14 16) (← numberAt? cs 17 19)
        (← if micro < 0 then none else some micro.toNat)
      pure (.dateTime (← day? cs) clock offset)

/-- The numbers of the time of day at the head, if one begins there. Three to six digits after a point are
taken for microseconds as they stand. -/
def timeNumbers? : List Char → Option (Nat × Nat × Nat × Nat)
  | a :: b :: ':' :: c :: d :: ':' :: e :: f :: rest =>
    if [a, b, c, d, e, f].all Char.isDigit then
      let digits := match rest with
        | '.' :: after => (after.takeWhile Char.isDigit).take 6
        | _ => []
      let micro := if digits.length < 3 then 0 else Text.decimalNumber digits
      some (Text.decimalNumber [a, b], Text.decimalNumber [c, d], Text.decimalNumber [e, f], micro)
    else none
  | _ => none

/-- Whether a number is written as strictly as values have to be: without leading zeros, except in front of
a point or the mark of a base, and with underscores between characters only. -/
def isStrict (cs : List Char) : Bool :=
  let body := Text.stripChars Text.isBlank cs
  let leadingZero (cs : List Char) (admitted : List Char) : Bool :=
    match cs with
    | '0' :: second :: _ => !admitted.contains second
    | _ => false
  if body.isEmpty || body.head? == some '_' || body.getLast? == some '_' then false
  else if Text.hasRun ['_', '.'] body || Text.hasRun ['.', '_'] body then false
  else if body.length = 1 then true
  else if leadingZero body ['.', 'o', 'b', 'x'] then false
  else
    match body with
    | c :: rest =>
      if c = '+' || c = '-' then !leadingZero rest ['.'] && !Text.hasRun ['_', '_'] rest
      else !Text.hasRun ['_', '_'] body
    | [] => false

/-- The number without its sign that characters stand for. A double begins with a digit, and a point does
not end it. -/
def magnitude? (cs : List Char) : Option Document :=
  let isDouble := cs.contains '.' || (!cs.contains 'x' && (cs.contains 'e' || cs.contains 'E'))
  let word := String.ofList (cs.map Char.toLower)
  if isDouble then
    if (cs.dropWhile (· != '.')) == ['.'] || !cs.head?.any Char.isDigit then none
    else (Text.double? cs).map .float
  else if word == "inf" || word == "nan" then (Text.double? cs).map .float
  else (Text.basedInteger? cs).map .int

/-- A number taken away from zero, so that no zero is negative. -/
def negated : Document → Document
  | .int n => .int (-n)
  | .float x => .float (0 - x)
  | d => d

/-- The number that a value stands for, underscores left out. -/
def number? (cs : List Char) : Option Document :=
  let body (cs : List Char) : List Char := cs.filter (· != '_')
  match cs with
  | '-' :: rest => (magnitude? (body rest)).map negated
  | '+' :: rest => magnitude? (body rest)
  | rest => magnitude? (body rest)

/-- The time, date or number that a value stands for. -/
def readScalar (strict : Bool) (cs : List Char) : Read Document :=
  match timeNumbers? cs with
  | some (hour, minute, second, micro) =>
    match Clock.of? hour minute second micro with
    | some clock => .ok (.moment (.time clock))
    | none => .error .malformed
  | none => do
    match ← date? cs with
    | some date => pure (.moment date)
    | none =>
      match if strict then number? cs else none with
      | some value => pure value
      | none => .error .malformed

end GoIdiom.Document.Toml
