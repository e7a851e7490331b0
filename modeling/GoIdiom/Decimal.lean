/-!
# Doubles and decimals

A finite double is a whole number times a power of two. Comparisons with whole numbers and the
choice of decimal digits are made on that exact value.
-/

namespace GoIdiom.Decimal

/-- The value of a double. The finite value is `mantissa · 2 ^ exponent`, and the gap below it is half
the gap above it exactly at a `boundary`. -/
inductive Binary where
  | finite (negative : Bool) (mantissa : Nat) (exponent : Int) (boundary : Bool)
  | infinite (negative : Bool)
  | undefined
deriving DecidableEq, Repr

/-- A power of a base, the exponent being taken for zero if it is negative. -/
def powerUp (base : Nat) (exponent : Int) : Nat := Nat.pow base exponent.toNat

namespace Binary

/-- Reads sign, exponent and fraction of the sixty-four bits. -/
def ofBits (bits : Nat) : Binary :=
  let negative := bits / Nat.pow 2 63 % 2 == 1
  let power : Nat := bits / Nat.pow 2 52 % Nat.pow 2 11
  let fraction : Nat := bits % Nat.pow 2 52
  if power = 2047 then if fraction = 0 then .infinite negative else .undefined
  else if power = 0 then .finite negative fraction (-1074) false
  else .finite negative (fraction + Nat.pow 2 52) ((power : Int) - 1075) (fraction == 0 && power > 1)

/-- The value of a float. -/
def ofFloat (x : Float) : Binary := ofBits x.toBits.toNat

/-- How a whole number compares with the value, unless the value is undefined. -/
def compareWith (n : Int) : Binary → Option Ordering
  | .undefined => none
  | .infinite negative => some (if negative then .gt else .lt)
  | .finite negative mantissa exponent _ =>
    let m : Int := if negative then -(mantissa : Int) else mantissa
    if exponent ≥ 0 then some (compare n (m * powerUp 2 exponent))
    else some (compare (n * powerUp 2 (-exponent)) m)

end Binary

/-!
## The fewest digits that read back

The reals that round to a double form an interval around it, whose ends belong to it when the
mantissa is even. A decimal grid has a point in the interval only if one of the value's two
neighbours on the grid is in it, so the grids are tried from coarse to fine.
-/

/-- A positive decimal: `digits · 10 ^ exponent`. -/
structure Digits where
  digits : Nat
  exponent : Int
deriving DecidableEq, Repr

/-- A value `num / den` with the interval of its neighbours, all over the same denominator. -/
structure Interval where
  low : Nat
  value : Nat
  high : Nat
  den : Nat
  closed : Bool
deriving DecidableEq, Repr

namespace Interval

/-- The interval of the reals that round to `mantissa · 2 ^ exponent`, in quarters of the last place. -/
def ofFinite (mantissa : Nat) (exponent : Int) (boundary : Bool) : Interval :=
  let scale := powerUp 2 exponent
  { low := (4 * mantissa - if boundary then 1 else 2) * scale
    value := 4 * mantissa * scale
    high := (4 * mantissa + 2) * scale
    den := 4 * powerUp 2 (-exponent)
    closed := mantissa % 2 == 0 }

/-- Whether `n · unit` lies in the interval, where the unit is `unitNum / unitDen`. -/
def holds (i : Interval) (n unitNum unitDen : Nat) : Bool :=
  let x := n * unitNum * i.den
  if i.closed then i.low * unitDen ≤ x && x ≤ i.high * unitDen
  else i.low * unitDen < x && x < i.high * unitDen

/-- The nearer neighbour of the value on a grid among those that lie in the interval; of two equally
near ones the even one. -/
def onGrid? (i : Interval) (power : Int) : Option Nat :=
  let unitNum := powerUp 10 power
  let unitDen := powerUp 10 (-power)
  let below := i.value * unitDen / (unitNum * i.den)
  let rest := i.value * unitDen - below * unitNum * i.den
  let downIn := i.holds below unitNum unitDen && below != 0
  let upIn := i.holds (below + 1) unitNum unitDen
  if downIn && upIn then
    if 2 * rest < unitNum * i.den || (2 * rest == unitNum * i.den && below % 2 == 0) then some below
    else some (below + 1)
  else if downIn then some below
  else if upIn then some (below + 1)
  else none

/-- Tries the grids from a power of ten down, at most `fuel` of them. -/
def coarsest (i : Interval) : Nat → Int → Digits
  | 0, power => ⟨0, power⟩
  | fuel + 1, power =>
    match i.onGrid? power with
    | some n => ⟨n, power⟩
    | none => coarsest i fuel (power - 1)

end Interval

/-- The number of decimal digits of a natural number, zero having one. -/
def digitCount (n : Nat) : Nat := (Nat.toDigits 10 n).length

/-- The fewest digits that read back to a positive finite double. Seventeen always suffice. -/
def shortest (mantissa : Nat) (exponent : Int) (boundary : Bool) : Digits :=
  let i := Interval.ofFinite mantissa exponent boundary
  let top : Int := if i.value ≥ i.den then digitCount (i.value / i.den)
    else 1 - (digitCount (i.den / i.value) : Int)
  i.coarsest 20 (top + 1)

/-!
## The nearest double

A decimal is read as an exact fraction and rounded once, on the grid of doubles around it: at most
fifty-three binary digits, and none below the smallest double. A tie goes to the even neighbour.
-/

/-- The whole number nearest to `num / den`; of two equally near ones the even one. -/
def roundDiv (num den : Nat) : Nat :=
  let below := num / den
  let rest := 2 * (num % den)
  if rest < den || (rest == den && below % 2 == 0) then below else below + 1

/-- The exponent of the grid of doubles around the positive fraction `num / den`. -/
def gridExponent (num den : Nat) : Int :=
  let low : Int := max ((Nat.log2 num : Int) - Nat.log2 den - 53) (-1074)
  if num * powerUp 2 (-low) / (den * powerUp 2 low) < Nat.pow 2 53 then low else low + 1

/-- The bits of positive infinity. -/
def infinityBits : Nat := 2047 * Nat.pow 2 52

/-- The bits of the double nearest to a positive fraction. The bits of positive doubles count them in
increasing order, so a carry out of the mantissa goes to the exponent by itself. -/
def nearestBits (num den : Nat) : Nat :=
  let grid := gridExponent num den
  let mantissa := roundDiv (num * powerUp 2 (-grid)) (den * powerUp 2 grid)
  min ((grid + 1074).toNat * Nat.pow 2 52 + mantissa) infinityBits

/-- The double nearest to `mantissa · 10 ^ exponent`, which is infinite beyond the largest one. -/
def nearest (mantissa : Nat) (exponent : Int) : Float :=
  let digits : Int := digitCount mantissa
  let bits :=
    if mantissa = 0 || digits + exponent < -330 then 0
    else if digits + exponent > 310 then infinityBits
    else nearestBits (mantissa * powerUp 10 exponent) (powerUp 10 (-exponent))
  Float.ofBits (UInt64.ofNat bits)

/-!
## How a double is written

A double is written with the fewest digits that read back: positionally with at least one place
while its decimal point stands between four places before the first digit and sixteen after it,
and with a signed exponent of at least two digits elsewhere.
-/

/-- The texts of the values that have no digits. -/
structure SpecialTexts where
  infinite : String
  undefined : String
deriving DecidableEq, Repr

/-- The exponent mark with a sign and at least two digits. -/
def exponentText (e : Int) : String :=
  let digits := toString e.natAbs
  (if e < 0 then "e-" else "e+") ++ (if digits.length < 2 then "0" ++ digits else digits)

/-- Lays out digits whose decimal point stands after the first `point` of them. -/
def layout (digits : List Char) (point : Int) : String :=
  if -4 < point && point ≤ 16 then
    if point ≤ 0 then "0." ++ String.ofList (List.replicate (-point).toNat '0' ++ digits)
    else if (digits.length : Int) ≤ point then
      String.ofList (digits ++ List.replicate (point.toNat - digits.length) '0') ++ ".0"
    else String.ofList (digits.take point.toNat) ++ "." ++ String.ofList (digits.drop point.toNat)
  else
    let fraction := digits.drop 1
    String.ofList (digits.take 1) ++ (if fraction.isEmpty then "" else "." ++ String.ofList fraction) ++
      exponentText (point - 1)

/-- Drops trailing zeros. -/
def dropZeros (digits : List Char) : List Char := (digits.reverse.dropWhile (· == '0')).reverse

/-- The text of a double. -/
def text (special : SpecialTexts) (x : Float) : String :=
  match Binary.ofFloat x with
  | .undefined => special.undefined
  | .infinite negative => if negative then "-" ++ special.infinite else special.infinite
  | .finite negative mantissa exponent boundary =>
    let body :=
      if mantissa = 0 then "0.0"
      else
        let d := shortest mantissa exponent boundary
        let digits := Nat.toDigits 10 d.digits
        layout (dropZeros digits) (digits.length + d.exponent)
    if negative then "-" ++ body else body

end GoIdiom.Decimal
