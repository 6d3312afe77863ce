import Easel.Number.Parts

/-!
# The shortest decimal text of a number

A number is written with the fewest decimal digits that read back as it, and among those the
digits nearest to it. Digits are written out in full: there is no exponent, and a whole number
has no point.

The reals that read back as a double form an interval around it. For one digit, two, and so on
to seventeen, the two neighbours of the double on the grid of decimals with that many digits are
tried against the interval, all in whole-number arithmetic.
-/

namespace Easel.Number

/-- The decimal number `digits * 10 ^ exponent`. -/
structure Decimal where
  digits : Nat
  exponent : Int
deriving DecidableEq, Repr

/-- The same decimal without a last zero digit, if it has one. -/
def Decimal.reduce (d : Decimal) : Decimal :=
  if d.digits % 10 = 0 then ⟨d.digits / 10, d.exponent + 1⟩ else d

/-- A positive double with the interval of reals that read back as it, all over one denominator.
The ends belong to the interval when the mantissa is even, since a half is read as the even
neighbour. -/
structure Interval where
  low : Nat
  value : Nat
  high : Nat
  denominator : Nat
  closed : Bool
deriving Repr

/-- The interval of `mantissa * 2 ^ exponent`. It reaches half way to either neighbour; below the
least mantissa of a binade the neighbour is only half as far. -/
def interval (mantissa : Nat) (exponent : Int) : Interval :=
  let scale := (exponent - 2).toNat
  let below := if mantissa = hiddenBit ∧ -1074 < exponent then 1 else 2
  { low := (4 * mantissa - below) <<< scale
    value := (4 * mantissa) <<< scale
    high := (4 * mantissa + 2) <<< scale
    denominator := 1 <<< (2 - exponent).toNat
    closed := mantissa % 2 = 0 }

/-- The number of decimal digits of `n`; zero has one. -/
def digitCount (n : Nat) : Nat :=
  (Nat.toDigits 10 n).length

/-- The exponent `k` with `10 ^ (k - 1) ≤ numerator / denominator < 10 ^ k`. -/
def magnitude (numerator denominator : Nat) : Int :=
  if denominator ≤ numerator then
    digitCount (numerator / denominator)
  else
    1 - digitCount ((denominator - 1) / numerator)

namespace Interval

/-- Whether the interval holds `candidate / unit`, given over the interval's denominator. -/
def holds (i : Interval) (candidate unit : Nat) : Bool :=
  if i.closed then
    i.low * unit ≤ candidate && candidate ≤ i.high * unit
  else
    i.low * unit < candidate && candidate < i.high * unit

/-- The decimal of the interval on the grid of multiples of `10 ^ exponent` that is nearest to the
value, if there is one. Two equally near ones give the greater. -/
def onGrid? (i : Interval) (exponent : Int) : Option Decimal :=
  let step := i.denominator * Nat.pow 10 exponent.toNat
  let unit := Nat.pow 10 (-exponent).toNat
  let scaled := i.value * unit
  let below := scaled / step
  let rest := scaled % step
  let lower := i.holds (below * step) unit
  let upper := i.holds ((below + 1) * step) unit
  if lower && (!upper || 2 * rest < step) then some ⟨below, exponent⟩
  else if upper then some ⟨below + 1, exponent⟩
  else none

end Interval

/-- The decimal with the fewest digits that reads back as `mantissa * 2 ^ exponent`. Seventeen
digits always suffice. The upper neighbour on the grid of one digit may be ten steps up, and then
it has a digit too many. -/
def shortest (mantissa : Nat) (exponent : Int) : Decimal :=
  let i := interval mantissa exponent
  let k := magnitude i.value i.denominator
  let grids := (List.range 17).map fun n : Nat => k - (n + 1 : Nat)
  ((grids.findSome? i.onGrid?).getD ⟨i.value / i.denominator, 0⟩).reduce

/-- A decimal written out in full. -/
def Decimal.text (d : Decimal) : List Char :=
  let digits := Nat.toDigits 10 d.digits
  if 0 ≤ d.exponent then
    digits ++ List.replicate d.exponent.toNat '0'
  else
    let places := (-d.exponent).toNat
    if places < digits.length then
      digits.take (digits.length - places) ++ '.' :: digits.drop (digits.length - places)
    else
      '0' :: '.' :: (List.replicate (places - digits.length) '0' ++ digits)

/-- The text of a number. A zero keeps its sign; what is no number has none. -/
def text (x : Float) : String :=
  match parts x with
  | .nan => "NaN"
  | .infinite negative => if negative then "-inf" else "inf"
  | .finite negative mantissa exponent =>
    let digits := if mantissa = 0 then ['0'] else (shortest mantissa exponent).text
    String.ofList (if negative then '-' :: digits else digits)

end Easel.Number
