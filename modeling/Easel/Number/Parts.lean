/-!
# The parts of a number

Numbers are IEEE doubles. A finite one is a whole mantissa times a power of two, and both can be
read off its bit pattern. On these parts the nearest integer and the remainder are computed
exactly, with no rounding in between.
-/

namespace Easel.Number

/-- A double taken apart. -/
inductive Parts where
  /-- No number. -/
  | nan
  /-- An infinity. -/
  | infinite (negative : Bool)
  /-- The number `mantissa * 2 ^ exponent`, with a sign that a zero has too. -/
  | finite (negative : Bool) (mantissa : Nat) (exponent : Int)
deriving DecidableEq, Repr

/-- The hidden bit of a mantissa, which is the least mantissa of a binade. -/
def hiddenBit : Nat := 1 <<< 52

/-- The parts of `x`. The sign is the first of its 64 bits, and eleven bits after it hold the
exponent. They are zero for subnormal numbers, which have no hidden bit, and full for infinities
and the value that is no number. -/
def parts (x : Float) : Parts :=
  let bits := x.toBits.toNat
  let negative := bits >>> 63 == 1
  let field : Nat := (bits >>> 52) % 2048
  let fraction := bits % hiddenBit
  if field = 2047 then
    if fraction = 0 then .infinite negative else .nan
  else if field = 0 then
    .finite negative fraction (-1074)
  else
    .finite negative (hiddenBit + fraction) ((field : Int) - 1075)

/-- The double `mantissa * 2 ^ exponent`, for a product that is a double. -/
def assemble (negative : Bool) (mantissa : Nat) (exponent : Int) : Float :=
  let width := mantissa.log2
  let (mantissa, exponent) :=
    if 52 < width then
      (mantissa >>> (width - 52), exponent + (width - 52 : Nat))
    else
      let room := min (52 - width) (exponent + 1074).toNat
      (mantissa <<< room, exponent - room)
  let sign := if negative then 1 <<< 63 else 0
  if mantissa < hiddenBit then
    Float.ofBits (sign + mantissa).toUInt64
  else
    Float.ofBits (sign + (exponent + 1075).toNat <<< 52 + (mantissa - hiddenBit)).toUInt64

/-- The integer nearest to `mantissa * 2 ^ exponent`; a half goes up. -/
def nearest (mantissa : Nat) (exponent : Int) : Nat :=
  if 0 ≤ exponent then
    mantissa <<< exponent.toNat
  else
    let unit := 1 <<< (-exponent).toNat
    (2 * mantissa + unit) / (2 * unit)

/-- The least integer of 64 bits. -/
def minInt : Int := -9223372036854775808

/-- The greatest integer of 64 bits. -/
def maxInt : Int := 9223372036854775807

/-- `n`, or the bound of the range of 64 bits that it lies beyond. -/
def saturate (n : Int) : Int :=
  max minInt (min n maxInt)

/-- The integer nearest to `x`, within 64 bits. A half goes away from zero, and what is no
number counts as zero. -/
def toInt (x : Float) : Int :=
  match parts x with
  | .nan => 0
  | .infinite negative => if negative then minInt else maxInt
  | .finite negative mantissa exponent =>
    let n : Int := nearest mantissa exponent
    saturate (if negative then -n else n)

/-- The remainder of `x` by `y` with the sign of `x`: what is left of `x` when `y` is taken away
as often as it goes whole. It is exact, since it is computed on whole multiples of the smaller of
the two powers of two. -/
def remainder (x y : Float) : Float :=
  match parts x, parts y with
  | .finite negative m p, .finite _ n q =>
    if n = 0 then 0.0 / 0.0
    else
      let unit := min p q
      assemble negative ((m <<< (p - unit).toNat) % (n <<< (q - unit).toNat)) unit
  | .finite _ _ _, .infinite _ => x
  | _, _ => 0.0 / 0.0

/-- Saturated integers lie within 64 bits. -/
theorem saturate_bounds (n : Int) : minInt ≤ saturate n ∧ saturate n ≤ maxInt := by
  unfold saturate minInt maxInt
  omega

/-- The range of 64 bits is left as it is. -/
theorem saturate_eq {n : Int} (low : minInt ≤ n) (high : n ≤ maxInt) : saturate n = n := by
  unfold saturate
  omega

/-- The nearest integer lies within 64 bits. -/
theorem toInt_bounds (x : Float) : minInt ≤ toInt x ∧ toInt x ≤ maxInt := by
  unfold toInt
  split
  · decide
  · split <;> decide
  · exact saturate_bounds _

end Easel.Number
