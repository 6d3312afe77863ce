import Easel.Number.Shortest

/-!
# Reading numbers

The number that a text denotes: a decimal numeral with an optional sign, point and exponent, or
one of the words for an infinity and for what is no number. The double nearest to the decimal is
taken, and the even one of two equally near.
-/

namespace Easel.Number

/-- The value of a run of decimal digits. -/
def digitsValue (digits : List Char) : Nat :=
  digits.foldl (fun n c => 10 * n + (c.toNat - '0'.toNat)) 0

/-- The double nearest to `digits * 10 ^ exponent`. Beyond the bounds tested first, every double
overflows to infinity or underflows to zero, so that no needless power is computed. -/
def scaled (digits : List Char) (exponent : Int) : Float :=
  let n := digitsValue digits
  if n = 0 then 0.0
  else if 400 < exponent then 1.0 / 0.0
  else if exponent + digits.length < -400 then 0.0
  else if 0 ≤ exponent then Float.ofScientific n false exponent.toNat
  else Float.ofScientific n true (-exponent).toNat

/-- A non-empty run of digits with an optional sign, as the power of ten of a numeral. -/
def powerOfTen? (cs : List Char) : Option Int :=
  let (negative, digits) :=
    match cs with
    | '-' :: rest => (true, rest)
    | '+' :: rest => (false, rest)
    | _ => (false, cs)
  if digits.isEmpty || !digits.all Char.isDigit then none
  else
    let n : Int := digitsValue digits
    some (if negative then -n else n)

/-- Splits off the longest run of digits. -/
def splitDigits (cs : List Char) : List Char × List Char :=
  (cs.takeWhile Char.isDigit, cs.dropWhile Char.isDigit)

/-- The value of an unsigned numeral: digits with at most one point before, within or after them,
then possibly the mark `e` or `E` and a power of ten. -/
def numeral? (cs : List Char) : Option Float :=
  let (whole, rest) := splitDigits cs
  let (fraction, rest) :=
    match rest with
    | '.' :: more => splitDigits more
    | _ => ([], rest)
  if whole.isEmpty && fraction.isEmpty then none
  else
    let power? : Option Int :=
      match rest with
      | [] => some 0
      | mark :: more => if mark = 'e' ∨ mark = 'E' then powerOfTen? more else none
    power?.map fun power => scaled (whole ++ fraction) (power - fraction.length)

/-- Whether a run of letters is `word`, given in lower case, in any case. -/
def isWord (word : String) (cs : List Char) : Bool :=
  cs.map Char.toLower == word.toList

/-- The number that an unsigned text denotes. -/
def magnitude? (cs : List Char) : Option Float :=
  if isWord "inf" cs || isWord "infinity" cs then some (1.0 / 0.0)
  else if isWord "nan" cs then some (0.0 / 0.0)
  else numeral? cs

/-- The number that a text denotes. -/
def ofText? (s : String) : Option Float :=
  match s.toList with
  | '-' :: cs => (magnitude? cs).map fun x => -x
  | '+' :: cs => magnitude? cs
  | cs => magnitude? cs

end Easel.Number
