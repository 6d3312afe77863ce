import Easel.Number.Reading
import Easel.Text.Quoted

/-!
# Values

What expressions evaluate to: numbers, texts and truth values. Truth values count as the numbers
one and zero; texts have no number.
-/

namespace Easel

/-- The kinds of values. -/
inductive ValueKind where
  | number
  | text
  | bool
deriving DecidableEq, Repr

/-- The name of a kind of values in messages. -/
def ValueKind.name : ValueKind → String
  | number => "number"
  | text => "string"
  | bool => "bool"

/-- What an expression evaluates to. -/
inductive Value where
  | number (n : Float)
  | text (s : String)
  | bool (b : Bool)
deriving DecidableEq, Repr

namespace Value

/-- The number of an integer: the double nearest to it. -/
def ofInt (n : Int) : Value := .number (Float.ofInt n)

/-- The answer of a question: one for yes and zero for no. -/
def answer (b : Bool) : Value := .number (if b then 1.0 else 0.0)

/-- The kind of a value. -/
def kind : Value → ValueKind
  | number _ => .number
  | text _ => .text
  | bool _ => .bool

/-- The number a value counts as. -/
def asNumber? : Value → Option Float
  | number n => some n
  | text _ => none
  | bool b => some (if b then 1.0 else 0.0)

/-- The integer nearest to the number that a value counts as. -/
def asInt? (v : Value) : Option Int :=
  v.asNumber?.map Number.toInt

/-- The text of a text value. -/
def asText? : Value → Option String
  | text s => some s
  | _ => none

/-- Whether a value counts as true: a number other than zero, a text with any characters, or the
truth value itself. -/
def isTruthy : Value → Bool
  | number n => n != 0.0
  | text s => s != ""
  | bool b => b

/-- Equality as programs see it. A text equals only a text; all other values are compared as
numbers. -/
def looselyEquals (v w : Value) : Bool :=
  match v, w with
  | text s, text t => s == t
  | _, _ =>
    match v.asNumber?, w.asNumber? with
    | some a, some b => a == b
    | _, _ => false

/-- Equality within one kind of values. Numbers are compared as numbers, so that what is no number
differs from itself, and the two zeros are equal. -/
def equals : Value → Value → Bool
  | number a, number b => a == b
  | text s, text t => s == t
  | bool a, bool b => a == b
  | _, _ => false

/-- A value as it is shown; texts are quoted. -/
def display : Value → String
  | number n => Number.text n
  | text s => Text.quote s
  | bool b => if b then "true" else "false"

end Value

end Easel
