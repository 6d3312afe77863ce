/-!
# Binary operators

The fourteen operators of expressions with their symbols and their levels of precedence. All of
them associate to the left.
-/

namespace Easel

/-- A binary operator. -/
inductive Operator where
  | add
  | sub
  | mul
  | div
  | mod
  | pow
  | eq
  | notEq
  | lt
  | ltEq
  | gt
  | gtEq
  | and
  | or
deriving DecidableEq, Repr

namespace Operator

/-- All operators. -/
def all : List Operator :=
  [add, sub, mul, div, mod, pow, eq, notEq, lt, ltEq, gt, gtEq, and, or]

/-- How an operator is written in programs. -/
def symbol : Operator → String
  | add => "+"
  | sub => "-"
  | mul => "*"
  | div => "/"
  | mod => "%"
  | pow => "**"
  | eq => "=="
  | notEq => "!="
  | lt => "<"
  | ltEq => "<="
  | gt => ">"
  | gtEq => ">="
  | and => "&&"
  | or => "||"

/-- The operator of a symbol. -/
def ofSymbol? (symbol : String) : Option Operator :=
  all.find? fun op => op.symbol == symbol

/-- How tightly an operator binds, from 1 for powers, the tightest, to 6 for disjunction. -/
def level : Operator → Nat
  | pow => 1
  | mul | div | mod => 2
  | add | sub => 3
  | eq | notEq | lt | ltEq | gt | gtEq => 4
  | and => 5
  | or => 6

/-- The level of the loosest operators, at which a whole expression is read. -/
def loosest : Nat := 6

/-- The list of all operators leaves none out. -/
theorem mem_all (op : Operator) : op ∈ all := by
  cases op <;> decide

/-- An operator is found under its own symbol. -/
theorem ofSymbol?_symbol (op : Operator) : ofSymbol? op.symbol = some op := by
  cases op <;> decide

/-- Every level lies between the tightest and the loosest. -/
theorem level_bounds (op : Operator) : 1 ≤ op.level ∧ op.level ≤ loosest := by
  cases op <;> decide

end Operator

end Easel
