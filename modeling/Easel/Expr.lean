import Easel.Instruction
import Easel.Operator
import Easel.Position

/-!
# Expressions

The trees of expressions. A minus sign in front of an operand has no node of its own: it is a
subtraction from zero. Every node carries the place that faults in it are reported at; for an
operator this is the place of its left operand.
-/

namespace Easel

/-- An expression. -/
inductive Expr where
  | number (n : Float) (position : Position)
  | text (s : String) (position : Position)
  | var (name : String) (position : Position)
  | binary (left : Expr) (op : Operator) (right : Expr) (position : Position)
  | call (instruction : Instruction) (arguments : List Expr) (position : Position)
deriving Repr

namespace Expr

/-- The place of an expression. -/
def position : Expr → Position
  | number _ p | text _ p | var _ p | binary _ _ _ p | call _ _ p => p

/-- An operand with a minus sign in front of it. -/
def negate (operand : Expr) (position : Position) : Expr :=
  .binary (.number 0.0 position) .sub operand position

mutual

/-- The places of all nodes of an expression, each node before its parts. -/
def positions : Expr → List Position
  | number _ p | text _ p | var _ p => [p]
  | binary left _ right p => p :: (left.positions ++ right.positions)
  | call _ arguments p => p :: positionsOfList arguments

/-- The places of all nodes of some expressions, in order. -/
def positionsOfList : List Expr → List Position
  | [] => []
  | e :: rest => e.positions ++ positionsOfList rest

end

end Expr

end Easel
