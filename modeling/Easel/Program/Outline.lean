import Easel.Number.Shortest
import Easel.Program
import Easel.Text.Quoted

/-!
# The outline of a program

A program shown as a tree, one line for each statement and each node of its expressions. A line
stands two columns further right than the line of the node it belongs to.
-/

namespace Easel

/-- A line of an outline: how deep it stands, and what it says. -/
structure OutlineLine where
  depth : Nat
  text : String
deriving DecidableEq, Repr

/-- A line with its indentation and its line break. -/
def OutlineLine.render (line : OutlineLine) : String :=
  String.ofList (List.replicate (2 * line.depth) ' ') ++ line.text ++ "\n"

namespace Expr

mutual

/-- The lines of an expression at a depth. -/
def outline (depth : Nat) : Expr → List OutlineLine
  | number n _ => [⟨depth, "Number " ++ Number.text n⟩]
  | text s _ => [⟨depth, "String " ++ Text.quote s⟩]
  | var name _ => [⟨depth, "Variable " ++ name⟩]
  | binary left op right _ =>
    ⟨depth, "Binary " ++ op.symbol⟩ :: (left.outline (depth + 1) ++ right.outline (depth + 1))
  | call instruction arguments _ =>
    ⟨depth, "Call " ++ instruction.name⟩ :: outlineList (depth + 1) arguments

/-- The lines of some expressions at one depth. -/
def outlineList (depth : Nat) : List Expr → List OutlineLine
  | [] => []
  | e :: rest => e.outline depth ++ outlineList depth rest

end

end Expr

/-- The lines of a statement at a depth. -/
def Stmt.outline (depth : Nat) : Stmt → List OutlineLine
  | spawn x y _ => ⟨depth, "Spawn"⟩ :: (x.outline (depth + 1) ++ y.outline (depth + 1))
  | assign name value _ => ⟨depth, "Assign " ++ name⟩ :: value.outline (depth + 1)
  | label name _ => [⟨depth, "Label " ++ name⟩]
  | goTo target condition _ =>
    ⟨depth, "GoTo [" ++ target ++ "]"⟩ :: condition.outline (depth + 1)
  | call instruction arguments _ =>
    ⟨depth, "Call " ++ instruction.name⟩ :: Expr.outlineList (depth + 1) arguments

namespace Program

/-- The lines of a program. -/
def outline (p : Program) : List OutlineLine :=
  ⟨0, "Program (" ++ toString p.size ++ " statements)"⟩ ::
    p.statements.toList.flatMap (Stmt.outline 1)

/-- A program as text, in the form of a tree. -/
def dump (p : Program) : String :=
  String.join (p.outline.map OutlineLine.render)

end Program

end Easel
