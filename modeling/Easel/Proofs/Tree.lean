import Easel.Program
import Mathlib.Tactic.Lemma

/-!
# Programs without places

Expressions and statements as trees that carry no places, so that two programs are the same up to
places exactly if their trees are equal (`Program.lines`). What stands for a number in a tree is
left open: it is the number itself in the tree of a program, and a numeral in a tree that is about
to be written down.
-/

namespace Easel

/-- An expression without places. -/
inductive Tree (ν : Type) where
  | number (n : ν)
  | text (s : String)
  | var (name : String)
  | binary (left : Tree ν) (op : Operator) (right : Tree ν)
  | call (instruction : Instruction) (arguments : List (Tree ν))

/-- A statement without places. -/
inductive Line (ν : Type) where
  | spawn (x y : Tree ν)
  | assign (name : String) (value : Tree ν)
  | label (name : String)
  | goTo (label : String) (condition : Tree ν)
  | call (instruction : Instruction) (arguments : List (Tree ν))

namespace Tree

variable {ν μ : Type}

mutual

/-- The tree with every number changed. -/
def map (f : ν → μ) : Tree ν → Tree μ
  | number n => number (f n)
  | text s => text s
  | var name => var name
  | binary left op right => binary (left.map f) op (right.map f)
  | call instruction arguments => call instruction (mapAll f arguments)

/-- The trees with every number changed. -/
def mapAll (f : ν → μ) : List (Tree ν) → List (Tree μ)
  | [] => []
  | e :: rest => e.map f :: mapAll f rest

end

end Tree

/-- The statement with every number changed. -/
def Line.map {ν μ : Type} (f : ν → μ) : Line ν → Line μ
  | spawn x y => spawn (x.map f) (y.map f)
  | assign name value => assign name (value.map f)
  | label name => label name
  | goTo name condition => goTo name (condition.map f)
  | call instruction arguments => call instruction (Tree.mapAll f arguments)

namespace Expr

mutual

/-- The tree of an expression. -/
def tree : Expr → Tree Float
  | number n _ => .number n
  | text s _ => .text s
  | var name _ => .var name
  | binary left op right _ => .binary left.tree op right.tree
  | call instruction arguments _ => .call instruction (trees arguments)

/-- The trees of some expressions. -/
def trees : List Expr → List (Tree Float)
  | [] => []
  | e :: rest => e.tree :: trees rest

end

/-- A minus sign in front of an operand is a subtraction from zero. -/
@[simp]
lemma tree_negate (e : Expr) (p : Position) :
    (e.negate p).tree = .binary (.number 0.0) .sub e.tree := by
  simp only [negate, tree]

end Expr

/-- The tree of a statement. -/
def Stmt.line : Stmt → Line Float
  | spawn x y _ => .spawn x.tree y.tree
  | assign name value _ => .assign name value.tree
  | label name _ => .label name
  | goTo name condition _ => .goTo name condition.tree
  | call instruction arguments _ => .call instruction (Expr.trees arguments)

/-- The trees of the statements of a program, in order. -/
def Program.lines (p : Program) : List (Line Float) :=
  p.statements.toList.map Stmt.line

end Easel
