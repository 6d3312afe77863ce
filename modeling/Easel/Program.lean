import Easel.Expr
import Easel.NameMap

/-!
# Programs

A program is a flat list of statements. Control moves from one to the next, or jumps to a label.
-/

namespace Easel

/-- A statement. -/
inductive Stmt where
  /-- Places the cursor. -/
  | spawn (x y : Expr) (position : Position)
  | assign (name : String) (value : Expr) (position : Position)
  | label (name : String) (position : Position)
  /-- Jumps to a label if the condition holds. -/
  | goTo (label : String) (condition : Expr) (position : Position)
  /-- Calls an instruction for its effect. -/
  | call (instruction : Instruction) (arguments : List Expr) (position : Position)
deriving Repr

namespace Stmt

/-- The place of a statement. -/
def position : Stmt → Position
  | spawn _ _ p | assign _ _ p | label _ p | goTo _ _ p | call _ _ p => p

/-- The place of a statement, then those of all nodes of its expressions. -/
def positions : Stmt → List Position
  | spawn x y p => p :: (x.positions ++ y.positions)
  | assign _ value p => p :: value.positions
  | label _ p => [p]
  | goTo _ condition p => p :: condition.positions
  | call _ arguments p => p :: Expr.positionsOfList arguments

/-- The name that a label statement defines. -/
def labelName? : Stmt → Option String
  | label name _ => some name
  | _ => none

end Stmt

/-- A list of statements. -/
structure Program where
  statements : Array Stmt
deriving Repr

namespace Program

/-- The program without statements. -/
def empty : Program := ⟨#[]⟩

/-- The number of statements. -/
def size (p : Program) : Nat := p.statements.size

/-- Notes the index of a statement if it is a label. -/
def noteLabel (table : NameMap Nat) (entry : Stmt × Nat) : NameMap Nat :=
  match entry.1.labelName? with
  | some name => table.insert name entry.2
  | none => table

/-- Where the labels stand. A repeated label stands where it is last. -/
def labels (p : Program) : NameMap Nat :=
  p.statements.toList.zipIdx.foldl noteLabel .empty

/-- The program without its first `n` statements. -/
def drop (p : Program) (n : Nat) : Program :=
  ⟨p.statements.extract n p.statements.size⟩

/-- The statements of one program, then those of another. -/
def append (p q : Program) : Program :=
  ⟨p.statements ++ q.statements⟩

end Program

end Easel
