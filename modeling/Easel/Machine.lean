import Easel.Command
import Easel.Expr
import Easel.Scope

/-!
# Evaluating expressions

The state of a running program, and the values of expressions in it. Both sides of an operator are
always evaluated, the left one first, and so are the arguments of a call in order. An instruction
without a value is refused in an expression before any of its arguments is looked at.
-/

namespace Easel

/-- The state of a running program: the drawing, the variables, and what went wrong so far. -/
structure Machine where
  drawing : Drawing
  scope : Scope
  errors : Array Diagnostic
deriving DecidableEq, Repr

/-- Work on a machine that may fail, and what it yields. Failed work says what the machine is
afterwards, too. -/
abbrev Action (α : Type) := ExceptT Diagnostic (StateM Machine) α

namespace Operator

/-- The value of an operator that has a meaning only for numbers. -/
def onNumbers (op : Operator) (v w : Value) (f : Float → Float → Except Fault Value) :
    Except Fault Value :=
  match v.asNumber?, w.asNumber? with
  | some a, some b => f a b
  | _, _ => .error (.unsupportedOperands op v.kind w.kind)

/-- The value of an operator for two values. -/
def apply (op : Operator) (v w : Value) : Except Fault Value :=
  match op with
  | eq => .ok (.bool (v.looselyEquals w))
  | notEq => .ok (.bool !(v.looselyEquals w))
  | and => .ok (.bool (v.isTruthy && w.isTruthy))
  | or => .ok (.bool (v.isTruthy || w.isTruthy))
  | add => op.onNumbers v w fun a b => .ok (.number (a + b))
  | sub => op.onNumbers v w fun a b => .ok (.number (a - b))
  | mul => op.onNumbers v w fun a b => .ok (.number (a * b))
  | div => op.onNumbers v w fun a b =>
    if b == 0.0 then .error .divisionByZero else .ok (.number (a / b))
  | mod => op.onNumbers v w fun a b =>
    if b == 0.0 then .error .moduloByZero else .ok (.number (Number.remainder a b))
  | pow => op.onNumbers v w fun a b => .ok (.number (a.pow b))
  | lt => op.onNumbers v w fun a b => .ok (.bool (a < b))
  | ltEq => op.onNumbers v w fun a b => .ok (.bool (a ≤ b))
  | gt => op.onNumbers v w fun a b => .ok (.bool (b < a))
  | gtEq => op.onNumbers v w fun a b => .ok (.bool (b ≤ a))

end Operator

namespace Machine

/-- A machine at the beginning of a run on a canvas. -/
def start (canvas : Canvas) : Machine := ⟨⟨canvas, none⟩, .empty, #[]⟩

/-- Fails with a fault at a place. -/
def fail {α : Type} (fault : Fault) (position : Position) : Action α :=
  throw (fault.diagnose position)

/-- The outcome of something that may have failed at a place. -/
def located {α : Type} (position : Position) : Except Fault α → Action α
  | .ok a => pure a
  | .error fault => fail fault position

/-- Calls an instruction. For the time of the call its parameters are bound in a frame of their own,
also if it fails. -/
def invoke (instruction : Instruction) (arguments : List Value) (position : Position) :
    Action (Option Value) := do
  let names := instruction.parameters.map Parameter.name
  modify fun m => { m with scope := m.scope.enter (names.zip arguments) }
  let outcome ← modifyGet fun m =>
    let (outcome, drawing) := (instruction.perform arguments).run m.drawing
    (outcome, { m with drawing })
  modify fun m => { m with scope := m.scope.pop }
  located position outcome

mutual

/-- The value of an expression. -/
def eval : Expr → Action Value
  | .number n _ => return .number n
  | .text s _ => return .text s
  | .var name position => do
    match (← get).scope.get? name with
    | some v => return v
    | none => fail (.undefinedVariable name) position
  | .binary left op right position => do
    let v ← eval left
    let w ← eval right
    located position (op.apply v w)
  | .call instruction arguments position => do
    if instruction.yieldsValue then
      let values ← evalAll arguments
      match ← invoke instruction values position with
      | some v => return v
      | none => fail (.valueMissing instruction) position
    else fail (.noValue instruction) position

/-- The values of some expressions, in order. -/
def evalAll : List Expr → Action (List Value)
  | [] => return []
  | e :: rest => do
    let v ← eval e
    let vs ← evalAll rest
    return v :: vs

end

/-- The integer nearest to the value of an expression. -/
def evalInt (e : Expr) : Action Int := do
  let v ← eval e
  match v.asInt? with
  | some n => return n
  | none => fail (.notANumber v.kind) e.position

end Machine

end Easel
