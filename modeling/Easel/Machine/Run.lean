import Easel.Machine
import Easel.Program.Parser

/-!
# Running programs

Statements are carried out one after the other, from the first, until control leaves the program.
A jump goes on at its label. A statement that fails is skipped and its fault is recorded; a fatal
fault ends the run.

A program may jump back for ever, so a run is given a limit on the number of statements it may
carry out.
-/

namespace Easel

namespace Machine

/-- Places the cursor, if the point is on the canvas. -/
def spawn (x y : Int) (position : Position) : Action Unit := do
  let canvas := (← get).drawing.canvas
  if canvas.contains ⟨x, y⟩ then
    modify fun m => { m with drawing.cursor := some (.spawn ⟨x, y⟩) }
  else fail (.spawnOutside x y canvas.size) position

/-- Carries out a statement. What is yielded is the index of the statement to jump to, if any. -/
def exec (labels : NameMap Nat) : Stmt → Action (Option Nat)
  | .spawn x y position => do
    let x ← evalInt x
    let y ← evalInt y
    spawn x y position
    return none
  | .assign name value _ => do
    let v ← eval value
    modify fun m => { m with scope := m.scope.assign name v }
    return none
  | .label _ _ => return none
  | .goTo label condition position => do
    let v ← eval condition
    if v.isTruthy then
      match labels.find? label with
      | some target => return some target
      | none => fail (.undefinedLabel label) position
    else return none
  | .call instruction arguments position => do
    let values ← evalAll arguments
    let _ ← invoke instruction values position
    return none

/-- Records the fault of a statement. -/
def record (m : Machine) (d : Diagnostic) (index : Nat) : Machine :=
  { m with errors := m.errors.push (d.atStatement index) }

/-- Carries out the statement with the given index. What is returned is the index of the statement
to go on with, or none if the run ends there, and the machine afterwards. -/
def turn (labels : NameMap Nat) (index : Nat) (stmt : Stmt) (m : Machine) :
    Option Nat × Machine :=
  match (exec labels stmt).run m with
  | (.ok (some target), m) => (some target, m)
  | (.ok none, m) => (some (index + 1), m)
  | (.error d, m) => (if d.isFatal then none else some (index + 1), m.record d index)

/-- Runs statements from the given index on. There is no result if the limit is reached first. -/
def runFrom (statements : Array Stmt) (labels : NameMap Nat) :
    (limit : Nat) → (index : Nat) → Machine → Option Machine
  | 0, _, _ => none
  | limit + 1, index, m =>
    match statements[index]? with
    | none => some m
    | some stmt =>
      match turn labels index stmt m with
      | (none, m) => some m
      | (some next, m) => runFrom statements labels limit next m

/-- Runs a program. Its labels are looked up once, before the first statement. -/
def run (limit : Nat) (p : Program) (m : Machine) : Option Machine :=
  runFrom p.statements p.labels limit 0 m

end Machine

/-- What a run leaves besides the canvas: the faults in the order in which they occurred, the
cursor, and the global variables. -/
structure Report where
  errors : List Diagnostic
  cursor : Option Cursor
  globals : NameMap Value
deriving DecidableEq, Repr

namespace Report

/-- Whether nothing went wrong. -/
def isOk (r : Report) : Bool := r.errors.isEmpty

/-- The fault that ended the run early. -/
def fatal? (r : Report) : Option Diagnostic := r.errors.find? Diagnostic.isFatal

/-- The report on a text that is no program. -/
def ofDiagnostic (d : Diagnostic) : Report := ⟨[d], none, .empty⟩

end Report

/-- The report on a machine that has stopped. -/
def Machine.report (m : Machine) : Report :=
  ⟨m.errors.toList, m.drawing.cursor, m.scope.globals⟩

namespace Program

/-- Runs a program on a canvas, and gives the report and the canvas afterwards. -/
def execute (limit : Nat) (p : Program) (canvas : Canvas) : Option (Report × Canvas) :=
  (Machine.run limit p (.start canvas)).map fun m => (m.report, m.drawing.canvas)

/-- Runs the program of a text on a canvas. A text that is no program leaves the canvas as it is. -/
def runSource (limit : Nat) (source : String) (canvas : Canvas) : Option (Report × Canvas) :=
  match compile source with
  | .ok p => p.execute limit canvas
  | .error d => some (.ofDiagnostic d, canvas)

end Program

end Easel
