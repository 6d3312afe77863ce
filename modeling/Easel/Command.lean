import Easel.Canvas.Circle
import Easel.Canvas.Fill
import Easel.Canvas.Stroke
import Easel.Cursor
import Easel.Fault

/-!
# Carrying out instructions

A call of an instruction is checked against its signature, turned into a command with plain
numbers and texts, and carried out on a drawing: a canvas and, once it was placed, a cursor.

The strokes move the cursor as they draw: it ends at the far end of a line, and at the centre of a
circle or a rectangle. Queries change nothing. A color name outside the palette is refused when it
is to be drawn with, and matches nothing when it is asked about.
-/

namespace Easel

/-- A canvas, and the cursor once it was placed. -/
structure Drawing where
  canvas : Canvas
  cursor : Option Cursor
deriving DecidableEq, Repr

/-- A call of an instruction with its arguments as plain numbers and texts. -/
inductive Command where
  | color (name : String)
  | size (brush : Int)
  | drawLine (dirX dirY distance : Int)
  | drawCircle (dirX dirY radius : Int)
  | drawRectangle (dirX dirY distance width height : Int)
  | fill
  | getActualX
  | getActualY
  | getCanvasSize
  | getColorCount (color : String) (first second : Point)
  | isBrushColor (color : String)
  | isBrushSize (brush : Int)
  | isCanvasColor (color : String) (vertical horizontal : Int)
deriving DecidableEq, Repr

/-- Whether a parameter takes a value. -/
def Parameter.accepts (p : Parameter) (v : Value) : Bool :=
  match p.kind with
  | .number => v.asNumber?.isSome
  | .text => v.asText?.isSome

/-- The greatest coordinate that instructions work with, in either direction: `2 ^ 31`. -/
def coordinateLimit : Int := 2147483648

/-- An integer brought into the range of coordinates. -/
def toCoordinate (n : Int) : Int :=
  max (-coordinateLimit) (min n coordinateLimit)

/-- The coordinate that is `magnitude` steps of `direction` away. -/
def offset (base direction magnitude : Int) : Int :=
  toCoordinate (base + direction * magnitude)

namespace Instruction

/-- The first parameter that does not take its argument, with the kind of the argument. -/
def mismatch? (instruction : Instruction) (arguments : List Value) :
    Option (Parameter × ValueKind) :=
  ((instruction.parameters.zip arguments).find? fun pair => !pair.1.accepts pair.2).map
    fun pair => (pair.1, pair.2.kind)

/-- Checks arguments against the signature: their number first, then their kinds in order. -/
def validate (instruction : Instruction) (arguments : List Value) : Except Fault Unit :=
  if arguments.length = instruction.parameters.length then
    match instruction.mismatch? arguments with
    | some (parameter, given) => .error (.argumentKind instruction parameter given)
    | none => .ok ()
  else .error (.argumentCount instruction arguments.length)

end Instruction

namespace Command

/-- An argument as a coordinate; arguments that fit the signature have one where it is asked for. -/
def intAt (arguments : List Value) (index : Nat) : Int :=
  toCoordinate ((arguments[index]?.bind Value.asInt?).getD 0)

/-- An argument as a text; arguments that fit the signature have one where it is asked for. -/
def textAt (arguments : List Value) (index : Nat) : String :=
  (arguments[index]?.bind Value.asText?).getD ""

/-- The command of a call whose arguments fit the signature. -/
def ofCall (instruction : Instruction) (arguments : List Value) : Command :=
  let int := intAt arguments
  let text := textAt arguments
  match instruction with
  | .color => .color (text 0)
  | .size => .size (int 0)
  | .drawLine => .drawLine (int 0) (int 1) (int 2)
  | .drawCircle => .drawCircle (int 0) (int 1) (int 2)
  | .drawRectangle => .drawRectangle (int 0) (int 1) (int 2) (int 3) (int 4)
  | .fill => .fill
  | .getActualX => .getActualX
  | .getActualY => .getActualY
  | .getCanvasSize => .getCanvasSize
  | .getColorCount => .getColorCount (text 0) ⟨int 1, int 2⟩ ⟨int 3, int 4⟩
  | .isBrushColor => .isBrushColor (text 0)
  | .isBrushSize => .isBrushSize (int 0)
  | .isCanvasColor => .isCanvasColor (text 0) (int 1) (int 2)

end Command

/-- A change of a drawing that may fail, and what it yields. A failed change says what the drawing
is afterwards, too. -/
abbrev Sketch (α : Type) := ExceptT Fault (StateM Drawing) α

namespace Sketch

/-- The cursor. -/
def cursor : Sketch Cursor := do
  match (← get).cursor with
  | some cursor => return cursor
  | none => throw .notSpawned

/-- Changes the cursor. -/
def setCursor (cursor : Cursor) : Sketch Unit :=
  modify fun drawing => { drawing with cursor := some cursor }

/-- Changes the canvas. -/
def draw (f : Canvas → Canvas) : Sketch Unit :=
  modify fun drawing => { drawing with canvas := f drawing.canvas }

end Sketch

namespace Command

open Sketch

/-- Carries out a command, with the arithmetic of clipping left open. All but the question for the
size of the canvas need a cursor. -/
def runIn (K : Type) [Scalar K] : Command → Sketch (Option Value)
  | color name => do
    let current ← cursor
    match Color.ofName? name with
    | some chosen =>
      setCursor { current with color := chosen }
      return none
    | none => throw (.unknownColor name)
  | size brush => do
    let current ← cursor
    setCursor { current with brush := brushWidth brush }
    return none
  | drawLine dirX dirY distance => do
    let current ← cursor
    let target : Point :=
      ⟨offset current.position.x dirX distance, offset current.position.y dirY distance⟩
    draw fun canvas => canvas.drawLineIn K ⟨current.position, target⟩ current.color current.brush
    setCursor { current with position := target }
    return none
  | drawCircle dirX dirY radius => do
    let current ← cursor
    let centre : Point :=
      ⟨offset current.position.x dirX radius, offset current.position.y dirY radius⟩
    draw fun canvas => canvas.drawCircle centre radius current.color current.brush
    setCursor { current with position := centre }
    return none
  | drawRectangle dirX dirY distance width height => do
    let current ← cursor
    if width ≤ 0 ∨ height ≤ 0 then throw (.emptyRectangle width height)
    let centre : Point :=
      ⟨offset current.position.x dirX distance, offset current.position.y dirY distance⟩
    draw fun canvas =>
      canvas.drawRectangleIn K centre width height current.color current.brush
    setCursor { current with position := centre }
    return none
  | fill => do
    let current ← cursor
    draw fun canvas => canvas.floodFill current.position current.color
    return none
  | getActualX => do
    return some (.ofInt (← cursor).position.x)
  | getActualY => do
    return some (.ofInt (← cursor).position.y)
  | getCanvasSize => do
    return some (.ofInt (← get).canvas.size)
  | getColorCount name first second => do
    let _ ← cursor
    let canvas := (← get).canvas
    let count := match Color.ofName? name with
      | some sought => canvas.colorCount sought first second
      | none => 0
    return some (.ofInt count)
  | isBrushColor name => do
    return some (.answer ((← cursor).color.name == name))
  | isBrushSize brush => do
    return some (.answer ((← cursor).brush == brush))
  | isCanvasColor name vertical horizontal => do
    let current ← cursor
    let canvas := (← get).canvas
    let place := current.position.shift horizontal vertical
    let holds := match Color.ofName? name with
      | some sought => canvas.isColor place sought
      | none => false
    return some (.answer holds)

end Command

namespace Instruction

/-- Calls an instruction, with the arithmetic of clipping left open. Its arguments are checked
before anything is drawn. What is yielded is the value of a query. -/
def performIn (K : Type) [Scalar K] (instruction : Instruction) (arguments : List Value) :
    Sketch (Option Value) :=
  match instruction.validate arguments with
  | .error fault => throw fault
  | .ok () => (Command.ofCall instruction arguments).runIn K

/-- Calls an instruction. -/
def perform (instruction : Instruction) (arguments : List Value) : Sketch (Option Value) :=
  instruction.performIn Float arguments

end Instruction

end Easel
