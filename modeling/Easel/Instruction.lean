/-!
# The instruction set

The thirteen instructions that a program can call, each with its name and its signature: six that
change the cursor or the canvas, and seven queries that yield a value. Placing the cursor is not
among them: it is a statement of its own.
-/

namespace Easel

/-- An instruction that a program can call. -/
inductive Instruction where
  | color
  | size
  | drawLine
  | drawCircle
  | drawRectangle
  | fill
  | getActualX
  | getActualY
  | getCanvasSize
  | getColorCount
  | isBrushColor
  | isBrushSize
  | isCanvasColor
deriving DecidableEq, Repr

/-- What kind of value a parameter takes. -/
inductive ParameterKind where
  | number
  | text
deriving DecidableEq, Repr

/-- The word for the values of a parameter in messages. -/
def ParameterKind.noun : ParameterKind → String
  | number => "number"
  | text => "string"

/-- A parameter of an instruction. -/
structure Parameter where
  name : String
  kind : ParameterKind
deriving DecidableEq, Repr

/-- A parameter that takes a number. -/
def Parameter.number (name : String) : Parameter := ⟨name, .number⟩

/-- A parameter that takes a text. -/
def Parameter.text (name : String) : Parameter := ⟨name, .text⟩

namespace Instruction

/-- All instructions. -/
def all : List Instruction :=
  [color, size, drawLine, drawCircle, drawRectangle, fill, getActualX, getActualY, getCanvasSize,
    getColorCount, isBrushColor, isBrushSize, isCanvasColor]

/-- The name of an instruction in programs. -/
def name : Instruction → String
  | color => "Color"
  | size => "Size"
  | drawLine => "DrawLine"
  | drawCircle => "DrawCircle"
  | drawRectangle => "DrawRectangle"
  | fill => "Fill"
  | getActualX => "GetActualX"
  | getActualY => "GetActualY"
  | getCanvasSize => "GetCanvasSize"
  | getColorCount => "GetColorCount"
  | isBrushColor => "IsBrushColor"
  | isBrushSize => "IsBrushSize"
  | isCanvasColor => "IsCanvasColor"

/-- The instruction of a name. -/
def ofName? (name : String) : Option Instruction :=
  all.find? fun instruction => instruction.name == name

/-- The parameters of an instruction, in order. -/
def parameters : Instruction → List Parameter
  | color => [.text "color"]
  | size => [.number "size"]
  | drawLine => [.number "dirX", .number "dirY", .number "distance"]
  | drawCircle => [.number "dirX", .number "dirY", .number "radius"]
  | drawRectangle =>
    [.number "dirX", .number "dirY", .number "distance", .number "width", .number "height"]
  | fill => []
  | getActualX => []
  | getActualY => []
  | getCanvasSize => []
  | getColorCount => [.text "color", .number "x1", .number "y1", .number "x2", .number "y2"]
  | isBrushColor => [.text "color"]
  | isBrushSize => [.number "size"]
  | isCanvasColor => [.text "color", .number "vertical", .number "horizontal"]

/-- Whether a call yields a value, so that it may stand in an expression. -/
def yieldsValue : Instruction → Bool
  | color | size | drawLine | drawCircle | drawRectangle | fill => false
  | getActualX | getActualY | getCanvasSize | getColorCount | isBrushColor | isBrushSize
  | isCanvasColor => true

/-- The list of all instructions leaves none out. -/
theorem mem_all (instruction : Instruction) : instruction ∈ all := by
  cases instruction <;> decide

/-- An instruction is found under its own name. -/
theorem ofName?_name (instruction : Instruction) :
    ofName? instruction.name = some instruction := by
  cases instruction <;> decide

/-- What is found under a name has that name. -/
theorem name_of_ofName? {name : String} {instruction : Instruction}
    (found : ofName? name = some instruction) : instruction.name = name := by
  simpa using List.find?_some found

end Instruction

end Easel
