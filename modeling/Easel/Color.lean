/-!
# The palette

The nine colors a cell can have, their names in programs, and their channel values for a screen.
-/

namespace Easel

/-- A color of the palette. -/
inductive Color where
  | red
  | blue
  | green
  | yellow
  | orange
  | purple
  | black
  | white
  | transparent
deriving DecidableEq, Repr, Inhabited

/-- Channel values of a color on a screen. -/
structure Channels where
  red : UInt8
  green : UInt8
  blue : UInt8
  alpha : UInt8
deriving DecidableEq, Repr

namespace Color

/-- All colors, in the order in which messages list them. -/
def palette : List Color :=
  [red, blue, green, yellow, orange, purple, black, white, transparent]

/-- The name of a color in programs. -/
def name : Color → String
  | red => "Red"
  | blue => "Blue"
  | green => "Green"
  | yellow => "Yellow"
  | orange => "Orange"
  | purple => "Purple"
  | black => "Black"
  | white => "White"
  | transparent => "Transparent"

/-- The color of a name; names are case-sensitive. -/
def ofName? (name : String) : Option Color :=
  palette.find? fun color => color.name == name

/-- How a color is shown on a screen. -/
def channels : Color → Channels
  | red => ⟨255, 0, 0, 255⟩
  | blue => ⟨0, 0, 255, 255⟩
  | green => ⟨0, 255, 0, 255⟩
  | yellow => ⟨255, 255, 0, 255⟩
  | orange => ⟨255, 165, 0, 255⟩
  | purple => ⟨128, 0, 128, 255⟩
  | black => ⟨0, 0, 0, 255⟩
  | white => ⟨255, 255, 255, 255⟩
  | transparent => ⟨0, 0, 0, 0⟩

/-- The palette leaves no color out. -/
theorem mem_palette (color : Color) : color ∈ palette := by
  cases color <;> decide

/-- A color is found under its own name. -/
theorem ofName?_name (color : Color) : ofName? color.name = some color := by
  cases color <;> decide

end Color

end Easel
