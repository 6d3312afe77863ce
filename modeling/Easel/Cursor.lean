import Easel.Color
import Easel.Point

/-!
# The cursor

The place from which instructions draw, with the color and the size of the brush there.
-/

namespace Easel

/-- The drawing cursor. -/
structure Cursor where
  position : Point
  color : Color
  brush : Int
deriving DecidableEq, Repr

namespace Cursor

/-- The color of a cursor that was just placed. -/
def defaultColor : Color := .white

/-- A cursor just placed at a point, with the smallest brush. -/
def spawn (position : Point) : Cursor := ⟨position, defaultColor, 1⟩

end Cursor

end Easel
