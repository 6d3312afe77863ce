import Easel.Canvas

/-!
# Brushes

A brush paints a disk of cells. Its size is the width of the disk, which is odd: an even size
counts as the odd one below it, and no brush is smaller than a single cell.
-/

namespace Easel

/-- The odd width of a brush of any given size. -/
def brushWidth (size : Int) : Int :=
  max 1 (if size % 2 = 0 then size - 1 else size)

/-- How far a brush reaches from its centre. -/
def brushRadius (size : Int) : Nat :=
  ((brushWidth size - 1) / 2).toNat

/-- The width of a brush is odd and positive. -/
theorem brushWidth_odd (size : Int) : 1 ≤ brushWidth size ∧ brushWidth size % 2 = 1 := by
  unfold brushWidth
  split <;> omega

/-- A width is left as it is. -/
theorem brushWidth_eq {width : Int} (positive : 1 ≤ width) (odd : width % 2 = 1) :
    brushWidth width = width := by
  unfold brushWidth
  split <;> omega

/-- The points of a disk that are on a canvas of the given size. Only offsets that lead to the
canvas are tried. -/
def disk (size : Nat) (centre : Point) (radius : Nat) : List Point :=
  let r : Int := radius
  let last : Int := size - 1
  let offsets := pointsBetween (max (-r) (-centre.x)) (min r (last - centre.x))
    (max (-r) (-centre.y)) (min r (last - centre.y))
  let square := r * r
  (offsets.filter fun o => o.x * o.x + o.y * o.y ≤ square).map fun o => centre.shift o.x o.y

/-- The least coordinate from which a disk can touch a canvas, on either axis. -/
def reachFirst (radius : Nat) : Int := -radius

/-- The greatest coordinate from which a disk can touch a canvas of the given size. -/
def reachLast (size radius : Nat) : Int := size - 1 + radius

namespace Canvas

/-- Paints a disk. -/
def stampDisk (c : Canvas) (centre : Point) (radius : Nat) (color : Color) : Canvas :=
  c.paint (disk c.size centre radius) color

/-- Paints with a brush at one point. -/
def stamp (c : Canvas) (centre : Point) (color : Color) (brush : Int) : Canvas :=
  c.stampDisk centre (brushRadius brush) color

/-- Paints disks of one radius at several points. -/
def stampAll (c : Canvas) (centres : List Point) (radius : Nat) (color : Color) : Canvas :=
  centres.foldl (fun c centre => c.stampDisk centre radius color) c

end Canvas

end Easel
