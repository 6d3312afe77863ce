import Easel.Point
import Easel.Scalar

/-!
# Segments

Straight segments between points, cut to a square and walked cell by cell.

A segment is cut to a square in terms of a parameter that runs from zero at its start to one at
its end. Each edge of the square bounds the stretch of the parameter that lies on its inner side,
and where the stretch ends are the points at which the segment enters and leaves the square. They
are rounded to cells; an end of the segment that is not cut off stays as it is.

The walk goes one step at a time along the longer axis, and sideways whenever the line is more
than half a cell away.
-/

namespace Easel

/-- A straight segment. -/
structure Segment where
  start : Point
  stop : Point
deriving DecidableEq, Repr

/-- A stretch of the parameter along a segment. -/
structure Stretch (K : Type) where
  enter : K
  leave : K

namespace Stretch

variable {K : Type} [Scalar K]

/-- The whole segment. -/
def whole : Stretch K := ⟨Scalar.ofInt 0, Scalar.ofInt 1⟩

/-- The part of the stretch where the parameter `t` fulfils `p * t ≤ q`. -/
def cut? (s : Stretch K) (p q : K) : Option (Stretch K) :=
  if p < Scalar.ofInt 0 then
    let t := q / p
    if s.leave < t then none else some { s with enter := if s.enter < t then t else s.enter }
  else if Scalar.ofInt 0 < p then
    let t := q / p
    if t < s.enter then none else some { s with leave := if t < s.leave then t else s.leave }
  else if q < Scalar.ofInt 0 then none
  else some s

end Stretch

namespace Segment

/-- An integer brought into a range. -/
def clamp (first last n : Int) : Int := max first (min n last)

section

variable (K : Type) [Scalar K]

/-- The stretch of a segment inside the square of coordinates from `first` to `last`. -/
def stretch? (s : Segment) (first last : Int) : Option (Stretch K) := do
  let x : K := Scalar.ofInt s.start.x
  let y : K := Scalar.ofInt s.start.y
  let dx : K := Scalar.ofInt (s.stop.x - s.start.x)
  let dy : K := Scalar.ofInt (s.stop.y - s.start.y)
  let first : K := Scalar.ofInt first
  let last : K := Scalar.ofInt last
  let stretch ← Stretch.whole.cut? (-dx) (x - first)
  let stretch ← stretch.cut? dx (last - x)
  let stretch ← stretch.cut? (-dy) (y - first)
  stretch.cut? dy (last - y)

/-- The cell of the square that is nearest to the point of a segment at a parameter. -/
def cellAt (s : Segment) (first last : Int) (t : K) : Point :=
  let x : K := Scalar.ofInt s.start.x
  let y : K := Scalar.ofInt s.start.y
  let dx : K := Scalar.ofInt (s.stop.x - s.start.x)
  let dy : K := Scalar.ofInt (s.stop.y - s.start.y)
  ⟨clamp first last (Scalar.round (x + t * dx)), clamp first last (Scalar.round (y + t * dy))⟩

/-- The part of a segment inside the square of coordinates from `first` to `last`, if any. -/
def clip? (s : Segment) (first last : Int) : Option Segment :=
  if last < first then none
  else
    (stretch? K s first last).map fun stretch =>
      { start :=
          if Scalar.ofInt 0 < stretch.enter then cellAt K s first last stretch.enter else s.start
        stop :=
          if stretch.leave < Scalar.ofInt 1 then cellAt K s first last stretch.leave else s.stop }

end

/-- A place on a walk, with a measure of how far the line passes from it. -/
structure Step where
  point : Point
  error : Int
deriving DecidableEq, Repr

/-- The distance between the ends of a segment along the first axis. -/
def width (s : Segment) : Int := (s.stop.x - s.start.x).natAbs

/-- The distance between the ends of a segment along the second axis. -/
def height (s : Segment) : Int := (s.stop.y - s.start.y).natAbs

/-- The place at which a walk begins. -/
def firstStep (s : Segment) : Step := ⟨s.start, s.width - s.height⟩

/-- The place after another on a walk: a step along either axis, or along both. -/
def next (s : Segment) (step : Step) : Step :=
  let twice := 2 * step.error
  let across := decide (-s.height ≤ twice)
  let down := decide (twice ≤ s.width)
  let dx := if s.start.x < s.stop.x then 1 else -1
  let dy := if s.start.y < s.stop.y then 1 else -1
  { point := step.point.shift (if across then dx else 0) (if down then dy else 0)
    error := step.error - (if across then s.height else 0) + (if down then s.width else 0) }

/-- The points of a walk after those already passed, which are listed last first. The walk ends at
the end of the segment, which it reaches within `n` steps. -/
def walkFrom (s : Segment) : (n : Nat) → (step : Step) → (passed : List Point) → List Point
  | 0, step, passed => (step.point :: passed).reverse
  | n + 1, step, passed =>
    if step.point = s.stop then (step.point :: passed).reverse
    else s.walkFrom n (s.next step) (step.point :: passed)

/-- The cells along a segment, from its start to its end. -/
def walk (s : Segment) : List Point :=
  s.walkFrom (max s.width s.height).toNat s.firstStep []

end Segment

end Easel
