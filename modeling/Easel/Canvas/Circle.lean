import Easel.Brush
import Easel.Number.Parts

/-!
# Circles

A circle is drawn from one eighth of it, in which the row offset `y` runs up from zero for as long
as the column offset `x` is not smaller. Each of its points is reflected into all eight parts.

In each of the reflected points, `y` is the offset on one axis. So only those `y` are visited that
bring the point within reach of the canvas on that axis. They form four windows, one for each axis
and side of the centre; the windows are visited in increasing order and overlaps only once.
-/

namespace Easel

/-- The column offset of the cell nearest to a circle in the row at offset `y`, in doubles. It is
negative in the rows beyond the circle. -/
def octantColumn (radius y : Int) : Int :=
  let square := radius * radius - y * y
  if square < 0 then -1 else Number.toInt (Float.ofInt square).sqrt

/-- A range of row offsets. -/
structure Window where
  first : Int
  last : Int
deriving DecidableEq, Repr

namespace Window

/-- The order of windows by their beginnings, and then by their ends. -/
def le (v w : Window) : Bool :=
  v.first < w.first || (v.first == w.first && v.last ≤ w.last)

/-- The windows for a centre and a range of coordinates within reach, in increasing order. Row
offsets are not negative, and windows without any are left out. -/
def around (centre : Point) (first last : Int) : List Window :=
  let both := fun c : Int => [(⟨first - c, last - c⟩ : Window), ⟨c - last, c - first⟩]
  let windows := (both centre.x ++ both centre.y).map fun w => { w with first := max w.first 0 }
  (windows.filter fun w => w.first ≤ w.last).mergeSort le

end Window

/-- Visits up to `n` row offsets from `y` on and puts them before those visited already. The flag
tells whether the eighth of the circle has ended. -/
def octantRowsFrom (column : Int → Int) : (n : Nat) → (y : Int) → List Int → List Int × Bool
  | 0, _, visited => (visited, false)
  | n + 1, y, visited =>
    if column y < y then (visited, true) else octantRowsFrom column n (y + 1) (y :: visited)

/-- The row offsets of an eighth of a circle that fall in the windows, none below `next`, after
those visited already, which are listed last first. -/
def octantRows (column : Int → Int) : List Window → (next : Int) → List Int → List Int
  | [], _, visited => visited.reverse
  | w :: windows, next, visited =>
    let first := max w.first next
    match octantRowsFrom column (w.last + 1 - first).toNat first visited with
    | (visited, true) => visited.reverse
    | (visited, false) => octantRows column windows (max next (w.last + 1)) visited

/-- The rows of an eighth of a circle are not beyond it. -/
theorem le_octantRowsFrom {column : Int → Int} {n : Nat} :
    ∀ {y : Int} {visited : List Int}, 0 ≤ y → (∀ z ∈ visited, 0 ≤ z ∧ z ≤ column z) →
      ∀ z ∈ (octantRowsFrom column n y visited).1, 0 ≤ z ∧ z ≤ column z := by
  induction n with
  | zero => exact fun _ before => before
  | succ n ih =>
    intro y visited low before
    rw [octantRowsFrom]
    split
    · exact before
    · next inside =>
      exact ih (by omega) (List.forall_mem_cons.mpr ⟨⟨low, Int.not_lt.mp inside⟩, before⟩)

/-- All rows that are visited are rows of the octant. -/
theorem le_octantRows {column : Int → Int} {windows : List Window} :
    ∀ {next : Int} {visited : List Int}, 0 ≤ next → (∀ z ∈ visited, 0 ≤ z ∧ z ≤ column z) →
      ∀ z ∈ octantRows column windows next visited, 0 ≤ z ∧ z ≤ column z := by
  induction windows with
  | nil =>
    intro next visited low before z mem
    exact before z (List.mem_reverse.mp mem)
  | cons w windows ih =>
    intro next visited low before z mem
    have visited' := le_octantRowsFrom (n := (w.last + 1 - max w.first next).toNat)
      (by omega : 0 ≤ max w.first next) before
    rw [octantRows] at mem
    rcases rows : octantRowsFrom column (w.last + 1 - max w.first next).toNat
      (max w.first next) visited with ⟨rest, _ | _⟩
    · rw [rows] at mem visited'
      exact ih (by omega) visited' z mem
    · rw [rows] at mem visited'
      exact visited' z (List.mem_reverse.mp mem)

/-- The eight reflections of the point at an offset from a centre. -/
def reflections (centre : Point) (x y : Int) : List Point :=
  [centre.shift x y, centre.shift y x, centre.shift (-y) x, centre.shift (-x) y,
    centre.shift (-x) (-y), centre.shift (-y) (-x), centre.shift y (-x), centre.shift x (-y)]

/-- Whether a circle comes within reach of a canvas at all, judged by the square around it. -/
def circleInReach (size : Nat) (centre : Point) (radius : Int) (brush : Nat) : Bool :=
  let limit : Int := size + brush
  centre.x + radius ≥ -brush && centre.y + radius ≥ -brush &&
    centre.x - radius < limit && centre.y - radius < limit

/-- The cells at which a circle is stamped on a canvas of the given size, with the column offsets
left open. -/
def circleCentres (column : Int → Int → Int) (size : Nat) (centre : Point) (radius : Int)
    (brush : Nat) : List Point :=
  if circleInReach size centre radius brush then
    let windows := Window.around centre (reachFirst brush) (reachLast size brush)
    (octantRows (column radius) windows 0 []).flatMap fun y =>
      reflections centre (column radius y) y
  else []

namespace Canvas

/-- Draws a circle, with the column offsets left open. -/
def drawCircleWith (column : Int → Int → Int) (c : Canvas) (centre : Point) (radius : Int)
    (color : Color) (brush : Int) : Canvas :=
  let reach := brushRadius brush
  c.stampAll (circleCentres column c.size centre radius.natAbs reach) reach color

/-- Draws a circle around a centre. The sign of the radius does not matter, and a circle of radius
zero is a single stamp. -/
def drawCircle (c : Canvas) (centre : Point) (radius : Int) (color : Color) (brush : Int) :
    Canvas :=
  c.drawCircleWith octantColumn centre radius color brush

end Canvas

end Easel
