import Easel.Color
import Easel.Point

/-!
# Canvases

A canvas is a square of cells, each with a color of the palette. Cells are kept row by row from
the top. Painting off the canvas has no effect.

Main statements: a point has a color exactly if it is on the canvas (`Canvas.isSome_get?`), and
painting a point changes no other (`Canvas.get?_set`).
-/

namespace Easel

/-- A square of cells, with the color of those that nothing was painted on. -/
structure Canvas where
  size : Nat
  background : Color
  cells : Vector Color (size * size)
deriving DecidableEq, Repr

/-- Where a square of the given size keeps the cell at a point, if it has one there. -/
def cellIndex? (size : Nat) (p : Point) : Option (Fin (size * size)) :=
  if h : (0 ≤ p.x ∧ p.x < size) ∧ 0 ≤ p.y ∧ p.y < size then
    some ⟨p.y.toNat * size + p.x.toNat, by
      have row : (p.y.toNat + 1) * size ≤ size * size :=
        Nat.mul_le_mul_right size (by omega)
      rw [Nat.add_mul] at row
      omega⟩
  else none

/-- A square keeps a cell exactly for the points within it. -/
theorem isSome_cellIndex? {size : Nat} {p : Point} :
    (cellIndex? size p).isSome ↔ (0 ≤ p.x ∧ p.x < size) ∧ 0 ≤ p.y ∧ p.y < size := by
  simp [cellIndex?]

/-- Different points have different cells. -/
theorem cellIndex?_injective {size : Nat} {p q : Point} {i : Fin (size * size)}
    (hp : cellIndex? size p = some i) (hq : cellIndex? size q = some i) : p = q := by
  simp only [cellIndex?] at hp hq
  split at hp
  · next inp =>
    split at hq
    · next inq =>
      cases hp
      simp only [Option.some.injEq, Fin.mk.injEq] at hq
      have columns : q.x.toNat % size = p.x.toNat % size := by
        have := congrArg (· % size) hq
        simpa [Nat.add_mod] using this
      rw [Nat.mod_eq_of_lt (by omega), Nat.mod_eq_of_lt (by omega)] at columns
      have rows : q.y.toNat * size = p.y.toNat * size := by omega
      have rows := Nat.eq_of_mul_eq_mul_right (by omega) rows
      obtain ⟨px, py⟩ := p
      obtain ⟨qx, qy⟩ := q
      simp only [Point.mk.injEq]
      simp only at columns rows inp inq
      omega
    · cases hq
  · cases hp

namespace Canvas

/-- A canvas that nothing was painted on. -/
def blank (size : Nat) (background : Color) : Canvas :=
  ⟨size, background, Vector.replicate (size * size) background⟩

/-- The greatest number of cells that fit into memory. -/
def maxCells : Nat := 9223372036854775807

/-- A canvas that nothing was painted on, unless its cells do not fit into memory. -/
def ofSize? (size : Nat) (background : Color) : Option Canvas :=
  if size * size ≤ maxCells then some (blank size background) else none

/-- The background of a canvas for which none is given. -/
def defaultBackground : Color := .white

/-- Whether a point is on the canvas. -/
def contains (c : Canvas) (p : Point) : Bool :=
  (cellIndex? c.size p).isSome

/-- The color at a point of the canvas. -/
def get? (c : Canvas) (p : Point) : Option Color :=
  (cellIndex? c.size p).map c.cells.get

/-- Paints one point. -/
def set (c : Canvas) (p : Point) (color : Color) : Canvas :=
  match cellIndex? c.size p with
  | some i => { c with cells := c.cells.set i.val color i.isLt }
  | none => c

/-- Whether a point is on the canvas and has the given color. -/
def isColor (c : Canvas) (p : Point) (color : Color) : Bool :=
  c.get? p == some color

/-- Paints every cell in the background color. -/
def clear (c : Canvas) : Canvas :=
  { c with cells := c.cells.map fun _ => c.background }

/-- A new canvas of another size and with the same background, unless its cells do not fit into
memory. What was painted is lost. -/
def resize? (c : Canvas) (size : Nat) : Option Canvas :=
  ofSize? size c.background

/-- All cells, row by row. -/
def pixels (c : Canvas) : List Color := c.cells.toList

/-- Cuts pieces of the given width off a list of cells. If too few cells are left for a piece, they
are dropped. -/
def pieces (width : Nat) (cells : List Color) : List (List Color) :=
  let piece := cells.take width
  if 0 < width ∧ piece.length = width then piece :: pieces width (cells.drop width) else []
termination_by cells.length
decreasing_by
  next full =>
    rw [List.length_take] at full
    rw [List.length_drop]
    omega

/-- The rows of cells from the top. Without a width, pieces of one cell are cut, of which no row is
made. -/
def rows (c : Canvas) : List (List Color) :=
  (pieces (max c.size 1) c.pixels).take c.size

/-- Paints some points in one color. -/
def paint (c : Canvas) (points : List Point) (color : Color) : Canvas :=
  points.foldl (fun c p => c.set p color) c

/-- The number of points of a color in the rectangle spanned by two corners, which may be given in
any order and may lie off the canvas. -/
def colorCount (c : Canvas) (color : Color) (p q : Point) : Nat :=
  let last : Int := c.size - 1
  let points := pointsBetween (max (min p.x q.x) 0) (min (max p.x q.x) last)
    (max (min p.y q.y) 0) (min (max p.y q.y) last)
  points.countP fun r => c.isColor r color

/-- A point has a color exactly if it is on the canvas. -/
theorem isSome_get? {c : Canvas} {p : Point} :
    (c.get? p).isSome ↔ (0 ≤ p.x ∧ p.x < c.size) ∧ 0 ≤ p.y ∧ p.y < c.size := by
  rw [get?, Option.isSome_map, isSome_cellIndex?]

/-- Setting a cell keeps the size. -/
@[simp]
theorem size_set (c : Canvas) (p : Point) (color : Color) : (c.set p color).size = c.size := by
  unfold set
  split <;> rfl

/-- Setting a cell keeps the background. -/
@[simp]
theorem background_set (c : Canvas) (p : Point) (color : Color) :
    (c.set p color).background = c.background := by
  unfold set
  split <;> rfl

/-- Painting a point of the canvas sets its cell. -/
theorem set_eq {c : Canvas} {p : Point} {i : Fin (c.size * c.size)} (color : Color)
    (found : cellIndex? c.size p = some i) :
    c.set p color = { c with cells := c.cells.set i.val color i.isLt } := by
  simp only [set, found]

/-- Painting off the canvas has no effect. -/
theorem set_eq_self {c : Canvas} {p : Point} (color : Color)
    (missing : cellIndex? c.size p = none) : c.set p color = c := by
  simp only [set, missing]

/-- Which points are on a canvas depends only on its size. -/
theorem contains_congr {c d : Canvas} (same : c.size = d.size) (p : Point) :
    c.contains p = d.contains p := by
  rw [contains, contains, same]

/-- Painting a point gives it the color if it is on the canvas, and changes no other point. -/
theorem get?_set (c : Canvas) (p q : Point) (color : Color) :
    (c.set p color).get? q =
      if q = p ∧ c.contains p then some color else c.get? q := by
  cases found : cellIndex? c.size p with
  | none => simp [set_eq_self color found, contains, found]
  | some i =>
    rw [set_eq color found]
    by_cases same : q = p
    · subst same
      simp only [get?, contains, found, Option.map_some, Option.isSome_some, and_self, if_true]
      exact congrArg some (Vector.getElem_set_self i.isLt)
    · simp only [get?, same, false_and, if_false]
      cases there : cellIndex? c.size q with
      | none => rfl
      | some j =>
        have apart : i.val ≠ j.val := fun h =>
          same (cellIndex?_injective there (by rw [found, Fin.ext h]))
        exact congrArg some (Vector.getElem_set_ne i.isLt j.isLt apart)

/-- Painting points keeps the size. -/
@[simp]
theorem size_paint (c : Canvas) (points : List Point) (color : Color) :
    (c.paint points color).size = c.size := by
  induction points generalizing c with
  | nil => rfl
  | cons p points ih => simpa [paint] using ih (c.set p color)

/-- Painting points keeps the background. -/
@[simp]
theorem background_paint (c : Canvas) (points : List Point) (color : Color) :
    (c.paint points color).background = c.background := by
  induction points generalizing c with
  | nil => rfl
  | cons p points ih => simpa [paint] using ih (c.set p color)

/-- Painting some points gives those on the canvas the color, and changes no other point. -/
theorem get?_paint (c : Canvas) (points : List Point) (q : Point) (color : Color) :
    (c.paint points color).get? q =
      if q ∈ points ∧ c.contains q then some color else c.get? q := by
  induction points generalizing c with
  | nil => simp [paint]
  | cons p points ih =>
    have step : c.paint (p :: points) color = (c.set p color).paint points color := rfl
    have inside := contains_congr (c.size_set p color) q
    rw [step, ih, inside, get?_set]
    by_cases here : q = p
    · subst here
      by_cases on : c.contains q <;> simp [on]
    · simp [here]

end Canvas

end Easel
