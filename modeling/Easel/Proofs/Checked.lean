import Easel.Command
import Mathlib.Algebra.Ring.Int.Defs
import Mathlib.Tactic.Lemma

/-!
# Instructions on machine words

The arithmetic of instructions once more, on integers of 64 bits, operation by operation. An
operation that would leave the range has no result, and then the whole instruction has none. Only
the operations that stop at the ends of the range always have one (`Number.saturate`), and so do
roundings of doubles. The square under the root of a circle is computed with 128 bits.

A walk has no result either if it is not over after as many steps as its segment is long.
-/

namespace Easel.Checked

/-- The integers of 64 bits. -/
def IsWord (n : Int) : Prop := Number.minInt ≤ n ∧ n ≤ Number.maxInt

instance (n : Int) : Decidable (IsWord n) := inferInstanceAs (Decidable (_ ∧ _))

/-- The integer, if it has 64 bits. -/
def word (n : Int) : Option Int := if IsWord n then some n else none

/-- The integer, if it has 128 bits. -/
def wide (n : Int) : Option Int :=
  if -2 ^ 127 ≤ n ∧ n < 2 ^ 127 then some n else none

/-- The bounds of 64 bits in figures. -/
lemma isWord_iff {n : Int} :
    IsWord n ↔ -9223372036854775808 ≤ n ∧ n ≤ 9223372036854775807 := Iff.rfl

/-- An integer of 64 bits is kept. -/
lemma word_eq {n : Int} (low : -9223372036854775808 ≤ n) (high : n ≤ 9223372036854775807) :
    word n = some n := if_pos ⟨low, high⟩

/-- An integer of 128 bits is kept. -/
lemma wide_eq {n : Int} (low : -2 ^ 127 ≤ n) (high : n < 2 ^ 127) : wide n = some n :=
  if_pos ⟨low, high⟩

/-- An argument as a coordinate. -/
def intAt (arguments : List Value) (index : Nat) : Option Int := do
  let n ← word ((arguments[index]?.bind Value.asInt?).getD 0)
  return toCoordinate n

/-- The coordinate that is `magnitude` steps of `direction` away. -/
def offset (base direction magnitude : Int) : Int :=
  toCoordinate (Number.saturate (base + Number.saturate (direction * magnitude)))

/-- The odd width of a brush of any given size. -/
def brushWidth (size : Int) : Option Int := do
  let odd ← if size % 2 = 0 then word (size - 1) else pure size
  return max 1 odd

/-- How far a brush reaches from its centre. -/
def brushRadius (size : Int) : Option Int := do
  let width ← brushWidth size
  let sides ← word (width - 1)
  word (sides.tdiv 2)

/-- The last coordinate of a canvas. -/
def lastOf (size : Nat) : Option Int := do
  let n ← word size
  word (n - 1)

/-- The least and the greatest coordinate from which a disk can touch a canvas. -/
def reach (size : Nat) (radius : Int) : Option (Int × Int) := do
  let first ← word (-radius)
  let inside ← lastOf size
  let last ← word (inside + radius)
  return (first, last)

/-- Paints the cell at an offset from the centre of a disk, if it is within the radius. -/
def stampCell (centre : Point) (radius : Int) (color : Color) (c : Canvas) (o : Point) :
    Option Canvas := do
  let xx ← word (o.x * o.x)
  let yy ← word (o.y * o.y)
  let sum ← word (xx + yy)
  let square ← word (radius * radius)
  if sum ≤ square then
    let x ← word (centre.x + o.x)
    let y ← word (centre.y + o.y)
    return c.set ⟨x, y⟩ color
  else return c

/-- Paints a disk. -/
def stampDisk (c : Canvas) (centre : Point) (radius : Int) (color : Color) : Option Canvas := do
  let last ← lastOf c.size
  let back ← word (-radius)
  let left ← word (-centre.x)
  let right ← word (last - centre.x)
  let top ← word (-centre.y)
  let bottom ← word (last - centre.y)
  let offsets := pointsBetween (max back left) (min radius right) (max back top) (min radius bottom)
  offsets.foldlM (stampCell centre radius color) c

/-- Paints with a brush at one point. -/
def stamp (c : Canvas) (centre : Point) (color : Color) (brush : Int) : Option Canvas := do
  let radius ← brushRadius brush
  stampDisk c centre radius color

/-- Paints disks of one radius at several points. -/
def stampAll (c : Canvas) (centres : List Point) (radius : Int) (color : Color) : Option Canvas :=
  centres.foldlM (fun c centre => stampDisk c centre radius color) c

section Segments

open Segment

/-- The cell of the square that is nearest to the point of a segment at a parameter, where `dx` and
`dy` are the differences between its ends. -/
def cellAt (K : Type) [Scalar K] (s : Segment) (dx dy first last : Int) (t : K) : Option Point := do
  let x ← word (Scalar.round (Scalar.ofInt s.start.x + t * Scalar.ofInt dx))
  let y ← word (Scalar.round (Scalar.ofInt s.start.y + t * Scalar.ofInt dy))
  return ⟨clamp first last x, clamp first last y⟩

/-- The part of a segment inside the square of coordinates from `first` to `last`, if any. -/
def clip? (K : Type) [Scalar K] (s : Segment) (first last : Int) : Option (Option Segment) :=
  if last < first then return none
  else do
    let dx ← word (s.stop.x - s.start.x)
    let dy ← word (s.stop.y - s.start.y)
    match s.stretch? K first last with
    | none => return none
    | some stretch =>
      let start ← if Scalar.ofInt 0 < stretch.enter then
        cellAt K s dx dy first last stretch.enter else pure s.start
      let stop ← if stretch.leave < Scalar.ofInt 1 then
        cellAt K s dx dy first last stretch.leave else pure s.stop
      return some ⟨start, stop⟩

/-- The place after another on a walk. The height of the segment is given with a minus. -/
def next (s : Segment) (width depth : Int) (step : Step) : Option Step := do
  let twice ← word (2 * step.error)
  let error ← if depth ≤ twice then word (step.error + depth) else pure step.error
  let x ← if depth ≤ twice then
    word (step.point.x + if s.start.x < s.stop.x then 1 else -1) else pure step.point.x
  let error ← if twice ≤ width then word (error + width) else pure error
  let y ← if twice ≤ width then
    word (step.point.y + if s.start.y < s.stop.y then 1 else -1) else pure step.point.y
  return ⟨⟨x, y⟩, error⟩

/-- The points of a walk after those already passed, which are listed last first. -/
def walkFrom (s : Segment) (width depth : Int) : Nat → Step → List Point → Option (List Point)
  | 0, step, passed => if step.point = s.stop then some (step.point :: passed).reverse else none
  | n + 1, step, passed =>
    if step.point = s.stop then some (step.point :: passed).reverse
    else do
      let after ← next s width depth step
      walkFrom s width depth n after (step.point :: passed)

/-- The cells along a segment, from its start to its end. -/
def walk (s : Segment) : Option (List Point) := do
  let dx ← word (s.stop.x - s.start.x)
  let width ← word dx.natAbs
  let dy ← word (s.stop.y - s.start.y)
  let height ← word dy.natAbs
  let depth ← word (-height)
  let error ← word (width + depth)
  walkFrom s width depth (max width height).toNat ⟨s.start, error⟩ []

/-- Draws a line between two points, both included. -/
def drawLine (c : Canvas) (s : Segment) (color : Color) (brush : Int) : Option Canvas := do
  let radius ← brushRadius brush
  let (first, last) ← reach c.size radius
  match ← clip? Float s first last with
  | none => return c
  | some clipped =>
    let centres ← walk clipped
    stampAll c centres radius color

/-- The four edges of the border of a rectangle around a centre. -/
def rectangleEdges (centre : Point) (width height : Int) : Option (List Segment) := do
  let halfWidth ← word (width.tdiv 2)
  let left ← word (centre.x - halfWidth)
  let halfHeight ← word (height.tdiv 2)
  let top ← word (centre.y - halfHeight)
  let beyond ← word (left + width)
  let right ← word (beyond - 1)
  let below ← word (top + height)
  let bottom ← word (below - 1)
  return [⟨⟨left, top⟩, ⟨right, top⟩⟩, ⟨⟨right, top⟩, ⟨right, bottom⟩⟩,
    ⟨⟨right, bottom⟩, ⟨left, bottom⟩⟩, ⟨⟨left, bottom⟩, ⟨left, top⟩⟩]

/-- Draws the border of a rectangle around a centre. Without a width or a height there is none. -/
def drawRectangle (c : Canvas) (centre : Point) (width height : Int) (color : Color)
    (brush : Int) : Option Canvas :=
  if width ≤ 0 ∨ height ≤ 0 then return c
  else do
    let edges ← rectangleEdges centre width height
    edges.foldlM (fun c edge => drawLine c edge color brush) c

end Segments

section Circles

/-- The column offset of the cell nearest to a circle in the row at offset `y`. The square under the
root has 128 bits. -/
def octantColumn (radius y : Int) : Option Int := do
  let rr ← wide (radius * radius)
  let yy ← wide (y * y)
  let _ ← wide (rr - yy)
  word (Easel.octantColumn radius y)

/-- The windows on both sides of a centre on one axis. -/
def bothSides (first last c : Int) : Option (List Window) := do
  let above ← word (first - c)
  let below ← word (last - c)
  let above' ← word (c - last)
  let below' ← word (c - first)
  return [⟨above, below⟩, ⟨above', below'⟩]

/-- The windows for a centre and a range of coordinates within reach, in increasing order. -/
def around (centre : Point) (first last : Int) : Option (List Window) := do
  let columns ← bothSides first last centre.x
  let rows ← bothSides first last centre.y
  let windows := (columns ++ rows).map fun w => { w with first := max w.first 0 }
  return (windows.filter fun w => w.first ≤ w.last).mergeSort Window.le

/-- Visits up to `n` row offsets from `y` on and puts them before those visited already. -/
def octantRowsFrom (radius : Int) : Nat → Int → List Int → Option (List Int × Bool)
  | 0, _, visited => some (visited, false)
  | n + 1, y, visited => do
    let x ← octantColumn radius y
    if x < y then return (visited, true)
    else
      let next ← word (y + 1)
      octantRowsFrom radius n next (y :: visited)

/-- The row offsets of an eighth of a circle that fall in the windows. -/
def octantRows (radius : Int) : List Window → Int → List Int → Option (List Int)
  | [], _, visited => some visited.reverse
  | w :: windows, next, visited => do
    let first := max w.first next
    let beyond ← word (w.last + 1)
    match ← octantRowsFrom radius (beyond - first).toNat first visited with
    | (visited, true) => return visited.reverse
    | (visited, false) => octantRows radius windows (max next beyond) visited

/-- The point at an offset from another. -/
def shift (p : Point) (dx dy : Int) : Option Point := do
  let x ← word (p.x + dx)
  let y ← word (p.y + dy)
  return ⟨x, y⟩

/-- The eight reflections of the point at an offset from a centre. -/
def reflections (centre : Point) (x y : Int) : Option (List Point) := do
  let x' ← word (-x)
  let y' ← word (-y)
  [(x, y), (y, x), (y', x), (x', y), (x', y'), (y', x'), (y, x'), (x, y')].mapM fun (dx, dy) =>
    shift centre dx dy

/-- Whether a circle comes within reach of a canvas at all, judged by the square around it. -/
def circleInReach (size : Nat) (centre : Point) (radius brush : Int) : Option Bool := do
  let left ← word (centre.x - radius)
  let top ← word (centre.y - radius)
  let right ← word (centre.x + radius)
  let bottom ← word (centre.y + radius)
  let n ← word size
  let limit ← word (n + brush)
  let back ← word (-brush)
  return right ≥ back && bottom ≥ back && left < limit && top < limit

/-- The cells at which a circle is stamped on a canvas of the given size. -/
def circleCentres (size : Nat) (centre : Point) (radius brush : Int) : Option (List Point) := do
  if ← circleInReach size centre radius brush then
    let (first, last) ← reach size brush
    let windows ← around centre first last
    let rows ← octantRows radius windows 0 []
    let points ← rows.mapM fun y => do
      let x ← octantColumn radius y
      reflections centre x y
    return points.flatten
  else return []

/-- Draws a circle around a centre. -/
def drawCircle (c : Canvas) (centre : Point) (radius : Int) (color : Color) (brush : Int) :
    Option Canvas := do
  let radius ← word radius.natAbs
  let reach ← brushRadius brush
  let centres ← circleCentres c.size centre radius reach
  stampAll c centres reach color

end Circles

section Filling

/-- Fills from the points of a stack, of which the first is looked at first. -/
def fillFrom {target color : Color} (distinct : color ≠ target) (c : Canvas)
    (stack : List Point) : Option Canvas :=
  match stack with
  | [] => some c
  | p :: stack =>
    if here : c.get? p = some target then do
      have := Canvas.count_set_lt distinct here
      let right ← shift p 1 0
      let left ← shift p (-1) 0
      let below ← shift p 0 1
      let above ← shift p 0 (-1)
      fillFrom distinct (c.set p color) (above :: below :: left :: right :: stack)
    else fillFrom distinct c stack
termination_by (c.cells.count target, stack.length)

/-- Fills from a seed. -/
def floodFill (c : Canvas) (seed : Point) (color : Color) : Option Canvas :=
  match c.get? seed with
  | none => return c
  | some target =>
    if same : color = target then return c else fillFrom same c [seed]

/-- The number of points of a color in the rectangle spanned by two corners. -/
def colorCount (c : Canvas) (color : Color) (p q : Point) : Option Nat := do
  let last ← lastOf c.size
  let points := pointsBetween (max (min p.x q.x) 0) (min (max p.x q.x) last)
    (max (min p.y q.y) 0) (min (max p.y q.y) last)
  return points.countP fun r => c.isColor r color

end Filling

/-- The command of a call whose arguments fit the signature. -/
def ofCall (instruction : Instruction) (arguments : List Value) : Option Command := do
  let int := intAt arguments
  let text := Command.textAt arguments
  match instruction with
  | .color => return .color (text 0)
  | .size => return .size (← int 0)
  | .drawLine => return .drawLine (← int 0) (← int 1) (← int 2)
  | .drawCircle => return .drawCircle (← int 0) (← int 1) (← int 2)
  | .drawRectangle =>
    return .drawRectangle (← int 0) (← int 1) (← int 2) (← int 3) (← int 4)
  | .fill => return .fill
  | .getActualX => return .getActualX
  | .getActualY => return .getActualY
  | .getCanvasSize => return .getCanvasSize
  | .getColorCount => return .getColorCount (text 0) ⟨← int 1, ← int 2⟩ ⟨← int 3, ← int 4⟩
  | .isBrushColor => return .isBrushColor (text 0)
  | .isBrushSize => return .isBrushSize (← int 0)
  | .isCanvasColor => return .isCanvasColor (text 0) (← int 1) (← int 2)

/-- Carries out a command on a drawing. The commands that are not listed do not compute, and without
a cursor only the width of a brush is computed. -/
def run (command : Command) (d : Drawing) :
    Option (Except Fault (Option Value) × Drawing) :=
  match command, d.cursor with
  | .size brush, cursor => do
    let width ← brushWidth brush
    match cursor with
    | some cursor => return (.ok none, { d with cursor := some { cursor with brush := width } })
    | none => return (.error .notSpawned, d)
  | .drawLine dirX dirY distance, some cursor => do
    let target : Point :=
      ⟨offset cursor.position.x dirX distance, offset cursor.position.y dirY distance⟩
    let canvas ← drawLine d.canvas ⟨cursor.position, target⟩ cursor.color cursor.brush
    return (.ok none, ⟨canvas, some { cursor with position := target }⟩)
  | .drawCircle dirX dirY radius, some cursor => do
    let centre : Point :=
      ⟨offset cursor.position.x dirX radius, offset cursor.position.y dirY radius⟩
    let canvas ← drawCircle d.canvas centre radius cursor.color cursor.brush
    return (.ok none, ⟨canvas, some { cursor with position := centre }⟩)
  | .drawRectangle dirX dirY distance width height, some cursor =>
    if width ≤ 0 ∨ height ≤ 0 then return (.error (.emptyRectangle width height), d)
    else do
      let centre : Point :=
        ⟨offset cursor.position.x dirX distance, offset cursor.position.y dirY distance⟩
      let canvas ← drawRectangle d.canvas centre width height cursor.color cursor.brush
      return (.ok none, ⟨canvas, some { cursor with position := centre }⟩)
  | .fill, some cursor => do
    let canvas ← floodFill d.canvas cursor.position cursor.color
    return (.ok none, { d with canvas })
  | .getColorCount name first second, some _ => do
    let count ← match Color.ofName? name with
      | some sought => colorCount d.canvas sought first second
      | none => pure 0
    return (.ok (some (.ofInt count)), d)
  | .isCanvasColor name vertical horizontal, some cursor =>
    let place : Point := ⟨Number.saturate (cursor.position.x + horizontal),
      Number.saturate (cursor.position.y + vertical)⟩
    let holds := match Color.ofName? name with
      | some sought => d.canvas.isColor place sought
      | none => false
    return (.ok (some (.answer holds)), d)
  | command, _ => return (command.runIn Float).run d

/-- Calls an instruction. -/
def perform (instruction : Instruction) (arguments : List Value) (d : Drawing) :
    Option (Except Fault (Option Value) × Drawing) :=
  match instruction.validate arguments with
  | .error fault => return (.error fault, d)
  | .ok () => do
    let command ← ofCall instruction arguments
    run command d

end Easel.Checked
