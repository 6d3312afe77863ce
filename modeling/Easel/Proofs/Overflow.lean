import Easel.Proofs.CheckedStrokes
import Easel.Proofs.Evaluation

/-!
# No instruction overflows

Calls work with coordinates of at most `2 ^ 31` in either direction, and the cursor is kept within
bounds (`Program.bounded_moment?`). So whatever values a program passes to an instruction, and
whenever it does, all that the instruction computes stays within the range of machine words
(`Program.perform_fits`).
-/

namespace Easel

namespace Checked

section Commands

/-- The command of a call is found without overflow. -/
lemma ofCall_eq (instruction : Instruction) (values : List Value) :
    ofCall instruction values = some (Command.ofCall instruction values) := by
  cases instruction <;> simp only [ofCall, intAt_eq] <;> rfl

/-- The numbers of a command are coordinates. -/
def Limited : Command → Prop
  | .size brush => Coordinate brush
  | .drawLine dirX dirY distance => Coordinate dirX ∧ Coordinate dirY ∧ Coordinate distance
  | .drawCircle dirX dirY radius => Coordinate dirX ∧ Coordinate dirY ∧ Coordinate radius
  | .drawRectangle dirX dirY distance width height =>
    Coordinate dirX ∧ Coordinate dirY ∧ Coordinate distance ∧ Coordinate width ∧ Coordinate height
  | .isCanvasColor _ vertical horizontal => Coordinate vertical ∧ Coordinate horizontal
  | _ => True

/-- The numbers of the command of a call are coordinates. -/
lemma limited_ofCall (instruction : Instruction) (values : List Value) :
    Limited (Command.ofCall instruction values) := by
  have int (i : Nat) : Coordinate (Command.intAt values i) := toCoordinate_bounds _
  cases instruction with
  | size => exact int 0
  | drawLine | drawCircle => exact ⟨int 0, int 1, int 2⟩
  | drawRectangle => exact ⟨int 0, int 1, int 2, int 3, int 4⟩
  | isCanvasColor => exact ⟨int 1, int 2⟩
  | _ => trivial

section Cursors

variable {canvas : Canvas} {cursor : Cursor}

/-- A cursor within bounds is not far from the canvas. -/
lemma within_cursor (small : canvas.size < 2 ^ 32) (bounded : cursor.Bounded canvas.size) :
    Within (2 ^ 32) cursor.position := by
  have hx := bounded.x
  have hy := bounded.y
  unfold Cursor.Reachable at hx hy
  exact ⟨by omega, by omega⟩

/-- Where a stroke leads: the coordinates that are some steps away. -/
def target (cursor : Cursor) (dirX dirY steps : Int) : Point :=
  ⟨Easel.offset cursor.position.x dirX steps, Easel.offset cursor.position.y dirY steps⟩

/-- What a command moves to is a pair of coordinates. -/
lemma within_target (cursor : Cursor) (dirX dirY steps : Int) :
    Within (2 ^ 31) (target cursor dirX dirY steps) :=
  ⟨toCoordinate_bounds _, toCoordinate_bounds _⟩

/-- Where a command moves to is computed without overflow. -/
lemma target_eq {dirX dirY steps : Int} (small : canvas.size < 2 ^ 32)
    (bounded : cursor.Bounded canvas.size) (hx : Coordinate dirX) (hy : Coordinate dirY)
    (hs : Coordinate steps) :
    (⟨offset cursor.position.x dirX steps, offset cursor.position.y dirY steps⟩ : Point) =
      target cursor dirX dirY steps := by
  obtain ⟨nearX, nearY⟩ := within_cursor small bounded
  rw [offset_eq nearX hx hs, offset_eq nearY hy hs, target]

end Cursors

/-- With a cursor within bounds, a command is carried out on machine words. -/
lemma run_eq {command : Command} {d : Drawing} (small : d.canvas.size < 2 ^ 32)
    (bounded : d.Bounded d.canvas.size) (limited : Limited command) :
    run command d = some ((command.runIn Float).run d) := by
  obtain ⟨canvas, _ | cursor⟩ := d
  · cases command with
    | size brush =>
      simp only [run, brushWidth_eq limited.1 limited.2]
      rfl
    | _ => rfl
  have small : canvas.size < 2 ^ 32 := small
  have here : cursor.Bounded canvas.size := bounded.cursor cursor rfl
  have near := within_cursor small here
  obtain ⟨-, positive, narrow⟩ := here.brush
  have thin : -2 ^ 31 ≤ cursor.brush := by omega
  -- all commands find a cursor, the position and the brush of which are bounded
  cases command with
  | size brush =>
    simp only [run, brushWidth_eq limited.1 limited.2]
    rfl
  | drawLine dirX dirY distance =>
    obtain ⟨hx, hy, hd⟩ := limited
    have there := within_target cursor dirX dirY distance
    have ends : Bounded ⟨cursor.position, target cursor dirX dirY distance⟩ :=
      ⟨near.mono (by decide), there.mono (by decide)⟩
    simp only [run, target_eq small here hx hy hd, drawLine_eq small ends thin narrow.le]
    rfl
  | drawCircle dirX dirY radius =>
    obtain ⟨hx, hy, hr⟩ := limited
    have there := within_target cursor dirX dirY radius
    simp only [run, target_eq small here hx hy hr, drawCircle_eq small there hr thin narrow.le]
    rfl
  | drawRectangle dirX dirY distance width height =>
    obtain ⟨hx, hy, hd, hw, hh⟩ := limited
    have there : Within (2 ^ 32) (target cursor dirX dirY distance) :=
      (within_target cursor dirX dirY distance).mono (by decide)
    simp only [run, Command.runIn, target_eq small here hx hy hd,
      drawRectangle_eq small there hw.2 hh.2 thin narrow.le]
    split <;> rfl
  | fill =>
    simp only [run, floodFill_eq small]
    rfl
  | getColorCount name first second =>
    simp only [run, Command.runIn, colorCount_eq small]
    cases Color.ofName? name <;> rfl
  | isCanvasColor name vertical horizontal =>
    obtain ⟨⟨vl, vh⟩, hl, hh⟩ := limited
    obtain ⟨cx, cy⟩ := near
    have column : Number.saturate (cursor.position.x + horizontal) =
        cursor.position.x + horizontal :=
      Number.saturate_eq (by simp only [Number.minInt]; omega) (by simp only [Number.maxInt]; omega)
    have row : Number.saturate (cursor.position.y + vertical) = cursor.position.y + vertical :=
      Number.saturate_eq (by simp only [Number.minInt]; omega) (by simp only [Number.maxInt]; omega)
    simp only [run, Command.runIn, column, row]
    cases Color.ofName? name <;> rfl
  | _ => rfl

/-- A call is carried out without overflow. -/
lemma perform_eq {instruction : Instruction} {values : List Value} {d : Drawing}
    (small : d.canvas.size < 2 ^ 32) (bounded : d.Bounded d.canvas.size) :
    perform instruction values d = some ((instruction.perform values).run d) := by
  rw [perform, Instruction.perform, Instruction.performIn]
  cases instruction.validate values with
  | error fault => rfl
  | ok _ =>
    simp only [ofCall_eq, Option.bind_eq_bind, Option.bind_some]
    exact run_eq small bounded (limited_ofCall instruction values)

end Commands

end Checked

namespace Program

/-- At every moment of a run, on a canvas with fewer than `2 ^ 63` cells, every call of an
instruction can be carried out on machine words, with the same result: no operation of it leaves
their range, whatever values it is given. Evaluating expressions does not change the drawing that
calls work on. -/
theorem perform_fits {p : Program} {canvas : Canvas} {n : Nat} {s : Moment Machine}
    (square : canvas.size ^ 2 < 2 ^ 63) (reached : p.moment? canvas n = some s) :
    (∀ es, ((Machine.evalAll es).run s.state).2.drawing = s.state.drawing) ∧
    ∀ instruction values, Checked.perform instruction values s.state.drawing =
      some ((instruction.perform values).run s.state.drawing) := by
  have bounded := bounded_moment? reached
  have small := Checked.size_lt_of_square square
  have same := bounded.size_eq
  rw [← same] at bounded small
  refine ⟨fun es => ?_, fun instruction values => Checked.perform_eq small bounded⟩
  rw [Machine.looks_evalAll es s.state]

/-- A circle of radius one around the cell on the right of the cursor. -/
theorem perform_fits_circle :
    let p : Program := ⟨#[.spawn (.number 1.0 .start) (.number 1.0 .start) .start]⟩
    let canvas : Canvas := .blank 4 .red
    let values : List Value := [.number 1.0, .number 0.0, .number 1.0]
    canvas.size ^ 2 < 2 ^ 63 ∧ ∃ s, p.moment? canvas 1 = some s ∧
      s.state.drawing.cursor = some ⟨⟨1, 1⟩, .white, 1⟩ ∧
      Checked.perform .drawCircle values s.state.drawing =
        some ((Instruction.drawCircle.perform values).run s.state.drawing) := by
  intro p canvas values
  have square : canvas.size ^ 2 < 2 ^ 63 := by decide
  have placed : ∃ s, p.moment? canvas 1 = some s ∧
      s.state.drawing.cursor = some ⟨⟨1, 1⟩, .white, 1⟩ := ⟨_, rfl, rfl⟩
  obtain ⟨s, reached, there⟩ := placed
  exact ⟨square, s, reached, there, (perform_fits square reached).2 .drawCircle values⟩

end Program

end Easel
