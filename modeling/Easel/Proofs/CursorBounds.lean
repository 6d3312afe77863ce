import Easel.Proofs.Flat
import Easel.Proofs.Painting
import Mathlib.Algebra.Ring.Int.Defs

/-!
# Where the cursor can be

A call that changes a drawing paints on its canvas and moves its cursor to coordinates, or gives it
another brush (`Instruction.perform_changes`). Coordinates and brushes are limited, whatever numbers
a program works with, so at every moment of every run the cursor stays within bounds
(`Program.cursor_bounds`).
-/

namespace Easel

namespace Cursor

/-- A coordinate that a cursor can have on a canvas of the given size. -/
def Reachable (size : Nat) (n : Int) : Prop := -2 ^ 31 ≤ n ∧ n ≤ max (2 ^ 31) ((size : Int) - 1)

/-- A cursor has a proper brush and is not too far from a canvas of the given size. -/
structure Bounded (size : Nat) (c : Cursor) : Prop where
  brush : c.brush % 2 = 1 ∧ 1 ≤ c.brush ∧ c.brush < 2 ^ 31
  x : Reachable size c.position.x
  y : Reachable size c.position.y

end Cursor

/-- Coordinates have 32 bits. -/
lemma toCoordinate_bounds (n : Int) : -2 ^ 31 ≤ toCoordinate n ∧ toCoordinate n ≤ 2 ^ 31 := by
  unfold toCoordinate coordinateLimit
  omega

/-- A cursor can have every coordinate. -/
lemma Cursor.reachable_toCoordinate (size : Nat) (n : Int) : Reachable size (toCoordinate n) := by
  have := toCoordinate_bounds n
  unfold Reachable
  omega

/-- No brush is wider than the greatest coordinate, which is even. -/
lemma brushWidth_lt {n : Int} (le : n ≤ 2 ^ 31) : brushWidth n < 2 ^ 31 := by
  unfold brushWidth
  split <;> omega

/-- Calls ask for brushes that are coordinates. -/
lemma Command.size_ofCall {instruction : Instruction} {values : List Value} {n : Int}
    (called : ofCall instruction values = .size n) : n ≤ 2 ^ 31 := by
  cases instruction <;> cases called
  exact (toCoordinate_bounds _).2

/-- All that a call can do to a drawing: nothing, or with a cursor, it paints on the canvas and
changes the cursor. -/
lemma Instruction.perform_changes (instruction : Instruction) (values : List Value) (d : Drawing) :
    ((instruction.perform values).run d).2 = d ∨
      ∃ c c' canvas, d.cursor = some c ∧
        ((instruction.perform values).run d).2 = ⟨canvas, some c'⟩ ∧ d.canvas.Painted canvas ∧
        (c'.position = c.position ∨ ∃ a b, c'.position = ⟨toCoordinate a, toCoordinate b⟩) ∧
        (c'.brush = c.brush ∨ ∃ n ≤ 2 ^ 31, c'.brush = brushWidth n) := by
  obtain ⟨canvas, cursor⟩ := d
  rw [perform, performIn]
  split
  · exact .inl rfl
  · cases (Command.ofCall instruction values).effect_runIn Float cursor with
    | unspawned run | refused run | answered run =>
      rw [run]
      exact .inl rfl
    | changed run painted position brush =>
      rw [run]
      refine .inr ⟨_, _, _, rfl, rfl, painted canvas, position, brush.imp_right ?_⟩
      rintro ⟨n, called, given⟩
      exact ⟨n, Command.size_ofCall called, given⟩

namespace Drawing

/-- A drawing on a canvas of the given size, the cursor of which is within bounds. -/
structure Bounded (size : Nat) (d : Drawing) : Prop where
  size_eq : d.canvas.size = size
  cursor : ∀ c, d.cursor = some c → c.Bounded size

/-- Instructions keep the cursor within bounds, also if they fail. -/
lemma Bounded.perform {size : Nat} {d : Drawing} (bounded : d.Bounded size)
    (instruction : Instruction) (values : List Value) :
    Bounded size ((instruction.perform values).run d).2 := by
  rcases instruction.perform_changes values d with
    same | ⟨c, c', canvas, placed, changed, painted, position, brush⟩
  · rw [same]
    exact bounded
  · have before := bounded.cursor c placed
    rw [changed]
    refine ⟨painted.size_eq.trans bounded.size_eq, ?_⟩
    rintro _ ⟨⟩
    have there : Cursor.Reachable size c'.position.x ∧ Cursor.Reachable size c'.position.y := by
      rcases position with same | ⟨a, b, moved⟩
      · rw [same]
        exact ⟨before.x, before.y⟩
      · rw [moved]
        exact ⟨Cursor.reachable_toCoordinate size a, Cursor.reachable_toCoordinate size b⟩
    have width : c'.brush % 2 = 1 ∧ 1 ≤ c'.brush ∧ c'.brush < 2 ^ 31 := by
      rcases brush with same | ⟨n, le, given⟩
      · rw [same]
        exact before.brush
      · rw [given]
        obtain ⟨positive, odd⟩ := brushWidth_odd n
        exact ⟨odd, positive, brushWidth_lt le⟩
    exact ⟨width, there.1, there.2⟩

/-- A cursor just placed on a canvas is within bounds. -/
lemma bounded_spawn {size : Nat} {canvas : Canvas} {q : Point} (same : canvas.size = size)
    (inside : canvas.contains q) : Bounded size ⟨canvas, some (.spawn q)⟩ := by
  subst same
  obtain ⟨⟨left, right⟩, top, bottom⟩ := isSome_cellIndex?.mp inside
  refine ⟨rfl, ?_⟩
  rintro _ ⟨⟩
  refine ⟨⟨rfl, by simp [Cursor.spawn], by simp [Cursor.spawn]⟩, ?_, ?_⟩ <;>
    (simp only [Cursor.spawn, Cursor.Reachable]; omega)

end Drawing

namespace FlatMachine

/-- A statement that places the cursor, and succeeds, puts it on the canvas. -/
lemma exec_spawn {labels : NameMap Nat} {m : FlatMachine} {x y : Expr} {position : Position}
    {target : Option Nat} {after : Machine}
    (done : (Machine.exec labels (.spawn x y position)).run m.machine = (.ok target, after)) :
    target = none ∧ ∃ q, after.drawing.canvas.contains q ∧
      after.drawing.cursor = some ⟨q, .white, 1⟩ := by
  rw [run_exec] at done
  rcases result : m.exec labels (.spawn x y position) with d | ⟨target', after'⟩
  · rw [result] at done
    cases done
  · rw [result] at done
    cases done
    obtain ⟨a, -, placed⟩ := bind_eq_ok.mp result
    obtain ⟨b, -, placed⟩ := bind_eq_ok.mp placed
    split at placed
    · next inside =>
      cases placed
      exact ⟨rfl, ⟨a, b⟩, inside, rfl⟩
    · cases placed

/-- A turn keeps the cursor within bounds. -/
lemma bounded_turn {size index : Nat} {labels : NameMap Nat} {stmt : Stmt}
    {m after : FlatMachine} {next : Option Nat} (bounded : m.drawing.Bounded size)
    (turned : turn labels index stmt m = (next, after)) : after.drawing.Bounded size := by
  rcases turn_cases turned with ⟨effect, -⟩ | ⟨d, -, -, rfl⟩
  · cases effect with
    | spawn _ _ inside => exact Drawing.bounded_spawn bounded.size_eq inside
    | @call instruction arguments position values yielded drawing _ performed =>
      have kept := bounded.perform instruction values
      rw [performed] at kept
      exact kept
    | assign | label | goTo => exact bounded
  · exact bounded

end FlatMachine

namespace Program

variable {p : Program} {canvas : Canvas} {n : Nat}

/-- At every moment of a run the cursor is within bounds. -/
lemma bounded_flatMoment? {s : Moment FlatMachine} (reached : p.flatMoment? canvas n = some s) :
    s.state.drawing.Bounded canvas.size := by
  refine Turn.after?_induction (motive := fun s => s.state.drawing.Bounded canvas.size)
    ⟨rfl, nofun⟩ ?_ reached
  intro t u bounded next
  obtain ⟨index, stmt, -, -, turned⟩ := Turn.next?_eq_some next
  exact FlatMachine.bounded_turn bounded turned

/-- At each moment of a run, the cursor is within bounds. -/
lemma bounded_moment? {s : Moment Machine} (reached : p.moment? canvas n = some s) :
    s.state.drawing.Bounded canvas.size := by
  obtain ⟨f, reached', rfl⟩ := flat_of_moment? reached
  exact bounded_flatMoment? reached'

/-- A run goes on after a statement that succeeds and does not jump. -/
lemma moment?_exec {s : Moment Machine} {index : Nat} {stmt : Stmt} {after : Machine}
    (reached : p.moment? canvas n = some s) (here : s.index = some index)
    (found : p.statements[index]? = some stmt)
    (done : (Machine.exec p.labels stmt).run s.state = (.ok none, after)) :
    p.moment? canvas (n + 1) = some ⟨some (index + 1), after⟩ := by
  have turned : Machine.turn p.labels index stmt s.state = (some (index + 1), after) := by
    rw [Machine.turn, done]
  rw [moment?] at reached ⊢
  rw [Turn.after?, reached, Option.bind_some, Turn.next?, here, Option.bind_some, found,
    Option.map_some, turned]

/-- At every moment of a run on a canvas, its size is what it was, and a cursor has an odd brush of
less than `2 ^ 31` and coordinates between `-2 ^ 31` and the greater of `2 ^ 31` and the last of the
canvas. A statement that places the cursor puts it on the canvas, with a white brush of size one. -/
theorem cursor_bounds {s : Moment Machine} (reached : p.moment? canvas n = some s) :
    s.state.drawing.canvas.size = canvas.size ∧
    (∀ c, s.state.drawing.cursor = some c → c.Bounded canvas.size) ∧
    ∀ index x y position target after, s.index = some index →
      p.statements[index]? = some (.spawn x y position) →
      (Machine.exec p.labels (.spawn x y position)).run s.state = (.ok target, after) →
      p.moment? canvas (n + 1) = some ⟨some (index + 1), after⟩ ∧
        ∃ q, after.drawing.canvas.contains q ∧ after.drawing.cursor = some ⟨q, .white, 1⟩ := by
  obtain ⟨f, reached', rfl⟩ := flat_of_moment? reached
  have bounded := bounded_flatMoment? reached'
  refine ⟨bounded.size_eq, bounded.cursor, ?_⟩
  intro index x y position target after here found done
  obtain ⟨rfl, placed⟩ := FlatMachine.exec_spawn done
  exact ⟨moment?_exec reached here found done, placed⟩

/-- The cursor is placed, and then given a brush of size four, which counts as one of size three. -/
theorem cursor_bounds_size :
    let p : Program := ⟨#[.spawn (.number 1.0 .start) (.number 0.0 .start) .start,
      .call .size [.number 4.0 .start] .start]⟩
    let canvas : Canvas := .blank 2 .red
    (∃ s q, p.moment? canvas 1 = some s ∧ s.state.drawing.canvas.contains q ∧
      s.state.drawing.cursor = some ⟨q, .white, 1⟩) ∧
    ∃ s, p.moment? canvas 2 = some s ∧ s.state.drawing.cursor = some ⟨⟨1, 0⟩, .white, 3⟩ ∧
      Cursor.Bounded 2 ⟨⟨1, 0⟩, .white, 3⟩ := by
  intro p canvas
  constructor
  · have first : p.moment? canvas 0 = some ⟨some 0, .start canvas⟩ := rfl
    obtain ⟨next, q, inside, placed⟩ := (cursor_bounds first).2.2 0 _ _ _ _ _ rfl rfl rfl
    exact ⟨_, q, next, inside, placed⟩
  · have second : ∃ s, p.moment? canvas 2 = some s ∧
        s.state.drawing.cursor = some ⟨⟨1, 0⟩, .white, 3⟩ := ⟨_, rfl, rfl⟩
    obtain ⟨s, reached, placed⟩ := second
    exact ⟨s, reached, placed, (cursor_bounds reached).2.1 _ placed⟩

end Program

end Easel
