import Easel.Command
import Easel.Proofs.Painting

/-!
# What commands can do

With one cursor, a command does the same on every canvas (`Command.Effect`): it is refused before
anything is changed, or it answers a question and changes nothing, or it paints on the canvas and
changes the cursor. The commands are looked at one by one only here (`Command.effect_runIn`). Which
faults they end in, what they leave unchanged, where they move the cursor and what they find out
about the canvas are then read from the three cases.
-/

namespace Easel.Command

/-- The command answers a question about what is painted. -/
def ReadsPixels : Command → Prop
  | getColorCount _ _ _ | isCanvasColor _ _ _ => True
  | _ => False

/-- What a command does with a cursor, or without one, on every canvas. -/
inductive Effect (K : Type) [Scalar K] (command : Command) : Option Cursor → Prop where
  | unspawned :
    (∀ canvas, (command.runIn K).run ⟨canvas, none⟩ = (.error .notSpawned, ⟨canvas, none⟩)) →
    Effect K command none
  | refused {cursor} {fault : Fault} :
    (∀ canvas, (command.runIn K).run ⟨canvas, cursor⟩ = (.error fault, ⟨canvas, cursor⟩)) →
    ((∃ name, fault = .unknownColor name) ∨ ∃ width height, fault = .emptyRectangle width height) →
    Effect K command cursor
  | answered {cursor} {answer : Canvas → Value} :
    (∀ canvas,
      (command.runIn K).run ⟨canvas, cursor⟩ = (.ok (some (answer canvas)), ⟨canvas, cursor⟩)) →
    (¬ command.ReadsPixels →
      ∀ canvas canvas', canvas.size = canvas'.size → answer canvas = answer canvas') →
    Effect K command cursor
  | changed {cursor cursor' : Cursor} {paint : Canvas → Canvas} :
    (∀ canvas,
      (command.runIn K).run ⟨canvas, some cursor⟩ = (.ok none, ⟨paint canvas, some cursor'⟩)) →
    (∀ canvas, Canvas.Painted canvas (paint canvas)) →
    (cursor'.position = cursor.position ∨
      ∃ a b, cursor'.position = ⟨toCoordinate a, toCoordinate b⟩) →
    (cursor'.brush = cursor.brush ∨ ∃ n, command = .size n ∧ cursor'.brush = brushWidth n) →
    Effect K command (some cursor)

/-- Every command has one of these effects. -/
lemma effect_runIn (K : Type) [Scalar K] (command : Command) (cursor : Option Cursor) :
    Effect K command cursor := by
  cases cursor with
  | none =>
    -- without a cursor, only the size of the canvas can be asked for
    cases command with
    | getCanvasSize =>
      refine .answered (fun _ => rfl) fun _ canvas canvas' same => ?_
      rw [same]
    | _ => exact .unspawned fun _ => rfl
  | some c =>
    -- with a cursor, only an unknown color and an empty rectangle are refused
    cases command with
    | color name =>
      cases found : Color.ofName? name with
      | none =>
        refine .refused (fun canvas => ?_) (.inl ⟨name, rfl⟩)
        rw [runIn, found]
        rfl
      | some chosen =>
        have run (canvas) : ((color name).runIn K).run ⟨canvas, some c⟩ =
            (.ok none, ⟨canvas, some { c with color := chosen }⟩) := by
          rw [runIn, found]
          rfl
        exact .changed run (fun _ => .same) (.inl rfl) (.inl rfl)
    | size n =>
      exact .changed (fun _ => rfl) (fun _ => .same) (.inl rfl) (.inr ⟨n, rfl, rfl⟩)
    | drawLine dirX dirY distance =>
      exact .changed (fun _ => rfl) (fun canvas => canvas.painted_drawLineIn c.color c.brush K _)
        (.inr ⟨_, _, rfl⟩) (.inl rfl)
    | drawCircle dirX dirY radius =>
      exact .changed (fun _ => rfl)
        (fun canvas => canvas.painted_drawCircle _ c.color c.brush radius)
        (.inr ⟨_, _, rfl⟩) (.inl rfl)
    | drawRectangle dirX dirY distance width height =>
      by_cases empty : width ≤ 0 ∨ height ≤ 0
      · refine .refused (fun canvas => ?_) (.inr ⟨width, height, rfl⟩)
        simp only [runIn, if_pos empty]
        rfl
      · let centre : Point :=
          ⟨offset c.position.x dirX distance, offset c.position.y dirY distance⟩
        have run (canvas) :
            ((drawRectangle dirX dirY distance width height).runIn K).run ⟨canvas, some c⟩ =
              (.ok none, ⟨canvas.drawRectangleIn K centre width height c.color c.brush,
                some { c with position := centre }⟩) := by
          simp only [runIn, if_neg empty]
          rfl
        exact .changed run
          (fun canvas => canvas.painted_drawRectangleIn centre c.color c.brush K width height)
          (.inr ⟨_, _, rfl⟩) (.inl rfl)
    | fill =>
      exact .changed (fun _ => rfl) (fun canvas => canvas.painted_floodFill c.position c.color)
        (.inl rfl) (.inl rfl)
    | getCanvasSize =>
      refine .answered (fun _ => rfl) fun _ canvas canvas' same => ?_
      rw [same]
    | getColorCount | isCanvasColor =>
      exact .answered (fun _ => rfl) fun blind => absurd trivial blind
    | getActualX | getActualY | isBrushColor | isBrushSize =>
      exact .answered (fun _ => rfl) fun _ _ _ _ => rfl

end Easel.Command
