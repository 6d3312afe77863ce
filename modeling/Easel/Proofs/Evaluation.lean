import Easel.Machine
import Easel.Proofs.Outcome
import Mathlib.Tactic.Lemma

/-!
# Expressions have no effects

An expression is evaluated by looking at the machine only. A query binds its parameters for the time
of the call, and takes the binding back (`Scope.pop_enter`); beyond that it changes nothing
(`Instruction.perform_query`). The instructions that can change a drawing are exactly those without
a value (`Instruction.changes_iff`), and these are never carried out in an expression: its value
does not depend on what they do (`Machine.evalBy_eq`).
-/

namespace Easel

/-- A call that has begun and ended leaves the variables as they were. -/
lemma Scope.pop_enter (s : Scope) (bindings : List (String × Value)) :
    (s.enter bindings).pop = s := by
  -- only the frame on top grows while the parameters are declared
  have frames : ∀ (bindings : List (String × Value)) (frame : Frame),
      ∃ frame', bindings.foldl (fun s binding => s.declare binding.1 binding.2)
        { s with calls := frame :: s.calls } = { s with calls := frame' :: s.calls } := by
    intro bindings
    induction bindings with
    | nil => exact fun frame => ⟨frame, rfl⟩
    | cons binding bindings ih => exact fun frame => ih (frame.insert binding.1 binding.2)
  obtain ⟨frame, entered⟩ := frames bindings .empty
  rw [enter, push, entered, pop]
  rfl

namespace Instruction

/-- A query leaves the drawing as it was, also if it fails. -/
lemma perform_query {instruction : Instruction} (query : instruction.yieldsValue)
    (arguments : List Value) (d : Drawing) :
    ((instruction.perform arguments).run d).2 = d := by
  rw [perform, performIn]
  split
  · rfl
  · obtain ⟨canvas, cursor⟩ := d
    cases instruction with
    | color | size | drawLine | drawCircle | drawRectangle | fill => cases query
    | _ => cases cursor <;> rfl

/-- The instruction can change a drawing: its canvas or its cursor. -/
def Changes (instruction : Instruction) : Prop :=
  ∃ arguments d, ((instruction.perform arguments).run d).2 ≠ d

/-- On a canvas with one cell, filling is painting that cell. -/
lemma floodFill_cell :
    (Canvas.blank 1 .white).floodFill ⟨0, 0⟩ .red = (Canvas.blank 1 .white).set ⟨0, 0⟩ .red := by
  change Canvas.fillFrom (show Color.red ≠ .white by decide) (.blank 1 .white) [⟨0, 0⟩] = _
  rw [Canvas.fillFrom, dif_pos (by decide)]
  iterate 4 rw [Canvas.fillFrom, dif_neg (by decide)]
  rw [Canvas.fillFrom]

/-- The instructions that can change a drawing are those that yield no value. -/
lemma changes_iff (instruction : Instruction) :
    instruction.Changes ↔ ¬ instruction.yieldsValue := by
  constructor
  · rintro ⟨arguments, d, changed⟩ query
    exact changed (perform_query query arguments d)
  · intro drawing
    let cell : Drawing := ⟨.blank 1 .white, some ⟨⟨0, 0⟩, .red, 1⟩⟩
    let one : Value := .number 1.0
    cases instruction with
    | color => exact ⟨[.text "Blue"], cell, by decide +kernel⟩
    | size => exact ⟨[.number 3.0], cell, by decide +kernel⟩
    | drawLine => exact ⟨[one, one, one], cell, by decide +kernel⟩
    | drawCircle =>
      refine ⟨[one, one, one], cell, fun same => ?_⟩
      exact absurd (congrArg Drawing.cursor same) (by decide +kernel)
    | drawRectangle => exact ⟨[one, one, one, one, one], cell, by decide +kernel⟩
    | fill =>
      refine ⟨[], cell, ?_⟩
      change (⟨(Canvas.blank 1 .white).floodFill ⟨0, 0⟩ .red, _⟩ : Drawing) ≠ cell
      rw [floodFill_cell]
      decide +kernel
    | _ => cases drawing rfl

end Instruction

namespace Machine

variable {α β : Type}

/-- An outcome gets a place if it is a fault, and the machine stays as it is. -/
lemma run_located (position : Position) (outcome : Except Fault α) (m : Machine) :
    (located position outcome).run m = (outcome.mapError (·.diagnose position), m) := by
  cases outcome <;> rfl

/-- An update changes the machine as it says. -/
lemma run_modify (f : Machine → Machine) (m : Machine) :
    (modify f : Action Unit).run m = (.ok (), f m) := rfl

/-- An update that yields something changes the machine as it says. -/
lemma run_modifyGet (f : Machine → α × Machine) (m : Machine) :
    (modifyGet f : Action α).run m = (.ok (f m).1, (f m).2) := rfl

/-- What a call leaves behind is only what the instruction did to the drawing. -/
lemma run_invoke (instruction : Instruction) (arguments : List Value) (position : Position)
    (m : Machine) :
    (invoke instruction arguments position).run m =
      (((instruction.perform arguments).run m.drawing).1.mapError (·.diagnose position),
        { m with drawing := ((instruction.perform arguments).run m.drawing).2 }) := by
  simp only [invoke, run_bind, run_modify, run_modifyGet, run_located]
  rcases (instruction.perform arguments).run m.drawing with ⟨outcome, drawing⟩
  simp only [Scope.pop_enter]

/-- The work only looks at the machine: it leaves it as it was, whether it succeeds or fails. -/
def Looks (x : Action α) : Prop := ∀ m, (x.run m).2 = m

namespace Looks

/-- Doing nothing only looks. -/
lemma pure (a : α) : Looks (Pure.pure a : Action α) := fun _ => rfl

/-- Failing only looks. -/
lemma fail (fault : Fault) (position : Position) : Looks (Machine.fail fault position : Action α) :=
  fun _ => rfl

/-- An outcome with a place only looks. -/
lemma located (position : Position) (outcome : Except Fault α) :
    Looks (Machine.located position outcome) := by
  intro m
  rw [run_located]

/-- Work in two parts that only look only looks. -/
lemma bind {x : Action α} {f : α → Action β} (hx : Looks x) (hf : ∀ a, Looks (f a)) :
    Looks (x >>= f) := by
  intro m
  have same := hx m
  rw [run_bind]
  rcases result : x.run m with ⟨d | a, m'⟩
  · rw [result] at same
    exact same
  · rw [result] at same
    exact (hf a m').trans same

/-- A query only looks. -/
lemma invoke {instruction : Instruction} (query : instruction.yieldsValue)
    (arguments : List Value) (position : Position) :
    Looks (Machine.invoke instruction arguments position) := by
  intro m
  rw [run_invoke, Instruction.perform_query query]

end Looks

mutual

/-- The value of an expression is found by looking only. -/
lemma looks_eval : ∀ e : Expr, Looks (eval e)
  | .number n _ => by
    rw [eval]
    exact .pure _
  | .text s _ => by
    rw [eval]
    exact .pure _
  | .var name position => by
    rw [eval]
    intro m
    change ((match m.scope.get? name with
      | some v => Pure.pure v
      | none => Machine.fail (.undefinedVariable name) position : Action Value).run m).2 = m
    cases m.scope.get? name <;> rfl
  | .binary left op right position => by
    rw [eval]
    exact (looks_eval left).bind fun v => (looks_eval right).bind fun w => .located _ _
  | .call instruction arguments position => by
    rw [eval]
    split
    case isTrue query =>
      refine (looks_evalAll arguments).bind fun values => ?_
      refine (Looks.invoke query values position).bind fun result => ?_
      cases result with
      | none => exact .fail _ _
      | some v => exact .pure v
    case isFalse => exact .fail _ _

/-- Evaluating expressions only looks. -/
lemma looks_evalAll : ∀ es : List Expr, Looks (evalAll es)
  | [] => by
    rw [evalAll]
    exact .pure _
  | e :: rest => by
    rw [evalAll]
    exact (looks_eval e).bind fun v => (looks_evalAll rest).bind fun vs => .pure _

end

/-- What each instruction does to a drawing. -/
abbrev Practice := Instruction → List Value → Sketch (Option Value)

/-- Calls an instruction in a given practice. -/
def invokeBy (practice : Practice) (instruction : Instruction) (arguments : List Value)
    (position : Position) : Action (Option Value) := do
  let names := instruction.parameters.map Parameter.name
  modify fun m => { m with scope := m.scope.enter (names.zip arguments) }
  let outcome ← modifyGet fun m =>
    let (outcome, drawing) := (practice instruction arguments).run m.drawing
    (outcome, { m with drawing })
  modify fun m => { m with scope := m.scope.pop }
  located position outcome

mutual

/-- The value of an expression in a given practice. -/
def evalBy (practice : Practice) : Expr → Action Value
  | .number n _ => return .number n
  | .text s _ => return .text s
  | .var name position => do
    match (← get).scope.get? name with
    | some v => return v
    | none => fail (.undefinedVariable name) position
  | .binary left op right position => do
    let v ← evalBy practice left
    let w ← evalBy practice right
    located position (op.apply v w)
  | .call instruction arguments position => do
    if instruction.yieldsValue then
      let values ← evalAllBy practice arguments
      match ← invokeBy practice instruction values position with
      | some v => return v
      | none => fail (.valueMissing instruction) position
    else fail (.noValue instruction) position

/-- The values of some expressions in a given practice. -/
def evalAllBy (practice : Practice) : List Expr → Action (List Value)
  | [] => return []
  | e :: rest => do
    let v ← evalBy practice e
    let vs ← evalAllBy practice rest
    return v :: vs

end

mutual

/-- Only what queries do counts for the value of an expression. -/
lemma evalBy_eq {practice : Practice}
    (agrees : ∀ i : Instruction, i.yieldsValue → practice i = i.perform) :
    ∀ e, evalBy practice e = eval e
  | .number n _ => by rw [evalBy, eval]
  | .text s _ => by rw [evalBy, eval]
  | .var name position => by
    rw [evalBy]
    rfl
  | .binary left op right position => by
    rw [evalBy, eval, evalBy_eq agrees left, evalBy_eq agrees right]
  | .call instruction arguments position => by
    rw [evalBy, eval, evalAllBy_eq agrees arguments]
    split
    case isTrue query =>
      have same (values : List Value) :
          invokeBy practice instruction values position = invoke instruction values position := by
        change _ = invokeBy Instruction.perform instruction values position
        rw [invokeBy, invokeBy, agrees instruction query]
      refine bind_congr fun values => ?_
      exact congrArg (· >>= _) (same values)
    case isFalse => rfl

/-- The values of expressions do not depend on what the instructions without a value do. -/
lemma evalAllBy_eq {practice : Practice}
    (agrees : ∀ i : Instruction, i.yieldsValue → practice i = i.perform) :
    ∀ es, evalAllBy practice es = evalAll es
  | [] => by rw [evalAllBy, evalAll]
  | e :: rest => by
    rw [evalAllBy, evalAll, evalBy_eq agrees e, evalAllBy_eq agrees rest]

end

/-- Evaluating an expression leaves the machine as it was, whether it yields a value or fails. What
the instructions do that can change a drawing makes no difference to it: none of them is carried
out, however deep in the expression it stands. -/
theorem eval_unchanged (e : Expr) (m : Machine) :
    ((eval e).run m).2 = m ∧
      ∀ practice : Practice, (∀ i : Instruction, ¬ i.Changes → practice i = i.perform) →
        (evalBy practice e).run m = (eval e).run m := by
  refine ⟨looks_eval e m, fun practice agrees => ?_⟩
  have queries (i : Instruction) (query : i.yieldsValue) : practice i = i.perform :=
    agrees i fun changes => (i.changes_iff.mp changes) query
  rw [evalBy_eq queries]

/-- Inside of a query stands an instruction without a value, which would clear the canvas. -/
theorem eval_unchanged_clearing :
    let clearing : Practice := fun i =>
      if i.yieldsValue then i.perform else fun _ => do
        Sketch.draw Canvas.clear
        return none
    let e : Expr := .call .isBrushSize
      [.binary (.call .getCanvasSize [] .start) .add (.call .fill [] .start) .start] .start
    let m : Machine := start (.blank 1 .red)
    (∀ i : Instruction, ¬ i.Changes → clearing i = i.perform) ∧
      (evalBy clearing e).run m = (eval e).run m := by
  intro clearing e m
  have agrees (i : Instruction) (changes : ¬ i.Changes) : clearing i = i.perform :=
    if_pos (Decidable.not_not.mp fun drawing => changes (i.changes_iff.mpr drawing))
  exact ⟨agrees, (eval_unchanged e m).2 clearing agrees⟩

end Machine

end Easel
