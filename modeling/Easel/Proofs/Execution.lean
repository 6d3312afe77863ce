import Easel.Machine.Run
import Easel.Proofs.CommandEffect
import Easel.Proofs.Evaluation

/-!
# Failing statements

A statement that fails leaves the machine as it was. Its expressions only look at the machine, so
what is left to see is that nothing fails after its first change: a command fails before it draws
(`Command.runIn_error`), the cursor is placed last, and an assignment cannot fail.

In a run, a failing statement thus leaves one diagnostic behind, and nothing else.
-/

namespace Easel

/-- A command that fails leaves the drawing as it was. -/
lemma Command.runIn_error {K : Type} [Scalar K] {command : Command} {d d' : Drawing} {fault : Fault}
    (failed : (command.runIn K).run d = (.error fault, d')) : d' = d := by
  obtain ⟨canvas, cursor⟩ := d
  cases command.effect_runIn K cursor with
  | unspawned run | refused run =>
    rw [run] at failed
    cases failed
    rfl
  | answered run | changed run =>
    rw [run] at failed
    cases failed

/-- A call that fails leaves the drawing as it was. -/
lemma Instruction.perform_error {instruction : Instruction} {arguments : List Value}
    {d d' : Drawing} {fault : Fault}
    (failed : (instruction.perform arguments).run d = (.error fault, d')) : d' = d := by
  rw [perform, performIn] at failed
  split at failed
  · cases failed
    rfl
  · exact Command.runIn_error failed

namespace Machine

variable {α β : Type}

/-- The work leaves the machine as it was if it fails. -/
def FailsClean (x : Action α) : Prop :=
  ∀ m m' d, x.run m = (.error d, m') → m' = m

/-- Work that only looks leaves the machine as it was, also if it fails. -/
lemma Looks.failsClean {x : Action α} (hx : Looks x) : FailsClean x := by
  intro m m' d failed
  have same := hx m
  rw [failed] at same
  exact same

namespace FailsClean

/-- Doing nothing cannot fail. -/
lemma pure (a : α) : FailsClean (Pure.pure a : Action α) := (Looks.pure a).failsClean

/-- Work that only looks may come before work that fails clean. -/
lemma after {x : Action α} {f : α → Action β} (hx : Looks x) (hf : ∀ a, FailsClean (f a)) :
    FailsClean (x >>= f) := by
  intro m m' d failed
  have same := hx m
  rw [run_bind] at failed
  rcases result : x.run m with ⟨e | a, m₁⟩
  · rw [result] at same failed
    cases failed
    exact same
  · rw [result] at same failed
    exact (hf a m₁ m' d failed).trans same

/-- Nothing can fail that comes after the changes. -/
lemma thenPure {x : Action α} (hx : FailsClean x) (b : β) :
    FailsClean (x >>= fun _ => Pure.pure b) := by
  intro m m' d failed
  rw [run_bind] at failed
  rcases result : x.run m with ⟨e | a, m₁⟩
  · rw [result] at failed
    cases failed
    exact hx m m' d result
  · rw [result] at failed
    cases failed

/-- An update cannot fail. -/
lemma update (f : Machine → Machine) : FailsClean (modify f : Action Unit) := by
  intro m m' d failed
  cases failed

/-- A call that fails leaves the machine as it was. -/
lemma invoke (instruction : Instruction) (arguments : List Value) (position : Position) :
    FailsClean (Machine.invoke instruction arguments position) := by
  intro m m' d failed
  rw [run_invoke] at failed
  rcases result : (instruction.perform arguments).run m.drawing with ⟨fault | v, drawing⟩
  · rw [result] at failed
    cases failed
    rw [Instruction.perform_error result]
  · rw [result] at failed
    cases failed

/-- A cursor that cannot be placed leaves the machine as it was. -/
lemma spawn (x y : Int) (position : Position) : FailsClean (Machine.spawn x y position) := by
  intro m m' d failed
  change (if m.drawing.canvas.contains ⟨x, y⟩ then
    modify fun m => { m with drawing.cursor := some (.spawn ⟨x, y⟩) }
    else Machine.fail (.spawnOutside x y m.drawing.canvas.size) position : Action Unit).run m
      = (.error d, m') at failed
  split at failed
  · cases failed
  · cases failed
    rfl

end FailsClean

/-- Evaluating an expression that has to be a number only looks. -/
lemma looks_evalInt (e : Expr) : Looks (evalInt e) := by
  refine (looks_eval e).bind fun v => ?_
  cases v.asInt? with
  | none => exact .fail _ _
  | some n => exact .pure n

/-- A statement that fails leaves the machine as it was. -/
lemma exec_failsClean (labels : NameMap Nat) (stmt : Stmt) : FailsClean (exec labels stmt) := by
  cases stmt with
  | spawn x y position =>
    refine .after (looks_evalInt x) fun x => .after (looks_evalInt y) fun y => ?_
    exact (FailsClean.spawn x y position).thenPure none
  | assign name value position =>
    exact .after (looks_eval value) fun v => (FailsClean.update _).thenPure none
  | label name position => exact .pure none
  | goTo name condition position =>
    refine (Looks.bind (looks_eval condition) fun v => ?_).failsClean
    split
    · cases labels.find? name with
      | none => exact .fail _ _
      | some target => exact .pure _
    · exact .pure none
  | call instruction arguments position =>
    refine .after (looks_evalAll arguments) fun values => ?_
    exact (FailsClean.invoke instruction values position).thenPure none

/-- A run that comes to a failing statement records its fault there. It ends if the fault is fatal,
and goes on with the next statement if not. -/
lemma runFrom_error {statements : Array Stmt} {labels : NameMap Nat} {index : Nat} {stmt : Stmt}
    {m m' : Machine} {d : Diagnostic} (here : statements[index]? = some stmt)
    (failed : (exec labels stmt).run m = (.error d, m')) (limit : Nat) :
    runFrom statements labels (limit + 1) index m =
      if d.isFatal then some (m'.record d index)
      else runFrom statements labels limit (index + 1) (m'.record d index) := by
  rw [runFrom, here]
  simp only [turn, failed]
  cases d.isFatal <;> rfl

/-- A statement that fails leaves the canvas, the cursor, the variables and the earlier diagnostics
as they were. All that a run sees of it is one diagnostic more, with the index of the statement: the
run goes on with the next statement, or ends if the fault is fatal. -/
theorem exec_error_unchanged {labels : NameMap Nat} {stmt : Stmt} {m m' : Machine} {d : Diagnostic}
    (failed : (exec labels stmt).run m = (.error d, m')) :
    m' = m ∧ ∀ (statements : Array Stmt) (index limit : Nat), statements[index]? = some stmt →
      let after := { m with errors := m.errors.push { d with statement := some index } }
      runFrom statements labels (limit + 1) index m =
        if d.isFatal then some after else runFrom statements labels limit (index + 1) after := by
  have same := exec_failsClean labels stmt m m' d failed
  refine ⟨same, fun statements index limit here => ?_⟩
  rw [runFrom_error here failed, same]
  rfl

/-- A call whose last argument has no value fails after the others were evaluated. -/
theorem exec_error_unchanged_argument :
    let stmt : Stmt := .call .drawLine
      [.number 1.0 .start, .call .getActualX [] .start, .call .fill [] .start] .start
    let m : Machine := ⟨⟨.blank 1 .white, some (.spawn ⟨0, 0⟩)⟩, .empty, #[]⟩
    let d := (Fault.noValue .fill).diagnose .start
    (exec .empty stmt).run m = (.error d, m) ∧
      runFrom #[stmt] .empty 2 0 m =
        some { m with errors := #[{ d with statement := some 0 }] } := by
  intro stmt m d
  have failed : (exec .empty stmt).run m = (.error d, m) := rfl
  exact ⟨failed, (exec_error_unchanged failed).2 #[stmt] 0 1 rfl⟩

end Machine

end Easel
