import Easel.Proofs.Flat
import Easel.Proofs.Painting

/-!
# Programs that do not look at the canvas

Only two instructions answer questions about what is painted. All others, those that draw included,
find out no more about a canvas than its size: on two drawings with the same cursor and canvases of
one size they have the same outcome, and leave two such drawings (`Instruction.perform_alike`).

So two runs of a program without these instructions, on canvases of one size, go through the same
statements and leave the same report, whatever is painted there (`Program.execute_unseen`).
-/

namespace Easel

/-- The drawings differ at most in what is painted and in the background. -/
def Drawing.Alike (d d' : Drawing) : Prop :=
  d.canvas.size = d'.canvas.size ∧ d.cursor = d'.cursor

/-- Commands that do not ask what is painted cannot tell drawings apart that are alike. -/
lemma Command.runIn_alike {K : Type} [Scalar K] {command : Command} (blind : ¬ command.ReadsPixels)
    {d d' : Drawing} (alike : d.Alike d') :
    ((command.runIn K).run d).1 = ((command.runIn K).run d').1 ∧
      ((command.runIn K).run d).2.Alike ((command.runIn K).run d').2 := by
  obtain ⟨canvas, cursor⟩ := d
  obtain ⟨canvas', cursor'⟩ := d'
  obtain ⟨same, rfl⟩ : canvas.size = canvas'.size ∧ cursor = cursor' := alike
  cases command.effect_runIn K cursor with
  | unspawned run | refused run =>
    rw [run, run]
    exact ⟨rfl, same, rfl⟩
  | answered run unseen =>
    rw [run, run, unseen blind canvas canvas' same]
    exact ⟨rfl, same, rfl⟩
  | changed run painted =>
    -- two canvases that are drawn on differ in their cells, but keep their size
    have sizes := (painted canvas).size_eq.trans (same.trans (painted canvas').size_eq.symm)
    rw [run, run]
    exact ⟨rfl, sizes, rfl⟩

/-- The instruction is not one of the two that answer questions about what is painted. -/
def Instruction.Blind (instruction : Instruction) : Prop :=
  instruction ≠ .getColorCount ∧ instruction ≠ .isCanvasColor

/-- Instructions that do not ask what is painted cannot tell drawings apart that are alike. -/
lemma Instruction.perform_alike {instruction : Instruction} (blind : instruction.Blind)
    (values : List Value) {d d' : Drawing} (alike : d.Alike d') :
    ((instruction.perform values).run d).1 = ((instruction.perform values).run d').1 ∧
      ((instruction.perform values).run d).2.Alike ((instruction.perform values).run d').2 := by
  rw [perform, performIn]
  split
  · exact ⟨rfl, alike⟩
  · refine Command.runIn_alike ?_ alike
    cases instruction with
    | getColorCount => cases blind.1 rfl
    | isCanvasColor => cases blind.2 rfl
    | _ => exact id

mutual

/-- The instructions that are called in an expression. -/
def Expr.calls : Expr → List Instruction
  | .number _ _ | .text _ _ | .var _ _ => []
  | .binary left _ right _ => left.calls ++ right.calls
  | .call instruction arguments _ => instruction :: callsOfList arguments

/-- The instructions that are called in some expressions. -/
def Expr.callsOfList : List Expr → List Instruction
  | [] => []
  | e :: rest => e.calls ++ callsOfList rest

end

/-- The instructions that are called in a statement, or by it. -/
def Stmt.calls : Stmt → List Instruction
  | .spawn x y _ => x.calls ++ y.calls
  | .assign _ value _ => value.calls
  | .label _ _ => []
  | .goTo _ condition _ => condition.calls
  | .call instruction arguments _ => instruction :: Expr.callsOfList arguments

/-- The instructions that are called in a program. -/
def Program.calls (p : Program) : List Instruction :=
  p.statements.toList.flatMap Stmt.calls

namespace FlatMachine

/-- The machines differ at most in what is painted and in the background. -/
structure Alike (m m' : FlatMachine) : Prop where
  drawing : m.drawing.Alike m'.drawing
  globals : m.globals = m'.globals
  errors : m.errors = m'.errors

section Alike

variable {m m' : FlatMachine}

/-- A call has the same outcome on machines that are alike. -/
lemma outcome_alike (alike : Alike m m') {instruction : Instruction} (blind : instruction.Blind)
    (values : List Value) (position : Position) :
    m.outcome instruction values position = m'.outcome instruction values position := by
  rw [outcome, (instruction.perform_alike blind values alike.drawing).1, outcome]

mutual

/-- An expression has the same value on machines that are alike. -/
lemma value_alike (alike : Alike m m') :
    ∀ {e : Expr}, (∀ i ∈ e.calls, i.Blind) → m.value e = m'.value e
  | .number n _, _ => by rw [value, value]
  | .text s _, _ => by rw [value, value]
  | .var name position, _ => by rw [value, value, alike.globals]
  | .binary left op right position, blind => by
    rw [Expr.calls] at blind
    obtain ⟨blind, blind'⟩ := List.forall_mem_append.mp blind
    rw [value, value, value_alike alike blind, value_alike alike blind']
  | .call instruction arguments position, blind => by
    rw [Expr.calls] at blind
    obtain ⟨blind, blind'⟩ := List.forall_mem_cons.mp blind
    simp only [value, values_alike alike blind', outcome_alike alike blind]

/-- Expressions have the same values on machines that are alike. -/
lemma values_alike (alike : Alike m m') :
    ∀ {es : List Expr}, (∀ i ∈ Expr.callsOfList es, i.Blind) → m.values es = m'.values es
  | [], _ => by rw [values, values]
  | e :: rest, blind => by
    rw [Expr.callsOfList] at blind
    obtain ⟨blind, blind'⟩ := List.forall_mem_append.mp blind
    rw [values, values, value_alike alike blind, values_alike alike blind']

end

/-- An expression that has to be a number has the same value on machines that are alike. -/
lemma int_alike (alike : Alike m m') {e : Expr} (blind : ∀ i ∈ e.calls, i.Blind) :
    m.int e = m'.int e := by
  rw [int, int, value_alike alike blind]

end Alike

/-- Statements end alike: with the same fault, or with the same jump and in machines that are
alike. -/
inductive EndAlike : Except Diagnostic (Option Nat × FlatMachine) →
    Except Diagnostic (Option Nat × FlatMachine) → Prop where
  | error (d : Diagnostic) :
    EndAlike (.error d) (.error d)
  | ok (target : Option Nat) {m m' : FlatMachine} :
    Alike m m' →
    EndAlike (.ok (target, m)) (.ok (target, m'))

/-- Work in two parts, of which the first has one outcome, ends alike if the second part does. -/
lemma EndAlike.bind {α : Type} (x : Except Diagnostic α)
    {f g : α → Except Diagnostic (Option Nat × FlatMachine)} (rest : ∀ a, EndAlike (f a) (g a)) :
    EndAlike (x >>= f) (x >>= g) := by
  cases x with
  | error d => exact .error d
  | ok a => exact rest a

/-- A statement ends alike on machines that are alike. -/
lemma exec_alike (labels : NameMap Nat) {m m' : FlatMachine} (alike : Alike m m') {stmt : Stmt}
    (blind : ∀ i ∈ stmt.calls, i.Blind) :
    EndAlike (m.exec labels stmt) (m'.exec labels stmt) := by
  cases stmt with
  | spawn x y position =>
    obtain ⟨blind, blind'⟩ := List.forall_mem_append.mp blind
    rw [exec, exec, int_alike alike blind, int_alike alike blind']
    refine .bind _ fun x => .bind _ fun y => ?_
    rw [Canvas.contains_congr alike.drawing.1, alike.drawing.1]
    split
    · exact .ok none ⟨⟨alike.drawing.1, rfl⟩, alike.globals, alike.errors⟩
    · exact .error _
  | assign name e position =>
    rw [exec, exec, value_alike alike blind, alike.globals]
    exact .bind _ fun v => .ok none ⟨alike.drawing, rfl, alike.errors⟩
  | label name position => exact .ok none alike
  | goTo name e position =>
    rw [exec, exec, value_alike alike blind]
    refine .bind _ fun v => ?_
    split
    · cases labels.find? name with
      | none => exact .error _
      | some target => exact .ok _ alike
    · exact .ok none alike
  | call instruction arguments position =>
    obtain ⟨blind, blind'⟩ := List.forall_mem_cons.mp blind
    rw [exec, exec, values_alike alike blind']
    refine .bind _ fun values => ?_
    rw [outcome_alike alike blind]
    refine .bind _ fun _ => .ok none ⟨?_, alike.globals, alike.errors⟩
    exact (instruction.perform_alike blind values alike.drawing).2

/-- Turns agree on machines that are alike. -/
lemma agree_alike {p : Program} (blind : ∀ i ∈ p.calls, i.Blind) :
    Turn.Agree Alike (turn p.labels) (turn p.labels) p.statements := by
  intro index stmt m m' here alike
  have mem : stmt ∈ p.statements.toList := by
    simpa using Array.mem_of_getElem? here
  have ends := exec_alike p.labels alike fun i inside =>
    blind i (List.mem_flatMap.mpr ⟨stmt, mem, inside⟩)
  rw [turn, turn]
  generalize m.exec p.labels stmt = x at ends ⊢
  generalize m'.exec p.labels stmt = y at ends ⊢
  cases ends with
  | error d => exact ⟨rfl, alike.drawing, alike.globals, by rw [alike.errors]⟩
  | ok target after => exact ⟨rfl, after⟩

end FlatMachine

namespace Program

/-- A program that does not ask what is painted does not depend on it. On two canvases of one size,
whatever their colors and backgrounds, its runs go through the same statements, turn by turn. They
end together, and then with the same diagnostics, the same cursor and the same variables. -/
theorem execute_unseen {p : Program}
    (blind : ∀ i ∈ p.calls, i ≠ .getColorCount ∧ i ≠ .isCanvasColor) {canvas canvas' : Canvas}
    (same : canvas.size = canvas'.size) :
    (∀ n, (p.moment? canvas n).map Moment.index = (p.moment? canvas' n).map Moment.index) ∧
      ∀ limit, (p.execute limit canvas).map Prod.fst = (p.execute limit canvas').map Prod.fst := by
  have agree := FlatMachine.agree_alike blind
  have start : FlatMachine.Alike (.start canvas) (.start canvas') := ⟨⟨same, rfl⟩, rfl, rfl⟩
  constructor
  · intro n
    have rel := Turn.after?_rel agree (s := ⟨some 0, .start canvas⟩)
      (t := ⟨some 0, .start canvas'⟩) rfl start n
    rw [moment?_eq_flat, moment?_eq_flat, Option.map_map, Option.map_map]
    exact Turn.map_eq_of_rel rel fun s t now => now.1
  · intro limit
    rw [execute_eq_flat, execute_eq_flat, flatExecute, flatExecute, Option.map_map, Option.map_map]
    refine Turn.map_eq_of_rel (Turn.runFrom_rel agree limit 0 start) fun m m' alike => ?_
    change m.report = m'.report
    rw [FlatMachine.report, alike.errors, alike.drawing.2, alike.globals, FlatMachine.report]

/-- A program that fills is run on two canvases of one size that are painted differently. -/
theorem execute_unseen_fill :
    let zero : Expr := .number 0.0 .start
    let p : Program := ⟨#[.spawn zero zero .start, .call .fill [] .start,
      .assign "x" (.call .getActualX [] .start) .start, .goTo "x" zero .start]⟩
    let canvas : Canvas := .blank 2 .white
    let canvas' : Canvas := (Canvas.blank 2 .red).set ⟨1, 0⟩ .blue
    (∀ i ∈ p.calls, i ≠ .getColorCount ∧ i ≠ .isCanvasColor) ∧ canvas.size = canvas'.size ∧
      ∀ limit, (p.execute limit canvas).map Prod.fst = (p.execute limit canvas').map Prod.fst := by
  intro zero p canvas canvas'
  have blind : ∀ i ∈ p.calls, i ≠ .getColorCount ∧ i ≠ .isCanvasColor := by decide
  have same : canvas.size = canvas'.size := by decide
  exact ⟨blind, same, (execute_unseen blind same).2⟩

end Program

end Easel
