import Easel.Proofs.Execution
import Easel.Proofs.Outcome
import Easel.Proofs.Trace
import Mathlib.Tactic.Lemma

/-!
# Machines without frames

A flat machine keeps all variables in one map. It never begins a call: an instruction is given its
values and the drawing, and nothing else. An expression has a value in a flat machine
(`FlatMachine.value`), or a fault; it cannot change anything. A statement leads to another flat
machine, or to a fault (`FlatMachine.exec`).

Each turn of a machine that has no call under way is the turn of the flat machine with the same
variables (`FlatMachine.turn_machine`). So whole runs are runs of flat machines
(`Program.moment?_eq_flat`, `Program.execute_eq_flat`), and facts about them are proved there.
-/

namespace Easel

/-- The cursor is placed on the canvas, or a fault is reported. -/
lemma Machine.run_spawn (x y : Int) (position : Position) (m : Machine) :
    (spawn x y position).run m =
      if m.drawing.canvas.contains ⟨x, y⟩ then
        (.ok (), { m with drawing.cursor := some (.spawn ⟨x, y⟩) })
      else (.error ((Fault.spawnOutside x y m.drawing.canvas.size).diagnose position), m) := by
  change (if m.drawing.canvas.contains ⟨x, y⟩ then _ else _ : Action Unit).run m = _
  split <;> rfl

/-- The state of a running program, with its variables in one map. -/
structure FlatMachine where
  drawing : Drawing
  globals : NameMap Value
  errors : Array Diagnostic

namespace FlatMachine

/-- A machine at the beginning of a run on a canvas. -/
def start (canvas : Canvas) : FlatMachine := ⟨⟨canvas, none⟩, .empty, #[]⟩

/-- What an instruction yields for the given values. -/
def outcome (m : FlatMachine) (instruction : Instruction) (values : List Value)
    (position : Position) : Except Diagnostic (Option Value) :=
  ((instruction.perform values).run m.drawing).1.mapError (·.diagnose position)

mutual

/-- The value of an expression. -/
def value (m : FlatMachine) : Expr → Except Diagnostic Value
  | .number n _ => return .number n
  | .text s _ => return .text s
  | .var name position =>
    match m.globals.find? name with
    | some v => return v
    | none => throw ((Fault.undefinedVariable name).diagnose position)
  | .binary left op right position => do
    let v ← m.value left
    let w ← m.value right
    (op.apply v w).mapError (·.diagnose position)
  | .call instruction arguments position => do
    if instruction.yieldsValue then
      let values ← m.values arguments
      match ← m.outcome instruction values position with
      | some v => return v
      | none => throw ((Fault.valueMissing instruction).diagnose position)
    else throw ((Fault.noValue instruction).diagnose position)

/-- The values of some expressions. -/
def values (m : FlatMachine) : List Expr → Except Diagnostic (List Value)
  | [] => return []
  | e :: rest => do
    let v ← m.value e
    let vs ← m.values rest
    return v :: vs

end

/-- The integer nearest to the value of an expression. -/
def int (m : FlatMachine) (e : Expr) : Except Diagnostic Int := do
  let v ← m.value e
  match v.asInt? with
  | some n => return n
  | none => throw ((Fault.notANumber v.kind).diagnose e.position)

/-- Carries out a statement: which statement it jumps to, if any, and the machine afterwards. -/
def exec (labels : NameMap Nat) (m : FlatMachine) :
    Stmt → Except Diagnostic (Option Nat × FlatMachine)
  | .spawn x y position => do
    let x ← m.int x
    let y ← m.int y
    if m.drawing.canvas.contains ⟨x, y⟩ then
      return (none, { m with drawing.cursor := some (.spawn ⟨x, y⟩) })
    else throw ((Fault.spawnOutside x y m.drawing.canvas.size).diagnose position)
  | .assign name value _ => do
    let v ← m.value value
    return (none, { m with globals := m.globals.insert name v })
  | .label _ _ => return (none, m)
  | .goTo label condition position => do
    let v ← m.value condition
    if v.isTruthy then
      match labels.find? label with
      | some target => return (some target, m)
      | none => throw ((Fault.undefinedLabel label).diagnose position)
    else return (none, m)
  | .call instruction arguments position => do
    let values ← m.values arguments
    let _ ← m.outcome instruction values position
    return (none, { m with drawing := ((instruction.perform values).run m.drawing).2 })

/-- Carries out the statement with the given index, and records its fault if it fails. -/
def turn (labels : NameMap Nat) : Turn FlatMachine := fun index stmt m =>
  match m.exec labels stmt with
  | .ok (target, m) => (some (target.getD (index + 1)), m)
  | .error d =>
    (if d.isFatal then none else some (index + 1),
      { m with errors := m.errors.push (d.atStatement index) })

/-- The report on a machine that has stopped. -/
def report (m : FlatMachine) : Report := ⟨m.errors.toList, m.drawing.cursor, m.globals⟩

/-- The machine that has the variables in its only frame. -/
def machine (m : FlatMachine) : Machine := ⟨m.drawing, ⟨[], m.globals⟩, m.errors⟩

/-- Without calls under way, a variable is a global one. -/
lemma get?_machine (m : FlatMachine) (name : String) :
    m.machine.scope.get? name = m.globals.find? name := by
  change [m.globals].findSome? (NameMap.find? · name) = _
  cases found : m.globals.find? name <;> simp [found]

/-- Without calls under way, an assignment is a global one. -/
lemma assign_machine (m : FlatMachine) (name : String) (v : Value) :
    m.machine.scope.assign name v = ⟨[], m.globals.insert name v⟩ := by
  change (if m.globals.contains name then _ else _) = _
  split <;> rfl

section Eval

variable {α β : Type} {m : FlatMachine} {x : Action α}

/-- Work that goes on after work without effects. -/
lemma run_bind_pure {f : α → Action β} {r : Except Diagnostic α} {g : α → Except Diagnostic β}
    (first : x.run m.machine = (r, m.machine))
    (rest : ∀ a, (f a).run m.machine = (g a, m.machine)) :
    (x >>= f).run m.machine = (r >>= g, m.machine) := by
  rw [run_bind, first]
  cases r with
  | error d => rfl
  | ok a => exact rest a

/-- A query has the same outcome on a flat machine, and changes nothing. -/
lemma run_query {instruction : Instruction} (query : instruction.yieldsValue)
    (values : List Value) (position : Position) :
    (Machine.invoke instruction values position).run m.machine =
      (m.outcome instruction values position, m.machine) := by
  rw [Machine.run_invoke, Instruction.perform_query query]
  rfl

mutual

/-- Evaluation gives the value in the flat machine. -/
lemma run_eval (m : FlatMachine) : ∀ e, (Machine.eval e).run m.machine = (m.value e, m.machine)
  | .number n _ => by
    rw [Machine.eval, value]
    rfl
  | .text s _ => by
    rw [Machine.eval, value]
    rfl
  | .var name position => by
    rw [Machine.eval, value]
    change (match m.machine.scope.get? name with
      | some v => pure v
      | none => Machine.fail (.undefinedVariable name) position : Action Value).run m.machine = _
    rw [get?_machine]
    cases m.globals.find? name <;> rfl
  | .binary left op right position => by
    rw [Machine.eval, value]
    refine run_bind_pure (run_eval m left) fun v => run_bind_pure (run_eval m right) fun w => ?_
    exact Machine.run_located position (op.apply v w) m.machine
  | .call instruction arguments position => by
    rw [Machine.eval, value]
    split
    case isTrue query =>
      refine run_bind_pure (run_evalAll m arguments) fun values => ?_
      refine run_bind_pure (run_query query values position) fun result => ?_
      cases result <;> rfl
    case isFalse => rfl

/-- Expressions have the same values on a flat machine. -/
lemma run_evalAll (m : FlatMachine) :
    ∀ es, (Machine.evalAll es).run m.machine = (m.values es, m.machine)
  | [] => by
    rw [Machine.evalAll, values]
    rfl
  | e :: rest => by
    rw [Machine.evalAll, values]
    exact run_bind_pure (run_eval m e) fun v => run_bind_pure (run_evalAll m rest) fun vs => rfl

end

/-- An expression that has to be a number has the same value on a flat machine. -/
lemma run_evalInt (m : FlatMachine) (e : Expr) :
    (Machine.evalInt e).run m.machine = (m.int e, m.machine) := by
  refine run_bind_pure (run_eval m e) fun v => ?_
  cases v.asInt? <;> rfl

end Eval

/-- What a machine makes of the outcome of a statement: after a fault it is as it was. -/
def settle (m : FlatMachine) : Except Diagnostic (Option Nat × FlatMachine) →
    Except Diagnostic (Option Nat) × Machine
  | .ok (target, after) => (.ok target, after.machine)
  | .error d => (.error d, m.machine)

/-- Work in two parts, of which the first only looks, settles as its second part does. -/
lemma run_bind_settle {α : Type} {m : FlatMachine} {x : Action α} {f : α → Action (Option Nat)}
    {r : Except Diagnostic α} {g : α → Except Diagnostic (Option Nat × FlatMachine)}
    (first : x.run m.machine = (r, m.machine))
    (rest : ∀ a, (f a).run m.machine = m.settle (g a)) :
    (x >>= f).run m.machine = m.settle (r >>= g) := by
  rw [run_bind, first]
  cases r with
  | error d => rfl
  | ok a => exact rest a

/-- A statement does to a machine what it does to the flat machine. -/
lemma run_exec (labels : NameMap Nat) (m : FlatMachine) (stmt : Stmt) :
    (Machine.exec labels stmt).run m.machine = m.settle (m.exec labels stmt) := by
  cases stmt with
  | spawn x y position =>
    refine run_bind_settle (run_evalInt m x) fun x => run_bind_settle (run_evalInt m y) fun y => ?_
    change (Machine.spawn x y position >>= fun _ => pure none).run m.machine = _
    rw [run_bind, Machine.run_spawn]
    by_cases inside : m.drawing.canvas.contains ⟨x, y⟩
    · rw [if_pos inside, if_pos (show m.machine.drawing.canvas.contains ⟨x, y⟩ from inside)]
      rfl
    · rw [if_neg inside, if_neg (show ¬ m.machine.drawing.canvas.contains ⟨x, y⟩ from inside)]
      rfl
  | assign name value position =>
    refine run_bind_settle (run_eval m value) fun v => ?_
    change (_, { m.machine with scope := m.machine.scope.assign name v }) = _
    rw [assign_machine]
    rfl
  | label name position => rfl
  | goTo name condition position =>
    refine run_bind_settle (run_eval m condition) fun v => ?_
    split
    · cases labels.find? name <;> rfl
    · rfl
  | call instruction arguments position =>
    refine run_bind_settle (run_evalAll m arguments) fun values => ?_
    change (Machine.invoke instruction values position >>= fun _ => pure none).run m.machine = _
    rw [run_bind, Machine.run_invoke, outcome, show m.machine.drawing = m.drawing from rfl]
    rcases result : (instruction.perform values).run m.drawing with ⟨fault | yielded, drawing⟩
    · -- a call that fails has not drawn
      rw [Instruction.perform_error result]
      rfl
    · rfl

/-- A turn of a machine without calls under way is a turn of the flat machine. -/
lemma turn_machine (labels : NameMap Nat) (index : Nat) (stmt : Stmt) (m : FlatMachine) :
    Machine.turn labels index stmt m.machine =
      ((turn labels index stmt m).1, (turn labels index stmt m).2.machine) := by
  rw [Machine.turn, run_exec, turn]
  rcases m.exec labels stmt with d | ⟨_ | target, after⟩ <;> rfl

/-- What a statement does to a machine if it succeeds. -/
inductive Effect (m : FlatMachine) : Stmt → FlatMachine → Prop where
  | spawn {x y position a b} :
    m.int x = .ok a →
    m.int y = .ok b →
    m.drawing.canvas.contains ⟨a, b⟩ →
    Effect m (.spawn x y position) { m with drawing.cursor := some (.spawn ⟨a, b⟩) }
  | assign {name e position v} :
    m.value e = .ok v →
    Effect m (.assign name e position) { m with globals := m.globals.insert name v }
  | label {name position} :
    Effect m (.label name position) m
  | goTo {name e position} :
    Effect m (.goTo name e position) m
  | call {instruction arguments position values yielded drawing} :
    m.values arguments = .ok values →
    (instruction.perform values).run m.drawing = (.ok yielded, drawing) →
    Effect m (.call instruction arguments position) { m with drawing := drawing }

/-- A statement that succeeds has one of the effects. -/
lemma exec_effect {labels : NameMap Nat} {m after : FlatMachine} {stmt : Stmt}
    {target : Option Nat} (done : m.exec labels stmt = .ok (target, after)) :
    Effect m stmt after := by
  cases stmt with
  | spawn x y position =>
    obtain ⟨a, hx, done⟩ := bind_eq_ok.mp done
    obtain ⟨b, hy, done⟩ := bind_eq_ok.mp done
    split at done
    · next inside =>
      cases done
      exact .spawn hx hy inside
    · cases done
  | assign name e position =>
    obtain ⟨v, hv, done⟩ := bind_eq_ok.mp done
    cases done
    exact .assign hv
  | label name position =>
    cases done
    exact .label
  | goTo name e position =>
    obtain ⟨v, hv, done⟩ := bind_eq_ok.mp done
    split at done
    · split at done
      · cases done
        exact .goTo
      · cases done
    · cases done
      exact .goTo
  | call instruction arguments position =>
    obtain ⟨values, hvs, done⟩ := bind_eq_ok.mp done
    obtain ⟨yielded, answered, done⟩ := bind_eq_ok.mp done
    rw [outcome] at answered
    rcases result : (instruction.perform values).run m.drawing with ⟨fault | yielded', drawing⟩
    · rw [result] at answered
      cases answered
    · rw [result] at done
      cases done
      exact .call hvs result

/-- All that a turn can do: a statement has its effect, or leaves its fault behind. -/
lemma turn_cases {labels : NameMap Nat} {index : Nat} {stmt : Stmt} {m after : FlatMachine}
    {next : Option Nat} (turned : turn labels index stmt m = (next, after)) :
    (Effect m stmt after ∧ next.isSome) ∨
      ∃ d, m.exec labels stmt = .error d ∧
        next = (if d.isFatal then none else some (index + 1)) ∧
        after = { m with errors := m.errors.push (d.atStatement index) } := by
  rw [turn] at turned
  cases result : m.exec labels stmt with
  | ok done =>
    rw [result] at turned
    cases turned
    exact .inl ⟨exec_effect result, rfl⟩
  | error d =>
    rw [result] at turned
    cases turned
    exact .inr ⟨d, rfl, rfl, rfl⟩

end FlatMachine

namespace Program

/-- The moment of a run on a canvas after a number of turns, on a flat machine. -/
def flatMoment? (p : Program) (canvas : Canvas) (turns : Nat) : Option (Moment FlatMachine) :=
  (FlatMachine.turn p.labels).after? p.statements ⟨some 0, .start canvas⟩ turns

/-- Runs a program on a canvas, on a flat machine. -/
def flatExecute (limit : Nat) (p : Program) (canvas : Canvas) : Option (Report × Canvas) :=
  ((FlatMachine.turn p.labels).runFrom p.statements limit 0 (.start canvas)).map fun m =>
    (m.report, m.drawing.canvas)

/-- The next moment is one turn later. -/
lemma flatMoment?_succ (p : Program) (canvas : Canvas) (n : Nat) :
    p.flatMoment? canvas (n + 1) =
      (p.flatMoment? canvas n).bind ((FlatMachine.turn p.labels).next? p.statements) := rfl

/-- A later moment is as many turns later. -/
lemma flatMoment?_add (p : Program) (canvas : Canvas) (n k : Nat) :
    p.flatMoment? canvas (n + k) =
      (p.flatMoment? canvas n).bind ((FlatMachine.turn p.labels).after? p.statements · k) :=
  Turn.after?_add ⟨some 0, FlatMachine.start canvas⟩ n k

/-- Turns on a flat machine do what turns do. -/
lemma agree_flat (p : Program) :
    Turn.Agree (fun (m : Machine) f => m = f.machine) (Machine.turn p.labels)
      (FlatMachine.turn p.labels) p.statements := by
  rintro index stmt m f - rfl
  rw [FlatMachine.turn_machine]
  exact ⟨rfl, rfl⟩

/-- Moment by moment, a run is the run of a flat machine. -/
lemma moment?_eq_flat (p : Program) (canvas : Canvas) (n : Nat) :
    p.moment? canvas n = (p.flatMoment? canvas n).map (Moment.map FlatMachine.machine) := by
  have rel := Turn.after?_rel p.agree_flat (s := ⟨some 0, .start canvas⟩)
    (t := ⟨some 0, .start canvas⟩) rfl rfl n
  rw [moment?, flatMoment?, ← Turn.map_eq_of_rel rel (f := id), Option.map_id_fun, id]
  rintro ⟨index, m⟩ t ⟨rfl, rfl⟩
  rfl

/-- A run leaves what the run of a flat machine leaves. -/
lemma execute_eq_flat (limit : Nat) (p : Program) (canvas : Canvas) :
    p.execute limit canvas = p.flatExecute limit canvas := by
  have rel := Turn.runFrom_rel p.agree_flat limit 0 (s := .start canvas) (t := .start canvas) rfl
  rw [execute, flatExecute, Machine.run, Machine.runFrom_eq]
  refine Turn.map_eq_of_rel rel ?_
  rintro m f rfl
  rfl

/-- Each moment of a run is one of a flat run. -/
lemma flat_of_moment? {p : Program} {canvas : Canvas} {n : Nat} {s : Moment Machine}
    (reached : p.moment? canvas n = some s) :
    ∃ f, p.flatMoment? canvas n = some f ∧ f.map FlatMachine.machine = s := by
  rw [moment?_eq_flat] at reached
  exact Option.map_eq_some_iff.mp reached

/-- Each moment of a flat run is one of a run. -/
lemma moment?_of_flat {p : Program} {canvas : Canvas} {n : Nat} {f : Moment FlatMachine}
    (reached : p.flatMoment? canvas n = some f) :
    p.moment? canvas n = some (f.map FlatMachine.machine) := by
  rw [moment?_eq_flat, reached]
  rfl

/-- A run that ends leaves what its last moment holds. -/
lemma execute_last {p : Program} {limit : Nat} {canvas after : Canvas} {report : Report}
    (ended : p.execute limit canvas = some (report, after)) :
    ∃ n last, p.flatMoment? canvas n = some last ∧
      (FlatMachine.turn p.labels).next? p.statements last = none ∧
      last.state.report = report ∧ last.state.drawing.canvas = after := by
  rw [execute_eq_flat] at ended
  obtain ⟨m, ran, left⟩ := Option.map_eq_some_iff.mp ended
  obtain ⟨n, index, reached, finished⟩ := Turn.runFrom_last ran
  cases left
  exact ⟨n, ⟨index, m⟩, reached, finished, rfl, rfl⟩

/-- A run that has come to its last moment leaves the report of that moment. -/
lemma execute_of_last {p : Program} {canvas : Canvas} {n : Nat} {last : Moment FlatMachine}
    (reached : p.flatMoment? canvas n = some last)
    (finished : (FlatMachine.turn p.labels).next? p.statements last = none) :
    p.execute (n + 1) canvas = some (last.state.report, last.state.drawing.canvas) := by
  rw [execute_eq_flat, flatExecute, Turn.runFrom_of_last reached finished]
  rfl

end Program

end Easel
