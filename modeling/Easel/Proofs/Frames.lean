import Easel.Proofs.Assignment
import Easel.Proofs.Flat

/-!
# Frames are not seen

A call has a frame for its parameters, but no variable is read or assigned while it lasts. To say
so, a machine is watched (`Watched`): for each access to a variable, a watched machine keeps the
scope that the access met. What a watched machine does besides is what the machine does
(`Program.moment?_eq_watched`), and all it keeps are scopes with one frame
(`Program.oneFrame_watchedMoment?`).

Together with the run on a flat machine this gives `Program.frames_unseen`.
-/

namespace Easel

namespace Scope

/-- An assignment in the frames of calls keeps their number. -/
lemma length_assignInCalls? {name : String} {v : Value} {calls calls' : List Frame}
    (assigned : assignInCalls? name v calls = some calls') : calls'.length = calls.length := by
  induction calls generalizing calls' with
  | nil => cases assigned
  | cons frame calls ih =>
    rw [assignInCalls?] at assigned
    split at assigned
    · cases assigned
      rfl
    · obtain ⟨inner, found, rfl⟩ := Option.map_eq_some_iff.mp assigned
      exact congrArg (· + 1) (ih found)

/-- Declaring a variable opens no frame. -/
lemma depth_declare (s : Scope) (name : String) (v : Value) :
    (s.declare name v).depth = s.depth := by
  obtain ⟨_ | ⟨frame, calls⟩, globals⟩ := s <;> rfl

/-- Assigning a variable opens no frame. -/
lemma depth_assign (s : Scope) (name : String) (v : Value) :
    (s.assign name v).depth = s.depth := by
  rw [assign]
  split
  · next calls found => exact congrArg (· + 1) (length_assignInCalls? found)
  · split
    · rfl
    · exact depth_declare s name v

end Scope

/-- A machine, and for each access to a variable so far the name and the scope it met. -/
structure Watched where
  machine : Machine
  accesses : List (String × Scope)

/-- Work on a watched machine. -/
abbrev Watch (α : Type) := ExceptT Diagnostic (StateM Watched) α

namespace Watched

/-- A watched machine before its first turn. -/
def start (canvas : Canvas) : Watched := ⟨.start canvas, []⟩

/-- Work that has nothing to do with variables. -/
def quietly {α : Type} (x : Action α) : Watch α := ExceptT.mk fun s =>
  ((x.run s.machine).1, { s with machine := (x.run s.machine).2 })

/-- Work that reads or assigns a variable. -/
def access {α : Type} (name : String) (x : Action α) : Watch α := do
  modify fun s => { s with accesses := s.accesses ++ [(name, s.machine.scope)] }
  quietly x

mutual

/-- The value of an expression, where each variable that is read is an access. -/
def eval : Expr → Watch Value
  | .number n _ => return .number n
  | .text s _ => return .text s
  | .var name position => do
    match ← access name (return (← get).scope.get? name) with
    | some v => return v
    | none => quietly (Machine.fail (.undefinedVariable name) position)
  | .binary left op right position => do
    let v ← eval left
    let w ← eval right
    quietly (Machine.located position (op.apply v w))
  | .call instruction arguments position => do
    if instruction.yieldsValue then
      let values ← evalAll arguments
      -- the frame of the call lasts from here to the end of the line
      match ← quietly (Machine.invoke instruction values position) with
      | some v => return v
      | none => quietly (Machine.fail (.valueMissing instruction) position)
    else quietly (Machine.fail (.noValue instruction) position)

/-- The values of some expressions, where each variable that is read is an access. -/
def evalAll : List Expr → Watch (List Value)
  | [] => return []
  | e :: rest => do
    let v ← eval e
    let vs ← evalAll rest
    return v :: vs

end

/-- The value of an expression that has to be a number, where each variable that is read is an
access. -/
def evalInt (e : Expr) : Watch Int := do
  let v ← eval e
  match v.asInt? with
  | some n => return n
  | none => quietly (Machine.fail (.notANumber v.kind) e.position)

/-- Carries out a statement, where an assignment is an access, too. -/
def exec (labels : NameMap Nat) : Stmt → Watch (Option Nat)
  | .spawn x y position => do
    let x ← evalInt x
    let y ← evalInt y
    quietly (Machine.spawn x y position)
    return none
  | .assign name value _ => do
    let v ← eval value
    access name (modify fun m => { m with scope := m.scope.assign name v })
    return none
  | .label _ _ => return none
  | .goTo label condition position => do
    let v ← eval condition
    if v.isTruthy then
      match labels.find? label with
      | some target => return some target
      | none => quietly (Machine.fail (.undefinedLabel label) position)
    else return none
  | .call instruction arguments position => do
    let values ← evalAll arguments
    let _ ← quietly (Machine.invoke instruction values position)
    return none

/-- Carries out the statement with the given index, and records its fault if it fails. -/
def turn (labels : NameMap Nat) : Turn Watched := fun index stmt s =>
  match (exec labels stmt).run s with
  | (.ok (some target), s) => (some target, s)
  | (.ok none, s) => (some (index + 1), s)
  | (.error d, s) =>
    (if d.isFatal then none else some (index + 1), { s with machine := s.machine.record d index })

/-- No call is under way, and none was at any access to a variable. -/
def OneFrame (s : Watched) : Prop :=
  s.machine.scope.depth = 1 ∧ ∀ access ∈ s.accesses, access.2.depth = 1

/-- Watched work does what the work it watches does, and meets one frame only. -/
def Follows {α : Type} (x : Watch α) (y : Action α) : Prop :=
  ∀ s, s.OneFrame → (x.run s).2.OneFrame ∧ y.run s.machine = ((x.run s).1, (x.run s).2.machine)

/-- The work ends every call that it begins. -/
def KeepsFrames {α : Type} (x : Action α) : Prop :=
  ∀ m, (x.run m).2.scope.depth = m.scope.depth

variable {α β : Type}

/-- In the beginning, no call is under way. -/
lemma oneFrame_start (canvas : Canvas) : (start canvas).OneFrame := ⟨rfl, nofun⟩

/-- Work that only looks at the machine ends every call that it begins. -/
lemma keepsFrames_of_looks {x : Action α} (looks : Machine.Looks x) : KeepsFrames x :=
  fun m => congrArg (·.scope.depth) (looks m)

namespace Follows

/-- Watched work that does nothing does nothing. -/
lemma pure (a : α) : Follows (Pure.pure a) (Pure.pure a) := fun _ oneFrame => ⟨oneFrame, rfl⟩

/-- Watched work in two parts does what both parts do. -/
lemma bind {x : Watch α} {y : Action α} {f : α → Watch β} {g : α → Action β} (first : Follows x y)
    (rest : ∀ a, Follows (f a) (g a)) : Follows (x >>= f) (y >>= g) := by
  intro s oneFrame
  obtain ⟨oneFrame', same⟩ := first s oneFrame
  rw [run_bind, run_bind, same]
  rcases result : x.run s with ⟨d | a, s'⟩
  · rw [result] at oneFrame'
    exact ⟨oneFrame', rfl⟩
  · rw [result] at oneFrame'
    exact rest a s' oneFrame'

/-- Quiet work may begin calls, but has to end them. -/
lemma quietly {x : Action α} (keeps : KeepsFrames x) : Follows (Watched.quietly x) x :=
  fun s oneFrame => ⟨⟨(keeps s.machine).trans oneFrame.1, oneFrame.2⟩, rfl⟩

/-- Watched work that fails does what failing does. -/
lemma fail (fault : Fault) (position : Position) :
    Follows (Watched.quietly (Machine.fail fault position : Action α))
      (Machine.fail fault position) :=
  quietly (keepsFrames_of_looks (.fail fault position))

/-- A call of an instruction can be watched, as it reads no variable. -/
lemma invoke (instruction : Instruction) (values : List Value) (position : Position) :
    Follows (Watched.quietly (Machine.invoke instruction values position))
      (Machine.invoke instruction values position) := by
  refine quietly fun m => ?_
  rw [Machine.run_invoke]

/-- The placing of the cursor can be watched, as it reads no variable. -/
lemma spawn (x y : Int) (position : Position) :
    Follows (Watched.quietly (Machine.spawn x y position)) (Machine.spawn x y position) := by
  refine quietly fun m => ?_
  rw [Machine.run_spawn]
  split <;> rfl

/-- An access to a variable can be watched, if it leaves no call under way. -/
lemma access {x : Action α} (name : String) (keeps : KeepsFrames x) :
    Follows (Watched.access name x) x := by
  intro s oneFrame
  -- the scope that is kept is the one the machine has at that time
  have noted : OneFrame { s with accesses := s.accesses ++ [(name, s.machine.scope)] } :=
    ⟨oneFrame.1, List.forall_mem_append.mpr
      ⟨oneFrame.2, List.forall_mem_singleton.mpr oneFrame.1⟩⟩
  exact quietly keeps _ noted

end Follows

mutual

/-- A watched machine evaluates as the machine does. -/
lemma follows_eval : ∀ e, Follows (eval e) (Machine.eval e)
  | .number n _ => by
    rw [eval, Machine.eval]
    exact .pure _
  | .text s _ => by
    rw [eval, Machine.eval]
    exact .pure _
  | .var name position => by
    rw [eval, Machine.eval]
    -- the machine looks the name up and goes on in one, so the two are taken apart first
    change Follows _ (((return (← get).scope.get? name) : Action _) >>= fun
      | some v => pure v
      | none => Machine.fail (.undefinedVariable name) position)
    refine (Follows.access name fun m => rfl).bind fun found => ?_
    cases found with
    | none => exact .fail _ _
    | some v => exact .pure v
  | .binary left op right position => by
    rw [eval, Machine.eval]
    refine (follows_eval left).bind fun v => (follows_eval right).bind fun w => ?_
    exact .quietly (keepsFrames_of_looks (.located _ _))
  | .call instruction arguments position => by
    rw [eval, Machine.eval]
    split
    · refine (follows_evalAll arguments).bind fun values => ?_
      refine (Follows.invoke instruction values position).bind fun result => ?_
      cases result with
      | none => exact .fail _ _
      | some v => exact .pure v
    · exact .fail _ _

/-- The evaluation of some expressions can be watched. -/
lemma follows_evalAll : ∀ es, Follows (evalAll es) (Machine.evalAll es)
  | [] => by
    rw [evalAll, Machine.evalAll]
    exact .pure _
  | e :: rest => by
    rw [evalAll, Machine.evalAll]
    exact (follows_eval e).bind fun v => (follows_evalAll rest).bind fun vs => .pure _

end

/-- The evaluation of an expression that has to be a number can be watched. -/
lemma follows_evalInt (e : Expr) : Follows (evalInt e) (Machine.evalInt e) := by
  refine (follows_eval e).bind fun v => ?_
  cases v.asInt? with
  | none => exact .fail _ _
  | some n => exact .pure n

/-- A watched machine carries out a statement as the machine does. -/
lemma follows_exec (labels : NameMap Nat) (stmt : Stmt) :
    Follows (exec labels stmt) (Machine.exec labels stmt) := by
  cases stmt with
  | spawn x y position =>
    refine (follows_evalInt x).bind fun x => (follows_evalInt y).bind fun y => ?_
    exact (Follows.spawn x y position).bind fun _ => .pure none
  | assign name value position =>
    refine (follows_eval value).bind fun v => ?_
    refine (Follows.access name fun m => ?_).bind fun _ => .pure none
    exact m.scope.depth_assign name v
  | label name position => exact .pure none
  | goTo name condition position =>
    refine (follows_eval condition).bind fun v => ?_
    split
    · cases labels.find? name with
      | none => exact .fail _ _
      | some target => exact .pure _
    · exact .pure none
  | call instruction arguments position =>
    refine (follows_evalAll arguments).bind fun values => ?_
    exact (Follows.invoke instruction values position).bind fun _ => .pure none

/-- Watched turns do what turns do. -/
lemma agree_turn (labels : NameMap Nat) (statements : Array Stmt) :
    Turn.Agree (fun (m : Machine) s => s.OneFrame ∧ m = s.machine) (Machine.turn labels)
      (turn labels) statements := by
  rintro index stmt m s - ⟨oneFrame, rfl⟩
  obtain ⟨oneFrame', same⟩ := follows_exec labels stmt s oneFrame
  rw [Machine.turn, turn, same]
  rcases result : (exec labels stmt).run s with ⟨d | _ | target, s'⟩ <;> rw [result] at oneFrame'
  · exact ⟨rfl, ⟨oneFrame'.1, oneFrame'.2⟩, rfl⟩
  · exact ⟨rfl, oneFrame', rfl⟩
  · exact ⟨rfl, oneFrame', rfl⟩

end Watched

namespace Program

/-- The moment of a run on a canvas after a number of turns, on a watched machine. -/
def watchedMoment? (p : Program) (canvas : Canvas) (turns : Nat) : Option (Moment Watched) :=
  (Watched.turn p.labels).after? p.statements ⟨some 0, .start canvas⟩ turns

variable {p : Program} {canvas : Canvas}

/-- Moment by moment, a run is the run of a watched machine. -/
lemma moment?_eq_watched (p : Program) (canvas : Canvas) (n : Nat) :
    p.moment? canvas n = (p.watchedMoment? canvas n).map (Moment.map Watched.machine) := by
  have start := Watched.oneFrame_start canvas
  have rel := Turn.after?_rel (Watched.agree_turn p.labels p.statements)
    (s := ⟨some 0, .start canvas⟩) (t := ⟨some 0, .start canvas⟩) rfl ⟨start, rfl⟩ n
  rw [moment?, watchedMoment?, ← Turn.map_eq_of_rel rel (f := id), Option.map_id_fun, id]
  rintro ⟨index, m⟩ t ⟨rfl, -, rfl⟩
  rfl

/-- At each moment of a watched run, no access has met a call under way. -/
lemma oneFrame_watchedMoment? {n : Nat} {s : Moment Watched}
    (reached : p.watchedMoment? canvas n = some s) : s.state.OneFrame := by
  refine Turn.after?_induction (motive := fun s => s.state.OneFrame)
    (Watched.oneFrame_start canvas) ?_ reached
  intro s t oneFrame next
  obtain ⟨index, stmt, -, found, turned⟩ := Turn.next?_eq_some next
  have step := Watched.agree_turn p.labels p.statements index stmt _ _ found ⟨oneFrame, rfl⟩
  rw [turned] at step
  exact step.2.1

/-- The frames of calls are not seen. A run is, moment by moment, the run of a machine that has all
variables in one map and never begins a call, and leaves what that one leaves. Whenever a variable
is read or assigned, and between statements, there is no frame but the global one. A run that ends
reports the variables in the order of their names: those that were assigned, each with the value
that was assigned to it last. -/
theorem frames_unseen (p : Program) (canvas : Canvas) :
    (∀ n, p.moment? canvas n = (p.flatMoment? canvas n).map (Moment.map FlatMachine.machine)) ∧
    (∀ limit, p.execute limit canvas = p.flatExecute limit canvas) ∧
    (∀ n, p.moment? canvas n = (p.watchedMoment? canvas n).map (Moment.map Watched.machine)) ∧
    (∀ n s, p.watchedMoment? canvas n = some s →
      s.state.machine.scope.depth = 1 ∧ ∀ access ∈ s.state.accesses, access.2.depth = 1) ∧
    ∀ limit report after, p.execute limit canvas = some (report, after) →
      report.globals.toList.Pairwise (·.1 < ·.1) ∧
        ∀ name v, (name, v) ∈ report.globals.toList ↔
          ∃ i, p.assignment? canvas i = some (name, v) ∧
            ∀ j w, i < j → p.assignment? canvas j ≠ some (name, w) := by
  refine ⟨p.moment?_eq_flat canvas, fun limit => p.execute_eq_flat limit canvas,
    p.moment?_eq_watched canvas, fun n s reached => oneFrame_watchedMoment? reached, ?_⟩
  intro limit report after ended
  exact ⟨sorted_globals ended, mem_globals_iff ended⟩

/-- A variable with the name of a parameter, which two calls get as an argument and one refuses. -/
theorem frames_unseen_parameter :
    let zero : Expr := .number 0.0 .start
    let p : Program := ⟨#[.spawn zero zero .start, .assign "size" (.number 3.0 .start) .start,
      .call .color [.var "size" .start] .start,
      .assign "size" (.call .getCanvasSize [] .start) .start,
      .call .size [.var "size" .start] .start]⟩
    let canvas : Canvas := .blank 2 .white
    let fault : Fault := .argumentKind .color ⟨"color", .text⟩ .number
    let report : Report := ⟨[(fault.diagnose .start).atStatement 2], some (.spawn ⟨0, 0⟩),
      ⟨[("size", .number 2.0)]⟩⟩
    p.execute 6 canvas = some (report, canvas) ∧
      (∃ i, p.assignment? canvas i = some ("size", .number 2.0) ∧
        ∀ j w, i < j → p.assignment? canvas j ≠ some ("size", w)) ∧
      ∃ s, p.watchedMoment? canvas 5 = some s ∧
        s.state.accesses.map Prod.fst = ["size", "size", "size", "size"] ∧
        ∀ access ∈ s.state.accesses, access.2.depth = 1 := by
  intro zero p canvas fault report
  obtain ⟨-, -, -, oneFrame, globals⟩ := p.frames_unseen canvas
  have ended : p.execute 6 canvas = some (report, canvas) := by decide +kernel
  have names : (p.watchedMoment? canvas 5).map (·.state.accesses.map Prod.fst) =
      some ["size", "size", "size", "size"] := by decide +kernel
  obtain ⟨s, reached, names⟩ := Option.map_eq_some_iff.mp names
  refine ⟨ended, ?_, s, reached, names, (oneFrame 5 s reached).2⟩
  exact ((globals 6 report canvas ended).2 "size" (.number 2.0)).mp (.head _)

end Program

end Easel
