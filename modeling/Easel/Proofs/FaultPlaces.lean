import Easel.Proofs.Halting
import Easel.Proofs.Places

/-!
# Faults point at their statement

A statement that fails is blamed at one of its own places: its first token, or a node of one of its
expressions (`FlatMachine.exec_inside`). So every diagnostic that a run records tells which
statement has failed, and its place lies inside that statement (`Program.blamed_flatMoment?`). For
a program that was read from a text, such a place is that of a token in the line of the statement
(`Program.execute_faults_inside`).
-/

namespace Easel

namespace DiagnosticCode

/-- Whether the code is one of what a running program reports. -/
def isRuntime : DiagnosticCode → Bool
  | unexpectedCharacter | unterminatedString | unexpectedToken | missingToken | misplacedSpawn =>
    false
  | _ => true

/-- The codes of what a running program reports. -/
lemma text_of_isRuntime {code : DiagnosticCode} (runtime : code.isRuntime) :
    code.text ∈ ["R001", "R002", "R003", "R004", "R005", "R006", "R007", "R008", "R009"] := by
  cases code with
  | unexpectedCharacter | unterminatedString | unexpectedToken | missingToken | misplacedSpawn =>
    cases runtime
  | _ => decide

end DiagnosticCode

/-- The diagnostic is one of a running program, at one of the given places. -/
structure Diagnostic.Inside (places : List Position) (d : Diagnostic) : Prop where
  position : d.position ∈ places
  runtime : d.code.isRuntime

/-- The fault is one of a running program. -/
structure Fault.AtRuntime (fault : Fault) : Prop where
  code : fault.code.isRuntime

/-- A command fails for want of a cursor, for an unknown color or for an empty rectangle. -/
lemma Command.runIn_atRuntime {K : Type} [Scalar K] (command : Command) (d : Drawing) :
    FailsBy Fault.AtRuntime ((command.runIn K).run d).1 := by
  obtain ⟨canvas, cursor⟩ := d
  cases command.effect_runIn K cursor with
  | unspawned run =>
    rw [run]
    exact .error ⟨rfl⟩
  | refused run cause =>
    rw [run]
    rcases cause with ⟨_, rfl⟩ | ⟨_, _, rfl⟩ <;> exact .error ⟨rfl⟩
  | answered run | changed run =>
    rw [run]
    exact .ok _

/-- A call fails with a fault of a running program. -/
lemma Instruction.perform_atRuntime (instruction : Instruction) (values : List Value)
    (d : Drawing) : FailsBy Fault.AtRuntime ((instruction.perform values).run d).1 := by
  rw [perform, performIn, validate]
  split
  · next fault failed =>
    split at failed
    · split at failed
      · cases failed
        exact .error ⟨rfl⟩
      · cases failed
    · cases failed
      exact .error ⟨rfl⟩
  · exact Command.runIn_atRuntime _ d

/-- An operator fails with a fault of a running program. -/
lemma Operator.apply_atRuntime (op : Operator) (v w : Value) :
    FailsBy Fault.AtRuntime (op.apply v w) := by
  cases op with
  | eq | notEq | and | or => exact .ok _
  | div =>
    refine onNumbers_failsBy _ v w (fun a b => ?_) ⟨rfl⟩
    split
    · exact .error ⟨rfl⟩
    · exact .ok _
  | mod =>
    refine onNumbers_failsBy _ v w (fun a b => ?_) ⟨rfl⟩
    split
    · exact .error ⟨rfl⟩
    · exact .ok _
  | _ => exact onNumbers_failsBy _ v w (fun a b => .ok _) ⟨rfl⟩

namespace FlatMachine

variable (m : FlatMachine) {places : List Position}

/-- A fault with one of the places becomes a diagnostic there. -/
lemma located_inside {α : Type} {x : Except Fault α} (runtime : FailsBy Fault.AtRuntime x)
    {p : Position} (mem : p ∈ places) :
    FailsBy (Diagnostic.Inside places) (x.mapError (·.diagnose p)) :=
  .mapError fun fault failed => ⟨mem, (runtime fault failed).code⟩

mutual

/-- An expression that fails is blamed at one of its nodes. -/
lemma value_inside : ∀ e : Expr, e.positions ⊆ places →
    FailsBy (Diagnostic.Inside places) (m.value e)
  | .number n _, _ => by
    rw [value]
    exact .ok _
  | .text s _, _ => by
    rw [value]
    exact .ok _
  | .var name position, within => by
    rw [value]
    rw [Expr.positions, List.cons_subset] at within
    split
    · exact .ok _
    · exact .error ⟨within.1, rfl⟩
  | .binary left op right position, within => by
    rw [value]
    rw [Expr.positions, List.cons_subset, List.append_subset] at within
    obtain ⟨here, inLeft, inRight⟩ := within
    refine (value_inside left inLeft).bind fun v => (value_inside right inRight).bind fun w => ?_
    exact located_inside (op.apply_atRuntime v w) here
  | .call instruction arguments position, within => by
    rw [value]
    rw [Expr.positions, List.cons_subset] at within
    obtain ⟨here, inArguments⟩ := within
    split
    · refine (values_inside arguments inArguments).bind fun values => ?_
      refine (located_inside (instruction.perform_atRuntime values _) here).bind fun result => ?_
      cases result with
      | some v => exact .ok v
      | none => exact .error ⟨here, rfl⟩
    · exact .error ⟨here, rfl⟩

/-- Expressions that fail are blamed at one of their nodes. -/
lemma values_inside : ∀ es : List Expr, Expr.positionsOfList es ⊆ places →
    FailsBy (Diagnostic.Inside places) (m.values es)
  | [], _ => by
    rw [values]
    exact .ok _
  | e :: rest, within => by
    rw [values]
    rw [Expr.positionsOfList, List.append_subset] at within
    exact (value_inside e within.1).bind fun v => (values_inside rest within.2).bind fun vs => .ok _

end

/-- An expression that is no number is blamed at one of its nodes. -/
lemma int_inside (e : Expr) (within : e.positions ⊆ places) :
    FailsBy (Diagnostic.Inside places) (m.int e) := by
  refine (m.value_inside e within).bind fun v => ?_
  cases v.asInt? with
  | some n => exact .ok n
  | none => exact .error ⟨within e.position_mem, rfl⟩

/-- A statement that fails is blamed at one of its own places. -/
lemma exec_inside (labels : NameMap Nat) (stmt : Stmt) :
    FailsBy (Diagnostic.Inside stmt.positions) (m.exec labels stmt) := by
  cases stmt with
  | spawn x y position =>
    have inX : x.positions ⊆ (Stmt.spawn x y position).positions := by simp [Stmt.positions]
    have inY : y.positions ⊆ (Stmt.spawn x y position).positions := by simp [Stmt.positions]
    refine (m.int_inside x inX).bind fun x' => (m.int_inside y inY).bind fun y' => ?_
    split
    · exact .ok _
    · exact .error ⟨List.mem_cons_self, rfl⟩
  | assign name e position =>
    exact (m.value_inside e (List.subset_cons_self _ _)).bind fun v => .ok _
  | label name position => exact .ok _
  | goTo name e position =>
    refine (m.value_inside e (List.subset_cons_self _ _)).bind fun v => ?_
    split
    · cases labels.find? name with
      | some target => exact .ok _
      | none => exact .error ⟨List.mem_cons_self, rfl⟩
    · exact .ok _
  | call instruction arguments position =>
    refine (m.values_inside arguments (List.subset_cons_self _ _)).bind fun values => ?_
    exact (located_inside (instruction.perform_atRuntime values _) List.mem_cons_self).bind
      fun _ => .ok _

end FlatMachine

namespace Program

variable {p : Program} {canvas : Canvas}

/-- The diagnostic blames a statement of the program, at one of the statement's own places. -/
def Blamed (p : Program) (d : Diagnostic) : Prop :=
  ∃ i stmt, d.statement = some i ∧ p.statements[i]? = some stmt ∧ d.Inside stmt.positions

/-- One turn adds at most the fault of the statement that was carried out. -/
lemma blamed_next? {s t : Moment FlatMachine}
    (next : (FlatMachine.turn p.labels).next? p.statements s = some t)
    (before : ∀ d ∈ s.state.errors, p.Blamed d) : ∀ d ∈ t.state.errors, p.Blamed d := by
  obtain ⟨index, stmt, -, found, turned⟩ := Turn.next?_eq_some next
  rcases FlatMachine.turn_cases turned with ⟨effect, -⟩ | ⟨d, failed, -, after⟩
  · rw [effect.errors_eq]
    exact before
  · intro e mem
    rw [after, Array.mem_push] at mem
    rcases mem with mem | rfl
    · exact before e mem
    · obtain ⟨position, runtime⟩ := s.state.exec_inside p.labels stmt d failed
      exact ⟨index, stmt, rfl, found, position, runtime⟩

/-- All that a run has recorded blames statements of the program. -/
lemma blamed_flatMoment? {n : Nat} {s : Moment FlatMachine}
    (reached : p.flatMoment? canvas n = some s) : ∀ d ∈ s.state.errors, p.Blamed d := by
  refine Turn.after?_induction (motive := fun s => ∀ d ∈ s.state.errors, p.Blamed d) ?_ ?_ reached
  · intro d mem
    cases Array.not_mem_empty d mem
  · intro s t before next
    exact blamed_next? next before

/-- The faults of a run point into the statements that have failed. Each tells the index of a
statement, has one of the codes of running programs, and lies at the statement's place or at that of
one of the nodes inside it. All these places are those of tokens in the statement's own line. -/
theorem execute_faults_inside {source : String} {limit : Nat} {after : Canvas} {report : Report}
    (compiled : compile source = .ok p)
    (ended : p.execute limit canvas = some (report, after)) :
    ∃ ts, Token.scan source = .ok ts ∧ ∀ d ∈ report.errors, ∃ i stmt own,
      d.statement = some i ∧ i < p.size ∧ p.statements[i]? = some stmt ∧
      d.code.text ∈ ["R001", "R002", "R003", "R004", "R005", "R006", "R007", "R008", "R009"] ∧
      d.position ∈ stmt.positions ∧
      (statementTokens ts)[i]? = some own ∧ own ⊆ ts ∧
      (Grammar.Spawn own stmt.line ∨ Grammar.Statement own stmt.line) ∧
      ∀ q ∈ stmt.positions, ∃ t ∈ own, t.position = q := by
  obtain ⟨ts, scanned, read⟩ := bind_eq_ok.mp compiled
  obtain ⟨n, last, reached, -, rfl, -⟩ := execute_last ended
  refine ⟨ts, scanned, fun d mem => ?_⟩
  obtain ⟨i, stmt, index, found, position, runtime⟩ :=
    blamed_flatMoment? reached d (Array.mem_toList_iff.mp mem)
  obtain ⟨own, line, among, written⟩ := ofTokens_statement read found
  obtain ⟨inside, -⟩ := Array.getElem?_eq_some_iff.mp found
  exact ⟨i, stmt, own, index, inside, found, DiagnosticCode.text_of_isRuntime runtime, position,
    line, among, written.spelled, written.placed⟩

/-- Two variables that are not defined, in the first line and after a blank one. -/
theorem execute_faults_inside_variable :
    let source := "Spawn(x, y)\n\na <- z"
    let p : Program := ⟨#[.spawn (.var "x" ⟨1, 7⟩) (.var "y" ⟨1, 10⟩) ⟨1, 1⟩,
      .assign "a" (.var "z" ⟨3, 6⟩) ⟨3, 1⟩]⟩
    let canvas : Canvas := .blank 1 .red
    let report : Report := ⟨[((Fault.undefinedVariable "x").diagnose ⟨1, 7⟩).atStatement 0,
      ((Fault.undefinedVariable "z").diagnose ⟨3, 6⟩).atStatement 1], none, .empty⟩
    compile source = .ok p ∧ p.execute 3 canvas = some (report, canvas) ∧
      ∃ ts own, Token.scan source = .ok ts ∧ (statementTokens ts)[1]? = some own ∧
        ∃ t ∈ own, t.position = ⟨3, 6⟩ := by
  intro source p canvas report
  have ended : p.execute 3 canvas = some (report, canvas) := rfl
  have compiled : compile source = .ok p := by
    let eof := Token.eof ⟨3, 7⟩
    let spawn : Token := ⟨.function, "Spawn", ⟨1, 1⟩⟩
    let place : List Token := [⟨.symbol, "(", ⟨1, 6⟩⟩, ⟨.identifier, "x", ⟨1, 7⟩⟩,
      ⟨.symbol, ",", ⟨1, 8⟩⟩, ⟨.identifier, "y", ⟨1, 10⟩⟩, ⟨.symbol, ")", ⟨1, 11⟩⟩]
    let newLine : Token := ⟨.newLine, "\n", ⟨1, 12⟩⟩
    let later : List Token := [⟨.newLine, "\n", ⟨2, 1⟩⟩, ⟨.identifier, "a", ⟨3, 1⟩⟩,
      ⟨.symbol, "<-", ⟨3, 3⟩⟩, ⟨.identifier, "z", ⟨3, 6⟩⟩]
    have scanned : Token.scan source = .ok (spawn :: place ++ newLine :: later ++ [eof]) := by
      decide +kernel
    have spawned : ∃ shorter, Parser.spawn eof spawn (place ++ newLine :: later) =
        .ok ⟨.spawn (.var "x" ⟨1, 7⟩) (.var "y" ⟨1, 10⟩) ⟨1, 1⟩, newLine :: later, shorter⟩ := by
      refine ⟨by decide, bind_eq_ok.mpr ⟨_, rfl, bind_eq_ok.mpr ⟨_, Parser.expr_var rfl fun n =>
        Parser.stops_symbol (show Token.isSymbol _ "," from rfl), ?_⟩⟩⟩
      refine bind_eq_ok.mpr ⟨_, rfl, bind_eq_ok.mpr ⟨_, Parser.expr_var rfl fun n =>
        Parser.stops_symbol (show Token.isSymbol _ ")" from rfl), ?_⟩⟩
      exact bind_eq_ok.mpr ⟨_, rfl, rfl⟩
    have assigned : Parser.statements eof later = .ok [.assign "a" (.var "z" ⟨3, 6⟩) ⟨3, 1⟩] := by
      rw [Parser.statements_blank _ rfl, Parser.statements_cons _ (by decide)]
      refine bind_eq_ok.mpr ⟨_, bind_eq_ok.mpr ⟨_, Parser.expr_var rfl nofun, rfl⟩, ?_⟩
      exact bind_eq_ok.mpr ⟨_, rfl, bind_eq_ok.mpr ⟨_, Parser.statements_nil, rfl⟩⟩
    obtain ⟨_, spawned⟩ := spawned
    rw [compile, scanned, ok_bind]
    exact bind_eq_ok.mpr ⟨_, spawned, bind_eq_ok.mpr ⟨_, rfl, bind_eq_ok.mpr ⟨_, assigned, rfl⟩⟩⟩
  obtain ⟨ts, scanned, inside⟩ := execute_faults_inside compiled ended
  obtain ⟨_, stmt, own, ⟨⟩, -, ⟨⟩, -, place, line, -, -, placed⟩ :=
    inside _ (List.mem_cons_of_mem _ List.mem_cons_self)
  exact ⟨compiled, ended, ts, own, scanned, line, placed _ place⟩

end Program

end Easel
