import Easel.Proofs.Flat

/-!
# How runs end

Nothing is drawn without a cursor, and a cursor is never taken away: each turn leaves the drawing as
it was, or leaves it with a cursor (`Drawing.LeadsTo`). The want of a cursor is the only fatal fault
of a running program (`FlatMachine.exec_wantsCursor`).

So a run that meets a fatal fault has drawn nothing, and records that fault last. Any other run that
ends has left the program (`Program.execute_ending`).
-/

namespace Easel

namespace Drawing

/-- What one drawing can become: itself, or one with a cursor. -/
def LeadsTo (d d' : Drawing) : Prop := d' = d ∨ d'.cursor.isSome

namespace LeadsTo

variable {d d' d'' : Drawing}

/-- A drawing leads to itself. -/
lemma refl (d : Drawing) : d.LeadsTo d := .inl rfl

/-- What one drawing leads to in two steps it leads to. -/
lemma trans (h : d.LeadsTo d') (h' : d'.LeadsTo d'') : d.LeadsTo d'' := by
  rcases h' with rfl | placed
  · exact h
  · exact .inr placed

/-- A cursor is never taken away. -/
lemma isSome_cursor (h : d.LeadsTo d') (placed : d.cursor.isSome) : d'.cursor.isSome := by
  rcases h with rfl | placed'
  · exact placed
  · exact placed'

/-- A drawing without a cursor has not been changed. -/
lemma eq_of_cursor_none (h : d.LeadsTo d') (none : d'.cursor = none) : d' = d := by
  rcases h with same | placed
  · exact same
  · rw [none] at placed
    cases placed

end LeadsTo

/-- A diagnostic that is fatal says that the drawing has no cursor. -/
def WantsCursor (d : Drawing) (e : Diagnostic) : Prop :=
  e.isFatal → e.code = .notSpawned ∧ d.cursor = none

/-- A fault that a run survives says nothing about the cursor. -/
lemma wantsCursor_of_recoverable (d : Drawing) {fault : Fault} (recoverable : ¬ fault.code.isFatal)
    (position : Position) : d.WantsCursor (fault.diagnose position) :=
  fun fatal => absurd fatal recoverable

end Drawing

/-- All that a command can do: it succeeds and changes nothing without a cursor, or it fails and
changes nothing. -/
lemma Command.runIn_cases {K : Type} [Scalar K] (command : Command) (d : Drawing) :
    (∃ yielded d', (command.runIn K).run d = (.ok yielded, d') ∧ d.LeadsTo d') ∨
      ∃ fault, (command.runIn K).run d = (.error fault, d) ∧
        (fault.code.isFatal → fault = .notSpawned ∧ d.cursor = none) := by
  obtain ⟨canvas, cursor⟩ := d
  cases command.effect_runIn K cursor with
  | unspawned run => exact .inr ⟨_, run canvas, fun _ => ⟨rfl, rfl⟩⟩
  | refused run cause =>
    refine .inr ⟨_, run canvas, fun fatal => ?_⟩
    rcases cause with ⟨_, rfl⟩ | ⟨_, _, rfl⟩ <;> cases fatal
  | answered run => exact .inl ⟨_, _, run canvas, .refl _⟩
  | changed run => exact .inl ⟨_, _, run canvas, .inr rfl⟩

namespace Instruction

/-- A run survives arguments that do not fit. -/
lemma validate_recoverable (instruction : Instruction) (values : List Value) :
    FailsBy (fun fault => ¬ fault.code.isFatal) (instruction.validate values) := by
  rw [validate]
  split
  · split
    · exact .error nofun
    · exact .ok _
  · exact .error nofun

/-- All that a call can do: it succeeds and changes nothing without a cursor, or it fails and
changes nothing. -/
lemma perform_cases (instruction : Instruction) (values : List Value) (d : Drawing) :
    (∃ yielded d', (instruction.perform values).run d = (.ok yielded, d') ∧ d.LeadsTo d') ∨
      ∃ fault, (instruction.perform values).run d = (.error fault, d) ∧
        (fault.code.isFatal → fault = .notSpawned ∧ d.cursor = none) := by
  rw [perform, performIn]
  cases valid : instruction.validate values with
  | error fault =>
    have recoverable := instruction.validate_recoverable values fault valid
    exact .inr ⟨fault, rfl, fun fatal => absurd fatal recoverable⟩
  | ok _ => exact Command.runIn_cases _ d

end Instruction

namespace Operator

/-- An operator on numbers fails as its function does, or because an operand is no number. -/
lemma onNumbers_failsBy {kind : Fault → Prop} (op : Operator) (v w : Value)
    {f : Float → Float → Except Fault Value} (hf : ∀ a b, FailsBy kind (f a b))
    (operands : kind (.unsupportedOperands op v.kind w.kind)) :
    FailsBy kind (op.onNumbers v w f) := by
  rw [onNumbers]
  split
  · exact hf _ _
  · exact .error operands

/-- Operators fail in ways that a run survives. -/
lemma apply_recoverable (op : Operator) (v w : Value) :
    FailsBy (fun fault => ¬ fault.code.isFatal) (op.apply v w) := by
  cases op with
  | eq | notEq | and | or => exact .ok _
  | div | mod =>
    refine onNumbers_failsBy _ v w (fun a b => ?_) nofun
    split
    · exact .error nofun
    · exact .ok _
  | _ => exact onNumbers_failsBy _ v w (fun a b => .ok _) nofun

end Operator

namespace FlatMachine

/-- A call fails fatally only for want of a cursor. -/
lemma outcome_wantsCursor (m : FlatMachine) (instruction : Instruction) (values : List Value)
    (position : Position) :
    FailsBy m.drawing.WantsCursor (m.outcome instruction values position) :=
  FailsBy.mapError fun fault failed fatal => by
    rcases instruction.perform_cases values m.drawing with ⟨_, _, done, -⟩ | ⟨_, done, wants⟩
    · rw [done] at failed
      cases failed
    · rw [done] at failed
      cases failed
      exact ⟨congrArg Fault.code (wants fatal).1, (wants fatal).2⟩

mutual

/-- An expression fails fatally only for want of a cursor. -/
lemma value_wantsCursor (m : FlatMachine) : ∀ e, FailsBy m.drawing.WantsCursor (m.value e)
  | .number n _ => by
    rw [value]
    exact .ok _
  | .text s _ => by
    rw [value]
    exact .ok _
  | .var name position => by
    rw [value]
    split
    · exact .ok _
    · exact .error nofun
  | .binary left op right position => by
    rw [value]
    refine (value_wantsCursor m left).bind fun v => (value_wantsCursor m right).bind fun w => ?_
    refine FailsBy.mapError fun fault failed => ?_
    exact m.drawing.wantsCursor_of_recoverable (op.apply_recoverable v w fault failed) position
  | .call instruction arguments position => by
    rw [value]
    split
    · refine (values_wantsCursor m arguments).bind fun values => ?_
      refine (m.outcome_wantsCursor instruction values position).bind fun result => ?_
      cases result with
      | some v => exact .ok v
      | none => exact .error nofun
    · exact .error nofun

/-- Expressions fail fatally only for want of a cursor. -/
lemma values_wantsCursor (m : FlatMachine) : ∀ es, FailsBy m.drawing.WantsCursor (m.values es)
  | [] => by
    rw [values]
    exact .ok _
  | e :: rest => by
    rw [values]
    exact (value_wantsCursor m e).bind fun v => (values_wantsCursor m rest).bind fun vs => .ok _

end

/-- An expression that has to be a number fails fatally only for want of a cursor. -/
lemma int_wantsCursor (m : FlatMachine) (e : Expr) :
    FailsBy m.drawing.WantsCursor (m.int e) := by
  refine (value_wantsCursor m e).bind fun v => ?_
  cases v.asInt? with
  | some n => exact .ok n
  | none => exact .error nofun

/-- The only fatal fault of a statement is the want of a cursor. -/
lemma exec_wantsCursor (labels : NameMap Nat) (m : FlatMachine) (stmt : Stmt) :
    FailsBy m.drawing.WantsCursor (m.exec labels stmt) := by
  cases stmt with
  | spawn x y position =>
    refine (m.int_wantsCursor x).bind fun x => (m.int_wantsCursor y).bind fun y => ?_
    split
    · exact .ok _
    · exact .error nofun
  | assign name e position => exact (m.value_wantsCursor e).bind fun v => .ok _
  | label name position => exact .ok _
  | goTo name e position =>
    refine (m.value_wantsCursor e).bind fun v => ?_
    split
    · cases labels.find? name with
      | some target => exact .ok _
      | none => exact .error nofun
    · exact .ok _
  | call instruction arguments position =>
    refine (m.values_wantsCursor arguments).bind fun values => ?_
    exact (m.outcome_wantsCursor instruction values position).bind fun _ => .ok _

/-- A statement that succeeds leads from one drawing to another. -/
lemma Effect.leadsTo {m after : FlatMachine} {stmt : Stmt} (effect : Effect m stmt after) :
    m.drawing.LeadsTo after.drawing := by
  cases effect with
  | spawn => exact .inr rfl
  | @call instruction arguments position values yielded drawing _ performed =>
    rcases instruction.perform_cases values m.drawing with ⟨_, _, done, leads⟩ | ⟨_, done, -⟩
    · rw [performed] at done
      cases done
      exact leads
    · rw [performed] at done
      cases done
  | _ => exact .refl _

/-- A statement that succeeds records no diagnostic. -/
lemma Effect.errors_eq {m after : FlatMachine} {stmt : Stmt} (effect : Effect m stmt after) :
    after.errors = m.errors := by
  cases effect <;> rfl

section Run

variable {labels : NameMap Nat} {statements : Array Stmt} {s t : Moment FlatMachine}

/-- From one moment to the next, the drawing changes only with a cursor. Either the run goes on and
records nothing fatal, or it records a fatal fault and nothing else happens. -/
lemma next?_cases (next : (turn labels).next? statements s = some t) :
    s.state.drawing.LeadsTo t.state.drawing ∧
      ((t.index.isSome ∧ ∀ e ∈ t.state.errors, e ∈ s.state.errors ∨ ¬ e.isFatal) ∨
        ∃ index d, s.index = some index ∧ t.index = none ∧ d.isFatal ∧
          s.state.drawing.WantsCursor d ∧
          t.state = { s.state with errors := s.state.errors.push (d.atStatement index) }) := by
  obtain ⟨index, stmt, here, -, turned⟩ := Turn.next?_eq_some next
  rcases turn_cases turned with ⟨effect, goesOn⟩ | ⟨d, failed, goesOn, after⟩
  · refine ⟨effect.leadsTo, .inl ⟨goesOn, fun e mem => .inl ?_⟩⟩
    rwa [effect.errors_eq] at mem
  · -- the statement has failed, so only its diagnostic is new
    refine ⟨.inl (by rw [after]), ?_⟩
    by_cases fatal : d.isFatal
    · rw [if_pos fatal] at goesOn
      exact .inr ⟨index, d, here, goesOn, fatal, exec_wantsCursor labels _ stmt d failed, after⟩
    · rw [if_neg fatal] at goesOn
      refine .inl ⟨by rw [goesOn]; rfl, fun e mem => ?_⟩
      rw [after, Array.mem_push] at mem
      rcases mem with mem | rfl
      · exact .inl mem
      · exact .inr fatal

/-- Turns lead from one drawing to another. -/
lemma after?_leadsTo {n : Nat} (reached : (turn labels).after? statements s n = some t) :
    s.state.drawing.LeadsTo t.state.drawing := by
  refine Turn.after?_induction (motive := fun t => s.state.drawing.LeadsTo t.state.drawing)
    (.refl _) ?_ reached
  intro t u leads next
  exact leads.trans (next?_cases next).1

/-- As long as a run goes on, it has recorded nothing fatal. -/
lemma after?_recoverable {n : Nat} (start : ∀ e ∈ s.state.errors, ¬ e.isFatal)
    (reached : (turn labels).after? statements s n = some t) (goesOn : t.index.isSome) :
    ∀ e ∈ t.state.errors, ¬ e.isFatal := by
  refine Turn.after?_induction
    (motive := fun t => t.index.isSome → ∀ e ∈ t.state.errors, ¬ e.isFatal)
    (fun _ => start) ?_ reached goesOn
  intro t u before next goesOn e mem
  obtain ⟨index, stmt, here, -⟩ := Turn.next?_eq_some next
  obtain ⟨-, ⟨-, added⟩ | ⟨_, _, -, ended, -⟩⟩ := next?_cases next
  · rcases added e mem with old | new
    · exact before (by rw [here]; rfl) e old
    · exact new
  · rw [ended] at goesOn
    cases goesOn

end Run

end FlatMachine

namespace Program

variable {p : Program} {canvas : Canvas}

/-- Once the cursor is placed, it stays for the rest of the run. -/
lemma cursor_stays {i j : Nat} {s t : Moment Machine} (le : i ≤ j)
    (earlier : p.moment? canvas i = some s) (later : p.moment? canvas j = some t)
    (placed : s.state.drawing.cursor.isSome) : t.state.drawing.cursor.isSome := by
  obtain ⟨f, reached, rfl⟩ := flat_of_moment? earlier
  obtain ⟨g, reached', rfl⟩ := flat_of_moment? later
  obtain ⟨k, rfl⟩ := Nat.exists_eq_add_of_le le
  rw [flatMoment?_add, reached] at reached'
  exact (FlatMachine.after?_leadsTo reached').isSome_cursor placed

/-- A run leads from an empty drawing to that of each moment. -/
lemma leadsTo_flatMoment? {n : Nat} {s : Moment FlatMachine}
    (reached : p.flatMoment? canvas n = some s) :
    Drawing.LeadsTo ⟨canvas, none⟩ s.state.drawing :=
  FlatMachine.after?_leadsTo reached

/-- As long as a run goes on, it has recorded no fatal diagnostic. -/
lemma recoverable_flatMoment? {n : Nat} {s : Moment FlatMachine}
    (reached : p.flatMoment? canvas n = some s) (goesOn : s.index.isSome) :
    ∀ e ∈ s.state.errors.toList, ¬ e.isFatal := by
  have none_yet : ∀ e ∈ (FlatMachine.start canvas).errors, ¬ e.isFatal := by
    intro e mem
    cases Array.not_mem_empty e mem
  intro e mem
  exact FlatMachine.after?_recoverable none_yet reached goesOn e (Array.mem_toList_iff.mp mem)

/-- A run that is stopped was stopped by the statement before, for want of a cursor. -/
lemma stopped_flatMoment? {n : Nat} {last : Moment FlatMachine}
    (reached : p.flatMoment? canvas n = some last) (stopped : last.index = none) :
    ∃ k s index, ∃ d : Diagnostic, n = k + 1 ∧ p.flatMoment? canvas k = some s ∧
      s.index = some index ∧ d.isFatal ∧ d.code = .notSpawned ∧ s.state.drawing = ⟨canvas, none⟩ ∧
      last.state = { s.state with errors := s.state.errors.push (d.atStatement index) } := by
  cases n with
  | zero =>
    -- at first there is a statement to come
    cases reached
    cases stopped
  | succ k =>
    rw [flatMoment?_succ] at reached
    obtain ⟨s, earlier, next⟩ := Option.bind_eq_some_iff.mp reached
    obtain ⟨-, ⟨goesOn, -⟩ | ⟨index, d, here, -, fatal, wants, state⟩⟩ :=
      FlatMachine.next?_cases next
    · rw [stopped] at goesOn
      cases goesOn
    · obtain ⟨code, missing⟩ := wants fatal
      have untouched := (leadsTo_flatMoment? earlier).eq_of_cursor_none missing
      exact ⟨k, s, index, d, rfl, earlier, here, fatal, code, untouched, state⟩

/-- How a run ends. A cursor, once placed, is there to the end, and if there is none at the end, the
canvas is as it was. If no diagnostic is fatal, control has left the program. Otherwise one is, and
it is the last: it says that there is no cursor, nothing has been drawn, and the variables are what
they were when it occurred. -/
theorem execute_ending {limit : Nat} {after : Canvas} {report : Report}
    (ended : p.execute limit canvas = some (report, after)) :
    (∀ i j s t, i ≤ j → p.moment? canvas i = some s → p.moment? canvas j = some t →
      s.state.drawing.cursor.isSome → t.state.drawing.cursor.isSome) ∧
    (report.cursor = none → after = canvas) ∧
    ∃ n last, p.moment? canvas n = some last ∧ p.moment? canvas (n + 1) = none ∧
      last.state.report = report ∧ last.state.drawing.canvas = after ∧
      ((∀ e ∈ report.errors, ¬ e.isFatal) ∧ (∃ index, last.index = some index ∧ p.size ≤ index) ∨
        ∃ k s index d, n = k + 1 ∧ p.moment? canvas k = some s ∧ s.index = some index ∧
          report.errors = s.state.errors.toList ++ [d] ∧ d.statement = some index ∧
          (∀ e ∈ s.state.errors.toList, ¬ e.isFatal) ∧ d.isFatal ∧ d.code = .notSpawned ∧
          s.state.drawing = ⟨canvas, none⟩ ∧ report.cursor = none ∧ after = canvas ∧
          report.globals = s.state.scope.globals) := by
  obtain ⟨n, last, reached, finished, rfl, rfl⟩ := execute_last ended
  refine ⟨fun i j s t => cursor_stays, fun missing => ?_, n, last.map FlatMachine.machine,
    moment?_of_flat reached, ?_, rfl, rfl, ?_⟩
  · rw [(leadsTo_flatMoment? reached).eq_of_cursor_none missing]
  · rw [moment?_eq_flat, flatMoment?_succ, reached, Option.bind_some, finished]
    rfl
  rcases Turn.next?_eq_none finished with stopped | ⟨index, here, left⟩
  · right
    obtain ⟨k, s, index, d, rfl, earlier, here, fatal, code, untouched, state⟩ :=
      stopped_flatMoment? reached stopped
    have before := recoverable_flatMoment? earlier (by rw [here]; rfl)
    rw [FlatMachine.report, state, untouched]
    exact ⟨k, s.map FlatMachine.machine, index, d.atStatement index, rfl, moment?_of_flat earlier,
      here, Array.toList_push, rfl, before, fatal, code, untouched, rfl, rfl, rfl⟩
  · left
    exact ⟨recoverable_flatMoment? reached (by rw [here]; rfl), index, here, left⟩

/-- A program that needs a cursor before there is one ends there, and draws nothing. -/
theorem execute_ending_unplaced :
    let p : Program := ⟨#[.assign "x" (.number 1.0 .start) .start,
      .call .size [.var "x" .start] .start, .assign "x" (.number 2.0 .start) .start]⟩
    let canvas : Canvas := .blank 1 .red
    let report : Report :=
      ⟨[(Fault.notSpawned.diagnose .start).atStatement 1], none, ⟨[("x", .number 1.0)]⟩⟩
    p.execute 2 canvas = some (report, canvas) ∧
      ∃ n last, p.moment? canvas n = some last ∧ p.moment? canvas (n + 1) = none ∧
        last.state.report = report := by
  intro p canvas report
  have ended : p.execute 2 canvas = some (report, canvas) := rfl
  obtain ⟨-, -, n, last, reached, finished, left, -⟩ := execute_ending ended
  exact ⟨ended, n, last, reached, finished, left⟩

end Program

end Easel
