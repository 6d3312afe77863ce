import Easel.Proofs.Flat

/-!
# Putting a label into a program

A label that nothing jumps to can stand anywhere. It shifts all statements after it by one place,
and with them the places that other labels stand for (`Program.find?_insertLabel`) and the
statements that diagnostics name. Nothing else changes: turn by turn, the program with the label
does what the program does (`Program.turn_insertLabel`), and now and then it passes the label on the
way (`Program.pass_insertLabel`).

Main statement: the two programs go through the same machines and leave the same report, up to that
shift (`Program.execute_insertLabel`).
-/

namespace Easel

/-- The index of a statement after one was put in at index `k`. -/
def past (k index : Nat) : Nat := if index < k then index else index + 1

/-- The diagnostic, with the index of its statement changed. -/
def Diagnostic.move (f : Nat → Nat) (d : Diagnostic) : Diagnostic :=
  { d with statement := d.statement.map f }

/-- The report, with the indices of statements changed. -/
def Report.move (f : Nat → Nat) (r : Report) : Report :=
  { r with errors := r.errors.map (Diagnostic.move f) }

/-- The machine, with the indices of statements changed in what it has recorded. -/
def Machine.move (f : Nat → Nat) (m : Machine) : Machine :=
  { m with errors := m.errors.map (Diagnostic.move f) }

/-- The moment, with the index of the next statement and the state changed. -/
def Moment.move {σ : Type} (f : Nat → Nat) (g : σ → σ) (s : Moment σ) : Moment σ :=
  ⟨s.index.map f, g s.state⟩

/-- The label that a statement jumps to. -/
def Stmt.jump? : Stmt → Option String
  | .goTo name _ _ => some name
  | _ => none

/-- The program with a label put in before the statement with index `k`. -/
def Program.insertLabel (p : Program) (k : Nat) (name : String) (position : Position) : Program :=
  ⟨(p.statements.toList.take k ++ .label name position :: p.statements.toList.drop k).toArray⟩

namespace FlatMachine

variable {f : Nat → Nat} {m : FlatMachine}

/-- The machine, with the indices of statements changed in what it has recorded. -/
def move (f : Nat → Nat) (m : FlatMachine) : FlatMachine :=
  { m with errors := m.errors.map (Diagnostic.move f) }

/-- There is nothing to move in the beginning. -/
lemma move_start (canvas : Canvas) : (start canvas).move f = start canvas := by
  rw [move, start, Array.map_empty]

/-- Moving the diagnostics of a machine moves those of its report. -/
lemma report_move : (m.move f).report = m.report.move f := by
  rw [report, report, Report.move, move, Array.toList_map]

mutual

/-- What was recorded does not matter for the value of an expression. -/
lemma value_move : ∀ e, (m.move f).value e = m.value e
  | .number n _ => by rw [value, value]
  | .text s _ => by rw [value, value]
  | .var name position => by
    rw [value, value]
    rfl
  | .binary left op right position => by rw [value, value, value_move left, value_move right]
  | .call instruction arguments position => by
    rw [value, value, values_move arguments]
    rfl

/-- Values do not depend on the diagnostics. -/
lemma values_move : ∀ es, (m.move f).values es = m.values es
  | [] => by rw [values, values]
  | e :: rest => by rw [values, values, value_move e, values_move rest]

end

/-- Numbers do not depend on the diagnostics. -/
lemma int_move (e : Expr) : (m.move f).int e = m.int e := by
  rw [int, int, value_move]

/-- What is made of the outcome of two parts is made of that of the second. -/
lemma map_bind {ε α β γ : Type} (x : Except ε α) (g : α → Except ε β) (h : β → γ) :
    (x >>= g).map h = x >>= fun a => (g a).map h := by
  cases x <;> rfl

/-- A statement does the same to a machine that has recorded other indices. If it jumps, its label
stands at the other index. -/
lemma exec_move {labels labels' : NameMap Nat} {stmt : Stmt}
    (stands : ∀ name, stmt.jump? = some name →
      labels'.find? name = (labels.find? name).map f) :
    (m.move f).exec labels' stmt =
      (m.exec labels stmt).map fun done => (done.1.map f, done.2.move f) := by
  cases stmt with
  | spawn x y position =>
    rw [exec, exec, int_move, int_move, map_bind]
    refine bind_congr fun a => ?_
    rw [map_bind]
    refine bind_congr fun b => ?_
    change (if m.drawing.canvas.contains ⟨a, b⟩ then _ else _) = _
    split <;> rfl
  | assign name e position =>
    rw [exec, exec, value_move, map_bind]
    rfl
  | label name position => rfl
  | goTo name e position =>
    rw [exec, exec, value_move, map_bind, stands name rfl]
    refine bind_congr fun v => ?_
    split
    · cases labels.find? name <;> rfl
    · rfl
  | call instruction arguments position =>
    rw [exec, exec, values_move, map_bind]
    refine bind_congr fun values => ?_
    rw [map_bind]
    rfl

end FlatMachine

namespace Program

variable {p : Program} {k : Nat} {name : String} {position : Position}

/-- The places in one table are those in another, after a statement was put in at index `k`. A name
is left out. -/
def Shifted (k : Nat) (name : String) (table table' : NameMap Nat) : Prop :=
  ∀ other, other ≠ name → table'.find? other = (table.find? other).map (past k)

namespace Shifted

variable {table table' : NameMap Nat}

/-- Noting a label keeps two tables shifted against each other. -/
lemma noteLabel (shifted : Shifted k name table table') (entry : Stmt × Nat) :
    Shifted k name (noteLabel table entry) (noteLabel table' (entry.1, past k entry.2)) := by
  intro other different
  rw [Program.noteLabel, Program.noteLabel]
  cases entry.1.labelName? with
  | none => exact shifted other different
  | some own =>
    simp only [NameMap.find?_insert]
    split
    · rfl
    · exact shifted other different

/-- Noting labels keeps two tables shifted against each other. -/
lemma foldl (entries : List (Stmt × Nat)) :
    ∀ {table table' : NameMap Nat}, Shifted k name table table' →
      Shifted k name (entries.foldl Program.noteLabel table)
        ((entries.map fun entry => (entry.1, past k entry.2)).foldl Program.noteLabel table') := by
  induction entries with
  | nil => exact id
  | cons entry entries ih => exact fun shifted => ih (shifted.noteLabel entry)

/-- Noting the label itself keeps two tables shifted against each other. -/
lemma note_own (shifted : Shifted k name table table') (position : Position) (index : Nat) :
    Shifted k name table (Program.noteLabel table' (.label name position, index)) := by
  intro other different
  change (table'.insert name index).find? other = _
  rw [NameMap.find?_insert, if_neg different]
  exact shifted other different

end Shifted

/-- Statements before the label keep their places. -/
lemma zipIdx_before (stmts : List Stmt) : ∀ {i : Nat}, i + stmts.length ≤ k →
    (stmts.zipIdx i).map (fun entry => (entry.1, past k entry.2)) = stmts.zipIdx i := by
  induction stmts with
  | nil => exact fun _ => rfl
  | cons stmt stmts ih =>
    intro i before
    rw [List.length_cons] at before
    rw [List.zipIdx_cons, List.map_cons, ih (by omega), past, if_pos (by omega)]

/-- Statements after the label are shifted by one place. -/
lemma zipIdx_after (stmts : List Stmt) : ∀ {i : Nat}, k ≤ i →
    (stmts.zipIdx i).map (fun entry => (entry.1, past k entry.2)) = stmts.zipIdx (i + 1) := by
  induction stmts with
  | nil => exact fun _ => rfl
  | cons stmt stmts ih =>
    intro i after
    rw [List.zipIdx_cons, List.map_cons, ih (by omega), List.zipIdx_cons, past,
      if_neg (by omega)]

/-- As many statements stand before the label as its place says. -/
lemma length_before (within : k ≤ p.size) : (p.statements.toList.take k).length = k := by
  rw [List.length_take]
  exact Nat.min_eq_left within

/-- The other labels stand where they stood, after the shift. -/
lemma find?_insertLabel (within : k ≤ p.size) {other : String} (different : other ≠ name) :
    (p.insertLabel k name position).labels.find? other = (p.labels.find? other).map (past k) := by
  have length := length_before within
  have split : p.labels = ((p.statements.toList.drop k).zipIdx k).foldl noteLabel
      ((p.statements.toList.take k).zipIdx.foldl noteLabel .empty) := by
    conv => lhs; rw [labels, ← List.take_append_drop k p.statements.toList]
    rw [List.zipIdx_append, List.foldl_append, length, Nat.zero_add]
  have split' : (p.insertLabel k name position).labels =
      ((p.statements.toList.drop k).zipIdx (k + 1)).foldl noteLabel
        (noteLabel ((p.statements.toList.take k).zipIdx.foldl noteLabel .empty)
          (.label name position, k)) := by
    rw [labels, insertLabel, List.zipIdx_append, List.foldl_append, length, Nat.zero_add]
    rfl
  have before : Shifted k name ((p.statements.toList.take k).zipIdx.foldl noteLabel .empty)
      ((p.statements.toList.take k).zipIdx.foldl noteLabel .empty) := by
    have start : Shifted k name .empty .empty := fun _ _ => rfl
    have shifted := start.foldl (p.statements.toList.take k).zipIdx
    rwa [zipIdx_before _ (by omega)] at shifted
  have after := (before.note_own position k).foldl ((p.statements.toList.drop k).zipIdx k)
  rw [zipIdx_after _ (Nat.le_refl k), ← split, ← split'] at after
  exact after other different

/-- Every statement is found again, at its index after the shift. -/
lemma statement_insertLabel (within : k ≤ p.size) (index : Nat) :
    (p.insertLabel k name position).statements[past k index]? = p.statements[index]? := by
  have length := length_before within
  rw [insertLabel, List.getElem?_toArray, past]
  split
  · next before =>
    rw [List.getElem?_append_left (by omega), List.getElem?_take_of_lt before,
      Array.getElem?_toList]
  · next after =>
    have distance : index + 1 - k = index - k + 1 := by omega
    have back : k + (index - k) = index := by omega
    rw [List.getElem?_append_right (by omega), length, distance, List.getElem?_cons_succ,
      List.getElem?_drop, back, Array.getElem?_toList]

/-- The label stands at its place. -/
lemma label_insertLabel (within : k ≤ p.size) :
    (p.insertLabel k name position).statements[k]? = some (.label name position) := by
  have length := length_before within
  rw [insertLabel, List.getElem?_toArray, List.getElem?_append_right (by omega), length,
    Nat.sub_self, List.getElem?_cons_zero]

/-- What comes next once the label is there: the statement that came next without it, or the label
that stands in front of it now. -/
def Meets (k : Nat) (next next' : Option Nat) : Prop :=
  next' = next.map (past k) ∨ next = some k ∧ next' = some k

/-- The statement after one that corresponds to another corresponds to the one after that. -/
lemma meets_succ (k index : Nat) : Meets k (some (index + 1)) (some (past k index + 1)) := by
  have succ : past k index + 1 = past k (index + 1) ∨ index + 1 = k ∧ past k index + 1 = k := by
    unfold past
    split <;> split <;> omega
  obtain same | ⟨last, label⟩ := succ
  · exact .inl (congrArg some same)
  · exact .inr ⟨congrArg some last, congrArg some label⟩

/-- A statement does what it does without the label. -/
lemma turn_insertLabel (within : k ≤ p.size)
    (unused : ∀ stmt ∈ p.statements, stmt.jump? ≠ some name) (position : Position)
    {index : Nat} {stmt : Stmt}
    (found : p.statements[index]? = some stmt) {m after : FlatMachine} {next : Option Nat}
    (turned : FlatMachine.turn p.labels index stmt m = (next, after)) :
    ∃ next', Meets k next next' ∧
      FlatMachine.turn (p.insertLabel k name position).labels (past k index) stmt
        (m.move (past k)) = (next', after.move (past k)) := by
  -- the statement jumps to no other label than one that was there before
  have stands : ∀ other, stmt.jump? = some other →
      (p.insertLabel k name position).labels.find? other = (p.labels.find? other).map (past k) := by
    intro other jump
    refine find?_insertLabel within ?_
    rintro rfl
    exact unused stmt (Array.mem_of_getElem? found) jump
  rw [FlatMachine.turn] at turned
  rw [FlatMachine.turn, FlatMachine.exec_move stands]
  cases result : m.exec p.labels stmt with
  | ok done =>
    rw [result] at turned
    obtain ⟨target, left⟩ := done
    cases turned
    cases target with
    | none => exact ⟨_, meets_succ k index, rfl⟩
    | some target => exact ⟨_, .inl rfl, rfl⟩
  | error d =>
    rw [result] at turned
    cases turned
    refine ⟨if d.isFatal then none else some (past k index + 1), ?_, ?_⟩
    · split
      · exact .inl rfl
      · exact meets_succ k index
    · simp only [FlatMachine.move, Array.map_push]
      rfl

/-- The label is passed without a trace, if it comes next at all. -/
lemma pass_insertLabel (within : k ≤ p.size) (name : String) (position : Position)
    {next next' : Option Nat} (meets : Meets k next next') (m : FlatMachine) :
    ∃ n, (FlatMachine.turn (p.insertLabel k name position).labels).after?
      (p.insertLabel k name position).statements ⟨next', m⟩ n = some ⟨next.map (past k), m⟩ := by
  obtain rfl | ⟨rfl, rfl⟩ := meets
  · exact ⟨0, rfl⟩
  · refine ⟨1, ?_⟩
    have after : past k k = k + 1 := if_neg (Nat.lt_irrefl k)
    rw [Turn.after?, Turn.after?, Option.bind_some, Turn.next?, Option.bind_some,
      label_insertLabel within, Option.map_some, Option.map_some, after]
    rfl

/-- Whatever comes next without the label comes with it, perhaps after the label. -/
lemma next?_insertLabel (within : k ≤ p.size)
    (unused : ∀ stmt ∈ p.statements, stmt.jump? ≠ some name) (position : Position)
    {s t : Moment FlatMachine}
    (next : (FlatMachine.turn p.labels).next? p.statements s = some t) :
    ∃ n, (FlatMachine.turn (p.insertLabel k name position).labels).after?
      (p.insertLabel k name position).statements (s.move (past k) (·.move (past k))) (n + 1) =
        some (t.move (past k) (·.move (past k))) := by
  obtain ⟨index, stmt, here, found, turned⟩ := Turn.next?_eq_some next
  obtain ⟨next', meets, turned'⟩ := turn_insertLabel within unused position found turned
  have step : (FlatMachine.turn (p.insertLabel k name position).labels).next?
      (p.insertLabel k name position).statements (s.move (past k) (·.move (past k))) =
        some ⟨next', t.state.move (past k)⟩ := by
    simp [Turn.next?, Moment.move, here, statement_insertLabel within, found, turned']
  obtain ⟨n, passed⟩ := pass_insertLabel within name position meets (t.state.move (past k))
  exact ⟨n, (Turn.after?_succ step n).trans passed⟩

/-- A run that has ended without the label has ended with it. -/
lemma ended_insertLabel (within : k ≤ p.size) {s : Moment FlatMachine}
    (ended : (FlatMachine.turn p.labels).next? p.statements s = none) :
    (FlatMachine.turn (p.insertLabel k name position).labels).next?
      (p.insertLabel k name position).statements (s.move (past k) (·.move (past k))) = none := by
  obtain stopped | ⟨index, here, beyond⟩ := Turn.next?_eq_none ended
  · simp [Turn.next?, Moment.move, stopped]
  · simp [Turn.next?, Moment.move, here, statement_insertLabel within, beyond]

/-- Every moment of a run has its counterpart with the label, at the same time or later. -/
lemma flatMoment?_insertLabel (within : k ≤ p.size)
    (unused : ∀ stmt ∈ p.statements, stmt.jump? ≠ some name) (position : Position)
    {canvas : Canvas} {n : Nat} : ∀ {s : Moment FlatMachine}, p.flatMoment? canvas n = some s →
      ∃ n', n ≤ n' ∧ (p.insertLabel k name position).flatMoment? canvas n' =
        some (s.move (past k) (·.move (past k))) := by
  induction n with
  | zero =>
    intro s reached
    cases reached
    have meets : Meets k (some 0) (some 0) := by
      cases k with
      | zero => exact .inr ⟨rfl, rfl⟩
      | succ k => exact .inl rfl
    obtain ⟨n', passed⟩ := pass_insertLabel within name position meets (.start canvas)
    refine ⟨n', Nat.zero_le n', ?_⟩
    rw [Moment.move, FlatMachine.move_start]
    exact passed
  | succ n ih =>
    intro t reached
    obtain ⟨s, earlier, next⟩ := Option.bind_eq_some_iff.mp reached
    obtain ⟨n', le, reached'⟩ := ih earlier
    obtain ⟨d, followed⟩ := next?_insertLabel within unused position next
    refine ⟨n' + (d + 1), by omega, ?_⟩
    rw [flatMoment?_add, reached', Option.bind_some, followed]

/-- A label that no statement jumps to can be put in anywhere. Every moment of a run has its
counterpart, which has come to the same statement in the same state. The run ends with the label
just if it ends without it, and leaves the same canvas, cursor and variables. In its diagnostics the
statements after the label have moved on by one. -/
theorem execute_insertLabel (within : k ≤ p.size)
    (unused : ∀ stmt ∈ p.statements, stmt.jump? ≠ some name) (position : Position)
    (canvas : Canvas) :
    (∀ n s, p.moment? canvas n = some s →
      ∃ n', n ≤ n' ∧ (p.insertLabel k name position).moment? canvas n' =
        some (s.move (past k) (·.move (past k)))) ∧
    ∀ report after,
      (∃ limit, (p.insertLabel k name position).execute limit canvas = some (report, after)) ↔
        ∃ before, before.move (past k) = report ∧
          ∃ limit, p.execute limit canvas = some (before, after) := by
  refine ⟨?_, fun report after => ⟨?_, ?_⟩⟩
  · intro n s reached
    obtain ⟨f, flat, rfl⟩ := flat_of_moment? reached
    obtain ⟨n', le, moved⟩ := flatMoment?_insertLabel within unused position flat
    exact ⟨n', le, moment?_of_flat moved⟩
  · rintro ⟨limit, ended⟩
    obtain ⟨n', last', reached', finished', rfl, rfl⟩ := execute_last ended
    -- a moment after the end would have a counterpart after the end
    have gone : p.flatMoment? canvas (n' + 1) = none := by
      cases late : p.flatMoment? canvas (n' + 1) with
      | none => rfl
      | some s =>
        obtain ⟨n, le, reached⟩ := flatMoment?_insertLabel within unused position late
        have := Turn.le_last reached' finished' reached
        omega
    obtain ⟨n, last, reached, finished⟩ := Turn.exists_last gone
    obtain ⟨_, -, moved⟩ := flatMoment?_insertLabel within unused position reached
    have same := Turn.last_unique moved (ended_insertLabel within finished) reached' finished'
    cases same
    exact ⟨last.state.report, FlatMachine.report_move.symm, n + 1, execute_of_last reached finished⟩
  · rintro ⟨before, rfl, limit, ended⟩
    obtain ⟨n, last, reached, finished, rfl, rfl⟩ := execute_last ended
    obtain ⟨n', -, moved⟩ := flatMoment?_insertLabel within unused position reached
    refine ⟨n' + 1, ?_⟩
    rw [execute_of_last moved (ended_insertLabel within finished), ← FlatMachine.report_move]
    rfl

/-- A label inside of a loop shifts the place of another label and the statement of a diagnostic. -/
theorem execute_insertLabel_loop :
    let one : Expr := .number 1.0 .start
    let p : Program := ⟨#[.label "again" .start, .goTo "end" (.var "x" .start) .start,
      .assign "x" one .start, .goTo "again" one .start, .label "end" .start,
      .assign "y" (.var "z" .start) .start]⟩
    let canvas : Canvas := .blank 1 .white
    let unset (name : String) : Diagnostic := (Fault.undefinedVariable name).diagnose .start
    let report (index : Nat) : Report := ⟨[(unset "x").atStatement 1,
      (unset "z").atStatement index], none, ⟨[("x", .number 1.0)]⟩⟩
    2 ≤ p.size ∧ (∀ stmt ∈ p.statements, stmt.jump? ≠ some "here") ∧
      p.execute 9 canvas = some (report 5, canvas) ∧
      ∃ limit, (p.insertLabel 2 "here" .start).execute limit canvas =
        some (report 6, canvas) := by
  intro one p canvas unset report
  have within : 2 ≤ p.size := by decide
  have unused : ∀ stmt ∈ p.statements, stmt.jump? ≠ some "here" := by decide
  have ended : p.execute 9 canvas = some (report 5, canvas) := by decide +kernel
  exact ⟨within, unused, ended, ((execute_insertLabel within unused .start canvas).2 _ _).mpr
    ⟨_, rfl, 9, ended⟩⟩

end Program

end Easel
