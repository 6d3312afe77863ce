import Easel.Proofs.Halting

/-!
# Programs that only jump forward

A program may jump back for ever, and nothing else keeps it from ending. If every label that is
jumped to stands behind the jump, each turn leads to a larger index (`FlatMachine.turn_forward`), be
it by a jump, by going on, or past a statement that has failed. So no statement is carried out
twice, and the run ends after as many turns as there are statements, or earlier
(`Turn.Forward.exists_visits`).

Main statement: how such a run goes and what it records (`Program.execute_forward`).
-/

namespace Easel

namespace Turn

variable {σ : Type} {turn : Turn σ} {statements : Array Stmt}

/-- Every turn that goes on leads to a larger index. -/
def Forward (turn : Turn σ) (statements : Array Stmt) : Prop :=
  ∀ index stmt s next after, statements[index]? = some stmt →
    turn index stmt s = (some next, after) → index < next

/-- The index of the statement that is carried out at a moment. There is none at the end of a
run. -/
def current? (statements : Array Stmt) (s : Moment σ) : Option Nat :=
  s.index.filter (· < statements.size)

/-- From a moment on, the statements with the given indices are carried out in this order, and then
the run ends with the given moment. -/
inductive Visits (turn : Turn σ) (statements : Array Stmt) :
    Moment σ → List Nat → Moment σ → Prop where
  | ended {s} :
    turn.next? statements s = none →
    Visits turn statements s [] s
  | cons {s t index visited last} :
    s.index = some index →
    turn.next? statements s = some t →
    Visits turn statements t visited last →
    Visits turn statements s (index :: visited) last

/-- After the statements that it visits, a run has come to its last moment. -/
lemma Visits.reached {s last : Moment σ} {visited : List Nat}
    (visits : Visits turn statements s visited last) :
    turn.after? statements s visited.length = some last ∧ turn.next? statements last = none := by
  induction visits with
  | ended ended => exact ⟨rfl, ended⟩
  | cons _ next _ ih => exact ⟨(after?_succ next _).trans ih.1, ih.2⟩

/-- The statements of a run are those that it visits. -/
lemma Visits.current? {s last : Moment σ} {visited : List Nat}
    (visits : Visits turn statements s visited last) (k : Nat) :
    (turn.after? statements s k).bind (current? statements) = visited[k]? := by
  induction visits generalizing k with
  | @ended s ended =>
    cases k with
    | zero =>
      rcases next?_eq_none ended with absent | ⟨index, here, beyond⟩
      · simp [after?, Turn.current?, absent]
      · simp [after?, Turn.current?, here, beyond]
    | succ k => rw [after?_ended ended, Option.bind_none, List.getElem?_nil]
  | @cons s t index visited last here next _ ih =>
    cases k with
    | zero =>
      obtain ⟨_, stmt, here', found, -⟩ := next?_eq_some next
      cases here.symm.trans here'
      have inside := (Array.getElem?_eq_some_iff.mp found).1
      simp [after?, Turn.current?, here, inside]
    | succ k => rw [after?_succ next, ih, List.getElem?_cons_succ]

/-- A run whose turns lead forward ends, and it carries out its statements in increasing order. -/
lemma Forward.exists_visits (forward : Forward turn statements) (index : Nat) (s : σ) :
    ∃ visited last, Visits turn statements ⟨some index, s⟩ visited last ∧
      visited.Pairwise (· < ·) ∧ (∀ i ∈ visited, index ≤ i) ∧
      visited.length ≤ statements.size - index := by
  -- what is left of the program gets smaller with each turn
  induction left : statements.size - index using Nat.strongRecOn generalizing index s with
  | _ left ih =>
  subst left
  cases found : statements[index]? with
  | none =>
    have ended : turn.next? statements ⟨some index, s⟩ = none := by simp [next?, found]
    exact ⟨[], _, .ended ended, .nil, by simp, Nat.zero_le _⟩
  | some stmt =>
    have inside : index < statements.size := (Array.getElem?_eq_some_iff.mp found).1
    have step : turn.next? statements ⟨some index, s⟩ =
        some ⟨(turn index stmt s).1, (turn index stmt s).2⟩ := by simp [next?, found]
    rcases turned : turn index stmt s with ⟨_ | next, s'⟩
    · rw [turned] at step
      refine ⟨[index], _, .cons rfl step (.ended rfl), List.pairwise_singleton _ _, by simp, ?_⟩
      rw [List.length_singleton]
      omega
    · rw [turned] at step
      have larger := forward index stmt s next s' found turned
      obtain ⟨visited, last, visits, ascending, above, short⟩ :=
        ih (statements.size - next) (by omega) next s' rfl
      have behind : ∀ i ∈ visited, index < i := fun i mem =>
        Nat.lt_of_lt_of_le larger (above i mem)
      refine ⟨index :: visited, last, .cons rfl step visits, .cons behind ascending, ?_, ?_⟩
      · exact List.forall_mem_cons.mpr ⟨Nat.le_refl index, fun i mem => Nat.le_of_lt (behind i mem)⟩
      · rw [List.length_cons]
        omega

end Turn

namespace Program

/-- Every jump leads to a statement behind it, or to a label that does not exist. -/
def JumpsForward (p : Program) : Prop :=
  ∀ index name condition position target,
    p.statements[index]? = some (.goTo name condition position) →
    p.labels.find? name = some target → index < target

/-- The index of the statement that a run on a canvas carries out after a number of turns. -/
def visit? (p : Program) (canvas : Canvas) (turns : Nat) : Option Nat :=
  (p.moment? canvas turns).bind (Turn.current? p.statements)

end Program

namespace FlatMachine

/-- A statement that names the one to go on with is a jump to it. -/
lemma exec_target {labels : NameMap Nat} {m after : FlatMachine} {stmt : Stmt} {target : Nat}
    (done : m.exec labels stmt = .ok (some target, after)) :
    ∃ name condition position, stmt = .goTo name condition position ∧
      labels.find? name = some target := by
  cases stmt with
  | spawn x y position =>
    obtain ⟨a, -, done⟩ := bind_eq_ok.mp done
    obtain ⟨b, -, done⟩ := bind_eq_ok.mp done
    split at done <;> cases done
  | assign name value position =>
    obtain ⟨v, -, done⟩ := bind_eq_ok.mp done
    cases done
  | label name position => cases done
  | goTo name condition position =>
    obtain ⟨v, -, done⟩ := bind_eq_ok.mp done
    split at done
    · split at done
      · next found =>
        cases done
        exact ⟨name, condition, position, rfl, found⟩
      · cases done
    · cases done
  | call instruction arguments position =>
    obtain ⟨values, -, done⟩ := bind_eq_ok.mp done
    obtain ⟨yielded, -, done⟩ := bind_eq_ok.mp done
    cases done

/-- If all jumps lead forward, so does every turn. -/
lemma turn_forward {p : Program} (forward : p.JumpsForward) :
    (turn p.labels).Forward p.statements := by
  intro index stmt m next after found turned
  rw [turn] at turned
  cases result : m.exec p.labels stmt with
  | ok done =>
    obtain ⟨target, left⟩ := done
    rw [result] at turned
    cases turned
    cases target with
    | none => exact Nat.lt_succ_self index
    | some target =>
      obtain ⟨name, condition, position, rfl, label⟩ := exec_target result
      exact forward index name condition position target found label
  | error d =>
    rw [result] at turned
    by_cases fatal : d.isFatal
    · simp [fatal] at turned
    · simp [fatal] at turned
      omega

/-- The diagnostics name the statements that failed, in increasing order, and all of these stand
before the statement that is next. -/
def RecordsForward (s : Moment FlatMachine) : Prop :=
  ∃ failed : List Nat, s.state.errors.toList.map Diagnostic.statement = failed.map some ∧
    failed.Pairwise (· < ·) ∧ ∀ i ∈ failed, ∀ index, s.index = some index → i < index

/-- If jumps go forward, a turn records its diagnostic after all others. -/
lemma recordsForward_next {labels : NameMap Nat} {statements : Array Stmt}
    {s t : Moment FlatMachine} (forward : (turn labels).Forward statements)
    (records : RecordsForward s) (next : (turn labels).next? statements s = some t) :
    RecordsForward t := by
  obtain ⟨failed, recorded, ascending, before⟩ := records
  obtain ⟨index, stmt, here, found, turned⟩ := Turn.next?_eq_some next
  have onward : ∀ next, t.index = some next → index < next := by
    intro next goesOn
    exact forward index stmt s.state next t.state found (by rw [turned, goesOn])
  rcases turn_cases turned with ⟨effect, -⟩ | ⟨d, -, -, after⟩
  · refine ⟨failed, ?_, ascending, fun i mem next goesOn => ?_⟩
    · rw [effect.errors_eq, recorded]
    · exact Nat.lt_trans (before i mem index here) (onward next goesOn)
  · -- the statement that has just failed comes after all that failed before
    refine ⟨failed ++ [index], ?_, ?_, ?_⟩
    · rw [after, Array.toList_push, List.map_append, recorded, List.map_append]
      rfl
    · refine List.pairwise_append.mpr ⟨ascending, List.pairwise_singleton _ _, ?_⟩
      intro i mem j last
      rw [List.mem_singleton.mp last]
      exact before i mem index here
    · intro i mem next goesOn
      rcases List.mem_append.mp mem with mem | last
      · exact Nat.lt_trans (before i mem index here) (onward next goesOn)
      · rw [List.mem_singleton.mp last]
        exact onward next goesOn

end FlatMachine

namespace Program

variable {p : Program} {canvas : Canvas}

/-- The statements that are visited are those of the flat run. -/
lemma visit?_eq_flat (p : Program) (canvas : Canvas) (n : Nat) :
    p.visit? canvas n = (p.flatMoment? canvas n).bind (Turn.current? p.statements) := by
  rw [visit?, moment?_eq_flat]
  cases p.flatMoment? canvas n <;> rfl

/-- If jumps go forward, diagnostics are recorded in the order of the statements. -/
lemma recordsForward_flatMoment? (forward : p.JumpsForward) {n : Nat} {s : Moment FlatMachine}
    (reached : p.flatMoment? canvas n = some s) : FlatMachine.RecordsForward s := by
  refine Turn.after?_induction (motive := FlatMachine.RecordsForward) ?_ ?_ reached
  · exact ⟨[], rfl, .nil, by simp⟩
  · intro t u records next
    exact FlatMachine.recordsForward_next (FlatMachine.turn_forward forward) records next

/-- A program whose jumps all lead forward ends on every canvas. It carries out its statements in
increasing order, so no statement twice, and at most as many as it has. The statements that its
diagnostics name stand in increasing order, too. -/
theorem execute_forward (forward : p.JumpsForward) (canvas : Canvas) :
    ∃ (visited failed : List Nat) (report : Report) (after : Canvas),
      (∀ k, p.visit? canvas k = visited[k]?) ∧
      visited.Pairwise (· < ·) ∧ visited.length ≤ p.size ∧
      (∀ limit, visited.length < limit → p.execute limit canvas = some (report, after)) ∧
      report.errors.map Diagnostic.statement = failed.map some ∧ failed.Pairwise (· < ·) := by
  obtain ⟨visited, last, visits, ascending, -, short⟩ :=
    (FlatMachine.turn_forward forward).exists_visits 0 (.start canvas)
  obtain ⟨reached, ended⟩ := visits.reached
  obtain ⟨failed, recorded, ordered, -⟩ := recordsForward_flatMoment? forward reached
  refine ⟨visited, failed, last.state.report, last.state.drawing.canvas, fun k => ?_, ascending,
    short, fun limit enough => ?_, recorded, ordered⟩
  · rw [visit?_eq_flat]
    exact visits.current? k
  · have ran := Turn.runFrom_of_le enough (Turn.runFrom_of_last reached ended)
    rw [execute_eq_flat, flatExecute, ran]
    rfl

/-- Of two labels with one name the later one counts, and a jump without its label is not taken. -/
theorem execute_forward_labels :
    let one : Expr := .number 1.0 .start
    let p : Program := ⟨#[.label "end" .start, .goTo "nowhere" one .start, .goTo "end" one .start,
      .assign "x" one .start, .label "end" .start, .assign "y" (.var "x" .start) .start]⟩
    let canvas : Canvas := .blank 1 .white
    let report : Report := ⟨[((Fault.undefinedLabel "nowhere").diagnose .start).atStatement 1,
      ((Fault.undefinedVariable "x").diagnose .start).atStatement 5], none, .empty⟩
    p.JumpsForward ∧ p.visit? canvas 3 = some 4 ∧
      (∃ visited : List Nat, (∀ k, p.visit? canvas k = visited[k]?) ∧ visited.Pairwise (· < ·)) ∧
      p.execute 7 canvas = some (report, canvas) := by
  intro one p canvas report
  have stands : p.labels.find? "end" = some 4 := by decide
  have missing : p.labels.find? "nowhere" = none := by decide
  have forward : p.JumpsForward := by
    intro index name condition position target found label
    match index with
    | 0 | 1 | 2 | 3 | 4 | 5 => cases found <;> simp_all
    | n + 6 => cases found
  obtain ⟨visited, -, -, -, visits, ascending, -⟩ := execute_forward forward canvas
  exact ⟨forward, by decide +kernel, ⟨visited, visits, ascending⟩, by decide +kernel⟩

end Program

end Easel
