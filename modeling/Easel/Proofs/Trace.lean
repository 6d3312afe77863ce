import Easel.Machine.Run
import Mathlib.Tactic.Lemma

/-!
# Runs, moment by moment

A run goes through moments, one for each statement that is carried out and one at its end. How a
statement is carried out is left open here (`Turn`), so that machines of different kinds can be
compared on one program: if each of their turns agrees, so do all their moments
(`Turn.after?_rel`) and their results (`Turn.runFrom_rel`).

What holds at the first moment and outlasts each turn holds at all of them
(`Turn.after?_induction`). A run ends just if it has a last moment, and leaves the state of that
(`Turn.runFrom_last`, `Turn.runFrom_of_last`).
-/

namespace Easel

/-- A moment of a run: the index of the statement that is next, and the state. No statement is next
after a fatal fault. -/
structure Moment (σ : Type) where
  index : Option Nat
  state : σ

/-- The same moment, with the state seen in another way. -/
def Moment.map {σ τ : Type} (f : σ → τ) (s : Moment σ) : Moment τ := ⟨s.index, f s.state⟩

/-- How statements are carried out: from the index of a statement and the state, which index is
next and what becomes of the state. -/
abbrev Turn (σ : Type) := Nat → Stmt → σ → Option Nat × σ

namespace Turn

variable {σ τ : Type} (turn : Turn σ) (statements : Array Stmt)

/-- The moment after a given one. There is none if the run has ended. -/
def next? (s : Moment σ) : Option (Moment σ) :=
  s.index.bind fun index => statements[index]?.map fun stmt =>
    ⟨(turn index stmt s.state).1, (turn index stmt s.state).2⟩

/-- The moment after a number of turns. There is none if the run has ended before. -/
def after? (s : Moment σ) : (turns : Nat) → Option (Moment σ)
  | 0 => some s
  | n + 1 => (after? s n).bind (turn.next? statements)

/-- Runs statements from the given index on, as far as the limit allows. -/
def runFrom : (limit : Nat) → (index : Nat) → σ → Option σ
  | 0, _, _ => none
  | limit + 1, index, s =>
    match statements[index]? with
    | none => some s
    | some stmt =>
      match turn index stmt s with
      | (none, s) => some s
      | (some next, s) => runFrom limit next s

variable {turn statements}

/-- A next moment comes from a turn. -/
lemma next?_eq_some {s t : Moment σ} (next : turn.next? statements s = some t) :
    ∃ index stmt, s.index = some index ∧ statements[index]? = some stmt ∧
      turn index stmt s.state = (t.index, t.state) := by
  obtain ⟨index, here, next⟩ := Option.bind_eq_some_iff.mp next
  obtain ⟨stmt, found, rfl⟩ := Option.map_eq_some_iff.mp next
  exact ⟨index, stmt, here, found, rfl⟩

/-- A run has no next moment after a fatal fault or past its last statement. -/
lemma next?_eq_none {s : Moment σ} (ended : turn.next? statements s = none) :
    s.index = none ∨ ∃ index, s.index = some index ∧ statements.size ≤ index := by
  cases here : s.index with
  | none => exact .inl rfl
  | some index =>
    rw [next?, here, Option.bind_some, Option.map_eq_none_iff] at ended
    exact .inr ⟨index, rfl, Array.getElem?_eq_none_iff.mp ended⟩

/-- Turns after the first one begin at the next moment. -/
lemma after?_succ {s t : Moment σ} (next : turn.next? statements s = some t) (n : Nat) :
    turn.after? statements s (n + 1) = turn.after? statements t n := by
  induction n with
  | zero => exact next
  | succ n ih => exact congrArg (Option.bind · (turn.next? statements)) ih

/-- There are no moments after the last one. -/
lemma after?_ended {s : Moment σ} (ended : turn.next? statements s = none) (n : Nat) :
    turn.after? statements s (n + 1) = none := by
  induction n with
  | zero => exact ended
  | succ n ih => exact congrArg (Option.bind · (turn.next? statements)) ih

/-- Turns one after another add up. -/
lemma after?_add (s : Moment σ) (n k : Nat) :
    turn.after? statements s (n + k) =
      (turn.after? statements s n).bind (turn.after? statements · k) := by
  induction k with
  | zero => exact (Option.bind_fun_some _).symm
  | succ k ih => exact (congrArg (Option.bind · _) ih).trans (Option.bind_assoc ..)

/-- What holds at the beginning and outlasts each turn holds at every moment. -/
lemma after?_induction {s : Moment σ} {motive : Moment σ → Prop} (start : motive s)
    (step : ∀ t u, motive t → turn.next? statements t = some u → motive u) :
    ∀ {n : Nat} {t : Moment σ}, turn.after? statements s n = some t → motive t := by
  intro n
  induction n with
  | zero =>
    intro t reached
    cases reached
    exact start
  | succ n ih =>
    intro u reached
    obtain ⟨t, earlier, next⟩ := Option.bind_eq_some_iff.mp reached
    exact step t u (ih earlier) next

/-- A run carries out the statement it has come to. -/
lemma runFrom_some {index : Nat} {stmt : Stmt} (found : statements[index]? = some stmt)
    (limit : Nat) (s : σ) :
    turn.runFrom statements (limit + 1) index s =
      match turn index stmt s with
      | (none, s) => some s
      | (some next, s) => turn.runFrom statements limit next s := by
  rw [runFrom, found]

/-- A run that has left the program ends. -/
lemma runFrom_none {index : Nat} (left : statements[index]? = none) (limit : Nat) (s : σ) :
    turn.runFrom statements (limit + 1) index s = some s := by
  rw [runFrom, left]

/-- A run that ends leaves the state of its last moment. -/
lemma runFrom_last {limit : Nat} : ∀ {index : Nat} {s t : σ},
    turn.runFrom statements limit index s = some t →
      ∃ n next, turn.after? statements ⟨some index, s⟩ n = some ⟨next, t⟩ ∧
        turn.next? statements ⟨next, t⟩ = none := by
  -- on the bound of the run, one turn after another
  induction limit with
  | zero =>
    intro index s t ran
    cases ran
  | succ limit ih =>
    intro index s t ran
    cases found : statements[index]? with
    | none =>
      rw [runFrom_none found] at ran
      cases ran
      exact ⟨0, some index, rfl, by simp [next?, found]⟩
    | some stmt =>
      rw [runFrom_some found] at ran
      have step : turn.next? statements ⟨some index, s⟩ =
          some ⟨(turn index stmt s).1, (turn index stmt s).2⟩ := by simp [next?, found]
      rcases result : turn index stmt s with ⟨_ | next, s'⟩
      · rw [result] at ran step
        cases ran
        exact ⟨1, none, step, rfl⟩
      · rw [result] at ran step
        obtain ⟨n, last, reached, ended⟩ := ih ran
        exact ⟨n + 1, last, (after?_succ step n).trans reached, ended⟩

/-- A run ends if it has a last moment, and leaves its state. -/
lemma runFrom_of_last {n : Nat} : ∀ {index : Nat} {s : σ} {last : Moment σ},
    turn.after? statements ⟨some index, s⟩ n = some last → turn.next? statements last = none →
      turn.runFrom statements (n + 1) index s = some last.state := by
  induction n with
  | zero =>
    intro index s last reached ended
    cases reached
    obtain absent | ⟨_, here, size⟩ := next?_eq_none ended
    · cases absent
    · cases here
      exact runFrom_none (Array.getElem?_eq_none_iff.mpr size) 0 s
  | succ n ih =>
    intro index s last reached ended
    cases found : statements[index]? with
    | none =>
      have stopped : turn.next? statements ⟨some index, s⟩ = none := by simp [next?, found]
      rw [after?_ended stopped] at reached
      cases reached
    | some stmt =>
      have step : turn.next? statements ⟨some index, s⟩ =
          some ⟨(turn index stmt s).1, (turn index stmt s).2⟩ := by simp [next?, found]
      rw [after?_succ step] at reached
      rw [runFrom_some found]
      rcases result : turn index stmt s with ⟨_ | next, s'⟩
      · rw [result] at reached
        -- nothing is next, so this moment is the last
        cases n with
        | zero =>
          cases reached
          rfl
        | succ n =>
          rw [after?_ended rfl] at reached
          cases reached
      · rw [result] at reached
        exact ih reached ended

/-- A run that ends does so in the same way if it may take longer. -/
lemma runFrom_of_le {limit : Nat} : ∀ {limit' index : Nat} {s t : σ}, limit ≤ limit' →
    turn.runFrom statements limit index s = some t →
      turn.runFrom statements limit' index s = some t := by
  induction limit with
  | zero =>
    intro limit' index s t le ran
    cases ran
  | succ limit ih =>
    intro limit' index s t le ran
    obtain ⟨more, rfl⟩ := Nat.exists_eq_add_of_le le
    rw [Nat.add_right_comm]
    cases found : statements[index]? with
    | none =>
      rw [runFrom_none found] at ran ⊢
      exact ran
    | some stmt =>
      rw [runFrom_some found] at ran ⊢
      rcases result : turn index stmt s with ⟨_ | next, s'⟩
      · rw [result] at ran
        exact ran
      · rw [result] at ran
        exact ih (Nat.le_add_right limit more) ran

/-- A run without a moment has ended before. -/
lemma exists_last {s : Moment σ} {n : Nat} (gone : turn.after? statements s n = none) :
    ∃ k last, turn.after? statements s k = some last ∧ turn.next? statements last = none := by
  induction n with
  | zero => cases gone
  | succ n ih =>
    cases reached : turn.after? statements s n with
    | none => exact ih reached
    | some last =>
      rw [after?, reached, Option.bind_some] at gone
      exact ⟨n, last, reached, gone⟩

/-- No moment comes after the last. -/
lemma le_last {s t last : Moment σ} {n k : Nat} (reached : turn.after? statements s n = some last)
    (ended : turn.next? statements last = none) (other : turn.after? statements s k = some t) :
    k ≤ n := by
  refine Nat.le_of_not_lt fun late => ?_
  obtain ⟨d, rfl⟩ := Nat.exists_eq_add_of_lt late
  rw [Nat.add_assoc, after?_add, reached, Option.bind_some, after?_ended ended] at other
  cases other

/-- A run has one last moment. -/
lemma last_unique {s last last' : Moment σ} {n k : Nat}
    (reached : turn.after? statements s n = some last) (ended : turn.next? statements last = none)
    (reached' : turn.after? statements s k = some last')
    (ended' : turn.next? statements last' = none) : last = last' := by
  have same : n = k :=
    Nat.le_antisymm (le_last reached' ended' reached) (le_last reached ended reached')
  subst same
  exact Option.some.inj (reached.symm.trans reached')

section Rel

variable {R : σ → τ → Prop} {other : Turn τ}

/-- Related results look the same if related states do. -/
lemma map_eq_of_rel {υ : Type} {x : Option σ} {y : Option τ} (rel : Option.Rel R x y)
    {f : σ → υ} {g : τ → υ} (alike : ∀ s t, R s t → f s = g t) : x.map f = y.map g := by
  cases rel with
  | none => rfl
  | some related => exact congrArg some (alike _ _ related)

/-- Two turns agree on related states: they go on with the same statement, and leave related
states. -/
def Agree (R : σ → τ → Prop) (turn : Turn σ) (other : Turn τ) (statements : Array Stmt) : Prop :=
  ∀ index stmt s t, statements[index]? = some stmt → R s t →
    (turn index stmt s).1 = (other index stmt t).1 ∧
      R (turn index stmt s).2 (other index stmt t).2

/-- Turns that agree lead to moments that agree. -/
lemma next?_rel (agree : Agree R turn other statements) {s : Moment σ} {t : Moment τ}
    (same : s.index = t.index) (related : R s.state t.state) :
    Option.Rel (fun s t => s.index = t.index ∧ R s.state t.state)
      (turn.next? statements s) (other.next? statements t) := by
  rw [next?, next?, same]
  cases t.index with
  | none => exact .none
  | some index =>
    cases found : statements[index]? with
    | none => simp [found]
    | some stmt =>
      have step := agree index stmt s.state t.state found related
      simpa [found] using Option.Rel.some step

/-- Turns that agree give the same indices and related states, moment for moment. -/
lemma after?_rel (agree : Agree R turn other statements) {s : Moment σ} {t : Moment τ}
    (same : s.index = t.index) (related : R s.state t.state) (n : Nat) :
    Option.Rel (fun s t => s.index = t.index ∧ R s.state t.state)
      (turn.after? statements s n) (other.after? statements t n) := by
  induction n with
  | zero => exact .some ⟨same, related⟩
  | succ n ih =>
    rw [after?, after?]
    generalize turn.after? statements s n = s' at ih ⊢
    generalize other.after? statements t n = t' at ih ⊢
    cases ih with
    | none => exact .none
    | some now => exact next?_rel agree now.1 now.2

/-- Turns that agree end a run alike, in related states. -/
lemma runFrom_rel (agree : Agree R turn other statements) (limit : Nat) :
    ∀ (index : Nat) {s : σ} {t : τ}, R s t →
      Option.Rel R (turn.runFrom statements limit index s)
        (other.runFrom statements limit index t) := by
  induction limit with
  | zero =>
    intro index s t related
    exact .none
  | succ limit ih =>
    intro index s t related
    cases found : statements[index]? with
    | none =>
      rw [runFrom_none found, runFrom_none found]
      exact .some related
    | some stmt =>
      -- both runs carry out the same statement, and stop after it or go on together
      obtain ⟨same, left⟩ := agree index stmt s t found related
      rw [runFrom_some found, runFrom_some found]
      generalize turn index stmt s = result at same left ⊢
      generalize other index stmt t = result' at same left ⊢
      obtain ⟨next, s'⟩ := result
      obtain ⟨next', t'⟩ := result'
      cases same
      cases next with
      | none => exact .some left
      | some next => exact ih next left

end Rel

end Turn

/-- Running a machine is running its turns. -/
lemma Machine.runFrom_eq (statements : Array Stmt) (labels : NameMap Nat) (limit : Nat) :
    ∀ (index : Nat) (m : Machine),
      runFrom statements labels limit index m =
        Turn.runFrom (turn labels) statements limit index m := by
  induction limit with
  | zero => exact fun _ _ => rfl
  | succ limit ih =>
    intro index m
    rw [runFrom]
    cases found : statements[index]? with
    | none => rw [Turn.runFrom_none found]
    | some stmt =>
      simp only [Turn.runFrom_some found]
      rcases turn labels index stmt m with ⟨_ | next, m'⟩
      · rfl
      · exact ih next m'

namespace Program

/-- The moment of a run on a canvas after a number of turns. -/
def moment? (p : Program) (canvas : Canvas) (turns : Nat) : Option (Moment Machine) :=
  Turn.after? (Machine.turn p.labels) p.statements ⟨some 0, .start canvas⟩ turns

end Program

end Easel
