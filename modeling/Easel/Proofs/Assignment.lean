import Easel.Proofs.Flat

/-!
# Variables and assignments

In a run, variables come from assignments and from nothing else. At every moment a variable has the
value that was assigned to it last, where an assignment counts if it succeeded
(`Program.find?_flatMoment?`). So does the report on a run that ends (`Program.mem_globals_iff`),
which lists the variables in the order of their names (`Program.sorted_globals`).
-/

namespace Easel

namespace NameMap

variable {α : Type} {name : String} {a : α} {entries : List (String × α)}

/-- The names increase from each entry to the next. -/
def Sorted (entries : List (String × α)) : Prop := entries.Pairwise fun e e' => e.1 < e'.1

/-- An entry is the one put in, or was there before. -/
lemma mem_insertEntry {e : String × α} (mem : e ∈ insertEntry name a entries) :
    e = (name, a) ∨ e ∈ entries := by
  induction entries with
  | nil => exact .inl (List.mem_singleton.mp mem)
  | cons first rest ih =>
    rw [insertEntry] at mem
    grind

/-- Putting a name in keeps the names in order. -/
lemma Sorted.insertEntry (sorted : Sorted entries) (name : String) (a : α) :
    Sorted (insertEntry name a entries) := by
  induction entries with
  | nil => exact List.pairwise_singleton _ _
  | cons first rest ih =>
    obtain ⟨below, sorted'⟩ := List.pairwise_cons.mp sorted
    rw [NameMap.insertEntry]
    split
    · next less =>
      refine List.pairwise_cons.mpr ⟨List.forall_mem_cons.mpr ⟨less, ?_⟩, sorted⟩
      exact fun e mem => String.lt_trans less (below e mem)
    · split
      · next same =>
        subst same
        exact List.pairwise_cons.mpr ⟨below, sorted'⟩
      · next not_less other =>
        have greater : first.1 < name :=
          Std.lt_of_le_of_ne (String.not_lt.mp not_less) (Ne.symm other)
        refine List.pairwise_cons.mpr ⟨fun e mem => ?_, ih sorted'⟩
        rcases mem_insertEntry mem with rfl | mem
        · exact greater
        · exact below e mem

/-- An entry is listed exactly if it is found under its name. -/
lemma Sorted.mem_iff_lookup? (sorted : Sorted entries) :
    (name, a) ∈ entries ↔ lookup? name entries = some a := by
  induction entries with
  | nil => exact ⟨nofun, nofun⟩
  | cons first rest ih =>
    obtain ⟨other, b⟩ := first
    obtain ⟨below, sorted'⟩ := List.pairwise_cons.mp sorted
    rw [lookup?, List.mem_cons, Prod.mk.injEq]
    by_cases same : name = other
    · subst same
      have absent : (name, a) ∉ rest := fun mem => String.lt_irrefl name (below _ mem)
      rw [if_pos rfl, Option.some.injEq]
      exact ⟨fun h => (h.resolve_right absent).2.symm, fun h => .inl ⟨rfl, h.symm⟩⟩
    · rw [if_neg same, ih sorted']
      exact ⟨fun h => h.resolve_left fun both => same both.1, .inr⟩

end NameMap

/-- The assignment that a statement makes, if it is one and its value can be found. -/
def Machine.assignment? (m : Machine) : Stmt → Option (String × Value)
  | .assign name e _ => ((eval e).run m).1.toOption.map (name, ·)
  | _ => none

/-- A turn changes the variables as its statement assigns them, and not otherwise. -/
lemma FlatMachine.globals_turn {labels : NameMap Nat} {index : Nat} {stmt : Stmt}
    {m after : FlatMachine} {next : Option Nat}
    (turned : turn labels index stmt m = (next, after)) :
    after.globals =
      match m.machine.assignment? stmt with
      | some (name, v) => m.globals.insert name v
      | none => m.globals := by
  cases stmt with
  | assign name e position =>
    rw [Machine.assignment?, run_eval]
    rw [turn, exec] at turned
    cases found : m.value e with
    | ok v =>
      rw [found] at turned
      cases turned
      rfl
    | error d =>
      rw [found] at turned
      cases turned
      rfl
  | spawn | label | goTo | call =>
    rcases turn_cases turned with ⟨effect, -⟩ | ⟨d, -, -, rfl⟩
    · cases effect
      rfl
    · rfl

namespace Program

variable {p : Program} {canvas : Canvas} {n : Nat}

/-- The assignment that is made after a number of turns. -/
def assignment? (p : Program) (canvas : Canvas) (turns : Nat) : Option (String × Value) :=
  (p.moment? canvas turns).bind fun s => s.index.bind fun index =>
    p.statements[index]?.bind s.state.assignment?

/-- A name is given a value within a number of turns, and no other afterwards. -/
def LastAssigned (p : Program) (canvas : Canvas) (turns : Nat) (name : String) (v : Value) : Prop :=
  ∃ i < turns, p.assignment? canvas i = some (name, v) ∧
    ∀ j w, i < j → j < turns → p.assignment? canvas j ≠ some (name, w)

/-- After one turn more, the last assignment is that of the turn, or else the one before. -/
lemma lastAssigned_succ {name : String} {v : Value} :
    p.LastAssigned canvas (n + 1) name v ↔
      p.assignment? canvas n = some (name, v) ∨
        p.LastAssigned canvas n name v ∧ ∀ w, p.assignment? canvas n ≠ some (name, w) := by
  constructor
  · rintro ⟨i, lt, assigned, later⟩
    rcases Nat.lt_succ_iff_lt_or_eq.mp lt with lt | rfl
    · refine .inr ⟨⟨i, lt, assigned, fun j w after before => ?_⟩, fun w => ?_⟩
      · exact later j w after (Nat.lt_succ_of_lt before)
      · exact later n w lt n.lt_succ_self
    · exact .inl assigned
  · rintro (assigned | ⟨⟨i, lt, assigned, later⟩, not_now⟩)
    · exact ⟨n, n.lt_succ_self, assigned, fun j w after before => by omega⟩
    · refine ⟨i, Nat.lt_succ_of_lt lt, assigned, fun j w after before => ?_⟩
      rcases Nat.lt_succ_iff_lt_or_eq.mp before with before | rfl
      · exact later j w after before
      · exact not_now w

/-- The assignment of a turn is that of its statement. -/
lemma assignment?_of_flat {s : Moment FlatMachine} {index : Nat} {stmt : Stmt}
    (reached : p.flatMoment? canvas n = some s) (here : s.index = some index)
    (found : p.statements[index]? = some stmt) :
    p.assignment? canvas n = s.state.machine.assignment? stmt := by
  rw [assignment?, moment?_of_flat reached]
  simp [Moment.map, here, found]

/-- In a run, a variable has the value that was assigned to it last. -/
lemma find?_flatMoment? {s : Moment FlatMachine} (reached : p.flatMoment? canvas n = some s)
    (name : String) (v : Value) :
    s.state.globals.find? name = some v ↔ p.LastAssigned canvas n name v := by
  induction n generalizing s with
  | zero =>
    cases reached
    exact ⟨nofun, fun ⟨i, lt, _⟩ => absurd lt i.not_lt_zero⟩
  | succ n ih =>
    obtain ⟨t, earlier, next⟩ := Option.bind_eq_some_iff.mp reached
    obtain ⟨index, stmt, here, found, turned⟩ := Turn.next?_eq_some next
    rw [lastAssigned_succ, ← ih earlier, FlatMachine.globals_turn turned,
      assignment?_of_flat earlier here found]
    -- the last turn assigns nothing, or the name in question, or another one
    rcases t.state.machine.assignment? stmt with _ | ⟨other, w⟩
    · simp
    · rw [NameMap.find?_insert]
      by_cases same : name = other
      · simp [same]
      · simp [same, Ne.symm same]

/-- At each moment, the variables are in order. -/
lemma sorted_flatMoment? {s : Moment FlatMachine} (reached : p.flatMoment? canvas n = some s) :
    NameMap.Sorted s.state.globals.entries := by
  refine Turn.after?_induction (motive := fun s => NameMap.Sorted s.state.globals.entries)
    ?_ ?_ reached
  · exact List.Pairwise.nil
  · intro t u sorted next
    obtain ⟨index, stmt, -, -, turned⟩ := Turn.next?_eq_some next
    rw [FlatMachine.globals_turn turned]
    rcases t.state.machine.assignment? stmt with _ | ⟨name, v⟩
    · exact sorted
    · exact sorted.insertEntry name v

/-- Nothing is assigned from the last moment of a run on. -/
lemma assignment?_ended {s : Moment FlatMachine} (reached : p.flatMoment? canvas n = some s)
    (finished : (FlatMachine.turn p.labels).next? p.statements s = none) {j : Nat} (le : n ≤ j) :
    p.assignment? canvas j = none := by
  obtain ⟨k, rfl⟩ := Nat.exists_eq_add_of_le le
  rw [assignment?, moment?_eq_flat, flatMoment?_add, reached, Option.bind_some]
  cases k with
  | zero =>
    rcases Turn.next?_eq_none finished with stopped | ⟨index, here, outside⟩
    · simp [Turn.after?, Moment.map, stopped]
    · simp [Turn.after?, Moment.map, here, outside]
  | succ k =>
    rw [Turn.after?_ended finished]
    rfl

/-- In the report, the variables are in order. -/
lemma sorted_globals {limit : Nat} {after : Canvas} {report : Report}
    (ended : p.execute limit canvas = some (report, after)) :
    NameMap.Sorted report.globals.toList := by
  obtain ⟨n, last, reached, -, rfl, -⟩ := execute_last ended
  exact sorted_flatMoment? reached

/-- The variables that a run leaves are those it has assigned, with the values assigned last. -/
lemma mem_globals_iff {limit : Nat} {after : Canvas} {report : Report}
    (ended : p.execute limit canvas = some (report, after)) (name : String) (v : Value) :
    (name, v) ∈ report.globals.toList ↔
      ∃ i, p.assignment? canvas i = some (name, v) ∧
        ∀ j w, i < j → p.assignment? canvas j ≠ some (name, w) := by
  obtain ⟨n, last, reached, finished, rfl, -⟩ := execute_last ended
  change (name, v) ∈ last.state.globals.entries ↔ _
  rw [(sorted_flatMoment? reached).mem_iff_lookup?]
  refine (find?_flatMoment? reached name v).trans ⟨?_, ?_⟩
  · rintro ⟨i, -, assigned, later⟩
    refine ⟨i, assigned, fun j w after => ?_⟩
    by_cases before : j < n
    · exact later j w after before
    · simp [assignment?_ended reached finished (Nat.le_of_not_lt before)]
  · rintro ⟨i, assigned, later⟩
    refine ⟨i, Nat.lt_of_not_le fun le => ?_, assigned, fun j w after _ => later j w after⟩
    rw [assignment?_ended reached finished le] at assigned
    cases assigned

end Program

end Easel
