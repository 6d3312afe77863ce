import Easel.Proofs.ViablePrefix
import Mathlib.Order.Bounds.Defs

/-!
# Programs and their first impossible token

Statements and programs are stuck where reading them fails, as expressions are. So the diagnostic of
tokens that spell no program stands at the first token that rules every program out
(`Program.ofTokens_first_impossible`): with the tokens before it a program can begin, with it none
can.
-/

namespace Easel

namespace Parser

open Grammar

/-- Identifiers. -/
def nameWords : Language Token := {w | ∃ t, w = [t] ∧ t.kind = .identifier}

/-- Names of labels are read up to the first token that rules them out. -/
lemma reads_labelName : Reads labelName nameWords where
  inhabited := ⟨_, someName, rfl, rfl⟩
  stuck := by
    intro eof ts d failed
    cases ts with
    | nil =>
      cases failed
      exact .atEnd ⟨_, someName, rfl, rfl⟩ (position_unexpected _ _)
    | cons t rest =>
      by_cases kind : t.kind = .identifier
      · rw [fails, labelName, if_pos kind] at failed
        cases failed
      · refine .atFirst ⟨_, someName, rfl, rfl⟩ (position_unexpected .labelName t) ?_ failed
        intro eof more
        rw [labelName, if_neg kind]
  taken := by
    intro eof ts ph read
    obtain ⟨t, e, kind, -⟩ := labelName_sound read
    refine ⟨[t], ⟨t, rfl, kind⟩, e, fun eof rest _ => ?_⟩
    exact ⟨⟨t.lexeme, rest, by simp⟩, if_pos kind, rfl⟩

section Sequences

variable {eof t : Token} {ts : List Token} {d : Diagnostic}

/-- How reading fails after the word that opens a jump. -/
def jumpFails : Failure :=
  andThen (fun eof => symbol eof "[") <| andThen labelName <| andThen (fun eof => symbol eof "]") <|
    andThen (fun eof => symbol eof "(") <| andThen expr <| fails fun eof => symbol eof ")"

/-- How reading fails after the word that places the cursor. -/
def spawnFails : Failure :=
  andThen (fun eof => symbol eof "(") <| andThen expr <| andThen (fun eof => symbol eof ",") <|
    andThen expr <| fails fun eof => symbol eof ")"

/-- Reading a jump fails as reading its parts in turn does. -/
lemma jump_eq_error : jump eof t ts = .error d ↔ jumpFails eof ts d := by
  simp only [jump, bind_eq_error, jumpFails, andThen, fails, reduceCtorEq, and_false, exists_false,
    or_false]

/-- Reading the placing of the cursor fails as reading its parts in turn does. -/
lemma spawn_eq_error : spawn eof t ts = .error d ↔ spawnFails eof ts d := by
  simp only [spawn, bind_eq_error, spawnFails, andThen, fails, reduceCtorEq, and_false,
    exists_false, or_false]

/-- Reading a jump is stuck where it fails. -/
lemma precise_jump : Precise jumpFails (symbolWords "[" * (nameWords * (symbolWords "]" *
    (symbolWords "(" * (levelWords top * symbolWords ")"))))) :=
  (reads_symbol "[").andThen <| reads_labelName.andThen <| (reads_symbol "]").andThen <|
    (reads_symbol "(").andThen <| reads_expr.andThen (reads_symbol ")").toPrecise

/-- Reading the placing of the cursor is stuck where it fails. -/
lemma precise_spawn : Precise spawnFails (symbolWords "(" * (levelWords top * (symbolWords "," *
    (levelWords top * symbolWords ")")))) :=
  (reads_symbol "(").andThen <| reads_expr.andThen <| (reads_symbol ",").andThen <|
    reads_expr.andThen (reads_symbol ")").toPrecise

end Sequences

/-- Reads a statement from the front of the tokens. -/
def oneStatement : Reading Stmt
  | eof, [] => .error ((Fault.notAStatement eof).diagnose eof.position)
  | eof, t :: ts => statement eof t ts

/-- Reads the statement that places the cursor from the front of the tokens. -/
def oneSpawn : Reading Stmt
  | eof, [] => .error ((Fault.missingSpawn eof).diagnose eof.position)
  | eof, t :: ts =>
    if t.isSpawn then do
      let placed ← spawn eof t ts
      .ok ⟨placed.value, placed.rest, Nat.lt_succ_of_lt placed.shorter⟩
    else .error ((Fault.missingSpawn t).diagnose t.position)

/-- The statements other than the one that places the cursor. -/
def statementWords : Language Token := {w | ∃ l, Statement w l}

/-- The statements that place the cursor. -/
def spawnWords : Language Token := {w | ∃ l, Spawn w l}

/-- There is a statement. -/
lemma statementWords_inhabited : ∃ w, w ∈ statementWords := ⟨[someName], _, .label rfl⟩

/-- Where no statement can be read, reading is stuck. -/
lemma oneStatement_stuck {eof : Token} {ts : List Token} {d : Diagnostic}
    (failed : oneStatement eof ts = .error d) :
    Stuck (fails oneStatement) statementWords eof d ts := by
  cases ts with
  | nil =>
    cases failed
    exact .atEnd statementWords_inhabited rfl
  | cons t rest =>
    -- the first token decides what is read, and each form is stuck where its own reading is
    cases kind : t.kind with
    | function =>
      cases named : Instruction.ofName? t.lexeme with
      -- the word that places the cursor can be no other statement
      | none =>
        refine .atFirst statementWords_inhabited (e := Fault.repeatedSpawn.diagnose t.position)
          rfl (fun eof more => ?_) failed
        simp only [oneStatement, statement, kind, call_unnamed named]
        rfl
      | some instruction =>
        have called (eof us d) :
            oneStatement eof (t :: us) = .error d ↔ call eof t us = .error d := by
          simp only [oneStatement, statement, kind, bind_eq_error, reduceCtorEq, and_false,
            exists_false, or_false]
        rw [called] at failed
        refine (call_stuck kind named failed).prepend [t] ?_ fun eof us d _ failed =>
          ⟨d, (called eof us d).mpr failed⟩
        rintro w ⟨i, es, drv⟩
        exact viable_of_mem ⟨_, .call drv⟩
    | goTo =>
      have jumped (eof us d) : oneStatement eof (t :: us) = .error d ↔ jumpFails eof us d := by
        simp only [oneStatement, statement, kind, bind_eq_error, jump_eq_error, reduceCtorEq,
          and_false, exists_false, or_false]
      rw [jumped] at failed
      refine (precise_jump.stuck failed).prepend [t] ?_ fun eof us d _ failed =>
        ⟨d, (jumped eof us d).mpr failed⟩
      rintro _ ⟨_, ⟨o, rfl, sym₁⟩, _, ⟨_, ⟨name, rfl, kind₂⟩, _, ⟨_, ⟨c, rfl, sym₃⟩, _,
        ⟨_, ⟨l, rfl, sym₄⟩, _, ⟨w, ⟨e, drv⟩, _, ⟨r, rfl, sym₆⟩, rfl⟩, rfl⟩, rfl⟩, rfl⟩, rfl⟩
      exact viable_of_mem ⟨_, .goTo kind sym₁ kind₂ sym₃ sym₄ drv sym₆⟩
    | identifier =>
      cases rest with
      | nil =>
        simp only [oneStatement, statement, kind] at failed
        cases failed
      | cons arrow more =>
        by_cases isArrow : arrow.isArrow
        · have assigned (eof us d) :
              oneStatement eof (t :: arrow :: us) = .error d ↔ expr eof us = .error d := by
            simp only [oneStatement, statement, kind, named, if_pos isArrow, bind_eq_error,
              reduceCtorEq, and_false, exists_false, or_false]
          rw [assigned] at failed
          refine (reads_expr.stuck failed).prepend [t, arrow] ?_ fun eof us d _ failed =>
            ⟨d, (assigned eof us d).mpr failed⟩
          rintro w ⟨e, drv⟩
          exact viable_of_mem ⟨_, .assign kind isArrow drv⟩
        · simp only [oneStatement, statement, kind, named, if_neg isArrow] at failed
          cases failed
    | number | string | symbol | operator | newLine | eof =>
      refine .atFirst statementWords_inhabited (e := (Fault.notAStatement t).diagnose t.position)
        rfl (fun eof more => ?_) failed
      simp only [oneStatement, statement, kind]

/-- What is read as a call is read so from all tokens that begin alike. -/
lemma call_taken {eof t : Token} {ts : List Token} {ph : Phrase (Instruction × List Expr) ts}
    (kind : t.kind = .function) (read : call eof t ts = .ok ph) :
    Taken (fun eof => call eof t) (callWords t) ph := by
  obtain ⟨w, e, drv⟩ := call_sound kind read
  refine ⟨w, ⟨_, _, drv⟩, e, fun eof rest _ => ?_⟩
  obtain ⟨_, _, vs, shorter, ⟨⟩, -, again, -⟩ :=
    call_complete eof drv List.cons_append.symm
  exact ⟨_, again, rfl⟩

/-- A statement that begins as a jump is one. -/
lemma jump_inversion {t : Token} {w : List Token} {line : Line Float} (kind : t.kind = .goTo)
    (drv : Statement (t :: w) line) :
    ∃ o name c l v r e, w = o :: name :: c :: l :: v ++ [r] ∧ o.isSymbol "[" ∧
      name.kind = .identifier ∧ c.isSymbol "]" ∧ l.isSymbol "(" ∧ Level top v e ∧
      r.isSymbol ")" := by
  generalize shape : t :: w = us at drv
  cases drv with
  | assign kind' | label kind' =>
    cases shape
    rw [kind] at kind'
    cases kind'
  | call drv =>
    cases drv with
    | empty kind' | apply kind' =>
      cases shape
      rw [kind] at kind'
      cases kind'
  | @goTo _ o name c l v e r _ sym₁ kind₂ sym₃ sym₄ drv sym₆ =>
    cases shape
    exact ⟨o, name, c, l, v, r, e, rfl, sym₁, kind₂, sym₃, sym₄, drv, sym₆⟩

/-- What is read as a jump is read so from all tokens that begin alike. -/
lemma jump_taken {eof t : Token} {ts : List Token} {ph : Phrase Stmt ts}
    (kind : t.kind = .goTo) (read : jump eof t ts = .ok ph) :
    Taken (fun eof => jump eof t) {w | ∃ l, Statement (t :: w) l} ph := by
  obtain ⟨w, e, drv⟩ := jump_sound kind read
  refine ⟨w, ⟨_, drv⟩, e, fun eof rest _ => ?_⟩
  obtain ⟨o, name, c, l, v, r, _, rfl, sym₁, kind₂, sym₃, sym₄, drv, sym₆⟩ :=
    jump_inversion kind drv
  obtain ⟨_, shorter, again, -⟩ := jump_complete eof rest (t := t) sym₁ kind₂ sym₃ sym₄ drv sym₆
  have shape : o :: name :: c :: l :: v ++ [r] ++ rest =
      o :: name :: c :: l :: (v ++ r :: rest) := by
    simp
  rw [shape]
  exact ⟨_, again, rfl⟩

/-- A statement is read from its own tokens. Only a name needs what comes after it, as it is a label
unless an arrow does. -/
lemma oneStatement_taken {eof : Token} {ts : List Token} {ph : Phrase Stmt ts}
    (read : oneStatement eof ts = .ok ph) : Taken oneStatement statementWords ph := by
  cases ts with
  | nil => cases read
  | cons t ts =>
    cases kind : t.kind with
    | function =>
      simp only [oneStatement, statement, kind] at read
      obtain ⟨called, found, h⟩ := bind_eq_ok.mp read
      cases h
      obtain ⟨w, ⟨i, es, drv⟩, e, again⟩ := call_taken kind found
      refine ⟨t :: w, ⟨_, .call drv⟩, congrArg (t :: ·) e, fun eof rest same => ?_⟩
      obtain ⟨called', read', after⟩ := again eof rest same
      simp only [List.cons_append, oneStatement, statement, kind, read', ok_bind]
      exact ⟨_, rfl, after⟩
    | goTo =>
      simp only [oneStatement, statement, kind] at read
      obtain ⟨jumped, found, h⟩ := bind_eq_ok.mp read
      cases h
      obtain ⟨w, ⟨l, drv⟩, e, again⟩ := jump_taken kind found
      refine ⟨t :: w, ⟨l, drv⟩, congrArg (t :: ·) e, fun eof rest same => ?_⟩
      obtain ⟨jumped', read', after⟩ := again eof rest same
      simp only [List.cons_append, oneStatement, statement, kind, read', ok_bind]
      exact ⟨_, rfl, after⟩
    -- a label ends with its name, so that what comes next has to be no arrow again
    | identifier =>
      have label : [t] ∈ statementWords := ⟨_, .label kind⟩
      simp only [oneStatement, statement, kind] at read
      cases ts with
      | nil =>
        cases read
        refine ⟨[t], label, rfl, fun eof rest same => ?_⟩
        cases List.head?_eq_none_iff.mp same
        simp only [List.singleton_append, oneStatement, statement, kind]
        exact ⟨_, rfl, rfl⟩
      | cons arrow more =>
        rw [named] at read
        split at read
        · next isArrow =>
          obtain ⟨value, found, h⟩ := bind_eq_ok.mp read
          cases h
          obtain ⟨w, ⟨e, drv⟩, eq, again⟩ := reads_expr.taken found
          refine ⟨t :: arrow :: w, ⟨_, .assign kind isArrow drv⟩, congrArg (t :: arrow :: ·) eq,
            fun eof rest same => ?_⟩
          obtain ⟨value', read', after⟩ := again eof rest same
          simp only [List.cons_append, oneStatement, statement, kind, named, if_pos isArrow, read',
            ok_bind]
          exact ⟨_, rfl, after⟩
        · next other =>
          cases read
          refine ⟨[t], label, rfl, fun eof rest same => ?_⟩
          obtain ⟨more', rfl⟩ := List.head?_eq_some_iff.mp same
          simp only [List.singleton_append, oneStatement, statement, kind, named, if_neg other]
          exact ⟨_, rfl, rfl⟩
    | number | string | symbol | operator | newLine | eof =>
      simp only [oneStatement, statement, kind] at read
      cases read

/-- Statements are read up to the first token that rules them out. -/
lemma reads_statement : Reads oneStatement statementWords where
  inhabited := statementWords_inhabited
  stuck := oneStatement_stuck
  taken := oneStatement_taken

/-- After the word that places the cursor, reading fails as its parts do. -/
lemma oneSpawn_eq_error {eof t : Token} {ts : List Token} {d : Diagnostic} (first : t.isSpawn) :
    oneSpawn eof (t :: ts) = .error d ↔ spawnFails eof ts d := by
  simp only [oneSpawn, if_pos first, bind_eq_error, spawn_eq_error, reduceCtorEq, and_false,
    exists_false, or_false]

/-- The word that places the cursor. -/
def spawnToken : Token := ⟨.function, Token.spawnWord, .start⟩

/-- There is a word that places the cursor. -/
lemma isSpawn_spawnToken : spawnToken.isSpawn := by simp [spawnToken, Token.isSpawn]

/-- The word that places the cursor and two coordinates in brackets are a statement. -/
lemma spawn_of_mem {t : Token} {w : List Token} (first : t.isSpawn)
    (mem : w ∈ symbolWords "(" * (levelWords top * (symbolWords "," *
      (levelWords top * symbolWords ")")))) : t :: w ∈ spawnWords := by
  obtain ⟨_, ⟨l, rfl, sym₁⟩, _, ⟨xs, ⟨x, drv₁⟩, _, ⟨_, ⟨c, rfl, sym₂⟩, _, ⟨ys, ⟨y, drv₂⟩, _,
    ⟨r, rfl, sym₃⟩, rfl⟩, rfl⟩, rfl⟩, rfl⟩ := mem
  have drv := Spawn.intro first sym₁ drv₁ sym₂ drv₂ sym₃
  exact ⟨_, by simpa using drv⟩

/-- There is a statement that places the cursor. -/
lemma spawnWords_inhabited : ∃ w, w ∈ spawnWords := by
  obtain ⟨w, mem⟩ := precise_spawn.inhabited
  exact ⟨_, spawn_of_mem isSpawn_spawnToken mem⟩

/-- The placing of the cursor is read up to the first token that rules it out. -/
lemma reads_spawn : Reads oneSpawn spawnWords where
  inhabited := spawnWords_inhabited
  stuck := by
    intro eof ts d failed
    cases ts with
    | nil =>
      cases failed
      exact .atEnd spawnWords_inhabited rfl
    | cons t ts =>
      by_cases first : t.isSpawn
      · rw [fails, oneSpawn_eq_error first] at failed
        refine (precise_spawn.stuck failed).prepend [t] ?_ fun eof us d _ failed =>
          ⟨d, (oneSpawn_eq_error first).mpr failed⟩
        exact fun w mem => viable_of_mem (spawn_of_mem first mem)
      · refine .atFirst spawnWords_inhabited (e := (Fault.missingSpawn t).diagnose t.position) rfl
          (fun eof more => ?_) failed
        rw [oneSpawn, if_neg first]
  taken := by
    intro eof ts ph read
    cases ts with
    | nil => cases read
    | cons t ts =>
      rw [oneSpawn] at read
      split at read
      · next first =>
        obtain ⟨placed, found, h⟩ := bind_eq_ok.mp read
        cases h
        obtain ⟨w, e, drv⟩ := spawn_sound first found
        refine ⟨t :: w, ⟨_, drv⟩, congrArg (t :: ·) e, fun eof rest _ => ?_⟩
        obtain ⟨_, _, s, shorter, ⟨⟩, -, again, -⟩ :=
          spawn_complete eof rest drv List.cons_append.symm
        simp only [List.cons_append, oneSpawn, if_pos first, again, ok_bind]
        exact ⟨_, rfl, rfl⟩
      · cases read

section Programs

variable {eof t : Token} {ts : List Token} {d : Diagnostic}

/-- What may follow a statement: nothing, or a line break and more statements. -/
def laterWords : Language Token :=
  {w | w = [] ∨ ∃ t us ls, w = t :: us ∧ t.kind = .newLine ∧ Statements us ls}

/-- After a statement, a program can end. -/
lemma laterWords_inhabited : ∃ w, w ∈ laterWords := ⟨[], .inl rfl⟩

/-- The programs. -/
def programWords : Language Token := {w | ∃ ls, Word w ls}

/-- How reading fails after a statement. -/
def laterFails : Failure := fun eof ts d =>
  (do let after ← endStatement ts; statements eof after.val) = .error d

/-- Reading statements fails in the first one or after it. -/
lemma statements_eq_error (other : t.kind ≠ .newLine) :
    statements eof (t :: ts) = .error d ↔ andThen oneStatement laterFails eof (t :: ts) d := by
  rw [statements_cons eof other]
  simp only [bind_eq_error, andThen, oneStatement, laterFails, reduceCtorEq, and_false,
    exists_false, or_false]

/-- Line breaks before a program do not count. -/
lemma program_blank (newLine : t.kind = .newLine) : program eof (t :: ts) = program eof ts := by
  rw [program, program, List.dropWhile_cons_of_pos (by simp [isNewLine, newLine])]

/-- Reading a program fails in its first statement or after it. -/
lemma program_eq_error (other : ∀ t, ts.head? = some t → t.kind ≠ .newLine) :
    program eof ts = .error d ↔ andThen oneSpawn laterFails eof ts d := by
  cases ts with
  | nil => simp [program, andThen, oneSpawn]
  | cons t ts =>
    rw [program, List.dropWhile_cons_of_neg (by simp [isNewLine, other t rfl])]
    by_cases first : t.isSpawn
    · simp only [first, if_true, andThen, oneSpawn, laterFails, bind_eq_error, bind_eq_ok,
        Except.ok.injEq, reduceCtorEq, and_false, exists_false, or_false, exists_exists_and_eq_and]
    · simp [first, andThen, oneSpawn]

/-- After a statement and a line break, reading fails as in the statements that follow. -/
lemma laterFails_newLine (newLine : t.kind = .newLine) :
    laterFails eof (t :: ts) d ↔ statements eof ts = .error d := by
  obtain ⟨_, ended⟩ := endStatement_newLine ts newLine
  rw [laterFails, ended, ok_bind]

/-- After a statement, a token other than a line break is one too many. -/
lemma laterFails_other (other : t.kind ≠ .newLine) :
    laterFails eof (t :: ts) d ↔ (Fault.trailingToken t).diagnose t.position = d := by
  simp [laterFails, endStatement, isNewLine, other, bind_eq_error]

mutual

/-- Where no statements can be read, reading is stuck. -/
lemma statements_stuck {ts : List Token} (failed : statements eof ts = .error d) :
    Stuck (fun eof ts d => statements eof ts = .error d) {w | ∃ ls, Statements w ls} eof d ts := by
  cases ts with
  | nil =>
    rw [statements_nil] at failed
    cases failed
  | cons t rest =>
    by_cases newLine : t.kind = .newLine
    · rw [statements_blank eof newLine] at failed
      refine (statements_stuck failed).prepend [t] ?_ fun eof us d _ failed => ⟨d, ?_⟩
      · rintro w ⟨ls, drv⟩
        exact viable_of_mem ⟨ls, .blank newLine drv⟩
      · exact (statements_blank eof newLine).trans failed
    · rw [statements_eq_error newLine] at failed
      have stuck := stuck_andThen laterWords_inhabited reads_statement.stuck
        (fun ph read => reads_statement.taken read) (fun ph read failed => by
          have := ph.shorter
          exact later_stuck failed) failed
      refine stuck.imp ?_ fun eof us d same failed => ⟨d, ?_⟩
      · rintro _ ⟨w, ⟨l, drv⟩, _, rfl | ⟨t, us, ls, rfl, newLine, drv'⟩, rfl⟩
        · exact viable_of_mem ⟨[l], by simpa using .last drv⟩
        · exact viable_of_mem ⟨l :: ls, .cons drv newLine drv'⟩
      · obtain ⟨more, rfl⟩ := List.head?_eq_some_iff.mp same
        exact (statements_eq_error newLine).mpr failed
termination_by ts.length

/-- Where reading fails after a statement, it is stuck. -/
lemma later_stuck {ts : List Token} (failed : laterFails eof ts d) :
    Stuck laterFails laterWords eof d ts := by
  cases ts with
  | nil =>
    obtain ⟨_, ended⟩ := endStatement_nil
    rw [laterFails, ended, ok_bind, statements_nil] at failed
    cases failed
  | cons t rest =>
    by_cases newLine : t.kind = .newLine
    · rw [laterFails_newLine newLine] at failed
      refine (statements_stuck failed).prepend [t] ?_ fun eof us d _ failed => ⟨d, ?_⟩
      · rintro w ⟨ls, drv⟩
        exact viable_of_mem (.inr ⟨t, w, ls, rfl, newLine, drv⟩)
      · exact (laterFails_newLine newLine).mpr failed
    · rw [laterFails_other newLine] at failed
      subst failed
      exact .atToken (w := []) rest laterWords_inhabited rfl fun eof more =>
        ⟨_, (laterFails_other newLine).mpr rfl⟩
termination_by ts.length

end

/-- Where no program can be read, reading is stuck. -/
lemma program_stuck {ts : List Token} (failed : program eof ts = .error d) :
    Stuck (fun eof ts d => program eof ts = .error d) programWords eof d ts := by
  by_cases other : ∀ t, ts.head? = some t → t.kind ≠ .newLine
  · rw [program_eq_error other] at failed
    have stuck := stuck_andThen laterWords_inhabited reads_spawn.stuck
      (fun ph read => reads_spawn.taken read) (fun ph read failed => later_stuck failed) failed
    refine stuck.imp ?_ fun eof us d same failed => ⟨d, ?_⟩
    · rintro _ ⟨w, ⟨l, drv⟩, _, rfl | ⟨t, us, ls, rfl, newLine, drv'⟩, rfl⟩
      · exact viable_of_mem ⟨[l], by simpa using .last drv⟩
      · exact viable_of_mem ⟨l :: ls, .cons drv newLine drv'⟩
    · exact (program_eq_error (same ▸ other)).mpr failed
  · push Not at other
    obtain ⟨t, first, newLine⟩ := other
    obtain ⟨rest, rfl⟩ := List.head?_eq_some_iff.mp first
    rw [program_blank newLine] at failed
    refine (program_stuck failed).prepend [t] ?_ fun eof us d _ failed => ⟨d, ?_⟩
    · rintro w ⟨ls, drv⟩
      exact viable_of_mem ⟨ls, .blank newLine drv⟩
    · exact (program_blank newLine).trans failed
termination_by ts.length

end Programs

end Parser

namespace Grammar

/-- None of the tokens marks the end of the text. -/
def Unmarked (w : List Token) : Prop := ∀ t ∈ w, t.kind ≠ .eof

@[simp] lemma unmarked_nil : Unmarked [] := nofun

@[simp] lemma unmarked_cons {t : Token} {w : List Token} :
    Unmarked (t :: w) ↔ t.kind ≠ .eof ∧ Unmarked w := List.forall_mem_cons

@[simp] lemma unmarked_append {w v : List Token} :
    Unmarked (w ++ v) ↔ Unmarked w ∧ Unmarked v := List.forall_mem_append

/-- What stands before a mark of the end begins with all that has no mark. -/
lemma front_unmarked_append {w : List Token} (unmarked : Unmarked w) (v : List Token) :
    front (w ++ v) = w ++ front v :=
  List.takeWhile_append_of_pos fun t mem => decide_eq_true (unmarked t mem)

/-- A token before the end of the text does not mark it. -/
lemma unmarked_front (ts : List Token) : Unmarked (front ts) := fun t mem => by
  simpa using List.mem_takeWhile_imp mem

/-- Tokens inside a line hold no mark of the end. -/
lemma Inner.unmarked {w : List Token} (inner : Inner w) : Unmarked w :=
  fun t mem => (inner t mem).2

/-- Statements hold no mark of the end. -/
lemma unmarked_statements {w : List Token} {ls : List (Line Float)} (drv : Statements w ls) :
    Unmarked w := by
  induction drv with
  | nil => exact unmarked_nil
  | blank newLine _ ih => simp [newLine, ih]
  | last drv => exact (inner_statement drv).unmarked
  | cons drv newLine _ ih => simp [(inner_statement drv).unmarked, newLine, ih]

/-- Programs hold no mark of the end. -/
lemma unmarked_word {w : List Token} {ls : List (Line Float)} (drv : Word w ls) : Unmarked w := by
  induction drv with
  | blank newLine _ ih => simp [newLine, ih]
  | last drv => exact (inner_spawn drv).unmarked
  | cons drv newLine drv' => simp [(inner_spawn drv).unmarked, newLine, unmarked_statements drv']

end Grammar

namespace Program

open Grammar

/-- The tokens, with a mark of the end of the text after them unless the last is one. -/
def completed (ts : List Token) : List Token :=
  match ts.getLast? with
  | none => [.eof .start]
  | some t =>
    if isEof t then ts
    else ts ++ [.eof ⟨t.position.line, t.position.column + t.lexeme.length⟩]

/-- A program can begin with the tokens. -/
def Extensible (w : List Token) : Prop := ∃ more p, ofTokens (w ++ more) = .ok p

/-- If a program can begin with some tokens, it can begin with fewer of them. -/
lemma Extensible.of_append {w v : List Token} (extensible : Extensible (w ++ v)) :
    Extensible w := by
  obtain ⟨more, p, read⟩ := extensible
  exact ⟨v ++ more, p, by rwa [← List.append_assoc]⟩

/-- What a word of the grammar can begin with is what a program can begin with. -/
lemma extensible_of_viable {w : List Token} (viable : Parser.Viable Parser.programWords w) :
    Extensible w := by
  obtain ⟨u, ls, drv⟩ := viable
  rw [← front_of_forall (unmarked_word drv), word_iff] at drv
  obtain ⟨p, read, -⟩ := drv
  exact ⟨u, p, read⟩

/-- The token that closes a list of tokens marks the end. -/
lemma closing_marks (ts : List Token) : (closing ts).kind = .eof := by
  rw [closing]
  cases found : ts.find? isEof with
  | some eof => simpa [isEof] using List.find?_some found
  | none => cases ts.getLast? <;> rfl

/-- Reading looks at the tokens up to the first that marks the end of the text. -/
lemma completed_eq (ts : List Token) : ∃ after, completed ts = front ts ++ closing ts :: after := by
  -- a mark is there already, or one is added at the end
  cases found : ts.find? isEof with
  | some eof =>
    obtain ⟨marks, before, after, rfl, unmarked⟩ := List.find?_eq_some_iff_append.mp found
    have ends : eof.kind = .eof := by simpa [isEof] using marks
    have front_eq : front (before ++ eof :: after) = before := by
      rw [front_append after ends]
      exact front_of_forall fun t mem => by simpa [isEof] using unmarked t mem
    rw [front_eq, closing, found, completed]
    split
    · next none => simp at none
    · split
      · exact ⟨after, rfl⟩
      · exact ⟨_, List.append_assoc ..⟩
  | none =>
    have unmarked : ∀ t ∈ ts, isEof t = false := by simpa using found
    have front_eq : front ts = ts := front_of_forall fun t mem => by
      simpa [isEof] using unmarked t mem
    refine ⟨[], ?_⟩
    rw [front_eq, closing, found, completed]
    cases last : ts.getLast? with
    | none =>
      rw [List.getLast?_eq_none_iff.mp last]
      rfl
    | some t => simp [unmarked t (List.mem_of_getLast? last)]

/-- Where reading fails, a program can begin with the tokens before, and none with the token there
as well. -/
lemma exists_impossible {ts : List Token} {d : Diagnostic} (failed : ofTokens ts = .error d) :
    ∃ w t after, completed ts = w ++ t :: after ∧ d.position = t.position ∧ Extensible w ∧
      ¬ Extensible (w ++ [t]) := by
  have stuck := Parser.program_stuck ((ofTokens_eq ts).symm.trans failed)
  obtain ⟨after, eq⟩ := completed_eq ts
  generalize shape : front ts = us at stuck
  cases stuck with
  | atEnd viable place =>
    refine ⟨front ts, closing ts, after, eq, place, extensible_of_viable (shape ▸ viable), ?_⟩
    rintro ⟨more, p, read⟩
    -- nothing after the end of the text counts, so the tokens themselves would be read
    have word := word_iff.mpr ⟨p, read, rfl⟩
    rw [List.append_assoc, List.singleton_append, front_append more (closing_marks ts),
      front_of_forall (unmarked_front ts), word_iff] at word
    obtain ⟨q, read', -⟩ := word
    rw [failed] at read'
    cases read'
  | @atToken w t rest viable place always =>
    refine ⟨w, t, rest ++ closing ts :: after, ?_, place, extensible_of_viable viable, ?_⟩
    · rw [eq, shape]
      simp
    · rintro ⟨more, p, read⟩
      have unmarked := unmarked_front ts
      rw [shape, unmarked_append, unmarked_cons] at unmarked
      obtain ⟨before, first, -⟩ := unmarked
      have upTo : front (w ++ [t] ++ more) = w ++ t :: front more := by
        rw [front_unmarked_append (by simp [before, first])]
        simp
      obtain ⟨_, failed'⟩ := always (closing (w ++ [t] ++ more)) (front more)
      rw [ofTokens_eq, upTo, failed'] at read
      cases read

/-- Reading fails at the first token that is impossible: its diagnostic stands there, a program can
begin with the tokens before it, and it is the first token up to which none can. -/
theorem ofTokens_first_impossible {ts : List Token} {d : Diagnostic}
    (failed : ofTokens ts = .error d) :
    ∃ i t, (completed ts)[i]? = some t ∧ d.position = t.position ∧
      Extensible ((completed ts).take i) ∧
      IsLeast {j | ¬ Extensible ((completed ts).take (j + 1))} i := by
  obtain ⟨w, t, after, eq, place, extensible, impossible⟩ := exists_impossible failed
  have upTo : (w ++ t :: after).take (w.length + 1) = w ++ [t] := by simp [List.take_append]
  rw [eq]
  refine ⟨w.length, t, by simp, place, by simpa using extensible, ?_, ?_⟩
  · rwa [Set.mem_ofPred_eq, upTo]
  · intro j impossible'
    by_contra less
    apply impossible'
    have within : j + 1 ≤ w.length := by omega
    rw [List.take_append_of_le_length within]
    refine Extensible.of_append (v := w.drop (j + 1)) ?_
    rwa [List.take_append_drop]

/-- In `Spawn(x, -)` nothing follows the minus. The diagnostic stands at the bracket, and not before
it: all other tokens can begin a program. -/
theorem ofTokens_first_impossible_operand :
    let ts : List Token :=
      [⟨.function, "Spawn", ⟨1, 1⟩⟩, ⟨.symbol, "(", ⟨1, 6⟩⟩, ⟨.identifier, "x", ⟨1, 7⟩⟩,
        ⟨.symbol, ",", ⟨1, 8⟩⟩, ⟨.operator, "-", ⟨1, 10⟩⟩, ⟨.symbol, ")", ⟨1, 11⟩⟩]
    ∃ d, ofTokens ts = .error d ∧ d.position = ⟨1, 11⟩ ∧ Extensible (ts.take 5) ∧
      ¬ Extensible (ts.take 6) := by
  intro ts
  have failed : ofTokens ts = .error (Parser.unexpected .expression ⟨.symbol, ")", ⟨1, 11⟩⟩) := by
    have x : Level top [⟨.identifier, "x", ⟨1, 7⟩⟩] (.var "x") :=
      .lift (.lift (.lift (.lift (.lift (.lift (.var rfl))))))
    have comma : (⟨.symbol, ",", ⟨1, 8⟩⟩ : Token).isSymbol "," := by decide
    have bracket : (⟨.symbol, "(", ⟨1, 6⟩⟩ : Token).isSymbol "(" := by decide
    obtain ⟨_, opened⟩ := Parser.symbol_complete (closing ts) (ts.drop 2) bracket
    obtain ⟨_, _, read, -⟩ :=
      Parser.expr_complete (closing ts) (ts.drop 3) x rfl fun _ => Parser.stops_symbol comma
    obtain ⟨_, divided⟩ := Parser.symbol_complete (closing ts) (ts.drop 4) comma
    rw [ofTokens_eq]
    refine (Parser.program_eq_error (by simp [ts, front])).mpr (.inl ?_)
    refine (Parser.oneSpawn_eq_error (by decide)).mpr ?_
    refine .inr ⟨_, opened, .inr ⟨_, read, .inr ⟨_, divided, .inl ?_⟩⟩⟩
    refine Parser.level_error _ ((Parser.factor_minus rfl rfl).mpr ?_)
    simp [Parser.factor]
  obtain ⟨i, t, found, place, before, least⟩ := ofTokens_first_impossible failed
  have here : i = 5 := by
    have shape : completed ts = ts ++ [.eof ⟨1, 12⟩] := rfl
    rw [shape] at found
    rcases i with _ | _ | _ | _ | _ | _ | _ | i
    case succ.succ.succ.succ.succ.zero => rfl
    all_goals cases found <;> cases place
  subst here
  exact ⟨_, failed, rfl, before, least.1⟩

end Program

end Easel
