import Easel.Proofs.ParserComplete
import Mathlib.Computability.Language

/-!
# Where expressions are stuck

Where reading fails, it is stuck (`Parser.Stuck`): the tokens before the place of the diagnostic can
be gone on with to a phrase, and with the token that stands there reading fails, whatever comes
after it. Main statement: expressions are read like that (`Parser.reads_expr`).

A phrase that was read would be read from other tokens as well, as long as the token after it is
the same (`Parser.Taken`). So when one part of a phrase is stuck, the parts before it can be kept
(`Parser.Stuck.prepend`), and the phrase is stuck at the same token.
-/

namespace Easel

/-- Work in two parts fails in the first part or in the second. -/
lemma bind_eq_error {ε α β : Type} {x : Except ε α} {f : α → Except ε β} {e : ε} :
    x >>= f = .error e ↔ x = .error e ∨ ∃ a, x = .ok a ∧ f a = .error e := by
  cases x with
  | error e' => exact ⟨fun h => .inl (by cases h; rfl), fun h => by
      rcases h with h | ⟨_, h, _⟩
      · cases h; rfl
      · cases h⟩
  | ok a => exact ⟨fun h => .inr ⟨a, rfl, h⟩, fun h => by
      rcases h with h | ⟨_, h, failed⟩
      · cases h
      · cases h; exact failed⟩

namespace Parser

open Grammar

/-- Tokens, and how they are read as a phrase. -/
abbrev Reading (α : Type) :=
  (eof : Token) → (ts : List Token) → Except Diagnostic (Phrase α ts)

/-- With which end mark, on which tokens and with which diagnostic reading fails. -/
abbrev Failure := (eof : Token) → (ts : List Token) → Diagnostic → Prop

/-- The failure of a reading. -/
def fails {α : Type} (f : Reading α) : Failure := fun eof ts d => f eof ts = .error d

/-- The tokens can be gone on with to a word of the language. -/
def Viable (L : Language Token) (w : List Token) : Prop := ∃ u, w ++ u ∈ L

/-- Reading has come to a token with which it cannot go on, or to the end. The tokens before it can
be gone on with; with the token, reading fails whatever comes after it. -/
inductive Stuck (failure : Failure) (L : Language Token) (eof : Token) (d : Diagnostic) :
    List Token → Prop where
  | atEnd {w} :
    Viable L w →
    d.position = eof.position →
    Stuck failure L eof d w
  | atToken {w t} (rest) :
    Viable L w →
    d.position = t.position →
    (∀ eof more, ∃ d, failure eof (w ++ t :: more) d) →
    Stuck failure L eof d (w ++ t :: rest)

/-- A phrase is a word of the language, and it is read from all tokens that begin with it and go on
with the same token. -/
def Taken {α : Type} (f : Reading α) (L : Language Token) {ts : List Token} (ph : Phrase α ts) :
    Prop :=
  ∃ w ∈ L, ts = w ++ ph.rest ∧
    ∀ eof rest, rest.head? = ph.rest.head? → ∃ ph', f eof (w ++ rest) = .ok ph' ∧ ph'.rest = rest

section Stuck

variable {α : Type} {failure failure' : Failure} {L M : Language Token} {eof : Token}
  {d : Diagnostic} {ts : List Token}

/-- A word of the language can be gone on with by nothing. -/
lemma viable_of_mem {w : List Token} (mem : w ∈ L) : Viable L w := ⟨[], by rwa [List.append_nil]⟩

/-- Reading that is stuck is stuck with other tokens in front of it, too, if these can be gone on
with by what can be gone on with, and reading all fails where reading the rest does. -/
lemma Stuck.prepend (p : List Token) (stuck : Stuck failure L eof d ts)
    (viable : ∀ w ∈ L, Viable M (p ++ w))
    (bad : ∀ eof us d, us.head? = ts.head? → failure eof us d → ∃ d, failure' eof (p ++ us) d) :
    Stuck failure' M eof d (p ++ ts) := by
  have goesOn {w : List Token} (before : Viable L w) : Viable M (p ++ w) := by
    obtain ⟨u, mem⟩ := before
    obtain ⟨v, mem'⟩ := viable _ mem
    exact ⟨u ++ v, by simpa using mem'⟩
  cases stuck with
  | atEnd before place => exact .atEnd (goesOn before) place
  | @atToken w t rest before place always =>
    rw [← List.append_assoc]
    refine .atToken rest (goesOn before) place fun eof more => ?_
    obtain ⟨d, failed⟩ := always eof more
    rw [List.append_assoc]
    exact bad eof _ d (by cases w <;> rfl) failed

/-- Reading that is stuck is stuck in a larger language, too, if all of it fails there. -/
lemma Stuck.imp (stuck : Stuck failure L eof d ts) (viable : ∀ w ∈ L, Viable M w)
    (bad : ∀ eof us d, us.head? = ts.head? → failure eof us d → ∃ d, failure' eof us d) :
    Stuck failure' M eof d ts :=
  stuck.prepend [] viable bad

/-- Reading is stuck at the first token if it fails for that token alone. -/
lemma Stuck.atFirst {f : Reading α} {t : Token} {rest : List Token} {e : Diagnostic}
    (inhabited : ∃ w, w ∈ L) (place : e.position = t.position)
    (always : ∀ eof more, f eof (t :: more) = .error e) (failed : f eof (t :: rest) = .error d) :
    Stuck (fails f) L eof d (t :: rest) := by
  rw [always] at failed
  cases failed
  exact .atToken (w := []) rest inhabited place fun eof more => ⟨_, always eof more⟩

/-- Two languages with words have words in sequence. -/
lemma mul_inhabited (first : ∃ w, w ∈ L) (second : ∃ w, w ∈ M) : ∃ w, w ∈ L * M := by
  obtain ⟨w, mem⟩ := first
  obtain ⟨v, mem'⟩ := second
  exact ⟨w ++ v, Language.append_mem_mul mem mem'⟩

/-- One phrase is read, and something else after it. -/
def andThen (f : Reading α) (next : Failure) : Failure := fun eof ts d =>
  f eof ts = .error d ∨ ∃ ph, f eof ts = .ok ph ∧ next eof ph.rest d

/-- A sequence is stuck where its first phrase is stuck, or where what comes after it is. -/
lemma stuck_andThen {f : Reading α} {next : Failure} (inhabited : ∃ w, w ∈ M)
    (stuck : f eof ts = .error d → Stuck (fails f) L eof d ts)
    (taken : ∀ ph, f eof ts = .ok ph → Taken f L ph)
    (stuck' : ∀ ph, f eof ts = .ok ph → next eof ph.rest d → Stuck next M eof d ph.rest)
    (failed : andThen f next eof ts d) : Stuck (andThen f next) (L * M) eof d ts := by
  rcases failed with failed | ⟨ph, read, failed⟩
  · obtain ⟨v, mem'⟩ := inhabited
    refine (stuck failed).imp ?_ fun eof us d _ failed => ⟨d, .inl failed⟩
    intro w mem
    exact ⟨v, Language.append_mem_mul mem mem'⟩
  · obtain ⟨w, mem, e, again⟩ := taken ph read
    have later := stuck' ph read failed
    rw [e]
    refine later.prepend w ?_ ?_
    · intro v mem'
      exact viable_of_mem (Language.append_mem_mul mem mem')
    · intro eof us d same failed
      obtain ⟨ph', read', after⟩ := again eof us same
      exact ⟨d, .inr ⟨ph', read', by rwa [after]⟩⟩

/-- Where reading fails, it is stuck. -/
structure Precise (failure : Failure) (L : Language Token) : Prop where
  inhabited : ∃ w, w ∈ L
  stuck : ∀ {eof ts d}, failure eof ts d → Stuck failure L eof d ts

/-- The words of the language are read, and where reading fails, it is stuck. -/
structure Reads (f : Reading α) (L : Language Token) : Prop extends Precise (fails f) L where
  taken : ∀ {eof ts} {ph : Phrase α ts}, f eof ts = .ok ph → Taken f L ph

/-- If a phrase is read up to where it is stuck, and so is what comes after it, then so are both. -/
lemma Reads.andThen {f : Reading α} (first : Reads f L) (next : Precise failure M) :
    Precise (andThen f failure) (L * M) where
  inhabited := mul_inhabited first.inhabited next.inhabited
  stuck := stuck_andThen next.inhabited first.stuck (fun _ => first.taken) fun _ _ => next.stuck

end Stuck

/-- The symbols with the given lexeme. -/
def symbolWords (lexeme : String) : Language Token := {w | ∃ t, w = [t] ∧ t.isSymbol lexeme}

/-- The expressions of a level. -/
def levelWords (n : Nat) : Language Token := {w | ∃ e, Level n w e}

/-- What may follow the opening bracket of a call that has arguments. -/
def argumentWords : Language Token :=
  {w | ∃ v r es, w = v ++ [r] ∧ Arguments v es ∧ r.isSymbol ")"}

section Words

/-- A symbol to go on with. -/
def someSymbol (lexeme : String) : Token := ⟨.symbol, lexeme, .start⟩

/-- An identifier to go on with. -/
def someName : Token := ⟨.identifier, "x", .start⟩

/-- There is a symbol with each lexeme. -/
lemma isSymbol_someSymbol (lexeme : String) : (someSymbol lexeme).isSymbol lexeme := by
  simp [someSymbol, Token.isSymbol]

/-- There is a symbol with each lexeme to go on with. -/
lemma symbolWords_inhabited (lexeme : String) : ∃ w, w ∈ symbolWords lexeme :=
  ⟨_, someSymbol lexeme, rfl, isSymbol_someSymbol lexeme⟩

/-- There is an expression of each level. -/
lemma levelWords_inhabited (n : Nat) : ∃ w, w ∈ levelWords n := by
  refine ⟨[someName], .var someName.lexeme, ?_⟩
  induction n with
  | zero => exact .var rfl
  | succ n ih => exact .lift ih

/-- There are arguments. -/
lemma argumentWords_inhabited : ∃ w, w ∈ argumentWords := by
  obtain ⟨w, e, drv⟩ := levelWords_inhabited top
  exact ⟨_, w, someSymbol ")", [e], rfl, .one drv, isSymbol_someSymbol ")"⟩

end Words

/-- An unexpected token is reported at its place. -/
lemma position_unexpected (expected : Expectation) (t : Token) :
    (unexpected expected t).position = t.position := by
  rw [unexpected]
  split <;> rfl

/-- What is read as a symbol is read so from all tokens that begin alike. -/
lemma symbol_taken {lexeme : String} {eof : Token} {ts : List Token} {ph : Phrase Unit ts}
    (read : symbol eof lexeme ts = .ok ph) :
    Taken (fun eof => symbol eof lexeme) (symbolWords lexeme) ph := by
  obtain ⟨t, e, sym⟩ := symbol_sound read
  refine ⟨[t], ⟨t, rfl, sym⟩, e, fun eof rest _ => ?_⟩
  obtain ⟨shorter, read⟩ := symbol_complete eof rest sym
  exact ⟨_, read, rfl⟩

/-- Where a symbol is missing, reading is stuck. -/
lemma symbol_stuck {lexeme : String} {eof : Token} {ts : List Token} {d : Diagnostic}
    (failed : symbol eof lexeme ts = .error d) :
    Stuck (fails fun eof => symbol eof lexeme) (symbolWords lexeme) eof d ts := by
  cases ts with
  | nil =>
    cases failed
    exact .atEnd (symbolWords_inhabited lexeme) (position_unexpected _ _)
  | cons t rest =>
    by_cases sym : t.isSymbol lexeme
    · rw [symbol, if_pos sym] at failed
      cases failed
    · refine .atFirst (symbolWords_inhabited lexeme) (position_unexpected (.symbol lexeme) t) ?_
        failed
      intro eof more
      rw [symbol, if_neg sym]

/-- Symbols are read up to the token that rules them out. -/
lemma reads_symbol (lexeme : String) :
    Reads (fun eof => symbol eof lexeme) (symbolWords lexeme) where
  inhabited := symbolWords_inhabited lexeme
  stuck := symbol_stuck
  taken := symbol_taken

section Expressions

variable {eof : Token} {n : Nat} {t : Token} {ts us : List Token} {d : Diagnostic}

/-- After a chain of operators, no operator of its level follows, nor a tighter one if none can
follow its operands. -/
lemma stops_chain
    (operand : ∀ {ts : List Token} {ph : Phrase Expr ts},
      level eof n ts = .ok ph → Stops (n + 1) ph.rest)
    {left ph : Phrase Expr ts} (stops : Stops (n + 1) left.rest)
    (read : chain eof n left = .ok ph) : Stops (n + 2) ph.rest := by
  rw [chain] at read
  split at read
  · next ended =>
    cases read
    rw [ended]
    intro t first
    cases first
  · next t more follows =>
    split at read
    · next other =>
      cases read
      intro t' first m less
      by_cases same : m = n + 1
      · rw [follows] at first
        cases first
        rw [same, other]
      · exact stops t' first m (by omega)
    · obtain ⟨right, read', read⟩ := bind_eq_ok.mp read
      have : more.length < left.rest.length := by simp [follows]
      have := right.shorter
      have stops' : Stops (n + 1) right.rest := operand read'
      exact stops_chain @operand stops' read
termination_by left.rest.length

/-- After an expression of a level, no operator follows that it could go on with. -/
lemma stops_level {ph : Phrase Expr ts} (read : level eof n ts = .ok ph) :
    Stops (n + 1) ph.rest := by
  induction n generalizing ts with
  | zero =>
    intro t _ m less
    cases found : operator? m t with
    | none => rfl
    | some op =>
      have tightest := op.level_bounds.1
      rw [mem_operators.mp (operator?_eq_some.mp found).2.2] at tightest
      omega
  | succ n ih =>
    rw [level] at read
    obtain ⟨left, read', read⟩ := bind_eq_ok.mp read
    exact stops_chain ih (ih read') read

/-- What is read as an expression is read so from all tokens that begin alike. -/
lemma level_taken {ph : Phrase Expr ts} (read : level eof n ts = .ok ph) :
    Taken (fun eof => level eof n) (levelWords n) ph := by
  obtain ⟨w, e, drv⟩ := level_sound read
  refine ⟨w, ⟨_, drv⟩, e, fun eof rest same => ?_⟩
  have stops : Stops (n + 1) rest := fun t first => stops_level read t (same ▸ first)
  obtain ⟨v, shorter, again, -⟩ := level_complete eof drv rest rfl fun t first m less =>
    stops t first m (by omega)
  rw [goOn_of_stops eof stops] at again
  exact ⟨_, again, rfl⟩

/-- Where an operator has no operand on its right, the chain fails. -/
lemma chain_error {left : Phrase Expr ts} {op : Operator} (follows : left.rest = t :: us)
    (found : operator? (n + 1) t = some op) (failed : level eof n us = .error d) :
    chain eof n left = .error d := by
  rw [chain]
  split
  · next ended =>
    rw [follows] at ended
    cases ended
  · next t' us' follows' =>
    rw [follows] at follows'
    cases follows'
    rw [found]
    simp only [failed]
    rfl

/-- An operand that begins with the name of an instruction fails as the call does. -/
lemma factor_function (kind : t.kind = .function) :
    factor eof (t :: ts) = .error d ↔ call eof t ts = .error d := by
  simp only [factor, kind, bind_eq_error, reduceCtorEq, and_false, exists_false, or_false]

/-- An operand in brackets fails inside them or at the bracket that closes them. -/
lemma factor_group (kind : t.kind = .symbol) (opens : t.lexeme = "(") :
    factor eof (t :: ts) = .error d ↔
      andThen (fun eof => level eof top) (fails fun eof => symbol eof ")") eof ts d := by
  simp only [factor, kind, opens, if_pos, bind_eq_error, andThen, fails, reduceCtorEq, and_false,
    exists_false, or_false]
  rfl

/-- An operand with a sign fails as it does without. -/
lemma factor_minus (kind : t.kind = .operator) (minus : t.lexeme = "-") :
    factor eof (t :: ts) = .error d ↔ factor eof ts = .error d := by
  conv => lhs; rw [factor]
  simp only [kind, minus, if_pos, bind_eq_error, reduceCtorEq, and_false, exists_false, or_false]

/-- There is one name that cannot be called. -/
lemma call_unnamed (unnamed : Instruction.ofName? t.lexeme = none) :
    call eof t ts = .error (Fault.repeatedSpawn.diagnose t.position) := by
  rw [call, unnamed]

/-- A call fails at its opening bracket or in its arguments. -/
lemma call_named {instruction : Instruction}
    (named : Instruction.ofName? t.lexeme = some instruction) :
    call eof t ts = .error d ↔
      andThen (fun eof => symbol eof "(") (fails arguments) eof ts d := by
  rw [call, named]
  simp only [bind_eq_error, andThen, fails, reduceCtorEq, and_false, exists_false, or_false]

/-- Arguments that do not begin with a closing bracket are read one by one. -/
lemma arguments_eq_some (other : ∀ t, ts.head? = some t → ¬ t.isSymbol ")") :
    arguments eof ts = someArguments eof ts := by
  cases ts with
  | nil => rw [arguments]
  | cons t rest => rw [arguments, if_neg (other t rfl)]

/-- After an argument, a comma and more arguments are read, or the bracket. -/
lemma someArguments_error {first : Phrase Expr ts} (read : level eof top ts = .ok first)
    (follows : first.rest = t :: us) :
    someArguments eof ts = .error d ↔
      t.isSymbol "," ∧ someArguments eof us = .error d ∨
        (¬ t.isSymbol "," ∧ ¬ t.isSymbol ")") ∧ unexpected (.symbol ")") t = d := by
  conv => lhs; rw [someArguments, show Operator.loosest = top from rfl, read, ok_bind]
  simp only
  split
  · next ended =>
    rw [follows] at ended
    cases ended
  · next t' us' follows' =>
    rw [follows] at follows'
    cases follows'
    by_cases comma : t.isSymbol ","
    · simp [comma, bind_eq_error]
    · by_cases close : t.isSymbol ")" <;> simp [comma, close]

/-- Arguments that end without a bracket lack one. -/
lemma someArguments_ended {first : Phrase Expr ts} (read : level eof top ts = .ok first)
    (ended : first.rest = []) :
    someArguments eof ts = .error (unexpected (.symbol ")") eof) := by
  rw [someArguments, show Operator.loosest = top from rfl, read, ok_bind]
  simp only
  split
  · rfl
  · next follows =>
    rw [ended] at follows
    cases follows

/-- What may follow the name of an instruction in a call. -/
def callWords (t : Token) : Language Token := {w | ∃ i es, Call (t :: w) i es}

mutual

/-- Where no operand can be read, reading is stuck. -/
lemma factor_stuck {ts : List Token} (failed : factor eof ts = .error d) :
    Stuck (fails factor) (levelWords 0) eof d ts := by
  cases ts with
  | nil =>
    rw [factor] at failed
    cases failed
    exact .atEnd (levelWords_inhabited 0) (position_unexpected _ _)
  | cons t rest =>
    -- tokens with which no operand begins
    have atFirst := @Stuck.atFirst _ _ eof d factor t rest _ (levelWords_inhabited 0)
      (position_unexpected .expression t)
    cases kind : t.kind with
    | number =>
      cases valid : Number.ofText? t.lexeme with
      | none =>
        refine .atFirst (levelWords_inhabited 0)
          (e := (Fault.invalidNumber t.lexeme).diagnose t.position) rfl (fun eof more => ?_) failed
        simp only [factor, kind, valid]
      | some x =>
        simp only [factor, kind, valid] at failed
        cases failed
    | string | identifier =>
      simp only [factor, kind] at failed
      cases failed
    | function =>
      cases named : Instruction.ofName? t.lexeme with
      | none =>
        refine .atFirst (levelWords_inhabited 0)
          (e := Fault.repeatedSpawn.diagnose t.position) rfl (fun eof more => ?_) failed
        exact (factor_function kind).mpr (call_unnamed named)
      | some instruction =>
        rw [factor_function kind] at failed
        refine (call_stuck kind named failed).prepend [t] ?_ fun eof us d _ failed => ⟨d, ?_⟩
        · rintro w ⟨i, es, drv⟩
          exact viable_of_mem ⟨_, .call drv⟩
        · exact (factor_function kind).mpr failed
    | symbol =>
      by_cases opens : t.lexeme = "("
      · rw [factor_group kind opens] at failed
        have stuck := stuck_andThen (symbolWords_inhabited ")") (fun failed => level_stuck failed)
          (fun ph read => level_taken read) (fun ph read failed => symbol_stuck failed) failed
        refine stuck.prepend [t] ?_ fun eof us d _ failed => ⟨d, ?_⟩
        · rintro _ ⟨w, ⟨e, drv⟩, _, ⟨r, rfl, sym⟩, rfl⟩
          exact viable_of_mem ⟨e, .group (by simp [Token.isSymbol, kind, opens]) drv sym⟩
        · exact (factor_group kind opens).mpr failed
      · exact atFirst (fun eof more => by simp only [factor, kind, opens, if_false]) failed
    | operator =>
      by_cases minus : t.lexeme = "-"
      · rw [factor_minus kind minus] at failed
        refine (factor_stuck failed).prepend [t] ?_ fun eof us d _ failed => ⟨d, ?_⟩
        · rintro w ⟨e, drv⟩
          exact viable_of_mem ⟨_, .minus kind minus drv⟩
        · exact (factor_minus kind minus).mpr failed
      · exact atFirst (fun eof more => by simp only [factor, kind, minus, if_false]) failed
    | goTo | newLine | eof =>
      exact atFirst (fun eof more => by simp only [factor, kind]) failed
termination_by (ts.length, 0)

/-- Where no expression of a level can be read, reading is stuck. -/
lemma level_stuck {n : Nat} {ts : List Token} (failed : level eof n ts = .error d) :
    Stuck (fails fun eof => level eof n) (levelWords n) eof d ts := by
  cases n with
  | zero =>
    rw [level] at failed
    refine (factor_stuck failed).imp (fun _ => viable_of_mem) fun eof us d _ failed => ⟨d, ?_⟩
    rwa [fails, level]
  | succ n =>
    rw [level] at failed
    rcases bind_eq_error.mp failed with failed | ⟨left, read, failed⟩
    · refine (level_stuck failed).imp ?_ fun eof us d _ failed => ⟨d, ?_⟩
      · rintro w ⟨e, drv⟩
        exact viable_of_mem ⟨e, .lift drv⟩
      · rw [fails, level]
        exact bind_eq_error.mpr (.inl failed)
    · obtain ⟨w, e, drv⟩ := level_sound read
      have := left.shorter
      exact chain_stuck e (.lift drv) failed
termination_by (ts.length, n + 1)

/-- A chain is stuck in an operand on the right. The expression before it is kept. -/
lemma chain_stuck {n : Nat} {ts w : List Token} {left : Phrase Expr ts} (e : ts = w ++ left.rest)
    (drv : Level (n + 1) w left.value.tree) (failed : chain eof n left = .error d) :
    Stuck (fails fun eof => level eof (n + 1)) (levelWords (n + 1)) eof d ts := by
  rw [chain] at failed
  split at failed
  · cases failed
  · next t more follows =>
    split at failed
    · cases failed
    · next op found =>
      obtain ⟨kind, lexeme, mem⟩ := operator?_eq_some.mp found
      have : more.length < left.rest.length := by simp [follows]
      rcases bind_eq_error.mp failed with failed | ⟨right, read, failed⟩
      · -- the operand on the right is stuck, after all that was read before it
        have e' : ts = (w ++ [t]) ++ more := by rw [e, follows, List.append_assoc]; rfl
        rw [e']
        refine (level_stuck failed).prepend (w ++ [t]) ?_ fun eof us d _ failed => ⟨d, ?_⟩
        · rintro v ⟨r, drv'⟩
          refine viable_of_mem ⟨.binary left.value.tree op r, ?_⟩
          rw [List.append_assoc]
          exact .binary drv kind lexeme mem drv'
        · obtain ⟨v, shorter, read, -⟩ :=
            level_complete eof drv (t :: us) rfl (stops_operator found)
          rw [fails, List.append_assoc, List.singleton_append, read]
          exact chain_error rfl found failed
      · -- the operand on the right is read, and the chain goes on from a longer left side
        obtain ⟨u, e', drv'⟩ := level_sound read
        have := right.shorter
        refine chain_stuck (w := w ++ t :: u) ?_ ?_ failed
        · exact append_trans e (follows.trans (congrArg (t :: ·) e'))
        · simp only [Expr.tree]
          exact .binary drv kind lexeme mem drv'
termination_by (left.rest.length, 0)

/-- Where no call can be read, reading is stuck. -/
lemma call_stuck {t : Token} {ts : List Token} {instruction : Instruction}
    (kind : t.kind = .function) (named : Instruction.ofName? t.lexeme = some instruction)
    (failed : call eof t ts = .error d) :
    Stuck (fails fun eof => call eof t) (callWords t) eof d ts := by
  rw [call_named named] at failed
  have name := Instruction.name_of_ofName? named
  have stuck := stuck_andThen argumentWords_inhabited symbol_stuck
    (fun opened read => symbol_taken read) (fun opened read failed => by
      have := opened.shorter
      exact arguments_stuck failed) failed
  refine stuck.imp ?_ fun eof us d _ failed => ⟨d, (call_named named).mpr failed⟩
  rintro _ ⟨_, ⟨l, rfl, sym⟩, _, ⟨w, r, es, rfl, drv, sym'⟩, rfl⟩
  exact viable_of_mem ⟨instruction, es, .apply kind name.symm sym drv sym'⟩
termination_by (ts.length, 0)

/-- Where no arguments can be read, reading is stuck. -/
lemma arguments_stuck {ts : List Token} (failed : arguments eof ts = .error d) :
    Stuck (fails arguments) argumentWords eof d ts := by
  have other : ∀ t, ts.head? = some t → ¬ t.isSymbol ")" := by
    intro t first close
    obtain ⟨rest, rfl⟩ := List.head?_eq_some_iff.mp first
    rw [arguments, if_pos close] at failed
    cases failed
  rw [arguments_eq_some other] at failed
  refine (someArguments_stuck failed).imp (fun _ => viable_of_mem) ?_
  intro eof us d same failed
  refine ⟨d, ?_⟩
  rwa [fails, arguments_eq_some fun t first => other t (same ▸ first)]
termination_by (ts.length, top + 3)

/-- Where no further arguments can be read, reading is stuck. -/
lemma someArguments_stuck {ts : List Token} (failed : someArguments eof ts = .error d) :
    Stuck (fails someArguments) argumentWords eof d ts := by
  cases first : level eof top ts with
  | error d' =>
    have first' := first
    rw [someArguments, show Operator.loosest = top from rfl, first] at failed
    cases failed
    refine (level_stuck first').imp ?_ fun eof us d _ failed => ⟨d, ?_⟩
    · rintro w ⟨e, drv⟩
      exact ⟨[someSymbol ")"], w, _, [e], rfl, .one drv, isSymbol_someSymbol ")"⟩
    · rw [fails, someArguments]
      exact bind_eq_error.mpr (.inl failed)
  | ok ph =>
    have := ph.shorter
    obtain ⟨w, ⟨e, drv⟩, eq, again⟩ := level_taken first
    have viable : Viable argumentWords w :=
      ⟨[someSymbol ")"], w, _, [e], rfl, .one drv, isSymbol_someSymbol ")"⟩
    -- the first argument can be read, so what follows it is to blame
    cases follows : ph.rest with
    | nil =>
      rw [someArguments_ended first follows] at failed
      cases failed
      rw [eq, follows, List.append_nil]
      exact .atEnd viable (position_unexpected _ _)
    | cons t us =>
      have : us.length < ph.rest.length := by simp [follows]
      rw [eq, follows]
      rcases (someArguments_error first follows).mp failed with ⟨comma, failed⟩ | ⟨other, rfl⟩
      · rw [show w ++ t :: us = (w ++ [t]) ++ us by simp]
        refine (someArguments_stuck failed).prepend (w ++ [t]) ?_ fun eof us d _ failed => ?_
        · rintro _ ⟨v, r, es, rfl, drv', close⟩
          refine viable_of_mem ⟨w ++ t :: v, r, e :: es, ?_, .cons drv comma drv', close⟩
          simp
        · obtain ⟨ph', read', after⟩ := again eof (t :: us) (by rw [follows]; rfl)
          rw [List.append_assoc]
          exact ⟨d, (someArguments_error read' after).mpr (.inl ⟨comma, failed⟩)⟩
      · refine .atToken us viable (position_unexpected _ _) fun eof more => ?_
        obtain ⟨ph', read', after⟩ := again eof (t :: more) (by rw [follows]; rfl)
        exact ⟨_, (someArguments_error read' after).mpr (.inr ⟨other, rfl⟩)⟩
termination_by (ts.length, top + 2)

end

/-- Expressions are read up to the first token that rules them out. -/
lemma reads_expr : Reads expr (levelWords top) where
  inhabited := levelWords_inhabited top
  stuck := level_stuck
  taken := level_taken

end Expressions

end Parser

end Easel
