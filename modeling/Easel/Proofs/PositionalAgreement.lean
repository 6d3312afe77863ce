import Easel.Proofs.Positional
import Mathlib.Tactic.Lemma

/-!
# The parser and reading by position

Reading by position does what the parser does with the tokens ahead of the position, up to the next
end of the text (`Ahead`). Where the parser reads something, so does reading by position, and the
position moves to where the tokens that are left begin. Where the parser reports a fault, the same
one is found, at a position not past that end (`Follows`). As the parser comes to an end, reading by
position does, too: it has an outcome for all bounds that are large enough (`Yields`). The main
statements are `reads_level`, `reads_statement` and `follows_program`.
-/

namespace Easel.Positional

open Program (isEof)

namespace Reader

variable {α β : Type} {x : Reader α} {a : α} {stop : Stop} {pos pos' : Nat}

/-- After a reading that succeeds, what follows is read from where it ended. -/
lemma outcome_bind_ok (read : x.outcome pos = some (.ok a, pos')) (k : α → Reader β) :
    (x >>= k).outcome pos = (k a).outcome pos' := by
  rw [outcome] at read ⊢
  rw [ExceptT.run_bind, StateT.run_bind, read]
  rfl

/-- After a reading that stops, nothing else is read. -/
lemma outcome_bind_error (read : x.outcome pos = some (.error stop, pos')) (k : α → Reader β) :
    (x >>= k).outcome pos = some (.error stop, pos') := by
  rw [outcome] at read ⊢
  rw [ExceptT.run_bind, StateT.run_bind, read]
  rfl

end Reader

/-- The tokens `ts` are ahead of a position, up to the end `eof` of the text at the position
`last`. -/
inductive Ahead (tokens : List Token) (eof : Token) (last : Nat) : Nat → List Token → Prop where
  | done :
    tokens[last]? = some eof →
    isEof eof →
    Ahead tokens eof last last []
  | next {pos t ts} :
    tokens[pos]? = some t →
    ¬ isEof t →
    Ahead tokens eof last (pos + 1) ts →
    Ahead tokens eof last pos (t :: ts)

variable {tokens : List Token} {eof t : Token} {ts : List Token} {last base pos : Nat}

/-- What is looked at is the token at the position, or the last one if the position is past it. -/
lemma outcome_peek_of_eq (found : tokens[min pos (tokens.length - 1)]? = some t) :
    (peek tokens).outcome pos = some (.ok t, pos) := by
  have here : (get : Reader Nat).outcome pos = some (.ok pos, pos) := rfl
  rw [peek, Reader.outcome_bind_ok here, found]
  rfl

namespace Ahead

/-- At the position stands the first of the tokens ahead, or else the end of the text. -/
lemma getElem? (here : Ahead tokens eof last pos ts) : tokens[pos]? = some (ts.headD eof) := by
  cases here with
  | done found _ => exact found
  | next found _ _ => exact found

/-- One position further, the tokens ahead are those after the first. -/
lemma tail (here : Ahead tokens eof last pos (t :: ts)) : Ahead tokens eof last (pos + 1) ts := by
  cases here with
  | next _ _ rest => exact rest

/-- No token ahead is an end of the text. -/
lemma not_isEof (here : Ahead tokens eof last pos (t :: ts)) : ¬ isEof t := by
  cases here with
  | next _ other _ => exact other

/-- There are as many tokens ahead as positions are left up to the end of the text. -/
lemma length_eq (here : Ahead tokens eof last pos ts) : pos + ts.length = last := by
  induction here with
  | done _ _ => rfl
  | next _ _ _ ih =>
    rw [List.length_cons]
    omega

/-- What the tokens ahead end in is an end of the text. -/
lemma kind_eof (here : Ahead tokens eof last pos ts) : eof.kind = .eof := by
  induction here with
  | done _ ends => simpa [isEof] using ends
  | next _ _ _ ih => exact ih

/-- Looking finds the first of the tokens ahead, or else the end of the text, and stays there. -/
lemma outcome_peek (here : Ahead tokens eof last pos ts) :
    (peek tokens).outcome pos = some (.ok (ts.headD eof), pos) := by
  have found := here.getElem?
  obtain ⟨inside, -⟩ := List.getElem?_eq_some_iff.mp found
  have same : min pos (tokens.length - 1) = pos := by omega
  exact outcome_peek_of_eq (by rw [same, found])

/-- Looking past a token ahead finds what comes after it. -/
lemma outcome_peekNext (here : Ahead tokens eof last pos (t :: ts)) :
    (peekNext tokens).outcome pos = some (.ok (some (ts.headD eof)), pos) := by
  rw [← here.tail.getElem?]
  rfl

/-- Advancing takes the first of the tokens ahead and moves past it. -/
lemma outcome_advance (here : Ahead tokens eof last pos (t :: ts)) :
    (advance tokens).outcome pos = some (.ok t, pos + 1) := by
  obtain ⟨inside, -⟩ := List.getElem?_eq_some_iff.mp here.tail.getElem?
  have moves : pos < tokens.length - 1 := by omega
  rw [advance, Reader.outcome_bind_ok here.outcome_peek]
  change some (Except.ok t, if pos < tokens.length - 1 then pos + 1 else pos) = _
  rw [if_pos moves]

end Ahead

section Yields

variable {α β : Type} {X : Nat → Reader α} {K : Nat → α → Reader β} {a : α} {stop : Stop}
  {pos' : Nat} {o : Except Stop β × Nat}

/-- Reading has an outcome, which is the same for all bounds that are large enough. -/
def Yields (X : Nat → Reader α) (pos : Nat) (o : Except Stop α × Nat) : Prop :=
  ∃ n, ∀ depth ≥ n, (X depth).outcome pos = some o

/-- An outcome for which no bound matters is an outcome for all bounds. -/
lemma Yields.of_eq {x : Reader α} {o : Except Stop α × Nat} (read : x.outcome pos = some o) :
    Yields (fun _ => x) pos o :=
  ⟨0, fun _ _ => read⟩

/-- If both parts of a reading have an outcome, then so has the whole, for the greater of the two
bounds. -/
lemma Yields.bind_ok (read : Yields X pos (.ok a, pos')) (next : Yields (K · a) pos' o) :
    Yields (fun depth => X depth >>= K depth) pos o := by
  obtain ⟨m, read⟩ := read
  obtain ⟨n, next⟩ := next
  refine ⟨max m n, fun depth enough => ?_⟩
  rw [Reader.outcome_bind_ok (read depth (by omega))]
  exact next depth (by omega)

/-- If the first part of a reading stops, then so does the whole. -/
lemma Yields.bind_error (read : Yields X pos (.error stop, pos')) :
    Yields (fun depth => X depth >>= K depth) pos (.error stop, pos') := by
  obtain ⟨n, read⟩ := read
  exact ⟨n, fun depth enough => Reader.outcome_bind_error (read depth enough) _⟩

/-- A bound that is greater by one does not matter for an outcome. -/
lemma Yields.of_succ {o : Except Stop α × Nat} (read : Yields (fun depth => X (depth + 1)) pos o) :
    Yields X pos o := by
  obtain ⟨n, read⟩ := read
  refine ⟨n + 1, fun depth enough => ?_⟩
  cases depth with
  | zero => omega
  | succ depth => exact read depth (by omega)

end Yields

/-- Reading by position yields the same as the parser, whose result has a value and the tokens that
are left: these are ahead of the position then. It stays between `base` and the end of the text. -/
inductive Follows {ρ α : Type} (value : ρ → α) (rest : ρ → List Token) (tokens : List Token)
    (eof : Token) (last base : Nat) (X : Nat → Reader α) (pos : Nat) :
    Except Diagnostic ρ → Prop where
  | ok {r pos'} :
    Yields X pos (.ok (value r), pos') →
    base ≤ pos' →
    Ahead tokens eof last pos' (rest r) →
    Follows value rest tokens eof last base X pos (.ok r)
  | fault {d pos'} :
    Yields X pos (.error (.fault d), pos') →
    base ≤ pos' →
    pos' ≤ last →
    Follows value rest tokens eof last base X pos (.error d)

namespace Follows

variable {ρ σ α β : Type} {value : ρ → α} {rest : ρ → List Token} {value' : σ → β}
  {rest' : σ → List Token} {X : Nat → Reader α} {K : Nat → α → Reader β} {a : α} {pos' : Nat}
  {r : Except Diagnostic ρ} {f : ρ → Except Diagnostic σ}

/-- A reading that ends not before a position ends not before an earlier one, either. -/
lemma mono {base' : Nat} (le : base ≤ base')
    (follows : Follows value rest tokens eof last base' X pos r) :
    Follows value rest tokens eof last base X pos r := by
  cases follows with
  | ok yields le' here => exact .ok yields (Nat.le_trans le le') here
  | fault yields le' bound => exact .fault yields (Nat.le_trans le le') bound

/-- A bound that is greater by one does not matter for readings that follow the parser. -/
lemma of_succ
    (follows : Follows value rest tokens eof last base (fun depth => X (depth + 1)) pos r) :
    Follows value rest tokens eof last base X pos r := by
  cases follows with
  | ok yields le here => exact .ok yields.of_succ le here
  | fault yields le bound => exact .fault yields.of_succ le bound

/-- What is read first does not belong to the result. -/
lemma after {s : Except Diagnostic σ} (read : Yields X pos (.ok a, pos'))
    (next : Follows value' rest' tokens eof last base (K · a) pos' s) :
    Follows value' rest' tokens eof last base (fun depth => X depth >>= K depth) pos s := by
  cases next with
  | ok yields le here => exact .ok (read.bind_ok yields) le here
  | fault yields le bound => exact .fault (read.bind_ok yields) le bound

/-- If both parts of a reading follow the parser, then so does the whole. -/
lemma bind (read : Follows value rest tokens eof last base X pos r)
    (next : ∀ p pos', base ≤ pos' → Ahead tokens eof last pos' (rest p) →
      Follows value' rest' tokens eof last base (K · (value p)) pos' (f p)) :
    Follows value' rest' tokens eof last base (fun depth => X depth >>= K depth) pos
      (r >>= f) := by
  cases read with
  | ok yields le here => exact (next _ _ le here).after yields
  | fault yields le bound => exact .fault yields.bind_error le bound

end Follows

/-- Reading by position yields the phrase that the parser reads. -/
abbrev Reads {α : Type} (tokens : List Token) (eof : Token) (last base : Nat) (X : Nat → Reader α)
    (pos : Nat) {ts : List Token} (r : Except Diagnostic (Phrase α ts)) : Prop :=
  Follows Phrase.value Phrase.rest tokens eof last base X pos r

namespace Ahead

section Steps

variable {ρ α : Type} {value : ρ → α} {rest : ρ → List Token} {r : Except Diagnostic ρ}

/-- A position with tokens ahead is not past the end of the text. -/
lemma le_last (here : Ahead tokens eof last pos ts) : pos ≤ last := by
  have := here.length_eq
  omega

/-- A reading that begins with a look follows the parser if it does so with the token that it finds.
-/
lemma peek (here : Ahead tokens eof last pos ts) {K : Nat → Token → Reader α}
    (next : Follows value rest tokens eof last base (K · (ts.headD eof)) pos r) :
    Follows value rest tokens eof last base (fun depth => peek tokens >>= K depth) pos r :=
  next.after (.of_eq here.outcome_peek)

/-- A reading that begins by taking a token follows the parser if its rest does so, one position
further. -/
lemma advance (here : Ahead tokens eof last pos (t :: ts)) {K : Nat → Token → Reader α}
    (next : Follows value rest tokens eof last base (K · t) (pos + 1) r) :
    Follows value rest tokens eof last base (fun depth => advance tokens >>= K depth) pos r :=
  next.after (.of_eq here.outcome_advance)

/-- Reading is over with a phrase. -/
lemma finish {a : α} {us : List Token} {shorter : ts.length < us.length}
    (here : Ahead tokens eof last pos ts) (le : base ≤ pos) :
    Reads tokens eof last base (fun _ => pure a) pos (.ok ⟨a, ts, shorter⟩) :=
  .ok (.of_eq rfl) le here

/-- Reading is over with a fault. -/
lemma throw (here : Ahead tokens eof last pos ts) (le : base ≤ pos) (d : Diagnostic) :
    Follows value rest tokens eof last base (fun _ => throw (.fault d)) pos (.error d) :=
  .fault (.of_eq rfl) le here.le_last

/-- Where the parser reports an unexpected token, so does reading by position. -/
lemma unexpected (here : Ahead tokens eof last pos ts) (le : base ≤ pos) (expected : Expectation) :
    Follows value rest tokens eof last base (fun _ => unexpected tokens expected) pos
      (.error (Parser.unexpected expected (ts.headD eof))) :=
  here.peek (here.throw le _)

end Steps

/-- An end of the text is no symbol. -/
lemma not_isSymbol (here : Ahead tokens eof last pos ts) (lexeme : String) :
    ¬ eof.isSymbol lexeme := by
  simp [Token.isSymbol, here.kind_eof]

/-- An end of the text is no line break. -/
lemma not_isNewLine (here : Ahead tokens eof last pos ts) : ¬ Parser.isNewLine eof := by
  simp [Parser.isNewLine, here.kind_eof]

/-- An end of the text is no operator. -/
lemma operator?_eof (here : Ahead tokens eof last pos ts) (n : Nat) :
    Parser.operator? n eof = none := by
  simp [Parser.operator?, here.kind_eof]

/-- A symbol that is looked for and stands ahead is taken. -/
lemma matchSymbol_of_pos {lexeme : String} (here : Ahead tokens eof last pos (t :: ts))
    (symbol : t.isSymbol lexeme) :
    (matchSymbol tokens lexeme).outcome pos = some (.ok true, pos + 1) := by
  rw [matchSymbol, Reader.outcome_bind_ok here.outcome_peek, List.headD_cons, if_pos symbol,
    Reader.outcome_bind_ok here.outcome_advance]
  rfl

/-- A symbol that is looked for and does not stand ahead leaves the position where it is. -/
lemma matchSymbol_of_neg {lexeme : String} (here : Ahead tokens eof last pos ts)
    (other : ¬ (ts.headD eof).isSymbol lexeme) :
    (matchSymbol tokens lexeme).outcome pos = some (.ok false, pos) := by
  rw [matchSymbol, Reader.outcome_bind_ok here.outcome_peek, if_neg other]
  rfl

/-- A symbol that has to come and stands ahead is taken. -/
lemma outcome_expectSymbol {lexeme : String} (here : Ahead tokens eof last pos (t :: ts))
    (symbol : t.isSymbol lexeme) :
    (expectSymbol tokens lexeme).outcome pos = some (.ok (), pos + 1) := by
  rw [expectSymbol, Reader.outcome_bind_ok (here.matchSymbol_of_pos symbol)]
  rfl

/-- A symbol that has to come and does not stand ahead is missed, and the position stays. -/
lemma outcome_expectSymbol_of_neg {lexeme : String} (here : Ahead tokens eof last pos ts)
    (other : ¬ (ts.headD eof).isSymbol lexeme) :
    (expectSymbol tokens lexeme).outcome pos =
      some (.error (.fault (Parser.unexpected (.symbol lexeme) (ts.headD eof))), pos) := by
  rw [expectSymbol, Reader.outcome_bind_ok (here.matchSymbol_of_neg other)]
  exact Reader.outcome_bind_ok here.outcome_peek _

/-- A symbol that has to come is read as by the parser. -/
lemma symbol (here : Ahead tokens eof last pos ts) (le : base ≤ pos) (lexeme : String) :
    Reads tokens eof last base (fun _ => expectSymbol tokens lexeme) pos
      (Parser.symbol eof lexeme ts) := by
  cases ts with
  | nil =>
    have missing := here.outcome_expectSymbol_of_neg (here.not_isSymbol lexeme)
    exact .fault (.of_eq missing) le here.le_last
  | cons t ts =>
    rw [Parser.symbol]
    split
    · next found =>
      exact .ok (.of_eq (here.outcome_expectSymbol found)) (by omega) here.tail
    · next other =>
      exact .fault (.of_eq (here.outcome_expectSymbol_of_neg other)) le here.le_last

end Ahead

/-- Reads something and the bracket that closes a call after it. -/
def closed {α : Type} (tokens : List Token) (x : Reader α) : Reader α := do
  let a ← x
  expectSymbol tokens ")"
  return a

/-- What is made of a reading can be made before or after its closing bracket is read. -/
lemma closed_bind {α β : Type} (x : Reader α) (f : α → β) :
    (do
      let a ← x
      expectSymbol tokens ")"
      return f a : Reader β) = do
      let a ← closed tokens x
      return f a := by
  simp only [closed, bind_assoc, pure_bind]

/-- Reads the arguments of a call from the first on. -/
def someArguments (tokens : List Token) (depth : Nat) : Reader (List Expr) := do
  let first ← level tokens Operator.loosest depth
  let others ← moreArguments tokens depth
  return first :: others

/-- Further arguments are read after a comma, and there are none without one. -/
lemma moreArguments_succ (depth : Nat) :
    moreArguments tokens (depth + 1) = do
      let found ← matchSymbol tokens ","
      if found then someArguments tokens depth
      else return [] := by
  rw [moreArguments]
  rfl

-- The lemmas go along with the recursion of the parser, on the tokens ahead. The bound on the depth
-- is left open: it becomes less by one with every call (`Follows.of_succ`).
mutual

/-- Operands are read as by the parser. -/
lemma reads_factor {ts : List Token} {pos : Nat} (here : Ahead tokens eof last pos ts) :
    Reads tokens eof last pos (factor tokens) pos (Parser.factor eof ts) := by
  apply Follows.of_succ
  simp only [factor]
  apply here.peek
  rw [Parser.factor.eq_def]
  cases ts with
  | nil =>
    simp only [List.headD_nil, here.kind_eof]
    exact here.unexpected (Nat.le_refl _) .expression
  | cons t ts =>
    simp only [List.headD_cons]
    cases kind : t.kind with
    | number =>
      cases found : Number.ofText? t.lexeme with
      | some n => exact here.advance (here.tail.finish (by omega))
      | none => exact here.throw (Nat.le_refl _) _
    | string => exact here.advance (here.tail.finish (by omega))
    | identifier => exact here.advance (here.tail.finish (by omega))
    | function => exact (reads_call here).bind fun called pos' le here' => here'.finish le
    | symbol =>
      by_cases opens : t.lexeme = "("
      · simp only [opens, ↓reduceIte]
        apply here.advance
        refine ((reads_level _ here.tail).mono (by omega)).bind fun inner pos' le here' => ?_
        exact (here'.symbol le ")").bind fun close pos' le here' => here'.finish le
      · simp only [opens, ↓reduceIte]
        exact here.unexpected (Nat.le_refl _) .expression
    | operator =>
      by_cases minus : t.lexeme = "-"
      · simp only [minus, ↓reduceIte]
        apply here.advance
        exact ((reads_factor here.tail).mono (by omega)).bind fun operand pos' le here' =>
          here'.finish le
      · simp only [minus, ↓reduceIte]
        exact here.unexpected (Nat.le_refl _) .expression
    | goTo => exact here.unexpected (Nat.le_refl _) .expression
    | newLine => exact here.unexpected (Nat.le_refl _) .expression
    | eof => exact here.unexpected (Nat.le_refl _) .expression
termination_by (ts.length, 0)

/-- Expressions of each level are read as by the parser. -/
lemma reads_level (n : Nat) {ts : List Token} {pos : Nat} (here : Ahead tokens eof last pos ts) :
    Reads tokens eof last pos (level tokens n) pos (Parser.level eof n ts) := by
  apply Follows.of_succ
  cases n with
  | zero =>
    simp only [level, Parser.level]
    exact reads_factor here
  | succ n =>
    simp only [level, Parser.level]
    refine (reads_level n here).bind fun left pos' le here' => ?_
    have := left.shorter
    exact (reads_chain n left here').mono le
termination_by (ts.length, n + 1)

/-- The rest of a chain of operators is read as by the parser. -/
lemma reads_chain (n : Nat) {ts : List Token} (left : Phrase Expr ts) {pos : Nat}
    (here : Ahead tokens eof last pos left.rest) :
    Reads tokens eof last pos (chain tokens n left.value) pos (Parser.chain eof n left) := by
  have stays : Parser.operator? (n + 1) (left.rest.headD eof) = none →
      Reads tokens eof last pos (fun depth => chain tokens n left.value (depth + 1)) pos
        (.ok left) := by
    intro none
    simp only [chain]
    apply here.peek
    simp only [none]
    exact here.finish (Nat.le_refl _)
  apply Follows.of_succ
  rw [Parser.chain.eq_def]
  split
  · next nothing =>
    apply stays
    rw [nothing]
    exact here.operator?_eof _
  · next t more follows =>
    rw [follows] at stays
    split
    · next none => exact stays none
    · next op found =>
      rw [follows] at here
      simp only [chain]
      apply here.peek
      simp only [List.headD_cons, found]
      apply here.advance
      have : more.length < left.rest.length := by simp [follows]
      refine ((reads_level n here.tail).mono (by omega)).bind fun right pos' le here' => ?_
      have := left.shorter
      have := right.shorter
      let longer : Phrase Expr ts :=
        ⟨.binary left.value op right.value left.value.position, right.rest, by omega⟩
      exact (reads_chain n longer here').mono le
termination_by (left.rest.length, 0)

/-- Calls are read as by the parser. -/
lemma reads_call {t : Token} {ts : List Token} {pos : Nat}
    (here : Ahead tokens eof last pos (t :: ts)) :
    Reads tokens eof last pos (call tokens) pos (Parser.call eof t ts) := by
  apply Follows.of_succ
  simp only [call]
  apply here.peek
  rw [Parser.call.eq_def]
  simp only [List.headD_cons]
  cases found : Instruction.ofName? t.lexeme with
  | none => exact here.throw (Nat.le_refl _) _
  | some instruction =>
    apply here.advance
    refine (here.tail.symbol (by omega) "(").bind fun opened pos' le here' => ?_
    have := opened.shorter
    simp only [closed_bind]
    exact ((reads_arguments here').mono le).bind fun es pos' le here' => here'.finish le
termination_by (ts.length, 0)

/-- The parser reads the arguments of a call and the bracket after them together. -/
lemma reads_arguments {ts : List Token} {pos : Nat} (here : Ahead tokens eof last pos ts) :
    Reads tokens eof last pos (fun depth => closed tokens (arguments tokens depth)) pos
      (Parser.arguments eof ts) := by
  apply Follows.of_succ
  simp only [closed, arguments, bind_assoc]
  apply here.peek
  by_cases closes : (ts.headD eof).isSymbol ")"
  · simp only [closes, ↓reduceIte, pure_bind]
    cases ts with
    | nil => exact absurd closes (here.not_isSymbol _)
    | cons t rest =>
      rw [List.headD_cons] at closes
      rw [Parser.arguments, if_pos closes]
      exact .after (.of_eq (here.outcome_expectSymbol closes)) (here.tail.finish (by omega))
  · have opened : Parser.arguments eof ts = Parser.someArguments eof ts := by
      cases ts with
      | nil => rw [Parser.arguments]
      | cons t rest =>
        rw [List.headD_cons] at closes
        rw [Parser.arguments, if_neg closes]
    simp only [closes, opened]
    exact reads_someArguments here
termination_by (ts.length, Operator.loosest + 3)

/-- Arguments are read as by the parser, with the bracket that closes them. -/
lemma reads_someArguments {ts : List Token} {pos : Nat} (here : Ahead tokens eof last pos ts) :
    Reads tokens eof last pos (fun depth => closed tokens (someArguments tokens depth)) pos
      (Parser.someArguments eof ts) := by
  rw [Parser.someArguments.eq_def]
  simp only [closed, someArguments, bind_assoc, pure_bind]
  refine (reads_level _ here).bind fun first pos' le here' => ?_
  obtain ⟨value, rest, shorter⟩ := first
  apply Follows.of_succ
  simp only [moreArguments_succ, bind_assoc]
  cases rest with
  | nil =>
    refine .after (.of_eq (here'.matchSymbol_of_neg (here'.not_isSymbol _))) ?_
    simp only [Bool.false_eq_true, ↓reduceIte, pure_bind]
    have missing := here'.outcome_expectSymbol_of_neg (here'.not_isSymbol ")")
    exact .fault (Yields.bind_error (.of_eq missing)) le here'.le_last
  | cons t rest =>
    by_cases comma : t.isSymbol ","
    · refine .after (.of_eq (here'.matchSymbol_of_pos comma)) ?_
      have : rest.length < ts.length := Nat.lt_of_succ_lt shorter
      simp only [comma, ↓reduceIte, closed_bind]
      exact ((reads_someArguments here'.tail).mono (by omega)).bind fun others pos' le here' =>
        here'.finish le
    · refine .after (.of_eq (here'.matchSymbol_of_neg comma)) ?_
      simp only [comma, Bool.false_eq_true, ↓reduceIte, pure_bind]
      by_cases closes : t.isSymbol ")"
      · simp only [closes, ↓reduceIte]
        exact .after (.of_eq (here'.outcome_expectSymbol closes)) (here'.tail.finish (by omega))
      · simp only [closes, Bool.false_eq_true, ↓reduceIte]
        have missing := here'.outcome_expectSymbol_of_neg closes
        exact .fault (Yields.bind_error (.of_eq missing)) le here'.le_last
termination_by (ts.length, Operator.loosest + 2)

end

/-- The placing of the cursor is read as by the parser. -/
lemma reads_spawn (here : Ahead tokens eof last pos (t :: ts)) (places : t.isSpawn) :
    Reads tokens eof last pos (spawn tokens) pos (Parser.spawn eof t ts) := by
  unfold spawn Parser.spawn
  apply here.peek
  simp only [List.headD_cons, places, ↓reduceIte]
  apply here.advance
  refine (here.tail.symbol (by omega) "(").bind fun opened pos' le here' => ?_
  refine ((reads_level _ here').mono le).bind fun x pos' le here' => ?_
  refine (here'.symbol le ",").bind fun comma pos' le here' => ?_
  refine ((reads_level _ here').mono le).bind fun y pos' le here' => ?_
  exact (here'.symbol le ")").bind fun close pos' le here' => here'.finish le

/-- A text that does not begin by placing the cursor is refused at its first token. -/
lemma yields_spawn_of_neg (here : Ahead tokens eof last pos ts) (other : ¬ (ts.headD eof).isSpawn) :
    Yields (spawn tokens) pos (.error (.fault
      ((Fault.missingSpawn (ts.headD eof)).diagnose (ts.headD eof).position)), pos) := by
  unfold spawn
  refine (Yields.of_eq here.outcome_peek).bind_ok ?_
  simp only [other, Bool.false_eq_true, ↓reduceIte]
  exact .of_eq rfl

/-- Jumps are read as by the parser. -/
lemma reads_jump (here : Ahead tokens eof last pos (t :: ts)) :
    Reads tokens eof last pos (jump tokens) pos (Parser.jump eof t ts) := by
  unfold jump Parser.jump
  apply here.advance
  refine (here.tail.symbol (by omega) "[").bind fun opened pos' le here' => ?_
  obtain ⟨_, rest, shorter⟩ := opened
  apply here'.peek
  cases rest with
  | nil =>
    simp only [List.headD_nil, here'.kind_eof, reduceCtorEq, ↓reduceIte]
    exact here'.unexpected le .labelName
  | cons name rest =>
    by_cases names : name.kind = .identifier
    · simp only [Parser.labelName, List.headD_cons, names, ↓reduceIte]
      apply here'.advance
      refine (here'.tail.symbol (by omega) "]").bind fun closed pos' le here' => ?_
      refine (here'.symbol le "(").bind fun bracket pos' le here' => ?_
      refine ((reads_level _ here').mono le).bind fun condition pos' le here' => ?_
      exact (here'.symbol le ")").bind fun close pos' le here' => here'.finish le
    · simp only [Parser.labelName, List.headD_cons, names, ↓reduceIte]
      exact here'.unexpected le .labelName

/-- What begins with a name is read as by the parser: an assignment if an arrow comes next, and else
a label. -/
lemma reads_named (here : Ahead tokens eof last pos (t :: ts)) :
    Reads tokens eof last pos (fun depth => do
      let next ← peekNext tokens
      if next.any Token.isArrow then assignment tokens depth
      else
        let name ← advance tokens
        return .label name.lexeme t.position) pos (Parser.named eof t ts) := by
  refine .after (.of_eq here.outcome_peekNext) ?_
  cases ts with
  | nil =>
    have other : ¬ eof.isArrow := by simp [Token.isArrow, Token.isSymbol, here.kind_eof]
    simp only [List.headD_nil, Option.any_some, other, Bool.false_eq_true, ↓reduceIte]
    exact here.advance (here.tail.finish (by omega))
  | cons arrow more =>
    by_cases assigns : arrow.isArrow
    · simp only [List.headD_cons, Option.any_some, assigns, ↓reduceIte, Parser.named, assignment]
      apply here.advance
      apply here.tail.advance
      exact ((reads_level _ here.tail.tail).mono (by omega)).bind fun value pos' le here' =>
        here'.finish le
    · simp only [List.headD_cons, Option.any_some, assigns, Bool.false_eq_true, ↓reduceIte,
        Parser.named]
      exact here.advance (here.tail.finish (by omega))

/-- Statements are read as by the parser. -/
lemma reads_statement (here : Ahead tokens eof last pos (t :: ts)) :
    Reads tokens eof last pos (statement tokens) pos (Parser.statement eof t ts) := by
  unfold statement Parser.statement
  apply here.peek
  simp only [List.headD_cons]
  cases kind : t.kind with
  | function => exact (reads_call here).bind fun called pos' le here' => here'.finish le
  | goTo =>
    have whole : jump tokens = fun depth => jump tokens depth >>= pure := by simp only [bind_pure]
    rw [whole]
    exact (reads_jump here).bind fun jump pos' le here' => here'.finish le
  | identifier => exact reads_named here
  | _ => exact here.throw (Nat.le_refl _) _

/-- The line breaks ahead are skipped as by the parser. -/
lemma follows_skipNewLines (here : Ahead tokens eof last pos ts) :
    Follows (fun _ => ()) id tokens eof last pos (skipNewLines tokens) pos
      (.ok (ts.dropWhile Parser.isNewLine)) := by
  induction here with
  | done found ends =>
    have here : Ahead tokens eof last last [] := .done found ends
    apply Follows.of_succ
    simp only [skipNewLines]
    apply here.peek
    simp only [List.headD_nil, here.not_isNewLine, Bool.false_eq_true, ↓reduceIte]
    exact .ok (.of_eq rfl) (Nat.le_refl _) here
  | @next pos t ts found more rest ih =>
    have here : Ahead tokens eof last pos (t :: ts) := .next found more rest
    apply Follows.of_succ
    simp only [skipNewLines]
    apply here.peek
    by_cases newLine : Parser.isNewLine t
    · simp only [List.headD_cons, newLine, ↓reduceIte, List.dropWhile_cons_of_pos]
      exact here.advance (ih.mono (by omega))
    · simp only [List.headD_cons, newLine, Bool.false_eq_true, ↓reduceIte, not_false_eq_true,
        List.dropWhile_cons_of_neg]
      exact .ok (.of_eq rfl) (Nat.le_refl _) here

/-- The end of a statement is read as by the parser. -/
lemma follows_endStatement (here : Ahead tokens eof last pos ts) (le : base ≤ pos) :
    Follows (fun _ => ()) Subtype.val tokens eof last base (fun _ => endStatement tokens) pos
      (Parser.endStatement ts) := by
  unfold endStatement
  apply here.peek
  cases here with
  | done found ends =>
    have here : Ahead tokens eof last last [] := .done found ends
    simp only [List.headD_nil, here.not_isNewLine, ends, Bool.false_eq_true, ↓reduceIte]
    exact .ok (.of_eq rfl) le here
  | @next _ t ts found more rest =>
    have here : Ahead tokens eof last pos (t :: ts) := .next found more rest
    by_cases newLine : Parser.isNewLine t
    · simp only [List.headD_cons, newLine, ↓reduceIte, Parser.endStatement]
      exact here.advance (.ok (.of_eq rfl) (by omega) rest)
    · simp only [List.headD_cons, newLine, more, Bool.false_eq_true, ↓reduceIte,
        Parser.endStatement]
      exact here.throw le _

/-- The statements up to the end of the text are read as by the parser. -/
lemma follows_statements {ts : List Token} {pos : Nat} (here : Ahead tokens eof last pos ts) :
    Follows id (fun _ => []) tokens eof last pos (statements tokens) pos
      (Parser.statements eof ts) := by
  apply Follows.of_succ
  simp only [statements]
  rw [Parser.statements.eq_def]
  cases follows_skipNewLines here with
  | ok skips le here' =>
    refine .after skips ?_
    rw [id] at here'
    split
    · next nothing =>
      rw [nothing] at here'
      apply here'.peek
      have ends : isEof eof := by simp [isEof, here'.kind_eof]
      simp only [List.headD_nil, ends, ↓reduceIte]
      exact .ok (.of_eq rfl) le here'
    · next t rest found =>
      rw [found] at here'
      apply here'.peek
      simp only [List.headD_cons, here'.not_isEof, Bool.false_eq_true, ↓reduceIte]
      refine ((reads_statement here').mono le).bind fun first pos' le here' => ?_
      refine (follows_endStatement here' le).bind fun after pos' le here' => ?_
      have := first.shorter
      have := after.property
      have : (t :: rest).length ≤ ts.length := found ▸ (List.dropWhile_sublist _).length_le
      exact ((follows_statements here').mono le).bind fun others pos' le here' =>
        .ok (.of_eq rfl) le here'
termination_by ts.length

/-- Whole programs are read as by the parser. -/
lemma follows_program (here : Ahead tokens eof last pos ts) :
    Follows id (fun _ => []) tokens eof last pos (program tokens) pos
      (Parser.program eof ts) := by
  unfold program
  rw [Parser.program.eq_def]
  cases follows_skipNewLines here with
  | ok skips le here' =>
    refine .after skips ?_
    rw [id] at here'
    split
    · next nothing =>
      rw [nothing] at here'
      have other : ¬ eof.isSpawn := by simp [Token.isSpawn, here'.kind_eof]
      exact .fault (yields_spawn_of_neg here' other).bind_error le here'.le_last
    · next t rest found =>
      rw [found] at here'
      by_cases places : t.isSpawn
      · simp only [places, ↓reduceIte]
        refine ((reads_spawn here' places).mono le).bind fun first pos' le here' => ?_
        refine (follows_endStatement here' le).bind fun after pos' le here' => ?_
        exact ((follows_statements here').mono le).bind fun others pos' le here' =>
          .ok (.of_eq rfl) le here'
      · simp only [places, Bool.false_eq_true, ↓reduceIte]
        exact .fault (yields_spawn_of_neg here' places).bind_error le here'.le_last

end Easel.Positional
