import Easel.Proofs.ParserSound

/-!
# What is in the grammar is read

Every phrase of the grammar is read, if what follows it cannot go on with it. Together with the
converse this says that programs are read from exactly the words of the grammar, and that each word
has one tree (`Program.ofTokens_exact`).

The parser reads a chain of operators in a loop, while the grammar nests it to the left, so a left
operand is never read to its end on its own. The statements about expressions therefore say what
the parser has in hand where it goes on with the chain (`Parser.goOn`).
-/

namespace Easel

namespace Parser

open Grammar

variable (eof : Token)

/-- The tokens do not go on with an operator that is tighter than the level. -/
def Stops (n : Nat) (ts : List Token) : Prop :=
  ∀ t, ts.head? = some t → ∀ m < n, operator? m t = none

/-- Goes on with an expression of the level. -/
def goOn (eof : Token) {ts : List Token} :
    Nat → Phrase Expr ts → Except Diagnostic (Phrase Expr ts)
  | 0, ph => .ok ph
  | n + 1, ph => chain eof n ph

/-- Where no operator is tight enough, an expression ends. -/
lemma goOn_of_stops {n : Nat} {ts : List Token} {ph : Phrase Expr ts}
    (stops : Stops (n + 1) ph.rest) : goOn eof n ph = .ok ph := by
  cases n with
  | zero => rfl
  | succ n =>
    rw [goOn, chain]
    split
    · rfl
    · rename_i t more follows
      rw [stops t (by rw [follows]; rfl) (n + 1) (by omega)]

/-- An operator of the level above is taken with the operand on its right. -/
lemma chain_operator {n : Nat} {ts more : List Token} (left : Phrase Expr ts) {t : Token}
    {op : Operator} {right : Phrase Expr more} (follows : left.rest = t :: more)
    (found : operator? (n + 1) t = some op) (read : level eof n more = .ok right) :
    ∃ shorter, chain eof n left =
      chain eof n ⟨.binary left.value op right.value left.value.position, right.rest, shorter⟩ := by
  have before := left.shorter
  have after := right.shorter
  rw [follows, List.length_cons] at before
  refine ⟨by omega, ?_⟩
  rw [chain]
  split
  · rename_i none
    rw [follows] at none
    cases none
  · rename_i t' more' follows'
    rw [follows] at follows'
    cases follows'
    rw [found]
    simp only [read]
    rfl

/-- A symbol that stands there is read. -/
lemma symbol_complete (rest : List Token) {lexeme : String} {t : Token}
    (sym : t.isSymbol lexeme) :
    ∃ shorter, symbol eof lexeme (t :: rest) = .ok ⟨(), rest, shorter⟩ :=
  ⟨by simp, by rw [symbol, if_pos sym]⟩

/-- A symbol is not an operator, so that an expression ends before it. -/
lemma stops_symbol {lexeme : String} {n : Nat} {t : Token} {rest : List Token}
    (sym : t.isSymbol lexeme) : Stops n (t :: rest) := by
  rintro _ ⟨⟩ m -
  have kind : t.kind = .symbol := by simpa using (Bool.and_eq_true_iff.mp sym).1
  rw [operator?, kind]
  rfl

/-- An expression ends before a line break. -/
lemma stops_newLine {n : Nat} {rest : List Token}
    (ends : ∀ t, rest.head? = some t → t.kind = .newLine) : Stops n rest := by
  intro t first m _
  rw [operator?, ends t first]
  rfl

/-- An operator is not tighter than its own level. -/
lemma stops_operator {n : Nat} {t : Token} {op : Operator} {rest : List Token}
    (found : operator? n t = some op) : Stops n (t :: rest) := by
  rintro _ ⟨⟩ m less
  cases other : operator? m t with
  | none => rfl
  | some op' =>
    obtain ⟨_, lexeme, level⟩ := operator?_eq_some.mp found
    obtain ⟨_, lexeme', level'⟩ := operator?_eq_some.mp other
    rw [mem_operators] at level level'
    have same : some op = some op' := by
      rw [← op.ofSymbol?_symbol, ← op'.ofSymbol?_symbol, ← lexeme, ← lexeme']
    cases same
    omega

/-- A closing bracket is no comma. -/
lemma not_comma {t : Token} (close : t.isSymbol ")") : t.isSymbol "," = false := by
  obtain ⟨-, lexeme⟩ : t.kind = .symbol ∧ t.lexeme = ")" := by simpa [Token.isSymbol] using close
  simp [Token.isSymbol, lexeme]

/-- Where no operand begins, no expression does. -/
lemma level_error {n : Nat} {ts : List Token} {d : Diagnostic} (h : factor eof ts = .error d) :
    level eof n ts = .error d := by
  induction n with
  | zero => rwa [level]
  | succ n ih =>
    rw [level, ih]
    rfl

/-- A variable is an expression, if no operator follows it. -/
lemma expr_var {eof t : Token} {rest : List Token} (kind : t.kind = .identifier)
    (stops : ∀ n, Stops n rest) :
    expr eof (t :: rest) = .ok ⟨.var t.lexeme t.position, rest, Nat.lt_succ_self _⟩ := by
  have operand (n : Nat) :
      level eof n (t :: rest) = .ok ⟨.var t.lexeme t.position, rest, Nat.lt_succ_self _⟩ := by
    induction n with
    | zero => simp only [level, factor, kind]
    | succ n ih =>
      rw [level, ih]
      exact goOn_of_stops (n := n + 1) eof (stops _)
  exact operand Operator.loosest

/-- Arguments that are read one by one do not begin with a closing bracket. -/
lemma arguments_of_some {ts : List Token} {ph : Phrase (List Expr) ts}
    (h : someArguments eof ts = .ok ph) : arguments eof ts = .ok ph := by
  cases ts with
  | nil => rwa [arguments]
  | cons t rest =>
    rw [arguments, if_neg, h]
    intro close
    obtain ⟨kind, lexeme⟩ : t.kind = .symbol ∧ t.lexeme = ")" := by
      simpa [Token.isSymbol] using close
    have none : factor eof (t :: rest) = .error (unexpected .expression t) := by
      simp [factor, kind, lexeme]
    rw [someArguments, level_error eof none] at h
    cases h

mutual

/-- An expression of a level is read at that level, up to the point where the parser goes on with
it. What follows may be an operator of the level itself, which is how a left operand is read. -/
lemma level_complete {n w e} :
    Level n w e → ∀ {ts : List Token} (rest : List Token), ts = w ++ rest → Stops n rest →
      ∃ v shorter, level eof n ts = goOn eof n ⟨v, rest, shorter⟩ ∧ v.tree = e
  | @Level.number t x kind found, ts, rest, eq, _ => by
    subst eq
    refine ⟨.number x t.position, by simp, ?_, by rw [Expr.tree]⟩
    simp only [level, List.singleton_append, factor, kind, found, goOn]
  | @Level.text t s kind quoted, ts, rest, eq, _ => by
    subst eq
    refine ⟨.text s t.position, by simp, ?_, by rw [Expr.tree]⟩
    simp only [level, List.singleton_append, factor, kind, quoted_iff.mp quoted, goOn]
  | @Level.var t kind, ts, rest, eq, _ => by
    subst eq
    refine ⟨.var t.lexeme t.position, by simp, ?_, by rw [Expr.tree]⟩
    simp only [level, List.singleton_append, factor, kind, goOn]
  | .call drv, ts, rest, eq, _ => by
    obtain ⟨t, us, es, shorter, rfl, kind, read, values⟩ := call_complete drv eq
    refine ⟨.call _ es t.position, by simp; omega, ?_, by rw [Expr.tree, values]⟩
    simp only [level, factor, kind, read, goOn]
    rfl
  | @Level.group l r w e sym drv sym', ts, rest, eq, _ => by
    obtain ⟨v, shorter, read, tree⟩ :=
      level_complete drv (r :: rest) rfl (stops_symbol sym')
    rw [goOn_of_stops eof (stops_symbol sym')] at read
    obtain ⟨shorter', closed⟩ := symbol_complete eof rest sym'
    obtain ⟨kind, lexeme⟩ : l.kind = .symbol ∧ l.lexeme = "(" := by simpa [Token.isSymbol] using sym
    have e : ts = l :: (w ++ r :: rest) := by rw [eq]; simp
    subst e
    refine ⟨v, by simp; omega, ?_, tree⟩
    simp only [level, factor, kind, lexeme, goOn, if_pos]
    rw [show Operator.loosest = top from rfl, read, ok_bind]
    simp only [closed, ok_bind]
  | @Level.minus t w e kind lexeme drv, ts, rest, eq, stops => by
    subst eq
    obtain ⟨v, shorter, read, tree⟩ := level_complete drv rest rfl stops
    rw [level, goOn] at read
    have longer : rest.length < (t :: w ++ rest).length := by
      rw [List.cons_append, List.length_cons]
      omega
    refine ⟨v.negate t.position, longer, ?_, by rw [Expr.tree_negate, tree]⟩
    simp only [level, List.cons_append, factor, kind, lexeme, read, goOn]
    rfl
  | @Level.lift n w e drv, ts, rest, eq, stops => by
    obtain ⟨v, shorter, read, tree⟩ := level_complete drv _ eq fun t first m less =>
      stops t first m (by omega)
    rw [goOn_of_stops eof stops] at read
    refine ⟨v, shorter, ?_, tree⟩
    rw [level, read]
    rfl
  | @Level.binary n ls l t op rs r drv kind lexeme mem drv', ts, rest, eq, stops => by
    have found := operator?_eq_some.mpr ⟨kind, lexeme, mem⟩
    -- the left operand is followed by an operator of its own level, so the chain is not over there
    obtain ⟨v, shorter, read, tree⟩ := level_complete drv (t :: (rs ++ rest))
      (eq.trans (List.append_assoc ..)) (stops_operator found)
    obtain ⟨v', shorter', read', tree'⟩ := level_complete drv' rest rfl fun t first m less =>
      stops t first m (by omega)
    rw [goOn_of_stops eof stops] at read'
    obtain ⟨shorter'', step⟩ := chain_operator eof ⟨v, _, shorter⟩ rfl found read'
    refine ⟨.binary v op v' v.position, shorter'', ?_, by rw [Expr.tree, tree, tree']⟩
    rw [read, goOn, step, goOn]
termination_by structural h => h

/-- Every call is read. -/
lemma call_complete {w i es} :
    Call w i es → ∀ {ts rest : List Token}, ts = w ++ rest →
      ∃ t us vs shorter, ts = t :: us ∧ t.kind = .function ∧
        call eof t us = .ok ⟨(i, vs), rest, shorter⟩ ∧ Expr.trees vs = es
  | @Call.empty t i l r kind name sym sym', ts, rest, eq => by
    obtain ⟨shorter, opened⟩ := symbol_complete eof (r :: rest) sym
    have longer : rest.length < (l :: r :: rest).length := by
      rw [List.length_cons, List.length_cons]
      omega
    refine ⟨t, l :: r :: rest, [], longer, eq, kind, ?_, by rw [Expr.trees]⟩
    rw [call, name, Instruction.ofName?_name]
    simp only [opened, ok_bind, arguments, if_pos sym']
  | @Call.apply t i l w es r kind name sym drv sym', ts, rest, eq => by
    obtain ⟨shorter, opened⟩ := symbol_complete eof (w ++ r :: rest) sym
    obtain ⟨vs, shorter', read, values⟩ := someArguments_complete drv rest rfl sym'
    refine ⟨t, l :: (w ++ r :: rest), vs, by simp; omega, by rw [eq]; simp, kind, ?_, values⟩
    rw [call, name, Instruction.ofName?_name]
    simp only [opened, ok_bind]
    rw [arguments_of_some eof read]
    rfl
termination_by structural h => h

/-- All arguments are read, with the bracket that closes them. -/
lemma someArguments_complete {w es} :
    Arguments w es → ∀ {ts : List Token} (rest : List Token) {r : Token},
      ts = w ++ r :: rest → r.isSymbol ")" →
      ∃ vs shorter, someArguments eof ts = .ok ⟨vs, rest, shorter⟩ ∧ Expr.trees vs = es
  | @Arguments.one w e drv, ts, rest, r, eq, sym => by
    obtain ⟨v, shorter, read, tree⟩ := level_complete drv _ eq (stops_symbol sym)
    rw [goOn_of_stops eof (stops_symbol sym)] at read
    refine ⟨[v], by simp at shorter; omega, ?_, by rw [Expr.trees, Expr.trees, tree]⟩
    rw [someArguments, show Operator.loosest = top from rfl, read, ok_bind]
    simp only [sym, not_comma sym]
    rfl
  | @Arguments.cons w e c us es drv sym drv', ts, rest, r, eq, sym' => by
    obtain ⟨v, shorter, read, tree⟩ := level_complete drv (c :: (us ++ r :: rest))
      (eq.trans (List.append_assoc ..)) (stops_symbol sym)
    rw [goOn_of_stops eof (stops_symbol sym)] at read
    obtain ⟨vs, shorter', read', values⟩ := someArguments_complete drv' rest rfl sym'
    refine ⟨v :: vs, by simp at shorter shorter'; omega, ?_, by rw [Expr.trees, tree, values]⟩
    rw [someArguments, show Operator.loosest = top from rfl, read, ok_bind]
    simp only [sym, read']
    rfl
termination_by structural h => h

end

/-- An expression of the grammar is read, if what follows it is not an operator. -/
lemma expr_complete {w ts : List Token} (rest : List Token) {e : Tree Float} (drv : Level top w e)
    (eq : ts = w ++ rest) (stops : ∀ n, Stops n rest) :
    ∃ v shorter, expr eof ts = .ok ⟨v, rest, shorter⟩ ∧ v.tree = e := by
  obtain ⟨v, shorter, read, tree⟩ := level_complete eof drv rest eq (stops _)
  rw [goOn_of_stops eof (stops _)] at read
  exact ⟨v, shorter, read, tree⟩

/-- Every placing of the cursor is read. -/
lemma spawn_complete {w ts : List Token} (rest : List Token) {l : Line Float} (drv : Spawn w l)
    (eq : ts = w ++ rest) :
    ∃ t us s shorter, ts = t :: us ∧ t.isSpawn ∧ spawn eof t us = .ok ⟨s, rest, shorter⟩ ∧
      s.line = l := by
  obtain @⟨t, l, xs, x, c, ys, y, r, first, sym₁, drv₁, sym₂, drv₂, sym₃⟩ := drv
  obtain ⟨_, read₁⟩ := symbol_complete eof (xs ++ c :: (ys ++ r :: rest)) sym₁
  obtain ⟨v₁, _, read₂, tree₁⟩ :=
    expr_complete eof (c :: (ys ++ r :: rest)) drv₁ rfl fun _ => stops_symbol sym₂
  obtain ⟨_, read₃⟩ := symbol_complete eof (ys ++ r :: rest) sym₂
  obtain ⟨v₂, _, read₄, tree₂⟩ :=
    expr_complete eof (r :: rest) drv₂ rfl fun _ => stops_symbol sym₃
  obtain ⟨_, read₅⟩ := symbol_complete eof rest sym₃
  refine ⟨t, l :: (xs ++ c :: (ys ++ r :: rest)), .spawn v₁ v₂ t.position, by simp; omega, ?_,
    first, ?_, by rw [Stmt.line, tree₁, tree₂]⟩
  · rw [eq]; simp
  · rw [spawn]
    simp only [read₁, read₂, read₃, read₄, read₅, ok_bind]

/-- What follows the word that opens a jump is read, whatever comes after it. -/
lemma jump_complete {t o name c l r : Token} {w : List Token} {e : Tree Float} (rest : List Token)
    (sym₁ : o.isSymbol "[") (kind : name.kind = .identifier) (sym₃ : c.isSymbol "]")
    (sym₄ : l.isSymbol "(") (drv : Level top w e) (sym₆ : r.isSymbol ")") :
    ∃ v shorter, jump eof t (o :: name :: c :: l :: (w ++ r :: rest)) =
      .ok ⟨.goTo name.lexeme v t.position, rest, shorter⟩ ∧ v.tree = e := by
  obtain ⟨_, read₁⟩ :=
    symbol_complete eof (name :: c :: l :: (w ++ r :: rest)) sym₁
  obtain ⟨_, read₃⟩ := symbol_complete eof (l :: (w ++ r :: rest)) sym₃
  obtain ⟨_, read₄⟩ := symbol_complete eof (w ++ r :: rest) sym₄
  obtain ⟨v, _, read₅, tree⟩ :=
    expr_complete eof (r :: rest) drv rfl fun _ => stops_symbol sym₆
  obtain ⟨_, read₆⟩ := symbol_complete eof rest sym₆
  refine ⟨v, by simp; omega, ?_, tree⟩
  simp only [jump, read₁, ok_bind, labelName, if_pos kind, read₃, read₄, read₅, read₆]

/-- A statement of the grammar is read, if the text or the line ends after it. -/
lemma statement_complete {w ts : List Token} (rest : List Token) {l : Line Float}
    (drv : Statement w l) (eq : ts = w ++ rest)
    (ends : ∀ t, rest.head? = some t → t.kind = .newLine) :
    ∃ t us s shorter, ts = t :: us ∧ t.kind ≠ .newLine ∧
      statement eof t us = .ok ⟨s, rest, shorter⟩ ∧ s.line = l := by
  cases drv with
  | @assign t a w e kind arrow drv =>
    obtain ⟨v, _, read, tree⟩ := expr_complete eof rest drv rfl fun _ => stops_newLine ends
    refine ⟨t, a :: (w ++ rest), .assign t.lexeme v t.position, by simp; omega, eq, by simp [kind],
      ?_, by rw [Stmt.line, tree]⟩
    simp only [statement, kind, named, if_pos arrow, read, ok_bind]
  | call drv =>
    obtain ⟨t, us, vs, shorter, rfl, kind, read, values⟩ := call_complete eof drv eq
    refine ⟨t, us, .call _ vs t.position, by simp; omega, rfl, by simp [kind], ?_,
      by rw [Stmt.line, values]⟩
    simp only [statement, kind, read, ok_bind]
  | @label t kind =>
    refine ⟨t, rest, .label t.lexeme t.position, by simp, eq, by simp [kind], ?_, rfl⟩
    simp only [statement, kind]
    cases rest with
    | nil => rfl
    | cons t' rest =>
      have arrow : t'.isArrow = false := by simp [Token.isArrow, Token.isSymbol, ends t' rfl]
      simp [named, arrow]
  | @goTo t o name c l w e r kind sym₁ kind₂ sym₃ sym₄ drv sym₆ =>
    obtain ⟨v, shorter, read, tree⟩ := jump_complete eof rest (t := t) sym₁ kind₂ sym₃ sym₄ drv sym₆
    refine ⟨t, o :: name :: c :: l :: (w ++ r :: rest), .goTo name.lexeme v t.position,
      by simp; omega, ?_, by simp [kind], ?_, by rw [Stmt.line, tree]⟩
    · rw [eq]; simp
    · simp only [statement, kind, read, ok_bind]

/-- A blank line in front of statements is passed over. -/
lemma statements_blank {t : Token} {ts : List Token} (newLine : t.kind = .newLine) :
    statements eof (t :: ts) = statements eof ts := by
  have same : (t :: ts).dropWhile isNewLine = ts.dropWhile isNewLine :=
    List.dropWhile_cons_of_pos (by simp [isNewLine, newLine])
  rw [statements, statements]
  dsimp only
  generalize (t :: ts).dropWhile isNewLine = us at same ⊢
  subst same
  rfl

/-- Statements that begin with one are read one after the other. -/
lemma statements_cons {t : Token} {ts : List Token} (other : t.kind ≠ .newLine) :
    statements eof (t :: ts) = (do
      let first ← statement eof t ts
      let after ← endStatement first.rest
      let others ← statements eof after.val
      .ok (first.value :: others)) := by
  have same : (t :: ts).dropWhile isNewLine = t :: ts :=
    List.dropWhile_cons_of_neg (by simp [isNewLine, other])
  rw [statements]
  split
  · rename_i none
    rw [same] at none
    cases none
  · rename_i t' ts' found
    rw [same] at found
    cases found
    rfl

/-- A statement can end with the text. -/
lemma endStatement_nil : ∃ le, endStatement [] = .ok ⟨[], le⟩ := ⟨by simp, rfl⟩

/-- A statement can end with a line break. -/
lemma endStatement_newLine {t : Token} (rest : List Token) (newLine : t.kind = .newLine) :
    ∃ le, endStatement (t :: rest) = .ok ⟨rest, le⟩ :=
  ⟨by simp, by simp [endStatement, isNewLine, newLine]⟩

/-- Nothing is skipped before the word that places the cursor. -/
lemma dropWhile_spawn {t : Token} {ts : List Token} (first : t.isSpawn) :
    (t :: ts).dropWhile isNewLine = t :: ts := by
  obtain ⟨kind, -⟩ : t.kind = .function ∧ t.lexeme = Token.spawnWord := by
    simpa [Token.isSpawn] using first
  exact List.dropWhile_cons_of_neg (by simp [isNewLine, kind])

/-- All statements are read. -/
lemma statements_complete {ts : List Token} {ls : List (Line Float)} (drv : Statements ts ls) :
    ∃ ss, statements eof ts = .ok ss ∧ ss.map Stmt.line = ls := by
  induction drv with
  | nil => exact ⟨[], statements_nil, rfl⟩
  | blank newLine _ ih =>
    obtain ⟨ss, read, lines⟩ := ih
    exact ⟨ss, by rw [statements_blank eof newLine, read], lines⟩
  | @last ts l drv =>
    obtain ⟨t, us, s, shorter, rfl, other, read, line⟩ :=
      statement_complete eof [] drv (List.append_nil ts).symm nofun
    obtain ⟨_, ended⟩ := endStatement_nil
    refine ⟨[s], ?_, by rw [List.map_singleton, line]⟩
    rw [statements_cons eof other]
    simp only [read, ok_bind, ended, statements_nil]
  | @cons ts l t us ls drv newLine drv' ih =>
    obtain ⟨ss, read', lines⟩ := ih
    obtain ⟨t', us', s, shorter, e, other, read, line⟩ :=
      statement_complete eof (t :: us) drv rfl fun _ first => by
        cases first; exact newLine
    obtain ⟨_, ended⟩ := endStatement_newLine us newLine
    refine ⟨s :: ss, ?_, by rw [List.map_cons, line, lines]⟩
    rw [e, statements_cons eof other]
    simp only [read, ok_bind, ended, read']

/-- Every program is read. -/
lemma program_complete {ts : List Token} {ls : List (Line Float)} (drv : Word ts ls) :
    ∃ p, program eof ts = .ok p ∧ p.lines = ls := by
  induction drv with
  | @blank t ts ls newLine _ ih =>
    obtain ⟨p, read, lines⟩ := ih
    refine ⟨p, ?_, lines⟩
    rw [program, List.dropWhile_cons_of_pos (by simp [isNewLine, newLine])]
    exact read
  | @last ts l drv =>
    obtain ⟨t, us, s, shorter, rfl, first, read, line⟩ :=
      spawn_complete eof [] drv (List.append_nil ts).symm
    obtain ⟨_, ended⟩ := endStatement_nil
    refine ⟨⟨#[s]⟩, ?_, by simp [Program.lines, line]⟩
    rw [program, dropWhile_spawn first]
    simp only [if_pos first, read, ok_bind, ended, statements_nil]
  | @cons ts l t us ls drv newLine drv' =>
    obtain ⟨ss, read', lines⟩ := statements_complete eof drv'
    obtain ⟨t', us', s, shorter, e, first, read, line⟩ :=
      spawn_complete eof (t :: us) drv rfl
    obtain ⟨_, ended⟩ := endStatement_newLine us newLine
    refine ⟨⟨(s :: ss).toArray⟩, ?_, by simp [Program.lines, line, lines]⟩
    rw [program, e, dropWhile_spawn first]
    simp only [if_pos first, read, ok_bind, ended, read']

end Parser

namespace Grammar

/-- The tokens before the first that marks the end of the text, or all if none does. -/
def front (ts : List Token) : List Token := ts.takeWhile fun t => t.kind ≠ .eof

/-- Tokens without a mark of the end stand before it. -/
lemma front_of_forall {ts : List Token} (before : ∀ t ∈ ts, t.kind ≠ .eof) : front ts = ts :=
  List.takeWhile_eq_self_iff.mpr fun t mem => decide_eq_true (before t mem)

/-- What stands after a mark of the end does not count. -/
lemma front_append {before : List Token} {eof : Token} (after : List Token)
    (marks : eof.kind = .eof) : front (before ++ eof :: after) = front before := by
  induction before with
  | nil => exact List.takeWhile_cons_of_neg (by simp [marks])
  | cons t before ih =>
    by_cases ends : t.kind = .eof
    · rw [front, front, List.cons_append, List.takeWhile_cons_of_neg (by simp [ends]),
        List.takeWhile_cons_of_neg (by simp [ends])]
    · rw [front, front, List.cons_append, List.takeWhile_cons_of_pos (by simp [ends]),
        List.takeWhile_cons_of_pos (by simp [ends])]
      exact congrArg (t :: ·) ih

end Grammar

namespace Program

open Grammar

/-- A program is read from the tokens before the first mark of the end. -/
lemma ofTokens_eq (ts : List Token) : ofTokens ts = Parser.program (closing ts) (front ts) := by
  have same : (fun t => !isEof t) = fun t : Token => decide (t.kind ≠ .eof) := by
    funext t
    by_cases marks : t.kind = .eof <;> simp [isEof, marks]
  rw [ofTokens, front, same]

/-- The word of a program that was read, and the program of a word. -/
lemma word_iff {ts : List Token} {ls : List (Line Float)} :
    Word (front ts) ls ↔ ∃ p, ofTokens ts = .ok p ∧ p.lines = ls := by
  rw [ofTokens_eq]
  constructor
  · exact Parser.program_complete _
  · rintro ⟨p, read, rfl⟩
    exact Parser.program_sound read

/-- Nothing after a token that marks the end of the text counts. -/
lemma ofTokens_append {before : List Token} {eof : Token} (after : List Token)
    (marks : eof.kind = .eof) :
    ofTokens (before ++ eof :: after) = ofTokens (before ++ [eof]) := by
  have ends : isEof eof = true := by simp [isEof, marks]
  have found (after : List Token) :
      (before ++ eof :: after).find? isEof = (before.find? isEof).or (some eof) := by
    rw [List.find?_append, List.find?_cons_of_pos ends]
  have closed : closing (before ++ eof :: after) = closing (before ++ [eof]) := by
    rw [closing, closing, found, found]
    cases before.find? isEof <;> rfl
  rw [ofTokens_eq, ofTokens_eq, closed, front_append after marks, front_append [] marks]

/-- Reading accepts exactly the words of the grammar, and gives the only tree that a word has. What
stands after the end of the text does not count. -/
theorem ofTokens_exact (ts : List Token) :
    ((∃ p, ofTokens ts = .ok p) ↔ ∃ ls, Word (front ts) ls) ∧
    (∀ p, ofTokens ts = .ok p → ∀ ls, Word (front ts) ls ↔ ls = p.lines) ∧
    ∀ before eof after other, ts = before ++ eof :: after → eof.kind = .eof →
      ofTokens ts = ofTokens (before ++ eof :: other) := by
  refine ⟨?_, ?_, ?_⟩
  · simp only [word_iff]
    exact ⟨fun ⟨p, read⟩ => ⟨p.lines, p, read, rfl⟩, fun ⟨_, p, read, _⟩ => ⟨p, read⟩⟩
  · intro p read ls
    rw [word_iff]
    constructor
    · rintro ⟨q, read', rfl⟩
      rw [read] at read'
      cases read'
      rfl
    · rintro rfl
      exact ⟨p, read, rfl⟩
  · rintro before eof after other rfl marks
    rw [ofTokens_append after marks, ofTokens_append other marks]

/-- The text `Spawn(x, -y)` is read, whatever stands after its end, with the minus as a subtraction
from zero. -/
theorem ofTokens_exact_spawn :
    let ts : List Token :=
      [⟨.function, "Spawn", ⟨1, 1⟩⟩, ⟨.symbol, "(", ⟨1, 6⟩⟩, ⟨.identifier, "x", ⟨1, 7⟩⟩,
        ⟨.symbol, ",", ⟨1, 8⟩⟩, ⟨.operator, "-", ⟨1, 10⟩⟩, ⟨.identifier, "y", ⟨1, 11⟩⟩,
        ⟨.symbol, ")", ⟨1, 12⟩⟩, ⟨.eof, "$", ⟨1, 13⟩⟩, ⟨.number, "7", ⟨1, 13⟩⟩]
    ∃ p, ofTokens ts = .ok p ∧
      p.lines = [.spawn (.var "x") (.binary (.number 0.0) .sub (.var "y"))] := by
  intro ts
  have lift {w e} (drv : Level 0 w e) : Level top w e :=
    .lift (.lift (.lift (.lift (.lift (.lift drv)))))
  have word : Word (front ts) [.spawn (.var "x") (.binary (.number 0.0) .sub (.var "y"))] := by
    apply Word.last
    have x : Level top [⟨.identifier, "x", ⟨1, 7⟩⟩] (.var "x") := lift (.var rfl)
    have y : Level top [⟨.operator, "-", ⟨1, 10⟩⟩, ⟨.identifier, "y", ⟨1, 11⟩⟩]
        (.binary (.number 0.0) .sub (.var "y")) := lift (.minus rfl rfl (.var rfl))
    exact .intro (by decide) (by decide) x (by decide) y (by decide)
  obtain ⟨p, read⟩ := (ofTokens_exact ts).1.mpr ⟨_, word⟩
  exact ⟨p, read, (((ofTokens_exact ts).2.1 p read _).mp word).symm⟩

end Program

end Easel
