import Easel.Proofs.PositionalAgreement
import Mathlib.Data.List.TakeWhile

/-!
# Reading makes progress

Reading by position ends, whatever the tokens are and wherever it begins. A phrase takes at least
one token, the position never goes back, and it does not pass the next end of the text (`Ends`), so
that there is a token wherever one is asked for. All of this comes from the agreement with the
parser, whose phrases leave fewer tokens than they were given. The main statement is `reading_ends`.

Reading relies on the end of the text after the last token. The position does not move off the last
token, so that passing line breaks goes on forever if this is one (`skipNewLines_forever`).
-/

namespace Easel.Positional

open Program (isEof closing)

/-- The position of the first end of the text at or after a position. -/
def textEnd (tokens : List Token) (pos : Nat) : Nat := pos + (tokens.drop pos).findIdx isEof

/-- Reading from a position has an outcome, which is a result or a fault of the tokens. The position
is not before that one then, nor past the end of the text, and with a result it is further on by
`step` tokens or more. -/
inductive Ends {α : Type} (tokens : List Token) (step : Nat) (X : Nat → Reader α) (pos : Nat) :
    Prop where
  | ok {a pos'} :
    Yields X pos (.ok a, pos') →
    pos + step ≤ pos' →
    pos' ≤ textEnd tokens pos →
    Ends tokens step X pos
  | fault {d pos'} :
    Yields X pos (.error (.fault d), pos') →
    pos ≤ pos' →
    pos' ≤ textEnd tokens pos →
    Ends tokens step X pos

variable {tokens : List Token} {eof t : Token} {ts us : List Token} {last pos : Nat}

namespace Ahead

/-- The end of the text stands at its position. -/
lemma getElem?_last (here : Ahead tokens eof last pos ts) : tokens[last]? = some eof := by
  induction here with
  | done found _ => exact found
  | next _ _ _ ih => exact ih

/-- The tokens ahead are those before the first end of the text. -/
lemma of_drop {more : List Token} (split : tokens.drop pos = ts ++ eof :: more)
    (before : ∀ t ∈ ts, ¬ isEof t) (ends : isEof eof) :
    Ahead tokens eof (pos + ts.length) pos ts := by
  induction ts generalizing pos with
  | nil =>
    have found : tokens[pos]? = some eof := by
      rw [← List.head?_drop, split]
      rfl
    exact .done found ends
  | cons t ts ih =>
    have found : tokens[pos]? = some t := by
      rw [← List.head?_drop, split]
      rfl
    have rest : tokens.drop (pos + 1) = ts ++ eof :: more := by
      rw [← List.tail_drop, split]
      rfl
    have ahead := ih rest fun t mem => before t (List.mem_cons_of_mem _ mem)
    rw [List.length_cons, ← Nat.add_assoc, Nat.add_right_comm]
    exact .next found (before t List.mem_cons_self) ahead

/-- The end of the text is where the tokens ahead end. -/
lemma textEnd_eq (here : Ahead tokens eof last pos ts) : textEnd tokens pos = last := by
  induction here with
  | done found ends =>
    obtain ⟨inside, rfl⟩ := List.getElem?_eq_some_iff.mp found
    rw [textEnd, List.drop_eq_getElem_cons inside, List.findIdx_cons, ends]
    rfl
  | next found other _ ih =>
    obtain ⟨inside, rfl⟩ := List.getElem?_eq_some_iff.mp found
    rw [← ih, textEnd, textEnd, List.drop_eq_getElem_cons inside, List.findIdx_cons,
      Bool.eq_false_iff.mpr other, cond_false]
    omega

end Ahead

section Ends

variable {ρ α : Type} {value : ρ → α} {rest : ρ → List Token} {X : Nat → Reader α}

/-- A reading that follows the parser comes to an end, not past the end of the text. -/
lemma Follows.ends {r : Except Diagnostic ρ} (here : Ahead tokens eof last pos ts)
    (follows : Follows value rest tokens eof last pos X pos r) : Ends tokens 0 X pos := by
  have bound := here.textEnd_eq
  cases follows with
  | ok yields le here' =>
    have := here'.le_last
    exact .ok yields le (by omega)
  | fault yields le le_last => exact .fault yields le (by omega)

/-- Where fewer tokens are left, the position is further on. -/
lemma Reads.ends {r : Except Diagnostic (Phrase α us)} (here : Ahead tokens eof last pos ts)
    (le : us.length ≤ ts.length) (reads : Reads tokens eof last pos X pos r) :
    Ends tokens 1 X pos := by
  have bound := here.textEnd_eq
  have length := here.length_eq
  cases reads with
  | @ok phrase _ yields _ here' =>
    have := phrase.shorter
    have := here'.length_eq
    exact .ok yields (by omega) (by omega)
  | fault yields le le_last => exact .fault yields le (by omega)

end Ends

/-- Reading a statement comes to an end, past its first token. -/
lemma ends_statement (here : Ahead tokens eof last pos ts) :
    Ends tokens 1 (statement tokens) pos := by
  cases ts with
  | nil =>
    have yields : Yields (statement tokens) pos
        (.error (.fault ((Fault.notAStatement eof).diagnose eof.position)), pos) := by
      unfold statement
      refine (Yields.of_eq here.outcome_peek).bind_ok ?_
      simp only [List.headD_nil, here.kind_eof]
      exact .of_eq rfl
    exact .fault yields (Nat.le_refl _) (Nat.le_add_right _ _)
  | cons t ts => exact (reads_statement here).ends here (Nat.le_refl _)

/-- The parser reads no further arguments without the bracket after them, but by position they leave
some of the tokens ahead, too. -/
lemma exists_follows_moreArguments {ts : List Token} {pos : Nat}
    (here : Ahead tokens eof last pos ts) :
    ∃ r : Except Diagnostic (List Expr × List Token),
      Follows Prod.fst Prod.snd tokens eof last pos (moreArguments tokens) pos r := by
  by_cases comma : (ts.headD eof).isSymbol ","
  · cases ts with
    | nil => exact absurd comma (here.not_isSymbol _)
    | cons t ts =>
      have others : ∃ r : Except Diagnostic (List Expr × List Token),
          Follows Prod.fst Prod.snd tokens eof last pos (someArguments tokens) (pos + 1) r := by
        unfold someArguments
        have next := reads_level Operator.loosest here.tail
        generalize Parser.level eof Operator.loosest ts = r at next
        cases next with
        | @ok phrase _ yields le here' =>
          have : phrase.rest.length < (t :: ts).length := Nat.lt_succ_of_lt phrase.shorter
          obtain ⟨r, follows⟩ := exists_follows_moreArguments here'
          exact ⟨r >>= fun more => .ok (phrase.value :: more.1, more.2), .after yields <|
            (follows.mono (by omega)).bind fun _ _ le here' => .ok (.of_eq rfl) le here'⟩
        | fault yields le bound => exact ⟨.error _, .fault yields.bind_error (by omega) bound⟩
      obtain ⟨r, follows⟩ := others
      refine ⟨r, .of_succ ?_⟩
      simp only [moreArguments_succ]
      exact .after (.of_eq (here.matchSymbol_of_pos comma)) follows
  · refine ⟨.ok ([], ts), .of_succ ?_⟩
    simp only [moreArguments]
    refine .after (.of_eq (here.matchSymbol_of_neg comma)) ?_
    simp only [Bool.false_eq_true, ↓reduceIte]
    exact .ok (.of_eq rfl) (Nat.le_refl _) here
termination_by ts.length

/-- The tokens end with an end of the text. -/
lemma ended_eq_concat (ts : List Token) : ∃ before eof, ended ts = before ++ [eof] ∧ isEof eof := by
  rw [ended]
  split
  · next t found =>
    obtain ⟨before, same⟩ := List.getLast?_eq_some_iff.mp found
    split
    · next ends => exact ⟨before, t, same, ends⟩
    · exact ⟨ts, _, rfl, rfl⟩
  · exact ⟨[], _, rfl, rfl⟩

/-- Tokens are closed by adding a mark of the end, or nothing. -/
lemma ended_eq_append (ts : List Token) : ∃ more, ended ts = ts ++ more := by
  rw [ended]
  split
  · split
    · exact ⟨[], (List.append_nil _).symm⟩
    · exact ⟨_, rfl⟩
  · next nothing =>
    rw [List.getLast?_eq_none_iff.mp nothing]
    exact ⟨_, rfl⟩

/-- Where no token marks the end of the text, one that does is put after the last. -/
lemma ended_eq_closing (others : ∀ t ∈ ts, ¬ isEof t) :
    ended ts = ts ++ [closing ts] ∧ isEof (closing ts) := by
  rw [ended, closing, List.find?_eq_none.mpr others, Option.getD_none]
  cases found : ts.getLast? with
  | some t =>
    have other := others t (List.mem_of_getLast? found)
    simp only [other, Bool.false_eq_true, ↓reduceIte]
    exact ⟨trivial, rfl⟩
  | none =>
    rw [List.getLast?_eq_none_iff.mp found]
    exact ⟨rfl, rfl⟩

/-- Each position has tokens ahead of it, and an end of the text. -/
lemma exists_ahead {ts : List Token} (inside : pos < (ended ts).length) :
    ∃ eof last us, Ahead (ended ts) eof last pos us := by
  obtain ⟨before, mark, same, ends⟩ := ended_eq_concat ts
  have mem : mark ∈ (ended ts).drop pos := by
    rw [same, List.length_append, List.length_singleton] at inside
    rw [same, List.drop_append_of_le_length (by omega)]
    exact List.mem_append_right _ List.mem_cons_self
  obtain ⟨eof, found⟩ : ∃ eof, ((ended ts).drop pos).find? isEof = some eof :=
    Option.isSome_iff_exists.mp (List.find?_isSome.mpr ⟨mark, mem, ends⟩)
  obtain ⟨marks, us, more, split, others⟩ := List.find?_eq_some_iff_append.mp found
  exact ⟨eof, _, us, .of_drop split (by simpa using others) marks⟩

/-- The parser reads the tokens ahead of the beginning. -/
lemma ahead_closing (ts : List Token) :
    ∃ last, Ahead (ended ts) (closing ts) last 0 (ts.takeWhile fun t => !isEof t) := by
  cases found : ts.find? isEof with
  | some eof =>
    obtain ⟨marks, before, after, same, others⟩ := List.find?_eq_some_iff_append.mp found
    obtain ⟨more, whole⟩ := ended_eq_append ts
    have front : ts.takeWhile (fun t => !isEof t) = before := by
      rw [same, List.takeWhile_append_of_pos others, List.takeWhile_cons_of_neg (by simp [marks]),
        List.append_nil]
    have split : (ended ts).drop 0 = before ++ eof :: (after ++ more) := by
      rw [whole, same, List.drop_zero, List.append_assoc, List.cons_append]
    rw [closing, found, Option.getD_some, front]
    exact ⟨_, .of_drop split (by simpa using others) marks⟩
  | none =>
    have others := List.find?_eq_none.mp found
    have front : ts.takeWhile (fun t => !isEof t) = ts :=
      List.takeWhile_eq_self_iff.mpr (by simpa using others)
    obtain ⟨split, marks⟩ := ended_eq_closing others
    rw [front]
    exact ⟨_, .of_drop split others marks⟩

/-- Reading a whole program has the outcome of the parser. -/
lemma yields_program (ts : List Token) :
    ∃ last ≤ textEnd (ended ts) 0,
      Yields (program (ended ts)) 0 ((Program.ofTokens ts).mapError .fault, last) := by
  obtain ⟨last, here⟩ := ahead_closing ts
  have follows := follows_program here
  rw [← Program.ofTokens] at follows
  rw [here.textEnd_eq]
  generalize Program.ofTokens ts = r at follows
  cases follows with
  | ok yields _ here' => exact ⟨_, here'.le_last, yields⟩
  | fault yields _ bound => exact ⟨_, bound, yields⟩

/-- Reading ends, whatever the tokens are and wherever in them it begins, with a result or a fault
of the tokens. A statement, a call, an expression at any level and an operand take at least one
token, where a call is read only before the end of the text. The position neither goes back nor
passes the next end of the text. So all loops end: those over operators, arguments, line breaks and
statements. A whole program is read from the first token as the parser reads it. -/
theorem reading_ends (ts : List Token) {pos : Nat} (inside : pos < (ended ts).length) :
    let tokens := ended ts
    tokens[textEnd tokens pos]?.any isEof ∧
    Ends tokens 1 (statement tokens) pos ∧
    (pos < textEnd tokens pos → Ends tokens 1 (call tokens) pos) ∧
    (∀ n, Ends tokens 1 (level tokens n) pos) ∧
    Ends tokens 1 (factor tokens) pos ∧
    (∀ n left, Ends tokens 0 (chain tokens n left) pos) ∧
    Ends tokens 0 (moreArguments tokens) pos ∧
    Ends tokens 0 (skipNewLines tokens) pos ∧
    Ends tokens 0 (statements tokens) pos ∧
    ∃ last ≤ textEnd tokens 0,
      Yields (program tokens) 0 ((Program.ofTokens ts).mapError .fault, last) := by
  intro tokens
  obtain ⟨eof, last, us, here⟩ := exists_ahead inside
  refine ⟨?_, ends_statement here, ?_, fun n => ?_, ?_, fun n left => ?_, ?_, ?_, ?_, ?_⟩
  · rw [here.textEnd_eq, here.getElem?_last]
    simp [isEof, here.kind_eof]
  · intro before
    cases us with
    | nil =>
      have bound : textEnd tokens pos = last := here.textEnd_eq
      have length : pos + 0 = last := here.length_eq
      omega
    | cons t us => exact (reads_call here).ends here (Nat.le_succ _)
  · exact (reads_level n here).ends here (Nat.le_refl _)
  · exact (reads_factor here).ends here (Nat.le_refl _)
  · -- an operand that stands for the one on the left
    let operand : Phrase Expr (eof :: us) := ⟨left, us, Nat.lt_succ_self _⟩
    exact Follows.ends here (reads_chain n operand here)
  · obtain ⟨r, follows⟩ := exists_follows_moreArguments here
    exact follows.ends here
  · exact (follows_skipNewLines here).ends here
  · exact (follows_statements here).ends here
  · exact yields_program ts

/-- A call without its last tokens, after an end of the text that is not the last. -/
theorem reading_ends_unfinished_call :
    let ts : List Token :=
      [.eof .start, ⟨.function, "Color", ⟨2, 1⟩⟩, ⟨.symbol, "(", ⟨2, 6⟩⟩, ⟨.operator, "-", ⟨2, 7⟩⟩]
    1 < (ended ts).length ∧ textEnd (ended ts) 1 = 4 ∧ Ends (ended ts) 1 (call (ended ts)) 1 ∧
      Ends (ended ts) 1 (statement (ended ts)) 1 := by
  intro ts
  have inside : 1 < (ended ts).length := by decide
  have bound : textEnd (ended ts) 1 = 4 := by decide
  obtain ⟨-, reads, calls, -⟩ := reading_ends ts inside
  exact ⟨inside, bound, calls (by rw [bound]; decide), reads⟩

/-- Where the last token is a line break, passing line breaks has no outcome. -/
theorem skipNewLines_forever (found : tokens.getLast? = some t) (newLine : Parser.isNewLine t)
    (depth : Nat) : (skipNewLines tokens depth).outcome (tokens.length - 1) = none := by
  rw [List.getLast?_eq_getElem?] at found
  have peeks : (peek tokens).outcome (tokens.length - 1) = some (.ok t, tokens.length - 1) := by
    apply outcome_peek_of_eq
    rw [Nat.min_self, found]
  have stays : (advance tokens).outcome (tokens.length - 1) = some (.ok t, tokens.length - 1) := by
    rw [advance, Reader.outcome_bind_ok peeks]
    change some (Except.ok t, if tokens.length - 1 < tokens.length - 1 then _ else _) = _
    rw [if_neg (Nat.lt_irrefl _)]
  induction depth with
  | zero => rfl
  | succ depth ih =>
    rw [skipNewLines, Reader.outcome_bind_ok peeks, if_pos newLine, Reader.outcome_bind_ok stays]
    exact ih

end Easel.Positional
