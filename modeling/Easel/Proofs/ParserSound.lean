import Easel.Proofs.Grammar
import Easel.Proofs.Outcome

/-!
# What is read is in the grammar

Every phrase that the parser reads is a phrase of the grammar, and what it leaves is what stands
after that phrase. The main statement is `Parser.program_sound`. The proofs follow the recursion of
the parser and end for the reason for which it ends.
-/

namespace Easel

/-- What begins with a word and goes on with another begins with both. -/
lemma append_trans {α : Type} {ts u us v vs : List α} (e : ts = u ++ us) (e' : us = v ++ vs) :
    ts = u ++ v ++ vs := by
  rw [e, e', List.append_assoc]

/-- A symbol is that of the operator found under it, and of no other. -/
lemma Operator.ofSymbol?_eq_some {s : String} {op : Operator} :
    Operator.ofSymbol? s = some op ↔ s = op.symbol := by
  constructor
  · intro found
    exact (by simpa using List.find?_some found : op.symbol = s).symm
  · rintro rfl
    exact op.ofSymbol?_symbol

namespace Parser

open Grammar

variable {eof : Token}

/-- What is read as a symbol is one. -/
lemma symbol_sound {lexeme : String} {ts : List Token} {ph : Phrase Unit ts}
    (h : symbol eof lexeme ts = .ok ph) :
    ∃ t, ts = t :: ph.rest ∧ t.isSymbol lexeme := by
  cases ts with
  | nil => cases h
  | cons t rest =>
    rw [symbol] at h
    split at h
    · rename_i sym
      cases h
      exact ⟨t, rfl, sym⟩
    · cases h

/-- An operator that was found is that of the token, and has the level asked for. -/
lemma operator?_eq_some {n : Nat} {t : Token} {op : Operator} :
    operator? n t = some op ↔ t.kind = .operator ∧ t.lexeme = op.symbol ∧ op ∈ operators n := by
  rw [operator?, mem_operators]
  split
  · rename_i kind
    rw [Option.filter_eq_some_iff, Operator.ofSymbol?_eq_some]
    simp [kind]
  · rename_i kind
    exact ⟨nofun, fun ⟨kind', _⟩ => absurd kind' kind⟩

/-- The arguments of a call are none, or they are read one by one. -/
lemma arguments_cases {ts : List Token} {ph : Phrase (List Expr) ts}
    (h : arguments eof ts = .ok ph) :
    (∃ r, ts = r :: ph.rest ∧ r.isSymbol ")" ∧ ph.value = []) ∨
      someArguments eof ts = .ok ph := by
  cases ts with
  | nil =>
    rw [arguments] at h
    exact .inr h
  | cons t rest =>
    rw [arguments] at h
    split at h
    · rename_i close
      cases h
      exact .inl ⟨t, rfl, close, rfl⟩
    · exact .inr h

mutual

/-- What is read as an operand is one. -/
lemma factor_sound {ts : List Token} {ph : Phrase Expr ts} (h : factor eof ts = .ok ph) :
    ∃ w, ts = w ++ ph.rest ∧ Level 0 w ph.value.tree := by
  cases ts with
  | nil => rw [factor] at h; cases h
  | cons t rest =>
    rw [factor] at h
    -- the first token decides which of the forms of an operand is read
    cases kind : t.kind with
    | number =>
      rw [kind] at h
      simp only at h
      split at h
      · rename_i n found
        cases h
        exact ⟨[t], rfl, by rw [Expr.tree]; exact .number kind found⟩
      · cases h
    | string =>
      rw [kind] at h
      cases h
      exact ⟨[t], rfl, by rw [Expr.tree]; exact .text kind (quoted_iff.mpr rfl)⟩
    | identifier =>
      rw [kind] at h
      cases h
      exact ⟨[t], rfl, by rw [Expr.tree]; exact .var kind⟩
    | function =>
      rw [kind] at h
      obtain ⟨called, read, h⟩ := bind_eq_ok.mp h
      cases h
      obtain ⟨w, e, drv⟩ := call_sound kind read
      exact ⟨t :: w, append_trans (u := [t]) rfl e, by rw [Expr.tree]; exact .call drv⟩
    | symbol =>
      rw [kind] at h
      simp only at h
      split at h
      · rename_i opens
        obtain ⟨inner, read, h⟩ := bind_eq_ok.mp h
        obtain ⟨close, closed, h⟩ := bind_eq_ok.mp h
        cases h
        obtain ⟨w, e, drv⟩ := level_sound read
        obtain ⟨r, e', sym⟩ := symbol_sound closed
        refine ⟨t :: w ++ [r], ?_, .group ?_ drv sym⟩
        · exact append_trans (append_trans (u := [t]) rfl e) e'
        · simp [Token.isSymbol, kind, opens]
      · cases h
    | operator =>
      rw [kind] at h
      simp only at h
      split at h
      · rename_i minus
        obtain ⟨operand, read, h⟩ := bind_eq_ok.mp h
        cases h
        obtain ⟨w, e, drv⟩ := factor_sound read
        refine ⟨t :: w, append_trans (u := [t]) rfl e, ?_⟩
        rw [Expr.tree_negate]
        exact .minus kind minus drv
      · cases h
    | goTo => rw [kind] at h; cases h
    | newLine => rw [kind] at h; cases h
    | eof => rw [kind] at h; cases h
termination_by (ts.length, 0)

/-- An expression that was read at a level is one of that level. -/
lemma level_sound {n : Nat} {ts : List Token} {ph : Phrase Expr ts}
    (h : level eof n ts = .ok ph) : ∃ w, ts = w ++ ph.rest ∧ Level n w ph.value.tree := by
  cases n with
  | zero => rw [level] at h; exact factor_sound h
  | succ n =>
    rw [level] at h
    obtain ⟨left, read, h⟩ := bind_eq_ok.mp h
    obtain ⟨w, e, drv⟩ := level_sound read
    have := left.shorter
    exact chain_sound h e (.lift drv)
termination_by (ts.length, n + 1)

/-- An expression of a level that was gone on with is still one of that level. -/
lemma chain_sound {n : Nat} {ts w : List Token} {left ph : Phrase Expr ts}
    (h : chain eof n left = .ok ph) (e : ts = w ++ left.rest)
    (drv : Level (n + 1) w left.value.tree) :
    ∃ w, ts = w ++ ph.rest ∧ Level (n + 1) w ph.value.tree := by
  rw [chain] at h
  split at h
  · cases h
    exact ⟨w, e, drv⟩
  · rename_i t more follows
    split at h
    · cases h
      exact ⟨w, e, drv⟩
    · rename_i op found
      obtain ⟨right, read, h⟩ := bind_eq_ok.mp h
      obtain ⟨kind, lexeme, mem⟩ := operator?_eq_some.mp found
      have : more.length < left.rest.length := by simp [follows]
      have := right.shorter
      obtain ⟨u, e', drv'⟩ := level_sound read
      -- what was read so far is the left operand of the operator just found
      refine chain_sound (w := w ++ t :: u) h ?_ ?_
      · exact append_trans e (follows.trans (congrArg (t :: ·) e'))
      · simp only [Expr.tree]
        exact .binary drv kind lexeme mem drv'
termination_by (left.rest.length, 0)

/-- What is read as a call is one. -/
lemma call_sound {t : Token} {ts : List Token} {ph : Phrase (Instruction × List Expr) ts}
    (kind : t.kind = .function) (h : call eof t ts = .ok ph) :
    ∃ w, ts = w ++ ph.rest ∧ Call (t :: w) ph.value.1 (Expr.trees ph.value.2) := by
  rw [call] at h
  split at h
  · cases h
  · rename_i instruction found
    obtain ⟨opened, read, h⟩ := bind_eq_ok.mp h
    obtain ⟨args, read', h⟩ := bind_eq_ok.mp h
    cases h
    have := opened.shorter
    obtain ⟨l, e, sym⟩ := symbol_sound read
    have name := Instruction.name_of_ofName? found
    rcases arguments_cases read' with ⟨r, e', sym', none⟩ | read'
    · refine ⟨[l, r], append_trans (u := [l]) (v := [r]) e e', ?_⟩
      simp only [none, Expr.trees]
      exact .empty kind name.symm sym sym'
    · obtain ⟨w, r, e', sym', drv⟩ := someArguments_sound read'
      refine ⟨l :: w ++ [r], ?_, .apply kind name.symm sym drv sym'⟩
      exact append_trans (u := [l]) e (append_trans e' (v := [r]) rfl)
termination_by (ts.length, 0)

/-- What is read as arguments is some, with the bracket that closes them. -/
lemma someArguments_sound {ts : List Token} {ph : Phrase (List Expr) ts}
    (h : someArguments eof ts = .ok ph) :
    ∃ w r, ts = w ++ r :: ph.rest ∧ r.isSymbol ")" ∧ Arguments w (Expr.trees ph.value) := by
  rw [someArguments] at h
  obtain ⟨first, read, h⟩ := bind_eq_ok.mp h
  obtain ⟨w, e, drv⟩ := level_sound read
  have := first.shorter
  simp only at h
  split at h
  · cases h
  · rename_i t rest follows
    have : rest.length < first.rest.length := by simp [follows]
    split at h
    · rename_i comma
      obtain ⟨others, read', h⟩ := bind_eq_ok.mp h
      cases h
      obtain ⟨u, r, e', sym, drv'⟩ := someArguments_sound read'
      refine ⟨w ++ t :: u, r, ?_, sym, ?_⟩
      · exact append_trans e (follows.trans (congrArg (t :: ·) e'))
      · simp only [Expr.trees]; exact .cons drv comma drv'
    · split at h
      · rename_i close
        cases h
        refine ⟨w, t, ?_, close, ?_⟩
        · exact e.trans (congrArg (w ++ ·) follows)
        · simp only [Expr.trees]; exact .one drv
      · cases h
termination_by (ts.length, Operator.loosest + 2)

end

/-- What is read as an expression is one. -/
lemma expr_sound {ts : List Token} {ph : Phrase Expr ts} (h : expr eof ts = .ok ph) :
    ∃ w, ts = w ++ ph.rest ∧ Level top w ph.value.tree :=
  level_sound h

/-- What is read as the placing of the cursor is one. -/
lemma spawn_sound {t : Token} {ts : List Token} {ph : Phrase Stmt ts} (first : t.isSpawn)
    (h : spawn eof t ts = .ok ph) : ∃ w, ts = w ++ ph.rest ∧ Spawn (t :: w) ph.value.line := by
  rw [spawn] at h
  obtain ⟨opened, read₁, h⟩ := bind_eq_ok.mp h
  obtain ⟨x, read₂, h⟩ := bind_eq_ok.mp h
  obtain ⟨comma, read₃, h⟩ := bind_eq_ok.mp h
  obtain ⟨y, read₄, h⟩ := bind_eq_ok.mp h
  obtain ⟨close, read₅, h⟩ := bind_eq_ok.mp h
  cases h
  obtain ⟨l, e₁, sym₁⟩ := symbol_sound read₁
  obtain ⟨xs, e₂, drv₂⟩ := expr_sound read₂
  obtain ⟨c, e₃, sym₃⟩ := symbol_sound read₃
  obtain ⟨ys, e₄, drv₄⟩ := expr_sound read₄
  obtain ⟨r, e₅, sym₅⟩ := symbol_sound read₅
  refine ⟨l :: xs ++ c :: ys ++ [r], ?_, .intro first sym₁ drv₂ sym₃ drv₄ sym₅⟩
  have e₃₄ : x.rest = c :: ys ++ y.rest := append_trans (u := [c]) e₃ e₄
  exact append_trans (append_trans (append_trans (u := [l]) e₁ e₂) e₃₄) e₅

/-- What is read as the name of a label is an identifier. -/
lemma labelName_sound {ts : List Token} {ph : Phrase String ts} (h : labelName eof ts = .ok ph) :
    ∃ t, ts = t :: ph.rest ∧ t.kind = .identifier ∧ ph.value = t.lexeme := by
  cases ts with
  | nil => cases h
  | cons t rest =>
    rw [labelName] at h
    split at h
    · rename_i kind
      cases h
      exact ⟨t, rfl, kind, rfl⟩
    · cases h

/-- What is read as a jump is one. -/
lemma jump_sound {t : Token} {ts : List Token} {ph : Phrase Stmt ts} (kind : t.kind = .goTo)
    (h : jump eof t ts = .ok ph) :
    ∃ w, ts = w ++ ph.rest ∧ Statement (t :: w) ph.value.line := by
  rw [jump] at h
  obtain ⟨opened, read₁, h⟩ := bind_eq_ok.mp h
  obtain ⟨label, read₂, h⟩ := bind_eq_ok.mp h
  obtain ⟨closed, read₃, h⟩ := bind_eq_ok.mp h
  obtain ⟨bracket, read₄, h⟩ := bind_eq_ok.mp h
  obtain ⟨condition, read₅, h⟩ := bind_eq_ok.mp h
  obtain ⟨close, read₆, h⟩ := bind_eq_ok.mp h
  cases h
  obtain ⟨o, e₁, sym₁⟩ := symbol_sound read₁
  obtain ⟨name, e₂, kind₂, value⟩ := labelName_sound read₂
  obtain ⟨c, e₃, sym₃⟩ := symbol_sound read₃
  obtain ⟨l, e₄, sym₄⟩ := symbol_sound read₄
  obtain ⟨w, e₅, drv⟩ := expr_sound read₅
  obtain ⟨r, e₆, sym₆⟩ := symbol_sound read₆
  refine ⟨o :: name :: c :: l :: w ++ [r], ?_, ?_⟩
  · have e₁₂ : ts = [o, name] ++ label.rest := append_trans (u := [o]) (v := [name]) e₁ e₂
    have e₃₄ : label.rest = [c, l] ++ bracket.rest := append_trans (u := [c]) (v := [l]) e₃ e₄
    exact append_trans (append_trans (append_trans e₁₂ e₃₄) e₅) e₆
  · rw [Stmt.line, value]
    exact .goTo kind sym₁ kind₂ sym₃ sym₄ drv sym₆

/-- A statement that was read is one of the grammar. -/
lemma statement_sound {t : Token} {ts : List Token} {ph : Phrase Stmt (t :: ts)}
    (h : statement eof t ts = .ok ph) :
    ∃ w, t :: ts = w ++ ph.rest ∧ Statement w ph.value.line := by
  rw [statement] at h
  split at h
  · rename_i kind
    obtain ⟨called, read, h⟩ := bind_eq_ok.mp h
    cases h
    obtain ⟨w, e, drv⟩ := call_sound kind read
    exact ⟨t :: w, append_trans (u := [t]) rfl e, .call drv⟩
  · rename_i kind
    obtain ⟨jumped, read, h⟩ := bind_eq_ok.mp h
    cases h
    obtain ⟨w, e, drv⟩ := jump_sound kind read
    exact ⟨t :: w, append_trans (u := [t]) rfl e, drv⟩
  · rename_i kind
    cases ts with
    | nil =>
      cases h
      exact ⟨[t], rfl, .label kind⟩
    | cons arrow more =>
      rw [named] at h
      split at h
      · rename_i isArrow
        obtain ⟨value, read, h⟩ := bind_eq_ok.mp h
        cases h
        obtain ⟨w, e, drv⟩ := expr_sound read
        exact ⟨t :: arrow :: w, append_trans (u := [t, arrow]) rfl e, .assign kind isArrow drv⟩
      · cases h
        exact ⟨[t], rfl, .label kind⟩
  · cases h

/-- At the end there are no more statements. -/
lemma statements_nil : statements eof [] = .ok [] := by
  rw [statements]
  rfl

/-- A statement ends with the text, and then none follow it, or with a line break. -/
lemma endStatement_sound {ts : List Token}
    {after : { rest : List Token // rest.length ≤ ts.length }} {ss : List Stmt}
    (ended : endStatement ts = .ok after) (h : statements eof after.val = .ok ss) :
    ts = [] ∧ ss = [] ∨ ∃ t, ts = t :: after.val ∧ t.kind = .newLine := by
  cases ts with
  | nil =>
    cases ended
    rw [statements_nil] at h
    cases h
    exact .inl ⟨rfl, rfl⟩
  | cons t rest =>
    rw [endStatement] at ended
    split at ended
    · rename_i newLine
      cases ended
      exact .inr ⟨t, rfl, by simpa [isNewLine] using newLine⟩
    · cases ended

/-- What does not change with a blank line in front of it does not change with all of them. -/
lemma of_dropWhile_newLine {P : List Token → Prop} {ts : List Token}
    (blank : ∀ {t ts}, t.kind = .newLine → P ts → P (t :: ts)) (h : P (ts.dropWhile isNewLine)) :
    P ts := by
  induction ts with
  | nil => exact h
  | cons t ts ih =>
    by_cases newLine : isNewLine t
    · rw [List.dropWhile_cons_of_pos newLine] at h
      exact blank (by simpa [isNewLine] using newLine) (ih h)
    · rwa [List.dropWhile_cons_of_neg newLine] at h

/-- Statements that were read are those of the grammar. -/
lemma statements_sound {ts : List Token} {ss : List Stmt} (h : statements eof ts = .ok ss) :
    Statements ts (ss.map Stmt.line) := by
  apply of_dropWhile_newLine (P := (Statements · _)) .blank
  rw [statements] at h
  split at h
  · rename_i none
    cases h
    rw [none]
    exact .nil
  · rename_i t rest found
    obtain ⟨first, read, h⟩ := bind_eq_ok.mp h
    obtain ⟨after, ended, h⟩ := bind_eq_ok.mp h
    obtain ⟨others, read', h⟩ := bind_eq_ok.mp h
    cases h
    have := first.shorter
    have := after.property
    have : (t :: rest).length ≤ ts.length := found ▸ (List.dropWhile_sublist isNewLine).length_le
    obtain ⟨w, e, drv⟩ := statement_sound read
    have drv' := statements_sound read'
    rcases endStatement_sound ended read' with ⟨e', rfl⟩ | ⟨t', e', newLine⟩
    · rw [found.trans (e.trans (congrArg (w ++ ·) e')), List.append_nil]
      exact .last drv
    · rw [found.trans (e.trans (congrArg (w ++ ·) e'))]
      exact .cons drv newLine drv'
termination_by ts.length

/-- A program that was read is one of the grammar. -/
lemma program_sound {ts : List Token} {p : Program} (h : program eof ts = .ok p) :
    Word ts p.lines := by
  apply of_dropWhile_newLine (P := (Word · _)) .blank
  rw [program] at h
  split at h
  · cases h
  · rename_i t rest found
    split at h
    · rename_i isSpawn
      obtain ⟨first, read, h⟩ := bind_eq_ok.mp h
      obtain ⟨after, ended, h⟩ := bind_eq_ok.mp h
      obtain ⟨others, read', h⟩ := bind_eq_ok.mp h
      cases h
      obtain ⟨w, e, drv⟩ := spawn_sound isSpawn read
      rcases endStatement_sound ended read' with ⟨e', rfl⟩ | ⟨t', e', newLine⟩
      · rw [found.trans (congrArg (t :: ·) (e.trans (congrArg (w ++ ·) e'))), List.append_nil]
        exact .last drv
      · rw [found.trans (congrArg (t :: ·) (e.trans (congrArg (w ++ ·) e')))]
        exact .cons drv newLine (statements_sound read')
    · cases h

end Parser

end Easel
