import Easel.Proofs.ParserComplete
import Easel.Proofs.Scanning

/-!
# Changing places

Tokens carry places, and what is read from them carries these places on. The parser never looks at
them: if all places are changed in the tokens, they are changed in the same way in the program that
is read or in the diagnostic, and nothing else is (`Parser.program_relocate`). The proofs follow the
recursion of the parser, with one lemma about work in two parts (`relocated_bind`).

Hence tokens that differ in their places only are read as programs that differ in their places only,
or fail with one code and one message (`Program.ofTokens_alike`).
-/

namespace Easel

section Relocate

variable (f : Position → Position)

/-- The token at another place. -/
def Token.relocate (t : Token) : Token := { t with position := f t.position }

/-- A token at another place has the same kind. -/
@[simp]
lemma Token.kind_relocate (t : Token) : (t.relocate f).kind = t.kind := rfl

/-- A token at another place has the same lexeme. -/
@[simp]
lemma Token.lexeme_relocate (t : Token) : (t.relocate f).lexeme = t.lexeme := rfl

/-- A token at another place is the same symbol. -/
@[simp]
lemma Token.isSymbol_relocate (t : Token) (lexeme : String) :
    (t.relocate f).isSymbol lexeme = t.isSymbol lexeme := rfl

/-- The diagnostic at another place. -/
def Diagnostic.relocate (d : Diagnostic) : Diagnostic := { d with position := f d.position }

namespace Expr

mutual

/-- The expression, with all of its places changed. -/
def relocate : Expr → Expr
  | number n p => number n (f p)
  | text s p => text s (f p)
  | var name p => var name (f p)
  | binary left op right p => binary left.relocate op right.relocate (f p)
  | call instruction arguments p => call instruction (relocateAll arguments) (f p)

/-- The expressions, with all of their places changed. -/
def relocateAll : List Expr → List Expr
  | [] => []
  | e :: rest => e.relocate :: relocateAll rest

end

mutual

/-- An expression without its places does not change with them. -/
lemma tree_relocate : ∀ e : Expr, (e.relocate f).tree = e.tree
  | number n p => by rw [relocate, tree, tree]
  | text s p => by rw [relocate, tree, tree]
  | var name p => by rw [relocate, tree, tree]
  | binary left op right p => by
    rw [relocate, tree, tree, tree_relocate left, tree_relocate right]
  | call instruction arguments p => by rw [relocate, tree, tree, trees_relocateAll arguments]

/-- Expressions without their places do not change with them. -/
lemma trees_relocateAll : ∀ es : List Expr, trees (relocateAll f es) = trees es
  | [] => by rw [relocateAll]
  | e :: rest => by rw [relocateAll, trees, trees, tree_relocate e, trees_relocateAll rest]

end

/-- The place of an expression is changed. -/
lemma position_relocate (e : Expr) : (e.relocate f).position = f e.position := by
  cases e <;> rw [relocate] <;> rfl

/-- Places can be changed before or after a sign is put before an expression. -/
lemma negate_relocate (e : Expr) (p : Position) :
    (e.negate p).relocate f = (e.relocate f).negate (f p) := by
  cases e <;> simp only [negate, relocate]

end Expr

/-- The statement, with all of its places changed. -/
def Stmt.relocate : Stmt → Stmt
  | spawn x y p => spawn (x.relocate f) (y.relocate f) (f p)
  | assign name value p => assign name (value.relocate f) (f p)
  | label name p => label name (f p)
  | goTo name condition p => goTo name (condition.relocate f) (f p)
  | call instruction arguments p => call instruction (Expr.relocateAll f arguments) (f p)

/-- A statement without its places does not change with them. -/
lemma Stmt.line_relocate (s : Stmt) : (s.relocate f).line = s.line := by
  cases s <;> simp only [relocate, line, Expr.tree_relocate, Expr.trees_relocateAll]

/-- The program, with all of its places changed. -/
def Program.relocate (p : Program) : Program := ⟨p.statements.map (Stmt.relocate f)⟩

/-- A program without its places does not change with them. -/
lemma Program.lines_relocate (p : Program) : (p.relocate f).lines = p.lines := by
  rw [lines, lines, relocate, Array.toList_map, List.map_map]
  exact List.map_congr_left fun s _ => s.line_relocate f

/-- An outcome, with its value or the place of its diagnostic changed. -/
def relocated {α β : Type} (g : α → β) : Except Diagnostic α → Except Diagnostic β
  | .ok a => .ok (g a)
  | .error d => .error (d.relocate f)

/-- Work in two parts is changed as its parts are. -/
lemma relocated_bind {α α' β β' : Type} {g : α → α'} {k : β → β'} {x : Except Diagnostic α}
    {x' : Except Diagnostic α'} {h : α → Except Diagnostic β} {h' : α' → Except Diagnostic β'}
    (first : x' = relocated f g x) (rest : ∀ a, h' (g a) = relocated f k (h a)) :
    x' >>= h' = relocated f k (x >>= h) := by
  rw [first]
  cases x with
  | error d => rfl
  | ok a => exact rest a

/-- A choice is changed as both of its sides are. -/
lemma relocated_ite {α β : Type} {g : α → β} {c : Prop} [Decidable c] {x y : Except Diagnostic α}
    {x' y' : Except Diagnostic β} (yes : x' = relocated f g x) (no : y' = relocated f g y) :
    (if c then x' else y') = relocated f g (if c then x else y) := by
  split
  · exact yes
  · exact no

/-- The phrase read from the tokens at other places. -/
def Phrase.relocate {α β : Type} (g : α → β) {ts : List Token} (ph : Phrase α ts) :
    Phrase β (ts.map (Token.relocate f)) :=
  ⟨g ph.value, ph.rest.map (Token.relocate f), by simpa using ph.shorter⟩

end Relocate

namespace Parser

variable (f : Position → Position) (eof : Token)

/-- What is said of an unexpected token does not depend on its place. -/
lemma relocated_unexpected {α β : Type} {g : α → β} (expected : Expectation) (t : Token) :
    .error (unexpected expected (t.relocate f)) =
      relocated f g (.error (unexpected expected t)) := by
  obtain ⟨kind, lexeme, position⟩ := t
  cases kind <;> rfl

/-- Reading a symbol does not look at places. -/
lemma symbol_relocate (lexeme : String) (ts : List Token) :
    symbol (eof.relocate f) lexeme (ts.map (Token.relocate f)) =
      relocated f (Phrase.relocate f id) (symbol eof lexeme ts) := by
  cases ts with
  | nil => exact relocated_unexpected f (.symbol lexeme) eof
  | cons t rest =>
    exact relocated_ite f rfl (relocated_unexpected f (.symbol lexeme) t)

mutual

/-- Operands are read alike at all places. -/
lemma factor_relocate (ts : List Token) :
    factor (eof.relocate f) (ts.map (Token.relocate f)) =
      relocated f (Phrase.relocate f (Expr.relocate f)) (factor eof ts) := by
  -- the type of a phrase depends on the tokens, so their list cannot be rewritten and is unfolded
  cases ts with
  | nil =>
    rw [factor.eq_def eof]
    change factor _ [] = _
    rw [factor]
    exact relocated_unexpected f .expression eof
  | cons t rest =>
    rw [factor.eq_def eof]
    change factor _ (t.relocate f :: rest.map (Token.relocate f)) = _
    rw [factor]
    cases kind : t.kind with
    | number =>
      simp only [Token.kind_relocate, Token.lexeme_relocate, kind]
      cases Number.ofText? t.lexeme with
      | none => rfl
      | some n =>
        simp only [relocated, Phrase.relocate, Expr.relocate]
        rfl
    | string =>
      simp only [Token.kind_relocate, kind, relocated, Phrase.relocate, Expr.relocate]
      rfl
    | identifier =>
      simp only [Token.kind_relocate, kind, relocated, Phrase.relocate, Expr.relocate]
      rfl
    | function =>
      simp only [Token.kind_relocate, kind]
      refine relocated_bind f (call_relocate t rest) fun called => ?_
      simp only [relocated, Phrase.relocate, Expr.relocate]
      rfl
    | symbol =>
      simp only [Token.kind_relocate, Token.lexeme_relocate, kind]
      refine relocated_ite f ?_ (relocated_unexpected f .expression t)
      refine relocated_bind f (level_relocate Operator.loosest rest) fun inner => ?_
      exact relocated_bind f (symbol_relocate f eof ")" inner.rest) fun close => rfl
    | operator =>
      simp only [Token.kind_relocate, Token.lexeme_relocate, kind]
      refine relocated_ite f ?_ (relocated_unexpected f .expression t)
      refine relocated_bind f (factor_relocate rest) fun operand => ?_
      simp only [relocated, Phrase.relocate, Expr.negate_relocate]
      rfl
    | goTo | newLine | eof =>
      simp only [Token.kind_relocate, kind]
      exact relocated_unexpected f .expression t
termination_by (ts.length, 0)

/-- Reading an expression of a level does not look at places. -/
lemma level_relocate (n : Nat) (ts : List Token) :
    level (eof.relocate f) n (ts.map (Token.relocate f)) =
      relocated f (Phrase.relocate f (Expr.relocate f)) (level eof n ts) := by
  cases n with
  | zero =>
    rw [level, level]
    exact factor_relocate ts
  | succ n =>
    rw [level, level]
    refine relocated_bind f (level_relocate n ts) fun left => ?_
    have := left.shorter
    exact chain_relocate n left
termination_by (ts.length, n + 1)

/-- Reading a chain of operators does not look at places. -/
lemma chain_relocate (n : Nat) {ts : List Token} (left : Phrase Expr ts) :
    chain (eof.relocate f) n (left.relocate f (Expr.relocate f)) =
      relocated f (Phrase.relocate f (Expr.relocate f)) (chain eof n left) := by
  obtain ⟨value, rest, shorter⟩ := left
  cases rest with
  | nil =>
    rw [chain.eq_def, chain.eq_def]
    rfl
  | cons t more =>
    rw [chain.eq_def, chain.eq_def eof]
    change (match operator? (n + 1) t with | none => _ | some _ => _) =
      relocated f _ (match operator? (n + 1) t with | none => _ | some _ => _)
    cases operator? (n + 1) t with
    | none => rfl
    | some op =>
      refine relocated_bind f (level_relocate n more) fun right => ?_
      have less := Nat.lt_succ_of_lt right.shorter
      refine Eq.trans ?_ (chain_relocate n ⟨.binary value op right.value value.position, right.rest,
        Nat.lt_trans less shorter⟩)
      simp only [Phrase.relocate, Expr.relocate, Expr.position_relocate]
termination_by (left.rest.length, 0)

/-- Reading a call does not look at places. -/
lemma call_relocate (t : Token) (ts : List Token) :
    call (eof.relocate f) (t.relocate f) (ts.map (Token.relocate f)) =
      relocated f (Phrase.relocate f fun (i, es) => (i, Expr.relocateAll f es))
        (call eof t ts) := by
  rw [call, call, Token.lexeme_relocate]
  cases Instruction.ofName? t.lexeme with
  | none => rfl
  | some instruction =>
    refine relocated_bind f (symbol_relocate f eof "(" ts) fun opened => ?_
    have := opened.shorter
    exact relocated_bind f (arguments_relocate opened.rest) fun arguments => rfl
termination_by (ts.length, 0)

/-- Reading arguments does not look at places. -/
lemma arguments_relocate (ts : List Token) :
    arguments (eof.relocate f) (ts.map (Token.relocate f)) =
      relocated f (Phrase.relocate f (Expr.relocateAll f)) (arguments eof ts) := by
  cases ts with
  | nil =>
    rw [arguments.eq_def eof]
    change arguments _ [] = _
    rw [arguments]
    exact someArguments_relocate []
  | cons t rest =>
    rw [arguments.eq_def eof]
    change arguments _ (t.relocate f :: rest.map (Token.relocate f)) = _
    rw [arguments, Token.isSymbol_relocate]
    refine relocated_ite f ?_ (someArguments_relocate (t :: rest))
    simp only [relocated, Phrase.relocate, Expr.relocateAll]
termination_by (ts.length, Operator.loosest + 3)

/-- Reading further arguments does not look at places. -/
lemma someArguments_relocate (ts : List Token) :
    someArguments (eof.relocate f) (ts.map (Token.relocate f)) =
      relocated f (Phrase.relocate f (Expr.relocateAll f)) (someArguments eof ts) := by
  rw [someArguments, someArguments]
  refine relocated_bind f (level_relocate Operator.loosest ts) fun first => ?_
  obtain ⟨value, rest, shorter⟩ := first
  cases rest with
  | nil => exact relocated_unexpected f (.symbol ")") eof
  | cons t rest =>
    have less := Nat.lt_of_succ_lt shorter
    refine relocated_ite f ?_ (relocated_ite f ?_ (relocated_unexpected f (.symbol ")") t))
    · refine relocated_bind f (someArguments_relocate rest) fun others => ?_
      simp only [relocated, Phrase.relocate, Expr.relocateAll]
    · simp only [relocated, Phrase.relocate, Expr.relocateAll]
termination_by (ts.length, Operator.loosest + 2)

end

/-- Reading an expression does not look at places. -/
lemma expr_relocate (ts : List Token) :
    expr (eof.relocate f) (ts.map (Token.relocate f)) =
      relocated f (Phrase.relocate f (Expr.relocate f)) (expr eof ts) :=
  level_relocate f eof Operator.loosest ts

/-- Reading the placing of the cursor does not look at places. -/
lemma spawn_relocate (t : Token) (ts : List Token) :
    spawn (eof.relocate f) (t.relocate f) (ts.map (Token.relocate f)) =
      relocated f (Phrase.relocate f (Stmt.relocate f)) (spawn eof t ts) := by
  refine relocated_bind f (symbol_relocate f eof "(" ts) fun opened => ?_
  refine relocated_bind f (expr_relocate f eof opened.rest) fun x => ?_
  refine relocated_bind f (symbol_relocate f eof "," x.rest) fun comma => ?_
  refine relocated_bind f (expr_relocate f eof comma.rest) fun y => ?_
  exact relocated_bind f (symbol_relocate f eof ")" y.rest) fun close => rfl

/-- Reading the name of a label does not look at places. -/
lemma labelName_relocate (ts : List Token) :
    labelName (eof.relocate f) (ts.map (Token.relocate f)) =
      relocated f (Phrase.relocate f id) (labelName eof ts) := by
  cases ts with
  | nil => exact relocated_unexpected f .labelName eof
  | cons t rest =>
    exact relocated_ite f rfl (relocated_unexpected f .labelName t)

/-- Reading a jump does not look at places. -/
lemma jump_relocate (t : Token) (ts : List Token) :
    jump (eof.relocate f) (t.relocate f) (ts.map (Token.relocate f)) =
      relocated f (Phrase.relocate f (Stmt.relocate f)) (jump eof t ts) := by
  refine relocated_bind f (symbol_relocate f eof "[" ts) fun opened => ?_
  refine relocated_bind f (labelName_relocate f eof opened.rest) fun label => ?_
  refine relocated_bind f (symbol_relocate f eof "]" label.rest) fun closed => ?_
  refine relocated_bind f (symbol_relocate f eof "(" closed.rest) fun bracket => ?_
  refine relocated_bind f (expr_relocate f eof bracket.rest) fun condition => ?_
  exact relocated_bind f (symbol_relocate f eof ")" condition.rest) fun close => rfl

/-- Reading what begins with a name does not look at places. -/
lemma named_relocate (t : Token) (ts : List Token) :
    named (eof.relocate f) (t.relocate f) (ts.map (Token.relocate f)) =
      relocated f (Phrase.relocate f (Stmt.relocate f)) (named eof t ts) := by
  cases ts with
  | nil => rfl
  | cons arrow more =>
    refine relocated_ite f ?_ rfl
    exact relocated_bind f (expr_relocate f eof more) fun value => rfl

/-- Reading a statement does not look at places. -/
lemma statement_relocate (t : Token) (ts : List Token) :
    statement (eof.relocate f) (t.relocate f) (ts.map (Token.relocate f)) =
      relocated f (Phrase.relocate f (Stmt.relocate f)) (statement eof t ts) := by
  rw [statement, statement, Token.kind_relocate]
  cases t.kind with
  | function => exact relocated_bind f (call_relocate f eof t ts) fun called => rfl
  | goTo => exact relocated_bind f (jump_relocate f eof t ts) fun jump => rfl
  | identifier => exact named_relocate f eof t ts
  | number | string | symbol | operator | newLine | eof => rfl

/-- Reading the end of a statement does not look at places. -/
lemma endStatement_relocate (ts : List Token) :
    endStatement (ts.map (Token.relocate f)) =
      relocated f (fun rest => ⟨rest.val.map (Token.relocate f), by simpa using rest.property⟩)
        (endStatement ts) := by
  cases ts with
  | nil => rfl
  | cons t rest => exact relocated_ite f rfl rfl

/-- Reading the statements up to the end does not look at places. -/
lemma statements_relocate (ts : List Token) :
    statements (eof.relocate f) (ts.map (Token.relocate f)) =
      relocated f (List.map (Stmt.relocate f)) (statements eof ts) := by
  cases ts with
  | nil => rw [List.map_nil, statements_nil, statements_nil]; rfl
  | cons t rest =>
    by_cases newLine : t.kind = .newLine
    · rw [List.map_cons, statements_blank _ newLine, statements_blank (t := t.relocate f) _ newLine]
      exact statements_relocate rest
    · rw [List.map_cons, statements_cons _ newLine, statements_cons (t := t.relocate f) _ newLine]
      refine relocated_bind f (statement_relocate f eof t rest) fun first => ?_
      refine relocated_bind f (endStatement_relocate f first.rest) fun after => ?_
      have less : after.val.length < rest.length + 1 :=
        Nat.lt_of_le_of_lt after.property first.shorter
      exact relocated_bind f (statements_relocate after.val) fun others => rfl
termination_by ts.length

/-- The places in a program, or the place of the fault, are those of the tokens. -/
lemma program_relocate (ts : List Token) :
    program (eof.relocate f) (ts.map (Token.relocate f)) =
      relocated f (Program.relocate f) (program eof ts) := by
  have same : (ts.map (Token.relocate f)).dropWhile isNewLine =
      (ts.dropWhile isNewLine).map (Token.relocate f) := List.dropWhile_map ..
  rw [program, program, same]
  cases ts.dropWhile isNewLine with
  | nil => rfl
  | cons t rest =>
    refine relocated_ite f ?_ rfl
    refine relocated_bind f (spawn_relocate f eof t rest) fun first => ?_
    refine relocated_bind f (endStatement_relocate f first.rest) fun after => ?_
    refine relocated_bind f (statements_relocate f eof after.val) fun others => ?_
    simp only [relocated, Program.relocate, List.map_toArray]
    rfl

end Parser

namespace Program

/-- The outcomes are programs that are the same up to places, or diagnostics with one code and one
message. -/
def Alike : Except Diagnostic Program → Except Diagnostic Program → Prop
  | .ok p, .ok q => p.lines = q.lines
  | .error d, .error e => d.code = e.code ∧ d.message = e.message
  | _, _ => False

/-- Outcomes that become equal when places are changed are alike. -/
lemma alike_of_relocated {f : Position → Position} {x y : Except Diagnostic Program}
    (same : relocated f (relocate f) x = relocated f (relocate f) y) : Alike x y := by
  cases x with
  | error d =>
    cases y with
    | error e =>
      have moved : d.relocate f = e.relocate f := Except.error.inj same
      have code := congrArg Diagnostic.code moved
      have message := congrArg Diagnostic.message moved
      exact ⟨code, message⟩
    | ok q => cases same
  | ok p =>
    cases y with
    | error e => cases same
    | ok q =>
      have moved : p.relocate f = q.relocate f := Except.ok.inj same
      rw [Alike, ← p.lines_relocate f, moved, lines_relocate]

/-- Where the end of the text is marked once, it is that mark at which reading ends. -/
lemma ofTokens_ended {ts : List Token} (before : ∀ t ∈ ts, t.kind ≠ .eof) (q : Position) :
    ofTokens (ts ++ [Token.eof q]) = Parser.program (Token.eof q) ts := by
  have unmarked : ts.find? isEof = none :=
    List.find?_eq_none.mpr fun t mem => by simp [isEof, before t mem]
  have closed : closing (ts ++ [Token.eof q]) = Token.eof q := by
    rw [closing, List.find?_append, unmarked]
    rfl
  rw [ofTokens_eq, closed, Grammar.front_append [] rfl, Grammar.front_of_forall before]

/-- Tokens that differ in their places only are read alike. -/
lemma ofTokens_alike {ts us : List Token} (same : ts.map Token.piece = us.map Token.piece)
    (before : ∀ t ∈ ts, t.kind ≠ .eof) (p q : Position) :
    Alike (ofTokens (ts ++ [Token.eof p])) (ofTokens (us ++ [Token.eof q])) := by
  have before' : ∀ u ∈ us, u.kind ≠ .eof := by
    intro u mem
    obtain ⟨t, mem, piece⟩ := List.mem_map.mp (same ▸ List.mem_map_of_mem (f := Token.piece) mem)
    have kind : t.kind = u.kind := congrArg Piece.kind piece
    exact kind ▸ before t mem
  -- all places are made one, so that nothing is left in which the tokens differ
  let f : Position → Position := fun _ => .start
  have moved : ts.map (Token.relocate f) = us.map (Token.relocate f) := by
    have put : Token.relocate f = (fun w : Piece => w.put .start) ∘ Token.piece := rfl
    rw [put, ← List.map_map, ← List.map_map, same]
  apply alike_of_relocated (f := f)
  rw [ofTokens_ended before, ofTokens_ended before', ← Parser.program_relocate,
    ← Parser.program_relocate, moved]
  rfl

end Program

end Easel
