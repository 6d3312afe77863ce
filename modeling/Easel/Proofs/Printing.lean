import Easel.Proofs.ParserComplete
import Easel.Proofs.Scanning

/-!
# Printing programs

A program is printed with one statement in each line and a blank between two words. What is printed
is a draft, in which a numeral stands for each number; a number has many numerals, and all of them
are read as the number. Brackets are put around an operator only where the grammar asks for a
tighter one, and there they are needed (`Grammar.brackets_needed`).

The proof goes through the two phases of reading: the printed text is scanned into the words it was
put together from (`Program.reads_print`), and these words spell the program
(`Grammar.word_of_pieces`).

Main statement: a printed program is read as the program (`Program.compile_print`).
-/

namespace Easel

/-- A text can be a name: it is one word, and none of those that are reserved. -/
def IsName (s : String) : Prop :=
  Text.isWord s ∧ s ≠ Token.goToWord ∧ s ≠ Token.spawnWord ∧ ∀ i ∈ Instruction.all, s ≠ i.name

instance (s : String) : Decidable (IsName s) :=
  inferInstanceAs (Decidable (_ ∧ _ ∧ _ ∧ _))

/-- Names are identifiers. -/
lemma IsName.classifyWord {s : String} (name : IsName s) :
    Token.classifyWord s = .identifier := by
  obtain ⟨-, goTo, spawn, instruction⟩ := name
  have none : ¬ (s = Token.spawnWord ∨ (Instruction.ofName? s).isSome) := by
    rintro (same | found)
    · exact spawn same
    · obtain ⟨i, hit⟩ := Option.isSome_iff_exists.mp found
      exact instruction i (Instruction.mem_all i) (Instruction.name_of_ofName? hit).symm
  rw [Token.classifyWord, if_neg goTo, if_neg none]

namespace Tree

variable {ν μ : Type}

mutual

/-- The expression can be written down: its names can be names, and its texts have no quotes. -/
def Printable : Tree ν → Prop
  | number _ => True
  | text s => '"' ∉ s.toList
  | var name => IsName name
  | binary left _ right => left.Printable ∧ right.Printable
  | call _ arguments => AllPrintable arguments

/-- All of the expressions can be written down. -/
def AllPrintable : List (Tree ν) → Prop
  | [] => True
  | e :: rest => e.Printable ∧ AllPrintable rest

end

mutual

/-- Whether an expression can be printed does not depend on its numbers. -/
lemma printable_map (f : ν → μ) : ∀ e : Tree ν, (e.map f).Printable ↔ e.Printable
  | number _ => by rw [map, Printable, Printable]
  | text s => by rw [map, Printable, Printable]
  | var name => by rw [map, Printable, Printable]
  | binary left op right => by
    rw [map, Printable, Printable, printable_map f left, printable_map f right]
  | call i arguments => by rw [map, Printable, Printable, allPrintable_mapAll f arguments]

/-- Whether expressions can be printed does not depend on their numbers. -/
lemma allPrintable_mapAll (f : ν → μ) :
    ∀ es : List (Tree ν), AllPrintable (mapAll f es) ↔ AllPrintable es
  | [] => by rw [mapAll, AllPrintable, AllPrintable]
  | e :: rest => by
    rw [mapAll, AllPrintable, AllPrintable, printable_map f e, allPrintable_mapAll f rest]

end

mutual

/-- The pieces of an expression where operators up to a level may stand. Brackets are put around an
operator that is looser, and nowhere else. As operators associate to the left, an operator of the
same level needs no brackets on the left of another, and needs them on its right. -/
def pieces (level : Nat) : Tree Numeral → List Piece
  | number x => [.number x]
  | text s => [.quote s]
  | var name => [.word name]
  | binary left op right =>
    let own := Grammar.levelOf op
    let inner := left.pieces own ++ .operator op :: right.pieces (own - 1)
    if own ≤ level then inner else .symbol "(" :: inner ++ [.symbol ")"]
  | call i arguments =>
    .word i.name :: .symbol "(" :: argumentPieces arguments ++ [.symbol ")"]

/-- The pieces of the arguments of a call, with commas between them. -/
def argumentPieces : List (Tree Numeral) → List Piece
  | [] => []
  | [e] => e.pieces Grammar.top
  | e :: f :: rest => e.pieces Grammar.top ++ .symbol "," :: argumentPieces (f :: rest)

end

/-- The pieces of an operator with its operands, without brackets around them. -/
def bare (left : Tree Numeral) (op : Operator) (right : Tree Numeral) : List Piece :=
  left.pieces (Grammar.levelOf op) ++ .operator op :: right.pieces (Grammar.levelOf op - 1)

/-- A chain of operators is put in brackets where it binds less tightly than is asked for. -/
lemma pieces_binary (left : Tree Numeral) (op : Operator) (right : Tree Numeral) (level : Nat) :
    (binary left op right).pieces level =
      if Grammar.levelOf op ≤ level then bare left op right
      else .symbol "(" :: bare left op right ++ [.symbol ")"] := by
  rw [pieces, bare]

end Tree

namespace Line

variable {ν μ : Type}

/-- The statement can be written down. -/
def Printable : Line ν → Prop
  | spawn x y => x.Printable ∧ y.Printable
  | assign name value => IsName name ∧ value.Printable
  | label name => IsName name
  | goTo name condition => IsName name ∧ condition.Printable
  | call _ arguments => Tree.AllPrintable arguments

/-- The statement places the cursor. -/
def isSpawn : Line ν → Bool
  | spawn _ _ => true
  | _ => false

/-- Whether a line can be printed does not depend on its numbers. -/
lemma printable_map (f : ν → μ) (l : Line ν) : (l.map f).Printable ↔ l.Printable := by
  cases l <;> simp only [map, Printable, Tree.printable_map, Tree.allPrintable_mapAll]

/-- Whether a line places the cursor does not depend on its numbers. -/
lemma isSpawn_map (f : ν → μ) (l : Line ν) : (l.map f).isSpawn = l.isSpawn := by
  cases l <;> rfl

/-- The pieces of a statement. -/
def pieces : Line Numeral → List Piece
  | spawn x y =>
    .word Token.spawnWord :: .symbol "(" :: x.pieces Grammar.top ++
      .symbol "," :: y.pieces Grammar.top ++ [.symbol ")"]
  | assign name value => .word name :: .symbol "<-" :: value.pieces Grammar.top
  | label name => [.word name]
  | goTo name condition =>
    .word Token.goToWord :: .symbol "[" :: .word name :: .symbol "]" :: .symbol "(" ::
      condition.pieces Grammar.top ++ [.symbol ")"]
  | call i arguments =>
    .word i.name :: .symbol "(" :: Tree.argumentPieces arguments ++ [.symbol ")"]

end Line

/-- The text of a program: one statement in each line, with blanks between its words. -/
def print (lines : List (Line Numeral)) : String :=
  "\n".intercalate (lines.map fun l => Piece.line l.pieces)

namespace Grammar

/-- A token that was printed as a symbol is that symbol. -/
lemma isSymbol_of_piece {t : Token} {s : String} (same : t.piece = .symbol s) : t.isSymbol s := by
  obtain ⟨kind, lexeme, position⟩ := t
  cases same
  simp [Token.isSymbol]

/-- A token that was printed as a name is that name. -/
lemma name_of_piece {t : Token} {name : String} (isName : IsName name)
    (same : t.piece = .word name) : t.kind = .identifier ∧ t.lexeme = name :=
  ⟨(congrArg Piece.kind same).trans isName.classifyWord, congrArg Piece.text same⟩

/-- The name of an instruction is reserved for it. -/
lemma classifyWord_name (i : Instruction) : Token.classifyWord i.name = .function := by
  cases i <;> decide

/-- Tokens with brackets around some pieces are brackets around tokens with these pieces. -/
lemma brackets_of_pieces {ws : List Piece} {ts : List Token}
    (same : ts.map Token.piece = .symbol "(" :: ws ++ [.symbol ")"]) :
    ∃ l us r, ts = l :: us ++ [r] ∧ l.isSymbol "(" ∧ us.map Token.piece = ws ∧ r.isSymbol ")" := by
  rw [List.map_eq_append_iff] at same
  obtain ⟨_, _, rfl, front, back⟩ := same
  obtain ⟨l, us, rfl, left, inner⟩ := List.map_eq_cons_iff.mp front
  obtain ⟨r, rfl, right⟩ := List.map_eq_singleton_iff.mp back
  exact ⟨l, us, r, rfl, isSymbol_of_piece left, inner, isSymbol_of_piece right⟩

/-- Tokens that were printed as a call are a call. -/
lemma call_of_pieces {i : Instruction} {es : List (Tree Float)} {ws : List Piece} {ts : List Token}
    (arguments : ∀ us, us.map Token.piece = ws → us = [] ∧ es = [] ∨ Arguments us es)
    (same : ts.map Token.piece = .word i.name :: .symbol "(" :: ws ++ [.symbol ")"]) :
    Call ts i es := by
  obtain ⟨t, _, rfl, word, brackets⟩ := List.map_eq_cons_iff.mp same
  obtain ⟨l, us, r, rfl, left, inner, right⟩ := brackets_of_pieces brackets
  have kind : t.kind = .function := (congrArg Piece.kind word).trans (classifyWord_name i)
  have name : t.lexeme = i.name := congrArg Piece.text word
  rcases arguments us inner with ⟨rfl, rfl⟩ | drv
  · exact .empty kind name left right
  · exact .apply kind name left drv right

/-- A text without quotes in it stands between quotes. -/
lemma quoted_of_unquoted {s : String} (unquoted : '"' ∉ s.toList) :
    Quoted ("\"" ++ s ++ "\"") s := by
  refine ⟨1, 1, by simp, ?_, ?_⟩
  · exact fun first => unquoted (List.mem_of_head? first)
  · exact fun last => unquoted (List.mem_of_getLast? last)

mutual

/-- Tokens with the pieces of an expression spell it. -/
lemma level_of_pieces : ∀ (e : Tree Numeral) {n : Nat} {ts : List Token}, e.Printable → n ≤ top →
    ts.map Token.piece = e.pieces n → Level n ts (e.map Numeral.value)
  | .number x, n, ts, _, _, same => by
    rw [Tree.pieces, List.map_eq_singleton_iff] at same
    obtain ⟨t, rfl, word⟩ := same
    have lexeme : t.lexeme = x.text := congrArg Piece.text word
    rw [Tree.map]
    refine .mono n.zero_le (.number (congrArg Piece.kind word) ?_)
    rw [lexeme, x.ofText?_text]
  | .text s, n, ts, printable, _, same => by
    rw [Tree.pieces, List.map_eq_singleton_iff] at same
    obtain ⟨t, rfl, word⟩ := same
    have lexeme : t.lexeme = "\"" ++ s ++ "\"" := congrArg Piece.text word
    rw [Tree.map]
    refine .mono n.zero_le (.text (congrArg Piece.kind word) ?_)
    rw [lexeme]
    exact quoted_of_unquoted printable
  | .var name, n, ts, printable, _, same => by
    rw [Tree.pieces, List.map_eq_singleton_iff] at same
    obtain ⟨t, rfl, word⟩ := same
    obtain ⟨kind, rfl⟩ := name_of_piece printable word
    rw [Tree.map]
    exact .mono n.zero_le (.var kind)
  | .binary left op right, n, ts, printable, le, same => by
    have bounds := levelOf_bounds op
    obtain ⟨k, level⟩ : ∃ k, levelOf op = k + 1 := ⟨levelOf op - 1, by omega⟩
    have inner {us : List Token} (same : us.map Token.piece = Tree.bare left op right) :
        Level (levelOf op) us ((Tree.binary left op right).map Numeral.value) := by
      simp only [Tree.bare, List.map_eq_append_iff, List.map_eq_cons_iff] at same
      obtain ⟨ls, _, rfl, first, t, rs, rfl, middle, last⟩ := same
      have l := level_of_pieces left printable.1 bounds.2 first
      have r := level_of_pieces right printable.2 (Nat.le_trans (Nat.sub_le _ _) bounds.2) last
      rw [level] at l r ⊢
      rw [Tree.map]
      exact .binary l (congrArg Piece.kind middle) (congrArg Piece.text middle)
        (level ▸ mem_operators_levelOf op) r
    rw [Tree.pieces_binary] at same
    split at same
    · next loose => exact .mono loose (inner same)
    · obtain ⟨l, us, r, rfl, opening, middle, closing⟩ := brackets_of_pieces same
      exact .mono n.zero_le (.group opening (.mono bounds.2 (inner middle)) closing)
  | .call i arguments, n, ts, printable, _, same => by
    rw [Tree.pieces] at same
    rw [Tree.map]
    refine .mono n.zero_le (.call (call_of_pieces (fun us middle => ?_) same))
    exact arguments_of_pieces arguments printable middle

/-- Tokens that were printed as arguments are these arguments. -/
lemma arguments_of_pieces : ∀ (es : List (Tree Numeral)) {ts : List Token}, Tree.AllPrintable es →
    ts.map Token.piece = Tree.argumentPieces es →
    ts = [] ∧ Tree.mapAll Numeral.value es = [] ∨ Arguments ts (Tree.mapAll Numeral.value es)
  | [], ts, _, same => by
    rw [Tree.argumentPieces, List.map_eq_nil_iff] at same
    rw [Tree.mapAll]
    exact .inl ⟨same, rfl⟩
  | [e], ts, printable, same => by
    rw [Tree.argumentPieces] at same
    rw [Tree.mapAll, Tree.mapAll]
    exact .inr (.one (level_of_pieces e printable.1 le_rfl same))
  | e :: f :: rest, ts, printable, same => by
    rw [Tree.argumentPieces] at same
    simp only [List.map_eq_cons_iff, List.map_eq_append_iff] at same
    obtain ⟨us, _, rfl, first, c, vs, rfl, comma, others⟩ := same
    rw [Tree.mapAll]
    have drv := level_of_pieces e printable.1 le_rfl first
    rcases arguments_of_pieces (f :: rest) printable.2 others with ⟨_, none⟩ | more
    · rw [Tree.mapAll] at none
      cases none
    · exact .inr (.cons drv (isSymbol_of_piece comma) more)

end

/-- A phrase of a level begins with one of the level below, which ends there or before an operator
of the level. -/
lemma Level.head {n ts e} : Level n ts e → ∀ {k : Nat}, n = k + 1 →
    ∃ us more, ts = us ++ more ∧ (∃ e, Level k us e) ∧
      ∀ t, more.head? = some t → ∃ op, Parser.operator? (k + 1) t = some op
  | @Level.lift _ us e drv, k, same => by
    cases same
    refine ⟨us, [], (List.append_nil us).symm, ⟨e, drv⟩, fun t none => ?_⟩
    cases none
  | @Level.binary _ ls l t op rs r drv kind lexeme mem _, k, same => by
    cases same
    obtain ⟨us, more, rfl, first, next⟩ := drv.head rfl
    refine ⟨us, more ++ t :: rs, List.append_assoc .., first, fun u here => ?_⟩
    cases more with
    | nil =>
      cases here
      exact ⟨op, Parser.operator?_eq_some.mpr ⟨kind, lexeme, mem⟩⟩
    | cons v more => exact next u here
termination_by structural drv => drv

/-- The brackets of a printed expression are needed: what they are put around is no phrase of the
level that is asked for there. -/
lemma brackets_needed {left right : Tree Numeral} {op : Operator} {n : Nat} {ts : List Token}
    (printable : (Tree.binary left op right).Printable)
    (brackets : (Tree.binary left op right).pieces n ≠ Tree.bare left op right)
    (same : ts.map Token.piece = Tree.bare left op right) (e : Tree Float) : ¬ Level n ts e := by
  intro drv
  have loose : ¬ levelOf op ≤ n := by
    intro tight
    rw [Tree.pieces_binary, if_pos tight] at brackets
    exact brackets rfl
  obtain ⟨k, level⟩ : ∃ k, levelOf op = k + 1 := ⟨levelOf op - 1, by omega⟩
  simp only [Tree.bare, List.map_eq_append_iff, List.map_eq_cons_iff] at same
  obtain ⟨ls, _, rfl, first, t, rs, rfl, middle, -⟩ := same
  have l := level_of_pieces left printable.1 (levelOf_bounds op).2 first
  rw [level] at l
  obtain ⟨us, more, rfl, ⟨e', drv'⟩, next⟩ := l.head rfl
  have found : Parser.operator? (k + 1) t = some op := Parser.operator?_eq_some.mpr
    ⟨congrArg Piece.kind middle, congrArg Piece.text middle, level ▸ mem_operators_levelOf op⟩
  have stops : Parser.Stops (k + 1) (more ++ t :: rs) := by
    cases more with
    | nil => exact Parser.stops_operator found
    | cons v more =>
      obtain ⟨op', found'⟩ := next v rfl
      exact Parser.stops_operator found'
  -- read at the level below, the tokens end before the operator, and yet they end with the last one
  obtain ⟨v, _, read, _⟩ := Parser.level_complete (.eof .start) drv' _ (List.append_assoc ..)
    fun t first m less => stops t first m (Nat.lt_succ_of_lt less)
  obtain ⟨v', _, read', _⟩ := Parser.level_complete (.eof .start) (.mono (by omega : n ≤ k) drv) []
    (List.append_nil _).symm (Parser.stops_newLine (by simp))
  rw [Parser.goOn_of_stops _ stops] at read
  rw [Parser.goOn_of_stops _ (Parser.stops_newLine (by simp)), read] at read'
  simp at read'

/-- Tokens that were printed as the placing of the cursor are that. -/
lemma spawn_of_pieces {x y : Tree Numeral} {ts : List Token}
    (printable : (Line.spawn x y).Printable)
    (same : ts.map Token.piece = (Line.spawn x y).pieces) :
    Spawn ts ((Line.spawn x y).map Numeral.value) := by
  obtain ⟨t, _, rfl, word, same⟩ := List.map_eq_cons_iff.mp same
  obtain ⟨l, us, r, rfl, left, inner, right⟩ := brackets_of_pieces same
  obtain ⟨xs, _, rfl, first, same⟩ := List.map_eq_append_iff.mp inner
  obtain ⟨c, ys, rfl, comma, second⟩ := List.map_eq_cons_iff.mp same
  have spawn : t.isSpawn := by
    obtain ⟨kind, lexeme, position⟩ := t
    cases word
    rfl
  have drvX := level_of_pieces x printable.1 le_rfl first
  have drvY := level_of_pieces y printable.2 le_rfl second
  exact .intro spawn left drvX (isSymbol_of_piece comma) drvY right

/-- Tokens with the pieces of a statement spell it. -/
lemma statement_of_pieces : ∀ {l : Line Numeral} {ts : List Token}, l.isSpawn = false →
    l.Printable → ts.map Token.piece = l.pieces → Statement ts (l.map Numeral.value)
  | .assign name value, ts, _, printable, same => by
    rw [Line.pieces] at same
    simp only [List.map_eq_cons_iff] at same
    obtain ⟨t, _, rfl, word, a, us, rfl, arrow, inner⟩ := same
    obtain ⟨kind, rfl⟩ := name_of_piece printable.1 word
    have arrow : a.isArrow := by simp [Token.isArrow, isSymbol_of_piece arrow]
    exact .assign kind arrow (level_of_pieces value printable.2 le_rfl inner)
  | .label name, ts, _, printable, same => by
    obtain ⟨t, rfl, word⟩ := List.map_eq_singleton_iff.mp same
    obtain ⟨kind, rfl⟩ := name_of_piece printable word
    exact .label kind
  | .goTo name condition, ts, _, printable, same => by
    obtain ⟨t, _, rfl, word, same⟩ := List.map_eq_cons_iff.mp same
    obtain ⟨o, _, rfl, opening, same⟩ := List.map_eq_cons_iff.mp same
    obtain ⟨u, _, rfl, target, same⟩ := List.map_eq_cons_iff.mp same
    obtain ⟨c, _, rfl, closing, same⟩ := List.map_eq_cons_iff.mp same
    obtain ⟨l, us, r, rfl, left, inner, right⟩ := brackets_of_pieces same
    obtain ⟨kind, rfl⟩ := name_of_piece printable.1 target
    have drv := level_of_pieces condition printable.2 le_rfl inner
    exact .goTo (congrArg Piece.kind word) (isSymbol_of_piece opening) kind
      (isSymbol_of_piece closing) left drv right
  | .call i arguments, ts, _, printable, same =>
    .call (call_of_pieces (fun us inner => arguments_of_pieces arguments printable inner) same)

/-- Tokens with the pieces of several lines are those of the first line, a line break, and those of
the others. -/
lemma lines_of_pieces {ws vs : List Piece} {lines : List (List Piece)} {ts : List Token}
    (same : ts.map Token.piece = [Piece.newLine].intercalate (ws :: vs :: lines)) :
    ∃ us t more, ts = us ++ t :: more ∧ us.map Token.piece = ws ∧ t.kind = .newLine ∧
      more.map Token.piece = [Piece.newLine].intercalate (vs :: lines) := by
  rw [List.intercalate_cons_cons, List.append_assoc, List.map_eq_append_iff] at same
  obtain ⟨us, _, rfl, first, same⟩ := same
  obtain ⟨t, more, rfl, line, rest⟩ := List.map_eq_cons_iff.mp same
  exact ⟨us, t, more, rfl, first, congrArg Piece.kind line, rest⟩

/-- Tokens with the pieces of some statements and line breaks between them spell these
statements. -/
lemma statements_of_pieces : ∀ {ls : List (Line Numeral)} {ts : List Token},
    (∀ l ∈ ls, l.isSpawn = false) → (∀ l ∈ ls, l.Printable) →
    ts.map Token.piece = [Piece.newLine].intercalate (ls.map Line.pieces) →
    Statements ts (ls.map (Line.map Numeral.value))
  | [], ts, _, _, same => by
    cases List.map_eq_nil_iff.mp same
    exact .nil
  | [l], ts, others, printable, same => by
    rw [List.map_singleton, List.intercalate_singleton] at same
    exact .last (statement_of_pieces (others l (by simp)) (printable l (by simp)) same)
  | l :: m :: ls, ts, others, printable, same => by
    obtain ⟨us, t, vs, rfl, first, line, rest⟩ := lines_of_pieces same
    have drv := statement_of_pieces (others l (by simp)) (printable l (by simp)) first
    have more := statements_of_pieces (fun k mem => others k (List.mem_cons_of_mem l mem))
      (fun k mem => printable k (List.mem_cons_of_mem l mem)) rest
    exact .cons drv line more

/-- Tokens with the pieces of a program spell it. -/
lemma word_of_pieces {x y : Tree Numeral} {ls : List (Line Numeral)} {ts : List Token}
    (others : ∀ l ∈ ls, l.isSpawn = false) (printable : ∀ l ∈ Line.spawn x y :: ls, l.Printable)
    (same : ts.map Token.piece =
      [Piece.newLine].intercalate ((Line.spawn x y :: ls).map Line.pieces)) :
    Word ts ((Line.spawn x y :: ls).map (Line.map Numeral.value)) := by
  have first := printable (.spawn x y) (by simp)
  cases ls with
  | nil =>
    rw [List.map_singleton, List.intercalate_singleton] at same
    exact .last (spawn_of_pieces first same)
  | cons l ls =>
    obtain ⟨us, t, vs, rfl, spawn, line, rest⟩ := lines_of_pieces same
    have more := statements_of_pieces others
      (fun k mem => printable k (List.mem_cons_of_mem _ mem)) rest
    exact .cons (spawn_of_pieces first spawn) line more

end Grammar

namespace Piece

/-- A name can end an operand. -/
lemma endsOperand_name {name : String} (isName : IsName name) : (word name).endsOperand = true := by
  simp [endsOperand, put, word, Token.endsOperand, isName.classifyWord, TokenKind.endsOperand]

/-- The name of an instruction cannot end an operand. -/
lemma endsOperand_instruction (i : Instruction) : (word i.name).endsOperand = false := by
  cases i <;> decide

/-- The names of instructions are words. -/
lemma isWord_instruction (i : Instruction) : Text.isWord i.name := by
  cases i <;> decide

/-- Nothing can follow anything. -/
lemma follows_nil (afterOperand : Bool) : Follows afterOperand [] := trivial

/-- A closing bracket may stand anywhere, and ends an operand. -/
lemma follows_closing {ws : List Piece} (follows : Follows true ws) (afterOperand : Bool) :
    Follows afterOperand (symbol ")" :: ws) :=
  ⟨scans_symbol (by decide) afterOperand, follows⟩

mutual

/-- An expression can be scanned where an operand is due, if what follows can be scanned after an
operand. -/
lemma follows_pieces : ∀ (e : Tree Numeral) {n : Nat} {ws : List Piece}, e.Printable →
    Follows true ws → Follows false (e.pieces n ++ ws)
  | .number x, n, ws, _, follows => by
    rw [Tree.pieces]
    exact ⟨scans_number (fun after => nomatch after), follows⟩
  | .text s, n, ws, printable, follows => by
    rw [Tree.pieces]
    exact ⟨scans_quote printable false, follows⟩
  | .var name, n, ws, printable, follows => by
    rw [Tree.pieces]
    refine ⟨scans_word printable.1 false, ?_⟩
    rw [endsOperand_name printable]
    exact follows
  | .binary left op right, n, ws, printable, follows => by
    have inner {vs : List Piece} (follows : Follows true vs) :
        Follows false (Tree.bare left op right ++ vs) := by
      rw [Tree.bare, List.append_assoc]
      refine follows_pieces left printable.1 ⟨scans_operator op true, ?_⟩
      exact follows_pieces right printable.2 follows
    rw [Tree.pieces_binary]
    split
    · exact inner follows
    · rw [List.append_assoc]
      exact ⟨scans_symbol (by decide) false, inner (follows_closing follows true)⟩
  | .call i arguments, n, ws, printable, follows => by
    rw [Tree.pieces, List.append_assoc]
    exact follows_call i arguments printable follows

/-- A call can stand where an operand is due. -/
lemma follows_call (i : Instruction) (arguments : List (Tree Numeral)) {ws : List Piece}
    (printable : Tree.AllPrintable arguments) (follows : Follows true ws) :
    Follows false
      (word i.name :: symbol "(" :: Tree.argumentPieces arguments ++ ([symbol ")"] ++ ws)) := by
  refine ⟨scans_word (isWord_instruction i) false, ?_⟩
  rw [endsOperand_instruction]
  refine ⟨scans_symbol (by decide) false, ?_⟩
  exact follows_arguments arguments printable (follows_closing follows)

/-- Arguments can stand after an opening bracket. -/
lemma follows_arguments : ∀ (es : List (Tree Numeral)) {ws : List Piece}, Tree.AllPrintable es →
    (∀ afterOperand, Follows afterOperand ws) → Follows false (Tree.argumentPieces es ++ ws)
  | [], ws, _, follows => by
    rw [Tree.argumentPieces]
    exact follows false
  | [e], ws, printable, follows => by
    rw [Tree.argumentPieces]
    exact follows_pieces e printable.1 (follows true)
  | e :: f :: rest, ws, printable, follows => by
    rw [Tree.argumentPieces, List.append_assoc]
    refine follows_pieces e printable.1 ⟨scans_symbol (by decide) true, ?_⟩
    exact follows_arguments (f :: rest) printable.2 follows

end

/-- A printed statement can be scanned. -/
lemma follows_line : ∀ {l : Line Numeral}, l.Printable → Follows false l.pieces
  | .spawn x y, printable => by
    rw [Line.pieces, List.append_assoc]
    refine ⟨scans_word (by decide) false, scans_symbol (by decide) false, ?_⟩
    refine follows_pieces x printable.1 ⟨scans_symbol (by decide) true, ?_⟩
    exact follows_pieces y printable.2 (follows_closing (follows_nil true) true)
  | .assign name value, printable => by
    refine ⟨scans_word printable.1.1 false, scans_symbol (by decide) _, ?_⟩
    rw [← List.append_nil (value.pieces _)]
    exact follows_pieces value printable.2 (follows_nil true)
  | .label name, printable => ⟨scans_word printable.1 false, trivial⟩
  | .goTo name condition, printable => by
    refine ⟨scans_word (by decide) false, scans_symbol (by decide) false, ?_⟩
    refine ⟨scans_word printable.1.1 false, scans_symbol (by decide) _, ?_⟩
    refine ⟨scans_symbol (by decide) true, ?_⟩
    exact follows_pieces condition printable.2 (follows_closing (follows_nil true) true)
  | .call i arguments, printable => follows_call i arguments printable (follows_nil true)

end Piece

namespace Program

open Grammar

/-- A program can be written down: it places the cursor in its first statement and in no other, its
names can be names, and its texts have no quotes. -/
structure Printable (p : Program) : Prop where
  spawn : ∃ first others, p.lines = first :: others ∧ first.isSpawn ∧ ∀ l ∈ others, ¬ l.isSpawn
  lines : ∀ l ∈ p.lines, l.Printable

/-- A printed program is scanned into its pieces. -/
lemma reads_print {draft : List (Line Numeral)} (printable : ∀ l ∈ draft, l.Printable) :
    Token.Reads false (print draft).toList
      ([Piece.newLine].intercalate (draft.map Line.pieces)) := by
  have follows : ∀ ws ∈ draft.map Line.pieces, Piece.Follows false ws := by
    intro ws mem
    obtain ⟨l, here, rfl⟩ := List.mem_map.mp mem
    exact Piece.follows_line (printable l here)
  have reads := Token.reads_lines follows
  rw [List.map_map] at reads
  exact reads

/-- The text of a program is read as the program, up to places, whatever numerals stand for its
numbers. All brackets in the text are needed: what they are put around cannot stand there
without. -/
theorem compile_print {p : Program} {draft : List (Line Numeral)} (printable : p.Printable)
    (spelled : draft.map (Line.map Numeral.value) = p.lines) :
    (∃ q, compile (print draft) = .ok q ∧ q.lines = p.lines) ∧
      ∀ (left : Tree Numeral) (op : Operator) (right : Tree Numeral) (level : Nat),
        (Tree.binary left op right).Printable →
        (Tree.binary left op right).pieces level ≠ Tree.bare left op right →
        ∀ ts, ts.map Token.piece = Tree.bare left op right → ∀ e, ¬ Level level ts e := by
  refine ⟨?_, fun left op right level named brackets ts same => brackets_needed named brackets same⟩
  obtain ⟨⟨first, others, shape, spawn, rest⟩, lines⟩ := printable
  rw [← spelled] at lines shape
  have drafts : ∀ l ∈ draft, l.Printable := fun l mem =>
    (l.printable_map Numeral.value).mp (lines _ (List.mem_map_of_mem mem))
  obtain ⟨ts, q, scanned, pieces, before⟩ := reads_print drafts .start
  have word : Word (front (ts ++ [Token.eof q])) p.lines := by
    rw [front_append [] rfl, front_of_forall before, ← spelled]
    obtain ⟨l, ls, rfl, rfl, rfl⟩ := List.map_eq_cons_iff.mp shape
    rw [Line.isSpawn_map] at spawn
    cases l with
    | spawn x y =>
      refine word_of_pieces (fun k mem => ?_) drafts pieces
      have other := rest _ (List.mem_map_of_mem mem)
      rw [Line.isSpawn_map] at other
      exact Bool.eq_false_iff.mpr other
    | _ => cases spawn
  obtain ⟨r, read, same⟩ := word_iff.mp word
  refine ⟨r, ?_, same⟩
  rw [compile, Token.scan, scanned]
  exact read

/-- A program with a negative numeral, brackets on the right of an operator, a label and a jump. -/
theorem compile_print_jump :
    let two : Numeral := ⟨false, ['2'], [], by decide, by decide, by decide⟩
    let half : Numeral := ⟨true, ['0'], ['5', '0'], by decide, by decide, by decide⟩
    let draft : List (Line Numeral) :=
      [.spawn (.number two) (.call .getCanvasSize []),
        .label "loop",
        .assign "x" (.binary (.var "y") .sub (.binary (.number half) .sub (.var "x"))),
        .goTo "loop" (.binary (.binary (.var "x") .lt (.number half)) .mul (.number two)),
        .call .color [.text "Red"]]
    let p : Program := ⟨#[
      .spawn (.number two.value .start) (.call .getCanvasSize [] .start) .start,
      .label "loop" .start,
      .assign "x" (.binary (.var "y" .start) .sub
        (.binary (.number half.value .start) .sub (.var "x" .start) .start) .start) .start,
      .goTo "loop" (.binary (.binary (.var "x" .start) .lt (.number half.value .start) .start) .mul
        (.number two.value .start) .start) .start,
      .call .color [.text "Red" .start] .start]⟩
    p.Printable ∧ draft.map (Line.map Numeral.value) = p.lines ∧
      print draft = "Spawn ( 2 , GetCanvasSize ( ) )\nloop\nx <- y - ( -0.50 - x )\n" ++
        "GoTo [ loop ] ( ( x < -0.50 ) * 2 )\nColor ( \"Red\" )" ∧
      (∃ q, compile (print draft) = .ok q ∧ q.lines = p.lines) ∧
      ∀ ts, ts.map Token.piece = Tree.bare (.var "x") .lt (.number half) → ∀ e, ¬ Level 2 ts e := by
  intro two half draft p
  have spelled : draft.map (Line.map Numeral.value) = p.lines := rfl
  have names : IsName "x" ∧ IsName "y" ∧ IsName "loop" := by decide
  obtain ⟨x, y, loop⟩ := names
  have printable : p.Printable := by
    refine ⟨⟨_, _, rfl, rfl, by simp [Line.isSpawn, Stmt.line]⟩, ?_⟩
    simp [p, lines, Stmt.line, Expr.tree, Expr.trees, Line.Printable, Tree.Printable,
      Tree.AllPrintable, x, y, loop]
  obtain ⟨read, needed⟩ := compile_print printable spelled
  exact ⟨printable, spelled, by decide, read,
    needed (.var "x") .lt (.number half) 2 ⟨x, trivial⟩ (by decide)⟩

end Program

end Easel
