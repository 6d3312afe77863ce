import Easel.Proofs.ParserComplete
import Mathlib.Data.List.Forall2

/-!
# Where places come from

Every place in a statement is that of a token which the statement was read from. The proofs follow
the recursion of the parser: what was read so far is the front of the tokens, and its places are
among those of that front (`Phrase.Placed`).

A statement is read from the tokens of one line, and no other line has any part in it. So the
statements of a program are written, one by one, in the lines that have any tokens
(`Program.ofTokens_written`).
-/

namespace Easel

/-- The places are those of tokens that the phrase was read from. -/
def Phrase.Placed {α : Type} {ts : List Token} (ph : Phrase α ts) (places : α → List Position) :
    Prop :=
  ∃ w, ts = w ++ ph.rest ∧ places ph.value ⊆ w.map Token.position

namespace Expr

/-- The place of an expression is the first of its places. -/
lemma position_mem (e : Expr) : e.position ∈ e.positions := by
  cases e <;> simp [position, positions]

/-- A sign has two places: that of the operator and that of the zero it is applied to. -/
lemma positions_negate (e : Expr) (p : Position) :
    (e.negate p).positions = p :: p :: e.positions := by
  simp [negate, positions]

end Expr

namespace Parser

open Easel.Expr

variable {eof : Token}

/-- A symbol adds no places. -/
lemma symbol_placed {lexeme : String} {ts : List Token} {ph : Phrase Unit ts}
    (h : symbol eof lexeme ts = .ok ph) : ph.Placed fun _ => [] := by
  obtain ⟨t, e, -⟩ := symbol_sound h
  exact ⟨[t], e, List.nil_subset _⟩

mutual

/-- The places of an operand are those of its tokens. -/
lemma factor_placed {ts : List Token} {ph : Phrase Expr ts} (h : factor eof ts = .ok ph) :
    ph.Placed positions := by
  cases ts with
  | nil =>
    rw [factor] at h
    cases h
  | cons t rest =>
    rw [factor] at h
    -- only a sign has places of its own, both of them that of its token
    cases kind : t.kind with
    | number =>
      rw [kind] at h
      simp only at h
      split at h
      · cases h
        exact ⟨[t], rfl, by simp [positions]⟩
      · cases h
    | string | identifier =>
      rw [kind] at h
      cases h
      exact ⟨[t], rfl, by simp [positions]⟩
    | function =>
      rw [kind] at h
      obtain ⟨called, read, h⟩ := bind_eq_ok.mp h
      cases h
      obtain ⟨w, e, within⟩ := call_placed read
      refine ⟨t :: w, congrArg (t :: ·) e, ?_⟩
      rw [positions]
      exact List.cons_subset_cons _ within
    | symbol =>
      rw [kind] at h
      simp only at h
      split at h
      · obtain ⟨inner, read, h⟩ := bind_eq_ok.mp h
        obtain ⟨close, closed, h⟩ := bind_eq_ok.mp h
        cases h
        obtain ⟨w, e, within⟩ := level_placed read
        obtain ⟨r, e', -⟩ := symbol_placed closed
        refine ⟨t :: w ++ r, append_trans (append_trans (u := [t]) rfl e) e', ?_⟩
        exact fun p mem => by simpa using .inr (.inl (by simpa using within mem))
      · cases h
    | operator =>
      rw [kind] at h
      simp only at h
      split at h
      · obtain ⟨operand, read, h⟩ := bind_eq_ok.mp h
        cases h
        obtain ⟨w, e, within⟩ := factor_placed read
        refine ⟨t :: w, congrArg (t :: ·) e, ?_⟩
        rw [positions_negate]
        exact List.cons_subset.mpr ⟨List.mem_cons_self, List.cons_subset_cons _ within⟩
      · cases h
    | goTo | newLine | eof =>
      rw [kind] at h
      cases h
termination_by (ts.length, 0)

/-- The places of an expression are those of its tokens. -/
lemma level_placed {n : Nat} {ts : List Token} {ph : Phrase Expr ts}
    (h : level eof n ts = .ok ph) : ph.Placed positions := by
  cases n with
  | zero =>
    rw [level] at h
    exact factor_placed h
  | succ n =>
    rw [level] at h
    obtain ⟨left, read, h⟩ := bind_eq_ok.mp h
    have := left.shorter
    exact chain_placed h (level_placed read)
termination_by (ts.length, n + 1)

/-- The places of a chain of operators are those of its tokens. -/
lemma chain_placed {n : Nat} {ts : List Token} {left ph : Phrase Expr ts}
    (h : chain eof n left = .ok ph) (placed : left.Placed positions) : ph.Placed positions := by
  rw [chain] at h
  split at h
  · cases h
    exact placed
  · next t more follows =>
    split at h
    · cases h
      exact placed
    · obtain ⟨right, read, h⟩ := bind_eq_ok.mp h
      have : more.length < left.rest.length := by simp [follows]
      have := right.shorter
      obtain ⟨w, e, within⟩ := placed
      obtain ⟨v, e', within'⟩ := level_placed read
      refine chain_placed h ⟨w ++ t :: v, ?_, ?_⟩
      · exact append_trans e (follows.trans (congrArg (t :: ·) e'))
      · -- an operator has the place of its left operand
        have first := within left.value.position_mem
        simp only [positions, List.map_append, List.map_cons]
        refine List.cons_subset.mpr ⟨List.mem_append_left _ first, ?_⟩
        refine List.append_subset.mpr ⟨List.subset_append_of_subset_left _ within, ?_⟩
        exact List.subset_append_of_subset_right _ (List.subset_cons_of_subset _ within')
termination_by (left.rest.length, 0)

/-- The places of the arguments of a call are those of its tokens. -/
lemma call_placed {t : Token} {ts : List Token} {ph : Phrase (Instruction × List Expr) ts}
    (h : call eof t ts = .ok ph) : ph.Placed fun called => positionsOfList called.2 := by
  rw [call] at h
  split at h
  · cases h
  · obtain ⟨opened, read, h⟩ := bind_eq_ok.mp h
    obtain ⟨args, read', h⟩ := bind_eq_ok.mp h
    cases h
    have := opened.shorter
    obtain ⟨l, e, -⟩ := symbol_placed read
    rcases arguments_cases read' with ⟨r, e', -, none⟩ | read'
    · refine ⟨l ++ [r], append_trans e (v := [r]) e', ?_⟩
      simp only [none, positionsOfList]
      exact List.nil_subset _
    · obtain ⟨w, e', within⟩ := someArguments_placed read'
      refine ⟨l ++ w, append_trans e e', ?_⟩
      rw [List.map_append]
      exact List.subset_append_of_subset_right _ within
termination_by (ts.length, 0)

/-- The places of arguments are those of their tokens. -/
lemma someArguments_placed {ts : List Token} {ph : Phrase (List Expr) ts}
    (h : someArguments eof ts = .ok ph) : ph.Placed positionsOfList := by
  rw [someArguments] at h
  obtain ⟨first, read, h⟩ := bind_eq_ok.mp h
  obtain ⟨w, e, within⟩ := level_placed read
  have := first.shorter
  simp only at h
  split at h
  · cases h
  · next t rest follows =>
    have : rest.length < first.rest.length := by simp [follows]
    split at h
    · obtain ⟨others, read', h⟩ := bind_eq_ok.mp h
      cases h
      obtain ⟨v, e', within'⟩ := someArguments_placed read'
      refine ⟨w ++ t :: v, append_trans e (follows.trans (congrArg (t :: ·) e')), ?_⟩
      simp only [positionsOfList, List.map_append, List.map_cons]
      refine List.append_subset.mpr ⟨List.subset_append_of_subset_left _ within, ?_⟩
      exact List.subset_append_of_subset_right _ (List.subset_cons_of_subset _ within')
    · split at h
      · cases h
        refine ⟨w ++ [t], append_trans e (v := [t]) follows, ?_⟩
        simp only [positionsOfList, List.append_nil, List.map_append]
        exact List.subset_append_of_subset_left _ within
      · cases h
termination_by (ts.length, Operator.loosest + 2)

end

/-- The places of an expression are those of its tokens. -/
lemma expr_placed {ts : List Token} {ph : Phrase Expr ts} (h : expr eof ts = .ok ph) :
    ph.Placed positions :=
  level_placed h

/-- The places in the placing of the cursor are those of its tokens. -/
lemma spawn_placed {t : Token} {ts : List Token} {ph : Phrase Stmt ts}
    (h : spawn eof t ts = .ok ph) :
    ∃ w, ts = w ++ ph.rest ∧ ph.value.positions ⊆ (t :: w).map Token.position := by
  rw [spawn] at h
  obtain ⟨opened, read₁, h⟩ := bind_eq_ok.mp h
  obtain ⟨x, read₂, h⟩ := bind_eq_ok.mp h
  obtain ⟨comma, read₃, h⟩ := bind_eq_ok.mp h
  obtain ⟨y, read₄, h⟩ := bind_eq_ok.mp h
  obtain ⟨close, read₅, h⟩ := bind_eq_ok.mp h
  cases h
  obtain ⟨l, e₁, -⟩ := symbol_placed read₁
  obtain ⟨xs, e₂, inX⟩ := expr_placed read₂
  obtain ⟨c, e₃, -⟩ := symbol_placed read₃
  obtain ⟨ys, e₄, inY⟩ := expr_placed read₄
  obtain ⟨r, e₅, -⟩ := symbol_placed read₅
  refine ⟨l ++ xs ++ c ++ ys ++ r,
    append_trans (append_trans (append_trans (append_trans e₁ e₂) e₃) e₄) e₅, ?_⟩
  simp only [Stmt.positions, List.map_cons, List.map_append]
  grind

/-- The places in a jump are those of its tokens. -/
lemma jump_placed {t : Token} {ts : List Token} {ph : Phrase Stmt ts}
    (h : jump eof t ts = .ok ph) :
    ∃ w, ts = w ++ ph.rest ∧ ph.value.positions ⊆ (t :: w).map Token.position := by
  rw [jump] at h
  obtain ⟨opened, read₁, h⟩ := bind_eq_ok.mp h
  obtain ⟨label, read₂, h⟩ := bind_eq_ok.mp h
  obtain ⟨closed, read₃, h⟩ := bind_eq_ok.mp h
  obtain ⟨bracket, read₄, h⟩ := bind_eq_ok.mp h
  obtain ⟨condition, read₅, h⟩ := bind_eq_ok.mp h
  obtain ⟨close, read₆, h⟩ := bind_eq_ok.mp h
  cases h
  obtain ⟨o, e₁, -⟩ := symbol_placed read₁
  obtain ⟨name, e₂, -⟩ := labelName_sound read₂
  obtain ⟨c, e₃, -⟩ := symbol_placed read₃
  obtain ⟨l, e₄, -⟩ := symbol_placed read₄
  obtain ⟨w, e₅, within⟩ := expr_placed read₅
  obtain ⟨r, e₆, -⟩ := symbol_placed read₆
  refine ⟨o ++ [name] ++ c ++ l ++ w ++ r, ?_, ?_⟩
  · exact append_trans (append_trans (append_trans (append_trans (append_trans e₁ e₂) e₃) e₄) e₅) e₆
  · simp only [Stmt.positions, List.map_cons, List.map_append]
    grind

/-- The places in a statement are those of its tokens. -/
lemma statement_placed {t : Token} {ts : List Token} {ph : Phrase Stmt (t :: ts)}
    (h : statement eof t ts = .ok ph) : ph.Placed Stmt.positions := by
  rw [statement] at h
  split at h
  · obtain ⟨called, read, h⟩ := bind_eq_ok.mp h
    cases h
    obtain ⟨w, e, within⟩ := call_placed read
    exact ⟨t :: w, congrArg (t :: ·) e, List.cons_subset_cons _ within⟩
  · obtain ⟨jumped, read, h⟩ := bind_eq_ok.mp h
    cases h
    obtain ⟨w, e, within⟩ := jump_placed read
    exact ⟨t :: w, congrArg (t :: ·) e, within⟩
  · cases ts with
    | nil =>
      cases h
      exact ⟨[t], rfl, by simp [Stmt.positions]⟩
    | cons arrow more =>
      rw [named] at h
      split at h
      · obtain ⟨value, read, h⟩ := bind_eq_ok.mp h
        cases h
        obtain ⟨w, e, within⟩ := expr_placed read
        refine ⟨t :: arrow :: w, congrArg (t :: arrow :: ·) e, ?_⟩
        exact List.cons_subset_cons _ (List.subset_cons_of_subset _ within)
      · cases h
        exact ⟨[t], rfl, by simp [Stmt.positions]⟩
  · cases h

end Parser

/-- The tokens spell the statement, and its places are theirs. -/
structure Stmt.Written (stmt : Stmt) (own : List Token) : Prop where
  spelled : Grammar.Spawn own stmt.line ∨ Grammar.Statement own stmt.line
  placed : ∀ q ∈ stmt.positions, ∃ t ∈ own, t.position = q

/-- A statement is written inside of one line. -/
lemma Stmt.Written.inner {stmt : Stmt} {own : List Token} (written : stmt.Written own) :
    Grammar.Inner own := by
  rcases written.spelled with drv | drv
  · exact Grammar.inner_spawn drv
  · exact Grammar.inner_statement drv

namespace Parser

/-- A statement is written in the tokens that it is read from. -/
lemma statement_written {eof t : Token} {ts : List Token} {ph : Phrase Stmt (t :: ts)}
    (h : statement eof t ts = .ok ph) : ∃ w, t :: ts = w ++ ph.rest ∧ ph.value.Written w := by
  obtain ⟨w, e, drv⟩ := statement_sound h
  obtain ⟨w', e', within⟩ := statement_placed h
  obtain rfl := List.append_cancel_right (e.symm.trans e')
  exact ⟨w, e, .inr drv, fun q mem => List.mem_map.mp (within mem)⟩

/-- The placing of the cursor is written in the tokens that it is read from. -/
lemma spawn_written {eof t : Token} {ts : List Token} {ph : Phrase Stmt ts} (first : t.isSpawn)
    (h : spawn eof t ts = .ok ph) : ∃ w, ts = w ++ ph.rest ∧ ph.value.Written (t :: w) := by
  obtain ⟨w, e, drv⟩ := spawn_sound first h
  obtain ⟨w', e', within⟩ := spawn_placed h
  obtain rfl := List.append_cancel_right (e.symm.trans e')
  exact ⟨w, e, .inl drv, fun q mem => List.mem_map.mp (within mem)⟩

end Parser

namespace Token

/-- The tokens of each line that has any, without the line breaks. -/
def lines (ts : List Token) : List (List Token) :=
  (ts.splitOnP Parser.isNewLine).filter fun line => !line.isEmpty

/-- A line break at the beginning begins no line with tokens. -/
lemma lines_newLine {t : Token} (newLine : t.kind = .newLine) (ts : List Token) :
    lines (t :: ts) = lines ts := by
  rw [lines, List.splitOnP_cons_eq_if_modifyHead, if_pos (by simp [Parser.isNewLine, newLine])]
  rfl

/-- A statement that has ended is the first line. -/
lemma lines_ended {w ts all : List Token}
    {after : { rest : List Token // rest.length ≤ ts.length }} (e : all = w ++ ts)
    (inner : Grammar.Inner w) (some : w ≠ []) (ended : Parser.endStatement ts = .ok after) :
    lines all = w :: lines after.val := by
  subst e
  have solid : ∀ t ∈ w, Parser.isNewLine t = false :=
    fun t mem => by simp [Parser.isNewLine, (inner t mem).1]
  cases ts with
  | nil =>
    cases ended
    rw [List.append_nil, lines, List.splitOnP_eq_singleton solid,
      List.filter_cons_of_pos (by simpa using some)]
    rfl
  | cons t rest =>
    rw [Parser.endStatement] at ended
    split at ended
    · next newLine =>
      cases ended
      rw [lines, List.splitOnP_append_cons_of_forall_mem solid t newLine,
        List.filter_cons_of_pos (by simpa using some)]
      rfl
    · cases ended

/-- The tokens of a line are among those that were cut into lines. -/
lemma subset_of_mem_lines {ts line : List Token} (mem : line ∈ lines ts) : line ⊆ ts := by
  replace mem := (List.mem_filter.mp mem).1
  induction ts generalizing line with
  | nil =>
    rw [List.splitOnP_nil] at mem
    rw [List.mem_singleton.mp mem]
    exact List.nil_subset _
  | cons t ts ih =>
    rw [List.splitOnP_cons_eq_if_modifyHead] at mem
    split at mem
    · rcases List.mem_cons.mp mem with rfl | mem
      · exact List.nil_subset _
      · exact List.subset_cons_of_subset _ (ih mem)
    · obtain ⟨first, others, cut⟩ :=
        List.exists_cons_of_ne_nil (List.splitOnP_ne_nil Parser.isNewLine ts)
      rw [cut] at ih mem
      rcases List.mem_cons.mp mem with rfl | mem
      · exact List.cons_subset_cons _ (ih List.mem_cons_self)
      · exact List.subset_cons_of_subset _ (ih (List.mem_cons_of_mem _ mem))

end Token

namespace Parser

open Token

variable {eof : Token}

/-- Statements are written in the lines with tokens, one by one. -/
lemma statements_written {ts : List Token} {ss : List Stmt} (h : statements eof ts = .ok ss) :
    List.Forall₂ Stmt.Written ss (lines ts) := by
  cases ts with
  | nil =>
    rw [statements_nil] at h
    cases h
    exact .nil
  | cons t rest =>
    by_cases newLine : t.kind = .newLine
    · rw [statements_blank eof newLine] at h
      rw [lines_newLine newLine]
      exact statements_written h
    · rw [statements_cons eof newLine] at h
      obtain ⟨first, read, h⟩ := bind_eq_ok.mp h
      obtain ⟨after, ended, h⟩ := bind_eq_ok.mp h
      obtain ⟨others, read', h⟩ := bind_eq_ok.mp h
      cases h
      have less : after.val.length < rest.length + 1 :=
        Nat.lt_of_le_of_lt after.property first.shorter
      obtain ⟨w, e, written⟩ := statement_written read
      have some : w ≠ [] := by
        rintro rfl
        exact Nat.ne_of_lt first.shorter (congrArg List.length e).symm
      rw [lines_ended e written.inner some ended]
      exact .cons written (statements_written read')
termination_by ts.length

/-- The statements of a program are written in its lines. -/
lemma program_written {ts : List Token} {p : Program} (h : program eof ts = .ok p) :
    List.Forall₂ Stmt.Written p.statements.toList (lines ts) := by
  apply of_dropWhile_newLine (P := fun ts => List.Forall₂ Stmt.Written _ (lines ts))
  · intro t ts newLine written
    rwa [lines_newLine newLine]
  rw [program] at h
  split at h
  · cases h
  · next t rest found =>
    split at h
    · next isSpawn =>
      obtain ⟨first, read, h⟩ := bind_eq_ok.mp h
      obtain ⟨after, ended, h⟩ := bind_eq_ok.mp h
      obtain ⟨others, read', h⟩ := bind_eq_ok.mp h
      cases h
      obtain ⟨w, e, written⟩ := spawn_written isSpawn read
      rw [found, lines_ended (congrArg (t :: ·) e) written.inner (List.cons_ne_nil _ _) ended]
      exact .cons written (statements_written read')
    · cases h

end Parser

namespace Program

/-- The tokens of the statements, one by one: those of each line that has any, up to the end of the
text. -/
def statementTokens (ts : List Token) : List (List Token) := Token.lines (Grammar.front ts)

/-- The statements of a program are written, one by one, in the lines of its tokens. -/
lemma ofTokens_written {ts : List Token} {p : Program} (read : ofTokens ts = .ok p) :
    List.Forall₂ Stmt.Written p.statements.toList (statementTokens ts) := by
  rw [ofTokens_eq] at read
  exact Parser.program_written read

/-- The statement with a given index is written in the line with that index, and that line is part
of the text. -/
lemma ofTokens_statement {ts : List Token} {p : Program} (read : ofTokens ts = .ok p) {i : Nat}
    {stmt : Stmt} (found : p.statements[i]? = some stmt) :
    ∃ own, (statementTokens ts)[i]? = some own ∧ own ⊆ ts ∧ stmt.Written own := by
  obtain ⟨lengths, each⟩ := List.forall₂_iff_get.mp (ofTokens_written read)
  obtain ⟨inside, rfl⟩ := Array.getElem?_eq_some_iff.mp found
  have inside' : i < (statementTokens ts).length := lengths ▸ inside
  refine ⟨(statementTokens ts)[i], List.getElem?_eq_getElem inside', ?_, each i inside inside'⟩
  have among := Token.subset_of_mem_lines (List.getElem_mem inside')
  exact List.Subset.trans among (List.takeWhile_prefix _).subset

end Program

end Easel
