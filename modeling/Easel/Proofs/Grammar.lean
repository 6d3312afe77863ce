import Easel.Program.Parser
import Easel.Proofs.Tree
import Mathlib.Data.List.TakeWhile

/-!
# The grammar of programs

The language that programs are read from, as relations between lists of tokens and trees. The
grammar of expressions is stratified: level 0 holds operands, and each level above it adds the
operators of one strength, all of them associating to the left (`Level.binary`). The relations are
stated without the reader, which they are compared with elsewhere.
-/

namespace Easel.Grammar

/-- The operators of each level, from the tightest to the loosest. -/
def operators : Nat → List Operator
  | 1 => [.pow]
  | 2 => [.mul, .div, .mod]
  | 3 => [.add, .sub]
  | 4 => [.eq, .notEq, .lt, .gt, .ltEq, .gtEq]
  | 5 => [.and]
  | 6 => [.or]
  | _ => []

/-- The level of a whole expression, which is that of disjunction. -/
def top : Nat := 6

/-- The level that an operator belongs to. -/
def levelOf (op : Operator) : Nat :=
  ((List.range (top + 1)).find? fun n => op ∈ operators n).getD 0

/-- The lexeme is the text with quotes before and after it, and the text has none at either end. -/
def Quoted (lexeme text : String) : Prop :=
  ∃ before after : Nat,
    lexeme.toList = List.replicate before '"' ++ text.toList ++ List.replicate after '"' ∧
      text.toList.head? ≠ some '"' ∧ text.toList.getLast? ≠ some '"'

mutual

/-- The tokens spell the expression, and no operator outside of brackets is looser than the
level. -/
inductive Level : Nat → List Token → Tree Float → Prop where
  | number {t n} :
    t.kind = .number →
    Number.ofText? t.lexeme = some n →
    Level 0 [t] (.number n)
  | text {t s} :
    t.kind = .string →
    Quoted t.lexeme s →
    Level 0 [t] (.text s)
  | var {t} :
    t.kind = .identifier →
    Level 0 [t] (.var t.lexeme)
  | call {ts i es} :
    Call ts i es →
    Level 0 ts (.call i es)
  | group {l r ts e} :
    l.isSymbol "(" →
    Level top ts e →
    r.isSymbol ")" →
    Level 0 (l :: ts ++ [r]) e
  | minus {t ts e} :
    t.kind = .operator →
    t.lexeme = "-" →
    Level 0 ts e →
    Level 0 (t :: ts) (.binary (.number 0.0) .sub e)
  | lift {n ts e} :
    Level n ts e →
    Level (n + 1) ts e
  | binary {n ls l t op rs r} :
    Level (n + 1) ls l →
    t.kind = .operator →
    t.lexeme = op.symbol →
    op ∈ operators (n + 1) →
    Level n rs r →
    Level (n + 1) (ls ++ t :: rs) (.binary l op r)

/-- The tokens spell a call of the instruction with the arguments. -/
inductive Call : List Token → Instruction → List (Tree Float) → Prop where
  | empty {t i l r} :
    t.kind = .function →
    t.lexeme = i.name →
    l.isSymbol "(" →
    r.isSymbol ")" →
    Call [t, l, r] i []
  | apply {t i l ts es r} :
    t.kind = .function →
    t.lexeme = i.name →
    l.isSymbol "(" →
    Arguments ts es →
    r.isSymbol ")" →
    Call (t :: l :: ts ++ [r]) i es

/-- The tokens spell one expression or more, divided by commas. -/
inductive Arguments : List Token → List (Tree Float) → Prop where
  | one {ts e} :
    Level top ts e →
    Arguments ts [e]
  | cons {ts e c us es} :
    Level top ts e →
    c.isSymbol "," →
    Arguments us es →
    Arguments (ts ++ c :: us) (e :: es)

end

/-- The tokens spell a statement other than the one that places the cursor. -/
inductive Statement : List Token → Line Float → Prop where
  | assign {t a ts e} :
    t.kind = .identifier →
    a.isArrow →
    Level top ts e →
    Statement (t :: a :: ts) (.assign t.lexeme e)
  | call {ts i es} :
    Call ts i es →
    Statement ts (.call i es)
  | label {t} :
    t.kind = .identifier →
    Statement [t] (.label t.lexeme)
  | goTo {t o name c l ts e r} :
    t.kind = .goTo →
    o.isSymbol "[" →
    name.kind = .identifier →
    c.isSymbol "]" →
    l.isSymbol "(" →
    Level top ts e →
    r.isSymbol ")" →
    Statement (t :: o :: name :: c :: l :: ts ++ [r]) (.goTo name.lexeme e)

/-- The tokens spell the statement that places the cursor. -/
inductive Spawn : List Token → Line Float → Prop where
  | intro {t l xs x c ys y r} :
    t.isSpawn →
    l.isSymbol "(" →
    Level top xs x →
    c.isSymbol "," →
    Level top ys y →
    r.isSymbol ")" →
    Spawn (t :: l :: xs ++ c :: ys ++ [r]) (.spawn x y)

/-- The tokens spell statements, each of which ends with its line or with the text. Blank lines may
stand anywhere. -/
inductive Statements : List Token → List (Line Float) → Prop where
  | nil : Statements [] []
  | blank {t ts ls} :
    t.kind = .newLine →
    Statements ts ls →
    Statements (t :: ts) ls
  | last {ts l} :
    Statement ts l →
    Statements ts [l]
  | cons {ts l t us ls} :
    Statement ts l →
    t.kind = .newLine →
    Statements us ls →
    Statements (ts ++ t :: us) (l :: ls)

/-- The tokens spell a program: the cursor is placed first, and other statements follow. -/
inductive Word : List Token → List (Line Float) → Prop where
  | blank {t ts ls} :
    t.kind = .newLine →
    Word ts ls →
    Word (t :: ts) ls
  | last {ts l} :
    Spawn ts l →
    Word ts [l]
  | cons {ts l t us ls} :
    Spawn ts l →
    t.kind = .newLine →
    Statements us ls →
    Word (ts ++ t :: us) (l :: ls)

/-- The operators of a level are those that have it. -/
lemma mem_operators {op : Operator} {n : Nat} : op ∈ operators n ↔ op.level = n := by
  match n with
  | 0 | 1 | 2 | 3 | 4 | 5 | 6 => cases op <;> decide
  | n + 7 => cases op <;> simp [operators, Operator.level]

/-- Every operator belongs to the level that is found for it. -/
lemma mem_operators_levelOf (op : Operator) : op ∈ operators (levelOf op) := by
  cases op <;> decide

/-- There are operators on all levels but that of operands. -/
lemma levelOf_bounds (op : Operator) : 1 ≤ levelOf op ∧ levelOf op ≤ top := by
  cases op <;> decide

/-- An expression of a level is one of each looser level. -/
lemma Level.mono {m n : Nat} {ts : List Token} {e : Tree Float} (le : m ≤ n)
    (drv : Level m ts e) : Level n ts e := by
  induction le with
  | refl => exact drv
  | step _ ih => exact .lift ih

/-- A run of one character is passed over, up to the first other character. -/
lemma dropWhile_replicate {c : Char} {cs : List Char} (n : Nat) (first : cs.head? ≠ some c) :
    (List.replicate n c ++ cs).dropWhile (· == c) = cs := by
  rw [List.dropWhile_append_of_pos (by simp)]
  exact List.dropWhile_beq_eq_self_of_head?_ne first

/-- A list is a run of quotes, and then something that does not begin with one. -/
lemma quotes_append_dropWhile (cs : List Char) :
    (∃ n, cs = List.replicate n '"' ++ cs.dropWhile (· == '"')) ∧
      (cs.dropWhile (· == '"')).head? ≠ some '"' := by
  constructor
  · refine ⟨(cs.takeWhile (· == '"')).length, ?_⟩
    have quotes : cs.takeWhile (· == '"') = List.replicate (cs.takeWhile (· == '"')).length '"' :=
      List.eq_replicate_iff.mpr ⟨rfl, fun c mem => by simpa using List.mem_takeWhile_imp mem⟩
    rw [← quotes, List.takeWhile_append_dropWhile]
  · intro e
    have other := List.head?_dropWhile_not (· == '"') cs
    rw [e] at other
    simp at other

/-- The text between the quotes of a lexeme is the only one that the lexeme quotes. -/
lemma quoted_iff {lexeme text : String} : Quoted lexeme text ↔ Parser.unquote lexeme = text := by
  have unquoted : (Parser.unquote lexeme).toList =
      ((lexeme.toList.dropWhile (· == '"')).reverse.dropWhile (· == '"')).reverse := by
    simp [Parser.unquote]
  constructor
  · rintro ⟨before, after, e, first, last⟩
    apply String.toList_inj.mp
    rw [unquoted, e, List.append_assoc, List.dropWhile_append_of_pos (by simp)]
    cases shape : text.toList with
    | nil => simp
    | cons c cs =>
      rw [shape] at first last
      have opened : (c :: cs ++ List.replicate after '"').dropWhile (· == '"') =
          c :: cs ++ List.replicate after '"' :=
        List.dropWhile_beq_eq_self_of_head?_ne first
      rw [opened, List.reverse_append, List.reverse_replicate,
        dropWhile_replicate after (by rwa [List.head?_reverse]), List.reverse_reverse]
  · rintro rfl
    obtain ⟨⟨before, front⟩, first⟩ := quotes_append_dropWhile lexeme.toList
    obtain ⟨⟨after, back⟩, last⟩ :=
      quotes_append_dropWhile (lexeme.toList.dropWhile (· == '"')).reverse
    have opened : lexeme.toList.dropWhile (· == '"') =
        (Parser.unquote lexeme).toList ++ List.replicate after '"' := by
      rw [unquoted, ← List.reverse_replicate, ← List.reverse_append, ← back, List.reverse_reverse]
    refine ⟨before, after, ?_, ?_, ?_⟩
    · rw [List.append_assoc, ← opened]
      exact front
    · intro e
      rw [opened, List.head?_append, e] at first
      exact first rfl
    · rw [unquoted, List.getLast?_reverse]
      exact last

/-- None of the tokens breaks the line or marks the end of the text. -/
def Inner (w : List Token) : Prop := ∀ t ∈ w, t.kind ≠ .newLine ∧ t.kind ≠ .eof

@[simp] lemma inner_nil : Inner [] := nofun

@[simp] lemma inner_cons {t : Token} {w : List Token} :
    Inner (t :: w) ↔ (t.kind ≠ .newLine ∧ t.kind ≠ .eof) ∧ Inner w := List.forall_mem_cons

@[simp] lemma inner_append {w v : List Token} : Inner (w ++ v) ↔ Inner w ∧ Inner v :=
  List.forall_mem_append

/-- A token that is a given symbol is a symbol. -/
lemma symbol_kind {lexeme : String} {t : Token} (sym : t.isSymbol lexeme) : t.kind = .symbol := by
  obtain ⟨kind, -⟩ : t.kind = .symbol ∧ t.lexeme = lexeme := by simpa [Token.isSymbol] using sym
  exact kind

mutual

/-- Expressions hold no line break. -/
lemma inner_level {n w e} : Level n w e → Inner w
  | .number kind _ => by simp [kind]
  | .text kind _ => by simp [kind]
  | .var kind => by simp [kind]
  | .call drv => inner_call drv
  | .group sym drv sym' => by simp [symbol_kind sym, inner_level drv, symbol_kind sym']
  | .minus kind _ drv => by simp [kind, inner_level drv]
  | .lift drv => inner_level drv
  | .binary drv kind _ _ drv' => by simp [inner_level drv, kind, inner_level drv']
termination_by structural h => h

/-- Calls hold no line break. -/
lemma inner_call {w i es} : Call w i es → Inner w
  | .empty kind _ sym sym' => by simp [kind, symbol_kind sym, symbol_kind sym']
  | .apply kind _ sym drv sym' => by
    simp [kind, symbol_kind sym, inner_arguments drv, symbol_kind sym']
termination_by structural h => h

/-- Arguments hold no line break. -/
lemma inner_arguments {w es} : Arguments w es → Inner w
  | .one drv => inner_level drv
  | .cons drv sym drv' => by simp [inner_level drv, symbol_kind sym, inner_arguments drv']
termination_by structural h => h

end

/-- Statements hold no line break. -/
lemma inner_statement {w : List Token} {l : Line Float} (drv : Statement w l) : Inner w := by
  cases drv with
  | assign kind arrow drv =>
    rcases Bool.or_eq_true_iff.mp arrow with sym | sym <;>
      simp [kind, symbol_kind sym, inner_level drv]
  | call drv => exact inner_call drv
  | label kind => simp [kind]
  | goTo kind sym₁ kind₂ sym₃ sym₄ drv sym₆ =>
    simp [kind, symbol_kind sym₁, kind₂, symbol_kind sym₃, symbol_kind sym₄, inner_level drv,
      symbol_kind sym₆]

/-- The placing of the cursor holds no line break. -/
lemma inner_spawn {w : List Token} {l : Line Float} (drv : Spawn w l) : Inner w := by
  obtain ⟨first, sym₁, drv₁, sym₂, drv₂, sym₃⟩ := drv
  obtain ⟨kind, -⟩ := Bool.and_eq_true_iff.mp first
  simp [eq_of_beq kind, symbol_kind sym₁, inner_level drv₁, symbol_kind sym₂, inner_level drv₂,
    symbol_kind sym₃]

end Easel.Grammar
