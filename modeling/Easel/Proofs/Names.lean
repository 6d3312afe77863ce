import Easel.Proofs.Lexemes
import Easel.Proofs.ParserComplete

/-!
# The names in a program

The names of variables and labels in a tree, in order of appearance (`Line.names`). In a program of
the grammar they are the identifiers among its tokens (`Grammar.names_word`), so in a program that
was compiled they are words (`Program.isWord_of_mem_names`).
-/

namespace Easel

variable {ν : Type}

mutual

/-- The names in an expression. -/
def Tree.names : Tree ν → List String
  | number _ => []
  | text _ => []
  | var name => [name]
  | binary left _ right => left.names ++ right.names
  | call _ arguments => namesOfAll arguments

/-- The names in some expressions. -/
def Tree.namesOfAll : List (Tree ν) → List String
  | [] => []
  | e :: rest => e.names ++ namesOfAll rest

end

/-- The names in a statement. -/
def Line.names : Line ν → List String
  | spawn x y => x.names ++ y.names
  | assign name value => name :: value.names
  | label name => [name]
  | goTo name condition => name :: condition.names
  | call _ arguments => Tree.namesOfAll arguments

namespace Token

/-- The lexemes of identifiers among some tokens. -/
def identifiers (ts : List Token) : List String :=
  (ts.filter (·.kind == .identifier)).map (·.lexeme)

/-- The identifiers of tokens come in their order. -/
@[simp]
lemma identifiers_append (ts us : List Token) :
    identifiers (ts ++ us) = identifiers ts ++ identifiers us := by
  simp [identifiers]

/-- A token adds its lexeme if it is an identifier. -/
@[simp]
lemma identifiers_cons (t : Token) (ts : List Token) : identifiers (t :: ts) =
    if t.kind = .identifier then t.lexeme :: identifiers ts else identifiers ts := by
  by_cases kind : t.kind = .identifier <;> simp [identifiers, kind]

/-- Without tokens there are no identifiers. -/
@[simp]
lemma identifiers_nil : identifiers [] = [] := rfl

end Token

namespace Grammar

open Token

mutual

/-- The names in an expression are its identifiers. -/
lemma names_level {n w e} : Level n w e → identifiers w = e.names
  | .number kind _ => by simp [kind, Tree.names]
  | .text kind _ => by simp [kind, Tree.names]
  | .var kind => by simp [kind, Tree.names]
  | .call drv => by simp [names_call drv, Tree.names]
  | .group sym drv sym' => by simp [symbol_kind sym, names_level drv, symbol_kind sym']
  | .minus kind _ drv => by simp [kind, names_level drv, Tree.names]
  | .lift drv => names_level drv
  | .binary drv kind _ _ drv' => by simp [names_level drv, kind, names_level drv', Tree.names]
termination_by structural h => h

/-- The names in a call are its identifiers. -/
lemma names_call {w i es} : Call w i es → identifiers w = Tree.namesOfAll es
  | .empty kind _ sym sym' => by simp [kind, symbol_kind sym, symbol_kind sym', Tree.namesOfAll]
  | .apply kind _ sym drv sym' => by
    simp [kind, symbol_kind sym, names_arguments drv, symbol_kind sym']
termination_by structural h => h

/-- The names in arguments are their identifiers. -/
lemma names_arguments {w es} : Arguments w es → identifiers w = Tree.namesOfAll es
  | .one drv => by simp [names_level drv, Tree.namesOfAll]
  | .cons drv sym drv' => by
    simp [names_level drv, symbol_kind sym, names_arguments drv', Tree.namesOfAll]
termination_by structural h => h

end

/-- The names in a statement are its identifiers. -/
lemma names_statement {w : List Token} {l : Line Float} (drv : Statement w l) :
    identifiers w = l.names := by
  cases drv with
  | assign kind arrow drv =>
    rcases Bool.or_eq_true_iff.mp arrow with sym | sym <;>
      simp [kind, symbol_kind sym, names_level drv, Line.names]
  | call drv => exact names_call drv
  | label kind => simp [kind, Line.names]
  | goTo kind sym₁ kind₂ sym₃ sym₄ drv sym₆ =>
    simp [kind, symbol_kind sym₁, kind₂, symbol_kind sym₃, symbol_kind sym₄, names_level drv,
      symbol_kind sym₆, Line.names]

/-- The names in the placing of the cursor are its identifiers. -/
lemma names_spawn {w : List Token} {l : Line Float} (drv : Spawn w l) :
    identifiers w = l.names := by
  obtain ⟨first, sym₁, drv₁, sym₂, drv₂, sym₃⟩ := drv
  obtain ⟨kind, -⟩ := Bool.and_eq_true_iff.mp first
  simp [eq_of_beq kind, symbol_kind sym₁, names_level drv₁, symbol_kind sym₂, names_level drv₂,
    symbol_kind sym₃, Line.names]

/-- The names in statements are their identifiers. -/
lemma names_statements {w : List Token} {ls : List (Line Float)} (drv : Statements w ls) :
    identifiers w = ls.flatMap Line.names := by
  induction drv with
  | nil => rfl
  | blank kind _ ih => simp [kind, ih]
  | last drv => simp [names_statement drv]
  | cons drv kind _ ih => simp [names_statement drv, kind, ih]

/-- The names in a program are the identifiers of its word, in order. -/
lemma names_word {w : List Token} {ls : List (Line Float)} (drv : Word w ls) :
    identifiers w = ls.flatMap Line.names := by
  induction drv with
  | blank kind _ ih => simp [kind, ih]
  | last drv => simp [names_spawn drv]
  | cons drv kind drv' => simp [names_spawn drv, kind, names_statements drv']

end Grammar

/-- A lexeme of the form of identifiers is a word. -/
lemma Piece.Formed.isWord {afterOperand : Bool} {w : Piece} (formed : Formed afterOperand w)
    (kind : w.kind = .identifier) : Text.isWord w.text := by
  cases formed with
  | word isWord => exact isWord
  | _ => cases kind

/-- No line ends within a word. -/
lemma Text.newLine_not_mem_of_isWord {s : String} (word : isWord s) : '\n' ∉ s.toList := by
  have first : beginsWord '\n' = false := by decide +kernel
  have later : continuesWord '\n' = false := by decide +kernel
  rw [isWord] at word
  cases shape : s.toList with
  | nil => exact List.not_mem_nil
  | cons c cs =>
    rw [shape, Bool.and_eq_true, List.all_eq_true] at word
    intro mem
    rcases List.mem_cons.mp mem with rfl | inside
    · rw [first] at word
      exact absurd word.1 Bool.false_ne_true
    · have other := word.2 _ inside
      rw [later] at other
      exact absurd other Bool.false_ne_true

/-- The names in a compiled program are words. -/
lemma Program.isWord_of_mem_names {source : String} {p : Program}
    (compiled : compile source = .ok p) {l : Line Float} (line : l ∈ p.lines) {name : String}
    (mem : name ∈ l.names) : Text.isWord name := by
  obtain ⟨ts, scanned, parsed⟩ := bind_eq_ok.mp compiled
  obtain ⟨us, q, rfl, -, formed⟩ := Token.scanFrom_formed .start false source.toList scanned
  have names := Grammar.names_word (word_iff.mpr ⟨p, parsed, rfl⟩)
  have before : ∀ t ∈ us, t.kind ≠ .eof := fun t inside => (formed t inside).elim fun _ form =>
    form.ne_eof
  rw [Grammar.front_append [] rfl, Grammar.front_of_forall before] at names
  have found : name ∈ Token.identifiers us := by
    rw [names]
    exact List.mem_flatMap.mpr ⟨l, line, mem⟩
  obtain ⟨t, inside, rfl⟩ := List.mem_map.mp found
  obtain ⟨inside, kind⟩ := List.mem_filter.mp inside
  obtain ⟨_, form⟩ := formed t inside
  exact form.isWord (eq_of_beq kind)

end Easel
