import Easel.Proofs.Lexemes
import Easel.Proofs.Printing
import Easel.Proofs.ViablePrefix

/-!
# Tokens that can be read

The scan and the parser know the forms of words each on their own. They agree: whatever the parser
takes from the lexeme of a token that was scanned is there (`Token.Legible`). So of the faults that
the parser can find (`Blames`), two are ruled out for a text that was scanned. No number token is
no numeral, and the name in a call is only unknown if it places the cursor
(`Program.compile_legible`).
-/

namespace Easel

/-- What the parser takes from the lexeme of the token is there, and a name is not reserved. -/
def Token.Legible (t : Token) : Prop :=
  match t.kind with
  | .number => (Number.ofText? t.lexeme).isSome
  | .string => ∃ body : String,
    t.lexeme = "\"" ++ body ++ "\"" ∧ '"' ∉ body.toList ∧ Parser.unquote t.lexeme = body
  | .operator => (Operator.ofSymbol? t.lexeme).isSome
  | .function => t.lexeme = spawnWord ∨ ∃ i : Instruction, t.lexeme = i.name
  | .identifier =>
    t.lexeme ≠ goToWord ∧ t.lexeme ≠ spawnWord ∧ ∀ i : Instruction, t.lexeme ≠ i.name
  | .goTo | .symbol | .newLine | .eof => True

namespace Piece

/-- A word is legible, whether it is reserved or a name. -/
lemma legible_word (s : String) (p : Position) : ((word s).put p).Legible := by
  change Token.Legible ⟨Token.classifyWord s, s, p⟩
  rw [Token.classifyWord]
  split
  · trivial
  · next noJump =>
    split
    · next reserved =>
      rcases reserved with spawn | named
      · exact .inl spawn
      · obtain ⟨i, found⟩ := Option.isSome_iff_exists.mp named
        exact .inr ⟨i, (Instruction.name_of_ofName? found).symm⟩
    · next free =>
      obtain ⟨noSpawn, unnamed⟩ := not_or.mp free
      refine ⟨noJump, noSpawn, fun i same => unnamed ?_⟩
      rw [show s = i.name from same, Instruction.ofName?_name]
      rfl

/-- What has the form of its kind is legible. -/
lemma Formed.legible {afterOperand : Bool} {w : Piece} (formed : Formed afterOperand w)
    (p : Position) : (w.put p).Legible := by
  cases formed with
  | newLine | crlf | symbol => trivial
  | @quote s unquoted =>
    exact ⟨s, rfl, unquoted, Grammar.quoted_iff.mp (Grammar.quoted_of_unquoted unquoted)⟩
  | operator op =>
    change (Operator.ofSymbol? op.symbol).isSome
    rw [op.ofSymbol?_symbol]
    rfl
  | @number x => exact x.isSome_ofText?
  | @word s => exact legible_word s p

end Piece

/-- The diagnostics that the parser can give for some tokens. -/
inductive Blames (ts : List Token) : Diagnostic → Prop where
  | unexpected (expected : Expectation) (t : Token) : Blames ts (Parser.unexpected expected t)
  | notAStatement (t : Token) : Blames ts ((Fault.notAStatement t).diagnose t.position)
  | trailingToken (t : Token) : Blames ts ((Fault.trailingToken t).diagnose t.position)
  | missingSpawn (t : Token) : Blames ts ((Fault.missingSpawn t).diagnose t.position)
  | invalidNumber {t : Token} (mem : t ∈ ts) (kind : t.kind = .number)
    (unread : Number.ofText? t.lexeme = none) :
    Blames ts ((Fault.invalidNumber t.lexeme).diagnose t.position)
  | repeatedSpawn {t : Token} (mem : t ∈ ts) (kind : t.kind = .function)
    (unnamed : Instruction.ofName? t.lexeme = none) :
    Blames ts (Fault.repeatedSpawn.diagnose t.position)

/-- What a text begins with does not depend on what follows. -/
lemma head?_append {c : Char} {s : String} (first : s.toList.head? = some c) (t : String) :
    (s ++ t).toList.head? = some c := by
  rw [String.toList_append, List.head?_append, first]
  rfl

namespace Diagnostic

/-- The first letter of the message. -/
def initial? (d : Diagnostic) : Option Char := d.message.toList.head?

/-- Messages about unexpected tokens begin with an e. -/
lemma initial?_unexpected (expected : Expectation) (t : Token) :
    (Parser.unexpected expected t).initial? = some 'e' := by
  have opening : ("expected " ++ expected.text).toList.head? = some 'e' :=
    head?_append (by decide +kernel) _
  rw [Parser.unexpected]
  split
  · exact head?_append opening _
  · exact head?_append opening _
  · exact head?_append (head?_append opening _) _

/-- Messages about invalid numbers begin with an i. -/
lemma initial?_invalidNumber (lexeme : String) (p : Position) :
    ((Fault.invalidNumber lexeme).diagnose p).initial? = some 'i' :=
  head?_append (head?_append (by decide +kernel) _) _

/-- Messages about a second placing of the cursor begin with a backtick. -/
lemma initial?_repeatedSpawn (p : Position) :
    (Fault.repeatedSpawn.diagnose p).initial? = some '`' := by
  change ("`Spawn` may only appear once, as the first instruction").toList.head? = some '`'
  decide +kernel

end Diagnostic

namespace Blames

open Diagnostic

variable {ts : List Token} {d : Diagnostic}

/-- The first letter tells the faults of a number and of a name in a call from each other and from
all others. -/
lemma initial (blames : Blames ts d) :
    d.initial? = some 'e' ∨ d.initial? = some 'p' ∨
    (d.initial? = some 'i' ∧ ∃ t ∈ ts, t.kind = .number ∧ Number.ofText? t.lexeme = none) ∨
    (d.initial? = some '`' ∧ ∃ t ∈ ts, t.kind = .function ∧
      Instruction.ofName? t.lexeme = none ∧ t.position = d.position) := by
  cases blames with
  | unexpected expected t => exact .inl (initial?_unexpected expected t)
  | notAStatement t => exact .inl (head?_append (by decide +kernel) _)
  | trailingToken t => exact .inl (head?_append (by decide +kernel) _)
  | missingSpawn t => exact .inr (.inl (head?_append (by decide +kernel) _))
  | @invalidNumber t mem kind unread =>
    exact .inr (.inr (.inl ⟨initial?_invalidNumber _ _, t, mem, kind, unread⟩))
  | @repeatedSpawn t mem kind unnamed =>
    exact .inr (.inr (.inr ⟨initial?_repeatedSpawn _, t, mem, kind, unnamed, rfl⟩))

/-- A number is only blamed if it is no numeral. -/
lemma unread {lexeme : String} {p : Position}
    (blames : Blames ts ((Fault.invalidNumber lexeme).diagnose p)) :
    ∃ t ∈ ts, t.kind = .number ∧ Number.ofText? t.lexeme = none := by
  have known := blames.initial
  rw [initial?_invalidNumber] at known
  rcases known with e | p | ⟨-, found⟩ | ⟨quote, -⟩
  · cases e
  · cases p
  · exact found
  · cases quote

/-- A call is only blamed for placing the cursor if its name is no instruction. -/
lemma unnamed {p : Position} (blames : Blames ts (Fault.repeatedSpawn.diagnose p)) :
    ∃ t ∈ ts, t.kind = .function ∧ Instruction.ofName? t.lexeme = none ∧ t.position = p := by
  have known := blames.initial
  rw [initial?_repeatedSpawn] at known
  rcases known with e | p | ⟨i, -⟩ | ⟨-, found⟩
  · cases e
  · cases p
  · cases i
  · exact found

end Blames

/-- What is left is among the tokens, and so is what a diagnostic is about. -/
def DrawsOn (ts : List Token) {α : Type} (left : α → List Token) : Except Diagnostic α → Prop
  | .ok a => left a ⊆ ts
  | .error d => Blames ts d

/-- Work in two parts draws on the tokens if the second part does with what the first one leaves. -/
lemma DrawsOn.bind {ts : List Token} {α β : Type} {left : α → List Token} {left' : β → List Token}
    {x : Except Diagnostic α} {f : α → Except Diagnostic β} (first : DrawsOn ts left x)
    (rest : ∀ a, left a ⊆ ts → DrawsOn ts left' (f a)) : DrawsOn ts left' (x >>= f) := by
  cases x with
  | error d => exact first
  | ok a => exact rest a first

namespace Parser

variable {eof : Token} {all : List Token}

/-- Reading a symbol draws on the tokens. -/
lemma symbol_drawsOn (lexeme : String) {ts : List Token} (within : ts ⊆ all) :
    DrawsOn all Phrase.rest (symbol eof lexeme ts) := by
  cases ts with
  | nil => exact .unexpected _ _
  | cons t rest =>
    rw [symbol]
    split
    · exact List.subset_of_cons_subset within
    · exact .unexpected _ _

mutual

/-- Reading an operand draws on the tokens. -/
lemma factor_drawsOn {ts : List Token} (within : ts ⊆ all) :
    DrawsOn all Phrase.rest (factor eof ts) := by
  cases ts with
  | nil =>
    rw [factor]
    exact .unexpected _ _
  | cons t rest =>
    have within' := List.subset_of_cons_subset within
    have mem : t ∈ all := within List.mem_cons_self
    rw [factor]
    cases kind : t.kind with
    | number =>
      simp only
      cases read : Number.ofText? t.lexeme with
      | none => exact .invalidNumber mem kind read
      | some n => exact within'
    | string => exact within'
    | identifier => exact within'
    | function => exact (call_drawsOn mem kind within').bind fun _ left => left
    | symbol =>
      simp only
      split
      · refine (level_drawsOn Operator.loosest within').bind fun inner left => ?_
        exact (symbol_drawsOn ")" left).bind fun _ left => left
      · exact .unexpected _ _
    | operator =>
      simp only
      split
      · exact (factor_drawsOn within').bind fun _ left => left
      · exact .unexpected _ _
    | goTo | newLine | eof => exact .unexpected _ _
termination_by (ts.length, 0)

/-- Reading an expression of a level draws on the tokens. -/
lemma level_drawsOn (n : Nat) {ts : List Token} (within : ts ⊆ all) :
    DrawsOn all Phrase.rest (level eof n ts) := by
  cases n with
  | zero =>
    rw [level]
    exact factor_drawsOn within
  | succ n =>
    rw [level]
    refine (level_drawsOn n within).bind fun first left => ?_
    have := first.shorter
    exact chain_drawsOn n left
termination_by (ts.length, n + 1)

/-- Reading a chain of operators draws on the tokens. -/
lemma chain_drawsOn (n : Nat) {ts : List Token} {first : Phrase Expr ts}
    (within : first.rest ⊆ all) : DrawsOn all Phrase.rest (chain eof n first) := by
  rw [chain]
  split
  · exact within
  · next t more follows =>
    split
    · exact within
    · have : more.length < first.rest.length := by simp [follows]
      rw [follows] at within
      refine (level_drawsOn n (List.subset_of_cons_subset within)).bind fun right left => ?_
      have := right.shorter
      exact chain_drawsOn n left
termination_by (first.rest.length, 0)

/-- Reading a call draws on the tokens. -/
lemma call_drawsOn {t : Token} {ts : List Token} (mem : t ∈ all) (kind : t.kind = .function)
    (within : ts ⊆ all) : DrawsOn all Phrase.rest (call eof t ts) := by
  rw [call]
  split
  · next unnamed => exact .repeatedSpawn mem kind unnamed
  · refine (symbol_drawsOn "(" within).bind fun opened left => ?_
    have := opened.shorter
    exact (arguments_drawsOn left).bind fun _ left => left
termination_by (ts.length, 0)

/-- Reading arguments draws on the tokens. -/
lemma arguments_drawsOn {ts : List Token} (within : ts ⊆ all) :
    DrawsOn all Phrase.rest (arguments eof ts) := by
  have some := someArguments_drawsOn within
  cases ts with
  | nil =>
    rw [arguments]
    exact some
  | cons t rest =>
    rw [arguments]
    split
    · exact List.subset_of_cons_subset within
    · exact some
termination_by (ts.length, Operator.loosest + 3)

/-- Reading further arguments draws on the tokens. -/
lemma someArguments_drawsOn {ts : List Token} (within : ts ⊆ all) :
    DrawsOn all Phrase.rest (someArguments eof ts) := by
  rw [someArguments]
  refine (level_drawsOn Operator.loosest within).bind fun first left => ?_
  have := first.shorter
  simp only
  split
  · exact .unexpected _ _
  · next t rest follows =>
    have : rest.length < first.rest.length := by simp [follows]
    rw [follows] at left
    have left' := List.subset_of_cons_subset left
    split
    · exact (someArguments_drawsOn left').bind fun _ left => left
    · split
      · exact left'
      · exact .unexpected _ _
termination_by (ts.length, Operator.loosest + 2)

end

/-- Reading an expression draws on the tokens. -/
lemma expr_drawsOn {ts : List Token} (within : ts ⊆ all) :
    DrawsOn all Phrase.rest (expr eof ts) :=
  level_drawsOn Operator.loosest within

/-- Reading the placing of the cursor draws on the tokens. -/
lemma spawn_drawsOn {t : Token} {ts : List Token} (within : ts ⊆ all) :
    DrawsOn all Phrase.rest (spawn eof t ts) := by
  refine (symbol_drawsOn "(" within).bind fun opened left => ?_
  refine (expr_drawsOn left).bind fun x left => ?_
  refine (symbol_drawsOn "," left).bind fun comma left => ?_
  refine (expr_drawsOn left).bind fun y left => ?_
  exact (symbol_drawsOn ")" left).bind fun _ left => left

/-- Reading the name of a label draws on the tokens. -/
lemma labelName_drawsOn {ts : List Token} (within : ts ⊆ all) :
    DrawsOn all Phrase.rest (labelName eof ts) := by
  cases ts with
  | nil => exact .unexpected _ _
  | cons t rest =>
    rw [labelName]
    split
    · exact List.subset_of_cons_subset within
    · exact .unexpected _ _

/-- Reading a jump draws on the tokens. -/
lemma jump_drawsOn {t : Token} {ts : List Token} (within : ts ⊆ all) :
    DrawsOn all Phrase.rest (jump eof t ts) := by
  refine (symbol_drawsOn "[" within).bind fun opened left => ?_
  refine (labelName_drawsOn left).bind fun label left => ?_
  refine (symbol_drawsOn "]" left).bind fun closed left => ?_
  refine (symbol_drawsOn "(" left).bind fun bracket left => ?_
  refine (expr_drawsOn left).bind fun condition left => ?_
  exact (symbol_drawsOn ")" left).bind fun _ left => left

/-- Reading what begins with a name draws on the tokens. -/
lemma named_drawsOn {t : Token} {ts : List Token} (within : ts ⊆ all) :
    DrawsOn all Phrase.rest (named eof t ts) := by
  cases ts with
  | nil => exact within
  | cons arrow more =>
    rw [named]
    split
    · exact (expr_drawsOn (List.subset_of_cons_subset within)).bind fun _ left => left
    · exact within

/-- Reading a statement draws on the tokens. -/
lemma statement_drawsOn {t : Token} {ts : List Token} (within : t :: ts ⊆ all) :
    DrawsOn all Phrase.rest (statement eof t ts) := by
  have within' := List.subset_of_cons_subset within
  rw [statement]
  split
  · next kind =>
    exact (call_drawsOn (within List.mem_cons_self) kind within').bind fun _ left => left
  · exact (jump_drawsOn within').bind fun _ left => left
  · exact named_drawsOn within'
  · exact .notAStatement t

/-- Reading the end of a statement draws on the tokens. -/
lemma endStatement_drawsOn {ts : List Token} (within : ts ⊆ all) :
    DrawsOn all Subtype.val (endStatement ts) := by
  cases ts with
  | nil => exact within
  | cons t rest =>
    rw [endStatement]
    split
    · exact List.subset_of_cons_subset within
    · exact .trailingToken t

/-- Reading the statements up to the end draws on the tokens. -/
lemma statements_drawsOn {ts : List Token} (within : ts ⊆ all) :
    DrawsOn all (fun _ => []) (statements eof ts) := by
  cases ts with
  | nil =>
    rw [statements_nil]
    exact List.nil_subset all
  | cons t rest =>
    by_cases newLine : t.kind = .newLine
    · rw [statements_blank eof newLine]
      exact statements_drawsOn (List.subset_of_cons_subset within)
    · rw [statements_cons eof newLine]
      refine (statement_drawsOn within).bind fun first left => ?_
      refine (endStatement_drawsOn left).bind fun after left => ?_
      have less : after.val.length < rest.length + 1 :=
        Nat.lt_of_le_of_lt after.property first.shorter
      exact (statements_drawsOn left).bind fun _ left => left
termination_by ts.length

/-- A program is read from its tokens, and no diagnostic is about anything else. -/
lemma program_drawsOn {ts : List Token} (within : ts ⊆ all) :
    DrawsOn all (fun _ => []) (program eof ts) := by
  have within := List.Subset.trans (List.dropWhile_sublist isNewLine).subset within
  rw [program]
  split
  · exact .missingSpawn eof
  · next t rest found =>
    rw [found] at within
    split
    · refine (spawn_drawsOn (List.subset_of_cons_subset within)).bind fun first left => ?_
      refine (endStatement_drawsOn left).bind fun after left => ?_
      exact (statements_drawsOn left).bind fun _ left => left
    · exact .missingSpawn t

end Parser

namespace Program

open Token

/-- The diagnostics of the parser are those that it can give for its tokens. -/
lemma ofTokens_blames {ts : List Token} {d : Diagnostic} (failed : ofTokens ts = .error d) :
    Blames ts d := by
  have within : Grammar.front ts ⊆ ts := (List.takeWhile_prefix _).subset
  have draws : DrawsOn ts (fun _ => []) (ofTokens ts) := by
    rw [ofTokens_eq]
    exact Parser.program_drawsOn within
  rwa [failed] at draws

/-- What is scanned can be read. All tokens of a text are legible to the parser. So it never finds
a number that is no numeral, and where it finds that the cursor is placed again, it is. -/
theorem compile_legible {source : String} {ts : List Token} (scanned : scan source = .ok ts) :
    (∀ t ∈ ts, t.Legible) ∧
      ∀ d, compile source = .error d →
        (∀ lexeme p, d ≠ (Fault.invalidNumber lexeme).diagnose p) ∧
        ∀ p, d = Fault.repeatedSpawn.diagnose p →
          ∃ t ∈ ts, t.kind = .function ∧ t.lexeme = "Spawn" ∧ t.position = p := by
  have legible : ∀ t ∈ ts, t.Legible := by
    obtain ⟨us, q, rfl, -, formed⟩ := scanFrom_formed .start false source.toList scanned
    intro t mem
    rcases List.mem_append.mp mem with mem | mem
    · obtain ⟨_, form⟩ := formed t mem
      exact form.legible t.position
    · rw [List.mem_singleton.mp mem]
      trivial
  refine ⟨legible, fun d failed => ?_⟩
  rw [compile, scanned, ok_bind] at failed
  have blames := ofTokens_blames failed
  constructor
  · rintro lexeme p rfl
    obtain ⟨t, mem, kind, unread⟩ := blames.unread
    have read := legible t mem
    rw [Legible, kind] at read
    simp [unread] at read
  · rintro p rfl
    obtain ⟨t, mem, kind, unnamed, place⟩ := blames.unnamed
    have known := legible t mem
    rw [Legible, kind] at known
    rcases known with spawn | ⟨i, name⟩
    · exact ⟨t, mem, kind, spawn, place⟩
    · rw [name, Instruction.ofName?_name] at unnamed
      cases unnamed

/-- The cursor is placed again where its first coordinate should stand. -/
theorem compile_legible_spawn :
    let source := "Spawn(Spawn"
    let ts : List Token := [⟨.function, "Spawn", ⟨1, 1⟩⟩, ⟨.symbol, "(", ⟨1, 6⟩⟩,
      ⟨.function, "Spawn", ⟨1, 7⟩⟩, ⟨.eof, "$", ⟨1, 12⟩⟩]
    scan source = .ok ts ∧ (∀ t ∈ ts, t.Legible) ∧
      compile source = .error (Fault.repeatedSpawn.diagnose ⟨1, 7⟩) ∧
      ∃ t ∈ ts, t.kind = .function ∧ t.lexeme = "Spawn" ∧ t.position = ⟨1, 7⟩ := by
  intro source ts
  have scanned : scan source = .ok ts := by decide +kernel
  have failed : compile source = .error (Fault.repeatedSpawn.diagnose ⟨1, 7⟩) := by
    have bracket : (⟨.symbol, "(", ⟨1, 6⟩⟩ : Token).isSymbol "(" := by decide
    have again : Parser.expr (Token.eof ⟨1, 12⟩) [⟨.function, "Spawn", ⟨1, 7⟩⟩] =
        .error (Fault.repeatedSpawn.diagnose ⟨1, 7⟩) :=
      Parser.level_error _ ((Parser.factor_function rfl).mpr (Parser.call_unnamed (by decide)))
    obtain ⟨_, opened⟩ := Parser.symbol_complete (Token.eof ⟨1, 12⟩)
      [⟨.function, "Spawn", ⟨1, 7⟩⟩] bracket
    rw [compile, scanned, ok_bind]
    exact bind_eq_error.mpr (.inl (bind_eq_error.mpr (.inr ⟨_, opened,
      bind_eq_error.mpr (.inl again)⟩)))
  obtain ⟨legible, faults⟩ := compile_legible scanned
  exact ⟨scanned, legible, failed, (faults _ failed).2 _ rfl⟩

end Program

end Easel
