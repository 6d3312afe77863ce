import Easel.Program
import Easel.Token.Lexer

/-!
# Reading programs

Programs are read from tokens by descent through the grammar, with one token of lookahead. The
first token that cannot go on is reported, and nothing is read past it, nor past the first token
that marks the end of the text.

Every phrase leaves fewer tokens than it was given (`Phrase.shorter`), which is why reading ends.
-/

namespace Easel

/-- Something read from the front of the tokens `ts`, and the tokens after it. -/
structure Phrase (α : Type) (ts : List Token) where
  value : α
  rest : List Token
  shorter : rest.length < ts.length

namespace Parser

/-- The fault of a token that stands where something else is expected. If the line ends there, it
is the expected thing that is missing. -/
def unexpected (expected : Expectation) (found : Token) : Diagnostic :=
  match found.kind with
  | .newLine | .eof => (Fault.lineEnded expected).diagnose found.position
  | _ => (Fault.unexpectedToken expected found).diagnose found.position

/-- The text between the quotes of a lexeme. -/
def unquote (lexeme : String) : String :=
  let opened := lexeme.toList.dropWhile (· == '"')
  String.ofList (opened.reverse.dropWhile (· == '"')).reverse

/-- The operator of a token, if it has one of the given level. -/
def operator? (level : Nat) (t : Token) : Option Operator :=
  if t.kind = .operator then
    (Operator.ofSymbol? t.lexeme).filter fun op => op.level = level
  else none

section

variable (eof : Token)

/-- Reads a symbol. -/
def symbol (lexeme : String) (ts : List Token) : Except Diagnostic (Phrase Unit ts) :=
  match ts with
  | [] => .error (unexpected (.symbol lexeme) eof)
  | t :: rest =>
    if t.isSymbol lexeme then .ok ⟨(), rest, by simp⟩
    else .error (unexpected (.symbol lexeme) t)

mutual

/-- Reads an operand: a literal, a variable, a call, an expression in brackets, or an operand with
a minus sign in front of it. -/
def factor (ts : List Token) : Except Diagnostic (Phrase Expr ts) :=
  match ts with
  | [] => .error (unexpected .expression eof)
  | t :: rest =>
    match t.kind with
    | .number =>
      match Number.ofText? t.lexeme with
      | some n => .ok ⟨.number n t.position, rest, by simp⟩
      | none => .error ((Fault.invalidNumber t.lexeme).diagnose t.position)
    | .string => .ok ⟨.text (unquote t.lexeme) t.position, rest, by simp⟩
    | .identifier => .ok ⟨.var t.lexeme t.position, rest, by simp⟩
    | .function => do
      let called ← call t rest
      have := called.shorter
      .ok ⟨.call called.value.1 called.value.2 t.position, called.rest, by simp; omega⟩
    | .symbol =>
      if t.lexeme = "(" then do
        let inner ← level Operator.loosest rest
        let close ← symbol eof ")" inner.rest
        have := inner.shorter
        have := close.shorter
        .ok ⟨inner.value, close.rest, by simp; omega⟩
      else .error (unexpected .expression t)
    | .operator =>
      if t.lexeme = "-" then do
        let operand ← factor rest
        have := operand.shorter
        .ok ⟨operand.value.negate t.position, operand.rest, by simp; omega⟩
      else .error (unexpected .expression t)
    | _ => .error (unexpected .expression t)
termination_by (ts.length, 0)

/-- Reads an expression whose operators bind at the given level or tighter. -/
def level (n : Nat) (ts : List Token) : Except Diagnostic (Phrase Expr ts) :=
  match n with
  | 0 => factor ts
  | n + 1 => do
    let left ← level n ts
    have := left.shorter
    chain n left
termination_by (ts.length, n + 1)

/-- Goes on with an expression for as long as operators of the level above `n` follow, each with
an operand of level `n` on its right. -/
def chain (n : Nat) {ts : List Token} (left : Phrase Expr ts) :
    Except Diagnostic (Phrase Expr ts) :=
  match follows : left.rest with
  | [] => .ok left
  | t :: more =>
    match operator? (n + 1) t with
    | none => .ok left
    | some op => do
      have : more.length < left.rest.length := by simp [follows]
      let right ← level n more
      have := left.shorter
      have := right.shorter
      chain n ⟨.binary left.value op right.value left.value.position, right.rest, by omega⟩
termination_by (left.rest.length, 0)

/-- Reads what follows the name `t` of an instruction in a call. -/
def call (t : Token) (ts : List Token) :
    Except Diagnostic (Phrase (Instruction × List Expr) ts) :=
  match Instruction.ofName? t.lexeme with
  | none => .error (Fault.repeatedSpawn.diagnose t.position)
  | some instruction => do
    let opened ← symbol eof "(" ts
    have := opened.shorter
    let arguments ← arguments opened.rest
    have := arguments.shorter
    .ok ⟨(instruction, arguments.value), arguments.rest, by omega⟩
termination_by (ts.length, 0)

/-- Reads the arguments of a call and the bracket that closes it. -/
def arguments (ts : List Token) : Except Diagnostic (Phrase (List Expr) ts) :=
  match ts with
  | [] => someArguments []
  | t :: rest => if t.isSymbol ")" then .ok ⟨[], rest, by simp⟩ else someArguments (t :: rest)
termination_by (ts.length, Operator.loosest + 3)

/-- Reads one argument or more, divided by commas, and the bracket that closes the call. -/
def someArguments (ts : List Token) : Except Diagnostic (Phrase (List Expr) ts) := do
  let first ← level Operator.loosest ts
  have := first.shorter
  match follows : first.rest with
  | [] => .error (unexpected (.symbol ")") eof)
  | t :: rest =>
    have shorter : rest.length < first.rest.length := by simp [follows]
    if t.isSymbol "," then do
      let others ← someArguments rest
      have := others.shorter
      .ok ⟨first.value :: others.value, others.rest, by omega⟩
    else if t.isSymbol ")" then .ok ⟨[first.value], rest, by omega⟩
    else .error (unexpected (.symbol ")") t)
termination_by (ts.length, Operator.loosest + 2)

end

/-- Reads an expression. -/
def expr (ts : List Token) : Except Diagnostic (Phrase Expr ts) :=
  level eof Operator.loosest ts

/-- Reads what follows the token `t` that places the cursor. -/
def spawn (t : Token) (ts : List Token) : Except Diagnostic (Phrase Stmt ts) := do
  let opened ← symbol eof "(" ts
  let x ← expr eof opened.rest
  let comma ← symbol eof "," x.rest
  let y ← expr eof comma.rest
  let close ← symbol eof ")" y.rest
  .ok ⟨.spawn x.value y.value t.position, close.rest, by
    have := opened.shorter
    have := x.shorter
    have := comma.shorter
    have := y.shorter
    have := close.shorter
    omega⟩

/-- Reads the name of a label. -/
def labelName (ts : List Token) : Except Diagnostic (Phrase String ts) :=
  match ts with
  | [] => .error (unexpected .labelName eof)
  | t :: rest =>
    if t.kind = .identifier then .ok ⟨t.lexeme, rest, by simp⟩
    else .error (unexpected .labelName t)

/-- Reads what follows the word `t` that opens a jump. -/
def jump (t : Token) (ts : List Token) : Except Diagnostic (Phrase Stmt ts) := do
  let opened ← symbol eof "[" ts
  let label ← labelName eof opened.rest
  let closed ← symbol eof "]" label.rest
  let bracket ← symbol eof "(" closed.rest
  let condition ← expr eof bracket.rest
  let close ← symbol eof ")" condition.rest
  .ok ⟨.goTo label.value condition.value t.position, close.rest, by
    have := opened.shorter
    have := label.shorter
    have := closed.shorter
    have := bracket.shorter
    have := condition.shorter
    have := close.shorter
    omega⟩

/-- Reads a statement that begins with an identifier `t`: an assignment if an arrow follows, else
a label. -/
def named (t : Token) (ts : List Token) : Except Diagnostic (Phrase Stmt (t :: ts)) :=
  match ts with
  | [] => .ok ⟨.label t.lexeme t.position, [], by simp⟩
  | arrow :: more =>
    if arrow.isArrow then do
      let value ← expr eof more
      .ok ⟨.assign t.lexeme value.value t.position, value.rest, by
        have := value.shorter
        simp
        omega⟩
    else .ok ⟨.label t.lexeme t.position, arrow :: more, by simp⟩

/-- Reads a statement that begins with the token `t`. -/
def statement (t : Token) (ts : List Token) : Except Diagnostic (Phrase Stmt (t :: ts)) :=
  match t.kind with
  | .function => do
    let called ← call eof t ts
    .ok ⟨.call called.value.1 called.value.2 t.position, called.rest, by
      have := called.shorter
      simp
      omega⟩
  | .goTo => do
    let jump ← jump eof t ts
    .ok ⟨jump.value, jump.rest, by
      have := jump.shorter
      simp
      omega⟩
  | .identifier => named eof t ts
  | _ => .error ((Fault.notAStatement t).diagnose t.position)

end

/-- Whether a token is a line break. -/
def isNewLine (t : Token) : Bool := t.kind == .newLine

/-- Reads the end of a statement: a line break, or the end of the text. -/
def endStatement (ts : List Token) :
    Except Diagnostic { rest : List Token // rest.length ≤ ts.length } :=
  match ts with
  | [] => .ok ⟨[], by simp⟩
  | t :: rest =>
    if isNewLine t then .ok ⟨rest, by simp⟩
    else .error ((Fault.trailingToken t).diagnose t.position)

/-- Reads statements up to the end of the text. Blank lines may stand anywhere. -/
def statements (eof : Token) (ts : List Token) : Except Diagnostic (List Stmt) :=
  match found : ts.dropWhile isNewLine with
  | [] => .ok []
  | t :: rest => do
    let first ← statement eof t rest
    let after ← endStatement first.rest
    have := first.shorter
    have := after.property
    have : (t :: rest).length ≤ ts.length :=
      found ▸ (List.dropWhile_sublist (p := isNewLine)).length_le
    let others ← statements eof after.val
    .ok (first.value :: others)
termination_by ts.length
decreasing_by omega

/-- Reads a program: the cursor is placed by the first statement, and by no other. -/
def program (eof : Token) (ts : List Token) : Except Diagnostic Program :=
  match ts.dropWhile isNewLine with
  | [] => .error ((Fault.missingSpawn eof).diagnose eof.position)
  | t :: rest => do
    if t.isSpawn then
      let first ← spawn eof t rest
      let after ← endStatement first.rest
      let others ← statements eof after.val
      .ok ⟨(first.value :: others).toArray⟩
    else .error ((Fault.missingSpawn t).diagnose t.position)

end Parser

namespace Program

/-- Whether a token marks the end of the text. -/
def isEof (t : Token) : Bool := t.kind == .eof

/-- The token that ends a list of tokens: the first that marks the end of the text, or else one
just after the last token. -/
def closing (ts : List Token) : Token :=
  (ts.find? isEof).getD <|
    match ts.getLast? with
    | some t => Token.eof ⟨t.position.line, t.position.column + t.lexeme.length⟩
    | none => Token.eof .start

/-- The program that tokens spell. Tokens after the first end of the text do not count. -/
def ofTokens (ts : List Token) : Except Diagnostic Program :=
  Parser.program (closing ts) (ts.takeWhile fun t => !isEof t)

/-- The program of a text. -/
def compile (source : String) : Except Diagnostic Program := do
  ofTokens (← Token.scan source)

end Program

end Easel
