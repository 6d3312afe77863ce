import Easel.Program.Parser

/-!
# Reading by position

The parser once more, as one that keeps a list of tokens and moves a position over it. It looks at
the token at its position, or at the last one if the position is beyond that, and it moves on by one
token, but never off the last one.

Nothing here says that reading ends. How deep calls may be nested is bounded by a number, where a
turn of a loop is a call as well, and reading has no outcome if the number does not suffice. So a
reading that goes on forever has no outcome however large the number is. A reading that asks for a
token where there is none stops for this reason (`Stop.outside`).
-/

namespace Easel.Positional

/-- Why reading stops without a result. -/
inductive Stop where
  /-- The tokens are at fault. -/
  | fault (diagnostic : Diagnostic)
  /-- A token was asked for where there is none. -/
  | outside

/-- Something to read, with the position as a state that stays when reading stops. -/
abbrev Reader (α : Type) := ExceptT Stop (StateT Nat Option) α

/-- What reading from a position gives, and the position after it, if it is finished. -/
def Reader.outcome {α : Type} (x : Reader α) (pos : Nat) : Option (Except Stop α × Nat) :=
  x.run.run pos

/-- A reading that may not go on. -/
def Reader.unfinished {α : Type} : Reader α := ExceptT.mk fun _ => none

/-- The tokens with the end of the text after them, if they do not end with one. -/
def ended (ts : List Token) : List Token :=
  match ts.getLast? with
  | some t =>
    if Program.isEof t then ts
    else ts ++ [Token.eof ⟨t.position.line, t.position.column + t.lexeme.length⟩]
  | none => [Token.eof .start]

section

variable (tokens : List Token)

/-- The token at the position, or the last one if the position is beyond it. -/
def peek : Reader Token := do
  let pos ← get
  match tokens[min pos (tokens.length - 1)]? with
  | some t => return t
  | none => throw .outside

/-- The token after the one at the position, if there is one. -/
def peekNext : Reader (Option Token) := do
  let pos ← get
  return tokens[pos + 1]?

/-- Moves on to the next token, if there is one, and gives the token moved away from. -/
def advance : Reader Token := do
  let t ← peek tokens
  modify fun pos => if pos < tokens.length - 1 then pos + 1 else pos
  return t

/-- Stops at a token that stands where something else is expected. -/
def unexpected {α : Type} (expected : Expectation) : Reader α := do
  let found ← peek tokens
  throw (.fault (Parser.unexpected expected found))

/-- Moves on if the token is the given symbol, and tells whether it is. -/
def matchSymbol (lexeme : String) : Reader Bool := do
  let t ← peek tokens
  if t.isSymbol lexeme then
    let _ ← advance tokens
    return true
  else return false

/-- Reads a symbol. -/
def expectSymbol (lexeme : String) : Reader Unit := do
  let found ← matchSymbol tokens lexeme
  if found then return ()
  else unexpected tokens (.symbol lexeme)

mutual

/-- Reads an operand. -/
def factor (depth : Nat) : Reader Expr :=
  match depth with
  | 0 => .unfinished
  | depth + 1 => do
    let t ← peek tokens
    match t.kind with
    | .number =>
      match Number.ofText? t.lexeme with
      | some n =>
        let _ ← advance tokens
        return .number n t.position
      | none => throw (.fault ((Fault.invalidNumber t.lexeme).diagnose t.position))
    | .string =>
      let quoted ← advance tokens
      return .text (Parser.unquote quoted.lexeme) t.position
    | .identifier =>
      let name ← advance tokens
      return .var name.lexeme t.position
    | .function =>
      let called ← call depth
      return .call called.1 called.2 t.position
    | .symbol =>
      if t.lexeme = "(" then
        let _ ← advance tokens
        let inner ← level Operator.loosest depth
        expectSymbol tokens ")"
        return inner
      else unexpected tokens .expression
    | .operator =>
      if t.lexeme = "-" then
        let _ ← advance tokens
        let operand ← factor depth
        return operand.negate t.position
      else unexpected tokens .expression
    | _ => unexpected tokens .expression

/-- Reads an expression whose operators bind at the given level or tighter. -/
def level (n depth : Nat) : Reader Expr :=
  match depth with
  | 0 => .unfinished
  | depth + 1 =>
    match n with
    | 0 => factor depth
    | n + 1 => do
      let left ← level n depth
      chain n left depth

/-- Goes on with an expression for as long as operators of the level above `n` follow. -/
def chain (n : Nat) (left : Expr) (depth : Nat) : Reader Expr :=
  match depth with
  | 0 => .unfinished
  | depth + 1 => do
    let t ← peek tokens
    match Parser.operator? (n + 1) t with
    | none => return left
    | some op =>
      let _ ← advance tokens
      let right ← level n depth
      chain n (.binary left op right left.position) depth

/-- Reads a call, from the name of its instruction on. -/
def call (depth : Nat) : Reader (Instruction × List Expr) :=
  match depth with
  | 0 => .unfinished
  | depth + 1 => do
    let t ← peek tokens
    match Instruction.ofName? t.lexeme with
    | none => throw (.fault (Fault.repeatedSpawn.diagnose t.position))
    | some instruction =>
      let _ ← advance tokens
      expectSymbol tokens "("
      let arguments ← arguments depth
      expectSymbol tokens ")"
      return (instruction, arguments)

/-- Reads the arguments of a call, of which there are none before the bracket that closes it. -/
def arguments (depth : Nat) : Reader (List Expr) :=
  match depth with
  | 0 => .unfinished
  | depth + 1 => do
    let t ← peek tokens
    if t.isSymbol ")" then return []
    else
      let first ← level Operator.loosest depth
      let others ← moreArguments depth
      return first :: others

/-- Reads further arguments for as long as commas follow. -/
def moreArguments (depth : Nat) : Reader (List Expr) :=
  match depth with
  | 0 => .unfinished
  | depth + 1 => do
    let found ← matchSymbol tokens ","
    if found then
      let next ← level Operator.loosest depth
      let others ← moreArguments depth
      return next :: others
    else return []

end

/-- Reads an expression. -/
def expr (depth : Nat) : Reader Expr := level tokens Operator.loosest depth

/-- Reads the statement that places the cursor. -/
def spawn (depth : Nat) : Reader Stmt := do
  let t ← peek tokens
  if t.isSpawn then
    let _ ← advance tokens
    expectSymbol tokens "("
    let x ← expr tokens depth
    expectSymbol tokens ","
    let y ← expr tokens depth
    expectSymbol tokens ")"
    return .spawn x y t.position
  else throw (.fault ((Fault.missingSpawn t).diagnose t.position))

/-- Reads a jump, from the word that opens it on. -/
def jump (depth : Nat) : Reader Stmt := do
  let t ← advance tokens
  expectSymbol tokens "["
  let name ← peek tokens
  if name.kind = .identifier then
    let label ← advance tokens
    expectSymbol tokens "]"
    expectSymbol tokens "("
    let condition ← expr tokens depth
    expectSymbol tokens ")"
    return .goTo label.lexeme condition t.position
  else unexpected tokens .labelName

/-- Reads an assignment, from the name of the variable on. -/
def assignment (depth : Nat) : Reader Stmt := do
  let name ← advance tokens
  let _ ← advance tokens
  let value ← expr tokens depth
  return .assign name.lexeme value name.position

/-- Reads a statement. -/
def statement (depth : Nat) : Reader Stmt := do
  let t ← peek tokens
  match t.kind with
  | .function =>
    let called ← call tokens depth
    return .call called.1 called.2 t.position
  | .goTo => jump tokens depth
  | .identifier =>
    let next ← peekNext tokens
    if next.any Token.isArrow then assignment tokens depth
    else
      let name ← advance tokens
      return .label name.lexeme t.position
  | _ => throw (.fault ((Fault.notAStatement t).diagnose t.position))

/-- Passes line breaks. -/
def skipNewLines (depth : Nat) : Reader Unit :=
  match depth with
  | 0 => .unfinished
  | depth + 1 => do
    let t ← peek tokens
    if Parser.isNewLine t then
      let _ ← advance tokens
      skipNewLines depth
    else return ()

/-- Reads the end of a statement: a line break, or the end of the text, which is not passed. -/
def endStatement : Reader Unit := do
  let t ← peek tokens
  if Parser.isNewLine t then
    let _ ← advance tokens
    return ()
  else if Program.isEof t then return ()
  else throw (.fault ((Fault.trailingToken t).diagnose t.position))

/-- Reads statements up to the end of the text. -/
def statements (depth : Nat) : Reader (List Stmt) :=
  match depth with
  | 0 => .unfinished
  | depth + 1 => do
    skipNewLines tokens depth
    let t ← peek tokens
    if Program.isEof t then return []
    else
      let first ← statement tokens depth
      endStatement tokens
      let others ← statements depth
      return first :: others

/-- Reads a program. -/
def program (depth : Nat) : Reader Program := do
  skipNewLines tokens depth
  let first ← spawn tokens depth
  endStatement tokens
  let others ← statements tokens depth
  return ⟨(first :: others).toArray⟩

end

end Easel.Positional
