import Easel.Instruction
import Easel.Position

/-!
# Tokens

The words of a program text. A token has a kind, the characters it was read from, and the place
of the first of them. The last token of a text marks its end.
-/

namespace Easel

/-- The kinds of tokens. -/
inductive TokenKind where
  /-- The name of an instruction, or the word that places the cursor. -/
  | function
  /-- The word that opens a jump. -/
  | goTo
  /-- A bracket, a comma or an arrow. -/
  | symbol
  | number
  /-- A text between double quotes, the quotes included. -/
  | string
  | identifier
  | operator
  | newLine
  /-- The end of the text. -/
  | eof
deriving DecidableEq, Repr

namespace TokenKind

/-- The name of a kind in messages. -/
def name : TokenKind → String
  | function => "Function"
  | goTo => "GoTo"
  | symbol => "Symbol"
  | number => "Number"
  | string => "String"
  | identifier => "Identifier"
  | operator => "Operator"
  | newLine => "NewLine"
  | eof => "Eof"

/-- Whether every token of this kind ends an operand, so that a minus after it subtracts. -/
def endsOperand : TokenKind → Bool
  | number | string | identifier => true
  | _ => false

end TokenKind

/-- A word of a program text. -/
structure Token where
  kind : TokenKind
  lexeme : String
  position : Position
deriving DecidableEq, Repr

namespace Token

/-- The word that places the cursor. -/
def spawnWord : String := "Spawn"

/-- The word that opens a jump. -/
def goToWord : String := "GoTo"

/-- The lexeme of the token at the end of a text. -/
def eofLexeme : String := "$"

/-- The token at the end of a text. -/
def eof (position : Position) : Token := ⟨.eof, eofLexeme, position⟩

/-- The kind of a word: words are reserved for jumps, for placing the cursor and for the
instructions, and all others are identifiers. -/
def classifyWord (word : String) : TokenKind :=
  if word = goToWord then .goTo
  else if word = spawnWord ∨ (Instruction.ofName? word).isSome then .function
  else .identifier

/-- Whether the token is the symbol written `lexeme`. -/
def isSymbol (t : Token) (lexeme : String) : Bool :=
  t.kind == .symbol && t.lexeme == lexeme

/-- Whether the token is an arrow of assignment. -/
def isArrow (t : Token) : Bool :=
  t.isSymbol "<-" || t.isSymbol "←"

/-- Whether the token places the cursor. -/
def isSpawn (t : Token) : Bool :=
  t.kind == .function && t.lexeme == spawnWord

/-- Whether the token ends an operand, so that a minus after it subtracts. Closing brackets do,
as literals and names do. -/
def endsOperand (t : Token) : Bool :=
  t.kind.endsOperand || t.isSymbol ")" || t.isSymbol "]"

/-- A token as messages show it. -/
def text (t : Token) : String :=
  match t.kind with
  | .newLine => t.kind.name
  | _ => t.kind.name ++ "(`" ++ t.lexeme ++ "`)"

end Token

end Easel
