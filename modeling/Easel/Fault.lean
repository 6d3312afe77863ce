import Easel.Color
import Easel.Diagnostic
import Easel.Operator
import Easel.Token
import Easel.Value

/-!
# Faults

Every way in which reading or running a program can fail, with the code and the wording of the
diagnostic that reports it.
-/

namespace Easel

/-- What a program text should have gone on with. -/
inductive Expectation where
  | symbol (lexeme : String)
  | labelName
  | expression
deriving DecidableEq, Repr

/-- An expectation in words. -/
def Expectation.text : Expectation → String
  | symbol lexeme => "`" ++ lexeme ++ "`"
  | labelName => "a label name"
  | expression => "an expression"

/-- A cause of failure. -/
inductive Fault where
  /-- No token begins with the character. -/
  | unexpectedCharacter (c : Char)
  /-- A text is opened and never closed. -/
  | unterminatedString
  /-- The program does not begin by placing the cursor. -/
  | missingSpawn (found : Token)
  /-- The cursor is placed by a statement that is not the first. -/
  | repeatedSpawn
  /-- No statement begins with the token. -/
  | notAStatement (found : Token)
  /-- A statement is followed by something on its line. -/
  | trailingToken (found : Token)
  /-- The line goes on, but not as expected. -/
  | unexpectedToken (expected : Expectation) (found : Token)
  /-- The line ends where something is expected. -/
  | lineEnded (expected : Expectation)
  /-- A number token is not a numeral. -/
  | invalidNumber (lexeme : String)
  | undefinedVariable (name : String)
  | undefinedLabel (name : String)
  /-- An instruction is called with the wrong number of arguments. -/
  | argumentCount (instruction : Instruction) (given : Nat)
  /-- An argument has a kind that its parameter does not take. -/
  | argumentKind (instruction : Instruction) (parameter : Parameter) (given : ValueKind)
  /-- A number is needed. -/
  | notANumber (given : ValueKind)
  /-- An operator has no meaning for its operands. -/
  | unsupportedOperands (op : Operator) (left right : ValueKind)
  /-- An instruction without a value stands in an expression. -/
  | noValue (instruction : Instruction)
  /-- An instruction with a value did not yield it. -/
  | valueMissing (instruction : Instruction)
  | unknownColor (name : String)
  /-- The cursor would be placed off the canvas. -/
  | spawnOutside (x y : Int) (size : Nat)
  /-- A rectangle would have no width or no height. -/
  | emptyRectangle (width height : Int)
  | divisionByZero
  | moduloByZero
  /-- There is no cursor. -/
  | notSpawned
deriving DecidableEq, Repr

namespace Fault

/-- The code under which a fault is reported. -/
def code : Fault → DiagnosticCode
  | unexpectedCharacter _ => .unexpectedCharacter
  | unterminatedString => .unterminatedString
  | missingSpawn _ | repeatedSpawn => .misplacedSpawn
  | notAStatement _ | trailingToken _ | unexpectedToken _ _ | invalidNumber _ => .unexpectedToken
  | lineEnded _ => .missingToken
  | undefinedVariable _ => .undefinedVariable
  | undefinedLabel _ => .undefinedLabel
  | argumentCount _ _ => .argumentCount
  | argumentKind _ _ _ | notANumber _ | unsupportedOperands _ _ _ | noValue _ | valueMissing _ =>
    .typeMismatch
  | unknownColor _ => .unknownColor
  | spawnOutside _ _ _ | emptyRectangle _ _ => .invalidGeometry
  | divisionByZero => .divisionByZero
  | moduloByZero => .moduloByZero
  | notSpawned => .notSpawned

/-- The wording of a fault. -/
def message : Fault → String
  | unexpectedCharacter c => "unexpected character `" ++ c.toString ++ "`"
  | unterminatedString => "unterminated string literal"
  | missingSpawn found => "program must start with `Spawn(x, y)`, found " ++ found.text
  | repeatedSpawn => "`Spawn` may only appear once, as the first instruction"
  | notAStatement found => "expected a statement, found " ++ found.text
  | trailingToken found => "expected end of line after statement, found " ++ found.text
  | unexpectedToken expected found => "expected " ++ expected.text ++ ", found " ++ found.text
  | lineEnded expected => "expected " ++ expected.text ++ " before end of line"
  | invalidNumber lexeme => "invalid number `" ++ lexeme ++ "`"
  | undefinedVariable name => "undefined variable `" ++ name ++ "`"
  | undefinedLabel name => "undefined label `" ++ name ++ "`"
  | argumentCount instruction given =>
    let count := instruction.parameters.length
    "`" ++ instruction.name ++ "` expects " ++ toString count ++
      (if count = 1 then " argument" else " arguments") ++ ", got " ++ toString given
  | argumentKind instruction parameter given =>
    "`" ++ instruction.name ++ "` argument `" ++ parameter.name ++ "` must be a " ++
      parameter.kind.noun ++ ", got " ++ given.name
  | notANumber given => "expected a number, got " ++ given.name
  | unsupportedOperands op left right =>
    "operator `" ++ op.symbol ++ "` not supported for " ++ left.name ++ " and " ++ right.name
  | noValue instruction => "`" ++ instruction.name ++ "` does not produce a value"
  | valueMissing instruction => "`" ++ instruction.name ++ "` produced no value"
  | unknownColor name =>
    "unknown color `" ++ name ++ "`; expected one of " ++
      String.intercalate ", " (Color.palette.map Color.name)
  | spawnOutside x y size =>
    "spawn position (" ++ toString x ++ ", " ++ toString y ++ ") is outside the " ++
      toString size ++ "×" ++ toString size ++ " canvas"
  | emptyRectangle width height =>
    "rectangle size must be positive, got " ++ toString width ++ "×" ++ toString height
  | divisionByZero => "division by zero"
  | moduloByZero => "modulo by zero"
  | notSpawned => "Wall-E has not been spawned"

/-- The diagnostic of a fault at a place. -/
def diagnose (fault : Fault) (position : Position) : Diagnostic :=
  ⟨fault.code, position, none, fault.message⟩

end Fault

end Easel
