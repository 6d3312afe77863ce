import Easel.Position

/-!
# Diagnostics

What is reported when a text cannot be read or a statement fails: a code, the place, the
statement if it was running, and a message. Codes are grouped into kinds, and some kinds are
fatal: they end what they interrupt.
-/

namespace Easel

/-- The classes into which diagnostics fall. -/
inductive DiagnosticKind where
  | lexical
  | grammar
  | name
  | type
  | domain
  | arithmetic
  | state
deriving DecidableEq, Repr

/-- The name of a class of diagnostics. -/
def DiagnosticKind.text : DiagnosticKind → String
  | lexical => "LexicalError"
  | grammar => "SyntaxError"
  | name => "NameError"
  | type => "TypeError"
  | domain => "DomainError"
  | arithmetic => "ArithmeticError"
  | state => "StateError"

/-- What a diagnostic is about. Codes that begin with `L` arise when characters are read, with `P`
when tokens are read, and with `R` when a program runs. -/
inductive DiagnosticCode where
  | unexpectedCharacter
  | unterminatedString
  | unexpectedToken
  | missingToken
  | misplacedSpawn
  | undefinedVariable
  | undefinedLabel
  | argumentCount
  | typeMismatch
  | unknownColor
  | invalidGeometry
  | divisionByZero
  | moduloByZero
  | notSpawned
deriving DecidableEq, Repr

namespace DiagnosticCode

/-- All codes. -/
def all : List DiagnosticCode :=
  [unexpectedCharacter, unterminatedString, unexpectedToken, missingToken, misplacedSpawn,
    undefinedVariable, undefinedLabel, argumentCount, typeMismatch, unknownColor, invalidGeometry,
    divisionByZero, moduloByZero, notSpawned]

/-- The short form of a code. -/
def text : DiagnosticCode → String
  | unexpectedCharacter => "L001"
  | unterminatedString => "L002"
  | unexpectedToken => "P001"
  | missingToken => "P002"
  | misplacedSpawn => "P003"
  | undefinedVariable => "R001"
  | undefinedLabel => "R002"
  | argumentCount => "R003"
  | typeMismatch => "R004"
  | unknownColor => "R005"
  | invalidGeometry => "R006"
  | divisionByZero => "R007"
  | moduloByZero => "R008"
  | notSpawned => "R009"

/-- The code with a given short form. -/
def ofText? (s : String) : Option DiagnosticCode :=
  all.find? fun code => code.text == s

/-- What a code stands for, in words. -/
def description : DiagnosticCode → String
  | unexpectedCharacter => "unexpected character"
  | unterminatedString => "unterminated string literal"
  | unexpectedToken => "unexpected token"
  | missingToken => "missing expected token"
  | misplacedSpawn => "misplaced Spawn"
  | undefinedVariable => "undefined variable"
  | undefinedLabel => "undefined label"
  | argumentCount => "wrong argument count"
  | typeMismatch => "type mismatch"
  | unknownColor => "unknown color"
  | invalidGeometry => "invalid position or size"
  | divisionByZero => "division by zero"
  | moduloByZero => "modulo by zero"
  | notSpawned => "cursor not spawned"

/-- The class of a code. -/
def kind : DiagnosticCode → DiagnosticKind
  | unexpectedCharacter | unterminatedString => .lexical
  | unexpectedToken | missingToken | misplacedSpawn => .grammar
  | undefinedVariable | undefinedLabel => .name
  | argumentCount | typeMismatch => .type
  | unknownColor | invalidGeometry => .domain
  | divisionByZero | moduloByZero => .arithmetic
  | notSpawned => .state

/-- Whether a diagnostic with this code ends what it interrupts. All others cost only the
statement that failed. -/
def isFatal (code : DiagnosticCode) : Bool :=
  match code.kind with
  | .lexical | .grammar | .state => true
  | _ => false

/-- A code is found under its own short form. -/
theorem ofText?_text (code : DiagnosticCode) : ofText? code.text = some code := by
  cases code <;> decide

end DiagnosticCode

/-- A report of something that went wrong. The statement is set for what a running program
reports, and is the index of the statement that failed. -/
structure Diagnostic where
  code : DiagnosticCode
  position : Position
  statement : Option Nat
  message : String
deriving DecidableEq, Repr

namespace Diagnostic

/-- The class of a diagnostic. -/
def kind (d : Diagnostic) : DiagnosticKind := d.code.kind

/-- Whether the diagnostic ends what it interrupts. -/
def isFatal (d : Diagnostic) : Bool := d.code.isFatal

/-- The diagnostic of the statement with the given index. -/
def atStatement (d : Diagnostic) (index : Nat) : Diagnostic :=
  { d with statement := some index }

/-- A diagnostic on one line. -/
def text (d : Diagnostic) : String :=
  "[" ++ d.kind.text ++ " " ++ d.code.text ++ "] " ++ toString d.position.line ++ ":" ++
    toString d.position.column ++ ": " ++ d.message

end Diagnostic

end Easel
