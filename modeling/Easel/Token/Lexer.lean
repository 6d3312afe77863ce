import Easel.Fault
import Easel.Text.Numeral

/-!
# Cutting a text into tokens

At each place of a text seven patterns are tried, and the one that matches most characters is
taken; of equally long matches the earlier pattern wins. Blanks are dropped, and line breaks are
kept as tokens. A minus sign belongs to a number only where no operand stands before it.

Main statements: a match is never empty (`Pattern.longest?_pos`), so that the scan ends.
-/

namespace Easel

/-- The forms of words and of the blanks between them, in order of preference. -/
inductive Pattern where
  | newLine
  | string
  | operator
  | symbol
  | number
  | identifier
  | blank
deriving DecidableEq, Repr

namespace Pattern

/-- All patterns, in order of preference. -/
def all : List Pattern :=
  [newLine, string, operator, symbol, number, identifier, blank]

/-- A line feed, or one after a carriage return. -/
def newLineLength? : List Char → Option Nat
  | '\n' :: _ => some 1
  | '\r' :: '\n' :: _ => some 2
  | _ => none

/-- A text between double quotes; nothing in it is an escape. -/
def stringLength? : List Char → Option Nat
  | '"' :: cs => (cs.findIdx? (· == '"')).map (· + 2)
  | _ => none

/-- The first of the given words that the text begins with. -/
def wordLength? (words : List String) (cs : List Char) : Option Nat :=
  (words.find? fun word => word.toList.isPrefixOf cs).map fun word => word.toList.length

/-- The lexemes of operators, with longer ones before those they begin with. -/
def operatorLexemes : List String :=
  ["**", "&&", "||", "==", "!=", ">=", "<=", "+", "-", "*", "/", "%", "<", ">"]

/-- The lexemes of symbols. -/
def symbolLexemes : List String :=
  ["<-", "(", ")", ",", "[", "]", "←"]

/-- Digits, and possibly a point and more digits. A point without digits after it is left. -/
def unsignedLength? (cs : List Char) : Option Nat :=
  let whole := (cs.takeWhile Char.isDigit).length
  if whole = 0 then none
  else
    match cs.drop whole with
    | '.' :: rest =>
      let fraction := (rest.takeWhile Char.isDigit).length
      some (if fraction = 0 then whole else whole + 1 + fraction)
    | _ => some whole

/-- A number, with its sign where no operand stands before it. -/
def numberLength? (afterOperand : Bool) : List Char → Option Nat
  | '-' :: cs => if afterOperand then none else (unsignedLength? cs).map (· + 1)
  | cs => unsignedLength? cs

/-- A letter or underscore, and all letters, numerals and underscores after it. -/
def identifierLength? : List Char → Option Nat
  | c :: cs =>
    if Text.beginsWord c then some ((cs.takeWhile Text.continuesWord).length + 1) else none
  | [] => none

/-- The number of spaces, tabs and carriage returns that the text begins with. A carriage return
before a line feed is part of the line break. -/
def blankLength : List Char → Nat
  | '\r' :: '\n' :: _ => 0
  | c :: cs => if c = ' ' ∨ c = '\t' ∨ c = '\r' then blankLength cs + 1 else 0
  | [] => 0

/-- How many characters at the beginning of the text match a pattern. -/
def length? (afterOperand : Bool) (cs : List Char) : Pattern → Option Nat
  | newLine => newLineLength? cs
  | string => stringLength? cs
  | operator => wordLength? operatorLexemes cs
  | symbol => wordLength? symbolLexemes cs
  | number => numberLength? afterOperand cs
  | identifier => identifierLength? cs
  | blank => if blankLength cs = 0 then none else some (blankLength cs)

/-- The better of the best match so far and the match of one more pattern: the longer one, and
the earlier one of two that are equally long. -/
def better (best : Option (Pattern × Nat)) (pattern : Pattern) (length? : Option Nat) :
    Option (Pattern × Nat) :=
  match length?, best with
  | none, _ => best
  | some n, none => some (pattern, n)
  | some n, some (_, m) => if m < n then some (pattern, n) else best

/-- The longest match at the beginning of the text. -/
def longest? (afterOperand : Bool) (cs : List Char) : Option (Pattern × Nat) :=
  all.foldl (fun best pattern => better best pattern (pattern.length? afterOperand cs)) none

/-- The kind of token that a match gives; blanks give none. -/
def kind? (pattern : Pattern) (lexeme : String) : Option TokenKind :=
  match pattern with
  | newLine => some .newLine
  | string => some .string
  | operator => some .operator
  | symbol => some .symbol
  | number => some .number
  | identifier => some (Token.classifyWord lexeme)
  | blank => none

/-- A match of one of the given words is not empty, as none of them is. -/
theorem wordLength?_pos {words : List String} {cs : List Char} {n : Nat}
    (nonempty : ∀ word ∈ words, word.toList ≠ []) (found : wordLength? words cs = some n) :
    0 < n := by
  obtain ⟨word, hit, rfl⟩ := Option.map_eq_some_iff.mp found
  exact List.length_pos_iff.mpr (nonempty word (List.mem_of_find?_eq_some hit))

/-- A match of digits is not empty. -/
theorem unsignedLength?_pos {cs : List Char} {n : Nat} (found : unsignedLength? cs = some n) :
    0 < n := by
  simp only [unsignedLength?] at found
  grind

/-- A match of a pattern is not empty. -/
theorem length?_pos {afterOperand : Bool} {cs : List Char} {pattern : Pattern} {n : Nat}
    (found : pattern.length? afterOperand cs = some n) : 0 < n := by
  cases pattern with
  | newLine => simp only [length?] at found; unfold newLineLength? at found; grind
  | string =>
    simp only [length?] at found
    unfold stringLength? at found
    split at found
    · obtain ⟨i, _, rfl⟩ := Option.map_eq_some_iff.mp found
      omega
    · cases found
  | operator => exact wordLength?_pos (by decide) found
  | symbol => exact wordLength?_pos (by decide) found
  | number =>
    simp only [length?] at found
    unfold numberLength? at found
    split at found
    · split at found
      · cases found
      · obtain ⟨i, _, rfl⟩ := Option.map_eq_some_iff.mp found
        omega
    · exact unsignedLength?_pos found
  | identifier => simp only [length?] at found; unfold identifierLength? at found; grind
  | blank => simp only [length?] at found; grind

/-- The better match is the best so far or the one of the new pattern. -/
theorem better_eq {best : Option (Pattern × Nat)} {pattern : Pattern} {length? : Option Nat}
    {result : Pattern × Nat} (h : better best pattern length? = some result) :
    best = some result ∨ result.1 = pattern ∧ length? = some result.2 := by
  unfold better at h
  grind

/-- The longest match is a match of its pattern. -/
theorem longest?_length? {afterOperand : Bool} {cs : List Char} {pattern : Pattern} {n : Nat}
    (found : longest? afterOperand cs = some (pattern, n)) :
    pattern.length? afterOperand cs = some n := by
  have step : ∀ (patterns : List Pattern) (best : Option (Pattern × Nat)),
      (∀ p m, best = some (p, m) → p.length? afterOperand cs = some m) →
      ∀ p m, patterns.foldl (fun best p => better best p (p.length? afterOperand cs)) best =
        some (p, m) → p.length? afterOperand cs = some m := by
    intro patterns
    induction patterns with
    | nil => exact fun best known => known
    | cons q patterns ih =>
      intro best known
      refine ih _ fun p m h => ?_
      rcases better_eq h with old | ⟨rfl, new⟩
      · exact known p m old
      · exact new
  exact step all none (by simp) pattern n found

/-- The longest match is not empty. -/
theorem longest?_pos {afterOperand : Bool} {cs : List Char} {pattern : Pattern} {n : Nat}
    (found : longest? afterOperand cs = some (pattern, n)) : 0 < n :=
  length?_pos (longest?_length? found)

end Pattern

namespace Token

/-- Whether the text begins with a double quote that no other follows. -/
def opensUnclosed : List Char → Bool
  | '"' :: cs => !cs.contains '"'
  | _ => false

/-- The tokens of a text that begins at `position`, where `afterOperand` says whether the token
before it ends an operand. -/
def scanFrom (position : Position) (afterOperand : Bool) (cs : List Char) :
    Except Diagnostic (List Token) :=
  match cs with
  | [] => .ok [eof position]
  | c :: rest =>
    if opensUnclosed (c :: rest) then .error (Fault.unterminatedString.diagnose position)
    else
      match found : Pattern.longest? afterOperand (c :: rest) with
      | none => .error ((Fault.unexpectedCharacter c).diagnose position)
      | some (pattern, n) =>
        have := Pattern.longest?_pos found
        let lexeme := (c :: rest).take n
        let after := position.advanceAll lexeme
        match pattern.kind? (String.ofList lexeme) with
        | none => scanFrom after afterOperand ((c :: rest).drop n)
        | some kind =>
          let token : Token := ⟨kind, String.ofList lexeme, position⟩
          (scanFrom after token.endsOperand ((c :: rest).drop n)).map (token :: ·)
termination_by cs.length
decreasing_by all_goals simp only [List.length_drop, List.length_cons]; omega

/-- The tokens of a program text, with the one that marks its end last. The first character that
begins no token, or the first quote that is never closed, fails the whole text. -/
def scan (source : String) : Except Diagnostic (List Token) :=
  scanFrom .start false source.toList

end Token

end Easel
