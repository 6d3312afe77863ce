import Easel.Number.Reading
import Easel.Token.Lexer
import Mathlib.Data.List.TakeWhile
import Mathlib.Tactic.Lemma

/-!
# Scanning words that stand apart

Of the patterns tried at a place, few can begin with the character that stands there
(`Pattern.length?_opens`), so the longest match is known for every word with a blank, a line break
or the end of the text after it: for names, numerals, quoted texts, operators and symbols
(`Piece.Scans`). A numeral with a sign is the exception that depends on what stands before it.

Main statement: lines of such words, with blanks between the words and a break between the lines,
are scanned into these words again (`Token.reads_lines`).
-/

namespace Easel

namespace Pattern

variable {afterOperand : Bool} {c : Char} {cs rest : List Char} {pattern : Pattern} {n : Nat}

/-- All patterns are tried. -/
lemma mem_all (pattern : Pattern) : pattern ∈ all := by
  cases pattern <;> decide

/-- A match that all others are shorter than is the longest. -/
lemma longest?_eq (found : pattern.length? afterOperand cs = some n)
    (shorter : ∀ other ≠ pattern, ∀ m, other.length? afterOperand cs = some m → m < n) :
    longest? afterOperand cs = some (pattern, n) := by
  -- until its turn the best match is shorter, and from then on it is the best itself
  have fold : ∀ (patterns : List Pattern) (best : Option (Pattern × Nat)),
      (best = some (pattern, n) ∨
        pattern ∈ patterns ∧ ∀ q m, best = some (q, m) → m < n) →
      patterns.foldl (fun best p => better best p (p.length? afterOperand cs)) best =
        some (pattern, n) := by
    intro patterns
    induction patterns with
    | nil =>
      rintro best (rfl | ⟨mem, _⟩)
      · rfl
      · cases mem
    | cons q patterns ih =>
      intro best known
      refine ih _ ?_
      by_cases same : q = pattern
      · subst same
        left
        change better best q (q.length? afterOperand cs) = _
        rw [found]
        unfold better
        grind
      · have below := shorter q same
        change better best q (q.length? afterOperand cs) = _ ∨ _ ∧
          ∀ r m, better best q (q.length? afterOperand cs) = some (r, m) → m < n
        unfold better
        grind
  exact fold all none (.inr ⟨mem_all pattern, by simp⟩)

/-- The characters other than digits and letters that a match of a pattern can begin with. -/
def firsts : Pattern → List Char
  | newLine => ['\n', '\r']
  | string => ['"']
  | operator => operatorLexemes.filterMap fun word => word.toList.head?
  | symbol => symbolLexemes.filterMap fun word => word.toList.head?
  | number => ['-']
  | identifier => []
  | blank => [' ', '\t', '\r']

/-- A match of the pattern can begin with the character. -/
def Opens (pattern : Pattern) (c : Char) : Prop :=
  c ∈ pattern.firsts ∨ pattern = number ∧ c.isDigit ∨ pattern = identifier ∧ Text.beginsWord c

instance (pattern : Pattern) (c : Char) : Decidable (pattern.Opens c) :=
  inferInstanceAs (Decidable (_ ∨ _ ∨ _))

/-- A match of one of some words begins with the first character of one of them. -/
lemma wordLength?_opens {words : List String} (nonempty : ∀ word ∈ words, word.toList ≠ [])
    (found : wordLength? words (c :: cs) = some n) :
    c ∈ words.filterMap fun word => word.toList.head? := by
  obtain ⟨word, hit, rfl⟩ := Option.map_eq_some_iff.mp found
  have mem := List.mem_of_find?_eq_some hit
  have begins : word.toList <+: c :: cs := by simpa using List.find?_some hit
  refine List.mem_filterMap.mpr ⟨word, mem, ?_⟩
  cases shape : word.toList with
  | nil => exact absurd shape (nonempty word mem)
  | cons d ds =>
    rw [shape, List.cons_prefix_cons] at begins
    rw [begins.1, List.head?_cons]

/-- A match of digits begins with a digit. -/
lemma unsignedLength?_opens (found : unsignedLength? (c :: cs) = some n) : c.isDigit := by
  by_contra other
  rw [unsignedLength?, List.takeWhile_cons_of_neg other] at found
  cases found

/-- A run of blanks does not begin with any other character. -/
lemma blankLength_eq_zero (other : c ∉ blank.firsts) : blankLength (c :: cs) = 0 := by
  simp only [firsts, List.mem_cons, List.not_mem_nil, or_false] at other
  unfold blankLength
  split
  · rfl
  · next same =>
    cases same
    exact if_neg other
  · next same => cases same

/-- Each match begins with a character that its pattern allows. -/
lemma length?_opens (found : pattern.length? afterOperand (c :: cs) = some n) :
    pattern.Opens c := by
  cases pattern with
  | newLine =>
    left
    rw [length?, newLineLength?.eq_def] at found
    rw [firsts]
    grind
  | string =>
    left
    rw [length?, stringLength?.eq_def] at found
    rw [firsts]
    grind
  | operator => exact .inl (wordLength?_opens (by decide) found)
  | symbol => exact .inl (wordLength?_opens (by decide) found)
  | number =>
    rw [length?, numberLength?.eq_def] at found
    split at found
    · next same =>
      cases same
      exact .inl (by decide)
    · next same => exact .inr (.inl ⟨rfl, unsignedLength?_opens found⟩)
  | identifier =>
    rw [length?, identifierLength?] at found
    split at found
    · next first => exact .inr (.inr ⟨rfl, first⟩)
    · cases found
  | blank =>
    left
    by_contra other
    rw [length?, if_pos (blankLength_eq_zero other)] at found
    cases found

/-- A match is the longest if no other pattern can begin with its first character. -/
lemma longest?_of_opens (found : pattern.length? afterOperand (c :: cs) = some n)
    (only : ∀ other ∈ all, other.Opens c → other = pattern) :
    longest? afterOperand (c :: cs) = some (pattern, n) :=
  longest?_eq found fun other ne _ match? =>
    absurd (only other other.mem_all (length?_opens match?)) ne

/-- The characters that patterns begin with begin no words. -/
lemma firsts_not_beginsWord (pattern : Pattern) : ∀ c ∈ pattern.firsts, ¬ Text.beginsWord c := by
  have none : pattern.firsts.all (fun c => !Text.beginsWord c) := by
    cases pattern <;> decide +kernel
  simpa using none

/-- The characters that patterns begin with are no digits. -/
lemma firsts_not_isDigit (pattern : Pattern) : ∀ c ∈ pattern.firsts, ¬ c.isDigit := by
  have none : pattern.firsts.all (fun c => !c.isDigit) := by
    cases pattern <;> decide
  simpa using none

/-- Digits come early among the characters. -/
lemma toNat_le_of_isDigit (digit : c.isDigit) : c.toNat ≤ 57 :=
  UInt32.le_iff_toNat_le.mp (of_decide_eq_true (Bool.and_eq_true_iff.mp digit).2)

/-- A digit is no letter. -/
lemma not_isAlpha_of_isDigit (digit : c.isDigit) : ¬ c.isAlpha := by
  intro alpha
  have high := toNat_le_of_isDigit digit
  rcases Bool.or_eq_true_iff.mp alpha with upper | lower
  · have low : 65 ≤ c.toNat := UInt32.le_iff_toNat_le.mp (of_decide_eq_true upper).1
    omega
  · have low : 97 ≤ c.toNat :=
      UInt32.le_iff_toNat_le.mp (of_decide_eq_true (Bool.and_eq_true_iff.mp lower).1)
    omega

/-- A digit begins no word. -/
lemma not_beginsWord_of_isDigit (digit : c.isDigit) : ¬ Text.beginsWord c := by
  have ascii := toNat_le_of_isDigit digit
  have line : c ≠ '_' := by
    rintro rfl
    cases digit
  rw [Text.beginsWord, Text.isLetter, if_pos (by omega)]
  simp [not_isAlpha_of_isDigit digit, line]

/-- Only a word begins with a character that words begin with. -/
lemma Opens.word {other : Pattern} (opens : other.Opens c) (first : Text.beginsWord c) :
    other = identifier := by
  rcases opens with mem | ⟨_, digit⟩ | ⟨same, _⟩
  · exact absurd first (firsts_not_beginsWord other c mem)
  · exact absurd first (not_beginsWord_of_isDigit digit)
  · exact same

/-- Only a number begins with a digit. -/
lemma Opens.digit {other : Pattern} (opens : other.Opens c) (digit : c.isDigit) :
    other = number := by
  rcases opens with mem | ⟨same, _⟩ | ⟨_, first⟩
  · exact absurd digit (firsts_not_isDigit other c mem)
  · exact same
  · exact absurd first (not_beginsWord_of_isDigit digit)

end Pattern

/-- A word may end before this text: it is over, or goes on with a blank or a line break. -/
def Parted (cs : List Char) : Prop :=
  cs = [] ∨ ∃ rest, cs = ' ' :: rest ∨ cs = '\n' :: rest

/-- A run of characters ends where the first one stands that does not belong to it. -/
lemma takeWhile_append_of_stops {p : Char → Bool} {run rest : List Char} (inside : run.all p)
    (stops : ∀ c ∈ rest.head?, ¬ p c) : (run ++ rest).takeWhile p = run := by
  rw [List.takeWhile_append_of_pos (List.all_eq_true.mp inside)]
  cases rest with
  | nil => simp
  | cons c rest => rw [List.takeWhile_cons_of_neg (stops c rfl), List.append_nil]

/-- A run of characters ends before a blank or a line break that is not of its kind. -/
lemma Parted.stops {p : Char → Bool} {rest : List Char} (parted : Parted rest)
    (space : ¬ p ' ') (line : ¬ p '\n') : ∀ c ∈ rest.head?, ¬ p c := by
  rintro c mem
  rcases parted with rfl | ⟨rest, rfl | rfl⟩
  · cases mem
  · cases mem
    exact space
  · cases mem
    exact line

/-- A run of digits is split off where it ends. -/
lemma splitDigits_append {run rest : List Char} (digits : run.all Char.isDigit)
    (stops : ∀ c ∈ rest.head?, ¬ c.isDigit) : Number.splitDigits (run ++ rest) = (run, rest) := by
  have front := takeWhile_append_of_stops digits stops
  have back := List.takeWhile_append_dropWhile (p := Char.isDigit) (l := run ++ rest)
  rw [front] at back
  rw [Number.splitDigits, front, List.append_cancel_left back]

/-- Whether a text is one word, as names are. -/
def Text.isWord (s : String) : Bool :=
  match s.toList with
  | c :: cs => beginsWord c && cs.all continuesWord
  | [] => false

/-- A decimal numeral as programs have it: digits with a sign or without, and possibly a point and
more digits. There is no point if no digit stands after it. -/
structure Numeral where
  negative : Bool
  whole : List Char
  fraction : List Char
  whole_ne_nil : whole ≠ []
  whole_digits : whole.all Char.isDigit
  fraction_digits : fraction.all Char.isDigit

namespace Numeral

/-- The numeral without its sign. -/
def unsigned (x : Numeral) : List Char :=
  x.whole ++ if x.fraction = [] then [] else '.' :: x.fraction

/-- How the numeral is written. -/
def text (x : Numeral) : String :=
  String.ofList (if x.negative then '-' :: x.unsigned else x.unsigned)

/-- The digits of a numeral can be read. -/
lemma isSome_numeral? (x : Numeral) : (Number.numeral? x.unsigned).isSome := by
  have some_digit : x.whole.isEmpty = false := by simp [x.whole_ne_nil]
  rw [Number.numeral?, unsigned]
  by_cases none : x.fraction = []
  · rw [if_pos none, splitDigits_append x.whole_digits (by simp)]
    simp [some_digit]
  · have ends := @splitDigits_append x.fraction [] x.fraction_digits (by simp)
    rw [List.append_nil] at ends
    rw [if_neg none, splitDigits_append x.whole_digits (by simp)]
    simp [some_digit, ends]

/-- The digits of a numeral have a magnitude. -/
lemma isSome_magnitude? (x : Numeral) : (Number.magnitude? x.unsigned).isSome := by
  rw [Number.magnitude?]
  split
  · rfl
  · split
    · rfl
    · exact x.isSome_numeral?

/-- The digit that the numeral begins with, apart from its sign. -/
lemma unsigned_eq (x : Numeral) : ∃ c cs, x.unsigned = c :: cs ∧ c.isDigit := by
  obtain ⟨c, cs, shape⟩ := List.exists_cons_of_ne_nil x.whole_ne_nil
  have digits := x.whole_digits
  rw [shape, List.all_cons, Bool.and_eq_true] at digits
  rw [unsigned, shape, List.cons_append]
  exact ⟨c, _, rfl, digits.1⟩

/-- Every numeral denotes a number. -/
lemma isSome_ofText? (x : Numeral) : (Number.ofText? x.text).isSome := by
  obtain ⟨c, cs, shape, digit⟩ := x.unsigned_eq
  have magnitude := x.isSome_magnitude?
  rw [Number.ofText?, text, String.toList_ofList]
  cases x.negative with
  | true =>
    rw [if_pos rfl]
    simpa using magnitude
  | false =>
    rw [if_neg Bool.false_ne_true, shape]
    rw [shape] at magnitude
    split
    · next same =>
      cases same
      cases digit
    · next same =>
      cases same
      cases digit
    · exact magnitude

/-- The number that a numeral denotes. -/
def value (x : Numeral) : Float := (Number.ofText? x.text).get x.isSome_ofText?

/-- A numeral is read as its value. -/
lemma ofText?_text (x : Numeral) : Number.ofText? x.text = some x.value :=
  (Option.some_get x.isSome_ofText?).symm

/-- The digits of a numeral are matched up to their end. -/
lemma unsignedLength?_append (x : Numeral) {rest : List Char} (parted : Parted rest) :
    Pattern.unsignedLength? (x.unsigned ++ rest) = some x.unsigned.length := by
  have stops := parted.stops (p := Char.isDigit) (by decide) (by decide)
  have some_digit : x.whole.length ≠ 0 := by simp [x.whole_ne_nil]
  rw [Pattern.unsignedLength?, unsigned]
  by_cases none : x.fraction = []
  · rw [if_pos none, List.append_nil, takeWhile_append_of_stops x.whole_digits stops]
    simp only [if_neg some_digit, List.drop_left]
    rcases parted with rfl | ⟨rest, rfl | rfl⟩ <;> rfl
  · have fraction := takeWhile_append_of_stops x.fraction_digits stops
    have some_fraction : x.fraction.length ≠ 0 := by simp [none]
    rw [if_neg none, List.append_assoc, List.cons_append,
      takeWhile_append_of_stops x.whole_digits (by simp)]
    have length : (x.whole ++ '.' :: x.fraction).length =
        x.whole.length + 1 + x.fraction.length := by
      rw [List.length_append, List.length_cons]
      omega
    simp only [if_neg some_digit, List.drop_left, fraction, if_neg some_fraction, length]

/-- A numeral without a sign is matched as a number, whatever stands before it. -/
lemma longest?_unsigned (x : Numeral) {rest : List Char} (parted : Parted rest)
    (afterOperand : Bool) :
    Pattern.longest? afterOperand (x.unsigned ++ rest) = some (.number, x.unsigned.length) := by
  have length := x.unsignedLength?_append parted
  obtain ⟨c, cs, shape, digit⟩ := x.unsigned_eq
  rw [shape] at length ⊢
  refine Pattern.longest?_of_opens ?_ fun other _ opens => opens.digit digit
  rw [Pattern.length?, Pattern.numberLength?.eq_def]
  split
  · next same =>
    cases same
    cases digit
  · exact length

/-- A numeral with a sign is matched as a number where no operand stands before it. -/
lemma longest?_negative (x : Numeral) {rest : List Char} (parted : Parted rest) :
    Pattern.longest? false ('-' :: x.unsigned ++ rest) =
      some (.number, x.unsigned.length + 1) := by
  apply Pattern.longest?_eq
  · rw [Pattern.length?, List.cons_append, Pattern.numberLength?, x.unsignedLength?_append parted]
    rfl
  · intro other ne m found
    obtain ⟨c, cs, shape, -⟩ := x.unsigned_eq
    have minus : ∀ q ∈ Pattern.all, q.Opens '-' → q = .operator ∨ q = .number := by decide
    -- the sign alone would be an operator, which is shorter
    rcases minus other other.mem_all (Pattern.length?_opens found) with rfl | rfl
    · cases found
      simp [shape]
    · exact absurd rfl ne

end Numeral

/-- What a token is, apart from its place. -/
structure Piece where
  kind : TokenKind
  text : String
deriving DecidableEq, Repr

/-- A token without its place. -/
def Token.piece (t : Token) : Piece := ⟨t.kind, t.lexeme⟩

namespace Piece

open Pattern

/-- The token at a place. -/
def put (w : Piece) (position : Position) : Token := ⟨w.kind, w.text, position⟩

/-- Whether a minus after the piece subtracts. -/
def endsOperand (w : Piece) : Bool := (w.put .start).endsOperand

/-- The scan takes the piece at the beginning of the text. -/
structure Taken (w : Piece) (afterOperand : Bool) (cs : List Char) : Prop where
  longest : ∃ pattern, longest? afterOperand cs = some (pattern, w.text.toList.length) ∧
    pattern.kind? w.text = some w.kind
  closed : Token.opensUnclosed cs = false
  solid : blankLength cs = 0

/-- The scan takes the piece wherever it stands apart from what follows. -/
def Scans (afterOperand : Bool) (w : Piece) : Prop :=
  ∀ rest, Parted rest → w.Taken afterOperand (w.text.toList ++ rest)

/-- A word, as a name or with the meaning it is reserved for. -/
def word (s : String) : Piece := ⟨Token.classifyWord s, s⟩

/-- An operator. -/
def operator (op : Operator) : Piece := ⟨.operator, op.symbol⟩

/-- A symbol. -/
def symbol (s : String) : Piece := ⟨.symbol, s⟩

/-- A numeral. -/
def number (x : Numeral) : Piece := ⟨.number, x.text⟩

/-- A text between quotes. -/
def quote (s : String) : Piece := ⟨.string, "\"" ++ s ++ "\""⟩

/-- A piece is taken if its first character begins no match of another pattern. -/
lemma taken_of_plain {w : Piece} {afterOperand : Bool} {c : Char} {cs : List Char}
    (pattern : Pattern) (plain : ∀ other : Pattern, c ∉ other.firsts)
    (longest : longest? afterOperand (c :: cs) = some (pattern, w.text.toList.length))
    (kind : pattern.kind? w.text = some w.kind) : w.Taken afterOperand (c :: cs) := by
  refine ⟨⟨pattern, longest, kind⟩, ?_, blankLength_eq_zero (plain blank)⟩
  rw [Token.opensUnclosed]
  intro d same
  cases same
  exact plain string (by decide)

/-- Words are scanned as such. -/
lemma scans_word {s : String} (isWord : Text.isWord s) (afterOperand : Bool) :
    (word s).Scans afterOperand := by
  intro rest parted
  rw [Text.isWord] at isWord
  cases shape : s.toList with
  | nil =>
    rw [shape] at isWord
    cases isWord
  | cons c cs =>
    rw [shape, Bool.and_eq_true] at isWord
    obtain ⟨first, others⟩ := isWord
    have stops := parted.stops (p := Text.continuesWord) (by decide) (by decide)
    have found : Pattern.identifier.length? afterOperand (c :: (cs ++ rest)) =
        some (cs.length + 1) := by
      rw [length?, identifierLength?, if_pos first, takeWhile_append_of_stops others stops]
    have longest := longest?_of_opens found fun other _ opens => opens.word first
    rw [word, shape]
    refine taken_of_plain .identifier
      (fun other mem => firsts_not_beginsWord other c mem first) ?_ rfl
    rw [shape]
    exact longest

/-- Operators are scanned as such. -/
lemma scans_operator (op : Operator) (afterOperand : Bool) :
    (operator op).Scans afterOperand := by
  rintro rest (rfl | ⟨rest, rfl | rfl⟩) <;> cases op <;> cases afterOperand <;>
    exact ⟨⟨.operator, rfl, rfl⟩, rfl, rfl⟩

/-- Symbols are scanned as such. -/
lemma scans_symbol {s : String} (known : s ∈ ["<-", "(", ")", ",", "[", "]"])
    (afterOperand : Bool) : (symbol s).Scans afterOperand := by
  simp only [List.mem_cons, List.not_mem_nil, or_false] at known
  rintro rest (rfl | ⟨rest, rfl | rfl⟩) <;>
    rcases known with rfl | rfl | rfl | rfl | rfl | rfl <;>
      exact ⟨⟨.symbol, rfl, rfl⟩, rfl, rfl⟩

/-- Quoted texts without quotes in them are scanned as such. -/
lemma scans_quote {s : String} (unquoted : '"' ∉ s.toList) (afterOperand : Bool) :
    (quote s).Scans afterOperand := by
  intro rest parted
  have shape : (quote s).text.toList = '"' :: (s.toList ++ ['"']) := by simp [quote]
  have found : Pattern.string.length? afterOperand ('"' :: (s.toList ++ ['"'] ++ rest)) =
      some (s.toList.length + 2) := by
    have none : s.toList.findIdx? (· == '"') = none := by
      rw [List.findIdx?_eq_none_iff]
      intro c mem
      exact beq_eq_false_iff_ne.mpr fun same => unquoted (same ▸ mem)
    rw [length?, stringLength?, List.append_assoc, List.findIdx?_append, none]
    simp [List.findIdx?_cons]
  rw [shape, List.cons_append]
  refine ⟨⟨.string, ?_, rfl⟩, ?_, rfl⟩
  · rw [shape, List.length_cons, List.length_append]
    exact longest?_of_opens found (by decide)
  · simp [Token.opensUnclosed]

/-- A numeral with a sign is taken only where no operand stands before it. -/
lemma scans_number {x : Numeral} {afterOperand : Bool}
    (free : afterOperand = true → x.negative = false) : (number x).Scans afterOperand := by
  intro rest parted
  rw [number, Numeral.text]
  cases sign : x.negative with
  | true =>
    have first : afterOperand = false := by
      cases afterOperand with
      | true => exact absurd sign (by simp [free rfl])
      | false => rfl
    subst first
    rw [if_pos rfl, String.toList_ofList]
    refine ⟨⟨.number, ?_, rfl⟩, rfl, rfl⟩
    rw [String.toList_ofList]
    exact x.longest?_negative parted
  | false =>
    obtain ⟨c, cs, shape, digit⟩ := x.unsigned_eq
    rw [if_neg Bool.false_ne_true, String.toList_ofList]
    have longest := x.longest?_unsigned parted afterOperand
    rw [shape] at longest ⊢
    refine taken_of_plain .number
      (fun other mem => firsts_not_isDigit other c mem digit) ?_ rfl
    rw [String.toList_ofList]
    exact longest

/-- Each piece can be scanned after the one before it. -/
def Follows (afterOperand : Bool) : List Piece → Prop
  | [] => True
  | w :: ws => w.Scans afterOperand ∧ Follows w.endsOperand ws

/-- The text of a line: its pieces with blanks between them. -/
def line (ws : List Piece) : String := " ".intercalate (ws.map text)

/-- A line break. -/
def newLine : Piece := ⟨.newLine, "\n"⟩

end Piece

namespace Token

open Piece

/-- What a scan does with the longest match. -/
lemma scanFrom_longest {pattern : Pattern} {n : Nat} {afterOperand : Bool} {cs : List Char}
    (closed : opensUnclosed cs = false)
    (found : Pattern.longest? afterOperand cs = some (pattern, n)) (p : Position) :
    scanFrom p afterOperand cs =
      match pattern.kind? (String.ofList (cs.take n)) with
      | none => scanFrom (p.advanceAll (cs.take n)) afterOperand (cs.drop n)
      | some kind =>
        let token : Token := ⟨kind, String.ofList (cs.take n), p⟩
        (scanFrom (p.advanceAll (cs.take n)) token.endsOperand (cs.drop n)).map (token :: ·) := by
  cases cs with
  | nil => cases found
  | cons c rest =>
    rw [scanFrom, if_neg (by simp [closed])]
    split
    · next none =>
      rw [found] at none
      cases none
    · next same =>
      rw [found] at same
      cases same
      rfl

/-- The text from here on is scanned into the pieces, wherever it stands. The end is marked only
after the last of them. -/
def Reads (afterOperand : Bool) (cs : List Char) (ws : List Piece) : Prop :=
  ∀ p, ∃ ts q, scanFrom p afterOperand cs = .ok (ts ++ [eof q]) ∧ ts.map piece = ws ∧
    ∀ t ∈ ts, t.kind ≠ .eof

/-- Nothing is scanned into nothing. -/
lemma reads_nil (afterOperand : Bool) : Reads afterOperand [] [] := by
  intro p
  refine ⟨[], p, ?_, rfl, by simp⟩
  rw [scanFrom]
  rfl

/-- No match marks the end of the text. -/
lemma kind?_ne_eof (pattern : Pattern) (lexeme : String) : pattern.kind? lexeme ≠ some .eof := by
  cases pattern with
  | identifier =>
    rw [Pattern.kind?, classifyWord]
    split
    · simp
    · split <;> simp
  | _ => exact fun same => nomatch same

/-- A piece that is taken comes before the pieces of the rest. -/
lemma reads_piece {w : Piece} {ws : List Piece} {afterOperand : Bool} {rest : List Char}
    (taken : w.Taken afterOperand (w.text.toList ++ rest))
    (reads : Reads w.endsOperand rest ws) :
    Reads afterOperand (w.text.toList ++ rest) (w :: ws) := by
  intro p
  obtain ⟨⟨pattern, longest, kind⟩, closed, -⟩ := taken
  obtain ⟨ts, q, scanned, rfl, before⟩ := reads (p.advanceAll w.text.toList)
  have first : w.kind ≠ .eof := fun same => kind?_ne_eof pattern w.text (same ▸ kind)
  refine ⟨w.put p :: ts, q, ?_, rfl, List.forall_mem_cons.mpr ⟨first, before⟩⟩
  rw [scanFrom_longest closed longest, List.take_left, List.drop_left, String.ofList_toList, kind]
  change (scanFrom _ w.endsOperand rest).map _ = _
  rw [scanned]
  rfl

/-- A blank is skipped. -/
lemma reads_blank {ws : List Piece} {afterOperand : Bool} {cs : List Char}
    (solid : Pattern.blankLength cs = 0) (reads : Reads afterOperand cs ws) :
    Reads afterOperand (' ' :: cs) ws := by
  intro p
  have length : Pattern.blank.length? afterOperand (' ' :: cs) = some 1 := by
    simp [Pattern.length?, Pattern.blankLength, solid]
  have longest := Pattern.longest?_of_opens length (by decide)
  obtain ⟨ts, q, scanned, pieces⟩ := reads (p.advanceAll [' '])
  exact ⟨ts, q, (scanFrom_longest rfl longest p).trans scanned, pieces⟩

/-- A line break is a piece, after which no operand stands. -/
lemma reads_newLine {ws : List Piece} {cs : List Char} (reads : Reads false cs ws)
    (afterOperand : Bool) : Reads afterOperand ('\n' :: cs) (newLine :: ws) := by
  have taken : newLine.Taken afterOperand ('\n' :: cs) := ⟨⟨.newLine, rfl, rfl⟩, rfl, rfl⟩
  exact reads_piece taken reads

/-- A line is its first piece, and something that stands apart from it. -/
lemma line_append (w : Piece) (ws : List Piece) {rest : List Char} (parted : Parted rest) :
    ∃ more, (line (w :: ws)).toList ++ rest = w.text.toList ++ more ∧ Parted more := by
  cases ws with
  | nil => exact ⟨rest, by simp [line], parted⟩
  | cons v ws =>
    refine ⟨' ' :: ((line (v :: ws)).toList ++ rest), ?_, .inr ⟨_, .inl rfl⟩⟩
    simp [line, String.toList_intercalate]

/-- A line is scanned piece by piece. -/
lemma reads_line {us : List Piece} {rest : List Char} (parted : Parted rest)
    (reads : ∀ afterOperand, Reads afterOperand rest us) :
    ∀ {ws : List Piece} {afterOperand : Bool}, Follows afterOperand ws →
      Reads afterOperand ((line ws).toList ++ rest) (ws ++ us)
  | [], afterOperand, _ => reads afterOperand
  | [w], afterOperand, ⟨scans, _⟩ => by
    have step := reads_piece (scans rest parted) (reads w.endsOperand)
    simpa [line] using step
  | w :: v :: ws, afterOperand, ⟨scans, follows⟩ => by
    have next := reads_line parted reads follows
    have solid : Pattern.blankLength ((line (v :: ws)).toList ++ rest) = 0 := by
      obtain ⟨more, shape, apart⟩ := line_append v ws parted
      rw [shape]
      exact (follows.1 more apart).solid
    have step := reads_piece (scans _ (.inr ⟨_, .inl rfl⟩)) (reads_blank solid next)
    simpa [line, String.toList_intercalate] using step

/-- Lines are scanned one after the other, with a line break between two of them. -/
lemma reads_lines : ∀ {lines : List (List Piece)}, (∀ ws ∈ lines, Follows false ws) →
    Reads false ("\n".intercalate (lines.map line)).toList ([newLine].intercalate lines)
  | [], _ => reads_nil false
  | [ws], follows => by
    have step := reads_line (.inl rfl) reads_nil (follows ws (by simp))
    simpa using step
  | ws :: vs :: lines, follows => by
    have next := reads_lines fun us mem => follows us (List.mem_cons_of_mem ws mem)
    have step := reads_line (.inr ⟨_, .inr rfl⟩) (reads_newLine next) (follows ws (by simp))
    simpa [String.toList_intercalate] using step

end Token

end Easel
