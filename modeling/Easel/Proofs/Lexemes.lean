import Easel.Proofs.Scanning

/-!
# The forms of lexemes

What a scan takes from a text has the form of its kind (`Piece.Formed`): an operator or a symbol is
one of the known ones, a number is a numeral, a text stands between two quotes and has none inside,
and a word is reserved or a name. One thing depends on what stands before: a numeral has a sign only
where no operand precedes it.

A lexeme of such a form is taken as a whole wherever it stands apart from what follows it
(`Piece.Formed.scans`). So the tokens of a text are pieces that can be scanned one after the other
(`Token.scanFrom_formed`), which is how one text is compared with another one of the same tokens.
-/

namespace Easel

namespace Pattern

variable {afterOperand : Bool} {cs : List Char} {n : Nat}

/-- A line break is a line feed, with or without a carriage return. -/
lemma take_newLineLength? (found : newLineLength? cs = some n) :
    cs.take n = ['\n'] ∨ cs.take n = ['\r', '\n'] := by
  rw [newLineLength?.eq_def] at found
  split at found
  · cases found
    exact .inl rfl
  · cases found
    exact .inr rfl
  · cases found

/-- Between its quotes, a quoted text has none. -/
lemma take_stringLength? (found : stringLength? cs = some n) :
    ∃ s : String, cs.take n = (Piece.quote s).text.toList ∧ '"' ∉ s.toList := by
  rw [stringLength?.eq_def] at found
  split at found
  · next rest =>
    obtain ⟨i, first, rfl⟩ := Option.map_eq_some_iff.mp found
    obtain ⟨inside, quote, before⟩ := List.findIdx?_eq_some_iff_getElem.mp first
    refine ⟨String.ofList (rest.take i), ?_, ?_⟩
    · have last : rest[i] = '"' := by simpa using quote
      rw [List.take_succ_cons, List.take_add_one, List.getElem?_eq_getElem inside, last]
      simp [Piece.quote]
    · rw [String.toList_ofList]
      intro mem
      obtain ⟨j, less, same⟩ := List.mem_take_iff_getElem.mp mem
      have other := before j (by omega)
      simp [same] at other
  · cases found

/-- What is matched as one of some words is one of them. -/
lemma take_wordLength? {words : List String} (found : wordLength? words cs = some n) :
    ∃ word ∈ words, cs.take n = word.toList := by
  obtain ⟨word, hit, rfl⟩ := Option.map_eq_some_iff.mp found
  have begins : word.toList <+: cs := by simpa using List.find?_some hit
  exact ⟨word, List.mem_of_find?_eq_some hit, (List.prefix_iff_eq_take.mp begins).symm⟩

/-- A run of characters is taken as a whole. -/
lemma take_length_takeWhile (p : Char → Bool) (cs : List Char) :
    cs.take (cs.takeWhile p).length = cs.takeWhile p :=
  (List.prefix_iff_eq_take.mp (List.takeWhile_prefix p)).symm

/-- Without its sign, a number is a numeral that has none. -/
lemma take_unsignedLength? (found : unsignedLength? cs = some n) :
    ∃ x : Numeral, x.negative = false ∧ cs.take n = x.unsigned := by
  have whole : (cs.takeWhile Char.isDigit).all Char.isDigit := List.all_takeWhile
  have front := take_length_takeWhile Char.isDigit cs
  simp only [unsignedLength?] at found
  split at found
  · cases found
  · next some_digit =>
    have whole_ne : cs.takeWhile Char.isDigit ≠ [] := fun none => some_digit (by rw [none]; rfl)
    split at found
    · next rest point =>
      split at found
      · cases found
        exact ⟨⟨false, _, [], whole_ne, whole, rfl⟩, rfl, by simpa [Numeral.unsigned] using front⟩
      · next some_fraction =>
        cases found
        have fraction_ne : rest.takeWhile Char.isDigit ≠ [] := fun none =>
          some_fraction (by rw [none]; rfl)
        refine ⟨⟨false, _, rest.takeWhile Char.isDigit, whole_ne, whole, List.all_takeWhile⟩, rfl,
          ?_⟩
        rw [Nat.add_assoc, List.take_add, front, point, Nat.add_comm 1, List.take_succ_cons,
          take_length_takeWhile, Numeral.unsigned, if_neg fraction_ne]
    · cases found
      exact ⟨⟨false, _, [], whole_ne, whole, rfl⟩, rfl, by simpa [Numeral.unsigned] using front⟩

/-- A number is a numeral, with a sign only where no operand stands before it. -/
lemma take_numberLength? (found : numberLength? afterOperand cs = some n) :
    ∃ x : Numeral, (afterOperand = true → x.negative = false) ∧ cs.take n = x.text.toList := by
  rw [numberLength?.eq_def] at found
  split at found
  · split at found
    · cases found
    · next first =>
      obtain ⟨m, unsigned, rfl⟩ := Option.map_eq_some_iff.mp found
      obtain ⟨x, -, shape⟩ := take_unsignedLength? unsigned
      refine ⟨{ x with negative := true }, fun after => absurd after first, ?_⟩
      rw [List.take_succ_cons, shape, Numeral.text, if_pos rfl, String.toList_ofList]
      rfl
  · obtain ⟨x, positive, shape⟩ := take_unsignedLength? found
    refine ⟨x, fun _ => positive, ?_⟩
    rw [shape, Numeral.text, positive, if_neg Bool.false_ne_true, String.toList_ofList]

/-- What is matched as a name is a word. -/
lemma take_identifierLength? (found : identifierLength? cs = some n) :
    Text.isWord (String.ofList (cs.take n)) := by
  cases cs with
  | nil => cases found
  | cons c rest =>
    rw [identifierLength?] at found
    split at found
    · next first =>
      cases found
      rw [List.take_succ_cons, take_length_takeWhile, Text.isWord, String.toList_ofList,
        Bool.and_eq_true]
      exact ⟨first, List.all_takeWhile⟩
    · cases found

end Pattern

namespace Piece

open Pattern

/-- The piece has the form of its kind. -/
inductive Formed (afterOperand : Bool) : Piece → Prop where
  | newLine :
    Formed afterOperand newLine
  | crlf :
    Formed afterOperand ⟨.newLine, "\r\n"⟩
  | quote {s} :
    '"' ∉ s.toList →
    Formed afterOperand (quote s)
  | operator (op) :
    Formed afterOperand (operator op)
  | symbol {s} :
    s ∈ symbolLexemes →
    Formed afterOperand (symbol s)
  | number {x} :
    (afterOperand = true → x.negative = false) →
    Formed afterOperand (number x)
  | word {s} :
    Text.isWord s →
    Formed afterOperand (word s)

/-- The lexemes of operators are those of the operators of expressions. -/
lemma operator_of_mem {s : String} (mem : s ∈ operatorLexemes) :
    ∃ op : Operator, s = op.symbol := by
  have all : operatorLexemes.all fun s => Operator.all.any fun op => s == op.symbol := by decide
  have found := List.all_eq_true.mp all s mem
  obtain ⟨op, -, same⟩ := List.any_eq_true.mp found
  exact ⟨op, eq_of_beq same⟩

/-- What is taken as a token has the form of its kind. -/
lemma formed_of_longest? {afterOperand : Bool} {cs : List Char} {pattern : Pattern} {n : Nat}
    {kind : TokenKind} (found : longest? afterOperand cs = some (pattern, n))
    (known : pattern.kind? (String.ofList (cs.take n)) = some kind) :
    Formed afterOperand ⟨kind, String.ofList (cs.take n)⟩ := by
  have length := longest?_length? found
  cases pattern with
  | newLine =>
    cases known
    rcases take_newLineLength? length with shape | shape
    · rw [shape]
      exact .newLine
    · rw [shape]
      exact .crlf
  | string =>
    cases known
    obtain ⟨s, shape, unquoted⟩ := take_stringLength? length
    rw [shape, String.ofList_toList]
    exact .quote unquoted
  | operator =>
    cases known
    obtain ⟨s, mem, shape⟩ := take_wordLength? length
    obtain ⟨op, rfl⟩ := operator_of_mem mem
    rw [shape, String.ofList_toList]
    exact .operator op
  | symbol =>
    cases known
    obtain ⟨s, mem, shape⟩ := take_wordLength? length
    rw [shape, String.ofList_toList]
    exact .symbol mem
  | number =>
    cases known
    obtain ⟨x, free, shape⟩ := take_numberLength? length
    rw [shape, String.ofList_toList]
    exact .number free
  | identifier =>
    cases known
    exact .word (take_identifierLength? length)
  | blank => cases known

/-- The arrow in one character is scanned as a symbol. -/
lemma scans_arrow (afterOperand : Bool) : (symbol "←").Scans afterOperand := by
  intro rest parted
  have found : Pattern.symbol.length? afterOperand ('←' :: rest) = some 1 := rfl
  refine ⟨⟨.symbol, longest?_of_opens found (by decide +kernel), rfl⟩, rfl, rfl⟩

/-- A line feed is scanned as a line break. -/
lemma scans_newLine (afterOperand : Bool) : newLine.Scans afterOperand :=
  fun _ _ => ⟨⟨.newLine, rfl, rfl⟩, rfl, rfl⟩

/-- A carriage return with a line feed is scanned as a line break. -/
lemma scans_crlf (afterOperand : Bool) : (⟨.newLine, "\r\n"⟩ : Piece).Scans afterOperand :=
  fun _ _ => ⟨⟨.newLine, rfl, rfl⟩, rfl, rfl⟩

/-- A piece of the form of its kind is taken wherever it stands apart from what follows. -/
lemma Formed.scans {afterOperand : Bool} {w : Piece} (formed : Formed afterOperand w) :
    w.Scans afterOperand := by
  cases formed with
  | newLine => exact scans_newLine afterOperand
  | crlf => exact scans_crlf afterOperand
  | quote unquoted => exact scans_quote unquoted afterOperand
  | operator op => exact scans_operator op afterOperand
  | @symbol s mem =>
    by_cases arrow : s = "←"
    · rw [arrow]
      exact scans_arrow afterOperand
    · refine scans_symbol ?_ afterOperand
      simpa [symbolLexemes, arrow] using mem
  | number free => exact scans_number free
  | word isWord => exact scans_word isWord afterOperand

/-- No text is scanned as the mark of the end. -/
lemma Formed.ne_eof {afterOperand : Bool} {w : Piece} (formed : Formed afterOperand w) :
    w.kind ≠ .eof := by
  cases formed with
  | @word s _ => exact fun same => Token.kind?_ne_eof .identifier s (congrArg some same)
  | _ => exact fun same => nomatch same

end Piece

namespace Token

open Piece

/-- The tokens of a text have the forms of their kinds, can be scanned one after the other, and end
with a mark. -/
lemma scanFrom_formed (p : Position) (afterOperand : Bool) (cs : List Char) {ts : List Token}
    (scanned : scanFrom p afterOperand cs = .ok ts) :
    ∃ us q, ts = us ++ [eof q] ∧ Follows afterOperand (us.map piece) ∧
      ∀ t ∈ us, ∃ before, Formed before t.piece := by
  -- along the scan: blanks add nothing, and each token has the form of its pattern
  fun_induction scanFrom p afterOperand cs generalizing ts with
  | case1 p afterOperand =>
    cases scanned
    exact ⟨[], p, rfl, trivial, by simp⟩
  | case2 => cases scanned
  | case3 => cases scanned
  | case4 =>
    rename_i ih
    exact ih scanned
  | case5 p afterOperand c rest closed pattern n found positive lexeme after kind known t =>
    rename_i ih
    cases result : scanFrom after t.endsOperand ((c :: rest).drop n) with
    | error d =>
      rw [result] at scanned
      cases scanned
    | ok vs =>
      rw [result] at scanned
      cases scanned
      have formed : Formed afterOperand t.piece := formed_of_longest? found known
      obtain ⟨us, q, rfl, follows, each⟩ := ih result
      exact ⟨t :: us, q, rfl, ⟨formed.scans, follows⟩,
        List.forall_mem_cons.mpr ⟨⟨afterOperand, formed⟩, each⟩⟩

end Token

end Easel
