import Easel.Proofs.Layout
import Mathlib.Data.List.Find

/-!
# How far a scan looks ahead

No pattern sees past a space, a tab or a line feed, unless it is inside of quotes that are closed.
So the longest match at the beginning of a text stays the same when a text is put after it that
begins with one of these (`Pattern.longest?_append`). There are two exceptions: blanks go on with
blanks, and a line feed makes one line break with a carriage return before it. Neither is met if the
match is no blank (`Pattern.longest?_append_of_solid`), or if a line feed follows something other
than a carriage return (`Pattern.longest?_append_line`).
-/

namespace Easel

/-- No word goes on with the text: it is over, or begins with a space, a tab or a line feed. -/
def Breaks (cs : List Char) : Prop := ∀ c ∈ cs.head?, c = ' ' ∨ c = '\t' ∨ c = '\n'

namespace Breaks

/-- The end of a text breaks off every match. -/
lemma nil : Breaks [] := nofun

/-- A space, a tab or a line feed breaks off every match. -/
lemma cons {c : Char} (break_ : c = ' ' ∨ c = '\t' ∨ c = '\n') (cs : List Char) :
    Breaks (c :: cs) := by
  rintro _ ⟨⟩
  exact break_

/-- A run of characters ends at a break. -/
lemma stops {p : Char → Bool} {ds : List Char} (breaks : Breaks ds) (space : ¬ p ' ')
    (tab : ¬ p '\t') (line : ¬ p '\n') : ∀ c ∈ ds.head?, ¬ p c := by
  intro c first
  rcases breaks c first with rfl | rfl | rfl
  · exact space
  · exact tab
  · exact line

end Breaks

/-- A run ends where it would end without what follows, if it cannot go on with that. -/
lemma takeWhile_append_eq {p : Char → Bool} {ds : List Char} (stops : ∀ c ∈ ds.head?, ¬ p c) :
    ∀ cs : List Char, (cs ++ ds).takeWhile p = cs.takeWhile p
  | [] => by
    cases ds with
    | nil => rfl
    | cons d ds => exact List.takeWhile_cons_of_neg (stops d rfl)
  | c :: cs => by
    rw [List.cons_append, List.takeWhile_cons, List.takeWhile_cons, takeWhile_append_eq stops cs]

/-- A word that begins a text begins it without what follows, if that begins with a character the
word does not have. -/
lemma isPrefixOf_append_eq {ds : List Char} :
    ∀ {word : List Char} (cs : List Char), (∀ c ∈ ds.head?, c ∉ word) →
      word.isPrefixOf (cs ++ ds) = word.isPrefixOf cs
  | [], cs, _ => by rw [List.isPrefixOf_nil_left, List.isPrefixOf_nil_left]
  | a :: word, [], foreign => by
    cases ds with
    | nil => rfl
    | cons d ds =>
      have other : (a == d) = false :=
        beq_eq_false_iff_ne.mpr fun same => foreign d rfl (by simp [same])
      simp [List.isPrefixOf, other]
  | a :: word, c :: cs, foreign => by
    rw [List.cons_append, List.isPrefixOf, List.isPrefixOf,
      isPrefixOf_append_eq cs fun d first mem => foreign d first (List.mem_cons_of_mem a mem)]

namespace Pattern

variable {afterOperand : Bool} {c : Char} {cs ds : List Char} {pattern : Pattern} {n : Nat}

/-- Of what follows a text, the longest match depends on what the patterns see. -/
lemma longest?_congr (same : ∀ pattern : Pattern,
    pattern.length? afterOperand cs = pattern.length? afterOperand ds) :
    longest? afterOperand cs = longest? afterOperand ds := by
  simp only [longest?, same]

/-- A match of digits is not longer than the text. -/
lemma unsignedLength?_le (found : unsignedLength? cs = some n) : n ≤ cs.length := by
  have whole : (cs.takeWhile Char.isDigit).length ≤ cs.length :=
    (List.takeWhile_prefix _).length_le
  simp only [unsignedLength?] at found
  split at found
  · cases found
  · split at found
    · next rest point =>
      have fraction : (rest.takeWhile Char.isDigit).length ≤ rest.length :=
        (List.takeWhile_prefix _).length_le
      have left := congrArg List.length point
      rw [List.length_drop, List.length_cons] at left
      split at found <;> cases found <;> omega
    · cases found
      exact whole

/-- A run of blanks is not longer than the text. -/
lemma blankLength_le (cs : List Char) : blankLength cs ≤ cs.length := by
  fun_induction blankLength cs with
  | case1 => exact Nat.zero_le _
  | case2 c cs _ _ ih => exact Nat.succ_le_succ ih
  | case3 => exact Nat.zero_le _
  | case4 => exact Nat.zero_le _

/-- A match is not longer than the text. -/
lemma length?_le (found : pattern.length? afterOperand cs = some n) : n ≤ cs.length := by
  have word {words : List String} (found : wordLength? words cs = some n) : n ≤ cs.length := by
    obtain ⟨word, hit, rfl⟩ := Option.map_eq_some_iff.mp found
    have begins : word.toList <+: cs := by simpa using List.find?_some hit
    exact begins.length_le
  cases pattern with
  | newLine =>
    rw [length?, newLineLength?.eq_def] at found
    split at found <;> cases found <;> simp
  | string =>
    rw [length?, stringLength?.eq_def] at found
    split at found
    · obtain ⟨i, closing, rfl⟩ := Option.map_eq_some_iff.mp found
      obtain ⟨inside, -⟩ := List.findIdx?_eq_some_iff_getElem.mp closing
      exact Nat.succ_le_succ inside
    · cases found
  | operator => exact word found
  | symbol => exact word found
  | number =>
    rw [length?, numberLength?.eq_def] at found
    split at found
    · split at found
      · cases found
      · obtain ⟨m, unsigned, rfl⟩ := Option.map_eq_some_iff.mp found
        exact Nat.succ_le_succ (unsignedLength?_le unsigned)
    · exact unsignedLength?_le found
  | identifier =>
    rw [length?, identifierLength?.eq_def] at found
    split at found
    · split at found
      · cases found
        exact Nat.succ_le_succ (List.takeWhile_prefix _).length_le
      · cases found
    · cases found
  | blank =>
    rw [length?] at found
    split at found
    · cases found
    · cases found
      exact blankLength_le cs

/-- Words are not matched past a break. -/
lemma wordLength?_append {words : List String} (breaks : Breaks ds)
    (foreign : ∀ word ∈ words, ' ' ∉ word.toList ∧ '\t' ∉ word.toList ∧ '\n' ∉ word.toList)
    (cs : List Char) : wordLength? words (cs ++ ds) = wordLength? words cs := by
  rw [wordLength?, wordLength?, List.find?_congr]
  intro word mem
  obtain ⟨space, tab, line⟩ := foreign word mem
  refine isPrefixOf_append_eq cs fun d first => ?_
  rcases breaks d first with rfl | rfl | rfl
  · exact space
  · exact tab
  · exact line

/-- Digits are not matched past a break. -/
lemma unsignedLength?_append (breaks : Breaks ds) (cs : List Char) :
    unsignedLength? (cs ++ ds) = unsignedLength? cs := by
  have digits := takeWhile_append_eq (breaks.stops (p := Char.isDigit) (by decide) (by decide)
    (by decide))
  have point := breaks.stops (p := (· == '.')) (by decide) (by decide) (by decide)
  have within : (cs.takeWhile Char.isDigit).length ≤ cs.length :=
    (List.takeWhile_prefix _).length_le
  rw [unsignedLength?, unsignedLength?, digits, List.drop_append_of_le_length within]
  cases cs.drop (cs.takeWhile Char.isDigit).length with
  | nil =>
    cases ds with
    | nil => rfl
    | cons d ds =>
      have other : d ≠ '.' := by simpa using point d rfl
      simp [other]
  | cons e rest =>
    by_cases dot : e = '.'
    · subst dot
      simp [digits]
    · simp [dot]

/-- A number that begins with no sign is matched as digits. -/
lemma numberLength?_of_ne (other : c ≠ '-') :
    numberLength? afterOperand (c :: cs) = unsignedLength? (c :: cs) := by
  rw [numberLength?.eq_def]
  split
  · next same =>
    cases same
    exact absurd rfl other
  · rfl

/-- Numbers are not matched past a break. -/
lemma numberLength?_append (breaks : Breaks ds) (c : Char) (cs : List Char) :
    numberLength? afterOperand (c :: cs ++ ds) = numberLength? afterOperand (c :: cs) := by
  by_cases minus : c = '-'
  · rw [minus, List.cons_append, numberLength?, numberLength?, unsignedLength?_append breaks]
  · rw [List.cons_append, numberLength?_of_ne minus, numberLength?_of_ne minus, ← List.cons_append,
      unsignedLength?_append breaks]

/-- Names are not matched past a break. -/
lemma identifierLength?_append (breaks : Breaks ds) (c : Char) (cs : List Char) :
    identifierLength? (c :: cs ++ ds) = identifierLength? (c :: cs) := by
  have letters := takeWhile_append_eq (breaks.stops (p := Text.continuesWord) (by decide)
    (by decide) (by decide))
  rw [List.cons_append, identifierLength?, identifierLength?, letters]

/-- A quote that is closed stays closed. -/
lemma opensUnclosed_append (closed : Token.opensUnclosed (c :: cs) = false) (ds : List Char) :
    Token.opensUnclosed (c :: cs ++ ds) = false := by
  by_cases quote : c = '"'
  · subst quote
    have mem : '"' ∈ cs := by simpa [Token.opensUnclosed] using closed
    simp [Token.opensUnclosed, mem]
  · simp [Token.opensUnclosed, quote]

/-- A quoted text ends where it is closed. -/
lemma stringLength?_append (closed : Token.opensUnclosed (c :: cs) = false) (ds : List Char) :
    stringLength? (c :: cs ++ ds) = stringLength? (c :: cs) := by
  by_cases quote : c = '"'
  · subst quote
    have mem : '"' ∈ cs := by simpa [Token.opensUnclosed] using closed
    rw [List.cons_append, stringLength?, stringLength?, List.findIdx?_append]
    cases found : cs.findIdx? (· == '"') with
    | none => exact absurd (List.findIdx?_eq_none_iff.mp found '"' mem) (by simp)
    | some i => rfl
  · simp [stringLength?, quote]

/-- Text that no word goes on with does not change the longest match, if it makes no line break and
no blanks with what stands before it. -/
lemma longest?_append (breaks : Breaks ds) (closed : Token.opensUnclosed (c :: cs) = false)
    (line : newLineLength? (c :: cs ++ ds) = newLineLength? (c :: cs))
    (blanks : blankLength (c :: cs ++ ds) = blankLength (c :: cs)) :
    longest? afterOperand (c :: cs ++ ds) = longest? afterOperand (c :: cs) := by
  apply longest?_congr
  intro pattern
  cases pattern with
  | newLine => exact line
  | string => exact stringLength?_append closed ds
  | operator => exact wordLength?_append breaks (by decide) (c :: cs)
  | symbol => exact wordLength?_append breaks (by decide) (c :: cs)
  | number => exact numberLength?_append breaks c cs
  | identifier => exact identifierLength?_append breaks c cs
  | blank => rw [length?, length?, blanks]

/-- A line feed is a line break, and so is a carriage return before one. -/
lemma newLineLength?_cons (c : Char) (cs : List Char) :
    newLineLength? (c :: cs) =
      if c = '\n' then some 1 else if c = '\r' ∧ cs.head? = some '\n' then some 2 else none := by
  rw [newLineLength?.eq_def]
  split
  · next same =>
    cases same
    rfl
  · next same =>
    cases same
    rfl
  · next noLine noReturn =>
    rw [if_neg fun same => noLine cs (by rw [same]), if_neg]
    rintro ⟨rfl, first⟩
    obtain ⟨rest, rfl⟩ := List.head?_eq_some_iff.mp first
    exact noReturn rest rfl

/-- Blanks are counted one by one, up to a carriage return that belongs to a line break. -/
lemma blankLength_cons (c : Char) (cs : List Char) :
    blankLength (c :: cs) =
      if c = '\r' ∧ cs.head? = some '\n' then 0
      else if c = ' ' ∨ c = '\t' ∨ c = '\r' then blankLength cs + 1 else 0 := by
  rw [blankLength.eq_def]
  split
  · next same =>
    cases same
    rfl
  · next c' cs' noReturn same =>
    cases same
    refine (if_neg ?_).symm
    rintro ⟨first, second⟩
    obtain ⟨rest, following⟩ := List.head?_eq_some_iff.mp second
    exact noReturn rest first following
  · next same => cases same

/-- A carriage return that is no blank belongs to a line break. -/
lemma head?_of_solid (solid : blankLength (c :: cs) = 0) : c = '\r' → cs.head? = some '\n' := by
  rintro rfl
  rw [blankLength_cons] at solid
  grind

/-- A text that does not begin with a blank does not begin with one whatever follows it. -/
lemma blankLength_append_of_solid (solid : blankLength (c :: cs) = 0) (ds : List Char) :
    blankLength (c :: cs ++ ds) = 0 := by
  have returns := head?_of_solid solid
  rw [blankLength_cons] at solid
  rw [List.cons_append, blankLength_cons, List.head?_append]
  grind

/-- After a text that does not begin with a blank, nothing that breaks words changes the match. -/
lemma longest?_append_of_solid (breaks : Breaks ds)
    (closed : Token.opensUnclosed (c :: cs) = false) (solid : blankLength (c :: cs) = 0) :
    longest? afterOperand (c :: cs ++ ds) = longest? afterOperand (c :: cs) := by
  refine longest?_append breaks closed ?_ ?_
  · have returns := head?_of_solid solid
    rw [List.cons_append, newLineLength?_cons, newLineLength?_cons, List.head?_append]
    grind
  · rw [blankLength_append_of_solid solid, solid]

/-- Blanks end before a line feed, unless a carriage return stands before it. -/
lemma blankLength_append_line (ds : List Char) :
    ∀ {cs : List Char}, cs.getLast? ≠ some '\r' →
      blankLength (cs ++ '\n' :: ds) = blankLength cs
  | [], _ => rfl
  | [c], last => by
    have noReturn : c ≠ '\r' := by simpa using last
    simp [blankLength_cons, noReturn, blankLength]
  | c :: d :: cs, last => by
    rw [List.getLast?_cons_cons] at last
    rw [List.cons_append, blankLength_cons, blankLength_append_line ds last, blankLength_cons c]
    rfl

/-- A line feed does not change the match before it, if no carriage return comes between. -/
lemma longest?_append_line (closed : Token.opensUnclosed (c :: cs) = false)
    (last : (c :: cs).getLast? ≠ some '\r') (ds : List Char) :
    longest? afterOperand (c :: cs ++ '\n' :: ds) = longest? afterOperand (c :: cs) := by
  refine longest?_append (.cons (.inr (.inr rfl)) ds) closed ?_ (blankLength_append_line ds last)
  rw [List.cons_append, newLineLength?_cons, newLineLength?_cons]
  cases cs with
  | nil =>
    have noReturn : c ≠ '\r' := by simpa using last
    simp [noReturn]
  | cons d cs => rfl

end Pattern

end Easel
