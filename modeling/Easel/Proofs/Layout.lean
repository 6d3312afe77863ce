import Easel.Proofs.Scanning
import Mathlib.Data.List.Induction

/-!
# The layout of a text

A scan loses nothing but blanks: what is not part of a lexeme is a space, a tab or a carriage return
(`Token.Layout`). Every token carries the place where its lexeme begins, as it is found by counting
lines and columns from the beginning of the text (`Position.after`), whatever stands before it.
-/

namespace Easel

namespace Position

/-- The place after a text that begins at the start: a line for each line feed in it, and a column
for each character since the last one. -/
def after (cs : List Char) : Position :=
  ⟨1 + cs.count '\n', 1 + (cs.reverse.takeWhile (· ≠ '\n')).length⟩

/-- A place moves past the last character last. -/
lemma after_concat (cs : List Char) (c : Char) : after (cs ++ [c]) = (after cs).advance c := by
  by_cases line : c = '\n' <;> simp [after, advance, line, Nat.add_assoc]

/-- Going through a text character by character leads to the place that is found by counting. -/
lemma advanceAll_start (cs : List Char) : start.advanceAll cs = after cs := by
  induction cs using List.reverseRecOn with
  | nil => rfl
  | append_singleton cs c ih => rw [advanceAll_append, ih, after_concat, advanceAll_cons,
      advanceAll_nil]

end Position

/-- Only spaces, tabs and carriage returns. -/
def Blank (cs : List Char) : Prop := ∀ c ∈ cs, c = ' ' ∨ c = '\t' ∨ c = '\r'

/-- Blanks after blanks are blanks. -/
lemma Blank.append {cs ds : List Char} (hc : Blank cs) (hd : Blank ds) : Blank (cs ++ ds) := by
  intro c mem
  rcases List.mem_append.mp mem with mem | mem
  · exact hc c mem
  · exact hd c mem

namespace Pattern

/-- What is matched as blanks is blank. -/
lemma blank_take_blankLength (cs : List Char) : Blank (cs.take (blankLength cs)) := by
  fun_induction blankLength cs with
  | case1 rest => exact nofun
  | case2 c cs crlf isBlank ih =>
    rw [List.take_succ_cons]
    exact List.forall_mem_cons.mpr ⟨isBlank, ih⟩
  | case3 => exact nofun
  | case4 => exact nofun

/-- What is dropped is blank. -/
lemma blank_take_of_kind?_none {pattern : Pattern} {afterOperand : Bool} {cs : List Char} {n : Nat}
    {lexeme : String} (found : longest? afterOperand cs = some (pattern, n))
    (dropped : pattern.kind? lexeme = none) : Blank (cs.take n) := by
  have length := longest?_length? found
  cases pattern with
  | blank =>
    rw [length?] at length
    split at length
    · cases length
    · cases length
      exact blank_take_blankLength cs
  | _ => cases dropped

end Pattern

namespace Token

/-- The tokens have their lexemes one after the other in a text that begins at a place, with blanks
between them at most, and the places where these begin. The last token marks the end of the text. -/
inductive Layout : Position → List Char → List Token → Prop where
  | ends {p gap} :
    Blank gap →
    Layout p gap [.eof (p.advanceAll gap)]
  | word {p gap t cs ts} :
    Blank gap →
    t.kind ≠ .eof →
    t.lexeme ≠ "" →
    t.position = p.advanceAll gap →
    Layout (p.advanceAll (gap ++ t.lexeme.toList)) cs ts →
    Layout p (gap ++ t.lexeme.toList ++ cs) (t :: ts)

/-- Blanks before a layout belong to it. -/
lemma Layout.indent {p : Position} {gap cs : List Char} {ts : List Token} (blank : Blank gap)
    (layout : Layout (p.advanceAll gap) cs ts) : Layout p (gap ++ cs) ts := by
  cases layout with
  | @ends _ more blank' =>
    rw [← Position.advanceAll_append]
    exact .ends (blank.append blank')
  | @word _ more t cs ts blank' kind solid position rest =>
    rw [← Position.advanceAll_append] at position rest
    rw [← List.append_assoc, ← List.append_assoc]
    rw [← List.append_assoc] at rest
    exact .word (blank.append blank') kind solid position rest

/-- A match that is not empty has a lexeme that is not empty. -/
lemma ofList_take_ne_empty (c : Char) (cs : List Char) {n : Nat} (positive : 0 < n) :
    String.ofList ((c :: cs).take n) ≠ "" := by
  obtain ⟨k, rfl⟩ := Nat.exists_eq_add_of_lt positive
  intro same
  have none := congrArg String.toList same
  rw [String.toList_ofList, Nat.zero_add, List.take_succ_cons] at none
  cases none

/-- A text that is scanned has the layout that its tokens say. -/
lemma scanFrom_layout (p : Position) (afterOperand : Bool) (cs : List Char) {ts : List Token}
    (scanned : scanFrom p afterOperand cs = .ok ts) : Layout p cs ts := by
  fun_induction scanFrom p afterOperand cs generalizing ts with
  | case1 p afterOperand =>
    cases scanned
    exact .ends nofun
  | case2 => cases scanned
  | case3 => cases scanned
  | case4 p afterOperand c rest closed pattern n found positive lexeme after dropped =>
    -- what is dropped is added to the gap in front of the next token
    rename_i ih
    have blank : Blank lexeme := Pattern.blank_take_of_kind?_none found dropped
    have layout := (ih scanned).indent blank
    rwa [List.take_append_drop] at layout
  | case5 p afterOperand c rest closed pattern n found positive lexeme after kind known t =>
    rename_i ih
    cases result : scanFrom after t.endsOperand ((c :: rest).drop n) with
    | error d =>
      rw [result] at scanned
      cases scanned
    | ok us =>
      rw [result] at scanned
      cases scanned
      have kind_ne : kind ≠ .eof := fun same => kind?_ne_eof pattern _ (same ▸ known)
      have solid := ofList_take_ne_empty c rest (Pattern.longest?_pos found)
      have rest_layout := ih result
      -- nothing was dropped before this token, so its gap is empty here
      have word : Layout p ([] ++ t.lexeme.toList ++ (c :: rest).drop n) (t :: us) :=
        .word nofun kind_ne solid rfl (by rwa [List.nil_append, String.toList_ofList])
      rwa [List.nil_append, String.toList_ofList, List.take_append_drop] at word

/-- A token and the characters in front of it. -/
structure Spaced where
  gap : List Char
  token : Token

/-- The characters in front of a token, then its lexeme. -/
def Spaced.text (w : Spaced) : List Char := w.gap ++ w.token.lexeme.toList

/-- A layout consists of words with blanks before them, and blanks at the end. -/
lemma Layout.exists_words {p : Position} {cs : List Char} {ts : List Token}
    (layout : Layout p cs ts) :
    ∃ (words : List Spaced) (tail : List Char),
      ts = words.map Spaced.token ++ [.eof (p.advanceAll cs)] ∧
      cs = words.flatMap Spaced.text ++ tail ∧
      Blank tail ∧
      (∀ w ∈ words, Blank w.gap ∧ w.token.kind ≠ .eof ∧ w.token.lexeme ≠ "") ∧
      ∀ before w after, words = before ++ w :: after →
        w.token.position = p.advanceAll (before.flatMap Spaced.text ++ w.gap) := by
  induction layout with
  | @ends p gap blank => exact ⟨[], gap, rfl, rfl, blank, by simp, by simp⟩
  | @word p gap t cs ts blank kind solid position rest ih =>
    obtain ⟨words, tail, rfl, rfl, blank', each, places⟩ := ih
    refine ⟨⟨gap, t⟩ :: words, tail, ?_, ?_, blank', ?_, ?_⟩
    · rw [← Position.advanceAll_append]
      rfl
    · rw [List.flatMap_cons, Spaced.text, List.append_assoc (gap ++ _)]
    · exact List.forall_mem_cons.mpr ⟨⟨blank, kind, solid⟩, each⟩
    · intro before w after split
      cases before with
      | nil =>
        cases split
        exact position
      | cons first before =>
        cases split
        rw [places before w after rfl, ← Position.advanceAll_append, List.flatMap_cons,
          Spaced.text, List.append_assoc (gap ++ _)]

/-- A scan loses nothing but blanks, and knows the place of every token. The lexemes stand in the
text one after the other, each after a gap, and one more gap ends the text. The gaps are blank, so
with them the lexemes give the text back. A token has the place of the first character of its
lexeme, by the number of line feeds before it and the number of characters since the last of these.
The end is marked once, after all other tokens, at the end of the text. -/
theorem scan_lossless {source : String} {ts : List Token} (scanned : scan source = .ok ts) :
    ∃ (words : List Spaced) (tail : List Char),
      ts = words.map Spaced.token ++ [⟨.eof, "$", Position.after source.toList⟩] ∧
      source.toList = words.flatMap Spaced.text ++ tail ∧
      Blank tail ∧
      (∀ w ∈ words, Blank w.gap ∧ w.token.kind ≠ .eof ∧ w.token.lexeme ≠ "") ∧
      ∀ before w after, words = before ++ w :: after →
        w.token.position = Position.after (before.flatMap Spaced.text ++ w.gap) := by
  have layout := scanFrom_layout .start false source.toList scanned
  obtain ⟨words, tail, tokens, text, blank, each, places⟩ := layout.exists_words
  rw [Position.advanceAll_start] at tokens
  refine ⟨words, tail, tokens, text, blank, each, ?_⟩
  intro before w after split
  rw [← Position.advanceAll_start]
  exact places before w after split

/-- A text with a tab before a name, a line break of two characters and one inside of quotes. -/
theorem scan_lossless_lines :
    let source := "\ta \r\n\"x\ny\" 1"
    let ts : List Token := [⟨.identifier, "a", ⟨1, 2⟩⟩, ⟨.newLine, "\r\n", ⟨1, 4⟩⟩,
      ⟨.string, "\"x\ny\"", ⟨2, 1⟩⟩, ⟨.number, "1", ⟨3, 4⟩⟩, ⟨.eof, "$", ⟨3, 5⟩⟩]
    scan source = .ok ts ∧ ∃ (words : List Spaced) (tail : List Char),
      ts = words.map Spaced.token ++ [⟨.eof, "$", Position.after source.toList⟩] ∧
      source.toList = words.flatMap Spaced.text ++ tail := by
  intro source ts
  have scanned : scan source = .ok ts := by decide +kernel
  obtain ⟨words, tail, tokens, text, -⟩ := scan_lossless scanned
  exact ⟨scanned, words, tail, tokens, text⟩

end Token

end Easel
