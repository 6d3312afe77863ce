import Easel.Proofs.Lexemes
import Easel.Proofs.Lookahead
import Easel.Proofs.Relocation

/-!
# Spacing does not matter

The words of a text may be written again with other spaces and tabs between them, as long as there
is something between any two. Each word is then taken as it was before (`Piece.Taken.append`), so
that the scan gives the same tokens at other places (`Token.reads_respaced`), and the text is
compiled to the same program, or fails in the same way (`Program.compile_respaced`).
-/

namespace Easel

/-- Spaces and tabs, at least one of them. -/
structure Gap (cs : List Char) : Prop where
  nonempty : cs ≠ []
  blank : ∀ c ∈ cs, c = ' ' ∨ c = '\t'

/-- The text has the words in order, with a gap between any two that follow each other. -/
inductive Respaced : List String → List Char → Prop where
  | nil : Respaced [] []
  | one (w : String) : Respaced [w] w.toList
  | cons (w : String) {v : String} {ws : List String} {gap cs : List Char} (blank : Gap gap)
    (rest : Respaced (v :: ws) cs) : Respaced (w :: v :: ws) (w.toList ++ (gap ++ cs))

/-- A gap breaks off every match. -/
lemma Gap.breaks {gap : List Char} (blank : Gap gap) (cs : List Char) : Breaks (gap ++ cs) := by
  obtain ⟨c, gap, rfl⟩ := List.exists_cons_of_ne_nil blank.nonempty
  rcases blank.blank c List.mem_cons_self with rfl | rfl
  · exact .cons (.inl rfl) _
  · exact .cons (.inr (.inl rfl)) _

/-- What follows the first word breaks it off. -/
lemma Respaced.first {w : String} {ws : List String} {cs : List Char}
    (respaced : Respaced (w :: ws) cs) : ∃ rest, cs = w.toList ++ rest ∧ Breaks rest := by
  cases respaced with
  | one => exact ⟨[], (List.append_nil _).symm, .nil⟩
  | cons _ blank rest => exact ⟨_, rfl, blank.breaks _⟩

/-- A piece that is taken on its own is taken before anything that breaks words. -/
lemma Piece.Taken.append {w : Piece} {afterOperand : Bool}
    (taken : w.Taken afterOperand w.text.toList) {ds : List Char} (breaks : Breaks ds) :
    w.Taken afterOperand (w.text.toList ++ ds) := by
  obtain ⟨⟨pattern, longest, kind⟩, closed, solid⟩ := taken
  cases text : w.text.toList with
  | nil =>
    rw [text] at longest
    cases longest
  | cons c cs =>
    rw [text] at longest closed solid
    refine ⟨⟨pattern, ?_, kind⟩, Pattern.opensUnclosed_append closed ds,
      Pattern.blankLength_append_of_solid solid ds⟩
    rw [Pattern.longest?_append_of_solid breaks closed solid, longest, text]

/-- A piece is taken before a break. -/
lemma Piece.Scans.append {w : Piece} {afterOperand : Bool} (scans : w.Scans afterOperand)
    {ds : List Char} (breaks : Breaks ds) : w.Taken afterOperand (w.text.toList ++ ds) := by
  have alone := scans [] (.inl rfl)
  rw [List.append_nil] at alone
  exact alone.append breaks

/-- A gap is matched as blanks. -/
lemma Gap.blankLength {cs : List Char} (solid : Pattern.blankLength cs = 0) :
    ∀ gap : List Char, (∀ c ∈ gap, c = ' ' ∨ c = '\t') →
      Pattern.blankLength (gap ++ cs) = gap.length
  | [], _ => solid
  | c :: gap, blank => by
    have rest := Gap.blankLength solid gap fun d mem => blank d (List.mem_cons_of_mem c mem)
    rw [List.cons_append, Pattern.blankLength_cons, rest, List.length_cons]
    rcases blank c List.mem_cons_self with rfl | rfl <;> rfl

namespace Token

open Piece

/-- A gap is passed over. -/
lemma reads_gap {ws : List Piece} {afterOperand : Bool} {gap cs : List Char} (blank : Gap gap)
    (solid : Pattern.blankLength cs = 0) (reads : Reads afterOperand cs ws) :
    Reads afterOperand (gap ++ cs) ws := by
  obtain ⟨nonempty, blank⟩ := blank
  have length : Pattern.blank.length? afterOperand (gap ++ cs) = some gap.length := by
    rw [Pattern.length?, Gap.blankLength solid gap blank, if_neg (by simpa using nonempty)]
  obtain ⟨c, gap, rfl⟩ := List.exists_cons_of_ne_nil nonempty
  have longest : Pattern.longest? afterOperand (c :: gap ++ cs) =
      some (.blank, (c :: gap).length) := by
    rcases blank c List.mem_cons_self with rfl | rfl
    · exact Pattern.longest?_of_opens length (by decide)
    · exact Pattern.longest?_of_opens length (by decide)
  have closed : opensUnclosed (c :: gap ++ cs) = false := by
    rcases blank c List.mem_cons_self with rfl | rfl <;> rfl
  intro p
  obtain ⟨ts, q, scanned, pieces⟩ := reads (p.advanceAll (c :: gap))
  refine ⟨ts, q, ?_, pieces⟩
  rw [scanFrom_longest closed longest, List.take_left, List.drop_left]
  exact scanned

/-- The words of pieces that can be scanned one after the other are scanned again, however they are
spaced. -/
lemma reads_respaced : ∀ {ws : List Piece} {afterOperand : Bool} {cs : List Char},
    Follows afterOperand ws → Respaced (ws.map Piece.text) cs → Reads afterOperand cs ws
  | [], afterOperand, _, _, .nil => reads_nil afterOperand
  | [w], afterOperand, _, ⟨scans, _⟩, .one _ => by
    have step := reads_piece (scans [] (.inl rfl)) (reads_nil w.endsOperand)
    rwa [List.append_nil] at step
  | w :: v :: ws, afterOperand, _, ⟨scans, follows⟩, @Respaced.cons _ _ _ _ cs blank rest => by
    have solid : Pattern.blankLength cs = 0 := by
      obtain ⟨more, shape, breaks⟩ := rest.first
      rw [shape]
      exact (follows.1.append breaks).solid
    exact reads_piece (scans.append (blank.breaks cs))
      (reads_gap blank solid (reads_respaced follows rest))

end Token

namespace Program

open Token

/-- The words of a text, written again with other gaps between them, are the same tokens at other
places. Both texts are compiled to programs that are the same up to places, or fail with one code
and one message. -/
theorem compile_respaced {source other : String} {ts : List Token}
    (scanned : scan source = .ok ts)
    (respaced : Respaced ((ts.filter fun t => t.kind ≠ .eof).map lexeme) other.toList) :
    (∃ us, scan other = .ok us ∧ us.map piece = ts.map piece) ∧
      Alike (compile source) (compile other) := by
  obtain ⟨ts, q, rfl, follows, formed⟩ := scanFrom_formed .start false source.toList scanned
  have before : ∀ t ∈ ts, t.kind ≠ .eof := by
    intro t mem
    obtain ⟨_, form⟩ := formed t mem
    exact form.ne_eof
  have words : ((ts ++ [eof q]).filter fun t => t.kind ≠ .eof).map lexeme =
      (ts.map piece).map Piece.text := by
    rw [List.filter_append, List.filter_eq_self.mpr fun t mem => decide_eq_true (before t mem),
      List.map_map]
    exact congrArg _ (List.append_nil ts)
  rw [words] at respaced
  obtain ⟨us, r, scanned', pieces, -⟩ := reads_respaced follows respaced .start
  refine ⟨⟨us ++ [eof r], scanned', ?_⟩, ?_⟩
  · rw [List.map_append, List.map_append, pieces]
    rfl
  · rw [compile, compile, scanned, scan, scanned', ok_bind, ok_bind]
    exact ofTokens_alike pieces.symm before q r

/-- A minus that subtracts is not drawn to the number after it. -/
theorem compile_respaced_minus :
    let source := "Spawn(2-1,-1)"
    let other := "Spawn (\t2 - 1 , \t-1 )"
    (∃ us, scan other = .ok us ∧
      us.map lexeme = ["Spawn", "(", "2", "-", "1", ",", "-1", ")", "$"]) ∧
      Alike (compile source) (compile other) := by
  intro source other
  let ts : List Token := [⟨.function, "Spawn", ⟨1, 1⟩⟩, ⟨.symbol, "(", ⟨1, 6⟩⟩,
    ⟨.number, "2", ⟨1, 7⟩⟩, ⟨.operator, "-", ⟨1, 8⟩⟩, ⟨.number, "1", ⟨1, 9⟩⟩,
    ⟨.symbol, ",", ⟨1, 10⟩⟩, ⟨.number, "-1", ⟨1, 11⟩⟩, ⟨.symbol, ")", ⟨1, 13⟩⟩, eof ⟨1, 14⟩]
  have scanned : scan source = .ok ts := by decide +kernel
  have space : Gap [' '] := ⟨by simp, by simp⟩
  have tab : Gap ['\t'] := ⟨by simp, by simp⟩
  have both : Gap [' ', '\t'] := ⟨by simp, by simp⟩
  have spaced := Respaced.cons "Spawn" space <| .cons "(" tab <| .cons "2" space <|
    .cons "-" space <| .cons "1" space <| .cons "," both <| .cons "-1" space <| .one ")"
  have respaced : Respaced ((ts.filter fun t => t.kind ≠ .eof).map lexeme) other.toList := by
    refine Eq.subst (motive := Respaced _) ?_ spaced
    decide +kernel
  obtain ⟨⟨us, scanned', pieces⟩, alike⟩ := compile_respaced scanned respaced
  refine ⟨⟨us, scanned', ?_⟩, alike⟩
  have texts := congrArg (List.map Piece.text) pieces
  rw [List.map_map, List.map_map] at texts
  exact texts

end Program

end Easel
