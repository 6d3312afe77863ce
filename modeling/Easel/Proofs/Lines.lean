import Easel.Proofs.Lookahead
import Easel.Proofs.Relocation

/-!
# Scanning line by line

A scan keeps nothing across a line feed but the number of the line. It gives the same tokens further
down in a text (`Token.scanFrom_below`), and what follows a line feed does not change the tokens
before it (`Token.scanFrom_append_line`). So two texts with a line feed between them are scanned
like each of them alone (`Token.scan_append_line`). Only a carriage return at the end of the first
one would be drawn to the line feed.
-/

namespace Easel

namespace Position

/-- The place that many lines further down. -/
def below (n : Nat) (p : Position) : Position := ⟨p.line + n, p.column⟩

/-- A place moves past a character in the same way some lines below. -/
lemma advance_below (n : Nat) (p : Position) (c : Char) :
    (p.below n).advance c = (p.advance c).below n := by
  rw [advance, advance]
  split
  · simp only [below, Nat.add_right_comm]
  · rfl

/-- A place moves past characters in the same way some lines below. -/
lemma advanceAll_below (n : Nat) (p : Position) (cs : List Char) :
    (p.below n).advanceAll cs = (p.advanceAll cs).below n := by
  induction cs generalizing p with
  | nil => rfl
  | cons c cs ih => rw [advanceAll_cons, advanceAll_cons, advance_below, ih]

end Position

namespace Token

open Position

/-- Further down in a text the same tokens are found, or the same fault. -/
lemma scanFrom_below (n : Nat) (p : Position) (afterOperand : Bool) (cs : List Char) :
    scanFrom (p.below n) afterOperand cs =
      relocated (below n) (List.map (relocate (below n))) (scanFrom p afterOperand cs) := by
  fun_induction scanFrom p afterOperand cs with
  | case1 p afterOperand =>
    rw [scanFrom]
    rfl
  | case2 p afterOperand c rest unclosed =>
    rw [scanFrom, if_pos unclosed]
    rfl
  | case3 p afterOperand c rest closed unmatched =>
    rw [scanFrom, if_neg closed]
    split
    · rfl
    · next found =>
      rw [unmatched] at found
      cases found
  | case4 p afterOperand c rest closed pattern m found positive lexeme after dropped =>
    rename_i ih
    rw [scanFrom_longest (by simpa using closed) found, dropped, advanceAll_below]
    exact ih
  | case5 p afterOperand c rest closed pattern m found positive lexeme after kind known t =>
    rename_i ih
    rw [scanFrom_longest (by simpa using closed) found, known, advanceAll_below]
    change (scanFrom (after.below n) t.endsOperand _).map (t.relocate (below n) :: ·) = _
    rw [ih]
    cases scanFrom after t.endsOperand ((c :: rest).drop m) with
    | error d => rfl
    | ok us => rfl

/-- What a scan does before a line feed with the longest match. -/
lemma scanFrom_longest_line {pattern : Pattern} {n : Nat} {afterOperand : Bool} {c : Char}
    {cs : List Char} (closed : opensUnclosed (c :: cs) = false)
    (found : Pattern.longest? afterOperand (c :: cs) = some (pattern, n))
    (last : (c :: cs).getLast? ≠ some '\r') (p : Position) (ds : List Char) :
    scanFrom p afterOperand (c :: cs ++ '\n' :: ds) =
      match pattern.kind? (String.ofList ((c :: cs).take n)) with
      | none =>
        scanFrom (p.advanceAll ((c :: cs).take n)) afterOperand ((c :: cs).drop n ++ '\n' :: ds)
      | some kind =>
        let token : Token := ⟨kind, String.ofList ((c :: cs).take n), p⟩
        (scanFrom (p.advanceAll ((c :: cs).take n)) token.endsOperand
          ((c :: cs).drop n ++ '\n' :: ds)).map (token :: ·) := by
  have within := Pattern.length?_le (Pattern.longest?_length? found)
  have longest := (Pattern.longest?_append_line closed last ds).trans found
  have step := scanFrom_longest (Pattern.opensUnclosed_append closed _) longest p
  rw [List.take_append_of_le_length within, List.drop_append_of_le_length within] at step
  exact step

/-- What is left of a text does not end in a character that the text does not end in. -/
lemma getLast?_drop_ne {cs : List Char} {c : Char} (last : cs.getLast? ≠ some c) (n : Nat) :
    (cs.drop n).getLast? ≠ some c := by
  rw [List.getLast?_drop]
  split
  · exact nofun
  · exact last

/-- A text and a line feed after it are scanned like the text alone, and what follows is scanned
like a text of its own. -/
lemma scanFrom_append_line (p : Position) (afterOperand : Bool) (cs : List Char) {ts : List Token}
    (scanned : scanFrom p afterOperand cs = .ok ts) (last : cs.getLast? ≠ some '\r')
    (ds : List Char) :
    ∃ us q, ts = us ++ [eof q] ∧ (∀ t ∈ us, t.kind ≠ .eof) ∧
      scanFrom p afterOperand (cs ++ '\n' :: ds) =
        (scanFrom (q.advance '\n') false ds).map (us ++ ⟨.newLine, "\n", q⟩ :: ·) := by
  -- along the scan of the text alone: its last turn meets the line feed instead of the end
  fun_induction scanFrom p afterOperand cs generalizing ts with
  | case1 p afterOperand =>
    cases scanned
    have longest : Pattern.longest? afterOperand ('\n' :: ds) = some (.newLine, 1) := rfl
    exact ⟨[], p, rfl, by simp, scanFrom_longest rfl longest p⟩
  | case2 => cases scanned
  | case3 => cases scanned
  | case4 p afterOperand c rest closed pattern n found positive lexeme after dropped =>
    rename_i ih
    obtain ⟨us, q, shape, before, step⟩ := ih scanned (getLast?_drop_ne last n)
    refine ⟨us, q, shape, before, ?_⟩
    rw [scanFrom_longest_line (by simpa using closed) found last, dropped]
    exact step
  | case5 p afterOperand c rest closed pattern n found positive lexeme after kind known t =>
    rename_i ih
    cases result : scanFrom after t.endsOperand ((c :: rest).drop n) with
    | error d =>
      rw [result] at scanned
      cases scanned
    | ok vs =>
      rw [result] at scanned
      cases scanned
      obtain ⟨us, q, rfl, before, step⟩ := ih result (getLast?_drop_ne last n)
      have first : kind ≠ .eof := fun same => kind?_ne_eof pattern _ (same ▸ known)
      refine ⟨t :: us, q, rfl, List.forall_mem_cons.mpr ⟨first, before⟩, ?_⟩
      rw [scanFrom_longest_line (by simpa using closed) found last, known]
      change (scanFrom after t.endsOperand _).map (t :: ·) = _
      rw [step]
      cases scanFrom (q.advance '\n') false ds with
      | error d => rfl
      | ok ws => rfl

/-- Texts with a line feed between them are scanned one by one. The mark at the end of the first
text gives way to a line break, and what is found in the second is found as many lines further
down as the first text has. -/
theorem scan_append_line {first : String} {ts : List Token} (scanned : scan first = .ok ts)
    (last : first.toList.getLast? ≠ some '\r') (second : String) :
    ∃ us e, ts = us ++ [e] ∧ e.kind = .eof ∧ (∀ t ∈ us, t.kind ≠ .eof) ∧
      (∀ vs, scan second = .ok vs →
        scan (first ++ "\n" ++ second) = .ok (us ++ ⟨.newLine, "\n", e.position⟩ ::
          vs.map (relocate (below e.position.line)))) ∧
      ∀ d, scan second = .error d →
        scan (first ++ "\n" ++ second) = .error (d.relocate (below e.position.line)) := by
  obtain ⟨us, q, shape, before, step⟩ :=
    scanFrom_append_line .start false first.toList scanned last second.toList
  -- the second text begins where a text begins, but further down
  have start : q.advance '\n' = Position.start.below q.line := by
    simp only [advance, below, Position.start, if_pos, Nat.add_comm]
  have text : (first ++ "\n" ++ second).toList = first.toList ++ '\n' :: second.toList := by
    rw [String.toList_append, String.toList_append, List.append_assoc]
    rfl
  rw [start, scanFrom_below, ← text] at step
  refine ⟨us, eof q, shape, rfl, before, fun vs scanned' => ?_, fun d failed => ?_⟩
  · rw [scan, step, ← scan, scanned']
    rfl
  · rw [scan, step, ← scan, failed]
    rfl

/-- A minus on a line of its own is a sign, although the line before it ends with an operand. -/
theorem scan_append_line_minus :
    let ts : List Token := [⟨.string, "\"a\nb\"", ⟨1, 1⟩⟩, ⟨.eof, "$", ⟨2, 3⟩⟩]
    scan "\"a\nb\"" = .ok ts ∧ ∃ us e, ts = us ++ [e] ∧
      scan ("\"a\nb\"" ++ "\n" ++ "-1") = .ok (us ++ [⟨.newLine, "\n", e.position⟩,
        ⟨.number, "-1", below e.position.line ⟨1, 1⟩⟩,
        ⟨.eof, "$", below e.position.line ⟨1, 3⟩⟩]) := by
  intro ts
  have scanned : scan "\"a\nb\"" = .ok ts := by decide +kernel
  have second : scan "-1" = .ok [⟨.number, "-1", ⟨1, 1⟩⟩, ⟨.eof, "$", ⟨1, 3⟩⟩] := by decide +kernel
  obtain ⟨us, e, shape, -, -, both, -⟩ := scan_append_line scanned (by decide) "-1"
  exact ⟨scanned, us, e, shape, both _ second⟩

end Token

end Easel
