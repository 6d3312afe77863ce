import Easel.Machine.Run
import Easel.Proofs.Layout
import Easel.Proofs.Truncation

/-!
# Where a scan fails

A scan goes on in turns, each of which takes the longest match (`ScanState.turn?`). Every turn uses
up a character at least, so there are no more turns than characters, and a scan always comes to a
place without a next turn: the end of the text, a quote that is never closed, or a character that no
pattern begins with (`ScanState.outcome_of_stuck`).

No turn before that place depends on what stands there (`ScanState.Turns.cut`), so the text before a
fault is scanned into the tokens that were found before the fault. Main statement:
`Token.scan_fault_place`.
-/

namespace Easel

namespace Position

/-- A longer text ends at another place. -/
lemma after_append_ne (cs : List Char) (c : Char) (ds : List Char) :
    after (cs ++ c :: ds) ≠ after cs := by
  intro same
  have lines := congrArg line same
  have columns := congrArg column same
  simp only [after, List.count_append] at lines
  have noLine : '\n' ∉ c :: ds := List.count_eq_zero.mp (by omega)
  have kept : ∀ d ∈ (c :: ds).reverse, decide (d ≠ '\n') = true := fun d mem =>
    decide_eq_true fun line => noLine (line ▸ List.mem_reverse.mp mem)
  simp only [after, List.reverse_append, List.takeWhile_append_of_pos kept,
    List.length_append, List.length_reverse, List.length_cons] at columns
  omega

/-- The place after the beginning of a text tells how long that beginning is. -/
lemma after_take_eq_iff {cs : List Char} {j k : Nat} (hj : j ≤ cs.length) (hk : k ≤ cs.length) :
    after (cs.take j) = after (cs.take k) ↔ j = k := by
  have differs : ∀ {i n : Nat}, i < n → n ≤ cs.length → after (cs.take n) ≠ after (cs.take i) := by
    intro i n less bound
    have inside : i < cs.length := Nat.lt_of_lt_of_le less bound
    obtain ⟨m, rfl⟩ := Nat.exists_eq_add_of_lt less
    rw [Nat.add_assoc, List.take_add, List.drop_eq_getElem_cons inside, List.take_succ_cons]
    exact after_append_ne _ _ _
  refine ⟨fun same => ?_, fun same => same ▸ rfl⟩
  rcases Nat.lt_trichotomy j k with less | equal | less
  · exact absurd same.symm (differs less hk)
  · exact equal
  · exact absurd same (differs less hj)

end Position

/-- A scan under way: where it is, whether an operand ends there, the text it has not passed yet,
and the tokens found so far. -/
structure ScanState where
  position : Position
  afterOperand : Bool
  rest : List Char
  tokens : List Token
deriving DecidableEq, Repr

namespace ScanState

/-- The beginning of a scan. -/
def start (source : String) : ScanState := ⟨.start, false, source.toList, []⟩

/-- The scan after a match of `n` characters. -/
def pass (s : ScanState) (pattern : Pattern) (n : Nat) : ScanState :=
  let lexeme := s.rest.take n
  let next := { s with position := s.position.advanceAll lexeme, rest := s.rest.drop n }
  match pattern.kind? (String.ofList lexeme) with
  | none => next
  | some kind =>
    let token : Token := ⟨kind, String.ofList lexeme, s.position⟩
    { next with afterOperand := token.endsOperand, tokens := s.tokens ++ [token] }

/-- One turn of a scan, in which the longest match is passed. There is none at the end of the text,
at a quote that is never closed, and where no pattern matches. -/
def turn? (s : ScanState) : Option ScanState :=
  if Token.opensUnclosed s.rest then none
  else (Pattern.longest? s.afterOperand s.rest).map fun (pattern, n) => s.pass pattern n

/-- What the scan ends with if it goes on from here. -/
def outcome (s : ScanState) : Except Diagnostic (List Token) :=
  (Token.scanFrom s.position s.afterOperand s.rest).map (s.tokens ++ ·)

/-- The given number of turns leads from one state of a scan to another. -/
inductive Turns : Nat → ScanState → ScanState → Prop where
  | rest {s} :
    Turns 0 s s
  | turn {n s t u} :
    s.turn? = some t →
    Turns n t u →
    Turns (n + 1) s u

variable {s t : ScanState} {n : Nat} {cs ds : List Char}

/-- A scan moves past its match. -/
@[simp]
lemma rest_pass (s : ScanState) (pattern : Pattern) (n : Nat) :
    (s.pass pattern n).rest = s.rest.drop n := by
  rw [pass]
  split <;> rfl

/-- The place of a scan moves past its match. -/
@[simp]
lemma position_pass (s : ScanState) (pattern : Pattern) (n : Nat) :
    (s.pass pattern n).position = s.position.advanceAll (s.rest.take n) := by
  rw [pass]
  split <;> rfl

/-- The outcome of a scan is that of its first state. -/
lemma outcome_start (source : String) : (start source).outcome = Token.scan source := by
  rw [outcome, start, ← Token.scan]
  cases Token.scan source <;> rfl

/-- A turn passes a match that is the longest. -/
lemma turn?_eq_some (turn : s.turn? = some t) :
    ∃ pattern n, Token.opensUnclosed s.rest = false ∧
      Pattern.longest? s.afterOperand s.rest = some (pattern, n) ∧ t = s.pass pattern n := by
  rw [turn?] at turn
  split at turn
  · cases turn
  · next closed =>
    obtain ⟨⟨pattern, n⟩, found, rfl⟩ := Option.map_eq_some_iff.mp turn
    exact ⟨pattern, n, Bool.eq_false_iff.mpr closed, found, rfl⟩

/-- A turn passes at least one character, and knows the place after what it passes. -/
lemma turn?_passes (turn : s.turn? = some t) :
    ∃ passed, passed ≠ [] ∧ s.rest = passed ++ t.rest ∧
      t.position = s.position.advanceAll passed := by
  obtain ⟨pattern, n, -, found, rfl⟩ := turn?_eq_some turn
  have positive := Pattern.longest?_pos found
  have within := Pattern.length?_le (Pattern.longest?_length? found)
  refine ⟨s.rest.take n, ?_, ?_, position_pass s pattern n⟩
  · intro none
    have length := congrArg List.length none
    rw [List.length_take, List.length_nil] at length
    omega
  · rw [rest_pass, List.take_append_drop]

/-- A turn does not change what the scan ends with. -/
lemma outcome_turn (turn : s.turn? = some t) : s.outcome = t.outcome := by
  obtain ⟨pattern, n, closed, found, rfl⟩ := turn?_eq_some turn
  rw [outcome, outcome, Token.scanFrom_longest closed found, pass]
  cases pattern.kind? (String.ofList (s.rest.take n)) with
  | none => rfl
  | some kind =>
    simp only
    cases Token.scanFrom _ _ (s.rest.drop n) with
    | error d => rfl
    | ok ts => simp [Except.map]

/-- A turn that ends before some text does not depend on it, unless it begins with a line feed. -/
lemma turn?_cut (noLine : ds.head? ≠ some '\n') (turn : s.turn? = some t)
    (here : s.rest = cs ++ ds) {cs' : List Char} (there : t.rest = cs' ++ ds) :
    turn? { s with rest := cs } = some { t with rest := cs' } := by
  obtain ⟨pattern, n, closed, found, rfl⟩ := turn?_eq_some turn
  have positive := Pattern.longest?_pos found
  have within := Pattern.length?_le (Pattern.longest?_length? found)
  rw [rest_pass] at there
  have split : cs = s.rest.take n ++ cs' := by
    rw [← List.append_left_inj ds, ← here, List.append_assoc, ← there, List.take_append_drop]
  have length : cs.length = n + cs'.length := by
    rw [split, List.length_append, List.length_take, Nat.min_eq_left within]
  have first : cs.take n = s.rest.take n := by
    rw [here, List.take_append_of_le_length (by omega)]
  have second : cs.drop n = cs' := by
    rw [split]
    exact List.drop_left' (by rw [List.length_take, Nat.min_eq_left within])
  obtain ⟨c, cs, rfl⟩ := List.exists_cons_of_length_pos (by omega : 0 < cs.length)
  rw [here] at closed found
  obtain ⟨closed', longest⟩ := Pattern.longest?_of_append noLine closed found (by omega)
  rw [turn?, if_neg (by simp [closed']), longest]
  simp only [Option.map_some, pass, first, second]
  split <;> rfl

namespace Turns

/-- The turns of a scan pass at least one character each. -/
lemma passes (turns : Turns n s t) :
    ∃ passed, s.rest = passed ++ t.rest ∧ t.position = s.position.advanceAll passed ∧
      n ≤ passed.length := by
  induction turns with
  | rest => exact ⟨[], rfl, rfl, Nat.le_refl 0⟩
  | turn turn _ ih =>
    obtain ⟨first, nonempty, here, place⟩ := turn?_passes turn
    obtain ⟨others, there, place', count⟩ := ih
    refine ⟨first ++ others, ?_, ?_, ?_⟩
    · rw [here, there, List.append_assoc]
    · rw [place', place, Position.advanceAll_append]
    · have positive := List.length_pos_iff.mpr nonempty
      rw [List.length_append]
      omega

/-- There are no more turns than characters. -/
lemma count_le (turns : Turns n s t) : n + t.rest.length ≤ s.rest.length := by
  obtain ⟨passed, text, -, count⟩ := turns.passes
  rw [text, List.length_append]
  omega

/-- The turns of a scan do not change its outcome. -/
lemma outcome_eq (turns : Turns n s t) : s.outcome = t.outcome := by
  induction turns with
  | rest => rfl
  | turn turn _ ih => exact (outcome_turn turn).trans ih

/-- The turns up to a place do not depend on the text from there on, unless it begins with a line
feed. -/
lemma cut (noLine : ds.head? ≠ some '\n') (turns : Turns n s t) (ends : t.rest = ds) :
    ∀ {cs : List Char}, s.rest = cs ++ ds →
      Turns n { s with rest := cs } { t with rest := [] } := by
  induction turns with
  | rest =>
    intro cs here
    have none : cs = [] := by simpa [ends] using here
    rw [none]
    exact .rest
  | @turn n s t u turn turns ih =>
    intro cs here
    obtain ⟨passed, there, -, -⟩ := turns.passes
    rw [ends] at there
    exact .turn (turn?_cut noLine turn here there) (ih ends there)

/-- What a scan has passed is scanned into the tokens found so far, unless a line feed follows. -/
lemma scan_passed {source : String} {passed : List Char} (turns : Turns n (.start source) s)
    (text : source.toList = passed ++ s.rest) (noLine : s.rest.head? ≠ some '\n') :
    Token.scan (String.ofList passed) = .ok (s.tokens ++ [.eof s.position]) := by
  have cut := turns.cut noLine rfl text
  calc Token.scan (String.ofList passed)
      = (start (String.ofList passed)).outcome := (outcome_start _).symm
    _ = outcome { start source with rest := passed } := by
        rw [start, String.toList_ofList]
        rfl
    _ = outcome { s with rest := [] } := cut.outcome_eq
    _ = .ok (s.tokens ++ [.eof s.position]) := by
        rw [outcome, Token.scanFrom]
        rfl

end Turns

/-- Turn by turn, a scan comes to a place from which it does not go on. -/
lemma exists_turns (s : ScanState) : ∃ n t, Turns n s t ∧ t.turn? = none := by
  cases turn : s.turn? with
  | none => exact ⟨0, s, .rest, turn⟩
  | some t =>
    obtain ⟨passed, nonempty, here, -⟩ := turn?_passes turn
    have shorter : t.rest.length < s.rest.length := by
      have positive := List.length_pos_iff.mpr nonempty
      rw [here, List.length_append]
      omega
    obtain ⟨n, u, turns, stuck⟩ := exists_turns t
    exact ⟨n + 1, u, .turn turn turns, stuck⟩
termination_by s.rest.length

/-- Nothing matches at a place: no pattern does, whatever stands before it. -/
lemma length?_eq_none_of_stuck {c : Char} {cs : List Char} {afterOperand : Bool}
    (none : Pattern.longest? afterOperand (c :: cs) = .none) (before : Bool) (pattern : Pattern) :
    pattern.length? before (c :: cs) = .none := by
  have unmatched := Pattern.length?_eq_none none
  cases pattern with
  | number =>
    have minus : c ≠ '-' := by
      rintro rfl
      exact Option.some_ne_none 1 (unmatched .operator)
    have number := unmatched .number
    rw [Pattern.length?, Pattern.numberLength?_of_ne minus] at number
    rw [Pattern.length?, Pattern.numberLength?_of_ne minus, number]
  | newLine => exact unmatched .newLine
  | string => exact unmatched .string
  | operator => exact unmatched .operator
  | symbol => exact unmatched .symbol
  | identifier => exact unmatched .identifier
  | blank => exact unmatched .blank

/-- The fault that keeps a scan from going on at a character with some text after it. -/
def Stops (c : Char) (cs : List Char) (fault : Fault) : Prop :=
  fault = .unterminatedString ∧ c = '"' ∧ '"' ∉ cs ∨
    fault = .unexpectedCharacter c ∧ c ≠ '"' ∧
      ∀ (afterOperand : Bool) (pattern : Pattern), pattern.length? afterOperand (c :: cs) = none

/-- A scan goes on until it is at the end of the text or at a fault. -/
lemma outcome_of_stuck (stuck : s.turn? = none) :
    s.rest = [] ∧ s.outcome = .ok (s.tokens ++ [.eof s.position]) ∨
      ∃ c cs fault, s.rest = c :: cs ∧ Stops c cs fault ∧
        s.outcome = .error (fault.diagnose s.position) := by
  obtain ⟨p, afterOperand, rest, ts⟩ := s
  cases rest with
  | nil =>
    left
    refine ⟨rfl, ?_⟩
    rw [outcome, Token.scanFrom]
    rfl
  | cons c cs =>
    right
    rw [turn?] at stuck
    split at stuck
    · next unclosed =>
      refine ⟨c, cs, .unterminatedString, rfl, .inl ⟨rfl, ?_⟩, ?_⟩
      · rw [Token.opensUnclosed.eq_def] at unclosed
        split at unclosed
        · next same =>
          cases same
          exact ⟨rfl, by simpa using unclosed⟩
        · cases unclosed
      · rw [outcome, Token.scanFrom, if_pos unclosed]
        rfl
    · next closed =>
      -- quotes are closed here, so no match of any pattern is possible
      have none : Pattern.longest? afterOperand (c :: cs) = none := Option.map_eq_none_iff.mp stuck
      have unmatched := length?_eq_none_of_stuck none
      refine ⟨c, cs, .unexpectedCharacter c, rfl, .inr ⟨rfl, ?_, unmatched⟩, ?_⟩
      · rintro rfl
        have mem : '"' ∈ cs := by simpa [Token.opensUnclosed] using closed
        have string := unmatched afterOperand .string
        rw [Pattern.length?, Pattern.stringLength?, Option.map_eq_none_iff,
          List.findIdx?_eq_none_iff] at string
        exact absurd (string '"' mem) (by simp)
      · rw [outcome, Token.scanFrom, if_neg closed]
        split
        · rfl
        · next found =>
          rw [none] at found
          cases found

/-- No fault is at a line feed. -/
lemma Stops.ne_line {c : Char} {cs : List Char} {fault : Fault} (stops : Stops c cs fault) :
    c ≠ '\n' := by
  rintro rfl
  rcases stops with ⟨-, quote, -⟩ | ⟨-, -, unmatched⟩
  · cases quote
  · exact Option.some_ne_none 1 (unmatched false .newLine)

/-- A scan that fails has passed the text before some character, and stops at this character. -/
lemma exists_stop {source : String} {d : Diagnostic} (failed : Token.scan source = .error d) :
    ∃ n s passed c cs fault, Turns n (.start source) s ∧ s.turn? = none ∧ s.rest = c :: cs ∧
      source.toList = passed ++ c :: cs ∧ Stops c cs fault ∧
      s.position = Position.after passed ∧ d = fault.diagnose s.position := by
  obtain ⟨n, s, turns, stuck⟩ := exists_turns (.start source)
  have ends := turns.outcome_eq
  rw [outcome_start, failed] at ends
  obtain ⟨passed, text, place, -⟩ := turns.passes
  rcases outcome_of_stuck stuck with ⟨-, fine⟩ | ⟨c, cs, fault, rest, stops, diagnosed⟩
  · rw [fine] at ends
    cases ends
  · rw [diagnosed] at ends
    rw [rest] at text
    exact ⟨n, s, passed, c, cs, fault, turns, stuck, rest, text, stops,
      place.trans (Position.advanceAll_start passed), Except.error.inj ends⟩

end ScanState

/-- A text that cannot be scanned is not run, and leaves the canvas as it is. -/
lemma Program.runSource_of_scan {source : String} {d : Diagnostic}
    (failed : Token.scan source = .error d) (limit : Nat) (canvas : Canvas) :
    runSource limit source canvas = some (.ofDiagnostic d, canvas) := by
  rw [runSource, compile, failed]
  rfl

namespace Token

open ScanState

/-- Each turn of a scan passes at least one character, so that it comes to an end. If it fails there
is one diagnostic, at the place of one character. The text before this character is scanned into the
tokens that were found before the scan failed. The character is a quote with no other after it, or
it is no quote, no pattern matches from it on, and the message names it. -/
theorem scan_fault_place (source : String) :
    (∀ n s, Turns n (.start source) s → n + s.rest.length ≤ source.toList.length) ∧
      (∃ n s, Turns n (.start source) s ∧ s.turn? = none ∧ s.outcome = scan source) ∧
      ∀ d, scan source = .error d →
        (∀ limit canvas, ∃ report,
          Program.runSource limit source canvas = some (report, canvas) ∧ report.errors = [d]) ∧
        ∃ k c, source.toList[k]? = some c ∧
          (∀ j ≤ source.toList.length,
            Position.after (source.toList.take j) = d.position ↔ j = k) ∧
          (∃ n s, Turns n (.start source) s ∧ s.turn? = none ∧ s.rest = source.toList.drop k ∧
            scan (String.ofList (source.toList.take k)) = .ok (s.tokens ++ [eof d.position])) ∧
          (d.code.text = "L002" ∧ c = '"' ∧ '"' ∉ source.toList.drop (k + 1) ∨
            d.code.text = "L001" ∧ c ≠ '"' ∧
              (∀ (afterOperand : Bool) (pattern : Pattern),
                pattern.length? afterOperand (source.toList.drop k) = none) ∧
              d.message = "unexpected character `" ++ c.toString ++ "`") := by
  refine ⟨fun n s turns => turns.count_le, ?_, ?_⟩
  · obtain ⟨n, s, turns, stuck⟩ := exists_turns (.start source)
    exact ⟨n, s, turns, stuck, turns.outcome_eq.symm.trans (outcome_start source)⟩
  · intro d failed
    have runs := Program.runSource_of_scan failed
    obtain ⟨n, s, passed, c, cs, fault, turns, stuck, rest, text, stops, place, rfl⟩ :=
      exists_stop failed
    have before : source.toList.take passed.length = passed := by rw [text, List.take_left]
    have after : source.toList.drop passed.length = c :: cs := by rw [text, List.drop_left]
    have bound : passed.length ≤ source.toList.length := by simp [text]
    refine ⟨fun limit canvas => ⟨_, runs limit canvas, rfl⟩, passed.length, c, by simp [text], ?_,
      ⟨n, s, turns, stuck, rest.trans after.symm, ?_⟩, ?_⟩
    · intro j inside
      rw [← Position.after_take_eq_iff inside bound, before, ← place]
      rfl
    · rw [before]
      exact turns.scan_passed (by rw [text, rest]) (by simpa [rest] using stops.ne_line)
    · have later : source.toList.drop (passed.length + 1) = cs := by
        rw [← List.drop_drop, after]
        rfl
      rcases stops with ⟨rfl, quote, last⟩ | ⟨rfl, other, unmatched⟩
      · exact .inl ⟨rfl, quote, later ▸ last⟩
      · exact .inr ⟨rfl, other, after ▸ unmatched, rfl⟩

/-- A point without digits after it is not part of the number before it, with or without the rest of
the text. -/
theorem scan_fault_place_point :
    let source := "\"a\n\"-3."
    let d : Diagnostic := ⟨.unexpectedCharacter, ⟨2, 4⟩, none, "unexpected character `.`"⟩
    scan source = .error d ∧ ∃ k c, source.toList[k]? = some c ∧ c ≠ '"' ∧
      Position.after (source.toList.take k) = ⟨2, 4⟩ ∧
      ∃ ts, scan (String.ofList (source.toList.take k)) = .ok (ts ++ [eof ⟨2, 4⟩]) := by
  intro source d
  have failed : scan source = .error d := by decide +kernel
  obtain ⟨-, k, c, here, places, ⟨n, s, -, -, -, scanned⟩, fault⟩ :=
    (scan_fault_place source).2.2 d failed
  obtain ⟨inside, -⟩ := List.getElem?_eq_some_iff.mp here
  have place := (places k (Nat.le_of_lt inside)).mpr rfl
  rcases fault with ⟨code, -⟩ | ⟨-, other, -⟩
  · exact absurd code (by decide)
  · exact ⟨failed, k, c, here, other, place, s.tokens, scanned⟩

end Token

end Easel
