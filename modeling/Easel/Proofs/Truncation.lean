import Easel.Proofs.Lookahead

/-!
# Matches without what follows

A pattern may look further than its match goes: for the digits after a point, for the second
character of an operator, for the quote that closes a text, for the line feed after a carriage
return. Still, if the longest match ends within the beginning of a text, then it is the longest
match in this beginning alone (`Pattern.longest?_of_append`). All that can go wrong is a cut between
a carriage return and a line feed, as the carriage return alone is blank.
-/

namespace Easel

namespace Pattern

variable {afterOperand : Bool} {c : Char} {cs ds : List Char} {pattern : Pattern} {n : Nat}

/-- The better of two matches is as long as either of them. -/
lemma le_better {best : Option (Pattern × Nat)} {length? : Option Nat}
    (either : length? = some n ∨ ∃ q m, best = some (q, m) ∧ n ≤ m) :
    ∃ q m, better best pattern length? = some (q, m) ∧ n ≤ m := by
  rcases either with rfl | ⟨q, m, rfl, le⟩
  · rcases best with _ | ⟨q, m⟩
    · exact ⟨pattern, n, rfl, Nat.le_refl n⟩
    · rw [better]
      split
      · exact ⟨pattern, n, rfl, Nat.le_refl n⟩
      · exact ⟨q, m, rfl, by omega⟩
  · rcases length? with _ | k
    · exact ⟨q, m, rfl, le⟩
    · rw [better]
      split
      · exact ⟨pattern, k, rfl, by omega⟩
      · exact ⟨q, m, rfl, le⟩

/-- If any pattern matches there is a longest match, which is not shorter. -/
lemma le_longest? (found : pattern.length? afterOperand cs = some n) :
    ∃ best m, longest? afterOperand cs = some (best, m) ∧ n ≤ m := by
  -- once the pattern has had its turn, the best match is long enough and stays so
  have fold : ∀ (patterns : List Pattern) (best : Option (Pattern × Nat)),
      (pattern ∈ patterns ∨ ∃ q m, best = some (q, m) ∧ n ≤ m) →
      ∃ q m, patterns.foldl (fun best p => better best p (p.length? afterOperand cs)) best =
        some (q, m) ∧ n ≤ m := by
    intro patterns
    induction patterns with
    | nil =>
      rintro best (mem | known)
      · cases mem
      · exact known
    | cons q patterns ih =>
      rintro best (mem | known)
      · rcases List.mem_cons.mp mem with rfl | mem
        · exact ih _ (.inr (le_better (.inl found)))
        · exact ih _ (.inl mem)
      · exact ih _ (.inr (le_better (.inr known)))
  exact fold all none (.inl (mem_all pattern))

/-- Where there is no longest match, no pattern matches. -/
lemma length?_eq_none (none : longest? afterOperand cs = none) (pattern : Pattern) :
    pattern.length? afterOperand cs = .none := by
  cases found : pattern.length? afterOperand cs with
  | none => rfl
  | some n =>
    obtain ⟨best, m, longest, -⟩ := le_longest? found
    rw [none] at longest
    cases longest

/-- A run that ends within a text is the same without what follows. -/
lemma takeWhile_of_append {p : Char → Bool}
    (within : ((cs ++ ds).takeWhile p).length ≤ cs.length) :
    (cs ++ ds).takeWhile p = cs.takeWhile p := by
  rw [List.takeWhile_append] at within ⊢
  split at within
  · next whole =>
    rw [List.length_append] at within
    have none : ds.takeWhile p = [] := List.length_eq_zero_iff.mp (by omega)
    rw [if_pos whole, none, List.append_nil]
    exact (List.takeWhile_prefix p).eq_of_length whole |>.symm
  · next part => rw [if_neg part]

/-- The first word of a list is tried first. -/
lemma wordLength?_cons (word : String) (words : List String) (cs : List Char) :
    wordLength? (word :: words) cs =
      if word.toList.isPrefixOf cs then some word.toList.length else wordLength? words cs := by
  rw [wordLength?, List.find?_cons]
  split
  · next begins => rw [if_pos begins, Option.map_some]
  · next apart => rw [if_neg (Bool.eq_false_iff.mp apart), wordLength?]

/-- A word within the beginning is matched in the beginning alone. -/
lemma wordLength?_of_append {words : List String}
    (within : ∀ m, wordLength? words (cs ++ ds) = some m → m ≤ cs.length) :
    wordLength? words cs = wordLength? words (cs ++ ds) := by
  induction words with
  | nil => rfl
  | cons word words ih =>
    rw [wordLength?_cons] at within
    rw [wordLength?_cons, wordLength?_cons]
    by_cases begins : word.toList.isPrefixOf (cs ++ ds)
    · have fits := within _ (if_pos begins)
      have alone : word.toList <+: cs := List.prefix_of_prefix_length_le
        (List.isPrefixOf_iff_prefix.mp begins) (List.prefix_append cs ds) fits
      rw [if_pos begins, if_pos (List.isPrefixOf_iff_prefix.mpr alone)]
    · rw [if_neg begins] at within
      have apart : ¬ word.toList.isPrefixOf cs := fun alone => begins <|
        List.isPrefixOf_iff_prefix.mpr
          ((List.isPrefixOf_iff_prefix.mp alone).trans (List.prefix_append cs ds))
      rw [if_neg begins, if_neg apart, ih within]

/-- The length of a point and the digits after it, if there are any. -/
def fractionLength : List Char → Nat
  | '.' :: cs =>
    let digits := (cs.takeWhile Char.isDigit).length
    if digits = 0 then 0 else 1 + digits
  | _ => 0

/-- A fraction begins with a point. -/
lemma fractionLength_of_ne (other : c ≠ '.') : fractionLength (c :: cs) = 0 := by
  rw [fractionLength.eq_def]
  split
  · next same =>
    cases same
    exact absurd rfl other
  · rfl

/-- A fraction within the beginning is matched in the beginning alone. -/
lemma fractionLength_of_append (within : fractionLength (cs ++ ds) ≤ cs.length) :
    fractionLength cs = fractionLength (cs ++ ds) := by
  cases cs with
  | nil => exact (Nat.le_zero.mp within).symm
  | cons c cs =>
    by_cases point : c = '.'
    · subst point
      rw [List.cons_append, fractionLength, List.length_cons] at within
      have digits : ((cs ++ ds).takeWhile Char.isDigit).length ≤ cs.length := by
        split at within <;> omega
      rw [List.cons_append, fractionLength, fractionLength, takeWhile_of_append digits]
    · rw [List.cons_append, fractionLength_of_ne point, fractionLength_of_ne point]

/-- A number is as long as its two parts. -/
lemma unsignedLength?_eq (cs : List Char) :
    unsignedLength? cs =
      if (cs.takeWhile Char.isDigit).length = 0 then none
      else some ((cs.takeWhile Char.isDigit).length +
        fractionLength (cs.drop (cs.takeWhile Char.isDigit).length)) := by
  rw [unsignedLength?]
  split
  · rfl
  · cases cs.drop (cs.takeWhile Char.isDigit).length with
    | nil => rfl
    | cons c rest =>
      by_cases point : c = '.'
      · subst point
        rw [fractionLength]
        by_cases none : (rest.takeWhile Char.isDigit).length = 0
        · simp only [if_pos none, Nat.add_zero]
        · simp only [if_neg none, Nat.add_assoc]
      · rw [fractionLength_of_ne point]
        simp [point]

/-- Digits within the beginning are matched in the beginning alone. -/
lemma unsignedLength?_of_append
    (within : ∀ m, unsignedLength? (cs ++ ds) = some m → m ≤ cs.length) :
    unsignedLength? cs = unsignedLength? (cs ++ ds) := by
  rw [unsignedLength?_eq] at within
  have whole : ((cs ++ ds).takeWhile Char.isDigit).length ≤ cs.length := by
    by_cases none : ((cs ++ ds).takeWhile Char.isDigit).length = 0
    · omega
    · exact Nat.le_trans (Nat.le_add_right _ _) (within _ (if_neg none))
  have digits := takeWhile_of_append whole
  rw [digits] at whole within
  rw [List.drop_append_of_le_length whole] at within
  rw [unsignedLength?_eq, unsignedLength?_eq, digits, List.drop_append_of_le_length whole]
  by_cases none : (cs.takeWhile Char.isDigit).length = 0
  · rw [if_pos none, if_pos none]
  · have bound := within _ (if_neg none)
    rw [if_neg none, if_neg none, fractionLength_of_append ?_]
    rw [List.length_drop]
    omega

/-- A number within the beginning is matched in the beginning alone. -/
lemma numberLength?_of_append
    (within : ∀ m, numberLength? afterOperand (c :: cs ++ ds) = some m → m ≤ (c :: cs).length) :
    numberLength? afterOperand (c :: cs) = numberLength? afterOperand (c :: cs ++ ds) := by
  by_cases minus : c = '-'
  · subst minus
    rw [List.cons_append, numberLength?] at within
    rw [List.cons_append, numberLength?, numberLength?]
    split
    · rfl
    · next first =>
      rw [if_neg first] at within
      rw [unsignedLength?_of_append fun m found => ?_]
      have bound := within (m + 1) (by rw [found]; rfl)
      exact Nat.le_of_succ_le_succ bound
  · rw [List.cons_append, numberLength?_of_ne minus] at within
    rw [List.cons_append, numberLength?_of_ne minus, numberLength?_of_ne minus]
    exact unsignedLength?_of_append within

/-- A name within the beginning is matched in the beginning alone. -/
lemma identifierLength?_of_append
    (within : ∀ m, identifierLength? (c :: cs ++ ds) = some m → m ≤ (c :: cs).length) :
    identifierLength? (c :: cs) = identifierLength? (c :: cs ++ ds) := by
  rw [List.cons_append, identifierLength?] at within
  rw [List.cons_append, identifierLength?, identifierLength?]
  by_cases first : Text.beginsWord c
  · rw [if_pos first] at within
    rw [takeWhile_of_append (Nat.le_of_succ_le_succ (within _ rfl))]
  · rw [if_neg first, if_neg first]

/-- A line break is matched in the beginning alone, unless it is cut in two. -/
lemma newLineLength?_of_append (noLine : ds.head? ≠ some '\n') :
    newLineLength? (c :: cs) = newLineLength? (c :: cs ++ ds) := by
  rw [List.cons_append, newLineLength?_cons, newLineLength?_cons]
  cases cs with
  | nil => simp [noLine]
  | cons d cs => rfl

/-- Blanks within the beginning are matched in the beginning alone, unless a line break is cut in
two. -/
lemma blankLength_of_append (noLine : ds.head? ≠ some '\n') :
    ∀ {cs : List Char}, blankLength (cs ++ ds) ≤ cs.length →
      blankLength cs = blankLength (cs ++ ds)
  | [], within => (Nat.le_zero.mp within).symm
  | c :: cs, within => by
    have second : (cs ++ ds).head? = some '\n' ↔ cs.head? = some '\n' := by
      cases cs with
      | nil => simp [noLine]
      | cons d cs => rfl
    rw [List.cons_append, blankLength_cons, List.length_cons] at within
    rw [List.cons_append, blankLength_cons, blankLength_cons]
    simp only [second] at within ⊢
    split
    · rfl
    · next apart =>
      split
      · next blank =>
        rw [if_neg apart, if_pos blank] at within
        rw [blankLength_of_append noLine (Nat.le_of_succ_le_succ within)]
      · rfl

/-- A quoted text that ends within a text is closed there. -/
lemma closed_of_append (closed : Token.opensUnclosed (c :: cs ++ ds) = false)
    (within : ∀ m, stringLength? (c :: cs ++ ds) = some m → m ≤ (c :: cs).length) :
    Token.opensUnclosed (c :: cs) = false := by
  by_cases quote : c = '"'
  · subst quote
    have mem : '"' ∈ cs ++ ds := by
      rw [List.cons_append, Token.opensUnclosed, Bool.not_eq_false'] at closed
      exact List.contains_iff_mem.mp closed
    cases found : (cs ++ ds).findIdx? (· == '"') with
    | none => exact absurd (List.findIdx?_eq_none_iff.mp found '"' mem) (by simp)
    | some i =>
      have bound := within (i + 2) (by rw [List.cons_append, stringLength?, found]; rfl)
      obtain ⟨inside, closing, -⟩ := List.findIdx?_eq_some_iff_getElem.mp found
      have here : i < cs.length := by
        rw [List.length_cons] at bound
        omega
      rw [List.getElem_append_left here] at closing
      have mem : '"' ∈ cs := eq_of_beq closing ▸ List.getElem_mem here
      simp [Token.opensUnclosed, mem]
  · simp [Token.opensUnclosed, quote]

/-- A match that ends within a text is found without what follows, unless that is a line feed, which
could belong to a carriage return before it. -/
lemma longest?_of_append (noLine : ds.head? ≠ some '\n')
    (closed : Token.opensUnclosed (c :: cs ++ ds) = false)
    (found : longest? afterOperand (c :: cs ++ ds) = some (pattern, n))
    (within : n ≤ (c :: cs).length) :
    Token.opensUnclosed (c :: cs) = false ∧
      longest? afterOperand (c :: cs) = some (pattern, n) := by
  -- every match is at most as long as the longest, so it ends within the text, too
  have each : ∀ other : Pattern, ∀ m, other.length? afterOperand (c :: cs ++ ds) = some m →
      m ≤ (c :: cs).length := by
    intro other m match?
    obtain ⟨best, k, longest, le⟩ := le_longest? match?
    rw [found] at longest
    cases longest
    exact Nat.le_trans le within
  have closed' := closed_of_append closed (each string)
  refine ⟨closed', ?_⟩
  rw [← found]
  apply longest?_congr
  intro other
  cases other with
  | newLine => exact newLineLength?_of_append noLine
  | string => exact (stringLength?_append closed' ds).symm
  | operator => exact wordLength?_of_append (each operator)
  | symbol => exact wordLength?_of_append (each symbol)
  | number => exact numberLength?_of_append (each number)
  | identifier => exact identifierLength?_of_append (each identifier)
  | blank =>
    have short : blankLength (c :: cs ++ ds) ≤ (c :: cs).length := by
      have bound := each blank
      rw [length?] at bound
      grind
    rw [length?, length?, blankLength_of_append noLine short]

end Pattern

end Easel
