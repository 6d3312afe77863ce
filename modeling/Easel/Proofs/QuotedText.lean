import Easel.Text.Quoted
import Mathlib.Data.List.TakeWhile
import Mathlib.Tactic.Lemma

/-!
# Reading quoted text back

What stands between quotes is read character by character: a backslash begins an escape, and
anything else stands for itself (`unescape`). A reader takes back what a character was written as,
whatever follows (`unescape_escape`). A quote is written as an escape too, so the closing one is
found, and different texts are quoted differently (`quote_injective`). No line ends within a quoted
text.
-/

namespace Easel.Text

/-- The value of a digit to base sixteen. -/
def hexDigit (c : Char) : Nat :=
  if c.isDigit then c.toNat - '0'.toNat else c.toNat - 'a'.toNat + 10

/-- The value of digits to base sixteen. -/
def hexValue (cs : List Char) : Nat :=
  cs.foldl (fun n c => 16 * n + hexDigit c) 0

/-- A hexadecimal digit is read as it is written. -/
lemma hexDigit_digitChar {n : Nat} (digit : n < 16) : hexDigit n.digitChar = n := by
  have all : ∀ n : Fin 16, hexDigit n.val.digitChar = n := by decide
  exact all ⟨n, digit⟩

/-- A hexadecimal number is read as it is written. -/
lemma hexValue_toDigits (n : Nat) : hexValue (Nat.toDigits 16 n) = n := by
  induction n using Nat.strong_induction_on with
  | _ n ih =>
    rw [Nat.toDigits_eq_if (by decide)]
    split
    · next digit => simp [hexValue, hexDigit_digitChar digit]
    · next more =>
      have last := hexDigit_digitChar (Nat.mod_lt n (by decide : 0 < 16))
      have front := ih (n / 16) (by omega)
      rw [hexValue, List.foldl_append, ← hexValue, front, List.foldl_cons, last, List.foldl_nil]
      exact Nat.div_add_mod n 16

/-- Digits to base sixteen are not confused with anything that ends them. -/
lemma isAlphanum_of_mem_toDigits {c : Char} {n : Nat} (mem : c ∈ Nat.toDigits 16 n) :
    c.isAlphanum := by
  have all : ∀ n : Fin 16, n.val.digitChar.isAlphanum := by decide
  induction n using Nat.strong_induction_on with
  | _ n ih =>
    rw [Nat.toDigits_eq_if (by decide)] at mem
    split at mem
    · next digit =>
      rw [List.mem_singleton.mp mem]
      exact all ⟨n, digit⟩
    · next more =>
      rcases List.mem_append.mp mem with front | last
      · exact ih (n / 16) (by omega) front
      · rw [List.mem_singleton.mp last]
        exact all ⟨n % 16, Nat.mod_lt n (by decide)⟩

/-- Reads one character of a quoted text, and gives it with what follows it. -/
def unescape : List Char → Option (Char × List Char)
  | '\\' :: '0' :: cs => some ('\x00', cs)
  | '\\' :: 't' :: cs => some ('\t', cs)
  | '\\' :: 'r' :: cs => some ('\r', cs)
  | '\\' :: 'n' :: cs => some ('\n', cs)
  | '\\' :: 'u' :: '\x7b' :: cs =>
    some (.ofNat (hexValue (cs.takeWhile (· != '\x7d'))), (cs.dropWhile (· != '\x7d')).tail)
  | '\\' :: c :: cs => some (c, cs)
  | c :: cs => some (c, cs)
  | [] => none

/-- A character is read as it was written. -/
lemma unescape_escape (c : Char) (cs : List Char) : unescape (escape c ++ cs) = some (c, cs) := by
  rw [escape]
  split_ifs with zero tab feed line quote backslash graphic
  · rw [zero]
    rfl
  · rw [tab]
    rfl
  · rw [feed]
    rfl
  · rw [line]
    rfl
  · rw [quote]
    rfl
  · rw [backslash]
    rfl
  · simp [unescape, backslash]
  · have digits : ∀ d ∈ Nat.toDigits 16 c.toNat, (d != '\x7d') = true := by
      intro d mem
      rw [bne_iff_ne]
      rintro rfl
      exact absurd (isAlphanum_of_mem_toDigits mem) (by decide)
    simp only [List.cons_append, List.append_assoc, List.nil_append, unescape]
    rw [List.takeWhile_append_of_pos digits, List.dropWhile_append_of_pos digits]
    simp [hexValue_toDigits]

/-- The closing quote is the first that is not part of an escape. -/
lemma eq_of_flatMap_escape {s t : List Char}
    (same : s.flatMap escape ++ ['"'] = t.flatMap escape ++ ['"']) : s = t := by
  have opens : ∀ c cs, escape c ++ cs ≠ ['"'] := by
    intro c cs closed
    have read := congrArg unescape closed
    rw [unescape_escape] at read
    obtain ⟨rfl, rfl⟩ := Prod.mk.inj (Option.some.inj read)
    exact absurd closed (by decide)
  -- characters are taken from both texts in turn, as each escape tells its own end
  induction s generalizing t with
  | nil =>
    cases t with
    | nil => rfl
    | cons d t =>
      rw [List.flatMap_cons, List.append_assoc] at same
      exact absurd same.symm (opens d _)
  | cons c s ih =>
    cases t with
    | nil =>
      rw [List.flatMap_cons, List.append_assoc] at same
      exact absurd same (opens c _)
    | cons d t =>
      rw [List.flatMap_cons, List.flatMap_cons, List.append_assoc, List.append_assoc] at same
      have read := congrArg unescape same
      rw [unescape_escape, unescape_escape] at read
      obtain ⟨rfl, rest⟩ := Prod.mk.inj (Option.some.inj read)
      rw [ih rest]

/-- Different texts are quoted differently. -/
lemma quote_injective : Function.Injective quote := by
  intro s t same
  have written := congrArg String.toList same
  simp only [quote, String.toList_ofList] at written
  exact String.toList_inj.mp (eq_of_flatMap_escape (List.cons.inj written).2)

/-- No line ends within a quoted text. -/
lemma newLine_not_mem_quote (s : String) : '\n' ∉ (quote s).toList := by
  have escaped : ∀ c, '\n' ∉ escape c := by
    intro c
    rw [escape]
    split_ifs with zero tab feed line quote backslash graphic
    · decide
    · decide
    · decide
    · decide
    · decide
    · decide
    · simpa using Ne.symm line
    · intro mem
      simp only [List.mem_cons, List.mem_append, Char.reduceEq, false_or, List.not_mem_nil,
        or_false] at mem
      exact absurd (isAlphanum_of_mem_toDigits mem) (by decide)
  simp [quote, escaped]

end Easel.Text
