import Easel.Proofs.ShortestDecimal
import Mathlib.Data.List.TakeWhile

/-!
# The text of a number tells it apart

Different numbers have different texts (`text_injective`). The sign and the kind of a number show
in the first characters of its text. The digits of a finite number are those of a decimal in its
interval, and the decimal can be read off them (`textValue`), so they belong to one mantissa and
exponent. These in turn belong to one bit pattern, as there is only one value that is no number.
-/

namespace Easel.Number

/-- The number that digits with at most one point among them denote. -/
def textValue (cs : List Char) : ℚ :=
  let fraction := (cs.dropWhile (· != '.')).tail
  Nat.ofDigitChars 10 (cs.takeWhile (· != '.') ++ fraction) 0 / 10 ^ fraction.length

/-- Digits without a point are a natural number. -/
lemma textValue_whole {cs : List Char} (whole : '.' ∉ cs) :
    textValue cs = Nat.ofDigitChars 10 cs 0 := by
  have all : ∀ c ∈ cs, (c != '.') = true := fun c mem =>
    bne_iff_ne.mpr fun point => whole (point ▸ mem)
  rw [textValue, List.takeWhile_eq_self_iff.mpr all, List.dropWhile_eq_nil_iff.mpr all]
  simp

/-- Digits after a point are divided by a power of ten. -/
lemma textValue_point {whole fraction : List Char} (free : '.' ∉ whole) :
    textValue (whole ++ '.' :: fraction) =
      Nat.ofDigitChars 10 (whole ++ fraction) 0 / 10 ^ fraction.length := by
  have all : ∀ c ∈ whole, (c != '.') = true := fun c mem =>
    bne_iff_ne.mpr fun point => free (point ▸ mem)
  rw [textValue, List.takeWhile_append_of_pos all, List.dropWhile_append_of_pos all]
  simp

/-- The digits of a number are digits. -/
lemma isDigit_of_mem_toDigits {c : Char} {n : Nat} (mem : c ∈ Nat.toDigits 10 n) : c.isDigit :=
  Nat.isDigit_of_mem_toDigits (by decide) (by decide) mem

/-- A decimal can be read off its text. -/
lemma textValue_text (d : Decimal) : textValue d.text = d.value := by
  have free : '.' ∉ Nat.toDigits 10 d.digits := fun mem =>
    absurd (isDigit_of_mem_toDigits mem) (by decide)
  simp only [Decimal.text]
  split
  · next nonneg =>
    rw [textValue_whole (by simp [free]), Nat.ofDigitChars_append, Nat.ofDigitChars_ten_toDigits,
      Nat.ofDigitChars_replicate_zero, Decimal.value, zpow_eq_div,
      show (-d.exponent).toNat = 0 by omega]
    push_cast
    ring
  · next negative =>
    have exponent : d.exponent.toNat = 0 := by omega
    split
    · next shorter =>
      rw [textValue_point fun mem => free (List.mem_of_mem_take mem), List.take_append_drop,
        Nat.ofDigitChars_ten_toDigits, List.length_drop, Decimal.value, zpow_eq_div, exponent,
        Nat.sub_sub_self shorter.le]
      ring
    · next longer =>
      have zero : Nat.ofDigitChars 10 ['0'] 0 = 0 := rfl
      rw [show ∀ cs, '0' :: '.' :: cs = ['0'] ++ '.' :: cs from fun _ => rfl,
        textValue_point (by decide), Nat.ofDigitChars_append, Nat.ofDigitChars_append,
        Nat.ofDigitChars_replicate_zero, zero, Nat.mul_zero, Nat.ofDigitChars_ten_toDigits,
        List.length_append, List.length_replicate, Nat.sub_add_cancel (not_lt.mp longer),
        Decimal.value, zpow_eq_div, exponent]
      ring

/-- The text of a decimal has nothing but digits and a point. -/
lemma mem_text {d : Decimal} {c : Char} (mem : c ∈ d.text) : c.isDigit ∨ c = '.' := by
  have zeros : ∀ n, ∀ c ∈ List.replicate n '0', c.isDigit := fun n c mem => by
    rw [List.eq_of_mem_replicate mem]
    decide
  simp only [Decimal.text] at mem
  split at mem
  · rcases List.mem_append.mp mem with inside | zero
    · exact .inl (isDigit_of_mem_toDigits inside)
    · exact .inl (zeros _ c zero)
  · split at mem
    · simp only [List.mem_append, List.mem_cons] at mem
      rcases mem with whole | point | fraction
      · exact .inl (isDigit_of_mem_toDigits (List.mem_of_mem_take whole))
      · exact .inr point
      · exact .inl (isDigit_of_mem_toDigits (List.mem_of_mem_drop fraction))
    · simp only [List.mem_append, List.mem_cons] at mem
      rcases mem with rfl | point | zero | inside
      · exact .inl (by decide)
      · exact .inr point
      · exact .inl (zeros _ c zero)
      · exact .inl (isDigit_of_mem_toDigits inside)

/-- The text of a decimal begins with a digit. -/
lemma head?_text (d : Decimal) : ∃ c, d.text.head? = some c ∧ c.isDigit := by
  have digit : ∃ c, (Nat.toDigits 10 d.digits).head? = some c ∧ c.isDigit := by
    obtain ⟨c, cs, shape⟩ := List.exists_cons_of_length_pos
      (Nat.length_toDigits_pos (b := 10) (n := d.digits))
    exact ⟨c, by rw [shape]; rfl, isDigit_of_mem_toDigits (shape ▸ List.mem_cons_self)⟩
  obtain ⟨c, first, isDigit⟩ := digit
  simp only [Decimal.text]
  split
  · exact ⟨c, by rw [List.head?_append, first]; rfl, isDigit⟩
  · split
    · next shorter =>
      refine ⟨c, ?_, isDigit⟩
      rw [List.head?_append, List.head?_take, if_neg (by omega), first]
      rfl
    · exact ⟨'0', rfl, by decide⟩

/-- A zero has the least exponent. -/
lemma Canonical.exponent_of_zero {e : Int} (c : Canonical 0 e) : e = -1074 := by
  have least := c.exponent_ge
  have hidden := c.hidden
  rw [hiddenBit_eq] at hidden
  omega

namespace Parts

/-- Whether a minus sign is written. -/
def negative : Parts → Bool
  | nan => false
  | infinite negative => negative
  | finite negative _ _ => negative

/-- What is written after the sign. -/
def body : Parts → List Char
  | nan => ['N', 'a', 'N']
  | infinite _ => ['i', 'n', 'f']
  | finite _ mantissa exponent => if mantissa = 0 then ['0'] else (shortest mantissa exponent).text

/-- The text of a finite number begins with a digit, after its sign. -/
lemma head?_body_finite (negative : Bool) (m : Nat) (e : Int) :
    ∃ c, (finite negative m e).body.head? = some c ∧ c.isDigit := by
  rw [body]
  split
  · exact ⟨'0', rfl, by decide⟩
  · exact head?_text _

/-- What follows the sign does not begin with one. -/
lemma head?_body (p : Parts) : p.body.head? ≠ some '-' := by
  cases p with
  | nan => decide
  | infinite negative => exact fun sign => absurd (Option.some.inj sign) (by decide)
  | finite negative m e =>
    obtain ⟨c, first, isDigit⟩ := head?_body_finite negative m e
    intro sign
    obtain rfl : c = '-' := Option.some.inj (first.symm.trans sign)
    exact absurd isDigit (by decide)

/-- The digits of a finite number belong to one mantissa and exponent. -/
lemma finite_of_body {negative negative' : Bool} {m m' : Nat} {e e' : Int} (c : Canonical m e)
    (c' : Canonical m' e')
    (same : (finite negative m e).body = (finite negative' m' e').body) : m = m' ∧ e = e' := by
  have value := congrArg textValue same
  have zero : textValue ['0'] = 0 := (textValue_whole (by decide)).trans Nat.cast_zero
  rw [body, body] at value
  split at value
  · next none =>
    split at value
    · next none' =>
      rw [none] at c
      rw [none'] at c'
      exact ⟨none.trans none'.symm, c.exponent_of_zero.trans c'.exponent_of_zero.symm⟩
    · next some' =>
      rw [zero, textValue_text] at value
      exact absurd value (shortest_pos c' (Nat.pos_of_ne_zero some')).ne
  · next some =>
    split at value
    · rw [zero, textValue_text] at value
      exact absurd value (shortest_pos c (Nat.pos_of_ne_zero some)).ne'
    · next some' =>
      rw [textValue_text, textValue_text] at value
      have held := shortest_holds c (Nat.pos_of_ne_zero some)
      exact holds_unique c c' held (value ▸ shortest_holds c' (Nat.pos_of_ne_zero some'))

end Parts

/-- The text of a number is its sign and its body. -/
lemma toList_text (x : Float) : (text x).toList =
    if (parts x).negative then '-' :: (parts x).body else (parts x).body := by
  rw [text]
  cases parts x with
  | nan => rfl
  | infinite negative => cases negative <;> rfl
  | finite negative mantissa exponent => rw [String.toList_ofList]; rfl

/-- The parts of a finite number are canonical. -/
lemma canonical_of_parts {x : Float} {negative : Bool} {m : Nat} {e : Int}
    (finite : parts x = .finite negative m e) : Canonical m e := by
  have fraction : x.toBits.toNat % hiddenBit < hiddenBit := Nat.mod_lt _ (by decide)
  simp only [parts] at finite
  split at finite
  · split at finite <;> cases finite
  · split at finite
    · cases finite
      exact ⟨by omega, le_refl _, fun greater => absurd greater (lt_irrefl _)⟩
    · cases finite
      exact ⟨by omega, by omega, fun _ => Nat.le_add_right _ _⟩

/-- The bit pattern of a number with the given parts. -/
def Parts.bits : Parts → Nat
  | nan => 0
  | infinite negative => negative.toNat * 2 ^ 63 + 2047 * 2 ^ 52
  | finite negative mantissa exponent =>
    negative.toNat * 2 ^ 63 +
      if mantissa < hiddenBit then mantissa
      else (exponent + 1075).toNat * 2 ^ 52 + (mantissa - hiddenBit)

/-- The parts of a number tell its bits. -/
lemma bits_parts {x : Float} (number : parts x ≠ .nan) : (parts x).bits = x.toBits.toNat := by
  have small := x.toBits.toNat_lt
  simp only [parts, Nat.shiftRight_eq_div_pow] at number ⊢
  generalize x.toBits.toNat = n at *
  have sign : (n / 2 ^ 63 == 1).toNat = n / 2 ^ 63 := by
    rcases (by omega : n / 2 ^ 63 = 0 ∨ n / 2 ^ 63 = 1) with zero | one
    · rw [zero]
      rfl
    · rw [one]
      rfl
  have fraction : n % hiddenBit < hiddenBit := Nat.mod_lt _ (by decide)
  by_cases full : n / 2 ^ 52 % 2048 = 2047
  · rw [if_pos full] at number ⊢
    by_cases none : n % hiddenBit = 0
    · rw [if_pos none, Parts.bits, sign]
      rw [hiddenBit_eq] at none
      omega
    · exact absurd (if_neg none) number
  · rw [if_neg full]
    split
    · rw [Parts.bits, sign, if_pos fraction, hiddenBit_eq]
      omega
    · rw [Parts.bits, sign, if_neg (Nat.not_lt.mpr (Nat.le_add_right _ _)), Nat.add_sub_cancel_left,
        hiddenBit_eq]
      omega

/-- There is only one bit pattern that is no number. -/
lemma toBits_of_nan {x : Float} (nan : parts x = .nan) :
    x.toBits.toBitVec = Float.Model.UnpackedFloat.packedNaN .binary64 := by
  simp only [parts] at nan
  split at nan
  · next field =>
    split at nan
    · cases nan
    · next fraction =>
      obtain ⟨⟨bits, valid⟩⟩ := x
      apply valid.eq_packedNaN
      · apply BitVec.eq_of_toNat_eq
        simp only [Float.Model.UnpackedFloat.unpackExponent, BitVec.toNat_cast,
          BitVec.extractLsb_toNat]
        exact field
      · intro zero
        have none := congrArg BitVec.toNat zero
        simp [Float.Model.UnpackedFloat.unpackMantissa] at none
        exact fraction none
  · split at nan <;> cases nan

/-- Numbers of the same parts are the same. -/
lemma parts_injective : Function.Injective parts := by
  intro x y same
  suffices bits : x.toBits.toNat = y.toBits.toNat by
    obtain ⟨⟨a, valid⟩⟩ := x
    obtain ⟨⟨b, valid'⟩⟩ := y
    obtain rfl : a = b := UInt64.toNat_inj.mp bits
    rfl
  by_cases nan : parts x = .nan
  · have pattern := (toBits_of_nan nan).trans (toBits_of_nan (same ▸ nan)).symm
    exact congrArg BitVec.toNat pattern
  · rw [← bits_parts nan, ← bits_parts (same ▸ nan), same]

/-- What is written after the sign tells finite numbers from others. -/
lemma Parts.body_finite_ne (negative : Bool) (m : Nat) (e : Int) {c : Char} {cs : List Char}
    (other : c.isDigit = false) : (finite negative m e).body ≠ c :: cs := by
  intro same
  obtain ⟨d, first, isDigit⟩ := head?_body_finite negative m e
  rw [same] at first
  cases first
  exact absurd isDigit (by rw [other]; exact Bool.false_ne_true)

/-- Different numbers have different texts. -/
lemma text_injective : Function.Injective text := by
  intro x y same
  have written := congrArg String.toList same
  rw [toList_text, toList_text] at written
  -- no body begins with a sign, so the sign can be told from the text
  have parted : (parts x).negative = (parts y).negative ∧ (parts x).body = (parts y).body := by
    split at written
    · next sign =>
      split at written
      · next sign' => exact ⟨sign.trans sign'.symm, (List.cons.inj written).2⟩
      · exact absurd (by rw [← written]; rfl) (parts y).head?_body
    · next sign =>
      split at written
      · exact absurd (by rw [written]; rfl) (parts x).head?_body
      · next sign' =>
        rw [Bool.not_eq_true] at sign sign'
        exact ⟨sign.trans sign'.symm, written⟩
  obtain ⟨sign, body⟩ := parted
  apply parts_injective
  cases hx : parts x <;> cases hy : parts y <;> rw [hx, hy] at sign body
  case infinite.infinite => exact congrArg Parts.infinite sign
  case finite.finite negative m e negative' m' e' =>
    obtain ⟨rfl, rfl⟩ := Parts.finite_of_body (canonical_of_parts hx) (canonical_of_parts hy) body
    exact congrArg (Parts.finite · m e) sign
  case nan.infinite | infinite.nan => cases body
  case finite.nan | finite.infinite => exact absurd body (Parts.body_finite_ne _ _ _ rfl)
  case nan.finite | infinite.finite => exact absurd body.symm (Parts.body_finite_ne _ _ _ rfl)

/-- The text of a number stands on one line. -/
lemma newLine_not_mem_text (x : Float) : '\n' ∉ (text x).toList := by
  have body : '\n' ∉ (parts x).body := by
    cases parts x with
    | nan => decide
    | infinite => simp [Parts.body]
    | finite negative m e =>
      rw [Parts.body]
      split
      · decide
      · intro mem
        rcases mem_text mem with digit | point
        · exact absurd digit (by decide)
        · exact absurd point (by decide)
  rw [toList_text]
  split
  · simp [body]
  · exact body

end Easel.Number
