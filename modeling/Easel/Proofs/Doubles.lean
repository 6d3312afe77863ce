import Easel.Proofs.NumberText
import Easel.Proofs.Rounding

/-!
# Arithmetic on doubles

Each operation on finite doubles gives the exact result, rounded, unless that is too large
(`is_add`, `is_sub`, `is_mul`, `is_div`). Comparing doubles compares the numbers that they are
(`lt_iff`).
-/

namespace Easel.Number

open Float.Model Float.Model.UnpackedFloat

/-- The double is a rational number. -/
def Is (x : Float) (q : ℚ) : Prop := value? x.toModel.unpack = some q

/-- The hidden bit stands before the bits of the fraction. -/
lemma toNat_append_fraction (v : BitVec 52) : (1#1 ++ v).toNat = hiddenBit + v.toNat := by
  rw [BitVec.toNat_append, ← Nat.shiftLeft_add_eq_or_of_lt v.isLt]
  rfl

/-- What is read from the three fields of a double, if the exponent is not that of infinity. -/
lemma unpack_packComponents (s : Sign) {m field : ℕ} (less : field < 2047) (fits : m < 2 ^ 52) :
    UnpackedFloat.unpack .binary64 (packComponents .binary64 s (.ofNat 11 field) (.ofNat 52 m)) =
      if field = 0 then
        if zero : m = 0 then .zero s else .finite s m (-1074) (Nat.pos_of_ne_zero zero)
      else .finite s (hiddenBit + m) (field - 1075) (Nat.add_pos_left (by decide) m) := by
  have exponent : (BitVec.ofNat 11 field).toNat = field := by
    rw [BitVec.toNat_ofNat, Nat.mod_eq_of_lt (by omega)]
  have mantissa : (BitVec.ofNat 52 m).toNat = m := by
    rw [BitVec.toNat_ofNat, Nat.mod_eq_of_lt fits]
  have notFull : BitVec.ofNat 11 field ≠ -1#11 := by
    intro full
    rw [← BitVec.toNat_inj, exponent] at full
    simp at full
    omega
  have noField : BitVec.ofNat 11 field = 0#11 ↔ field = 0 := by
    rw [← BitVec.toNat_inj, exponent]
    rfl
  have noMantissa : BitVec.ofNat 52 m = 0#52 ↔ m = 0 := by
    rw [← BitVec.toNat_inj, mantissa]
    rfl
  have hidden : (1#1 ++ BitVec.ofNat 52 m).toNat = hiddenBit + m := by
    rw [toNat_append_fraction, mantissa]
  simp only [UnpackedFloat.unpack, unpackExponent_packComponents, unpackMantissa_packComponents,
    unpackSign_packComponents, Sign.ofBitVec_toBitVec, if_neg notFull, noField, noMantissa,
    exponent, mantissa, hidden]
  split_ifs with subnormal zero
  · rfl
  · subst subnormal
    rfl
  · rfl

/-- The exponent field counts from the least exponent. -/
lemma biased_eq (e : ℤ) : (e + (Format.binary64.exponentBias : ℤ) +
    (Format.binary64.mantissaBitsWithoutImplicit : ℤ)).toNat = (e + 1075).toNat := by
  norm_num [Format.exponentBias]
  omega

/-- A finite double in the form that a packed one has is not changed by packing. -/
lemma unpack_pack_finite (s : Sign) {m : ℕ} {e : ℤ} (positive : 0 < m) (c : Canonical m e)
    (small : e ≤ 971) : (pack (.finite s m e positive)).unpack = .finite s m e positive := by
  have less := c.mantissa_lt
  have least := c.exponent_ge
  have hidden := c.hidden
  rw [hiddenBit_eq] at less hidden
  change UnpackedFloat.unpack .binary64 (UnpackedFloat.pack .binary64 (.finite s m e positive)) = _
  rw [UnpackedFloat.pack, biased_eq, if_neg (by norm_num; omega)]
  by_cases normal : 2 ^ 52 ≤ m
  · have bits : m.log2 + 1 = Format.binary64.mantissaBits := by
      have : m.log2 = 52 := (Nat.log2_eq_iff positive.ne').mpr ⟨normal, by omega⟩
      rw [this]
      rfl
    have fraction : BitVec.ofNat 52 m = .ofNat 52 (m - 2 ^ 52) := by
      apply BitVec.eq_of_toNat_eq
      rw [BitVec.toNat_ofNat, BitVec.toNat_ofNat]
      omega
    rw [if_pos bits]
    change UnpackedFloat.unpack .binary64
      (packComponents .binary64 s (.ofNat 11 (e + 1075).toNat) (.ofNat 52 m)) = _
    rw [fraction, unpack_packComponents s (by omega) (by omega), if_neg (by omega)]
    simp only [UnpackedFloat.finite.injEq, hiddenBit_eq, true_and]
    omega
  · have bits : m.log2 + 1 ≠ Format.binary64.mantissaBits := by
      have : m.log2 < 52 := (Nat.log2_lt positive.ne').mpr (by omega)
      change m.log2 + 1 ≠ 53
      omega
    rw [if_neg bits]
    change UnpackedFloat.unpack .binary64
      (packComponents .binary64 s (.ofNat 11 0) (.ofNat 52 m)) = _
    rw [unpack_packComponents s (by omega) (by omega), if_pos rfl, dif_neg positive.ne']
    simp only [UnpackedFloat.finite.injEq, true_and]
    omega

/-- Zeros are packed without loss. -/
lemma unpack_pack_zero (s : Sign) : (pack (.zero s)).unpack = .zero s := by
  cases s <;> rfl

/-- Infinities are packed without loss. -/
lemma unpack_pack_infinity (s : Sign) : (pack (.infinity s)).unpack = .infinity s := by
  cases s <;> rfl

/-- A finite double that is too large to be packed becomes infinite. -/
lemma unpack_pack_overflow (s : Sign) {m : ℕ} {e : ℤ} (positive : 0 < m) (large : 971 < e) :
    (pack (.finite s m e positive)).unpack = .infinity s := by
  change UnpackedFloat.unpack .binary64 (UnpackedFloat.pack .binary64 (.finite s m e positive)) = _
  rw [UnpackedFloat.pack, biased_eq, if_pos (by norm_num; omega)]
  exact unpack_pack_infinity s

/-- The parts of a double that is given unpacked. -/
def view : UnpackedFloat → Parts
  | .notANumber => .nan
  | .infinity s => .infinite (s == .negative)
  | .zero s => .finite (s == .negative) 0 (-1074)
  | .finite s m e _ => .finite (s == .negative) m e

/-- The parts of a double are those of its unpacked form. -/
lemma parts_eq_view (x : Float) : parts x = view x.toModel.unpack := by
  -- the fields are cut out of the bits in two ways, by shifting and as parts of the vector
  have exponent : (@unpackExponent .binary64 x.toModel.toBits.toBitVec).toNat =
      (x.toBits.toNat >>> 52) % 2048 := by
    simp only [unpackExponent, BitVec.toNat_cast, BitVec.extractLsb_toNat]
    rfl
  have mantissa : (@unpackMantissa .binary64 x.toModel.toBits.toBitVec).toNat =
      x.toBits.toNat % hiddenBit := by
    simp only [unpackMantissa, BitVec.toNat_cast, BitVec.extractLsb_toNat]
    rfl
  have sign : (Sign.ofBitVec (@unpackSign .binary64 x.toModel.toBits.toBitVec) == .negative) =
      (x.toBits.toNat >>> 63 == 1) := by
    have bit : (@unpackSign .binary64 x.toModel.toBits.toBitVec).toNat =
        (x.toBits.toNat >>> 63) % 2 := by
      simp only [unpackSign, BitVec.toNat_cast, BitVec.extractLsb_toNat]
      rfl
    have bound := x.toBits.toNat_lt
    rw [Nat.shiftRight_eq_div_pow] at bit ⊢
    rcases (by omega : x.toBits.toNat / 2 ^ 63 = 0 ∨ x.toBits.toNat / 2 ^ 63 = 1) with low | high
    · rw [low] at bit ⊢
      rw [BitVec.eq_of_toNat_eq (y := 0#1) bit]
      rfl
    · rw [high] at bit ⊢
      rw [BitVec.eq_of_toNat_eq (y := 1#1) bit]
      rfl
  have full : @unpackExponent .binary64 x.toModel.toBits.toBitVec = -1#11 ↔
      (x.toBits.toNat >>> 52) % 2048 = 2047 := by
    rw [← BitVec.toNat_inj, exponent]
    rfl
  have noField : @unpackExponent .binary64 x.toModel.toBits.toBitVec = 0#11 ↔
      (x.toBits.toNat >>> 52) % 2048 = 0 := by
    rw [← BitVec.toNat_inj, exponent]
    rfl
  have noFraction : @unpackMantissa .binary64 x.toModel.toBits.toBitVec = 0#52 ↔
      x.toBits.toNat % hiddenBit = 0 := by
    rw [← BitVec.toNat_inj, mantissa]
    rfl
  simp only [parts, Float.Model.unpack, UnpackedFloat.unpack, full, noField, noFraction]
  split_ifs with infinite fraction subnormal zero
  · rw [view, sign]
  · rfl
  · rw [view, sign, zero]
  · simp only [view, sign, mantissa, exponent, subnormal]
    rfl
  · simp only [view, sign, toNat_append_fraction, mantissa, exponent]
    rfl

/-- A double with a value is in the form that packing keeps. -/
lemma Is.settled {x : Float} {q : ℚ} (is : Is x q) : Settled x.toModel.unpack := by
  have form := parts_eq_view x
  rw [Is] at is
  cases unpacked : x.toModel.unpack with
  | infinity | notANumber =>
    rw [unpacked] at is
    cases is
  | zero s => trivial
  | finite s m e positive =>
    rw [unpacked] at form
    exact canonical_of_parts form

/-- A finite double is not changed by packing, or becomes infinite if it is too large. -/
lemma packed {u : UnpackedFloat} {q : ℚ} (settled : Settled u) (value : value? u = some q) :
    value? (pack u).unpack = some q ∨
      2 ^ 1023 ≤ |q| ∧
        (pack u).unpack = .infinity (if 0 < q then .positive else .negative) := by
  cases u with
  | infinity | notANumber => cases settled
  | zero s =>
    rw [unpack_pack_zero]
    exact .inl value
  | finite s m e positive =>
    rcases le_or_gt e 971 with small | large
    · rw [unpack_pack_finite s positive settled small]
      exact .inl value
    · have number : (0 : ℚ) < m * 2 ^ e := mul_pos (by exact_mod_cast positive) (two_zpow_pos e)
      cases value
      rw [unpack_pack_overflow s positive large, cast_apply, mul_assoc, Int.cast_natCast,
        abs_apply s number]
      refine .inr ⟨?_, ?_⟩
      · calc (2 : ℚ) ^ 1023 = 2 ^ (1023 : ℤ) := (zpow_natCast 2 1023).symm
          _ ≤ 2 ^ e * 2 ^ (52 : ℤ) := by
            rw [← two_zpow_add]
            exact two_zpow_le (by omega)
          _ ≤ m * 2 ^ e := by
            rw [mul_comm]
            gcongr
            have := settled.hidden (by omega)
            rw [hiddenBit_eq] at this
            norm_num
            exact_mod_cast this
      · cases s <;> simp [Sign.apply, number, number.le]

section Operations

variable {u v : UnpackedFloat} {q r : ℚ}

/-- The opposite sign gives the opposite number. -/
lemma apply_neg (s : Sign) (n : ℤ) : (-s).apply n = -s.apply n := by
  cases s
  · exact (neg_neg n).symm
  · rfl

/-- The sign of a product is the product of the signs. -/
lemma apply_mul (s s' : Sign) : (s * s').apply 1 = s.apply 1 * s'.apply 1 := by
  cases s <;> cases s' <;> rfl

/-- The sign of a quotient is the quotient of the signs. -/
lemma apply_div (s s' : Sign) : (((s / s').apply 1 : ℤ) : ℚ) = s.apply 1 / s'.apply 1 := by
  have same : (s / s').apply 1 = s.apply 1 * s'.apply 1 := by
    cases s <;> cases s' <;> rfl
  rw [same]
  cases s <;> cases s' <;> norm_num [Sign.apply]

/-- A number keeps its value if it is written with a smaller exponent. -/
lemma apply_shiftLeft (s : Sign) (m : ℕ) {e t : ℤ} (le : t ≤ e) :
    ((s.apply (decreaseExponent m e t).1 : ℤ) : ℚ) * 2 ^ t = (s.apply m : ℤ) * 2 ^ e := by
  have same := cast_shiftLeft m (e - t).toNat e
  rw [Int.toNat_of_nonneg (by omega), sub_sub_cancel] at same
  rw [cast_apply, cast_apply s m, mul_assoc, mul_assoc, Int.cast_natCast, Int.cast_natCast,
    decreaseExponent, same]

/-- Sums are rounded once. -/
lemma value?_add (hu : Settled u) (hv : Settled v) (hq : value? u = some q)
    (hr : value? v = some r) :
    Settled (add .binary64 u v) ∧ value? (add .binary64 u v) = some (rounded (q + r)) := by
  cases u with
  | infinity | notANumber => cases hu
  | zero s =>
    cases hq
    rw [zero_add, rounded_settled hv hr]
    cases v with
    | infinity | notANumber => cases hv
    | zero s' =>
      cases hr
      simp only [UnpackedFloat.add]
      split <;> exact ⟨trivial, rfl⟩
    | finite s' m' e' positive' => exact ⟨hv, hr⟩
  | finite s m e positive =>
    cases v with
    | infinity | notANumber => cases hv
    | zero s' =>
      cases hr
      rw [add_zero, rounded_settled hu hq]
      exact ⟨hu, hq⟩
    | finite s' m' e' positive' =>
      cases hq
      cases hr
      simp only [UnpackedFloat.add]
      have rest := value?_normalize (s.apply (decreaseExponent m e (min e e')).1 +
        s'.apply (decreaseExponent m' e' (min e e')).1) (min e e')
      rw [Int.cast_add, add_mul, apply_shiftLeft s m (min_le_left _ _),
        apply_shiftLeft s' m' (min_le_right _ _)] at rest
      exact rest

/-- The opposite of a double is not rounded. -/
lemma value?_neg (hu : Settled u) (hq : value? u = some q) :
    Settled u.neg ∧ value? u.neg = some (-q) := by
  cases u with
  | infinity | notANumber => cases hu
  | zero s =>
    cases hq
    exact ⟨trivial, by rw [UnpackedFloat.neg, value?, neg_zero]⟩
  | finite s m e positive =>
    cases hq
    refine ⟨hu, ?_⟩
    rw [UnpackedFloat.neg, value?, apply_neg, Int.cast_neg, neg_mul]

/-- A difference is a sum with the opposite. -/
lemma sub_eq_add (u v : UnpackedFloat) :
    UnpackedFloat.sub .binary64 u v = UnpackedFloat.add .binary64 u v.neg := by
  cases u <;> cases v <;> try rfl
  case finite.finite s m e positive s' m' e' positive' =>
    simp only [UnpackedFloat.sub, UnpackedFloat.add, UnpackedFloat.neg, apply_neg]
    rfl

/-- Differences are rounded once. -/
lemma value?_sub (hu : Settled u) (hv : Settled v) (hq : value? u = some q)
    (hr : value? v = some r) :
    Settled (UnpackedFloat.sub .binary64 u v) ∧
      value? (UnpackedFloat.sub .binary64 u v) = some (rounded (q - r)) := by
  obtain ⟨settled, value⟩ := value?_neg hv hr
  rw [sub_eq_add, sub_eq_add_neg]
  exact value?_add hu settled hq value

/-- The product of two significands has at least the bits that rounding needs. -/
lemma mul_fine {m m' : ℕ} {e e' : ℤ} (positive : 0 < m) (positive' : 0 < m') (c : Canonical m e)
    (c' : Canonical m' e') : e + e' ≤ max ((m * m').log2 + (e + e') - 52) (-1074) := by
  have least := c.exponent_ge
  have least' := c'.exponent_ge
  by_cases normal : 2 ^ 52 ≤ m * m'
  · have : 52 ≤ (m * m').log2 := (Nat.le_log2 (Nat.mul_pos positive positive').ne').mpr normal
    omega
  · -- both mantissas have no hidden bit, so both exponents are the least
    have le : m ≤ m * m' := Nat.le_mul_of_pos_right m positive'
    have le' : m' ≤ m * m' := Nat.le_mul_of_pos_left m' positive
    have none := mt c.hidden (by rw [hiddenBit_eq]; omega)
    have none' := mt c'.hidden (by rw [hiddenBit_eq]; omega)
    omega

/-- Products are rounded once. -/
lemma value?_mul (hu : Settled u) (hv : Settled v) (hq : value? u = some q)
    (hr : value? v = some r) :
    Settled (UnpackedFloat.mul .binary64 u v) ∧
      value? (UnpackedFloat.mul .binary64 u v) = some (rounded (q * r)) := by
  cases u with
  | infinity | notANumber => cases hu
  | zero s =>
    cases hq
    rw [zero_mul, rounded_zero]
    cases v with
    | infinity | notANumber => cases hv
    | zero s' | finite s' m' e' positive' => exact ⟨trivial, rfl⟩
  | finite s m e positive =>
    cases v with
    | infinity | notANumber => cases hv
    | zero s' =>
      cases hr
      rw [mul_zero, rounded_zero]
      exact ⟨trivial, rfl⟩
    | finite s' m' e' positive' =>
      cases hq
      cases hr
      have rest := value?_roundWithAccuracy (s * s') (.exact (m * m'))
        (Nat.mul_pos positive positive').ne' (mul_fine positive positive' hu hv)
      have product : ((s * s').apply 1 : ℤ) * (((m * m' : ℕ) : ℚ) * 2 ^ (e + e')) =
          (s.apply m : ℤ) * 2 ^ e * ((s'.apply m' : ℤ) * 2 ^ e') := by
        rw [two_zpow_add, apply_mul, cast_apply s m, cast_apply s' m']
        push_cast
        ring
      rw [product] at rest
      exact rest

/-- A quotient is at least as large as its exponents say. -/
lemma le_quotient {m m' : ℕ} (e e' : ℤ) (positive : 0 < m) (positive' : 0 < m') :
    2 ^ (m.log2 + e - (m'.log2 + e') - 1) ≤ (m * 2 ^ e / (m' * 2 ^ e') : ℚ) := by
  have least : (2 : ℚ) ^ m.log2 ≤ m := by exact_mod_cast Nat.log2_self_le positive.ne'
  have greatest : (m' : ℚ) ≤ 2 ^ (m'.log2 + 1) := by exact_mod_cast Nat.lt_log2_self.le
  have divisor : (0 : ℚ) < m' := by exact_mod_cast positive'
  rw [le_div_iff₀ (mul_pos divisor (two_zpow_pos e'))]
  calc (2 : ℚ) ^ (m.log2 + e - (m'.log2 + e') - 1) * (m' * 2 ^ e')
      ≤ 2 ^ (m.log2 + e - (m'.log2 + e') - 1) * (2 ^ (m'.log2 + 1) * 2 ^ e') := by gcongr
    _ = 2 ^ m.log2 * 2 ^ e := by
      rw [← zpow_natCast, ← zpow_natCast, ← two_zpow_add, ← two_zpow_add, ← two_zpow_add]
      congr 1
      push_cast
      ring
    _ ≤ m * 2 ^ e := by gcongr

/-- The core of a division has at least the bits to which the quotient is rounded. -/
lemma divCore_fine {m m' : ℕ} {e e' : ℤ} (positive : 0 < m) (positive' : 0 < m')
    (large : 2 ^ (-1074 : ℤ) ≤ (m * 2 ^ e / (m' * 2 ^ e') : ℚ)) :
    let core := divCore .binary64 m e m' e'
    Marks (.ofMantissaAndAccuracy core.1 core.2.2) (m * 2 ^ e / (m' * 2 ^ e') / 2 ^ core.2.1) ∧
      core.1 ≠ 0 ∧ core.2.1 ≤ max (core.1.log2 + core.2.1 - 52) (-1074) := by
  intro core
  -- the dividend is shifted by as many bits as the quotient is to have more than it
  let k := (e - e' - core.2.1).toNat
  have exponent : core.2.1 = min (e - e') (max (m.log2 + e - (m'.log2 + e') - 53) (-1074)) := by
    simp only [core, divCore, Format.targetExponent, totalExponent, Format.mantissaBits,
      Format.minExponent]
    norm_num
    omega
  have divisor : (0 : ℚ) < m' := by exact_mod_cast positive'
  have quotient : (m * 2 ^ e / (m' * 2 ^ e') / 2 ^ core.2.1 : ℚ) = (m <<< k : ℕ) / m' := by
    have shift : (2 : ℚ) ^ k = 2 ^ e / 2 ^ e' / 2 ^ core.2.1 := by
      rw [← zpow_natCast, Int.toNat_of_nonneg (by omega), zpow_sub₀ (by norm_num),
        zpow_sub₀ (by norm_num)]
    rw [Nat.shiftLeft_eq, Nat.cast_mul, Nat.cast_pow, Nat.cast_ofNat, shift]
    field_simp
  have scaled {j : ℕ} (le : 2 ^ (core.2.1 + j) ≤ (m * 2 ^ e / (m' * 2 ^ e') : ℚ)) :
      2 ^ j ≤ core.1 := by
    have : (2 : ℚ) ^ j ≤ (m <<< k : ℕ) / m' := by
      rw [← quotient, le_div_iff₀ (two_zpow_pos _), mul_comm, ← zpow_natCast, ← two_zpow_add]
      exact le
    rw [le_div_iff₀ divisor] at this
    exact (Nat.le_div_iff_mul_le positive').mpr (by exact_mod_cast this)
  -- either the exponent is the least one, or there are 53 bits
  have enough : (-1074 < core.2.1 → 2 ^ 52 ≤ core.1) ∧ 1 ≤ core.1 := by
    rcases le_or_gt core.2.1 (-1074) with low | high
    · refine ⟨fun high => absurd high (not_lt.mpr low), scaled (j := 0) ?_⟩
      exact (two_zpow_le (by simpa using low)).trans large
    · have bits : 2 ^ 52 ≤ core.1 :=
        scaled ((two_zpow_le (by push_cast; omega)).trans (le_quotient e e' positive positive'))
      exact ⟨fun _ => bits, by omega⟩
  refine ⟨?_, by omega, ?_⟩
  · rw [quotient]
    exact .fraction _ positive'
  · rcases le_or_gt core.2.1 (-1074) with low | high
    · omega
    · have : 52 ≤ core.1.log2 := (Nat.le_log2 (by omega)).mpr (enough.1 high)
      omega

/-- Quotients are rounded once, if they are not too small. -/
lemma value?_div (hu : Settled u) (hv : Settled v) (hq : value? u = some q)
    (hr : value? v = some r) (divisor : r ≠ 0) (large : q = 0 ∨ 2 ^ (-1074 : ℤ) ≤ |q / r|) :
    Settled (UnpackedFloat.div .binary64 u v) ∧
      value? (UnpackedFloat.div .binary64 u v) = some (rounded (q / r)) := by
  cases v with
  | infinity | notANumber => cases hv
  | zero s' =>
    cases hr
    exact absurd rfl divisor
  | finite s' m' e' positive' =>
    cases u with
    | infinity | notANumber => cases hu
    | zero s =>
      cases hq
      rw [zero_div, rounded_zero]
      exact ⟨trivial, rfl⟩
    | finite s m e positive =>
      cases hq
      cases hr
      have number : (0 : ℚ) < m * 2 ^ e / (m' * 2 ^ e') :=
        div_pos (mul_pos (by exact_mod_cast positive) (two_zpow_pos e))
          (mul_pos (by exact_mod_cast positive') (two_zpow_pos e'))
      have signed : ((s.apply m : ℤ) * 2 ^ e / ((s'.apply m' : ℤ) * 2 ^ e') : ℚ) =
          ((s / s').apply 1 : ℤ) * (m * 2 ^ e / (m' * 2 ^ e')) := by
        rw [apply_div, cast_apply s m, cast_apply s' m', mul_assoc, mul_assoc, mul_div_mul_comm]
        rfl
      -- a quotient that is not zero is the one for which there is a lower bound
      have size : 2 ^ (-1074 : ℤ) ≤ (m * 2 ^ e / (m' * 2 ^ e') : ℚ) := by
        rw [signed, abs_apply _ number] at large
        refine large.resolve_left fun zero => ?_
        rw [cast_apply, mul_assoc] at zero
        have : (0 : ℚ) < |((s.apply 1 : ℤ) : ℚ) * ((m : ℤ) * 2 ^ e)| := by
          rw [abs_apply s (mul_pos (by exact_mod_cast positive) (two_zpow_pos e))]
          exact mul_pos (by exact_mod_cast positive) (two_zpow_pos e)
        rw [zero, abs_zero] at this
        exact lt_irrefl _ this
      obtain ⟨marks, nonzero, fine⟩ := divCore_fine positive positive' size
      have rest := value?_roundWithAccuracy (s / s') marks nonzero fine
      rw [div_mul_cancel₀ _ (two_zpow_pos _).ne', ← signed] at rest
      exact rest

end Operations

section Doubles

variable {x y : Float} {q r : ℚ}

/-- Rounding at most doubles a number. -/
lemma abs_rounded_lt {k : ℕ} (small : |q| < 2 ^ k) : |rounded q| < 2 ^ (k + 1) := by
  have one : (1 : ℚ) ≤ 2 ^ k := one_le_pow₀ (by norm_num)
  have off : |rounded q - q| < 2 ^ k := by
    -- small numbers are off by a half at most, and all others by little in relation
    rcases le_or_gt (quantum q) 0 with fine | coarse
    · calc |rounded q - q| ≤ 2 ^ quantum q / 2 := rounded_near_quantum q
        _ ≤ 2 ^ (0 : ℤ) / 2 := by
          gcongr
          norm_num
        _ < 2 ^ k := by
          norm_num
          linarith
    · have nonzero : q ≠ 0 := by
        rintro rfl
        simp [quantum] at coarse
      have log : 52 < Int.log 2 |q| := by
        rw [quantum] at coarse
        omega
      have large : 2 ^ (-1022 : ℤ) ≤ |q| := by
        refine (two_zpow_le (by omega)).trans
          (Int.zpow_log_le_self (b := 2) (by norm_num) (abs_pos.mpr nonzero))
      calc |rounded q - q| ≤ 2 ^ (-53 : ℤ) * |q| := rounded_near large
        _ ≤ 1 * |q| := by
          gcongr
          norm_num
        _ < 2 ^ k := by rwa [one_mul]
  calc |rounded q| = |q + (rounded q - q)| := by rw [add_sub_cancel]
    _ ≤ |q| + |rounded q - q| := abs_add_le _ _
    _ < 2 ^ (k + 1) := by
      rw [pow_succ]
      linarith

/-- What is not too large can be packed. -/
lemma packed_of_lt {u : UnpackedFloat} (settled : Settled u) (value : value? u = some (rounded q))
    (small : |q| < 2 ^ 1022) : value? (pack u).unpack = some (rounded q) := by
  rcases packed settled value with same | ⟨large, -⟩
  · exact same
  · exact absurd (abs_rounded_lt small) (not_lt.mpr large)

/-- The opposite of a double has the opposite value. -/
lemma is_neg (hx : Is x q) (small : |q| < 2 ^ 1022) : Is (-x) (-q) := by
  obtain ⟨settled, value⟩ := value?_neg hx.settled hx
  have same : rounded (-q) = -q := rounded_settled settled value
  rw [← same] at value
  rw [← same]
  exact packed_of_lt settled value (by rwa [abs_neg])

/-- The sum of two doubles is their rounded sum, if it is not too large. -/
lemma is_add (hx : Is x q) (hy : Is y r) (small : |q + r| < 2 ^ 1022) :
    Is (x + y) (rounded (q + r)) := by
  obtain ⟨settled, value⟩ := value?_add hx.settled hy.settled hx hy
  exact packed_of_lt settled value small

/-- The difference of two doubles is their rounded difference, if it is not too large. -/
lemma is_sub (hx : Is x q) (hy : Is y r) (small : |q - r| < 2 ^ 1022) :
    Is (x - y) (rounded (q - r)) := by
  obtain ⟨settled, value⟩ := value?_sub hx.settled hy.settled hx hy
  exact packed_of_lt settled value small

/-- The product of two doubles is their rounded product, if it is not too large. -/
lemma is_mul (hx : Is x q) (hy : Is y r) (small : |q * r| < 2 ^ 1022) :
    Is (x * y) (rounded (q * r)) := by
  obtain ⟨settled, value⟩ := value?_mul hx.settled hy.settled hx hy
  exact packed_of_lt settled value small

/-- The quotient of two doubles is their rounded quotient, if it is neither too large nor too small.
-/
lemma is_div (hx : Is x q) (hy : Is y r) (divisor : r ≠ 0)
    (large : q = 0 ∨ 2 ^ (-1074 : ℤ) ≤ |q / r|) (small : |q / r| < 2 ^ 1022) :
    Is (x / y) (rounded (q / r)) := by
  obtain ⟨settled, value⟩ := value?_div hx.settled hy.settled hx hy divisor large
  exact packed_of_lt settled value small

/-- Mantissas with exponents in canonical form are compared by the exponents first. -/
lemma lex_iff {m m' : ℕ} {e e' : ℤ} (c : Canonical m e) (c' : Canonical m' e') :
    e < e' ∨ e = e' ∧ m < m' ↔ (m * 2 ^ e : ℚ) < m' * 2 ^ e' := by
  have ordered {m m' : ℕ} {e e' : ℤ} (c : Canonical m e) (c' : Canonical m' e') (less : e < e') :
      (m * 2 ^ e : ℚ) < m' * 2 ^ e' := by
    have least := c.exponent_ge
    have below : (m : ℚ) < 2 * hiddenBit := by exact_mod_cast c.mantissa_lt
    have above : (hiddenBit : ℚ) ≤ m' := by exact_mod_cast c'.hidden (by omega)
    calc (m * 2 ^ e : ℚ) < 2 * hiddenBit * 2 ^ e := by gcongr
      _ = hiddenBit * 2 ^ (e + 1) := by
        rw [two_zpow_add]
        ring
      _ ≤ m' * 2 ^ e' := by
        gcongr
        · norm_num
        · omega
  constructor
  · rintro (less | ⟨rfl, less⟩)
    · exact ordered c c' less
    · gcongr
  · intro less
    rcases lt_trichotomy e e' with lower | rfl | higher
    · exact .inl lower
    · rw [mul_lt_mul_iff_left₀ (two_zpow_pos e)] at less
      exact .inr ⟨rfl, by exact_mod_cast less⟩
    · exact absurd (ordered c' c higher) (not_lt.mpr less.le)

/-- Doubles are compared as their values are. -/
lemma lt_settled {u v : UnpackedFloat} (hu : Settled u) (hv : Settled v) (hq : value? u = some q)
    (hr : value? v = some r) : u.lt v ↔ q < r := by
  have positive (m : ℕ) (e : ℤ) (hm : 0 < m) : (0 : ℚ) < m * 2 ^ e :=
    mul_pos (by exact_mod_cast hm) (two_zpow_pos e)
  rw [UnpackedFloat.lt, beq_iff_eq]
  -- signs decide first, then exponents, and at last the bits, in the order of the sign
  cases u with
  | infinity | notANumber => cases hu
  | zero s =>
    cases hq
    cases v with
    | infinity | notANumber => cases hv
    | zero s' =>
      cases hr
      simp [UnpackedFloat.compare]
    | finite s' m' e' hm' =>
      cases hr
      have number := positive m' e' hm'
      cases s' <;> simp [UnpackedFloat.compare, Sign.apply, number, number.le]
  | finite s m e hm =>
    cases hq
    have number := positive m e hm
    cases v with
    | infinity | notANumber => cases hv
    | zero s' =>
      cases hr
      cases s <;> simp [UnpackedFloat.compare, Sign.apply, number, number.le]
    | finite s' m' e' hm' =>
      cases hr
      have number' := positive m' e' hm'
      cases s <;> cases s' <;>
        simp only [UnpackedFloat.compare, Sign.apply, Option.some.injEq, Int.cast_neg,
          Int.cast_natCast, neg_mul, neg_lt_neg_iff]
      · rw [Ordering.swap_eq_lt, Ordering.then_eq_gt, Int.compare_eq_gt, Int.compare_eq_eq,
          Nat.compare_eq_gt, ← lex_iff hv hu, eq_comm]
      · simp only [true_iff]
        linarith
      · simp only [reduceCtorEq, false_iff]
        linarith
      · rw [Ordering.then_eq_lt, Int.compare_eq_lt, Int.compare_eq_eq, Nat.compare_eq_lt,
          lex_iff hu hv]

/-- Doubles are compared as the numbers that they are. -/
lemma lt_iff (hx : Is x q) (hy : Is y r) : x < y ↔ q < r := by
  rw [← lt_settled hx.settled hy.settled hx hy]
  exact decide_eq_true_iff

/-- Numbers of 53 bits are not rounded. -/
lemma rounded_natCast {n : ℕ} (small : n < 2 ^ 53) : rounded n = n := by
  exact_mod_cast rounded_int (n := n) (by rw [Nat.abs_cast]; exact_mod_cast small)

/-- Numbers of 53 bits are far from overflow. -/
lemma abs_natCast_lt {n : ℕ} (small : n < 2 ^ 53) : |(n : ℚ)| < 2 ^ 1022 := by
  rw [Nat.abs_cast]
  exact_mod_cast small.trans (Nat.pow_lt_pow_right (by norm_num) (by norm_num))

/-- Words of 53 bits become doubles without loss. -/
lemma is_toFloat {n : ℕ} (small : n < 2 ^ 53) : Is n.toUInt64.toFloat n := by
  obtain ⟨settled, value⟩ := value?_normalize n 0
  have word : n.toUInt64.toNat = n := by
    simp only [Nat.toUInt64, UInt64.toNat_ofNat']
    omega
  rw [zpow_zero, mul_one, Int.cast_natCast] at value
  have packed := packed_of_lt settled value (abs_natCast_lt small)
  rw [rounded_natCast small] at packed
  rw [Is, UInt64.toFloat]
  simp only [Float.Model.ofUInt64, UnpackedFloat.ofUInt64, UnpackedFloat.ofNat, UnpackedFloat.ofInt,
    word]
  exact packed

/-- The literal one is one. -/
lemma is_one : Is (Float.ofBits 4607182418800017408) 1 := by
  have unpacked : (Float.ofBits 4607182418800017408).toModel.unpack =
      .finite .positive 4503599627370496 (-52) (by norm_num) := rfl
  rw [Is, unpacked, value?]
  norm_num [Sign.apply]

/-- Natural numbers of 53 bits become doubles without loss. -/
lemma is_ofNat {n : ℕ} (small : n < 2 ^ 53) : Is (Float.ofNat n) n := by
  have product : Float.ofNat n = n.toUInt64.toFloat * Float.ofBits 4607182418800017408 := by
    rw [Float.ofNat]
    change Float.ofScientific n false 0 = _
    rw [Float.ofScientific, dif_pos ⟨small, by norm_num⟩]
    rfl
  have rest := is_mul (is_toFloat small) is_one (by rw [mul_one]; exact abs_natCast_lt small)
  rwa [mul_one, rounded_natCast small, ← product] at rest

/-- Integers of 53 bits are doubles. -/
lemma is_ofInt {n : ℤ} (small : |n| < 2 ^ 53) : Is (Float.ofInt n) n := by
  cases n with
  | ofNat n => exact is_ofNat (by simpa using small)
  | negSucc n =>
    have less : n + 1 < 2 ^ 53 := by
      rw [Int.negSucc_eq, abs_neg] at small
      exact_mod_cast (abs_lt.mp small).2
    rw [Int.negSucc_eq, Int.cast_neg]
    exact_mod_cast is_neg (is_ofNat less) (abs_natCast_lt less)

/-- The nearest integer is at most a half away. -/
lemma nearest_near (m : ℕ) (e : ℤ) : |(nearest m e : ℚ) - m * 2 ^ e| ≤ 1 / 2 := by
  rw [nearest]
  split_ifs with nonneg
  · rw [Nat.shiftLeft_eq, Nat.cast_mul, Nat.cast_pow, Nat.cast_ofNat, ← zpow_natCast,
      Int.toNat_of_nonneg nonneg, sub_self, abs_zero]
    norm_num
  · let unit := 1 <<< (-e).toNat
    have positive : 0 < unit := by
      simp only [unit, Nat.shiftLeft_eq]
      positivity
    have scale : (m * 2 ^ e : ℚ) = m / unit := by
      simp only [unit, Nat.shiftLeft_eq, one_mul, Nat.cast_pow, Nat.cast_ofNat]
      rw [← zpow_natCast, Int.toNat_of_nonneg (by omega), zpow_neg, div_inv_eq_mul]
    -- half of a unit is added before dividing, so that cutting off rounds
    have whole : (2 * unit * ((2 * m + unit) / (2 * unit) : ℕ) +
        ((2 * m + unit) % (2 * unit) : ℕ) : ℚ) = 2 * m + unit := by
      exact_mod_cast Nat.div_add_mod (2 * m + unit) (2 * unit)
    have rest : (((2 * m + unit) % (2 * unit) : ℕ) : ℚ) < 2 * unit := by
      exact_mod_cast Nat.mod_lt _ (by omega)
    have divisor : (0 : ℚ) < unit := by exact_mod_cast positive
    have off : (((2 * m + unit) / (2 * unit) : ℕ) : ℚ) - m / unit =
        (unit - ((2 * m + unit) % (2 * unit) : ℕ)) / (2 * unit) := by
      field_simp
      linarith
    rw [scale, off, abs_div, abs_of_pos (by positivity : (0 : ℚ) < 2 * unit),
      div_le_iff₀ (by positivity), abs_le]
    constructor <;> linarith [Nat.cast_nonneg (α := ℚ) ((2 * m + unit) % (2 * unit))]

/-- The value of a double is that of its parts. -/
lemma Is.parts_eq (hx : Is x q) :
    ∃ (s : Sign) (m : ℕ) (e : ℤ), parts x = .finite (s == .negative) m e ∧
      q = (s.apply m : ℤ) * 2 ^ e := by
  rw [Is] at hx
  rw [parts_eq_view]
  cases unpacked : x.toModel.unpack with
  | infinity | notANumber =>
    rw [unpacked] at hx
    cases hx
  | zero s =>
    rw [unpacked] at hx
    cases hx
    refine ⟨s, 0, -1074, rfl, ?_⟩
    cases s <;> simp [Sign.apply]
  | finite s m e positive =>
    rw [unpacked] at hx
    cases hx
    exact ⟨s, m, e, rfl, rfl⟩

/-- A number that is not too large is converted to an integer at most a half away. -/
lemma near_toInt (hx : Is x q) (small : |q| ≤ 2 ^ 62) : |(toInt x : ℚ) - q| ≤ 1 / 2 := by
  obtain ⟨s, m, e, form, rfl⟩ := hx.parts_eq
  let n : ℤ := if s == .negative then -nearest m e else nearest m e
  have near : |(n : ℚ) - (s.apply m : ℤ) * 2 ^ e| ≤ 1 / 2 := by
    have off := nearest_near m e
    cases s
    · change |((-(nearest m e : ℤ) : ℤ) : ℚ) - (-(m : ℤ) : ℤ) * 2 ^ e| ≤ 1 / 2
      push_cast
      rwa [neg_mul, neg_sub_neg, abs_sub_comm]
    · exact off
  have saturated : saturate n = n := by
    have bounds := abs_le.mp small
    have close := abs_le.mp near
    have low : ((minInt : ℤ) : ℚ) ≤ n := by
      norm_num [minInt]
      linarith
    have high : (n : ℚ) ≤ ((maxInt : ℤ) : ℚ) := by
      norm_num [maxInt]
      linarith
    exact saturate_eq (by exact_mod_cast low) (by exact_mod_cast high)
  rw [toInt, form]
  change |((saturate n : ℤ) : ℚ) - _| ≤ _
  rwa [saturated]

end Doubles

section Large

variable {x y : Float} {a q r : ℚ}

/-- The double is at least as large as a number, or infinite. -/
def AtLeast (a : ℚ) (x : Float) : Prop :=
  x.toModel.unpack = .infinity .positive ∨ ∃ q, Is x q ∧ a ≤ q

/-- The double is at most as large as a number, or infinite and negative. -/
def AtMost (a : ℚ) (x : Float) : Prop :=
  x.toModel.unpack = .infinity .negative ∨ ∃ q, Is x q ∧ q ≤ a

/-- What is at least a number is at least every smaller one. -/
lemma AtLeast.mono {b : ℚ} (h : AtLeast b x) (le : a ≤ b) : AtLeast a x :=
  h.imp_right fun ⟨q, hq, large⟩ => ⟨q, hq, le.trans large⟩

/-- What is at most a number is at most every greater one. -/
lemma AtMost.mono {b : ℚ} (h : AtMost b x) (le : b ≤ a) : AtMost a x :=
  h.imp_right fun ⟨q, hq, small⟩ => ⟨q, hq, small.trans le⟩

/-- Rounding takes away no more than half of a number. -/
lemma half_le_rounded (large : 1 ≤ q) : q / 2 ≤ rounded q := by
  have magnitude : |q| = q := abs_of_pos (by linarith)
  have off := rounded_near (q := q) (by
    rw [magnitude]
    exact (two_zpow_le (by norm_num : (-1022 : ℤ) ≤ 0)).trans (by simpa using large))
  rw [magnitude] at off
  have half : (2 : ℚ) ^ (-53 : ℤ) * q ≤ 1 / 2 * q := by
    gcongr
    norm_num
  linarith [(abs_le.mp (off.trans half)).1]

/-- What is large stays so when it is packed. -/
lemma atLeast_packed {u : UnpackedFloat} (settled : Settled u) (value : value? u = some (rounded q))
    (large : 1 ≤ q) : AtLeast (q / 2) ⟨pack u⟩ := by
  have half := half_le_rounded large
  rcases packed settled value with same | ⟨-, infinite⟩
  · exact .inr ⟨_, same, half⟩
  · left
    rwa [if_pos (by linarith)] at infinite

/-- The double of a large negative number is large and negative. -/
lemma atMost_packed {u : UnpackedFloat} (settled : Settled u) (value : value? u = some (rounded q))
    (large : q ≤ -1) : AtMost (q / 2) ⟨pack u⟩ := by
  have half := half_le_rounded (q := -q) (by linarith)
  rw [rounded_neg] at half
  rcases packed settled value with same | ⟨-, infinite⟩
  · exact .inr ⟨_, same, by linarith⟩
  · left
    rwa [if_neg (by linarith)] at infinite

/-- A number without digits after the point is rounded from its bits, shifted to make room. -/
lemma ofScientific_eq {n : ℕ} (nonzero : n ≠ 0) : UnpackedFloat.ofScientific .binary64 n 0 =
    roundWithAccuracy .binary64 .positive (n <<< 53) (-53) .exact := by
  have scaled : UnpackedFloat.ofScientific .binary64 n 0 =
      roundWithAccuracy .binary64 .positive (n <<< 53 * 10 ^ 0) (-53 + 0) .exact := by
    rw [UnpackedFloat.ofScientific, dif_neg nonzero, if_neg (by norm_num), if_neg (by norm_num),
      if_pos le_rfl]
    rfl
  rwa [pow_zero, mul_one, add_zero] at scaled

/-- Natural numbers are rounded once. -/
lemma value?_ofScientific {n : ℕ} (nonzero : n ≠ 0) :
    Settled (UnpackedFloat.ofScientific .binary64 n 0) ∧
      value? (UnpackedFloat.ofScientific .binary64 n 0) = some (rounded n) := by
  have same := cast_shiftLeft n 53 0
  rw [zero_sub, Nat.cast_ofNat, zpow_zero, mul_one] at same
  have rest := value?_roundWithAccuracy .positive (.exact (n <<< 53)) (e := -53)
    (by rw [Nat.shiftLeft_eq]; positivity) (by rw [log2_shiftLeft nonzero]; omega)
  rw [same, show ((Sign.apply .positive 1 : ℤ) : ℚ) = 1 from rfl, one_mul] at rest
  rw [ofScientific_eq nonzero]
  exact rest

/-- An integer of more than 53 bits becomes a double as a decimal does. -/
lemma ofInt_eq {n : ℕ} (huge : 2 ^ 53 ≤ n) :
    Float.ofInt n = ⟨pack (UnpackedFloat.ofScientific .binary64 n 0)⟩ := by
  change Float.ofScientific n false 0 = _
  rw [Float.ofScientific, dif_neg (by omega)]
  rfl

/-- Integers that may be rounded stay large. -/
lemma atLeast_ofInt {n : ℤ} (large : 2 ^ 52 ≤ n) : AtLeast (2 ^ 51) (Float.ofInt n) := by
  obtain ⟨n, rfl⟩ := Int.eq_ofNat_of_zero_le (by omega : 0 ≤ n)
  have bound : (2 : ℚ) ^ 52 ≤ n := by exact_mod_cast large
  rcases lt_or_ge n (2 ^ 53) with small | huge
  · exact .inr ⟨n, is_ofNat small, by linarith⟩
  · obtain ⟨settled, value⟩ := value?_ofScientific (n := n) (by omega)
    rw [ofInt_eq huge]
    exact (atLeast_packed settled value (by linarith only [bound])).mono (by linarith only [bound])

/-- A large number stays large if a small one is subtracted. -/
lemma AtLeast.sub (hx : AtLeast (2 ^ 51) x) (hy : Is y r) (small : |r| ≤ 2 ^ 40) :
    AtLeast (2 ^ 49) (x - y) := by
  rcases hx with infinite | ⟨q, hx, large⟩
  · left
    change (pack (UnpackedFloat.sub .binary64 x.toModel.unpack y.toModel.unpack)).unpack = _
    have settled := hy.settled
    cases unpacked : y.toModel.unpack with
    | infinity | notANumber =>
      rw [unpacked] at settled
      cases settled
    | zero | finite =>
      rw [infinite]
      exact unpack_pack_infinity .positive
  · obtain ⟨settled, value⟩ := value?_sub hx.settled hy.settled hx hy
    have difference : (2 : ℚ) ^ 50 ≤ q - r := by linarith [(abs_le.mp small).2]
    exact (atLeast_packed settled value (by linarith)).mono (by linarith)

/-- An infinite number divided by a finite one is infinite. -/
lemma unpack_div_infinite (infinite : x.toModel.unpack = .infinity .positive) (hy : Is y r)
    (nonzero : r ≠ 0) :
    (x / y).toModel.unpack = .infinity (if 0 < r then .positive else .negative) := by
  change (pack (UnpackedFloat.div .binary64 x.toModel.unpack y.toModel.unpack)).unpack = _
  rw [Is] at hy
  rw [infinite]
  cases unpacked : y.toModel.unpack with
  | infinity | notANumber =>
    rw [unpacked] at hy
    cases hy
  | zero s =>
    rw [unpacked] at hy
    cases hy
    exact absurd rfl nonzero
  | finite s m e hm =>
    rw [unpacked] at hy
    cases hy
    have number : (0 : ℚ) < m * 2 ^ e := mul_pos (by exact_mod_cast hm) (two_zpow_pos e)
    cases s
    · rw [if_neg (by simpa [Sign.apply] using number.le)]
      exact unpack_pack_infinity .negative
    · rw [if_pos (by simpa [Sign.apply] using number)]
      exact unpack_pack_infinity .positive

/-- A large number divided by a small positive one is at least one. -/
lemma AtLeast.div (hx : AtLeast (2 ^ 49) x) (hy : Is y r) (positive : 0 < r) (small : r ≤ 2 ^ 40) :
    AtLeast 1 (x / y) := by
  rcases hx with infinite | ⟨q, hx, large⟩
  · left
    rw [unpack_div_infinite infinite hy positive.ne', if_pos positive]
  · have quotient : 2 ^ 9 ≤ q / r := by
      rw [le_div_iff₀ positive]
      linarith
    obtain ⟨settled, value⟩ := value?_div hx.settled hy.settled hx hy positive.ne' (.inr (by
      rw [abs_of_pos (by linarith)]
      exact (two_zpow_le (by norm_num : (-1074 : ℤ) ≤ 0)).trans (by norm_num; linarith)))
    exact (atLeast_packed settled value (by linarith)).mono (by linarith)

/-- A large number divided by a small negative one is at most minus one. -/
lemma AtLeast.div_neg (hx : AtLeast (2 ^ 49) x) (hy : Is y r) (negative : r < 0)
    (small : -2 ^ 40 ≤ r) : AtMost (-1) (x / y) := by
  rcases hx with infinite | ⟨q, hx, large⟩
  · left
    rw [unpack_div_infinite infinite hy negative.ne, if_neg negative.not_gt]
  · have quotient : q / r ≤ -2 ^ 9 := by
      rw [div_le_iff_of_neg negative]
      linarith
    obtain ⟨settled, value⟩ := value?_div hx.settled hy.settled hx hy negative.ne (.inr (by
      rw [abs_of_neg (by linarith)]
      exact (two_zpow_le (by norm_num : (-1074 : ℤ) ≤ 0)).trans (by norm_num; linarith)))
    exact (atMost_packed settled value (by linarith)).mono (by linarith)

/-- A number that is at least a bound is not less than a value below the bound. -/
lemma AtLeast.not_lt (hx : AtLeast a x) (hy : Is y r) (le : r ≤ a) : ¬ x < y := by
  rcases hx with infinite | ⟨q, hx, large⟩
  · have order : ¬ x.toModel.unpack.lt y.toModel.unpack := by
      have settled := hy.settled
      rw [infinite]
      cases unpacked : y.toModel.unpack with
      | infinity | notANumber =>
        rw [unpacked] at settled
        cases settled
      | zero | finite => exact Bool.false_ne_true
    exact fun less => order (decide_eq_true_iff.mp less)
  · rw [lt_iff hx hy]
    linarith

/-- A number that is at most a bound is not greater than a value above the bound. -/
lemma AtMost.not_lt (hx : AtMost a x) (hy : Is y r) (le : a ≤ r) : ¬ y < x := by
  rcases hx with infinite | ⟨q, hx, large⟩
  · have order : ¬ y.toModel.unpack.lt x.toModel.unpack := by
      have settled := hy.settled
      rw [infinite]
      cases unpacked : y.toModel.unpack with
      | infinity | notANumber =>
        rw [unpacked] at settled
        cases settled
      | zero s => exact Bool.false_ne_true
      | finite s m e hm => cases s <;> exact Bool.false_ne_true
    exact fun less => order (decide_eq_true_iff.mp less)
  · rw [lt_iff hy hx]
    linarith

end Large

end Easel.Number
