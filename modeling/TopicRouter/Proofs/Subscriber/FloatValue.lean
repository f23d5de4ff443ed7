import Mathlib.Algebra.Order.Field.Rat
import Mathlib.Algebra.Order.Group.Abs
import Mathlib.Order.Monotone.Basic
import Mathlib.Tactic.FieldSimp
import Mathlib.Tactic.Ring
import TopicRouter.Subscriber.FloatBits

/-!
# What floating point bits stand for

The bits of a floating point number are a sign, an exponent and a fraction.  The
largest exponent is that of the infinities and of what is no number.  Any other
exponent but the least stands for a power of two that is multiplied by one and
the fraction; the least is that of the numbers around zero, which are multiples of
the least positive number.

Exponent and fraction grow together with the number that they stand for, so that
two of them stand for the same number only if they are the same.  With the sign
there is one number more that is written in two ways, which is zero.  Hence
comparing bits is comparing values.

## Main results

* `FloatFormat.strictMono_units` — larger magnitudes stand for larger numbers.
* `FloatFormat.equal_iff_value?` — stored numbers are equal exactly if they stand
  for the same value.
-/

namespace TopicRouter

/-- What a stored number stands for. -/
inductive FloatValue where
  | finite (number : ℚ)
  | infinite (isNegative : Bool)
deriving DecidableEq

namespace FloatFormat

/-- What is subtracted from the exponent as it is stored. -/
def bias (format : FloatFormat) : Nat := 2 ^ (format.exponentWidth - 1) - 1

/-- The exponent as it is stored. -/
def exponent (format : FloatFormat) (magnitude : Nat) : Nat :=
  magnitude / 2 ^ format.fractionWidth

/-- The fraction as it is stored. -/
def fraction (format : FloatFormat) (magnitude : Nat) : Nat :=
  magnitude % 2 ^ format.fractionWidth

/-- The absolute value of a number of the given magnitude. -/
def absolute (format : FloatFormat) (magnitude : Nat) : ℚ :=
  if format.exponent magnitude = 0 then
    format.fraction magnitude / 2 ^ format.fractionWidth * 2 ^ (1 - format.bias : ℤ)
  else
    (1 + format.fraction magnitude / 2 ^ format.fractionWidth) *
      2 ^ (format.exponent magnitude - format.bias : ℤ)

/-- Is the bit for the sign set? -/
def isNegative {format : FloatFormat} (bits : Bits format) : Bool :=
  2 ^ (format.exponentWidth + format.fractionWidth) ≤ bits.toNat

/-- The number that finite bits stand for. -/
def number {format : FloatFormat} (bits : Bits format) : ℚ :=
  if isNegative bits then -format.absolute (magnitude bits)
  else format.absolute (magnitude bits)

/-- The value of stored bits, unless they stand for no number. -/
def value? {format : FloatFormat} (bits : Bits format) : Option FloatValue :=
  if isNaN bits then none
  else if magnitude bits = format.infinity then some (.infinite (isNegative bits))
  else some (.finite (number bits))

/-! ## Magnitudes -/

/-- The absolute value as a multiple of the least positive number. -/
def units (format : FloatFormat) (magnitude : Nat) : Nat :=
  if format.exponent magnitude = 0 then format.fraction magnitude
  else (2 ^ format.fractionWidth + format.fraction magnitude) *
    2 ^ (format.exponent magnitude - 1)

theorem absolute_eq_units (format : FloatFormat) (magnitude : Nat) :
    format.absolute magnitude =
      format.units magnitude * 2 ^ (1 - format.bias - format.fractionWidth : ℤ) := by
  have htwo : (2 : ℚ) ≠ 0 := by norm_num
  have hleast : (2 : ℚ) ^ (1 - format.bias - format.fractionWidth : ℤ) =
      2 ^ (1 - format.bias : ℤ) / 2 ^ format.fractionWidth := by
    rw [zpow_sub₀ htwo, zpow_natCast]
  unfold absolute units
  by_cases hexponent : format.exponent magnitude = 0
  · rw [if_pos hexponent, if_pos hexponent, hleast]
    ring
  · have hpower : (2 : ℚ) ^ (format.exponent magnitude - format.bias : ℤ) =
        2 ^ (format.exponent magnitude - 1) * 2 ^ (1 - format.bias : ℤ) := by
      rw [← zpow_natCast, ← zpow_add₀ htwo]
      congr 1
      omega
    rw [if_neg hexponent, if_neg hexponent, hleast, hpower]
    push_cast
    field_simp

/-- The next magnitude has the next fraction, or else the next exponent. -/
theorem fields_succ (format : FloatFormat) (magnitude : Nat) :
    (format.exponent (magnitude + 1) = format.exponent magnitude ∧
        format.fraction (magnitude + 1) = format.fraction magnitude + 1) ∨
      (format.exponent (magnitude + 1) = format.exponent magnitude + 1 ∧
        format.fraction magnitude + 1 = 2 ^ format.fractionWidth ∧
        format.fraction (magnitude + 1) = 0) := by
  have hpos : 0 < 2 ^ format.fractionWidth := Nat.two_pow_pos _
  have hfields := Nat.div_add_mod magnitude (2 ^ format.fractionWidth)
  have hfraction := Nat.mod_lt magnitude hpos
  unfold exponent fraction
  by_cases hcarry : magnitude % 2 ^ format.fractionWidth + 1 = 2 ^ format.fractionWidth
  · have hnext : magnitude + 1 =
        2 ^ format.fractionWidth * (magnitude / 2 ^ format.fractionWidth + 1) := by
      rw [Nat.mul_succ]
      omega
    refine .inr ⟨?_, hcarry, ?_⟩
    · conv_lhs => rw [hnext, Nat.mul_div_cancel_left _ hpos]
    · rw [hnext, Nat.mul_mod_right]
  · have hless : magnitude % 2 ^ format.fractionWidth + 1 < 2 ^ format.fractionWidth := by
      omega
    have hnext : magnitude + 1 = magnitude % 2 ^ format.fractionWidth + 1 +
        2 ^ format.fractionWidth * (magnitude / 2 ^ format.fractionWidth) := by
      omega
    refine .inl ⟨?_, ?_⟩
    · conv_lhs => rw [hnext, Nat.add_mul_div_left _ _ hpos, Nat.div_eq_of_lt hless, Nat.zero_add]
    · conv_lhs => rw [hnext, Nat.add_mul_mod_self_left, Nat.mod_eq_of_lt hless]

/-- **Larger magnitudes stand for larger numbers.**  The step from one exponent to
the next is like any other. -/
theorem strictMono_units (format : FloatFormat) : StrictMono format.units := by
  refine strictMono_nat_of_lt_succ fun magnitude => ?_
  unfold units
  rcases format.fields_succ magnitude with ⟨hexponent, hfraction⟩ | ⟨hexponent, hcarry, hfraction⟩
  · rw [hexponent, hfraction]
    by_cases hzero : format.exponent magnitude = 0
    · rw [if_pos hzero, if_pos hzero]
      exact Nat.lt_succ_self _
    · rw [if_neg hzero, if_neg hzero]
      exact Nat.mul_lt_mul_of_pos_right (by omega) (Nat.two_pow_pos _)
  · rw [hexponent, hfraction, if_neg (Nat.succ_ne_zero _), Nat.add_sub_cancel, Nat.add_zero,
      ← hcarry]
    by_cases hzero : format.exponent magnitude = 0
    · rw [if_pos hzero, hzero, Nat.pow_zero, Nat.mul_one]
      exact Nat.lt_succ_self _
    · -- The power doubles, and the fraction starts over.
      have hdouble : 2 ^ format.exponent magnitude = 2 * 2 ^ (format.exponent magnitude - 1) := by
        rw [← Nat.pow_succ', Nat.succ_eq_add_one, Nat.sub_add_cancel (Nat.pos_of_ne_zero hzero)]
      rw [if_neg hzero, hdouble, ← Nat.mul_assoc]
      exact Nat.mul_lt_mul_of_pos_right (by omega) (Nat.two_pow_pos _)

theorem absolute_injective (format : FloatFormat) : Function.Injective format.absolute := by
  intro magnitude magnitude' h
  rw [absolute_eq_units, absolute_eq_units] at h
  have hleast : (2 : ℚ) ^ (1 - format.bias - format.fractionWidth : ℤ) ≠ 0 :=
    zpow_ne_zero _ (by norm_num)
  exact format.strictMono_units.injective (Nat.cast_injective (mul_right_cancel₀ hleast h))

theorem absolute_zero (format : FloatFormat) : format.absolute 0 = 0 := by
  simp [absolute, exponent, fraction]

theorem absolute_nonneg (format : FloatFormat) (magnitude : Nat) :
    0 ≤ format.absolute magnitude := by
  rw [absolute_eq_units]
  exact mul_nonneg (Nat.cast_nonneg _) (zpow_nonneg (by norm_num) _)

/-! ## Stored numbers -/

variable {format : FloatFormat} {a b : Bits format}

/-- Bits are a sign and a magnitude. -/
theorem toNat_eq_sign_add_magnitude (bits : Bits format) :
    bits.toNat = (if isNegative bits then 2 ^ (format.exponentWidth + format.fractionWidth)
      else 0) + magnitude bits := by
  have hlt : bits.toNat < 2 ^ (format.exponentWidth + format.fractionWidth) * 2 := bits.isLt
  unfold isNegative magnitude
  rw [Nat.pow_eq]
  by_cases hsign : 2 ^ (format.exponentWidth + format.fractionWidth) ≤ bits.toNat
  · rw [decide_eq_true hsign, if_pos rfl, Nat.mod_eq_sub_mod hsign, Nat.mod_eq_of_lt (by omega)]
    omega
  · rw [decide_eq_false hsign, if_neg Bool.false_ne_true, Nat.mod_eq_of_lt (by omega)]
    omega

theorem eq_of_sign_of_magnitude (hsign : isNegative a = isNegative b)
    (hmagnitude : magnitude a = magnitude b) : a = b := by
  apply BitVec.eq_of_toNat_eq
  rw [toNat_eq_sign_add_magnitude a, toNat_eq_sign_add_magnitude b, hsign, hmagnitude]

theorem infinity_pos (format : FloatFormat) : 0 < format.infinity := by
  cases format <;> decide

theorem abs_number (bits : Bits format) : |number bits| = format.absolute (magnitude bits) := by
  have hnonneg := format.absolute_nonneg (magnitude bits)
  unfold number
  split
  · rw [abs_neg, abs_of_nonneg hnonneg]
  · exact abs_of_nonneg hnonneg

theorem magnitude_eq_of_number_eq (h : number a = number b) : magnitude a = magnitude b := by
  apply format.absolute_injective
  rw [← abs_number, ← abs_number, h]

theorem number_eq_zero_iff : number a = 0 ↔ magnitude a = 0 := by
  rw [← abs_eq_zero, abs_number, ← format.absolute_zero]
  exact format.absolute_injective.eq_iff

/-- Finite numbers are the same if they are written alike or both are zero. -/
theorem number_eq_iff : number a = number b ↔ a = b ∨ (magnitude a = 0 ∧ magnitude b = 0) := by
  constructor
  · intro h
    have hmagnitude := magnitude_eq_of_number_eq h
    by_cases hsign : isNegative a = isNegative b
    · exact .inl (eq_of_sign_of_magnitude hsign hmagnitude)
    · -- A number that is its own opposite is zero.
      have hopposite : number b = -number a := by
        unfold number
        rw [hmagnitude, Bool.eq_not_of_ne hsign]
        cases isNegative b with
        | true => simp
        | false => simp
      have hzero : number a = 0 := self_eq_neg.1 (h.trans hopposite)
      exact .inr ⟨number_eq_zero_iff.1 hzero, number_eq_zero_iff.1 (h.symm.trans hzero)⟩
  · rintro (rfl | ⟨ha, hb⟩)
    · rfl
    · rw [number_eq_zero_iff.2 ha, number_eq_zero_iff.2 hb]

theorem equal_iff : equal a b = true ↔
    isNaN a = false ∧ isNaN b = false ∧ (a = b ∨ (magnitude a = 0 ∧ magnitude b = 0)) := by
  simp [equal, and_assoc]

theorem value?_of_isNaN (h : isNaN a = true) : value? a = none := if_pos h

theorem value?_of_eq_infinity (h : magnitude a = format.infinity) :
    value? a = some (.infinite (isNegative a)) := by
  have hnumber : isNaN a = false := by simp [isNaN, h]
  rw [value?, hnumber, if_neg Bool.false_ne_true, if_pos h]

theorem value?_of_finite (hnumber : isNaN a = false) (h : magnitude a ≠ format.infinity) :
    value? a = some (.finite (number a)) := by
  rw [value?, hnumber, if_neg Bool.false_ne_true, if_neg h]

/-- Bits that are compared as equal stand for the same value. -/
theorem value?_eq_of_equal (h : equal a b = true) :
    ∃ value, value? a = some value ∧ value? b = some value := by
  obtain ⟨ha, hb, hsame⟩ := equal_iff.1 h
  by_cases hinfinite : magnitude a = format.infinity
  · have hab : a = b := by
      refine hsame.resolve_right fun hzero => ?_
      exact absurd (hinfinite.symm.trans hzero.1) (Nat.ne_of_gt format.infinity_pos)
    rw [← hab]
    exact ⟨_, value?_of_eq_infinity hinfinite, value?_of_eq_infinity hinfinite⟩
  · have hmagnitude := magnitude_eq_of_number_eq (number_eq_iff.2 hsame)
    rw [hmagnitude] at hinfinite
    refine ⟨.finite (number b), ?_, value?_of_finite hb hinfinite⟩
    rw [value?_of_finite ha (hmagnitude ▸ hinfinite), number_eq_iff.2 hsame]

/-- Bits that stand for the same value are compared as equal. -/
theorem equal_of_value?_eq {value : FloatValue} (ha : value? a = some value)
    (hb : value? b = some value) : equal a b = true := by
  cases hnan : isNaN a with
  | true =>
      rw [value?_of_isNaN hnan] at ha
      cases ha
  | false =>
      cases hnan' : isNaN b with
      | true =>
          rw [value?_of_isNaN hnan'] at hb
          cases hb
      | false =>
          refine equal_iff.2 ⟨hnan, hnan', ?_⟩
          rw [← hb] at ha
          by_cases hinfinite : magnitude a = format.infinity
          · by_cases hinfinite' : magnitude b = format.infinity
            · rw [value?_of_eq_infinity hinfinite, value?_of_eq_infinity hinfinite'] at ha
              have hsign := FloatValue.infinite.inj (Option.some.inj ha)
              exact .inl (eq_of_sign_of_magnitude hsign (hinfinite.trans hinfinite'.symm))
            · rw [value?_of_eq_infinity hinfinite, value?_of_finite hnan' hinfinite'] at ha
              cases ha
          · by_cases hinfinite' : magnitude b = format.infinity
            · rw [value?_of_finite hnan hinfinite, value?_of_eq_infinity hinfinite'] at ha
              cases ha
            · rw [value?_of_finite hnan hinfinite, value?_of_finite hnan' hinfinite'] at ha
              exact number_eq_iff.1 (FloatValue.finite.inj (Option.some.inj ha))

/-- **Stored numbers are compared by value.** -/
theorem equal_iff_value? :
    equal a b = true ↔ ∃ value, value? a = some value ∧ value? b = some value :=
  ⟨value?_eq_of_equal, fun ⟨_, ha, hb⟩ => equal_of_value?_eq ha hb⟩

example : value? (0xbfc00000 : Bits .binary32) = some (.finite (-3 / 2)) := by
  decide +kernel

-- Negative zero stands for zero, and so is equal to it.
example : value? (0x8000000000000000 : Bits .binary64) = some (.finite 0) := by
  decide +kernel

end FloatFormat

end TopicRouter
