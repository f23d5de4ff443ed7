/-!
# Floating point equality on bits

A floating point number is kept as its bits, so that the payload of a NaN is
kept too.  Two of them are compared as numbers: a NaN equals nothing, the two
zeros equal each other, and all else is equal when its bits are.

## Main results

* `FloatFormat.equal_self` — a number equals itself unless it is a NaN.
* `FloatFormat.equal_comm`, `FloatFormat.equal_trans`.
-/

namespace TopicRouter

/-- The binary interchange formats in use. -/
inductive FloatFormat where
  | binary32
  | binary64
deriving DecidableEq

namespace FloatFormat

/-- How many bits hold the exponent. -/
def exponentWidth : FloatFormat → Nat
  | binary32 => 8
  | binary64 => 11

/-- How many bits hold the fraction. -/
def fractionWidth : FloatFormat → Nat
  | binary32 => 23
  | binary64 => 52

/-- The bits of exponent and fraction, and one bit for the sign. -/
def width (format : FloatFormat) : Nat :=
  format.exponentWidth + format.fractionWidth + 1

/-- A number as it is stored. -/
abbrev Bits (format : FloatFormat) := BitVec format.width

variable {format : FloatFormat}

/-- Exponent and fraction as one number, which grows with the absolute value
that they stand for. -/
def magnitude (bits : Bits format) : Nat :=
  bits.toNat % Nat.pow 2 (format.exponentWidth + format.fractionWidth)

/-- The magnitude of an infinity: the largest exponent and no fraction. -/
def infinity (format : FloatFormat) : Nat :=
  (Nat.pow 2 format.exponentWidth - 1) * Nat.pow 2 format.fractionWidth

/-- Is the stored value no number at all? -/
def isNaN (bits : Bits format) : Bool := format.infinity < magnitude bits

/-- Do two stored values stand for the same number? -/
def equal (a b : Bits format) : Bool :=
  !isNaN a && !isNaN b && (a == b || (magnitude a == 0 && magnitude b == 0))

theorem equal_self (a : Bits format) : equal a a = !isNaN a := by
  simp [equal]

theorem equal_comm (a b : Bits format) : equal a b = equal b a := by
  grind [equal]

theorem equal_trans {a b c : Bits format} (hab : equal a b = true)
    (hbc : equal b c = true) : equal a c = true := by
  simp only [equal] at *
  grind

end FloatFormat

end TopicRouter
