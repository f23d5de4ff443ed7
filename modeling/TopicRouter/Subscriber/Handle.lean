import TopicRouter.Subscriber.FloatBits
import TopicRouter.Subscriber.Identity
import TopicRouter.Subscriber.Token

/-!
# Subscriber handles

The subscribers that the library brings along: numbers, texts, tokens and
callbacks.  Two of them are identical when they are of one kind and equal as
values of it.  Only floating point numbers are compared by another rule than
plain equality, so a NaN is the only handle that is not identical to itself.

## Main results

* `Handle.identical_of_ne_float` — off the floating point numbers, identity
  is equality.
-/

namespace TopicRouter

/-- The widths of integers; a machine word is 64 bits wide and still a width
of its own. -/
inductive IntegerWidth where
  | bits8
  | bits16
  | bits32
  | bits64
  | bits128
  | word
deriving DecidableEq

/-- How many bits a width has. -/
def IntegerWidth.size : IntegerWidth → Nat
  | bits8 => 8
  | bits16 => 16
  | bits32 => 32
  | bits64 => 64
  | bits128 => 128
  | word => 64

/-- The integer types that a subscriber can be a value of. -/
structure IntegerFormat where
  signed : Bool
  width : IntegerWidth
deriving DecidableEq

namespace IntegerFormat

/-- The least integer of a format. -/
def lowest (format : IntegerFormat) : Int :=
  if format.signed then -Int.pow 2 (format.width.size - 1) else 0

/-- The greatest integer of a format. -/
def highest (format : IntegerFormat) : Int :=
  if format.signed then Int.pow 2 (format.width.size - 1) - 1
  else Int.pow 2 format.width.size - 1

/-- An integer in the range of its format. -/
abbrev Value (format : IntegerFormat) :=
  { n : Int // format.lowest ≤ n ∧ n ≤ format.highest }

/-- An integer as a value of the format, when it is in range. -/
def value? (format : IntegerFormat) (n : Int) : Option format.Value :=
  if h : format.lowest ≤ n ∧ n ≤ format.highest then some ⟨n, h⟩ else none

end IntegerFormat

/-- Who owns the text of a text handle.  Texts under different ownership are
different kinds of handle. -/
inductive Ownership where
  | owned
  | permanent
  | shared
deriving DecidableEq

/-- The subscribers that come with the library. -/
inductive Handle where
  | integer (format : IntegerFormat) (value : format.Value)
  | float (format : FloatFormat) (bits : format.Bits)
  | text (ownership : Ownership) (value : String)
  | token (token : Token)
  | callback (callback : Callback)
deriving DecidableEq

namespace Handle

/-- Same kind and same value. -/
def identical : Handle → Handle → Bool
  | float format a, float format' b =>
      if h : format = format' then FloatFormat.equal a (h ▸ b) else false
  | a, b => a = b

instance : Identity Handle := ⟨identical⟩

/-- The callback behind a handle, if it has one. -/
def callback? : Handle → Option Callback
  | .callback subscriber => some subscriber
  | _ => none

theorem identical_float (format : FloatFormat) (a b : format.Bits) :
    identical (float format a) (float format b) = FloatFormat.equal a b := by
  simp [identical]

theorem identical_of_ne_float {a b : Handle}
    (h : ∀ format bits, a ≠ float format bits) :
    identical a b = decide (a = b) := by
  cases a <;> simp_all [identical]

end Handle

end TopicRouter
