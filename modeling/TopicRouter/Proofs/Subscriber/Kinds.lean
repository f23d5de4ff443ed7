import TopicRouter.Proofs.Subscriber.FloatValue
import TopicRouter.Subscriber.Handle

/-!
# Handles of one kind

Handles are of many kinds, and a handle passes for another only if both are of
one kind.  Within a kind they are compared by value.  For all kinds but floating
point numbers this means that they are the same; two floating point numbers may
be written differently and be identical, and one that is no number is not even
identical to itself.

So identity is symmetric and transitive over all handles, and it is reflexive on
all of them but those.

## Main results

* `Handle.identical_comm`, `Handle.identical_trans` — identity is a partial
  equivalence.
* `Handle.identical_of_kind_ne` — it keeps kinds apart.
* `Handle.identical_self` — where it is reflexive.
-/

namespace TopicRouter

/-- The kinds of handles. -/
inductive HandleKind where
  | integer (format : IntegerFormat)
  | float (format : FloatFormat)
  | text (ownership : Ownership)
  | token
  | callback
deriving DecidableEq

namespace Handle

/-- The kind of a handle. -/
def kind : Handle → HandleKind
  | integer format _ => .integer format
  | float format _ => .float format
  | text ownership _ => .text ownership
  | token _ => .token
  | callback _ => .callback

/-- Is the handle a floating point value that is no number? -/
def isNaN : Handle → Bool
  | float _ bits => FloatFormat.isNaN bits
  | _ => false

variable {a b c : Handle}

/-- Two handles are floating point numbers of one format, or they are identical
exactly if they are the same. -/
theorem identical_cases (a b : Handle) :
    (∃ format x y, a = float format x ∧ b = float format y) ∨
      identical a b = decide (a = b) := by
  cases a with
  | float format x =>
      cases b with
      | float format' y =>
          by_cases hformat : format = format'
          · subst hformat
            exact .inl ⟨format, x, y, rfl, rfl⟩
          · refine .inr ?_
            have hne : float format x ≠ float format' y := fun h => hformat (by injection h)
            rw [decide_eq_false hne, identical, dif_neg hformat]
      | _ => exact .inr rfl
  | _ => exact .inr (identical_of_ne_float fun _ _ h => by cases h)

/-- Identity is symmetric. -/
theorem identical_comm (a b : Handle) : identical a b = identical b a := by
  rcases identical_cases a b with ⟨format, x, y, rfl, rfl⟩ | hsame
  · rw [identical_float, identical_float, FloatFormat.equal_comm]
  · rcases identical_cases b a with ⟨format, x, y, rfl, rfl⟩ | hsame'
    · rw [identical_float, identical_float, FloatFormat.equal_comm]
    · rw [hsame, hsame']
      exact decide_eq_decide.2 eq_comm

/-- Identity is transitive. -/
theorem identical_trans (hab : identical a b = true) (hbc : identical b c = true) :
    identical a c = true := by
  rcases identical_cases a b with ⟨format, x, y, rfl, rfl⟩ | hsame
  · rcases identical_cases (float format y) c with ⟨format', y', z, hy, rfl⟩ | hsame
    · injection hy with hformat
      subst hformat
      rw [identical_float] at hab hbc ⊢
      exact FloatFormat.equal_trans hab hbc
    · rw [hsame, decide_eq_true_iff] at hbc
      rwa [← hbc]
  · rw [hsame, decide_eq_true_iff] at hab
    rwa [hab]

theorem kind_eq_of_identical (h : identical a b = true) : a.kind = b.kind := by
  rcases identical_cases a b with ⟨format, x, y, rfl, rfl⟩ | hsame
  · rfl
  · rw [hsame, decide_eq_true_iff] at h
    rw [h]

/-- Handles of different kinds are not identical. -/
theorem identical_of_kind_ne (h : a.kind ≠ b.kind) : identical a b = false :=
  Bool.eq_false_iff.2 fun hidentical => h (kind_eq_of_identical hidentical)

/-- A handle is identical to itself unless it is no number. -/
theorem identical_self (a : Handle) : identical a a = !a.isNaN := by
  cases a with
  | float format bits => rw [identical_float, FloatFormat.equal_self, isNaN]
  | _ => simp [identical, isNaN]

theorem identical_iff_eq (h : ∀ format bits, a ≠ float format bits) :
    identical a b = true ↔ a = b := by
  rw [identical_of_ne_float h, decide_eq_true_iff]

/-- Floating point numbers are identical if they stand for the same value. -/
theorem identical_float_iff {format : FloatFormat} {x y : format.Bits} :
    identical (float format x) (float format y) = true ↔
      ∃ value, FloatFormat.value? x = some value ∧ FloatFormat.value? y = some value := by
  rw [identical_float, FloatFormat.equal_iff_value?]

end Handle

end TopicRouter
