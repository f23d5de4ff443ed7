/-!
# Topic levels

A topic is a text cut into levels by `/`.  A level is either literal text or
one of the two wildcards: `+` stands for one level of any text, `#` for all
levels that remain.  An empty level is read as `+`, so that a topic with an
empty level and the filter that writes `+` there meet at the same place.

## Main results

* `Level.ofText_text` — a level is recovered from its text, provided that a
  literal is not the text of a wildcard.
* `Level.text_ofText` — reading a text as a level loses nothing.
-/

namespace TopicRouter

/-- The character between two levels. -/
def separator : Char := '/'

/-- A single topic level. -/
inductive Level where
  /-- Text that matches itself. -/
  | literal (text : String)
  /-- The wildcard for one level. -/
  | single
  /-- The wildcard for all remaining levels. -/
  | multi
deriving DecidableEq

namespace Level

/-- How a level is written in a topic. -/
def text : Level → String
  | literal text => text
  | single => "+"
  | multi => "#"

/-- The level that a text is written for. -/
def ofText (text : String) : Level :=
  if text = "+" then single
  else if text = "#" then multi
  else literal text

/-- Is the level one of the two wildcards? -/
def isWildcard : Level → Bool
  | literal _ => false
  | single => true
  | multi => true

/-- A character that a literal level may hold. -/
def isOrdinary (c : Char) : Bool := c ≠ '/' && c ≠ '+' && c ≠ '#'

/-- Levels that a topic can hold: the wildcards, and literals that have text
and consist of ordinary characters only. -/
def WellFormed : Level → Prop
  | literal text => text ≠ "" ∧ ∀ c ∈ text.toList, isOrdinary c = true
  | single => True
  | multi => True

instance : DecidablePred WellFormed
  | literal _ => inferInstanceAs (Decidable (_ ∧ _))
  | single => inferInstanceAs (Decidable True)
  | multi => inferInstanceAs (Decidable True)

theorem text_ofText (text : String) : (ofText text).text = text := by
  unfold ofText
  split
  · simp_all [Level.text]
  split
  · simp_all [Level.text]
  · rfl

theorem ofText_text {level : Level} (h : level.WellFormed) :
    ofText level.text = level := by
  cases level with
  | single => rfl
  | multi => rfl
  | literal text =>
      have hplus : text ≠ "+" := by
        rintro rfl
        exact absurd (h.2 '+' (by simp)) (by decide)
      have hhash : text ≠ "#" := by
        rintro rfl
        exact absurd (h.2 '#' (by simp)) (by decide)
      simp [ofText, Level.text, hplus, hhash]

end Level

end TopicRouter
