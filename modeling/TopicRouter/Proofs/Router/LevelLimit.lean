import TopicRouter.Proofs.Topic.Normal
import TopicRouter.Router.Settings

/-!
# The limit of levels

Whether a topic has too many levels is decided before it is read, by its
separators alone.  Separators at the start of a topic or in a row stand next to
empty pieces, and an empty piece is read as a level too, so these are counted
rightly.  Only a separator at the end is counted although it opens no level.

So a topic that ends in a separator is taken to have one level more than are
read off it.  At the limit it is refused, and the topic without that separator,
which leads to the same node, is not.

## Main results

* `levelCount_eq` — the levels that are counted and those that are read.
* `Settings.checkTopic_eq_tooManyLevels_iff` — when a topic is refused for its
  levels, and with which numbers.
* `Settings.level_limit_by_separators` — where the limit is one of the levels
  that are read, and where it is not.
-/

namespace TopicRouter

/-- The topic ends in a separator. -/
def EndsInSeparator (topic : String) : Prop := topic.toList.getLast? = some separator

instance : DecidablePred EndsInSeparator := fun topic =>
  inferInstanceAs (Decidable (topic.toList.getLast? = some separator))

/-! ## Counting separators -/

theorem count_separator_eq (chars : List Char) :
    chars.count separator = (dropTrailing chars).count separator +
      if chars.getLast? = some separator then 1 else 0 := by
  by_cases hlast : chars.getLast? = some separator
  · have hsplit := List.dropLast_append_getLast? separator hlast
    rw [dropTrailing, if_pos hlast, if_pos hlast, ← List.count_singleton_self (a := separator),
      ← List.count_append, hsplit]
  · rw [dropTrailing, if_neg hlast, if_neg hlast, Nat.add_zero]

/-- **The levels that are counted** are those that are read, and one more for a
separator at the end. -/
theorem levelCount_eq {topic : String} {levels : List Level} (hne : topic ≠ "")
    (hscan : scan topic = ⟨levels, none⟩) :
    levelCount topic = levels.length + if EndsInSeparator topic then 1 else 0 := by
  rw [levelCount, count_separator_eq, levels_eq_map_ofPiece hne hscan, List.length_map,
    length_pieces, Nat.add_right_comm]
  rfl

/-! ## The check -/

namespace Settings

/-- The topic is refused for having too many levels. -/
def RefusesLevels (settings : Settings) (topic : String) : Prop :=
  ∃ count limit, settings.checkTopic topic = .error (.tooManyLevels count limit)

variable {settings : Settings} {topic : String} {levels : List Level}

/-- A topic that passes the other checks is refused for its levels exactly if
more of them are counted than allowed. -/
theorem checkTopic_eq_tooManyLevels_iff (hne : topic ≠ "")
    (hlength : topic.utf8ByteSize ≤ settings.maxTopicLength) {count limit : Nat} :
    settings.checkTopic topic = .error (.tooManyLevels count limit) ↔
      count = levelCount topic ∧ limit = settings.maxTopicLevels ∧
        settings.maxTopicLevels < levelCount topic := by
  rw [checkTopic, if_neg hne, if_neg (Nat.not_lt.2 hlength)]
  by_cases hlevels : settings.maxTopicLevels < levelCount topic
  · rw [if_pos hlevels, Except.error.injEq, RouterError.tooManyLevels.injEq]
    constructor
    · rintro ⟨rfl, rfl⟩
      exact ⟨rfl, rfl, hlevels⟩
    · rintro ⟨rfl, rfl, _⟩
      exact ⟨rfl, rfl⟩
  · rw [if_neg hlevels]
    exact iff_of_false nofun fun h => hlevels h.2.2

theorem refusesLevels_iff (hne : topic ≠ "")
    (hlength : topic.utf8ByteSize ≤ settings.maxTopicLength) :
    settings.RefusesLevels topic ↔ settings.maxTopicLevels < levelCount topic := by
  constructor
  · rintro ⟨count, limit, hcheck⟩
    exact ((checkTopic_eq_tooManyLevels_iff hne hlength).1 hcheck).2.2
  · intro hlevels
    exact ⟨_, _, (checkTopic_eq_tooManyLevels_iff hne hlength).2 ⟨rfl, rfl, hlevels⟩⟩

/-- **The limit is one of separators.**  A topic without a fault is refused if
more levels are read off it than allowed, where one more is counted if it ends in
a separator, and this is the number that is reported.  It is the number of levels
exactly for the other topics.  The limit is one of levels unless the topic ends
in a separator and has just as many levels as allowed, and it treats two topics
that are read alike in the same way unless one of them does so and the other
does not. -/
theorem level_limit_by_separators (hne : topic ≠ "")
    (hlength : topic.utf8ByteSize ≤ settings.maxTopicLength)
    (hscan : scan topic = ⟨levels, none⟩) :
    (∀ count limit, settings.checkTopic topic = .error (.tooManyLevels count limit) ↔
      count = levels.length + (if EndsInSeparator topic then 1 else 0) ∧
        limit = settings.maxTopicLevels ∧ settings.maxTopicLevels < count) ∧
    (levelCount topic = levels.length ↔ ¬ EndsInSeparator topic) ∧
    ((settings.RefusesLevels topic ↔ settings.maxTopicLevels < levels.length) ↔
      ¬ EndsInSeparator topic ∨ levels.length ≠ settings.maxTopicLevels) ∧
    (∀ topic', topic' ≠ "" → topic'.utf8ByteSize ≤ settings.maxTopicLength →
      scan topic' = ⟨levels, none⟩ →
      ((settings.RefusesLevels topic ↔ settings.RefusesLevels topic') ↔
        (EndsInSeparator topic ↔ EndsInSeparator topic') ∨
          levels.length ≠ settings.maxTopicLevels)) := by
  have hcount := levelCount_eq hne hscan
  refine ⟨fun count limit => ?_, ?_, ?_, fun topic' hne' hlength' hscan' => ?_⟩
  · rw [checkTopic_eq_tooManyLevels_iff hne hlength, ← hcount]
    constructor
    · rintro ⟨rfl, rfl, hlevels⟩
      exact ⟨rfl, rfl, hlevels⟩
    · rintro ⟨rfl, rfl, hlevels⟩
      exact ⟨rfl, rfl, hlevels⟩
  · rw [hcount]
    by_cases hends : EndsInSeparator topic
    · simp [hends]
    · simp [hends]
  · rw [refusesLevels_iff hne hlength, hcount]
    by_cases hends : EndsInSeparator topic
    · simp only [hends, if_true, not_true_eq_false, false_or]
      omega
    · simp [hends]
  · rw [refusesLevels_iff hne hlength, refusesLevels_iff hne' hlength', hcount,
      levelCount_eq hne' hscan']
    by_cases hends : EndsInSeparator topic
    · by_cases hends' : EndsInSeparator topic'
      · simp [hends, hends']
      · simp only [hends, hends', if_true, if_false, iff_false, not_true_eq_false, false_or]
        omega
    · by_cases hends' : EndsInSeparator topic'
      · simp only [hends, hends', if_true, if_false, iff_true, false_or]
        omega
      · simp [hends, hends']

/-- A topic with an empty level in the middle and a separator at its end, of as
many levels as are allowed, and the same without that separator. -/
theorem level_limit_by_separators_at_limit :
    let settings : Settings := { maxTopicLevels := 3 }
    let levels : List Level := [.literal "a", .single, .literal "b"]
    "a//b/" ≠ "" ∧ "a//b/".utf8ByteSize ≤ settings.maxTopicLength ∧
      scan "a//b/" = ⟨levels, none⟩ ∧ "a//b" ≠ "" ∧
      "a//b".utf8ByteSize ≤ settings.maxTopicLength ∧ scan "a//b" = ⟨levels, none⟩ ∧
      settings.checkTopic "a//b/" = .error (.tooManyLevels 4 3) ∧
      ((settings.RefusesLevels "a//b/" ↔ settings.maxTopicLevels < levels.length) ↔
        ¬ EndsInSeparator "a//b/" ∨ levels.length ≠ settings.maxTopicLevels) ∧
      ((settings.RefusesLevels "a//b/" ↔ settings.RefusesLevels "a//b") ↔
        (EndsInSeparator "a//b/" ↔ EndsInSeparator "a//b") ∨
          levels.length ≠ settings.maxTopicLevels) := by
  intro settings levels
  have hne : "a//b/" ≠ "" := by decide
  have hne' : "a//b" ≠ "" := by decide
  have hlength : "a//b/".utf8ByteSize ≤ settings.maxTopicLength := by decide +kernel
  have hlength' : "a//b".utf8ByteSize ≤ settings.maxTopicLength := by decide +kernel
  have hscan : scan "a//b/" = ⟨levels, none⟩ := by decide +kernel
  have hscan' : scan "a//b" = ⟨levels, none⟩ := by decide +kernel
  obtain ⟨hrefused, _, hlimit, hsame⟩ := level_limit_by_separators hne hlength hscan
  have hcheck : settings.checkTopic "a//b/" = .error (.tooManyLevels 4 3) :=
    (hrefused 4 3).2 (by decide +kernel)
  exact ⟨hne, hlength, hscan, hne', hlength', hscan', hcheck, hlimit,
    hsame _ hne' hlength' hscan'⟩

/-- The limit is not one of levels: where one level is allowed, `a/` is refused
for two of them, although only one is read off it, as it is off `a`. -/
theorem level_limit_refuses_trailing_separator :
    let settings : Settings := { maxTopicLevels := 1 }
    (scan "a/" = ⟨[.literal "a"], none⟩ ∧ scan "a" = ⟨[.literal "a"], none⟩ ∧
      settings.checkTopic "a/" = .error (.tooManyLevels 2 1) ∧
      settings.checkTopic "a" = .ok ()) ∧
    ¬ ∀ (settings : Settings) (topic : String) (levels : List Level), topic ≠ "" →
      topic.utf8ByteSize ≤ settings.maxTopicLength → scan topic = ⟨levels, none⟩ →
      (settings.RefusesLevels topic ↔ settings.maxTopicLevels < levels.length) := by
  intro settings
  have hscan : scan "a/" = ⟨[.literal "a"], none⟩ := by decide +kernel
  have hcheck : settings.checkTopic "a/" = .error (.tooManyLevels 2 1) := by decide +kernel
  refine ⟨⟨hscan, by decide +kernel, hcheck, by decide +kernel⟩, fun hlimit => ?_⟩
  have hlevels := (hlimit settings "a/" _ (by decide) (by decide +kernel) hscan).1 ⟨2, 1, hcheck⟩
  exact absurd hlevels (by decide)

end Settings

end TopicRouter
