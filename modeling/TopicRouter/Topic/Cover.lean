import TopicRouter.Topic.Level

/-!
# Filters that cover a topic

`Covers` says which topics a filter stands for, on levels alone and without
any tree.  `Precedes` is the order in which the filters that cover one topic
are reported: at the first level where two of them differ, the wildcard for
the rest comes before the wildcard for one level, and that before a literal;
a filter that has ended comes before every longer one.

## Main results

* `covers_iff` — the relation is decided by recursion on the two lists.
* `Precedes.irrefl`, `Precedes.trans` — the order is strict.
-/

namespace TopicRouter

/-- The filter stands for the topic. -/
inductive Covers : List Level → List Level → Prop where
  | nil : Covers [] []
  | multi (topic : List Level) : Covers [.multi] topic
  | single (level : Level) {filter topic : List Level} :
      Covers filter topic → Covers (.single :: filter) (level :: topic)
  | literal (text : String) {filter topic : List Level} :
      Covers filter topic → Covers (.literal text :: filter) (.literal text :: topic)

/-- Decides whether a filter stands for a topic. -/
def covers : List Level → List Level → Bool
  | [], topic => topic.isEmpty
  | .multi :: filter, _ => filter.isEmpty
  | .single :: _, [] => false
  | .single :: filter, _ :: topic => covers filter topic
  | .literal _ :: _, [] => false
  | .literal text :: filter, level :: topic =>
      level = .literal text && covers filter topic

theorem covers_iff {filter topic : List Level} :
    covers filter topic = true ↔ Covers filter topic := by
  constructor
  · intro h
    fun_induction covers filter topic with
    | case1 topic =>
        rw [List.isEmpty_iff.1 h]
        exact .nil
    | case2 filter topic =>
        rw [List.isEmpty_iff.1 h]
        exact .multi topic
    | case3 => cases h
    | case4 filter level topic ih => exact .single level (ih h)
    | case5 => cases h
    | case6 text filter level topic ih =>
        rw [Bool.and_eq_true, decide_eq_true_eq] at h
        rw [h.1]
        exact .literal text (ih h.2)
  · intro h
    induction h with
    | nil => rfl
    | multi topic => rfl
    | single level _ ih => exact ih
    | literal text _ ih => simp [covers, ih]

instance (filter topic : List Level) : Decidable (Covers filter topic) :=
  decidable_of_iff _ covers_iff

/-- Of two filters for one topic, the first is reported before the second. -/
inductive Precedes : List Level → List Level → Prop where
  | ended (level : Level) (second : List Level) : Precedes [] (level :: second)
  | multi_single (first second : List Level) :
      Precedes (.multi :: first) (.single :: second)
  | multi_literal (text : String) (first second : List Level) :
      Precedes (.multi :: first) (.literal text :: second)
  | single_literal (text : String) (first second : List Level) :
      Precedes (.single :: first) (.literal text :: second)
  | cons (level : Level) {first second : List Level} :
      Precedes first second → Precedes (level :: first) (level :: second)

theorem Precedes.irrefl (filter : List Level) : ¬ Precedes filter filter := by
  induction filter with
  | nil => rintro ⟨⟩
  | cons level filter ih =>
      intro h
      cases h with
      | cons _ h => exact ih h

theorem Precedes.trans {first second third : List Level}
    (h : Precedes first second) (h' : Precedes second third) :
    Precedes first third := by
  induction h generalizing third with
  | ended level second =>
      cases third with
      | nil => cases h'
      | cons level' third => exact .ended level' third
  | multi_single first second =>
      cases h' with
      | single_literal text _ third => exact .multi_literal text first third
      | cons _ h' => exact .multi_single first _
  | multi_literal text first second =>
      cases h' with
      | cons _ h' => exact .multi_literal text first _
  | single_literal text first second =>
      cases h' with
      | cons _ h' => exact .single_literal text first _
  | cons level h ih =>
      cases h' with
      | multi_single _ third => exact .multi_single _ third
      | multi_literal text _ third => exact .multi_literal text _ third
      | single_literal text _ third => exact .single_literal text _ third
      | cons _ h' => exact .cons level (ih h')

end TopicRouter
