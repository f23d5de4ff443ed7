import TopicRouter.Proofs.Subscription.Matching
import TopicRouter.Proofs.Subscription.Revising
import TopicRouter.Proofs.Tree.Pruned

/-!
# Changes to different filters commute

A change to the subscriptions of one filter may create nodes on its way, and
drop nodes that a change to another filter has created.  Still the two do not
disturb each other: when no filter is faulty, the entries of a filter come
from the changes to it alone, and the nodes of the tree from its entries.

So the changes of several clients may be interleaved in any way, as long as
those to one filter keep their order.  The tree is the same in the end, and
so are the answers, save for the question whether a filter that is cleared
has a node.

## Main results

* `SubscriptionTree.slot_run` — the entries of a filter after a history.
* `SubscriptionTree.answersAt_run` — the answers to the changes of a filter.
* `SubscriptionTree.pruned_run` — a history without faults leaves no empty
  nodes.
* `SubscriptionTree.run_of_interleaved` — the order among changes to
  different filters is of no meaning.
-/

namespace TopicRouter

universe u

/-! ## Trees with the same nodes are searched alike -/

namespace Tree.SameNodes

theorem forward_eq {β : Type u} {tree tree' : Tree (List β)} (h : SameNodes tree tree')
    (fault? : Option TopicError) (topic : List Level) :
    tree.forward fault? topic = tree'.forward fault? topic := by
  induction topic generalizing tree tree' with
  | nil =>
      simp only [forward, h.value_eq, coveringRest_eq_slot, h.slot_eq]
  | cons level rest ih =>
      rw [forward_cons, forward_cons, coveringRest_eq_slot, coveringRest_eq_slot, h.slot_eq,
        h.elim_child?_eq .single (.done []) fun h => ih h,
        h.elim_child?_eq level (.done []) fun h => ih h]

end Tree.SameNodes

namespace SubscriptionTree

variable {σ : Type u} [Identity σ]

/-! ## Histories without faults -/

/-- The changes to a filter. -/
def changesTo (levels : List Level) (changes : List (SubscriptionChange σ)) :
    List (SubscriptionChange σ) :=
  changes.filter fun change => change.levels = levels

/-- The changes to a filter, each with its answer; without those that clear
the filter. -/
def answersAt (levels : List Level) (changes : List (SubscriptionChange σ))
    (answers : List (Except TopicError Unit)) :
    List (SubscriptionChange σ × Except TopicError Unit) :=
  (changes.zip answers).filter fun entry =>
    entry.1.levels = levels && !entry.1.isClear

/-- The answers to changes that are all made to one filter. -/
def replay : List (Subscription σ) → List (SubscriptionChange σ) →
    List (SubscriptionChange σ × Except TopicError Unit)
  | _, [] => []
  | entries, change :: rest =>
      (change, change.answer entries) :: replay (change.revise entries) rest

variable {changes changes' : List (SubscriptionChange σ)}

/-- **The entries of a filter** come from the changes to it. -/
theorem slot_run (tree : SubscriptionTree σ)
    (hfault : ∀ change ∈ changes, (scan change.filter).fault? = none) (levels : List Level) :
    (tree.run changes).2.slot levels =
      (changesTo levels changes).foldl (fun entries change => change.revise entries)
        (tree.slot levels) := by
  induction changes generalizing tree with
  | nil => rfl
  | cons change rest ih =>
      obtain ⟨hchange, hrest⟩ := List.forall_mem_cons.1 hfault
      rw [run_cons, ih _ hrest, (apply_of_no_fault tree hchange).1, Store.put, changesTo,
        changesTo, List.filter_cons]
      by_cases hlevels : levels = change.levels
      · simp [hlevels]
      · simp [hlevels, Ne.symm hlevels]

/-- **The answers to the changes of a filter** come from these changes. -/
theorem answersAt_run (tree : SubscriptionTree σ)
    (hfault : ∀ change ∈ changes, (scan change.filter).fault? = none) (levels : List Level) :
    answersAt levels changes (tree.run changes).1 =
      (replay (tree.slot levels) (changesTo levels changes)).filter
        fun entry => !entry.1.isClear := by
  induction changes generalizing tree with
  | nil => rfl
  | cons change rest ih =>
      obtain ⟨hchange, hrest⟩ := List.forall_mem_cons.1 hfault
      obtain ⟨hslot, hanswer⟩ := apply_of_no_fault tree hchange
      have ih := ih (tree.apply change).2 hrest
      rw [hslot, Store.put] at ih
      rw [answersAt] at ih ⊢
      rw [run_cons, List.zip_cons_cons, List.filter_cons, ih, changesTo, changesTo,
        List.filter_cons]
      by_cases hlevels : levels = change.levels
      · subst hlevels
        cases hclear : change.isClear with
        | true => simp [hclear, replay]
        | false => simp [hclear, replay, hanswer hclear]
      · simp [hlevels, Ne.symm hlevels]

/-! ## Nodes without entries -/

/-- A change leaves no empty node, unless it subscribes to a faulty filter. -/
theorem emptyWithin_apply {places : List Level → Prop} {tree : SubscriptionTree σ}
    (h : Tree.EmptyWithin places tree) (change : SubscriptionChange σ)
    (hplace : ∀ filter qos subscriber, change = .subscribe filter qos subscriber →
      (scan filter).fault? ≠ none → places (scan filter).levels) :
    Tree.EmptyWithin places (tree.apply change).2 := by
  cases change with
  | subscribe filter qos subscriber =>
      exact h.insert (fun _ => Subscription.grant_ne_nil subscriber qos _)
        (hplace filter qos subscriber rfl)
  | unsubscribe filter subscriber? =>
      rw [apply]
      split
      · rename_i changed hunsubscribe
        exact h.remove hunsubscribe
      · exact h

/-- A history without faults leaves no empty nodes. -/
theorem pruned_run {tree : SubscriptionTree σ} (h : Tree.Pruned tree)
    (hfault : ∀ change ∈ changes, (scan change.filter).fault? = none) :
    Tree.Pruned (tree.run changes).2 := by
  induction changes generalizing tree with
  | nil => exact h
  | cons change rest ih =>
      obtain ⟨hchange, hrest⟩ := List.forall_mem_cons.1 hfault
      refine ih (emptyWithin_apply h change ?_) hrest
      rintro filter qos subscriber rfl hne
      exact hne hchange

/-! ## Other orders -/

/-- The changes in another order, which keeps the order among the changes to
each filter. -/
def Interleaved (changes changes' : List (SubscriptionChange σ)) : Prop :=
  ∀ levels, changesTo levels changes = changesTo levels changes'

omit [Identity σ] in
theorem Interleaved.mem_iff (h : Interleaved changes changes') (change : SubscriptionChange σ) :
    change ∈ changes ↔ change ∈ changes' := by
  have hmem : ∀ changes : List (SubscriptionChange σ),
      change ∈ changesTo change.levels changes ↔ change ∈ changes := fun changes => by
    simp [changesTo]
  rw [← hmem changes, h change.levels, hmem]

omit [Identity σ] in
/-- Neighbours may change places when they are about different filters. -/
theorem interleaved_swap (before after : List (SubscriptionChange σ))
    {first second : SubscriptionChange σ} (hlevels : first.levels ≠ second.levels) :
    Interleaved (before ++ first :: second :: after) (before ++ second :: first :: after) := by
  intro levels
  rw [changesTo, changesTo, List.filter_append, List.filter_append]
  congr 1
  by_cases hfirst : first.levels = levels
  · have hsecond : ¬second.levels = levels := fun h => hlevels (hfirst.trans h.symm)
    simp [hfirst, hsecond]
  · simp [List.filter_cons, hfirst]

/-- **Changes to different filters commute.**  Two histories without faults
whose changes differ only in the order among different filters lead to the
same nodes and entries, so that every search finds the same, and answer the
changes of each filter alike. -/
theorem run_of_interleaved (h : Interleaved changes changes')
    (hfault : ∀ change ∈ changes, (scan change.filter).fault? = none) :
    Tree.SameNodes (ofHistory changes) (ofHistory changes') ∧
      (∀ topic qos fanout, (ofHistory changes).collect topic qos fanout =
        (ofHistory changes').collect topic qos fanout) ∧
      ∀ levels, answersAt levels changes (run Tree.empty changes).1 =
        answersAt levels changes' (run Tree.empty changes').1 := by
  have hfault' : ∀ change ∈ changes', (scan change.filter).fault? = none :=
    fun change hchange => hfault change ((h.mem_iff change).2 hchange)
  have hslot : (ofHistory changes).slot = (ofHistory changes').slot := by
    funext levels
    rw [ofHistory, ofHistory, slot_run _ hfault, slot_run _ hfault', h levels]
  have hnodes : Tree.SameNodes (ofHistory changes) (ofHistory changes') :=
    (pruned_run .empty hfault).sameNodes (pruned_run .empty hfault') hslot
  refine ⟨hnodes, fun topic qos fanout => ?_, fun levels => ?_⟩
  · rw [collect, collect, lookup, lookup, hnodes.forward_eq]
  · rw [answersAt_run _ hfault, answersAt_run _ hfault', h levels]

/-- A filter is cleared before or after its node is dropped together with one
further down. -/
theorem run_of_interleaved_clear :
    let x : Handle := .text .owned "x"
    let changes : List (SubscriptionChange Handle) :=
      [.subscribe "a/b" .atMostOnce x, .unsubscribe "a/b" (some x), .unsubscribe "a" none,
        .subscribe "a/+" .atLeastOnce x]
    let changes' : List (SubscriptionChange Handle) :=
      [.subscribe "a/b" .atMostOnce x, .unsubscribe "a" none, .unsubscribe "a/b" (some x),
        .subscribe "a/+" .atLeastOnce x]
    Interleaved changes changes' ∧
      (∀ change ∈ changes, (scan change.filter).fault? = none) ∧
      Tree.SameNodes (ofHistory changes) (ofHistory changes') ∧
      (∀ topic qos fanout, (ofHistory changes).collect topic qos fanout =
        (ofHistory changes').collect topic qos fanout) ∧
      ∀ levels, answersAt levels changes (run Tree.empty changes).1 =
        answersAt levels changes' (run Tree.empty changes').1 := by
  intro x changes changes'
  have horder : Interleaved changes changes' := by
    refine interleaved_swap [.subscribe "a/b" .atMostOnce x] [.subscribe "a/+" .atLeastOnce x] ?_
    decide +kernel
  have hfault : ∀ change ∈ changes, (scan change.filter).fault? = none := by
    decide +kernel
  exact ⟨horder, hfault, run_of_interleaved horder hfault⟩

end SubscriptionTree

end TopicRouter
