import TopicRouter.Proofs.Subscription.Commuting

/-!
# Nodes without entries

A tree of subscriptions drops a node as soon as it is of no more use.  Only a
refused subscription leaves an empty node: the levels before the fault of its
filter stay, and the last of them may have neither entries nor branches.

So every empty node can be traced back to a request that was refused.  Where
no subscription was refused, whatever else was, there is a node exactly where
some entry is stored or further up.

## Main results

* `SubscriptionTree.emptyWithin_ofHistory` — empty nodes are where a faulty
  filter was refused.
* `SubscriptionTree.empty_nodes_refused` — the nodes of every tree that a
  history leads to.
-/

namespace TopicRouter

universe u

namespace SubscriptionTree

variable {σ : Type u} [Identity σ]

/-- The changes of a history, each with its answer. -/
def log (changes : List (SubscriptionChange σ)) :
    List (SubscriptionChange σ × Except TopicError Unit) :=
  changes.zip (run Tree.empty changes).1

/-- Somebody tried to subscribe to a filter whose fault is behind the path, and
was refused for this fault. -/
def RefusedBehind (changes : List (SubscriptionChange σ)) (path : List Level) : Prop :=
  ∃ filter qos subscriber fault,
    (.subscribe filter qos subscriber, .error fault) ∈ log changes ∧
      scan filter = ⟨path, some fault⟩

theorem length_run (tree : SubscriptionTree σ) (changes : List (SubscriptionChange σ)) :
    (tree.run changes).1.length = changes.length := by
  induction changes generalizing tree with
  | nil => rfl
  | cons change rest ih => exact congrArg Nat.succ (ih _)

theorem log_append_singleton (changes : List (SubscriptionChange σ))
    (change : SubscriptionChange σ) :
    log (changes ++ [change]) =
      log changes ++ [(change, ((ofHistory changes).apply change).1)] := by
  rw [log, answers_append_singleton, List.zip_append (length_run _ changes).symm]
  rfl

/-- A subscription is answered by the fault of its filter, if there is one. -/
theorem answer_subscribe (tree : SubscriptionTree σ) (filter : String) (qos : QoS)
    (subscriber : σ) :
    (tree.apply (.subscribe filter qos subscriber)).1 = (scan filter).outcome := by
  rw [apply, subscribe, Tree.insert_fst]

theorem RefusedBehind.append_singleton {changes : List (SubscriptionChange σ)}
    {path : List Level} (h : RefusedBehind changes path) (change : SubscriptionChange σ) :
    RefusedBehind (changes ++ [change]) path := by
  obtain ⟨filter, qos, subscriber, fault, hlog, hscan⟩ := h
  refine ⟨filter, qos, subscriber, fault, ?_, hscan⟩
  rw [log_append_singleton]
  exact List.mem_append_left _ hlog

/-- A faulty filter is refused, and the log says so. -/
theorem refusedBehind_append_subscribe (changes : List (SubscriptionChange σ)) {filter : String}
    (qos : QoS) (subscriber : σ) (hfault : (scan filter).fault? ≠ none) :
    RefusedBehind (changes ++ [.subscribe filter qos subscriber]) (scan filter).levels := by
  obtain ⟨fault, hfault⟩ := Option.ne_none_iff_exists'.1 hfault
  refine ⟨filter, qos, subscriber, fault, ?_, by rw [← hfault]⟩
  rw [log_append_singleton, answer_subscribe, Scan.outcome, hfault]
  exact List.mem_append_right _ (List.mem_singleton_self _)

/-- **Empty nodes are where a faulty filter was refused.** -/
theorem emptyWithin_ofHistory (changes : List (SubscriptionChange σ)) :
    Tree.EmptyWithin (RefusedBehind changes) (ofHistory changes) := by
  induction changes using List.reverseRecOn with
  | nil => exact .empty
  | append_singleton changes change ih =>
      rw [ofHistory_append_singleton]
      refine emptyWithin_apply (ih.mono fun path h => h.append_singleton change) change ?_
      rintro filter qos subscriber rfl hfault
      exact refusedBehind_append_subscribe changes qos subscriber hfault

/-- Where no subscription was refused, no empty node is left. -/
theorem pruned_ofHistory {changes : List (SubscriptionChange σ)}
    (hgranted : ∀ filter qos subscriber e,
      (.subscribe filter qos subscriber, .error e) ∉ log changes) :
    Tree.Pruned (ofHistory changes) := by
  refine (emptyWithin_ofHistory changes).mono fun path h => ?_
  obtain ⟨filter, qos, subscriber, fault, hlog, _⟩ := h
  exact hgranted filter qos subscriber fault hlog

/-- **Only refused subscriptions leave empty nodes.**  After any history, an
empty node below the root is where some subscription was refused, just before
the fault of its filter.  If none was refused, there is a node below the root
exactly where an entry is stored under that path or under one that goes on from
it, and the tree is empty exactly if nothing is stored. -/
theorem empty_nodes_refused (changes : List (SubscriptionChange σ)) :
    (∀ path found, path ≠ [] → (ofHistory changes).at? path = some found →
      found.isEmpty = true → RefusedBehind changes path) ∧
    ((∀ filter qos subscriber e, (.subscribe filter qos subscriber, .error e) ∉ log changes) →
      (∀ path, path ≠ [] → (((ofHistory changes).at? path).isSome = true ↔
        ∃ filter entry, path <+: filter ∧ entry ∈ (ofHistory changes).slot filter)) ∧
      ((ofHistory changes).isEmpty = true ↔
        ∀ filter entry, entry ∉ (ofHistory changes).slot filter)) := by
  refine ⟨emptyWithin_ofHistory changes, fun hgranted => ⟨fun path hpath => ?_, ?_, ?_⟩⟩
  · rw [(pruned_ofHistory hgranted).isSome_at?_iff hpath]
    constructor
    · rintro ⟨below, hbelow⟩
      obtain ⟨entry, hentry⟩ := List.exists_mem_of_ne_nil _ hbelow
      exact ⟨path ++ below, entry, List.prefix_append path below, hentry⟩
    · rintro ⟨_, entry, ⟨below, rfl⟩, hentry⟩
      exact ⟨below, List.ne_nil_of_mem hentry⟩
  · intro hempty filter entry hentry
    rw [Tree.isEmpty_iff.1 hempty, Tree.slot_empty] at hentry
    cases hentry
  · intro hnothing
    by_contra hfull
    obtain ⟨filter, hfilter⟩ := Tree.exists_slot_ne_vacant _ (pruned_ofHistory hgranted)
      (Bool.eq_false_iff.2 hfull)
    obtain ⟨entry, hentry⟩ := List.exists_mem_of_ne_nil _ hfilter
    exact hnothing filter entry hentry

/-- A refused filter leaves an empty node below one that was filled and emptied
since.  No other refusal leaves any. -/
theorem empty_nodes_refused_below :
    let x : Handle := .text .owned "x"
    let changes : List (SubscriptionChange Handle) :=
      [.subscribe "a/b/c#" .atMostOnce x, .subscribe "a" .atLeastOnce x,
        .unsubscribe "d/e" none, .unsubscribe "a" (some x)]
    let changes' : List (SubscriptionChange Handle) :=
      [.subscribe "a/b/c" .atMostOnce x, .unsubscribe "a/b/#d" none, .unsubscribe "a" none]
    let path : List Level := [.literal "a", .literal "b"]
    (path ≠ [] ∧ (ofHistory changes).at? path = some (.node [] []) ∧
      RefusedBehind changes path) ∧
    (∀ filter qos subscriber e, (.subscribe filter qos subscriber, .error e) ∉ log changes') ∧
    (((ofHistory changes').at? path).isSome = true ↔
      ∃ filter entry, path <+: filter ∧ entry ∈ (ofHistory changes').slot filter) ∧
    ((ofHistory changes').isEmpty = true ↔
      ∀ filter entry, entry ∉ (ofHistory changes').slot filter) := by
  intro x changes changes' path
  have hpath : path ≠ [] := List.cons_ne_nil _ _
  have hat : (ofHistory changes).at? path = some (.node [] []) := by decide +kernel
  have hlog : log changes' =
      [(.subscribe "a/b/c" .atMostOnce x, .ok ()),
        (.unsubscribe "a/b/#d" none, .error (.malformed "#d" .wildcardNotWhole)),
        (.unsubscribe "a" none, .ok ())] := by decide +kernel
  have hgranted : ∀ filter qos subscriber e,
      (.subscribe filter qos subscriber, .error e) ∉ log changes' := by
    intro filter qos subscriber e
    simp [hlog]
  obtain ⟨hnodes, hempty⟩ := (empty_nodes_refused changes').2 hgranted
  exact ⟨⟨hpath, hat, (empty_nodes_refused changes).1 path _ hpath hat rfl⟩, hgranted,
    hnodes path hpath, hempty⟩

end SubscriptionTree

end TopicRouter
