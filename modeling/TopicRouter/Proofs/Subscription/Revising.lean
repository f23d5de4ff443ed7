import TopicRouter.Proofs.Subscription.Refinement

/-!
# Changes seen from their filter

A change to the subscriptions of a filter needs to know little of the tree.
Without a fault it revises the entries of its filter, and these alone decide
on the answer, save that a filter is cleared only if it has a node.  With a
fault it touches no entry.

So trees with the same entries take a change alike, whatever nodes they have
besides.

## Main results

* `SubscriptionTree.apply_of_no_fault` — what a change makes of the entries of
  its filter, and its answer.
* `SubscriptionTree.slot_apply_of_error` — a change that is refused touches no
  entry.
* `SubscriptionTree.slot_apply_congr`, `SubscriptionTree.answer_congr` — trees
  with the same entries take a change alike.
-/

namespace TopicRouter

universe u

namespace SubscriptionChange

variable {σ : Type u}

/-- The levels of the filter that the change is about. -/
def levels (change : SubscriptionChange σ) : List Level := (scan change.filter).levels

/-- Does the change end all subscriptions of its filter? -/
def isClear : SubscriptionChange σ → Bool
  | subscribe _ _ _ => false
  | unsubscribe _ subscriber? => subscriber?.isNone

variable [Identity σ]

/-- What the change makes of the entries of its filter. -/
def revise : SubscriptionChange σ → List (Subscription σ) → List (Subscription σ)
  | subscribe _ qos subscriber, entries => Subscription.grant subscriber qos entries
  | unsubscribe _ none, _ => []
  | unsubscribe _ (some subscriber), entries =>
      (Subscription.revoke? subscriber entries).getD entries

/-- How a change that is not a clearing is answered. -/
def answer : SubscriptionChange σ → List (Subscription σ) → Except TopicError Unit
  | unsubscribe filter (some subscriber), entries =>
      match Subscription.revoke? subscriber entries with
      | some _ => .ok ()
      | none => .error (.subscriberNotFound filter)
  | _, _ => .ok ()

end SubscriptionChange

theorem Subscription.grant_ne_nil {σ : Type u} [Identity σ] (subscriber : σ) (qos : QoS)
    (entries : List (Subscription σ)) : grant subscriber qos entries ≠ [] := by
  cases entries with
  | nil => exact List.cons_ne_nil _ _
  | cons entry rest =>
      unfold grant
      split <;> exact List.cons_ne_nil _ _

namespace Store

variable {σ : Type u}

theorem put_self (store : Store σ) (filter : List Level) :
    store.put filter (store filter) = store := by
  funext other
  unfold put
  split
  · rename_i heq
    rw [heq]
  · rfl

variable [Identity σ]

/-- Without a fault, a change concerns the entries of its filter alone. -/
theorem apply_of_no_fault {store : Store σ} {isPresent : List Level → Bool}
    (hpresent : ∀ levels, store levels ≠ [] → isPresent levels = true)
    {change : SubscriptionChange σ} (hfault : (scan change.filter).fault? = none) :
    (store.apply isPresent change).2 =
        store.put change.levels (change.revise (store change.levels)) ∧
      (change.isClear = false →
        (store.apply isPresent change).1 = change.answer (store change.levels)) := by
  cases change with
  | subscribe filter qos subscriber =>
      rw [SubscriptionChange.filter] at hfault
      simp only [apply, hfault]
      exact ⟨rfl, fun _ => rfl⟩
  | unsubscribe filter subscriber? =>
      rw [SubscriptionChange.filter] at hfault
      -- A filter without a node has no entries, so there is nothing to take out.
      cases hnode : isPresent (scan filter).levels with
      | false =>
          have hnone : store (scan filter).levels = [] := by
            by_contra hne
            rw [hpresent _ hne] at hnode
            cases hnode
          have hself : store.put (scan filter).levels [] = store := by
            rw [← hnone, put_self]
          simp only [apply, hnode]
          cases subscriber? with
          | none => exact ⟨hself.symm, fun h => by cases h⟩
          | some subscriber =>
              rw [SubscriptionChange.levels, SubscriptionChange.filter, hnone]
              exact ⟨hself.symm, fun _ => rfl⟩
      | true =>
          cases subscriber? with
          | none =>
              simp only [apply, hnode, hfault]
              exact ⟨rfl, fun h => by cases h⟩
          | some subscriber =>
              simp only [apply, hnode, hfault, SubscriptionChange.levels,
                SubscriptionChange.filter, SubscriptionChange.revise, SubscriptionChange.answer]
              cases Subscription.revoke? subscriber (store (scan filter).levels) with
              | some entries => exact ⟨rfl, fun _ => rfl⟩
              | none => exact ⟨(put_self store _).symm, fun _ => rfl⟩

/-- With a fault, a change touches no entry. -/
theorem apply_of_fault (store : Store σ) (isPresent : List Level → Bool)
    {change : SubscriptionChange σ} (hfault : (scan change.filter).fault? ≠ none) :
    (store.apply isPresent change).2 = store := by
  cases change with
  | subscribe filter qos subscriber =>
      simp only [apply]
      split
      · rfl
      · rename_i hnone
        exact absurd hnone hfault
  | unsubscribe filter subscriber? =>
      simp only [apply]
      split
      · rfl
      · rfl
      · rename_i hnone
        exact absurd hnone hfault
      · rename_i hnone
        exact absurd hnone hfault

/-- A change that is refused touches no entry. -/
theorem apply_of_error {store : Store σ} {isPresent : List Level → Bool}
    {change : SubscriptionChange σ} {e : TopicError}
    (h : (store.apply isPresent change).1 = .error e) :
    (store.apply isPresent change).2 = store := by
  by_cases hfault : (scan change.filter).fault? = none
  · cases change with
    | subscribe filter qos subscriber =>
        rw [SubscriptionChange.filter] at hfault
        simp only [apply, hfault] at h
        cases h
    | unsubscribe filter subscriber? =>
        simp only [apply] at h ⊢
        split at h
        · rfl
        · rfl
        · cases h
        · split at h
          · cases h
          · rfl
  · exact apply_of_fault store isPresent hfault

end Store

namespace SubscriptionTree

variable {σ : Type u} [Identity σ]

/-- A change to a filter without a fault, seen from the entries of the filter. -/
theorem apply_of_no_fault (tree : SubscriptionTree σ) {change : SubscriptionChange σ}
    (hfault : (scan change.filter).fault? = none) :
    (tree.apply change).2.slot =
        Store.put tree.slot change.levels (change.revise (tree.slot change.levels)) ∧
      (change.isClear = false →
        (tree.apply change).1 = change.answer (tree.slot change.levels)) := by
  have hpresent : ∀ levels, tree.slot levels ≠ [] → (tree.at? levels).isSome = true :=
    fun levels => isSome_at?_of_slot_ne_nil
  have happly := Store.apply_of_no_fault hpresent hfault
  rwa [slot_apply] at happly

theorem slot_apply_of_fault (tree : SubscriptionTree σ) {change : SubscriptionChange σ}
    (hfault : (scan change.filter).fault? ≠ none) : (tree.apply change).2.slot = tree.slot := by
  have happly := Store.apply_of_fault tree.slot (fun levels => (tree.at? levels).isSome) hfault
  rwa [slot_apply] at happly

theorem slot_apply_of_error {tree : SubscriptionTree σ} {change : SubscriptionChange σ}
    {e : TopicError} (h : (tree.apply change).1 = .error e) :
    (tree.apply change).2.slot = tree.slot := by
  have hslot := slot_apply tree change
  have happly := Store.apply_of_error (by rw [hslot]; exact h)
  rwa [hslot] at happly

/-! ## Trees with the same entries -/

variable {tree tree' : SubscriptionTree σ}

/-- Trees with the same entries have the same entries after a change. -/
theorem slot_apply_congr (h : tree.slot = tree'.slot) (change : SubscriptionChange σ) :
    (tree.apply change).2.slot = (tree'.apply change).2.slot := by
  by_cases hfault : (scan change.filter).fault? = none
  · rw [(apply_of_no_fault tree hfault).1, (apply_of_no_fault tree' hfault).1, h]
  · rw [slot_apply_of_fault tree hfault, slot_apply_of_fault tree' hfault, h]

/-- Whether a subscription is granted depends on its filter alone. -/
theorem answer_subscribe_congr (tree tree' : SubscriptionTree σ) (filter : String) (qos : QoS)
    (subscriber : σ) :
    (tree.apply (.subscribe filter qos subscriber)).1 =
      (tree'.apply (.subscribe filter qos subscriber)).1 := by
  rw [apply, apply, subscribe, subscribe, Tree.insert_fst, Tree.insert_fst]

/-- Trees with the same entries answer alike, unless the answer depends on
which nodes there are. -/
theorem answer_congr (h : tree.slot = tree'.slot) {change : SubscriptionChange σ}
    (hfault : (scan change.filter).fault? = none) (hclear : change.isClear = false) :
    (tree.apply change).1 = (tree'.apply change).1 := by
  rw [(apply_of_no_fault tree hfault).2 hclear, (apply_of_no_fault tree' hfault).2 hclear, h]

end SubscriptionTree

end TopicRouter
