import TopicRouter.Subscription.Tree

/-!
# Histories of the subscription tree

A history is a sequence of changes to a tree, of which each is answered.  A
change that is refused may be part of a history like any other.

The same changes can be made to a `Store`, which has no tree: it maps the
levels of a filter to the subscriptions of that filter.

## Main results

* `SubscriptionTree.run_append` — a history can be cut anywhere.
* `Store.put_same`, `Store.put_other` — a store is changed at one filter.
-/

namespace TopicRouter

universe u

/-- A change to the subscriptions. -/
inductive SubscriptionChange (σ : Type u) where
  | subscribe (filter : String) (qos : QoS) (subscriber : σ)
  | unsubscribe (filter : String) (subscriber? : Option σ)
deriving DecidableEq

/-- The filter that a change is about. -/
def SubscriptionChange.filter {σ : Type u} : SubscriptionChange σ → String
  | subscribe filter _ _ => filter
  | unsubscribe filter _ => filter

namespace SubscriptionTree

variable {σ : Type u} [Identity σ]

/-- Answers a change. A tree that refuses to unsubscribe is left as it was. -/
def apply (tree : SubscriptionTree σ) :
    SubscriptionChange σ → Except TopicError Unit × SubscriptionTree σ
  | .subscribe filter qos subscriber => tree.subscribe filter qos subscriber
  | .unsubscribe filter subscriber? =>
      match tree.unsubscribe filter subscriber? with
      | .ok changed => (.ok (), changed)
      | .error e => (.error e, tree)

/-- Answers changes in order. -/
def run (tree : SubscriptionTree σ) :
    List (SubscriptionChange σ) → List (Except TopicError Unit) × SubscriptionTree σ
  | [] => ([], tree)
  | change :: rest =>
      ((tree.apply change).1 :: ((tree.apply change).2.run rest).1,
        ((tree.apply change).2.run rest).2)

@[simp] theorem run_nil (tree : SubscriptionTree σ) : tree.run [] = ([], tree) := rfl

theorem run_cons (tree : SubscriptionTree σ) (change : SubscriptionChange σ)
    (rest : List (SubscriptionChange σ)) :
    tree.run (change :: rest) =
      ((tree.apply change).1 :: ((tree.apply change).2.run rest).1,
        ((tree.apply change).2.run rest).2) := rfl

theorem run_append (tree : SubscriptionTree σ)
    (first second : List (SubscriptionChange σ)) :
    tree.run (first ++ second) =
      ((tree.run first).1 ++ ((tree.run first).2.run second).1,
        ((tree.run first).2.run second).2) := by
  induction first generalizing tree with
  | nil => rfl
  | cons change rest ih => simp [run_cons, ih]

/-- The tree that a history leads to from an empty one. -/
def ofHistory (changes : List (SubscriptionChange σ)) : SubscriptionTree σ :=
  (run Tree.empty changes).2

end SubscriptionTree

/-! ## Subscriptions without a tree -/

/-- The subscriptions of each filter, in order. -/
abbrev Store (σ : Type u) := List Level → List (Subscription σ)

namespace Store

variable {σ : Type u}

/-- The store with other subscriptions of one filter. -/
def put (store : Store σ) (filter : List Level) (entries : List (Subscription σ)) :
    Store σ := fun other => if other = filter then entries else store other

@[simp] theorem put_same (store : Store σ) (filter : List Level)
    (entries : List (Subscription σ)) : store.put filter entries filter = entries := by
  simp [put]

theorem put_other (store : Store σ) {filter other : List Level}
    (entries : List (Subscription σ)) (hne : other ≠ filter) :
    store.put filter entries other = store other := by
  simp [put, hne]

/-- Answers a change.  Which filters have a place in a tree is not for the
store to know, and is given by `isPresent`. -/
def apply [Identity σ] (store : Store σ) (isPresent : List Level → Bool) :
    SubscriptionChange σ → Except TopicError Unit × Store σ
  | .subscribe filter qos subscriber =>
      let { levels, fault? } := scan filter
      match fault? with
      | some fault => (.error fault, store)
      | none => (.ok (), store.put levels (Subscription.grant subscriber qos (store levels)))
  | .unsubscribe filter subscriber? =>
      let { levels, fault? } := scan filter
      match isPresent levels, fault?, subscriber? with
      | false, _, _ => (.error (.subscriberNotFound filter), store)
      | true, some fault, _ => (.error fault, store)
      | true, none, none => (.ok (), store.put levels [])
      | true, none, some subscriber =>
          match Subscription.revoke? subscriber (store levels) with
          | some entries => (.ok (), store.put levels entries)
          | none => (.error (.subscriberNotFound filter), store)

end Store

end TopicRouter
