import TopicRouter.Router.Session

/-!
# The contents of a router

What an open router has stored are the trees of its subscriptions and of its
messages.  As it never has one without the other, it has contents or else has
neither tree, and whatever a request does to one tree can be seen as a change of
the contents.

## Main results

* `Router.subscriptions?_eq`, `Router.retained?_eq` — the trees are those of the
  contents.
* `Router.isClosed_eq` — a router is closed if it has no contents.
* `Router.storeSubscriptions_of_open`, `Router.storeRetained_of_open` — a tree
  that is stored replaces one of the contents.
-/

namespace TopicRouter

universe u

variable {σ : Type u}

/-- What an open router has stored. -/
structure Contents (σ : Type u) where
  subscriptions : SubscriptionTree σ := Tree.empty
  retained : RetainedTree := Tree.empty
deriving DecidableEq

namespace Router

/-- The contents of a router, of which a closed one has none. -/
def contents? (router : Router σ) : Option (Contents σ) :=
  match router.subscriptions?, router.retained? with
  | some subscriptions, some retained => some { subscriptions, retained }
  | _, _ => none

/-- The open router with these contents. -/
def store (router : Router σ) (contents : Contents σ) : Router σ :=
  { router with
    subscriptions? := some contents.subscriptions
    retained? := some contents.retained
    open_together := rfl }

theorem subscriptions?_eq (router : Router σ) :
    router.subscriptions? = router.contents?.map Contents.subscriptions := by
  obtain ⟨settings, subscriptions?, retained?, htogether⟩ := router
  cases subscriptions? with
  | none => rfl
  | some subscriptions =>
      cases retained? with
      | none => cases htogether
      | some retained => rfl

theorem retained?_eq (router : Router σ) :
    router.retained? = router.contents?.map Contents.retained := by
  obtain ⟨settings, subscriptions?, retained?, htogether⟩ := router
  cases retained? with
  | none =>
      cases subscriptions? with
      | none => rfl
      | some subscriptions => cases htogether
  | some retained =>
      cases subscriptions? with
      | none => cases htogether
      | some subscriptions => rfl

/-- Both trees are gone exactly if there are no contents. -/
theorem isClosed_eq (router : Router σ) : router.isClosed = router.contents?.isNone := by
  rw [isClosed, subscriptions?_eq, retained?_eq, Option.isNone_map, Option.isNone_map,
    Bool.and_self]

variable {router : Router σ} {contents : Contents σ}

theorem store_of_open (hopen : router.contents? = some contents) :
    router.store contents = router := by
  have hsubscriptions := router.subscriptions?_eq
  have hretained := router.retained?_eq
  rw [hopen, Option.map_some] at hsubscriptions hretained
  simp only [store, ← hsubscriptions, ← hretained]

theorem storeSubscriptions_of_open (hopen : router.contents? = some contents)
    (subscriptions : SubscriptionTree σ) :
    router.storeSubscriptions subscriptions = router.store { contents with subscriptions } := by
  have hretained := router.retained?_eq
  rw [hopen, Option.map_some] at hretained
  simp only [storeSubscriptions, store, router.subscriptions?_eq, hopen, hretained,
    Option.map_some]

theorem storeRetained_of_open (hopen : router.contents? = some contents)
    (retained : RetainedTree) :
    router.storeRetained retained = router.store { contents with retained } := by
  have hsubscriptions := router.subscriptions?_eq
  rw [hopen, Option.map_some] at hsubscriptions
  simp only [storeRetained, store, router.retained?_eq, hopen, hsubscriptions, Option.map_some]

end Router

end TopicRouter
