import Mathlib.Data.List.Induction
import TopicRouter.Subscription.History

/-!
# The subscription tree as a flat store

Seen by the entries at each path, a tree of subscriptions is a `Store`: a
change touches the entries of its own filter and of no other, and prunes
nothing that holds an entry.  What a change does to a store is said here by
rules, one for each outcome, which speak of the first entry of a subscriber
and not of the functions that look for it.

A store does not know which nodes a tree has.  Only clearing a whole filter
and removing at a faulty one ask for that, and their rules take it from the
tree that the same history leads to.

## Main results

* `Store.step_iff` — the rules allow exactly one outcome, the one computed by
  `Store.apply`.
* `SubscriptionTree.slot_apply` — a change of the tree is that change of its
  store of slots.
* `Store.run_iff` — the runs of the store are the histories of the tree.
-/

namespace TopicRouter

universe u

namespace Subscription

variable {σ : Type u} [Identity σ]

/-- `entry` is the first of the entries whose subscriber recognizes the given
one.  It is the stored side that is asked. -/
structure IsFirst (subscriber : σ) (entries before : List (Subscription σ))
    (entry : Subscription σ) (after : List (Subscription σ)) : Prop where
  split : entries = before ++ entry :: after
  recognizes : Identity.identical entry.subscriber subscriber = true
  others : ∀ other ∈ before, Identity.identical other.subscriber subscriber = false

/-- Either no entry recognizes the subscriber, or there is a first one. -/
theorem forall_or_isFirst (subscriber : σ) (entries : List (Subscription σ)) :
    (∀ entry ∈ entries, Identity.identical entry.subscriber subscriber = false) ∨
      ∃ before entry after, IsFirst subscriber entries before entry after := by
  induction entries with
  | nil => exact .inl fun entry hentry => by cases hentry
  | cons head rest ih =>
      cases hhead : Identity.identical head.subscriber subscriber with
      | true => exact .inr ⟨[], head, rest, rfl, hhead, fun other hother => by cases hother⟩
      | false =>
          rcases ih with hnone | ⟨before, entry, after, hfirst⟩
          · exact .inl (List.forall_mem_cons.2 ⟨hhead, hnone⟩)
          · refine .inr ⟨head :: before, entry, after, ?_, hfirst.recognizes, ?_⟩
            · rw [hfirst.split, List.cons_append]
            · exact List.forall_mem_cons.2 ⟨hhead, hfirst.others⟩

variable {subscriber : σ} {entries before after : List (Subscription σ)}
  {entry : Subscription σ}

theorem IsFirst.grant (h : IsFirst subscriber entries before entry after) (qos : QoS) :
    Subscription.grant subscriber qos entries =
      before ++ ⟨entry.subscriber, qos⟩ :: after := by
  rw [h.split]
  exact grant_of_first h.others h.recognizes

theorem IsFirst.revoke? (h : IsFirst subscriber entries before entry after) :
    Subscription.revoke? subscriber entries = some (before ++ after) := by
  rw [h.split]
  exact revoke?_eq_some h.others h.recognizes

theorem IsFirst.ne_nil (h : IsFirst subscriber entries before entry after) :
    entries ≠ [] := by
  rw [h.split]
  simp

end Subscription

namespace Store

variable {σ : Type u} [Identity σ]

open Subscription (IsFirst)

/-! ## The rules of the store -/

/-- The answer to a change and the store after it.  `hasNode` says which
paths have a node. -/
inductive Step (hasNode : List Level → Prop) (store : Store σ) :
    SubscriptionChange σ → Except TopicError Unit → Store σ → Prop where
  /-- A subscriber that is known keeps its entry, with the new quality. -/
  | renew {filter : String} {qos : QoS} {subscriber : σ} {levels : List Level}
      {before after : List (Subscription σ)} {entry : Subscription σ} :
      scan filter = ⟨levels, none⟩ →
      IsFirst subscriber (store levels) before entry after →
      Step hasNode store (.subscribe filter qos subscriber) (.ok ())
        (store.put levels (before ++ ⟨entry.subscriber, qos⟩ :: after))
  /-- A subscriber that is not known comes last. -/
  | add {filter : String} {qos : QoS} {subscriber : σ} {levels : List Level} :
      scan filter = ⟨levels, none⟩ →
      (∀ entry ∈ store levels, Identity.identical entry.subscriber subscriber = false) →
      Step hasNode store (.subscribe filter qos subscriber) (.ok ())
        (store.put levels (store levels ++ [⟨subscriber, qos⟩]))
  /-- Nobody subscribes to a faulty filter. -/
  | refuse {filter : String} {qos : QoS} {subscriber : σ} {fault : TopicError} :
      (scan filter).fault? = some fault →
      Step hasNode store (.subscribe filter qos subscriber) (.error fault) store
  /-- The first entry of the subscriber is taken out. -/
  | revoke {filter : String} {subscriber : σ} {levels : List Level}
      {before after : List (Subscription σ)} {entry : Subscription σ} :
      scan filter = ⟨levels, none⟩ →
      IsFirst subscriber (store levels) before entry after →
      Step hasNode store (.unsubscribe filter (some subscriber)) (.ok ())
        (store.put levels (before ++ after))
  /-- There is no entry to take out. -/
  | unknown {filter : String} {subscriber : σ} {levels : List Level} :
      scan filter = ⟨levels, none⟩ →
      (∀ entry ∈ store levels, Identity.identical entry.subscriber subscriber = false) →
      Step hasNode store (.unsubscribe filter (some subscriber))
        (.error (.subscriberNotFound filter)) store
  /-- All entries of a filter that has a node are taken out. -/
  | clear {filter : String} {levels : List Level} :
      scan filter = ⟨levels, none⟩ →
      hasNode levels →
      Step hasNode store (.unsubscribe filter none) (.ok ()) (store.put levels [])
  /-- A filter without a node cannot be cleared. -/
  | nothing {filter : String} {levels : List Level} :
      scan filter = ⟨levels, none⟩ →
      ¬ hasNode levels →
      Step hasNode store (.unsubscribe filter none)
        (.error (.subscriberNotFound filter)) store
  /-- The fault of a filter is met when the levels before it have a node. -/
  | meet {filter : String} {subscriber? : Option σ} {levels : List Level}
      {fault : TopicError} :
      scan filter = ⟨levels, some fault⟩ →
      hasNode levels →
      Step hasNode store (.unsubscribe filter subscriber?) (.error fault) store
  /-- The fault of a filter stays out of reach when they have none. -/
  | miss {filter : String} {subscriber? : Option σ} {levels : List Level}
      {fault : TopicError} :
      scan filter = ⟨levels, some fault⟩ →
      ¬ hasNode levels →
      Step hasNode store (.unsubscribe filter subscriber?)
        (.error (.subscriberNotFound filter)) store

/-- The runs of a store that is empty at first.  Which paths have a node is
read off the tree that the changes so far lead to. -/
inductive Run :
    List (SubscriptionChange σ) → List (Except TopicError Unit) → Store σ → Prop where
  | start : Run [] [] fun _ => []
  | step {changes : List (SubscriptionChange σ)} {change : SubscriptionChange σ}
      {answers : List (Except TopicError Unit)} {answer : Except TopicError Unit}
      {store store' : Store σ} :
      Run changes answers store →
      Step (fun levels => ((SubscriptionTree.ofHistory changes).at? levels).isSome)
        store change answer store' →
      Run (changes ++ [change]) (answers ++ [answer]) store'

/-! ## The rules allow one outcome -/

variable {store store' : Store σ} {isPresent : List Level → Bool}
  {change : SubscriptionChange σ} {answer : Except TopicError Unit}

/-- Whatever the rules allow is what `apply` computes. -/
theorem Step.apply_eq
    (hpresent : ∀ levels, store levels ≠ [] → isPresent levels = true)
    (h : Step (isPresent ·) store change answer store') :
    store.apply isPresent change = (answer, store') := by
  cases h with
  | renew hscan hfirst => simp [apply, hscan, hfirst.grant]
  | add hscan hnone => simp [apply, hscan, Subscription.grant_of_none hnone]
  | refuse hfault => simp [apply, hfault]
  | revoke hscan hfirst =>
      simp [apply, hscan, hpresent _ hfirst.ne_nil, hfirst.revoke?]
  | unknown hscan hnone =>
      have hrevoke := Subscription.revoke?_eq_none.2 hnone
      simp only [apply, hscan]
      cases isPresent _ <;> simp [hrevoke]
  | clear hscan hnode => simp [apply, hscan, hnode]
  | nothing hscan hnode => simp [apply, hscan, Bool.eq_false_iff.2 hnode]
  | meet hscan hnode => simp [apply, hscan, hnode]
  | miss hscan hnode => simp [apply, hscan, Bool.eq_false_iff.2 hnode]

/-- What `apply` computes is allowed by the rules. -/
theorem step_apply (store : Store σ) (isPresent : List Level → Bool)
    (hpresent : ∀ levels, store levels ≠ [] → isPresent levels = true)
    (change : SubscriptionChange σ) :
    Step (isPresent ·) store change (store.apply isPresent change).1
      (store.apply isPresent change).2 := by
  -- One rule fits each case, and it determines what `apply` gives there.
  suffices ∃ answer store', Step (isPresent ·) store change answer store' by
    obtain ⟨answer, store', hstep⟩ := this
    rw [hstep.apply_eq hpresent]
    exact hstep
  cases change with
  | subscribe filter qos subscriber =>
      cases hscan : scan filter with
      | mk levels fault? =>
      cases fault? with
      | some fault => exact ⟨_, _, .refuse (by rw [hscan])⟩
      | none =>
          rcases Subscription.forall_or_isFirst subscriber (store levels) with
            hnone | ⟨before, entry, after, hfirst⟩
          · exact ⟨_, _, .add hscan hnone⟩
          · exact ⟨_, _, .renew hscan hfirst⟩
  | unsubscribe filter subscriber? =>
      cases hscan : scan filter with
      | mk levels fault? =>
      cases fault? with
      | some fault =>
          by_cases hnode : isPresent levels = true
          · exact ⟨_, _, .meet hscan hnode⟩
          · exact ⟨_, _, .miss hscan hnode⟩
      | none =>
          cases subscriber? with
          | some subscriber =>
              rcases Subscription.forall_or_isFirst subscriber (store levels) with
                hnone | ⟨before, entry, after, hfirst⟩
              · exact ⟨_, _, .unknown hscan hnone⟩
              · exact ⟨_, _, .revoke hscan hfirst⟩
          | none =>
              by_cases hnode : isPresent levels = true
              · exact ⟨_, _, .clear hscan hnode⟩
              · exact ⟨_, _, .nothing hscan hnode⟩

/-- **The rules allow exactly one outcome**, provided that every filter with
entries has a node. -/
theorem step_iff (hpresent : ∀ levels, store levels ≠ [] → isPresent levels = true) :
    Step (isPresent ·) store change answer store' ↔
      store.apply isPresent change = (answer, store') := by
  constructor
  · exact Step.apply_eq hpresent
  · intro h
    have hstep := step_apply store isPresent hpresent change
    rwa [h] at hstep

end Store

namespace SubscriptionTree

variable {σ : Type u}

/-! ## The tree keeps to the rules -/

/-- Entries are stored at nodes. -/
theorem isSome_at?_of_slot_ne_nil {tree : SubscriptionTree σ} {path : List Level}
    (h : tree.slot path ≠ []) : (tree.at? path).isSome = true := by
  cases hat : tree.at? path with
  | some found => rfl
  | none => exact absurd (Tree.slot_of_at?_eq_none hat) h

theorem slot_grow_eq_put (tree : SubscriptionTree σ) (path : List Level)
    (update : List (Subscription σ) → List (Subscription σ)) :
    (tree.grow path update).slot = Store.put tree.slot path (update (tree.slot path)) := by
  funext other
  rw [Tree.slot_grow, Store.put]

theorem slot_edit_eq_put {tree tree' : SubscriptionTree σ} {path : List Level}
    {missing : TopicError}
    {update : List (Subscription σ) → Except TopicError (List (Subscription σ))}
    {entries : List (Subscription σ)} (hupdate : update (tree.slot path) = .ok entries)
    (h : tree.edit path missing update = .ok tree') :
    tree'.slot = Store.put tree.slot path entries := by
  obtain ⟨hat, hother⟩ := Tree.slot_edit h
  rw [hupdate] at hat
  funext other
  by_cases heq : other = path
  · rw [heq, Store.put_same]
    exact (Except.ok.inj hat).symm
  · rw [Store.put_other _ _ heq, hother other heq]

variable [Identity σ]

/-! ### The outcomes of unsubscribing -/

section Unsubscribe

variable {tree : SubscriptionTree σ} {filter : String} {subscriber? : Option σ}

private theorem apply_unsubscribe_of_error {e : TopicError}
    (h : tree.unsubscribe filter subscriber? = .error e) :
    tree.apply (.unsubscribe filter subscriber?) = (.error e, tree) := by
  rw [apply, h]

theorem apply_unsubscribe_of_missing (hnode : tree.at? (scan filter).levels = none) :
    tree.apply (.unsubscribe filter subscriber?) =
      (.error (.subscriberNotFound filter), tree) :=
  apply_unsubscribe_of_error (Tree.edit_of_at?_eq_none hnode _ _)

theorem apply_unsubscribe_of_fault {fault : TopicError}
    (hnode : (tree.at? (scan filter).levels).isSome = true)
    (hfault : (scan filter).fault? = some fault) :
    tree.apply (.unsubscribe filter subscriber?) = (.error fault, tree) := by
  apply apply_unsubscribe_of_error
  rw [unsubscribe, Tree.remove_of_fault hfault]
  obtain ⟨found, hat⟩ := Option.isSome_iff_exists.1 hnode
  exact Tree.edit_eq_error_iff.2 (.inr ⟨found, hat, rfl⟩)

theorem apply_unsubscribe_of_refused {e : TopicError}
    (hnode : (tree.at? (scan filter).levels).isSome = true)
    (hfault : (scan filter).fault? = none)
    (hwithdraw : withdraw filter subscriber? (tree.slot (scan filter).levels) = .error e) :
    tree.apply (.unsubscribe filter subscriber?) = (.error e, tree) := by
  apply apply_unsubscribe_of_error
  rw [unsubscribe, Tree.remove_of_no_fault hfault]
  obtain ⟨found, hat⟩ := Option.isSome_iff_exists.1 hnode
  rw [Tree.slot_of_at?_eq_some hat] at hwithdraw
  exact Tree.edit_eq_error_iff.2 (.inr ⟨found, hat, hwithdraw⟩)

theorem apply_unsubscribe_of_withdrawn {entries : List (Subscription σ)}
    (hnode : (tree.at? (scan filter).levels).isSome = true)
    (hfault : (scan filter).fault? = none)
    (hwithdraw :
      withdraw filter subscriber? (tree.slot (scan filter).levels) = .ok entries) :
    (tree.apply (.unsubscribe filter subscriber?)).1 = .ok () ∧
      (tree.apply (.unsubscribe filter subscriber?)).2.slot =
        Store.put tree.slot (scan filter).levels entries := by
  rcases Tree.edit_of_isSome_at? hnode (.subscriberNotFound filter)
      (withdraw filter subscriber?) with
    ⟨e, hupdate, _⟩ | ⟨_, tree', _, hedit⟩
  · rw [hwithdraw] at hupdate
    cases hupdate
  · rw [apply, unsubscribe, Tree.remove_of_no_fault hfault, hedit]
    exact ⟨rfl, slot_edit_eq_put hwithdraw hedit⟩

/-- Taking entries out of a store at a filter that has a place there. -/
private theorem store_apply_unsubscribe (store : Store σ)
    {isPresent : List Level → Bool} (hnode : isPresent (scan filter).levels = true)
    (hfault : (scan filter).fault? = none) :
    store.apply isPresent (.unsubscribe filter subscriber?) =
      match withdraw filter subscriber? (store (scan filter).levels) with
      | .ok entries => (.ok (), store.put (scan filter).levels entries)
      | .error e => (.error e, store) := by
  simp only [Store.apply, hnode, hfault]
  cases subscriber? with
  | none => rfl
  | some subscriber =>
      cases hrevoke : Subscription.revoke? subscriber (store (scan filter).levels) <;>
        simp [withdraw, hrevoke]

end Unsubscribe

/-- **A change of the tree is a change of its slots**, with the same answer. -/
theorem slot_apply (tree : SubscriptionTree σ) (change : SubscriptionChange σ) :
    Store.apply tree.slot (fun levels => (tree.at? levels).isSome) change =
      ((tree.apply change).1, (tree.apply change).2.slot) := by
  cases change with
  | subscribe filter qos subscriber =>
      simp only [Store.apply, apply, subscribe, Tree.insert]
      cases (scan filter).fault? with
      | some fault => simp [Tree.slot_grow_id]
      | none => simp [slot_grow_eq_put]
  | unsubscribe filter subscriber? =>
      cases hnode : (tree.at? (scan filter).levels).isSome with
      | false =>
          have hmissing := hnode
          rw [Option.isSome_eq_false_iff, Option.isNone_iff_eq_none] at hmissing
          rw [apply_unsubscribe_of_missing hmissing]
          simp [Store.apply, hnode]
      | true =>
          cases hfault : (scan filter).fault? with
          | some fault =>
              rw [apply_unsubscribe_of_fault hnode hfault]
              simp [Store.apply, hnode, hfault]
          | none =>
              rw [store_apply_unsubscribe tree.slot hnode hfault]
              cases hwithdraw :
                withdraw filter subscriber? (tree.slot (scan filter).levels) with
              | error e => rw [apply_unsubscribe_of_refused hnode hfault hwithdraw]
              | ok entries =>
                  obtain ⟨hanswer, hslot⟩ :=
                    apply_unsubscribe_of_withdrawn hnode hfault hwithdraw
                  rw [hanswer, hslot]

/-- A step of the store of slots is the step of the tree. -/
theorem step_slot_iff {tree : SubscriptionTree σ} {change : SubscriptionChange σ}
    {answer : Except TopicError Unit} {store : Store σ} :
    Store.Step (fun levels => (tree.at? levels).isSome) tree.slot change answer store ↔
      (tree.apply change).1 = answer ∧ (tree.apply change).2.slot = store := by
  rw [Store.step_iff fun levels => isSome_at?_of_slot_ne_nil, slot_apply, Prod.mk.injEq]

theorem ofHistory_append_singleton (changes : List (SubscriptionChange σ))
    (change : SubscriptionChange σ) :
    ofHistory (changes ++ [change]) = ((ofHistory changes).apply change).2 := by
  rw [ofHistory, run_append]
  rfl

theorem answers_append_singleton (changes : List (SubscriptionChange σ))
    (change : SubscriptionChange σ) :
    (run Tree.empty (changes ++ [change])).1 =
      (run Tree.empty changes).1 ++ [((ofHistory changes).apply change).1] := by
  rw [run_append]
  rfl

end SubscriptionTree

/-! ## Whole histories -/

namespace Store

variable {σ : Type u} [Identity σ]

/-- The history of a tree is a run of a store. -/
theorem run_ofHistory (changes : List (SubscriptionChange σ)) :
    Run changes (SubscriptionTree.run Tree.empty changes).1
      (SubscriptionTree.ofHistory changes).slot := by
  induction changes using List.reverseRecOn with
  | nil =>
      have hslot : (SubscriptionTree.ofHistory ([] : List (SubscriptionChange σ))).slot =
          fun _ => [] := funext Tree.slot_empty
      rw [hslot]
      exact .start
  | append_singleton changes change ih =>
      rw [SubscriptionTree.answers_append_singleton,
        SubscriptionTree.ofHistory_append_singleton]
      exact .step ih (SubscriptionTree.step_slot_iff.2 ⟨rfl, rfl⟩)

/-- **The subscription tree refines the flat store.**  A run of the store
gives the answers of the tree and ends with the entries of the tree at every
path, and each history of the tree is such a run. -/
theorem run_iff (changes : List (SubscriptionChange σ))
    (answers : List (Except TopicError Unit)) (store : Store σ) :
    Run changes answers store ↔
      (SubscriptionTree.run Tree.empty changes).1 = answers ∧
        ∀ path, (SubscriptionTree.ofHistory changes).slot path = store path := by
  constructor
  · intro h
    induction h with
    | start => exact ⟨rfl, fun path => Tree.slot_empty path⟩
    | @step changes change answers answer store store' _ hstep ih =>
        obtain ⟨hanswers, hslot⟩ := ih
        rw [← funext hslot, SubscriptionTree.step_slot_iff] at hstep
        obtain ⟨hanswer, hslot'⟩ := hstep
        rw [SubscriptionTree.answers_append_singleton,
          SubscriptionTree.ofHistory_append_singleton, hanswers, hanswer]
        exact ⟨rfl, fun path => by rw [hslot']⟩
  · rintro ⟨rfl, hslot⟩
    rw [← funext hslot]
    exact run_ofHistory changes

end Store

end TopicRouter
