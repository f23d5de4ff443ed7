import TopicRouter.Proofs.Retained.Keeping
import TopicRouter.Proofs.Subscription.Pruning

/-!
# Undoing a change

Growing a tree creates the nodes of a path that are missing, as few or as many
as there are.  Editing at the same path drops the nodes that are empty when the
old value is back.  In a pruned tree these are the nodes that were created and
no others, since every node that was there before leads to some value.  So the
edit gives back the very tree, and not only its values.

This needs no help from the topic: it may be written in another way the second
time, as long as it is read as the same levels.

## Main results

* `Tree.edit_grow` — an edit that puts the old value back undoes growing.
* `RetainedTree.pruned_run` — a history in which every message was taken leaves
  no empty nodes.
* `removing_undoes_inserting` — a new subscriber that leaves again, and a new
  message that is cleared again, leave no trace.
-/

namespace TopicRouter

universe u

/-! ## Branches that are put and put back -/

namespace Branches

variable {α : Type u}

theorem put_put (level : Level) (a b : α) (branches : List (Level × α)) :
    put level b (put level a branches) = put level b branches := by
  induction branches with
  | nil => simp [put]
  | cons branch rest ih =>
      by_cases hkey : branch.1 = level
      · simp [put, hkey]
      · simp [put, hkey, ih]

theorem put_of_lookup_eq_some {level : Level} {a : α} {branches : List (Level × α)}
    (h : branches.lookup level = some a) : put level a branches = branches := by
  induction branches with
  | nil => cases h
  | cons branch rest ih =>
      obtain ⟨key, b⟩ := branch
      by_cases hkey : key = level
      · subst hkey
        rw [List.lookup_cons_self] at h
        simp [put, Option.some.inj h]
      · rw [List.lookup_cons, beq_eq_false_iff_ne.2 (Ne.symm hkey)] at h
        simp [put, hkey, ih h]

theorem drop_put (level : Level) (a : α) (branches : List (Level × α)) :
    drop level (put level a branches) = drop level branches := by
  induction branches with
  | nil => simp [put, drop]
  | cons branch rest ih =>
      by_cases hkey : branch.1 = level
      · simp [put, drop, hkey]
      · simpa [put, drop, hkey] using ih

theorem drop_of_lookup_eq_none {level : Level} {branches : List (Level × α)}
    (h : branches.lookup level = none) : drop level branches = branches := by
  refine List.filter_eq_self.2 fun branch hbranch => ?_
  have hkey := List.lookup_eq_none_iff.1 h branch hbranch
  rw [bne_iff_ne] at hkey
  exact decide_eq_true (Ne.symm hkey)

end Branches

/-! ## Growing and editing at one path -/

namespace Tree

variable {α : Type u} [Slot α] {tree : Tree α}

/-- A branch that was there and is not empty is put back, and an empty one that
was not there is dropped. -/
theorem prune_put_of_child? {level : Level} {child : Tree α}
    (h : tree.child? level = some child ∧ child.isEmpty = false ∨
      tree.child? level = none ∧ child = empty) (grown : Tree α) :
    prune level child (Branches.put level grown tree.branches) = tree.branches := by
  rcases h with ⟨hchild, hfull⟩ | ⟨hmissing, rfl⟩
  · rw [prune, hfull, if_neg Bool.false_ne_true, Branches.put_put,
      Branches.put_of_lookup_eq_some hchild]
  · rw [prune, isEmpty_iff.2 rfl, if_pos rfl, Branches.drop_put,
      Branches.drop_of_lookup_eq_none hmissing]

/-- **Editing undoes growing** in a pruned tree, if it puts back the value that
was at the path before. -/
theorem edit_grow {ε : Type} (h : Pruned tree) {path : List Level} {update : α → α}
    {restore : α → Except ε α}
    (hrestore : restore (update (tree.slot path)) = .ok (tree.slot path)) (missing : ε) :
    (tree.grow path update).edit path missing restore = .ok tree := by
  induction path generalizing tree with
  | nil =>
      have hvalue : restore (node (update tree.value) tree.branches).value = .ok tree.value :=
        hrestore
      rw [grow, edit, hvalue]
      cases tree
      rfl
  | cons level path ih =>
      rw [slot_cons] at hrestore
      have hchild : tree.child? level = some ((tree.child? level).getD empty) ∧
            ((tree.child? level).getD empty).isEmpty = false ∨
          tree.child? level = none ∧ (tree.child? level).getD empty = empty := by
        cases hold : tree.child? level with
        | none => exact .inr ⟨rfl, rfl⟩
        | some child =>
            exact .inl ⟨rfl, Bool.eq_false_iff.2 (EmptyWithin.iff_child.1 h level child hold).1⟩
      have hpruned : Pruned ((tree.child? level).getD empty) := by
        cases hold : tree.child? level with
        | none => exact .empty
        | some child => exact (EmptyWithin.iff_child.1 h level child hold).2
      have hgrown : (tree.grow (level :: path) update).child? level =
          some (((tree.child? level).getD empty).grow path update) := by
        rw [grow, child?_put, if_pos rfl]
      have hbranches := prune_put_of_child? hchild
        (((tree.child? level).getD empty).grow path update)
      simp only [edit, hgrown, ih hpruned hrestore]
      cases tree
      exact congrArg (fun branches => Except.ok (node _ branches)) hbranches

end Tree

/-! ## Subscriptions -/

namespace SubscriptionTree

variable {σ : Type u} [Identity σ] {tree : SubscriptionTree σ} {topic topic' : String}
  {levels : List Level}

/-- A subscriber that no entry passes for is added and taken out again. -/
theorem withdraw_grant {subscriber : σ} {entries : List (Subscription σ)}
    (hself : Identity.identical subscriber subscriber = true)
    (hnew : ∀ entry ∈ entries, entry.isFor subscriber = false) (qos : QoS) (filter : String) :
    withdraw filter (some subscriber) (Subscription.grant subscriber qos entries) =
      .ok entries := by
  have hrevoke : Subscription.revoke? subscriber (entries ++ [⟨subscriber, qos⟩]) =
      some (entries ++ []) := Subscription.revoke?_eq_some hnew hself
  rw [List.append_nil] at hrevoke
  rw [withdraw, Subscription.grant_of_none hnew]
  simp only [hrevoke]

theorem unsubscribe_subscribe (h : Tree.Pruned tree) (hscan : scan topic = ⟨levels, none⟩)
    (hscan' : scan topic' = ⟨levels, none⟩) {subscriber : σ}
    (hself : Identity.identical subscriber subscriber = true)
    (hnew : ∀ entry ∈ tree.slot levels, entry.isFor subscriber = false) (qos : QoS) :
    ∃ grown, tree.subscribe topic qos subscriber = (.ok (), grown) ∧
      grown.unsubscribe topic' (some subscriber) = .ok tree := by
  refine ⟨tree.grow levels (Subscription.grant subscriber qos), ?_, ?_⟩
  · rw [subscribe, hscan, Tree.insert]
  · rw [unsubscribe, hscan', Tree.remove_of_no_fault rfl]
    exact Tree.edit_grow h (withdraw_grant hself hnew qos topic') _

end SubscriptionTree

/-! ## Retained messages -/

namespace RetainedTree

variable {tree : RetainedTree} {topic topic' : String} {levels : List Level}

theorem clear_keep (h : Tree.Pruned tree) (hscan : scan topic = ⟨levels, none⟩)
    (hscan' : scan topic' = ⟨levels, none⟩) (hfree : tree.slot levels = none)
    (message : Message) :
    ∃ grown, tree.keep topic message = (.ok (), grown) ∧ grown.clear topic' = .ok tree := by
  refine ⟨tree.grow levels fun kept => kept.or (some message), ?_, ?_⟩
  · rw [keep, hscan, Tree.insert]
  · have hrestore : (.ok none : Except TopicError (Option Message)) = .ok (tree.slot levels) := by
      rw [hfree]
    rw [clear, hscan', Tree.remove_of_no_fault rfl]
    exact Tree.edit_grow h hrestore _

/-- The changes of a history, each with its answer. -/
def log (changes : List RetainedChange) : List (RetainedChange × Except TopicError Unit) :=
  changes.zip (run Tree.empty changes).1

/-- A history in which every message was taken leaves no empty nodes. -/
theorem pruned_run (h : Tree.Pruned tree) {changes : List RetainedChange}
    (htaken : ∀ topic message e,
      (.keep topic message, .error e) ∉ changes.zip (tree.run changes).1) :
    Tree.Pruned (tree.run changes).2 := by
  induction changes generalizing tree with
  | nil => exact h
  | cons change rest ih =>
      rw [run_cons, List.zip_cons_cons] at htaken
      have hkeep : ∀ topic message, change = .keep topic message →
          (scan topic).fault? = none := by
        rintro topic message rfl
        by_contra hfault
        obtain ⟨fault, hfault⟩ := Option.ne_none_iff_exists'.1 hfault
        refine htaken topic message fault (List.mem_cons.2 (.inl ?_))
        rw [apply, keep, Tree.insert_fst, Scan.outcome, hfault]
      rw [run_cons]
      exact ih (pruned_apply h hkeep) fun topic message e hmem =>
        htaken topic message e (List.mem_cons_of_mem _ hmem)

end RetainedTree

/-- **Removing undoes inserting.**  Where no subscription was refused, a
subscriber that passes for itself, and that no entry of a filter passes for, can
be subscribed to that filter and be taken out again under the same filter or one
that is read alike.  Both are granted, and the tree is what it was before.  It is
the same with a message that is kept at a free place and cleared again. -/
theorem removing_undoes_inserting {σ : Type u} [Identity σ] {topic topic' : String}
    {levels : List Level} (hscan : scan topic = ⟨levels, none⟩)
    (hscan' : scan topic' = ⟨levels, none⟩) :
    (∀ (changes : List (SubscriptionChange σ)) (qos : QoS) (subscriber : σ),
      (∀ filter qos subscriber e,
        (.subscribe filter qos subscriber, .error e) ∉ SubscriptionTree.log changes) →
      Identity.identical subscriber subscriber = true →
      (∀ entry ∈ (SubscriptionTree.ofHistory changes).slot levels,
        Identity.identical entry.subscriber subscriber = false) →
      ∃ grown,
        (SubscriptionTree.ofHistory changes).subscribe topic qos subscriber = (.ok (), grown) ∧
        grown.unsubscribe topic' (some subscriber) = .ok (SubscriptionTree.ofHistory changes)) ∧
    (∀ (changes : List RetainedChange) (message : Message),
      (∀ topic message e, (.keep topic message, .error e) ∉ RetainedTree.log changes) →
      (RetainedTree.ofHistory changes).slot levels = none →
      ∃ grown, (RetainedTree.ofHistory changes).keep topic message = (.ok (), grown) ∧
        grown.clear topic' = .ok (RetainedTree.ofHistory changes)) := by
  constructor
  · intro changes qos subscriber hgranted hself hnew
    exact SubscriptionTree.unsubscribe_subscribe (SubscriptionTree.pruned_ofHistory hgranted)
      hscan hscan' hself hnew qos
  · intro changes message htaken hfree
    exact RetainedTree.clear_keep (RetainedTree.pruned_run .empty htaken) hscan hscan' hfree
      message

/-- Both walk a path that is there in part, and create the rest of it.  The
topic is written with an empty level the first time, and with a separator at its
end the second time. -/
theorem removing_undoes_inserting_empty_level :
    let x : Handle := .text .owned "x"
    let y : Handle := .text .shared "x"
    let levels : List Level := [.literal "a", .single, .literal "c"]
    let changes : List (SubscriptionChange Handle) :=
      [.subscribe "a/+/c" .atMostOnce y, .subscribe "a/b" .atLeastOnce x,
        .unsubscribe "a/+/c/#d" none, .unsubscribe "a/b" none]
    let message := Message.retained "a//c" .atMostOnce ⟨#[1]⟩
    let messages : List RetainedChange := [.keep "a/b" message, .clear "b", .clear "a"]
    scan "a//c" = ⟨levels, none⟩ ∧ scan "a/+/c/" = ⟨levels, none⟩ ∧
      (∀ filter qos subscriber e,
        (.subscribe filter qos subscriber, .error e) ∉ SubscriptionTree.log changes) ∧
      Identity.identical x x = true ∧
      (SubscriptionTree.ofHistory changes).slot levels = [⟨y, .atMostOnce⟩] ∧
      (∀ entry ∈ (SubscriptionTree.ofHistory changes).slot levels,
        Identity.identical entry.subscriber x = false) ∧
      (∃ grown,
        (SubscriptionTree.ofHistory changes).subscribe "a//c" .exactlyOnce x =
          (.ok (), grown) ∧
        grown.unsubscribe "a/+/c/" (some x) = .ok (SubscriptionTree.ofHistory changes)) ∧
      (∀ topic message e, (.keep topic message, .error e) ∉ RetainedTree.log messages) ∧
      (RetainedTree.ofHistory messages).slot levels = none ∧
      ∃ grown, (RetainedTree.ofHistory messages).keep "a//c" message = (.ok (), grown) ∧
        grown.clear "a/+/c/" = .ok (RetainedTree.ofHistory messages) := by
  intro x y levels changes message messages
  have hscan : scan "a//c" = ⟨levels, none⟩ := by decide +kernel
  have hscan' : scan "a/+/c/" = ⟨levels, none⟩ := by decide +kernel
  have hlog : SubscriptionTree.log changes =
      [(.subscribe "a/+/c" .atMostOnce y, .ok ()), (.subscribe "a/b" .atLeastOnce x, .ok ()),
        (.unsubscribe "a/+/c/#d" none, .error (.malformed "#d" .wildcardNotWhole)),
        (.unsubscribe "a/b" none, .ok ())] := by decide +kernel
  have hgranted : ∀ filter qos subscriber e,
      (.subscribe filter qos subscriber, .error e) ∉ SubscriptionTree.log changes := by
    intro filter qos subscriber e
    simp [hlog]
  have hself : Identity.identical x x = true := by decide
  have hslot : (SubscriptionTree.ofHistory changes).slot levels = [⟨y, .atMostOnce⟩] := by
    decide +kernel
  have hnew : ∀ entry ∈ (SubscriptionTree.ofHistory changes).slot levels,
      Identity.identical entry.subscriber x = false := by
    rw [hslot]
    decide
  have hlog' : RetainedTree.log messages =
      [(.keep "a/b" message, .ok ()), (.clear "b", .error (.topicNotFound "b")),
        (.clear "a", .ok ())] := by decide +kernel
  have htaken : ∀ topic message e,
      (.keep topic message, .error e) ∉ RetainedTree.log messages := by
    intro topic message e
    simp [hlog']
  have hfree : (RetainedTree.ofHistory messages).slot levels = none := by decide +kernel
  obtain ⟨hsubscriptions, hmessages⟩ := removing_undoes_inserting (σ := Handle) hscan hscan'
  exact ⟨hscan, hscan', hgranted, hself, hslot, hnew,
    hsubscriptions changes .exactlyOnce x hgranted hself hnew, htaken, hfree,
    hmessages messages message htaken hfree⟩

end TopicRouter
