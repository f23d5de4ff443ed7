import TopicRouter.Proofs.Topic.Grammar
import TopicRouter.Proofs.Tree.Pruned
import TopicRouter.Retained.History

/-!
# Keeping and clearing messages

A place for a message is free or taken, and a message is kept only at a free
place.  A message without a payload clears its place instead.  Either way no
other place changes.

Clearing asks for a node, not for a message: the place may be free and yet
lead to messages further down.  In a pruned tree of messages that are filed
under their own topics, there is a node exactly where some stored message has
a topic that goes on from there.

## Main results

* `RetainedTree.slot_apply_ofMessage` — what a message makes of each place.
* `RetainedTree.apply_ofMessage_cases` — how a message is answered.
* `RetainedTree.isSome_at?_iff_holdsWithin` — where there are nodes.
* `RetainedTree.Tidy.apply` — no node is left without a message.
-/

namespace TopicRouter

/-- The levels of the topic of a message. -/
def Message.levels (message : Message) : List Level := (scan message.topic).levels

/-- What a message to be retained asks for.  One without a payload clears. -/
def RetainedChange.ofMessage (message : Message) : RetainedChange :=
  if message.payload.isEmpty then .clear message.topic else .keep message.topic message

namespace RetainedTree

variable {tree tree' : RetainedTree} {message : Message}

/-- Some stored message has a topic that is the given one or goes on from it. -/
def HoldsWithin (tree : RetainedTree) (levels : List Level) : Prop :=
  ∃ path kept, tree.slot path = some kept ∧ levels <+: kept.levels

/-! ## What changes -/

theorem slot_keep {topic : String} (hfault : (scan topic).fault? = none) (message : Message)
    (path : List Level) :
    (tree.keep topic message).2.slot path =
      if path = (scan topic).levels then (tree.slot path).or (some message)
      else tree.slot path := by
  have hscan : scan topic = ⟨path, none⟩ ↔ path = (scan topic).levels := by
    rw [← hfault, eq_comm, Scan.mk.injEq]
    simp
  rw [keep, Tree.slot_insert]
  simp only [hscan]

/-- Clearing needs a node. -/
theorem clear_cases {topic : String} (hfault : (scan topic).fault? = none)
    (tree : RetainedTree) :
    (tree.at? (scan topic).levels = none ∧
        tree.clear topic = .error (.topicNotFound topic)) ∨
      ((tree.at? (scan topic).levels).isSome = true ∧
        ∃ tree', tree.clear topic = .ok tree' ∧
          ∀ path, tree'.slot path =
            if path = (scan topic).levels then none else tree.slot path) := by
  rw [clear, Tree.remove_of_no_fault hfault]
  cases hnode : tree.at? (scan topic).levels with
  | none => exact .inl ⟨rfl, Tree.edit_of_at?_eq_none hnode _ _⟩
  | some found =>
      have hsome : (tree.at? (scan topic).levels).isSome = true := by rw [hnode]; rfl
      refine .inr ⟨rfl, ?_⟩
      rcases Tree.edit_of_isSome_at? hsome (.topicNotFound topic)
          (fun _ => (.ok none : Except TopicError (Option Message))) with
        ⟨e, he, _⟩ | ⟨_, tree', _, hedit⟩
      · cases he
      · obtain ⟨hcleared, hother⟩ := Tree.slot_edit hedit
        refine ⟨tree', hedit, fun path => ?_⟩
        split
        · rename_i heq
          rw [heq, ← Except.ok.inj hcleared]
        · exact hother path ‹_›

/-- **What a message makes of each place.** -/
theorem slot_apply_ofMessage (hfault : (scan message.topic).fault? = none)
    (tree : RetainedTree) (path : List Level) :
    (tree.apply (.ofMessage message)).2.slot path =
      if path = message.levels then
        if message.payload.isEmpty then none else (tree.slot path).or (some message)
      else tree.slot path := by
  rw [RetainedChange.ofMessage, Message.levels]
  cases message.payload.isEmpty with
  | false => exact slot_keep hfault message path
  | true =>
      rcases clear_cases hfault tree with ⟨hnode, hclear⟩ | ⟨_, tree', hclear, hslot⟩
      · -- Without a node the place was free already.
        simp only [apply, hclear, if_true]
        split
        · rename_i heq
          rw [heq]
          exact Tree.slot_of_at?_eq_none hnode
        · rfl
      · simp only [apply, hclear, if_true]
        exact hslot path

/-- **How a message is answered.** -/
theorem apply_ofMessage_cases (hfault : (scan message.topic).fault? = none)
    (tree : RetainedTree) :
    (tree.apply (.ofMessage message)).1 = .ok () ∧
        (message.payload.isEmpty = true → (tree.at? message.levels).isSome = true) ∨
      message.payload.isEmpty = true ∧ tree.at? message.levels = none ∧
        tree.apply (.ofMessage message) = (.error (.topicNotFound message.topic), tree) := by
  rw [RetainedChange.ofMessage, Message.levels]
  cases message.payload.isEmpty with
  | false =>
      refine .inl ⟨?_, fun h => by cases h⟩
      rw [if_neg Bool.false_ne_true, apply, keep, Tree.insert_fst, Scan.outcome, hfault]
  | true =>
      rcases clear_cases hfault tree with ⟨hnode, hclear⟩ | ⟨hnode, tree', hclear, _⟩
      · refine .inr ⟨rfl, hnode, ?_⟩
        simp only [if_true, apply, hclear]
      · refine .inl ⟨?_, fun _ => hnode⟩
        simp only [if_true, apply, hclear]

/-! ## Where nodes are -/

/-- Every message has a payload, and no node is there without a message. -/
structure Tidy (tree : RetainedTree) : Prop where
  pruned : Tree.Pruned tree
  payload : ∀ {path : List Level} {kept : Message},
    tree.slot path = some kept → kept.payload.isEmpty = false

theorem tidy_empty : Tidy Tree.empty where
  pruned := .empty
  payload h := by
    rw [Tree.slot_empty] at h
    cases h

/-- A change leaves no empty node, unless it keeps a message under a faulty
topic. -/
theorem pruned_apply (h : Tree.Pruned tree) {change : RetainedChange}
    (hkeep : ∀ topic message, change = .keep topic message → (scan topic).fault? = none) :
    Tree.Pruned (tree.apply change).2 := by
  cases change with
  | keep topic message =>
      refine h.insert (fun _ => ?_) fun hne => absurd (hkeep topic message rfl) hne
      rw [ne_eq, ← Slot.isVacant_iff]
      cases tree.slot (scan topic).levels <;> exact Bool.false_ne_true
  | clear topic =>
      rw [apply]
      split
      · rename_i hclear
        exact h.remove hclear
      · exact h

/-- No node is left without a message. -/
theorem Tidy.apply (h : Tidy tree) (hfault : (scan message.topic).fault? = none) :
    Tidy (tree.apply (.ofMessage message)).2 where
  pruned := by
    refine pruned_apply h.pruned fun topic kept hkeep => ?_
    rw [RetainedChange.ofMessage] at hkeep
    split at hkeep
    · cases hkeep
    · cases hkeep
      exact hfault
  payload {path kept} hkept := by
    rw [slot_apply_ofMessage hfault] at hkept
    split at hkept
    · cases hempty : message.payload.isEmpty with
      | true =>
          rw [hempty] at hkept
          cases hkept
      | false =>
          rw [hempty, if_neg Bool.false_ne_true, Option.or_eq_some_iff] at hkept
          rcases hkept with hkept | ⟨_, hkept⟩
          · exact h.payload hkept
          · rwa [← Option.some.inj hkept]
    · exact h.payload hkept

/-- The nodes below the root are where some stored message has a topic that
goes on from there. -/
theorem isSome_at?_iff_holdsWithin (h : Tidy tree)
    (hscanned : ∀ {path kept}, tree.slot path = some kept → scan kept.topic = ⟨path, none⟩)
    {levels : List Level} (hne : levels ≠ []) :
    (tree.at? levels).isSome = true ↔ HoldsWithin tree levels := by
  have hlevels : ∀ {path kept}, tree.slot path = some kept → kept.levels = path :=
    fun hkept => by rw [Message.levels, hscanned hkept]
  rw [h.pruned.isSome_at?_iff hne]
  constructor
  · rintro ⟨below, hbelow⟩
    obtain ⟨kept, hkept⟩ := Option.ne_none_iff_exists'.1 hbelow
    exact ⟨_, kept, hkept, by rw [hlevels hkept]; exact List.prefix_append levels below⟩
  · rintro ⟨path, kept, hkept, hprefix⟩
    rw [hlevels hkept] at hprefix
    obtain ⟨below, rfl⟩ := hprefix
    exact ⟨below, by rw [hkept]; exact Option.some_ne_none kept⟩

end RetainedTree

end TopicRouter
