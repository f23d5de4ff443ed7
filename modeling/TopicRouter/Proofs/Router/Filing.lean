import TopicRouter.Proofs.Retained.Matching
import TopicRouter.Proofs.Router.Invariant

/-!
# Where a router keeps its messages

A router files each retained message under the levels of the topic that the
message itself names, and only a topic that passes the checks gets there.  So
a stored message tells its own path.  The requests of a session keep it that
way, those that are refused included.

## Main results

* `RetainedTree.Filed.keep`, `RetainedTree.Filed.clear` — the changes that a
  router makes.
* `Contents.invariant_filed` — no change of the contents disturbs this.
* `Session.filed_run` — the messages are filed in every state of a session.
-/

namespace TopicRouter

universe u

namespace RetainedTree

/-- Every message is under its own topic, which the settings accept. -/
structure Filed (settings : Settings) (tree : RetainedTree) : Prop where
  keyed : Tree.Keyed tree
  scanned : ∀ {path : List Level} {message : Message},
    tree.slot path = some message → scan message.topic = ⟨path, none⟩
  checked : ∀ {path : List Level} {message : Message},
    tree.slot path = some message → settings.checkRetained message.topic = .ok ()

variable {settings : Settings} {tree : RetainedTree}

theorem filed_empty (settings : Settings) : Filed settings Tree.empty where
  keyed := .empty
  scanned h := by
    rw [Tree.slot_empty] at h
    cases h
  checked h := by
    rw [Tree.slot_empty] at h
    cases h

/-- A message found after another was kept is that one, or was there. -/
theorem slot_keep_eq_some {topic : String} {message kept : Message}
    {path : List Level} (h : (tree.keep topic message).2.slot path = some kept) :
    tree.slot path = some kept ∨ kept = message ∧ scan topic = ⟨path, none⟩ := by
  rw [keep, Tree.slot_insert] at h
  split at h
  · rename_i hscan
    cases hslot : tree.slot path with
    | some there =>
        rw [hslot, Option.some_or] at h
        exact .inl h
    | none =>
        rw [hslot, Option.none_or] at h
        exact .inr ⟨(Option.some.inj h).symm, hscan⟩
  · exact .inl h

theorem Filed.keep (h : Filed settings tree) {message : Message}
    (hcheck : settings.checkRetained message.topic = .ok ()) :
    Filed settings (tree.keep message.topic message).2 where
  keyed := h.keyed.insert _ _
  scanned hslot := by
    rcases slot_keep_eq_some hslot with hslot | ⟨rfl, hscan⟩
    · exact h.scanned hslot
    · exact hscan
  checked hslot := by
    rcases slot_keep_eq_some hslot with hslot | ⟨rfl, _⟩
    · exact h.checked hslot
    · exact hcheck

/-- Every message found after another was cleared was there. -/
theorem slot_clear_eq_some {tree' : RetainedTree} {topic : String} {path : List Level}
    {message : Message} (hclear : tree.clear topic = .ok tree')
    (h : tree'.slot path = some message) : tree.slot path = some message := by
  obtain ⟨_, hcleared, hother⟩ := Tree.slot_remove hclear
  by_cases hpath : path = (scan topic).levels
  · rw [hpath, ← Except.ok.inj hcleared] at h
    cases h
  · rw [← hother path hpath, h]

theorem Filed.clear (h : Filed settings tree) {tree' : RetainedTree} {topic : String}
    (hclear : tree.clear topic = .ok tree') : Filed settings tree' where
  keyed := h.keyed.remove hclear
  scanned hslot := h.scanned (slot_clear_eq_some hclear hslot)
  checked hslot := h.checked (slot_clear_eq_some hclear hslot)

end RetainedTree

variable {σ : Type u}

/-- What a router does to its messages leaves them filed. -/
theorem Contents.invariant_filed [Identity σ] (settings : Settings) :
    Invariant settings fun contents : Contents σ =>
      RetainedTree.Filed settings contents.retained where
  fresh := RetainedTree.filed_empty settings
  amend contents change hcheck h := h
  retain contents message hcheck h := by
    show RetainedTree.Filed settings (contents.retained.apply (.ofMessage message)).2
    rw [RetainedChange.ofMessage]
    split
    · rw [RetainedTree.apply]
      split
      · rename_i hclear
        exact h.clear hclear
      · exact h
    · exact h.keep hcheck

namespace Router

/-- The messages of an open router are filed under their own topics. -/
def Filed (router : Router σ) : Prop :=
  ∀ contents, router.contents? = some contents →
    RetainedTree.Filed router.settings contents.retained

end Router

namespace Session

theorem filed_start (settings : Settings) :
    (start settings : Session σ).router.Filed := by
  intro contents hcontents
  cases hcontents
  exact RetainedTree.filed_empty settings

variable [Identity σ]

/-- The messages of a router are filed as long as it is in use. -/
theorem filed_run {session : Session σ} (h : session.router.Filed)
    (requests : List (Request σ)) : (session.run requests).2.router.Filed := by
  rw [Router.Filed, settings_run]
  exact (Contents.invariant_filed session.router.settings).holds_run rfl h requests

end Session

end TopicRouter
