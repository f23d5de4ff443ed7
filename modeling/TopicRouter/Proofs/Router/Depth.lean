import TopicRouter.Proofs.Router.Checks
import TopicRouter.Proofs.Router.Invariant
import TopicRouter.Proofs.Topic.Grammar
import TopicRouter.Proofs.Tree.Depth
import TopicRouter.Proofs.Tree.Within
import TopicRouter.Subscriber.Handle

/-!
# How deep a router goes

The settings limit the levels of a topic by its separators, and its length in
bytes.  A walk goes by the levels that are read off the topic.  These are not
more than the pieces between the separators, for no piece is read twice, and
not more than the characters, for every level takes at least one of them.

So the topics that pass the checks have at most `Settings.depthLimit` levels,
up to their fault if they have one.  Nodes are created on the way to such
topics only, and so the trees are no deeper than that, however many requests
are answered or refused.  No walk that a request starts goes further down.

## Main results

* `Settings.length_items_le` — the levels of a topic that passes the checks.
* `Contents.invariant_depthLe` — the changes of a router keep its trees within
  the limit.
* `Session.depth_le_limit` — the levels, the trees and the walks of a router
  are within its limits.
-/

namespace TopicRouter

universe u

/-! ## Topics -/

namespace Scan

/-- Each level takes a character, and so does the fault. -/
theorem length_items_le (chars : List Char) : (ofChars chars).items.length ≤ chars.length := by
  fun_induction ofChars chars with
  | case1 => exact Nat.le_refl 0
  | case2 chars hne level rest hread ih =>
      have hshorter := Level.read_length_lt hne hread
      rw [items_cons, List.length_cons]
      omega
  | case3 chars hne fault hread => exact List.length_pos_of_ne_nil hne

/-- Each level is a piece between separators, and so is the fault. -/
theorem length_items_le_count (chars : List Char) :
    (ofChars chars).items.length ≤ chars.count separator + 1 := by
  rw [← length_pieces]
  exact List.getElem?_eq_none_iff.1 (items_of_length_le (Nat.le_refl _))

theorem length_levels_le_items (scan : Scan) : scan.levels.length ≤ scan.items.length := by
  rw [items, List.length_append, List.length_map]
  exact Nat.le_add_right _ _

end Scan

/-- A character takes at least one byte. -/
theorem length_le_utf8Len (chars : List Char) : chars.length ≤ String.utf8Len chars := by
  induction chars with
  | nil => exact Nat.zero_le _
  | cons c rest ih =>
      have hsize := c.utf8Size_pos
      rw [String.utf8Len_cons, List.length_cons]
      omega

namespace Settings

/-- How many levels a topic that passes the checks can have. -/
def depthLimit (settings : Settings) : Nat :=
  min settings.maxTopicLevels settings.maxTopicLength

variable {settings : Settings} {topic : String}

theorem within_limits_of_checkTopic (h : settings.checkTopic topic = .ok ()) :
    topic.utf8ByteSize ≤ settings.maxTopicLength ∧
      levelCount topic ≤ settings.maxTopicLevels := by
  unfold checkTopic at h
  split at h
  · cases h
  split at h
  · cases h
  split at h
  · cases h
  exact ⟨Nat.not_lt.1 ‹_›, Nat.not_lt.1 ‹_›⟩

/-- A topic that passes the checks has no more levels than the limit, its fault
included. -/
theorem length_items_le (h : settings.checkTopic topic = .ok ()) :
    (scan topic).items.length ≤ settings.depthLimit := by
  obtain ⟨hlength, hlevels⟩ := within_limits_of_checkTopic h
  refine Nat.le_min.2 ⟨?_, ?_⟩
  · exact (Scan.length_items_le_count topic.toList).trans hlevels
  · calc (scan topic).items.length
        ≤ topic.toList.length := Scan.length_items_le topic.toList
      _ ≤ String.utf8Len topic.toList := length_le_utf8Len topic.toList
      _ = topic.utf8ByteSize := String.utf8Len_toList topic
      _ ≤ settings.maxTopicLength := hlength

theorem length_levels_le (h : settings.checkTopic topic = .ok ()) :
    (scan topic).levels.length ≤ settings.depthLimit :=
  (scan topic).length_levels_le_items.trans (length_items_le h)

end Settings

/-! ## Trees and walks -/

variable {σ : Type u}

namespace Contents

/-- No node of either tree is further down than the limit. -/
structure DepthLe (limit : Nat) (contents : Contents σ) : Prop where
  subscriptions : Tree.Within (fun path => path.length ≤ limit) contents.subscriptions
  retained : Tree.Within (fun path => path.length ≤ limit) contents.retained

/-- Along the topic, no change and no search of either tree goes further down
than the limit. -/
structure WalksLe (limit : Nat) (contents : Contents σ) (topic : Scan) : Prop where
  subscriptions_insert : ∀ update, contents.subscriptions.insertTo limit topic update =
    some (contents.subscriptions.insert topic update)
  subscriptions_remove : ∀ missing update,
    contents.subscriptions.removeTo limit topic missing update =
      some (contents.subscriptions.remove topic missing update)
  subscriptions_forward :
    contents.subscriptions.forwardTo limit topic.fault? topic.levels =
      some (contents.subscriptions.forward topic.fault? topic.levels)
  retained_insert : ∀ update, contents.retained.insertTo limit topic update =
    some (contents.retained.insert topic update)
  retained_remove : ∀ missing update, contents.retained.removeTo limit topic missing update =
    some (contents.retained.remove topic missing update)
  retained_backward :
    contents.retained.backwardTo limit topic.fault? topic.levels =
      some (contents.retained.backward topic.fault? topic.levels)

variable {limit : Nat} {contents : Contents σ}

theorem DepthLe.walksLe (h : DepthLe limit contents) {topic : Scan}
    (htopic : topic.levels.length ≤ limit) : WalksLe limit contents topic where
  subscriptions_insert := Tree.insertTo_eq htopic contents.subscriptions
  subscriptions_remove := Tree.removeTo_eq htopic contents.subscriptions
  subscriptions_forward := Tree.forwardTo_eq htopic contents.subscriptions topic.fault?
  retained_insert := Tree.insertTo_eq htopic contents.retained
  retained_remove := Tree.removeTo_eq htopic contents.retained
  retained_backward :=
    Tree.backwardTo_eq htopic (fun _ hentry => h.retained.of_mem_nodes hentry) topic.fault?

/-- The nodes on the way to a topic that passes the checks are within the
limit. -/
theorem length_le_of_checkTopic {settings : Settings} {topic : String}
    (hcheck : settings.checkTopic topic = .ok ()) (place : List Level)
    (hplace : place <+: (scan topic).levels) : place.length ≤ settings.depthLimit :=
  hplace.length_le.trans (Settings.length_levels_le hcheck)

/-- **The trees of a router stay within its limits.** -/
theorem invariant_depthLe [Identity σ] (settings : Settings) :
    Invariant settings (DepthLe (σ := σ) settings.depthLimit) where
  fresh := ⟨.empty (Nat.zero_le _), .empty (Nat.zero_le _)⟩
  amend contents change hcheck h :=
    ⟨SubscriptionTree.within_apply h.subscriptions (length_le_of_checkTopic hcheck), h.retained⟩
  retain contents message hcheck h := by
    have htopic := Settings.checkTopic_of_checkRetained hcheck
    refine ⟨h.subscriptions, RetainedTree.within_apply h.retained ?_⟩
    rw [RetainedChange.ofMessage]
    split
    · exact length_le_of_checkTopic htopic
    · exact length_le_of_checkTopic htopic

end Contents

namespace Session

variable [Identity σ]

/-- **No walk goes further down than the settings allow.**  A topic that passes
the checks has at most so many levels, its fault included, and a request about
any other topic is refused in the same way whatever is stored.  In every open
state of a session, both trees have nodes only so far down, and no walk along a
topic that passes the checks goes further. -/
theorem depth_le_limit (settings : Settings) :
    (∀ topic, settings.checkTopic topic = .ok () →
      (scan topic).items.length ≤ settings.depthLimit) ∧
    (∀ (request : Request σ) topic, request.topic? = some topic →
      settings.checkTopic topic ≠ .ok () → ∃ e, ∀ session : Session σ,
        session.router.settings = settings → (session.step request).1 = .error e) ∧
    ∀ (requests : List (Request σ)) contents,
      ((start settings).run requests).2.router.contents? = some contents →
        (∀ entry ∈ contents.subscriptions.nodes, entry.1.length ≤ settings.depthLimit) ∧
        (∀ entry ∈ contents.retained.nodes, entry.1.length ≤ settings.depthLimit) ∧
        ∀ topic, settings.checkTopic topic = .ok () →
          contents.WalksLe settings.depthLimit (scan topic) := by
  refine ⟨fun topic hcheck => Settings.length_items_le hcheck,
    fun request topic htopic hcheck => ?_, fun requests contents hopen => ?_⟩
  · cases hfirst : ArgumentCheck.firstError? settings request with
    | none => exact absurd (ArgumentCheck.checkTopic_of_firstError?_eq_none hfirst htopic) hcheck
    | some e =>
        refine ⟨e, fun session hsettings => answer_of_firstError? ?_⟩
        rw [hsettings, hfirst]
  · have hinvariant := Contents.invariant_depthLe (σ := σ) settings
    have hdepth := hinvariant.holds_run rfl hinvariant.holds_start requests contents hopen
    exact ⟨fun _ => hdepth.subscriptions.of_mem_nodes, fun _ => hdepth.retained.of_mem_nodes,
      fun topic hcheck => hdepth.walksLe (Settings.length_levels_le hcheck)⟩

/-- Two filters are refused, one of them after it has left nodes.  The limit is
that of the levels, and the trees reach it. -/
theorem depth_le_limit_of_fault :
    let settings : Settings := { maxTopicLevels := 3, maxTopicLength := 5 }
    let x : Handle := .text .owned "x"
    let message := Message.retained "b" .atMostOnce ⟨#[1]⟩
    let requests : List (Request Handle) :=
      [.subscribe "a//#d" 0 (some x), .subscribe "////" 0 (some x), .subscribe "a/b/c" 0 (some x),
        .retain message]
    let contents : Contents Handle :=
      { subscriptions := .node []
          [(.literal "a", .node []
            [(.single, .node [] []),
              (.literal "b", .node [] [(.literal "c", .node [⟨x, .atMostOnce⟩] [])])])]
        retained := .node none [(.literal "b", .node (some message) [])] }
    settings.checkTopic "+/+/#" = .ok () ∧ settings.checkTopic "////" ≠ .ok () ∧
      settings.depthLimit = 3 ∧ (scan "+/+/#").items.length ≤ 3 ∧
      ((start settings).run requests).2.router.contents? = some contents ∧
      (∃ e, ∀ session : Session Handle, session.router.settings = settings →
        (session.step (.unsubscribe "////" none)).1 = .error e) ∧
      (∀ entry ∈ contents.subscriptions.nodes, entry.1.length ≤ 3) ∧
      (∀ entry ∈ contents.retained.nodes, entry.1.length ≤ 3) ∧
      contents.WalksLe 3 (scan "+/+/#") := by
  intro settings x message requests contents
  have hcheck : settings.checkTopic "+/+/#" = .ok () := by decide +kernel
  have hlevels : settings.checkTopic "////" = .error (.tooManyLevels 5 3) := by decide +kernel
  have hrefused : settings.checkTopic "////" ≠ .ok () := by
    rw [hlevels]
    intro hok
    cases hok
  have hopen : ((start settings).run requests).2.router.contents? = some contents := by
    decide +kernel
  obtain ⟨hitems, hrequests, hcontents⟩ := depth_le_limit (σ := Handle) settings
  obtain ⟨hsubscriptions, hretained, hwalks⟩ := hcontents requests contents hopen
  exact ⟨hcheck, hrefused, rfl, hitems _ hcheck, hopen, hrequests _ _ rfl hrefused,
    hsubscriptions, hretained, hwalks _ hcheck⟩

end Session

end TopicRouter
