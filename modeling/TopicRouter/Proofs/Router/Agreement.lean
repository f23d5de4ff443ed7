import TopicRouter.Proofs.Router.Filing
import TopicRouter.Proofs.Subscription.Matching

/-!
# Delivery and replay agree

A message reaches a subscriber in two ways: it is delivered when it is
published, or replayed when it was retained before.  The first way searches
the subscriptions with the topic of the message, the second the messages with
the filter of the subscription.  The two searches walk different trees and
treat wildcards on different sides, and yet they decide the same relation
between the filter and the topic.

## Main results

* `Router.subscribersFor_eq_ok`, `Router.retainedFor_eq_ok` — what an open
  router answers to searches that pass their checks.
* `Session.reported_iff_replayed` — a subscription is reported for the topic
  of a retained message when the message is replayed for its filter.
-/

namespace TopicRouter

universe u

@[simp] theorem QoS.ofByte_toByte (qos : QoS) : QoS.ofByte qos.toByte = .ok qos := by
  rw [QoS.ofByte, QoS.ofByte?_toByte]

namespace Router

variable {σ : Type u} {router : Router σ} {contents : Contents σ}

theorem subscribersFor_eq_ok (hopen : router.contents? = some contents)
    {topic : String} {levels : List Level}
    (hcheck : router.settings.checkTopic topic = .ok ())
    (hscan : scan topic = ⟨levels, none⟩) (qos : QoS) :
    router.subscribersFor topic qos.toByte =
      .ok ((contents.subscriptions.lookup topic).found.map fun entry =>
        (entry.subscriber, qos)) := by
  have hlookup := SubscriptionTree.lookup_eq_done contents.subscriptions hscan
  rw [subscribersFor_eq_map, router.subscribers_eq_search topic (QoS.ofByte_toByte qos), hcheck,
    search_of_open hopen]
  simp only [SubscriptionTree.collect, hlookup, Lookup.outcome_done, Except.mapError,
    Fanout.extend, List.nil_append]
  rw [List.zip_map']
  rfl

theorem retainedFor_eq_ok (hopen : router.contents? = some contents)
    (hkeyed : Tree.Keyed contents.retained) {filter : String} {levels : List Level}
    (hcheck : router.settings.checkTopic filter = .ok ())
    (hscan : scan filter = ⟨levels, none⟩) :
    router.retainedFor filter =
      .ok (Tree.valuesAt (covers levels) contents.retained) := by
  rw [retainedFor_eq_map, retained_eq_search, hcheck, search_of_open hopen]
  simp only [RetainedTree.collect, RetainedTree.lookup_eq_done hkeyed hscan, Lookup.outcome_done,
    Except.mapError, List.nil_append]
  rfl

/-- A filter that is granted passes the checks and has no fault. -/
theorem checked_of_subscribe_eq_ok [Identity σ] {filter : String} {qos : UInt8}
    {subscriber? : Option σ} {granted : QoS}
    (h : (router.subscribe filter qos subscriber?).1 = .ok granted) :
    router.settings.checkTopic filter = .ok () ∧ (scan filter).fault? = none := by
  unfold subscribe at h
  split at h
  · cases h
  · cases h
  · rename_i hcheck _
    refine ⟨Settings.checkTopic_of_checkSubscription hcheck, ?_⟩
    simp only [SubscriptionTree.subscribe, Tree.insert_fst, Scan.outcome] at h
    split at h
    · assumption
    · cases h

end Router

namespace RetainedTree

/-- A filed message is found by a filter when that covers its topic. -/
theorem Filed.mem_valuesAt {settings : Settings} {tree : RetainedTree}
    (h : Filed settings tree) {path levels : List Level} {message : Message}
    (hmessage : tree.slot path = some message) :
    message ∈ Tree.valuesAt (covers levels) tree ↔ Covers levels path := by
  obtain ⟨paths, _, hpaths, hvalues⟩ := h.keyed.valuesAt_eq_filterMap_slot (covers levels)
  rw [hvalues, List.mem_filterMap]
  constructor
  · rintro ⟨other, hother, hslot⟩
    -- The message names its path, so it was found at its own.
    have hsame : other = path := by
      have hscan := h.scanned hslot
      rw [h.scanned hmessage] at hscan
      exact (Scan.mk.inj hscan).1.symm
    rw [← hsame]
    exact covers_iff.1 ((hpaths other).1 hother).1
  · intro hcovers
    refine ⟨path, (hpaths path).2 ⟨covers_iff.2 hcovers, ?_⟩, hmessage⟩
    rw [hmessage, Option.isSome_some]

end RetainedTree

namespace Session

variable {σ : Type u} [Identity σ]

theorem subscribe_eq_ok_of_granted {session : Session σ} {filter : String}
    {byte : UInt8} {subscriber? : Option σ} {granted : QoS}
    (h : (session.step (.subscribe filter byte subscriber?)).1 = .ok (.granted granted)) :
    (session.router.subscribe filter byte subscriber?).1 = .ok granted := by
  simp only [step] at h
  cases hresult : (session.router.subscribe filter byte subscriber?).1 with
  | error e =>
      rw [hresult] at h
      cases h
  | ok qos =>
      rw [hresult] at h
      cases h
      rfl

/-- A filter that was granted in a session passes the checks and has no
fault. -/
theorem checked_of_granted {settings : Settings} {before : List (Request σ)}
    {filter : String} {byte : UInt8} {subscriber? : Option σ} {granted : QoS}
    (h : (((start settings).run before).2.step
      (.subscribe filter byte subscriber?)).1 = .ok (.granted granted)) :
    settings.checkTopic filter = .ok () ∧ scan filter = ⟨(scan filter).levels, none⟩ := by
  have hsettings := settings_run (start settings) before
  have hsubscribe := subscribe_eq_ok_of_granted h
  obtain ⟨hcheck, hfault⟩ := Router.checked_of_subscribe_eq_ok hsubscribe
  rw [hsettings] at hcheck
  exact ⟨hcheck, by rw [← hfault]⟩

/-- **Delivery and replay agree.**  In an open state of a session, take an
entry that is stored under a filter which was subscribed to, and a message
that is retained.  The search for the subscribers of the topic of the message
reports this entry, under this filter, exactly when the search for the
messages of the filter replays this message. -/
theorem reported_iff_replayed {settings : Settings} {before after : List (Request σ)}
    {filter : String} {byte : UInt8} {subscriber? : Option σ} {granted : QoS}
    (hgranted : (((start settings).run before).2.step
      (.subscribe filter byte subscriber?)).1 = .ok (.granted granted))
    {session : Session σ}
    (hrun : ((start settings).run
      (before ++ .subscribe filter byte subscriber? :: after)).2 = session)
    {contents : Contents σ} (hopen : session.router.contents? = some contents)
    {entry : Subscription σ}
    (hentry : entry ∈ contents.subscriptions.slot (scan filter).levels)
    {path : List Level} {message : Message}
    (hmessage : contents.retained.slot path = some message) (qos : QoS) :
    let reported := (contents.subscriptions.lookupLabelled message.topic).found
    ∃ replayed,
      session.router.subscribersFor message.topic qos.toByte =
          .ok (reported.map fun found => (found.2.subscriber, qos)) ∧
        session.router.retainedFor filter = .ok replayed ∧
        (((scan filter).levels, entry) ∈ reported ↔ message ∈ replayed) ∧
        (message ∈ replayed ↔ Covers (scan filter).levels (scan message.topic).levels) := by
  have hsettings : session.router.settings = settings := by
    rw [← hrun, settings_run]
    rfl
  have hfiled : RetainedTree.Filed settings contents.retained := by
    have hrouter := filed_run (filed_start settings)
      (before ++ Request.subscribe filter byte subscriber? :: after)
    rw [hrun] at hrouter
    rw [← hsettings]
    exact hrouter contents hopen
  obtain ⟨hfilter, hscan⟩ := checked_of_granted hgranted
  have htopic := Settings.checkTopic_of_checkRetained (hfiled.checked hmessage)
  have hscan' := hfiled.scanned hmessage
  rw [← hsettings] at hfilter htopic
  have hreported := SubscriptionTree.mem_lookupLabelled hscan' hentry
  have hreplayed : message ∈ Tree.valuesAt (covers (scan filter).levels) contents.retained ↔
      Covers (scan filter).levels path := hfiled.mem_valuesAt hmessage
  refine ⟨Tree.valuesAt (covers (scan filter).levels) contents.retained, ?_,
    Router.retainedFor_eq_ok hopen hfiled.keyed hfilter hscan, ?_, ?_⟩
  · rw [Router.subscribersFor_eq_ok hopen htopic hscan',
      SubscriptionTree.lookup_found_eq_map _ hscan', List.map_map]
    rfl
  · rw [hreported, hreplayed]
  · rw [hreplayed, hscan']

/-- A message at the level above the wildcard of the filter, retained before the
subscription. -/
theorem reported_iff_replayed_of_parent :
    let subscriber : Handle := .text .owned "x"
    let message : Message := .retained "a" .atMostOnce ⟨#[1]⟩
    let before : List (Request Handle) := [.retain message]
    let after : List (Request Handle) :=
      [.subscribe "a/+" 2 (some subscriber), .unsubscribe "b" none]
    let entry : Subscription Handle := ⟨subscriber, .atLeastOnce⟩
    let other : Subscription Handle := ⟨subscriber, .exactlyOnce⟩
    let contents : Contents Handle :=
      { subscriptions := .node []
          [(.literal "a", .node [] [(.multi, .node [entry] []), (.single, .node [other] [])])]
        retained := .node none [(.literal "a", .node (some message) [])] }
    let session :=
      ((start {}).run (before ++ .subscribe "a/#" 1 (some subscriber) :: after)).2
    let reported := (contents.subscriptions.lookupLabelled "a").found
    (((start {}).run before).2.step (.subscribe "a/#" 1 (some subscriber))).1 =
        .ok (.granted .atLeastOnce) ∧
      session.router.contents? = some contents ∧
      entry ∈ contents.subscriptions.slot (scan "a/#").levels ∧
      contents.retained.slot [.literal "a"] = some message ∧
      ∃ replayed,
        session.router.subscribersFor "a" 2 =
          .ok (reported.map fun found => (found.2.subscriber, .exactlyOnce)) ∧
        session.router.retainedFor "a/#" = .ok replayed ∧
        (((scan "a/#").levels, entry) ∈ reported ↔ message ∈ replayed) ∧
        (message ∈ replayed ↔ Covers (scan "a/#").levels (scan "a").levels) := by
  intro subscriber message before after entry other contents session reported
  have hgranted : (((start {}).run before).2.step (.subscribe "a/#" 1 (some subscriber))).1 =
      .ok (.granted .atLeastOnce) := by decide +kernel
  have hopen : session.router.contents? = some contents := by
    subst session
    decide +kernel
  have hscan : scan "a/#" = ⟨[.literal "a", .multi], none⟩ := by decide +kernel
  have hentry : entry ∈ contents.subscriptions.slot (scan "a/#").levels := by
    rw [hscan]
    exact List.mem_singleton_self entry
  have hmessage : contents.retained.slot [.literal "a"] = some message := rfl
  have hrun : ((start {}).run (before ++ .subscribe "a/#" 1 (some subscriber) :: after)).2 =
      session := rfl
  exact ⟨hgranted, hopen, hentry, hmessage,
    reported_iff_replayed hgranted hrun hopen hentry hmessage .exactlyOnce⟩

end Session

end TopicRouter
