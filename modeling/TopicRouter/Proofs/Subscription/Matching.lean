import Mathlib.Data.List.Basic
import TopicRouter.Subscriber.Handle
import TopicRouter.Subscription.History
import TopicRouter.Topic.Cover

/-!
# Which subscriptions a publication reaches

The filters that cover a topic can be listed from the levels of the topic
alone, in the order in which they are reported.  Searching a tree visits the
nodes of these filters, in this order, and no others; whatever is stored
elsewhere has no influence on what is found.

## Main results

* `mem_coveringFilters`, `pairwise_coveringFilters` — the list holds all
  filters that cover the topic, in their order.
* `Tree.forward_eq_done` — a search collects the slots of these filters.
* `SubscriptionTree.mem_lookupLabelled` — an entry is found under its filter
  when that covers the topic.
* `SubscriptionTree.collect_ofHistory` — so does a publication, in every tree
  that a history leads to.
-/

namespace TopicRouter

universe u

/-! ## The filters that cover a topic -/

/-- All filters that cover a topic, in the order in which they are reported. -/
def coveringFilters : List Level → List (List Level)
  | [] => [[], [.multi]]
  | level :: rest =>
      let bySingle := (coveringFilters rest).map (Level.single :: ·)
      let byLiteral :=
        if level.isWildcard then [] else (coveringFilters rest).map (level :: ·)
      [.multi] :: (bySingle ++ byLiteral)

/-- The filters that go on with a literal are there for a literal level. -/
theorem mem_byLiteral {level : Level} {filters : List (List Level)}
    {filter : List Level} :
    filter ∈ (if level.isWildcard then [] else filters.map (level :: ·)) ↔
      ∃ text rest, level = .literal text ∧ rest ∈ filters ∧
        filter = .literal text :: rest := by
  cases level with
  | literal text => simp [Level.isWildcard, eq_comm]
  | single => simp [Level.isWildcard]
  | multi => simp [Level.isWildcard]

theorem mem_coveringFilters {topic filter : List Level} :
    filter ∈ coveringFilters topic ↔ Covers filter topic := by
  induction topic generalizing filter with
  | nil =>
      simp only [coveringFilters, List.mem_cons, List.not_mem_nil, or_false]
      constructor
      · rintro (rfl | rfl)
        · exact .nil
        · exact .multi []
      · intro h
        cases h with
        | nil => exact .inl rfl
        | multi => exact .inr rfl
  | cons level rest ih =>
      simp only [coveringFilters, List.mem_cons, List.mem_append, List.mem_map,
        mem_byLiteral, ih]
      constructor
      · rintro (rfl | ⟨tail, htail, rfl⟩ | ⟨text, tail, rfl, htail, rfl⟩)
        · exact .multi _
        · exact .single level htail
        · exact .literal text htail
      · intro h
        cases h with
        | multi => exact .inl rfl
        | single _ htail => exact .inr (.inl ⟨_, htail, rfl⟩)
        | literal text htail => exact .inr (.inr ⟨text, _, rfl, htail, rfl⟩)

/-- Filters that share their first level keep the order of their rests. -/
private theorem pairwise_map_cons {filters : List (List Level)} (level : Level)
    (h : filters.Pairwise Precedes) :
    (filters.map (level :: ·)).Pairwise Precedes :=
  List.pairwise_map.2 (h.imp fun hprecedes => .cons level hprecedes)

/-- At a level, the wildcard for the rest comes first, and then the filters that
go on with the wildcard for the level and with the level itself. -/
theorem pairwise_multi_cons {filters : List (List Level)} (level : Level)
    (h : filters.Pairwise Precedes) :
    List.Pairwise Precedes
      ([.multi] :: (filters.map (Level.single :: ·) ++
        if level.isWildcard then [] else filters.map (level :: ·))) := by
  have hsingle := pairwise_map_cons .single h
  have hliteral : List.Pairwise Precedes
      (if level.isWildcard then [] else filters.map (level :: ·)) := by
    split
    · exact .nil
    · exact pairwise_map_cons level h
  refine List.pairwise_cons.2 ⟨?_, List.pairwise_append.2 ⟨hsingle, hliteral, ?_⟩⟩
  · intro filter hfilter
    rcases List.mem_append.1 hfilter with hfilter | hfilter
    · obtain ⟨tail, _, rfl⟩ := List.mem_map.1 hfilter
      exact .multi_single [] tail
    · obtain ⟨text, tail, _, _, rfl⟩ := mem_byLiteral.1 hfilter
      exact .multi_literal text [] tail
  · intro first hfirst second hsecond
    obtain ⟨tail, _, rfl⟩ := List.mem_map.1 hfirst
    obtain ⟨text, tail', _, _, rfl⟩ := mem_byLiteral.1 hsecond
    exact .single_literal text tail tail'

theorem pairwise_coveringFilters (topic : List Level) :
    (coveringFilters topic).Pairwise Precedes := by
  induction topic with
  | nil =>
      refine List.pairwise_cons.2 ⟨?_, List.pairwise_singleton _ _⟩
      intro filter hfilter
      rw [List.mem_singleton.1 hfilter]
      exact .ended .multi []
  | cons level rest ih => exact pairwise_multi_cons level ih

/-! ## Searching visits the filters that cover the topic -/

namespace Tree

variable {β : Type u}

theorem coveringRest_eq_slot (tree : Tree (List β)) :
    tree.coveringRest = tree.slot [.multi] := by
  rw [coveringRest, slot_cons]
  cases tree.child? .multi <;> rfl

/-- A branch that is not there is searched like an empty one. -/
theorem flatMap_slot_map_cons (tree : Tree (List β)) (level : Level)
    (filters : List (List Level)) :
    (filters.map (level :: ·)).flatMap tree.slot =
      filters.flatMap ((tree.child? level).getD empty).slot := by
  rw [List.flatMap_map]
  exact List.flatMap_congr fun filter _ => slot_cons tree level filter

theorem flatMap_slot_empty (filters : List (List Level)) :
    filters.flatMap (empty : Tree (List β)).slot = [] :=
  List.flatMap_eq_nil_iff.2 fun filter _ => slot_empty filter

/-- What is found below one branch, which may be missing. -/
private theorem elim_child?_eq_done {search : Tree (List β) → Lookup β}
    {filters : List (List Level)}
    (h : ∀ tree, search tree = .done (filters.flatMap tree.slot))
    (tree : Tree (List β)) (level : Level) :
    (tree.child? level).elim (.done []) search =
      .done ((filters.map (level :: ·)).flatMap tree.slot) := by
  rw [flatMap_slot_map_cons]
  cases tree.child? level with
  | some child => exact h child
  | none => rw [Option.elim_none, Option.getD_none, flatMap_slot_empty]

/-- **A search collects the slots of the covering filters.**  The tree may be
any tree: what is stored at other filters is not looked at. -/
theorem forward_eq_done (tree : Tree (List β)) (topic : List Level) :
    tree.forward none topic = .done ((coveringFilters topic).flatMap tree.slot) := by
  induction topic generalizing tree with
  | nil => simp [forward, coveringFilters, coveringRest_eq_slot]
  | cons level rest ih =>
      rw [forward_cons, elim_child?_eq_done ih, elim_child?_eq_done ih,
        coveringRest_eq_slot]
      cases hwildcard : level.isWildcard <;> simp [coveringFilters, hwildcard]

/-! ## Where an entry was found

Two filters may hold entries that look alike.  To tell which filter an entry
was found under, the same search is made in a tree whose entries carry their
paths.
-/

mutual

/-- Every entry with its path, for a tree that hangs at the path `above`. -/
def labelled (above : List Level) : Tree (List β) → Tree (List (List Level × β))
  | node entries branches =>
      node (entries.map (above, ·)) (labelledBelow above branches)

/-- Every entry of a list of branches with its path. -/
def labelledBelow (above : List Level) :
    List (Level × Tree (List β)) → List (Level × Tree (List (List Level × β)))
  | [] => []
  | (level, child) :: rest =>
      (level, child.labelled (above ++ [level])) :: labelledBelow above rest

end

theorem child?_labelled (above : List Level) (tree : Tree (List β)) (level : Level) :
    (tree.labelled above).child? level =
      (tree.child? level).map fun child => child.labelled (above ++ [level]) := by
  obtain ⟨entries, branches⟩ := tree
  simp only [labelled, child?, Tree.branches]
  induction branches with
  | nil => rfl
  | cons branch rest ih =>
      obtain ⟨key, child⟩ := branch
      rw [labelledBelow, List.lookup_cons, List.lookup_cons]
      by_cases hkey : level = key
      · rw [hkey, beq_self_eq_true]
        rfl
      · rw [beq_eq_false_iff_ne.2 hkey]
        exact ih

theorem slot_labelled (above : List Level) (tree : Tree (List β)) (path : List Level) :
    (tree.labelled above).slot path = (tree.slot path).map (above ++ path, ·) := by
  induction path generalizing tree above with
  | nil =>
      obtain ⟨entries, branches⟩ := tree
      rw [List.append_nil]
      rfl
  | cons level path ih =>
      rw [slot_cons, slot_cons, child?_labelled]
      cases tree.child? level with
      | none => simp [slot_empty, Slot.vacant]
      | some child =>
          rw [Option.map_some, Option.getD_some, Option.getD_some, ih,
            List.append_assoc, List.singleton_append]

/-- A search among the labelled entries finds what a search finds, and says
under which filter. -/
theorem forward_labelled_eq_done (tree : Tree (List β)) (topic : List Level) :
    (tree.labelled []).forward none topic =
      .done ((coveringFilters topic).flatMap fun filter =>
        (tree.slot filter).map (filter, ·)) := by
  rw [forward_eq_done]
  congr 2
  funext filter
  rw [slot_labelled, List.nil_append]

end Tree

/-! ## Publications -/

namespace SubscriptionTree

variable {σ : Type u}

/-- What a publication to a topic without a fault finds. -/
theorem lookup_eq_done (tree : SubscriptionTree σ) {topic : String}
    {levels : List Level} (hscan : scan topic = ⟨levels, none⟩) :
    tree.lookup topic = .done ((coveringFilters levels).flatMap tree.slot) := by
  rw [lookup, hscan]
  exact Tree.forward_eq_done tree levels

/-- The subscriptions whose filters cover a topic, each with the levels of the
filter that it is stored under. -/
def lookupLabelled (tree : SubscriptionTree σ) (topic : String) :
    Lookup (List Level × Subscription σ) :=
  (Tree.labelled [] tree).forward (scan topic).fault? (scan topic).levels

/-- Without the filters, the labelled search is the search. -/
theorem lookup_found_eq_map (tree : SubscriptionTree σ) {topic : String}
    {levels : List Level} (hscan : scan topic = ⟨levels, none⟩) :
    (tree.lookup topic).found = (tree.lookupLabelled topic).found.map Prod.snd := by
  rw [lookup_eq_done tree hscan, lookupLabelled, hscan, Tree.forward_labelled_eq_done]
  simp [Lookup.done, List.map_flatMap, Function.comp_def]

/-- An entry is found under its filter when the filter covers the topic. -/
theorem mem_lookupLabelled {tree : SubscriptionTree σ} {topic : String}
    {levels filter : List Level} {entry : Subscription σ}
    (hscan : scan topic = ⟨levels, none⟩) (hentry : entry ∈ tree.slot filter) :
    (filter, entry) ∈ (tree.lookupLabelled topic).found ↔ Covers filter levels := by
  rw [lookupLabelled, hscan, Tree.forward_labelled_eq_done, ← mem_coveringFilters]
  simp only [Lookup.done, List.mem_flatMap, List.mem_map, Prod.mk.injEq]
  constructor
  · rintro ⟨_, hfilter, _, _, rfl, _⟩
    exact hfilter
  · intro hfilter
    exact ⟨filter, hfilter, entry, hentry, rfl, rfl⟩

/-- **A publication reaches the subscriptions whose filters cover it.**  The
covering filters are visited one after the other in their order, each once,
and the entries of each are reported in the order in which they are stored,
at the quality of service of the publication. -/
theorem collect_ofHistory [Identity σ] (changes : List (SubscriptionChange σ))
    {topic : String} {levels : List Level} (hscan : scan topic = ⟨levels, none⟩)
    (qos : QoS) (fanout : Fanout σ) :
    ∃ filters : List (List Level),
      filters.Pairwise Precedes ∧
      (∀ filter, filter ∈ filters ↔ Covers filter levels) ∧
      (ofHistory changes).collect topic qos fanout =
        let entries := filters.flatMap (ofHistory changes).slot
        (.ok (),
          { subscribers := fanout.subscribers ++ entries.map Subscription.subscriber
            qos := fanout.qos ++ List.replicate entries.length qos }) := by
  refine ⟨coveringFilters levels, pairwise_coveringFilters levels,
    fun filter => mem_coveringFilters, ?_⟩
  rw [collect, lookup_eq_done _ hscan]
  simp [Fanout.extend, Lookup.done, Lookup.outcome, List.map_const']

/-- A topic with an empty level, after changes of which one was refused. -/
theorem collect_ofHistory_empty_level :
    let changes : List (SubscriptionChange Handle) :=
      [.subscribe "a/#" .atMostOnce (.text .owned "x"),
        .subscribe "a/b#" .atMostOnce (.text .owned "x"),
        .subscribe "+/+/b" .exactlyOnce (.text .owned "y"),
        .subscribe "a//b" .atLeastOnce (.text .owned "x"),
        .unsubscribe "a/+/b" (some (.text .owned "z"))]
    let fanout : Fanout Handle := ⟨[.text .owned "y"], [.atMostOnce]⟩
    let levels : List Level := [.literal "a", .single, .literal "b"]
    scan "a//b" = ⟨levels, none⟩ ∧
      ∃ filters : List (List Level),
        filters.Pairwise Precedes ∧
        (∀ filter, filter ∈ filters ↔ Covers filter levels) ∧
        (ofHistory changes).collect "a//b" .atLeastOnce fanout =
          let entries := filters.flatMap (ofHistory changes).slot
          (.ok (),
            { subscribers := fanout.subscribers ++ entries.map Subscription.subscriber
              qos := fanout.qos ++ List.replicate entries.length .atLeastOnce }) := by
  intro changes fanout levels
  have hscan : scan "a//b" = ⟨levels, none⟩ := by decide +kernel
  exact ⟨hscan, collect_ofHistory changes hscan .atLeastOnce fanout⟩

end SubscriptionTree

end TopicRouter
