import Mathlib.Data.List.Forall2
import TopicRouter.Proofs.Retained.Matching
import TopicRouter.Proofs.Subscription.Matching

/-!
# Searches that a fault stops

A faulty topic can be searched for, and its fault is met only by a search that
gets as far as the faulty level.  Whether it does is a question about the nodes
of the tree, and not about its values: the levels before the fault have to lead
to a node, and that node may well be empty.

What is found before is kept.  Among the subscriptions these are some of those
that are stored under the wildcard for all remaining levels, and all of them if
no fault is met.  Among the retained messages it is nothing, since a filter with
a fault never gets to its end and holds no wildcard for all remaining levels; so
the order in which the branches are visited does not show.

## Main results

* `Lookup.Ends.append`, `Lookup.Ends.concat` — how searches in a row end.
* `Tree.forward_ends`, `Tree.Keyed.backward_ends` — how a faulty search ends.
* `SubscriptionTree.collect_faulty_topic`, `RetainedTree.collect_faulty_filter`
  — so in every tree that a history leads to.
-/

namespace TopicRouter

universe u

/-! ## Levels before a fault -/

/-- The level of a filter stands for the one level of a topic. -/
def Level.StandsFor (key level : Level) : Prop := key = .single ∨ key = level

/-- Behind the wildcard for all remaining levels there is no fault. -/
theorem Scan.multi_notMem_of_fault {chars : List Char} (hfault : (ofChars chars).fault? ≠ none) :
    Level.multi ∉ (ofChars chars).levels := by
  fun_induction ofChars chars with
  | case1 => exact absurd rfl hfault
  | case2 chars hne level rest hread ih =>
      intro hmem
      rcases List.mem_cons.1 hmem with rfl | hmem
      · rw [Level.read_multi hne hread, ofChars_nil] at hfault
        exact absurd rfl hfault
      · exact ih hfault hmem
  | case3 => exact List.not_mem_nil

theorem multi_notMem_of_scan {topic : String} {levels : List Level} {fault : TopicError}
    (hscan : scan topic = ⟨levels, some fault⟩) : Level.multi ∉ levels := by
  have hfault : (Scan.ofChars topic.toList).fault? ≠ none := by
    rw [← scan, hscan]
    exact Option.some_ne_none fault
  have hmulti := Scan.multi_notMem_of_fault hfault
  rwa [← scan, hscan] at hmulti

/-! ## How a faulty search ends -/

namespace Lookup

variable {β γ : Type u} {fault : TopicError}

/-- A search for `all` has run to its end, or was stopped by the fault on the
way; it is stopped exactly if the fault is within reach. -/
inductive Ends (fault : TopicError) (reached : Prop) (all : List β) : Lookup β → Prop where
  | finished : ¬ reached → Ends fault reached all (.done all)
  | stopped {found : List β} : reached → found <+: all → Ends fault reached all ⟨found, some fault⟩

namespace Ends

variable {reached reached' : Prop} {all all' : List β} {lookup lookup' : Lookup β}

theorem congr (h : Ends fault reached all lookup) (hreached : reached ↔ reached') :
    Ends fault reached' all lookup := by
  rwa [← propext hreached]

theorem done (all : List β) : Ends fault False all (.done all) := .finished not_false

/-- Of two searches in a row, the second goes on where the first was not
stopped. -/
theorem append (h : Ends fault reached all lookup) (h' : Ends fault reached' all' lookup') :
    Ends fault (reached ∨ reached') (all ++ all') (lookup ++ lookup') := by
  cases h with
  | stopped hreached hfound =>
      exact .stopped (.inl hreached) (hfound.trans (List.prefix_append all all'))
  | finished hreached =>
      cases h' with
      | stopped hreached' hfound =>
          exact .stopped (.inr hreached') ((List.prefix_append_right_inj all).2 hfound)
      | finished hreached' => exact .finished (not_or.2 ⟨hreached, hreached'⟩)

/-- Of searches in a row, each goes on where none before was stopped. -/
theorem concat {items : List γ} {reached : γ → Prop} {all : γ → List β} {search : γ → Lookup β}
    (h : ∀ item ∈ items, Ends fault (reached item) (all item) (search item)) :
    Ends fault (∃ item ∈ items, reached item) (items.flatMap all)
      (.concat (items.map search)) := by
  induction items with
  | nil => exact (done []).congr (by simp)
  | cons item rest ih =>
      obtain ⟨hitem, hrest⟩ := List.forall_mem_cons.1 h
      exact (hitem.append (ih hrest)).congr (by simp)

theorem found_prefix (h : Ends fault reached all lookup) : lookup.found <+: all := by
  cases h with
  | finished => exact List.prefix_refl all
  | stopped _ hfound => exact hfound

theorem of_reached (h : Ends fault reached all lookup) (hreached : reached) :
    lookup.outcome = .error fault := by
  cases h with
  | finished hnot => exact absurd hreached hnot
  | stopped => rfl

theorem of_not_reached (h : Ends fault reached all lookup) (hnot : ¬ reached) :
    lookup = .done all := by
  cases h with
  | finished => rfl
  | stopped hreached => exact absurd hreached hnot

end Ends

end Lookup

namespace Tree

variable {β : Type u}

/-- Nodes that levels lead to, seen from the first level. -/
theorem exists_at?_forall₂_cons {R : Level → Level → Prop} (tree : Tree β) (level : Level)
    (rest : List Level) :
    (∃ path, List.Forall₂ R (level :: rest) path ∧ (tree.at? path).isSome = true) ↔
      ∃ key child, R level key ∧ tree.child? key = some child ∧
        ∃ path, List.Forall₂ R rest path ∧ (child.at? path).isSome = true := by
  constructor
  · rintro ⟨_, hpath, hat⟩
    cases hpath with
    | @cons _ key _ path hkey hpath =>
        cases hchild : tree.child? key with
        | none => simp [at?_cons, hchild] at hat
        | some child =>
            rw [at?_cons, hchild] at hat
            exact ⟨key, child, hkey, hchild, path, hpath, hat⟩
  · rintro ⟨key, child, hkey, hchild, path, hpath, hat⟩
    refine ⟨key :: path, .cons hkey hpath, ?_⟩
    rwa [at?_cons, hchild]

end Tree

/-! ## Subscriptions -/

/-- All filters that cover a topic by a wildcard for its remaining levels, of
which there is at least one, in the order in which they are reported. -/
def openFilters : List Level → List (List Level)
  | [] => []
  | level :: rest =>
      let bySingle := (openFilters rest).map (Level.single :: ·)
      let byLiteral :=
        if level.isWildcard then [] else (openFilters rest).map (level :: ·)
      [.multi] :: (bySingle ++ byLiteral)

theorem pairwise_openFilters (topic : List Level) : (openFilters topic).Pairwise Precedes := by
  induction topic with
  | nil => exact .nil
  | cons level rest ih => exact pairwise_multi_cons level ih

/-- These filters hold levels that stand for the first ones of the topic, and
then the wildcard. -/
theorem mem_openFilters {topic filter : List Level} (hmulti : Level.multi ∉ topic) :
    filter ∈ openFilters topic ↔
      ∃ j < topic.length, ∃ path,
        List.Forall₂ (fun level key => key.StandsFor level) (topic.take j) path ∧
        filter = path ++ [.multi] := by
  induction topic generalizing filter with
  | nil => simp [openFilters]
  | cons level rest ih =>
      obtain ⟨hlevel, hrest⟩ := not_or.1 (mt List.mem_cons.2 hmulti)
      simp only [openFilters, List.mem_cons, List.mem_append, List.mem_map, mem_byLiteral,
        ih hrest]
      constructor
      · rintro (rfl | ⟨_, ⟨j, hj, path, hpath, rfl⟩, rfl⟩ |
          ⟨text, _, rfl, ⟨j, hj, path, hpath, rfl⟩, rfl⟩)
        · exact ⟨0, Nat.succ_pos _, [], .nil, rfl⟩
        · exact ⟨j + 1, Nat.succ_lt_succ hj, _, .cons (.inl rfl) hpath, rfl⟩
        · exact ⟨j + 1, Nat.succ_lt_succ hj, _, .cons (.inr rfl) hpath, rfl⟩
      · rintro ⟨j, hj, path, hpath, rfl⟩
        cases j with
        | zero =>
            cases hpath
            exact .inl rfl
        | succ j =>
            have hj' := Nat.lt_of_succ_lt_succ hj
            rw [List.take_succ_cons] at hpath
            cases hpath with
            | @cons _ key _ path hkey hpath =>
                rcases hkey with rfl | rfl
                · exact .inr (.inl ⟨_, ⟨j, hj', path, hpath, rfl⟩, rfl⟩)
                · cases key with
                  | single => exact .inr (.inl ⟨_, ⟨j, hj', path, hpath, rfl⟩, rfl⟩)
                  | multi => exact absurd rfl hlevel
                  | literal text =>
                      exact .inr (.inr ⟨text, _, rfl, ⟨j, hj', path, hpath, rfl⟩, rfl⟩)

namespace Tree

variable {β : Type u} {fault : TopicError}

/-- How a search ends below one branch, which may be missing. -/
private theorem elim_child?_ends {search : Tree (List β) → Lookup β}
    {reached : Tree (List β) → Prop} {filters : List (List Level)}
    (h : ∀ tree, Lookup.Ends fault (reached tree) (filters.flatMap tree.slot) (search tree))
    (tree : Tree (List β)) (level : Level) :
    Lookup.Ends fault (∃ child, tree.child? level = some child ∧ reached child)
      ((filters.map (level :: ·)).flatMap tree.slot)
      ((tree.child? level).elim (.done []) search) := by
  rw [flatMap_slot_map_cons]
  cases tree.child? level with
  | some child => exact (h child).congr (by simp)
  | none =>
      rw [Option.elim_none, Option.getD_none, flatMap_slot_empty]
      exact (Lookup.Ends.done []).congr (by simp)

/-- **How a search with a faulty topic ends.**  It is stopped if wildcards and
levels before the fault lead to a node.  On its way it collects the slots of the
open filters. -/
theorem forward_ends (tree : Tree (List β)) {topic : List Level}
    (hmulti : Level.multi ∉ topic) :
    Lookup.Ends fault
      (∃ path, List.Forall₂ (fun level key => key.StandsFor level) topic path ∧
        (tree.at? path).isSome = true)
      ((openFilters topic).flatMap tree.slot) (tree.forward (some fault) topic) := by
  induction topic generalizing tree with
  | nil => exact .stopped ⟨[], .nil, rfl⟩ (List.nil_prefix)
  | cons level rest ih =>
      obtain ⟨hlevel, hrest⟩ := not_or.1 (mt List.mem_cons.2 hmulti)
      have hsingle := elim_child?_ends (fun tree => ih tree hrest) tree .single
      -- A wildcard in the topic is covered by no literal.
      have hliteral : Lookup.Ends fault
          (level.isWildcard = false ∧ ∃ child, tree.child? level = some child ∧
            ∃ path, List.Forall₂ (fun level key => key.StandsFor level) rest path ∧
              (child.at? path).isSome = true)
          ((if level.isWildcard then [] else (openFilters rest).map (level :: ·)).flatMap
            tree.slot)
          (if level.isWildcard then .done []
            else (tree.child? level).elim (.done []) (·.forward (some fault) rest)) := by
        have hlevel := elim_child?_ends (fun tree => ih tree hrest) tree level
        cases level.isWildcard with
        | true => exact (Lookup.Ends.done []).congr (by simp)
        | false => exact hlevel.congr (by simp)
      have hall : (openFilters (level :: rest)).flatMap tree.slot =
          tree.coveringRest ++ ((openFilters rest).map (Level.single :: ·)).flatMap tree.slot ++
            (if level.isWildcard then [] else (openFilters rest).map (level :: ·)).flatMap
              tree.slot := by
        simp [openFilters, coveringRest_eq_slot]
      rw [forward_cons, hall, exists_at?_forall₂_cons]
      refine (((Lookup.Ends.done _).append hsingle).append hliteral).congr ?_
      constructor
      · rintro ((hfalse | ⟨child, hchild, hbelow⟩) | ⟨_, child, hchild, hbelow⟩)
        · exact hfalse.elim
        · exact ⟨.single, child, .inl rfl, hchild, hbelow⟩
        · exact ⟨level, child, .inr rfl, hchild, hbelow⟩
      · rintro ⟨key, child, rfl | rfl, hchild, hbelow⟩
        · exact .inl (.inr ⟨child, hchild, hbelow⟩)
        · cases key with
          | multi => exact absurd rfl hlevel
          | single => exact .inl (.inr ⟨child, hchild, hbelow⟩)
          | literal text => exact .inr ⟨rfl, child, hchild, hbelow⟩

end Tree

namespace SubscriptionTree

variable {σ : Type u} [Identity σ]

/-- **What a publication to a faulty topic finds.**  It is refused if wildcards
and levels before the fault lead to a node, and only then.  Whether it is or
not, subscribers are added, and only some that are stored under such levels, at
least one less than there are, with the wildcard for all remaining levels; if it
is not refused, all of these are added, filter by filter. -/
theorem collect_faulty_topic (changes : List (SubscriptionChange σ)) {topic : String}
    {levels : List Level} {fault : TopicError} (hscan : scan topic = ⟨levels, some fault⟩)
    (qos : QoS) (fanout : Fanout σ) :
    let tree := ofHistory changes
    let reached := ∃ path, List.Forall₂ (fun level key => key.StandsFor level) levels path ∧
      (tree.at? path).isSome = true
    ∃ (filters : List (List Level)) (entries : List (Subscription σ))
        (answer : Except TopicError Unit),
      filters.Pairwise Precedes ∧
      (∀ filter, filter ∈ filters ↔ ∃ j < levels.length, ∃ path,
        List.Forall₂ (fun level key => key.StandsFor level) (levels.take j) path ∧
        filter = path ++ [.multi]) ∧
      entries <+: filters.flatMap tree.slot ∧
      tree.collect topic qos fanout =
        (answer,
          { subscribers := fanout.subscribers ++ entries.map Subscription.subscriber
            qos := fanout.qos ++ List.replicate entries.length qos }) ∧
      (reached → answer = .error fault) ∧
      (¬ reached → answer = .ok () ∧ entries = filters.flatMap tree.slot) := by
  intro tree reached
  have hmulti := multi_notMem_of_scan hscan
  have hends : Lookup.Ends fault reached ((openFilters levels).flatMap tree.slot)
      (tree.lookup topic) := by
    rw [lookup, hscan]
    exact Tree.forward_ends tree hmulti
  refine ⟨openFilters levels, (tree.lookup topic).found, (tree.lookup topic).outcome,
    pairwise_openFilters levels, fun filter => mem_openFilters hmulti, hends.found_prefix,
    ?_, hends.of_reached, fun hnot => ?_⟩
  · simp [collect, Fanout.extend, List.map_const']
  · rw [hends.of_not_reached hnot]
    exact ⟨rfl, rfl⟩

/-- A publication is refused for a node that a refused subscription has left,
after one subscriber was found and before the next. -/
theorem collect_faulty_topic_behind_refused :
    let x : Handle := .text .owned "x"
    let changes : List (SubscriptionChange Handle) :=
      [.subscribe "a/#" .atLeastOnce x, .subscribe "+/b/#c" .exactlyOnce x,
        .subscribe "#" .atMostOnce x]
    let tree := ofHistory changes
    let levels : List Level := [.literal "a", .literal "b"]
    let fault : TopicError := .malformed "c#" .multiNotWhole
    let fanout : Fanout Handle := ⟨[x], [.atMostOnce]⟩
    scan "a/b/c#" = ⟨levels, some fault⟩ ∧
      (∃ path, List.Forall₂ (fun level key => key.StandsFor level) levels path ∧
        (tree.at? path).isSome = true) ∧
      ∃ (filters : List (List Level)) (entries : List (Subscription Handle)),
        (∀ filter, filter ∈ filters ↔ ∃ j < levels.length, ∃ path,
          List.Forall₂ (fun level key => key.StandsFor level) (levels.take j) path ∧
          filter = path ++ [.multi]) ∧
        entries <+: filters.flatMap tree.slot ∧
        tree.collect "a/b/c#" .exactlyOnce fanout =
          (.error fault,
            { subscribers := fanout.subscribers ++ entries.map Subscription.subscriber
              qos := fanout.qos ++ List.replicate entries.length .exactlyOnce }) := by
  intro x changes tree levels fault fanout
  have hscan : scan "a/b/c#" = ⟨levels, some fault⟩ := by decide +kernel
  have hnode : ((ofHistory changes).at? [.single, .literal "b"]).isSome = true := by decide +kernel
  have hreached : ∃ path, List.Forall₂ (fun level key => key.StandsFor level) levels path ∧
      (tree.at? path).isSome = true :=
    ⟨_, .cons (.inl rfl) (.cons (.inr rfl) .nil), hnode⟩
  obtain ⟨filters, entries, answer, _, hfilters, hentries, hcollect, hanswer, _⟩ :=
    collect_faulty_topic changes hscan .exactlyOnce fanout
  rw [hanswer hreached] at hcollect
  exact ⟨hscan, hreached, filters, entries, hfilters, hentries, hcollect⟩

end SubscriptionTree

/-! ## Retained messages -/

namespace Tree

variable {β : Type u} {fault : TopicError}

/-- **How a search with a faulty filter ends.**  It is stopped if levels that
those before the fault stand for lead to a node, and it finds nothing. -/
theorem Keyed.backward_ends {tree : Tree (Option β)} (h : tree.Keyed) {filter : List Level}
    (hmulti : Level.multi ∉ filter) :
    Lookup.Ends fault
      (∃ path, List.Forall₂ Level.StandsFor filter path ∧ (tree.at? path).isSome = true)
      [] (tree.backward (some fault) filter) := by
  induction filter generalizing tree with
  | nil => exact .stopped ⟨[], .nil, rfl⟩ List.nil_prefix
  | cons level rest ih =>
      obtain ⟨hlevel, hrest⟩ := not_or.1 (mt List.mem_cons.2 hmulti)
      rw [exists_at?_forall₂_cons]
      cases level with
      | multi => exact absurd rfl hlevel
      | single =>
          have hbranches : Lookup.Ends fault
              (∃ branch ∈ tree.branches, ∃ path, List.Forall₂ Level.StandsFor rest path ∧
                (branch.2.at? path).isSome = true)
              (tree.branches.flatMap fun _ => [])
              (.concat (tree.branches.map fun branch => branch.2.backward (some fault) rest)) :=
            .concat fun branch hbranch => ih (h.of_mem_branches hbranch) hrest
          rw [List.flatMap_eq_nil_iff.2 fun _ _ => rfl] at hbranches
          rw [backward]
          refine hbranches.congr ?_
          constructor
          · rintro ⟨⟨key, child⟩, hbranch, hbelow⟩
            exact ⟨key, child, .inl rfl, h.child?_eq_some_iff.2 hbranch, hbelow⟩
          · rintro ⟨key, child, _, hchild, hbelow⟩
            exact ⟨(key, child), h.child?_eq_some_iff.1 hchild, hbelow⟩
      | literal text =>
          have hkey : ∀ key, (Level.literal text).StandsFor key ↔ key = .literal text := by
            intro key
            simp [Level.StandsFor, eq_comm]
          simp only [hkey]
          rw [backward]
          cases hchild : tree.child? (.literal text) with
          | none => exact (Lookup.Ends.done []).congr (by simp [hchild])
          | some child => exact (ih (h.of_child? hchild) hrest).congr (by simp [hchild])

end Tree

namespace RetainedTree

/-- **What a faulty filter finds.**  It is refused if levels that those before
the fault stand for lead to a node, and only then.  In no case is anything added
to the buffer, whatever the order in which the branches of the tree are
visited. -/
theorem collect_faulty_filter (changes : List RetainedChange) {tree : RetainedTree}
    (horder : Tree.Reordered (ofHistory changes) tree) {filter : String} {levels : List Level}
    {fault : TopicError} (hscan : scan filter = ⟨levels, some fault⟩) (buffer : List Message) :
    let reached := ∃ path, List.Forall₂ Level.StandsFor levels path ∧
      ((ofHistory changes).at? path).isSome = true
    (reached → tree.collect filter buffer = (.error fault, buffer)) ∧
      (¬ reached → tree.collect filter buffer = (.ok (), buffer)) := by
  intro reached
  have hkeyed := keyed_ofHistory changes
  have hends : Lookup.Ends fault reached [] (tree.lookup filter) := by
    rw [lookup, hscan]
    refine ((horder.keyed hkeyed).backward_ends (multi_notMem_of_scan hscan)).congr ?_
    simp only [horder.isSome_at? hkeyed, reached]
  have hfound : (tree.lookup filter).found = [] := List.prefix_nil.1 hends.found_prefix
  rw [collect, hfound, List.append_nil]
  constructor
  · intro hreached
    rw [hends.of_reached hreached]
  · intro hnot
    rw [hends.of_not_reached hnot, Lookup.outcome_done]

/-- Below one of two branches the fault is within reach, whichever of them is
visited first. -/
theorem collect_faulty_filter_below_second :
    let stored (topic : String) : Message := .retained topic .atMostOnce ⟨#[1]⟩
    let changes : List RetainedChange := [.keep "a/c" (stored "a/c"), .keep "/b" (stored "/b")]
    let first : Level × RetainedTree :=
      (.literal "a", .node none [(.literal "c", .node (some (stored "a/c")) [])])
    let second : Level × RetainedTree :=
      (.single, .node none [(.literal "b", .node (some (stored "/b")) [])])
    let levels : List Level := [.single, .literal "b"]
    let fault : TopicError := .malformed "+c" .wildcardNotWhole
    Tree.Reordered (ofHistory changes) (.node none [second, first]) ∧
      scan "/b/+c" = ⟨levels, some fault⟩ ∧
      (∃ path, List.Forall₂ Level.StandsFor levels path ∧
        ((ofHistory changes).at? path).isSome = true) ∧
      collect (.node none [second, first]) "/b/+c" [stored "a/c"] =
        (.error fault, [stored "a/c"]) := by
  intro stored changes first second levels fault
  have hhistory : ofHistory changes = .node none [first, second] := by decide +kernel
  have horder : Tree.Reordered (ofHistory changes) (.node none [second, first]) := by
    rw [hhistory]
    exact .root _ (.swap _ _ [])
  have hscan : scan "/b/+c" = ⟨levels, some fault⟩ := by decide +kernel
  have hnode : ((ofHistory changes).at? [.single, .literal "b"]).isSome = true := by decide +kernel
  have hreached : ∃ path, List.Forall₂ Level.StandsFor levels path ∧
      ((ofHistory changes).at? path).isSome = true :=
    ⟨_, .cons (.inl rfl) (.cons (.inr rfl) .nil), hnode⟩
  exact ⟨horder, hscan, hreached,
    (collect_faulty_filter changes horder hscan [stored "a/c"]).1 hreached⟩

end RetainedTree

end TopicRouter
