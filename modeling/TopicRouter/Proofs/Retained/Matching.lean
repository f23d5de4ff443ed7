import Mathlib.Data.List.Basic
import TopicRouter.Proofs.Tree.Keyed
import TopicRouter.Retained.History
import TopicRouter.Topic.Cover

/-!
# Which retained messages a filter finds

A filter with wildcards is searched for by visiting branches: all of them for
`+`, whole subtrees for `#`, and else the one that is written.  What is found
is what is stored at the paths that the filter covers, each path once, and
the order in which the branches are visited decides only the order of the
messages.

## Main results

* `Tree.Keyed.backward_eq_done` — a search finds the values at the paths that
  the filter covers.
* `RetainedTree.collect_of_reordered` — so does a filter, in every tree that a
  history leads to and in every order of its branches.
-/

namespace TopicRouter

universe u

/-! ## Searching visits the paths that the filter covers -/

namespace Tree

variable {β : Type u}

/-- The values at the paths with a property, node by node. -/
def valuesAt (property : List Level → Bool) (tree : Tree (Option β)) : List β :=
  (tree.nodes.filter fun entry => property entry.1).filterMap fun entry => entry.2.value

/-- The value of the root comes first, and then those below each branch. -/
theorem valuesAt_eq (property : List Level → Bool) (tree : Tree (Option β)) :
    tree.valuesAt property =
      (if property [] then tree.value.toList else []) ++
        tree.branches.flatMap fun branch =>
          branch.2.valuesAt fun path => property (branch.1 :: path) := by
  rw [valuesAt, nodes_eq_cons, nodesBelow_eq_flatMap, List.filter_cons, List.filter_flatMap]
  have hbelow :
      (tree.branches.flatMap fun branch =>
        (branch.2.nodes.map fun entry => (branch.1 :: entry.1, entry.2)).filter
          fun entry => property entry.1).filterMap (fun entry => entry.2.value) =
      tree.branches.flatMap fun branch =>
        branch.2.valuesAt fun path => property (branch.1 :: path) := by
    rw [List.filterMap_flatMap]
    simp only [List.filter_map, List.filterMap_map]
    rfl
  split
  · rw [List.filterMap_cons, hbelow]
    cases tree.value <;> rfl
  · exact hbelow

theorem valuesAt_of_forall_false {property : List Level → Bool}
    (h : ∀ path, property path = false) (tree : Tree (Option β)) :
    tree.valuesAt property = [] := by
  simp [valuesAt, h]

private theorem multi_notMem_dropLast_of_cons {level : Level} {rest : List Level}
    (h : Level.multi ∉ (level :: rest).dropLast) : Level.multi ∉ rest.dropLast := by
  by_cases hrest : rest = []
  · simp [hrest]
  · rw [List.dropLast_cons_of_ne_nil hrest] at h
    exact fun hmem => h (List.mem_cons_of_mem _ hmem)

private theorem eq_nil_of_multi_notMem_dropLast {rest : List Level}
    (h : Level.multi ∉ (Level.multi :: rest).dropLast) : rest = [] := by
  by_cases hrest : rest = []
  · exact hrest
  · rw [List.dropLast_cons_of_ne_nil hrest] at h
    exact absurd List.mem_cons_self h

/-- **A search finds the values at the covered paths.**  In the filter, the
wildcard for all remaining levels may only come last. -/
theorem Keyed.backward_eq_done {tree : Tree (Option β)} (h : tree.Keyed)
    {filter : List Level} (hlast : Level.multi ∉ filter.dropLast) :
    tree.backward none filter = .done (tree.valuesAt (covers filter)) := by
  induction filter generalizing tree with
  | nil =>
      have hbelow : ∀ branch ∈ tree.branches,
          (branch.2.valuesAt fun path => covers [] (branch.1 :: path)) = [] :=
        fun branch _ => valuesAt_of_forall_false (fun _ => rfl) branch.2
      rw [backward, valuesAt_eq, List.flatMap_eq_nil_iff.2 hbelow, List.append_nil]
      rfl
  | cons level rest ih =>
      cases level with
      | multi =>
          have hall : ∀ entry ∈ tree.nodes, covers [.multi] entry.1 = true :=
            fun entry _ => rfl
          rw [eq_nil_of_multi_notMem_dropLast hlast, backward, valuesAt,
            List.filter_eq_self.2 hall]
      | single =>
          have hrest := multi_notMem_dropLast_of_cons hlast
          have hbranches :
              (tree.branches.map fun branch => branch.2.backward none rest) =
                tree.branches.map fun branch =>
                  .done (branch.2.valuesAt (covers rest)) :=
            List.map_congr_left fun branch hbranch => ih (h.of_mem_branches hbranch) hrest
          rw [backward, hbranches, Lookup.concat_map_done, valuesAt_eq]
          simp [covers]
      | literal text =>
          have hrest := multi_notMem_dropLast_of_cons hlast
          -- Below any other level, nothing is covered.
          have hother : ∀ branch ∈ tree.branches, branch.1 ≠ .literal text →
              (branch.2.valuesAt fun path =>
                covers (.literal text :: rest) (branch.1 :: path)) = [] := by
            intro branch _ hne
            exact valuesAt_of_forall_false (fun path => by simp [covers, hne]) branch.2
          rw [backward, valuesAt_eq,
            Branches.flatMap_eq_elim_lookup h.nodup_levels hother, ← child?]
          cases hchild : tree.child? (.literal text) with
          | none => simp [covers]
          | some child =>
              rw [Option.elim_some]
              simp [covers, ih (h.of_child? hchild) hrest]

theorem Keyed.mem_paths_iff {tree : Tree β} (h : tree.Keyed) {path : List Level} :
    path ∈ tree.nodes.map Prod.fst ↔ (tree.at? path).isSome = true := by
  rw [List.mem_map, Option.isSome_iff_exists]
  constructor
  · rintro ⟨⟨_, found⟩, hentry, rfl⟩
    exact ⟨found, h.mem_nodes_iff.1 hentry⟩
  · rintro ⟨found, hat⟩
    exact ⟨(path, found), h.mem_nodes_iff.2 hat, rfl⟩

/-- The values at the paths with a property are the slots of these paths, of
which each is counted once. -/
theorem Keyed.valuesAt_eq_filterMap_slot {tree : Tree (Option β)} (h : tree.Keyed)
    (property : List Level → Bool) :
    ∃ paths : List (List Level), paths.Nodup ∧
      (∀ path, path ∈ paths ↔ property path = true ∧ (tree.slot path).isSome = true) ∧
      tree.valuesAt property = paths.filterMap tree.slot := by
  refine ⟨((tree.nodes.map Prod.fst).filter property).filter
    fun path => (tree.slot path).isSome, (h.nodup_paths.filter _).filter _, ?_, ?_⟩
  · intro path
    rw [List.mem_filter, List.mem_filter, h.mem_paths_iff]
    constructor
    · rintro ⟨⟨_, hproperty⟩, hslot⟩
      exact ⟨hproperty, hslot⟩
    · rintro ⟨hproperty, hslot⟩
      refine ⟨⟨?_, hproperty⟩, hslot⟩
      cases hat : tree.at? path with
      | some found => rfl
      | none =>
          rw [slot_of_at?_eq_none hat] at hslot
          cases hslot
  · have hvacant : ∀ path, (if (tree.slot path).isSome then tree.slot path else none) =
        tree.slot path := by
      intro path
      cases tree.slot path <;> rfl
    have hslot : ∀ entry ∈ tree.nodes.filter fun entry => property entry.1,
        entry.2.value = tree.slot entry.1 := by
      intro entry hentry
      have hat := h.mem_nodes_iff.1 (List.mem_filter.1 hentry).1
      exact (slot_of_at?_eq_some hat).symm
    rw [List.filterMap_filter, funext hvacant, List.filter_map, List.filterMap_map, valuesAt]
    exact List.filterMap_congr hslot

end Tree

/-! ## Filters -/

namespace RetainedTree

theorem keyed_apply {tree : RetainedTree} (h : tree.Keyed) (change : RetainedChange) :
    Tree.Keyed (tree.apply change).2 := by
  cases change with
  | keep topic message => exact h.insert _ _
  | clear topic =>
      rw [apply]
      split
      · rename_i changed hclear
        exact h.remove hclear
      · exact h

theorem keyed_run {tree : RetainedTree} (h : tree.Keyed) (changes : List RetainedChange) :
    Tree.Keyed (tree.run changes).2 := by
  induction changes generalizing tree with
  | nil => exact h
  | cons change rest ih => exact ih (keyed_apply h change)

theorem keyed_ofHistory (changes : List RetainedChange) :
    Tree.Keyed (ofHistory changes) :=
  keyed_run Tree.Keyed.empty changes

/-- What a filter without a fault finds. -/
theorem lookup_eq_done {tree : RetainedTree} (h : tree.Keyed) {filter : String}
    {levels : List Level} (hscan : scan filter = ⟨levels, none⟩) :
    tree.lookup filter = .done (Tree.valuesAt (covers levels) tree) := by
  have hlast := Scan.multi_notMem_dropLast_ofChars filter.toList
  rw [← scan, hscan] at hlast
  rw [lookup, hscan]
  exact h.backward_eq_done hlast

/-- **A filter finds the messages at the paths that it covers.**  Each of
these paths is counted once, and none is left out, whatever the order in which
the branches of the tree are visited. -/
theorem collect_of_reordered (changes : List RetainedChange) {tree : RetainedTree}
    (horder : Tree.Reordered (ofHistory changes) tree) {filter : String}
    {levels : List Level} (hscan : scan filter = ⟨levels, none⟩)
    (buffer : List Message) :
    ∃ paths : List (List Level),
      paths.Nodup ∧
      (∀ path, path ∈ paths ↔
        Covers levels path ∧ ((ofHistory changes).slot path).isSome = true) ∧
      tree.collect filter buffer =
        (.ok (), buffer ++ paths.filterMap (ofHistory changes).slot) := by
  have hkeyed := keyed_ofHistory changes
  have htree := horder.keyed hkeyed
  obtain ⟨paths, hnodup, hpaths, hvalues⟩ := htree.valuesAt_eq_filterMap_slot (covers levels)
  refine ⟨paths, hnodup, ?_, ?_⟩
  · intro path
    rw [hpaths, covers_iff, horder.slot_eq hkeyed]
  · rw [collect, lookup_eq_done htree hscan, Lookup.outcome_done, hvalues,
      horder.slot_eq hkeyed]
    rfl

/-- Two branches changed places, one of them under the level that an empty one
reads as. -/
theorem collect_of_swapped_branches :
    let stored (topic : String) : Message := .retained topic .atMostOnce ⟨#[1]⟩
    let changes : List RetainedChange :=
      [.keep "a" (stored "a"), .keep "a/b" (stored "a/b"), .clear "c",
        .keep "a//d" (stored "a//d"), .keep "c/#d" (stored "c/#d")]
    let below (branches : List (Level × RetainedTree)) : RetainedTree :=
      .node none
        [(.literal "a", .node (some (stored "a")) branches), (.literal "c", .node none [])]
    let full : Level × RetainedTree := (.literal "b", .node (some (stored "a/b")) [])
    let empty : Level × RetainedTree :=
      (.single, .node none [(.literal "d", .node (some (stored "a//d")) [])])
    Tree.Reordered (ofHistory changes) (below [empty, full]) ∧
      scan "+/#" = ⟨[.single, .multi], none⟩ ∧
      ∃ paths : List (List Level),
        paths.Nodup ∧
        (∀ path, path ∈ paths ↔
          Covers [.single, .multi] path ∧ ((ofHistory changes).slot path).isSome = true) ∧
        (below [empty, full]).collect "+/#" [stored "c"] =
          (.ok (), [stored "c"] ++ paths.filterMap (ofHistory changes).slot) := by
  intro stored changes below full empty
  have hhistory : ofHistory changes = below [full, empty] := by decide +kernel
  have horder : Tree.Reordered (ofHistory changes) (below [empty, full]) := by
    rw [hhistory]
    exact .branch none _ [] _ (.root _ (.swap _ _ []))
  have hscan : scan "+/#" = ⟨[.single, .multi], none⟩ := by decide +kernel
  exact ⟨horder, hscan, collect_of_reordered changes horder hscan [stored "c"]⟩

end RetainedTree

end TopicRouter
