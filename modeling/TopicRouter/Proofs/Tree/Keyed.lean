import TopicRouter.Tree.Walk

/-!
# Nodes and their paths

Branches are kept in a list, and two of them under one level would make the
second unreachable.  In a `Keyed` tree this does not happen, at any depth:
its nodes are then known by their paths, and the list of all nodes holds each
of them once.  Every tree that is grown and edited from an empty one is keyed.

The order of the branches is of no meaning.  Two trees are `Reordered` when
they differ in that order alone, at any number of nodes; a keyed tree keeps
its slots in every order.

## Main results

* `Tree.Keyed.grow`, `Tree.Keyed.edit` — changes keep a tree keyed.
* `Tree.Keyed.mem_nodes_iff`, `Tree.Keyed.nodup_paths` — the nodes of a keyed
  tree are listed by path, each path once.
* `Tree.Reordered.slot_eq` — the slots do not depend on the order.
-/

namespace TopicRouter

universe u

/-! ## Branches under different levels -/

namespace Branches

variable {α : Type u}

theorem lookup_eq_some_iff_mem {branches : List (Level × α)}
    (hnodup : (branches.map Prod.fst).Nodup) {level : Level} {a : α} :
    branches.lookup level = some a ↔ (level, a) ∈ branches := by
  induction branches with
  | nil => simp
  | cons branch rest ih =>
      obtain ⟨key, b⟩ := branch
      rw [List.map_cons, List.nodup_cons] at hnodup
      obtain ⟨hkey, hrest⟩ := hnodup
      by_cases heq : level = key
      · subst heq
        have hnot : (level, a) ∉ rest := fun h => hkey (List.mem_map.2 ⟨_, h, rfl⟩)
        simp [hnot, eq_comm]
      · rw [List.lookup_cons, beq_eq_false_iff_ne.2 heq, ih hrest]
        simp [heq]

theorem lookup_eq_of_perm {branches branches' : List (Level × α)}
    (hperm : branches.Perm branches') (hnodup : (branches.map Prod.fst).Nodup)
    (level : Level) : branches'.lookup level = branches.lookup level := by
  have hnodup' : (branches'.map Prod.fst).Nodup := (hperm.map Prod.fst).nodup_iff.1 hnodup
  apply Option.ext
  intro a
  rw [lookup_eq_some_iff_mem hnodup', lookup_eq_some_iff_mem hnodup, hperm.mem_iff]

/-- A collection that leaves out all levels but one. -/
theorem flatMap_eq_elim_lookup {γ : Type u} {branches : List (Level × α)}
    (hnodup : (branches.map Prod.fst).Nodup) {level : Level}
    {f : Level × α → List γ}
    (hother : ∀ branch ∈ branches, branch.1 ≠ level → f branch = []) :
    branches.flatMap f = (branches.lookup level).elim [] fun a => f (level, a) := by
  induction branches with
  | nil => rfl
  | cons branch rest ih =>
      obtain ⟨key, a⟩ := branch
      rw [List.map_cons, List.nodup_cons] at hnodup
      obtain ⟨hkey, hrest⟩ := hnodup
      have ih := ih hrest fun branch hbranch => hother branch (List.mem_cons_of_mem _ hbranch)
      rw [List.flatMap_cons, List.lookup_cons, ih]
      by_cases heq : level = key
      · subst heq
        have hnone : rest.lookup level = none := by
          refine Option.eq_none_iff_forall_ne_some.2 fun b hb => hkey ?_
          exact List.mem_map.2 ⟨_, (lookup_eq_some_iff_mem hrest).1 hb, rfl⟩
        rw [hnone, beq_self_eq_true]
        exact List.append_nil _
      · rw [hother (key, a) List.mem_cons_self (Ne.symm heq), beq_eq_false_iff_ne.2 heq,
          List.nil_append]

theorem mem_map_fst_put {level key : Level} {a : α} {branches : List (Level × α)} :
    key ∈ (put level a branches).map Prod.fst ↔
      key = level ∨ key ∈ branches.map Prod.fst := by
  induction branches with
  | nil => simp [put]
  | cons branch rest ih =>
      obtain ⟨key', b⟩ := branch
      unfold put
      split
      · rename_i heq
        simp [heq]
      · rw [List.map_cons, List.mem_cons, ih, List.map_cons, List.mem_cons]
        exact or_left_comm

theorem nodup_put {branches : List (Level × α)} (h : (branches.map Prod.fst).Nodup)
    (level : Level) (a : α) : ((put level a branches).map Prod.fst).Nodup := by
  induction branches with
  | nil => simp [put]
  | cons branch rest ih =>
      obtain ⟨key, b⟩ := branch
      rw [List.map_cons, List.nodup_cons] at h
      unfold put
      split
      · exact List.nodup_cons.2 h
      · rename_i hne
        refine List.nodup_cons.2 ⟨?_, ih h.2⟩
        rw [mem_map_fst_put]
        rintro (heq | hmem)
        · exact hne heq
        · exact h.1 hmem

theorem nodup_drop {branches : List (Level × α)} (h : (branches.map Prod.fst).Nodup)
    (level : Level) : ((drop level branches).map Prod.fst).Nodup :=
  h.sublist (List.filter_sublist.map Prod.fst)

theorem mem_put {level : Level} {a : α} {branch : Level × α}
    {branches : List (Level × α)} (h : branch ∈ put level a branches) :
    branch = (level, a) ∨ branch ∈ branches := by
  induction branches with
  | nil => exact .inl (List.mem_singleton.1 h)
  | cons head rest ih =>
      obtain ⟨key, b⟩ := head
      unfold put at h
      split at h
      · rename_i heq
        rcases List.mem_cons.1 h with h | h
        · exact .inl (by rw [h, heq])
        · exact .inr (List.mem_cons_of_mem _ h)
      · rcases List.mem_cons.1 h with h | h
        · exact .inr (by rw [h]; exact List.mem_cons_self)
        · exact (ih h).imp_right (List.mem_cons_of_mem _)

theorem mem_of_mem_drop {level : Level} {branch : Level × α}
    {branches : List (Level × α)} (h : branch ∈ drop level branches) :
    branch ∈ branches :=
  (List.mem_filter.1 h).1

end Branches

namespace Tree

variable {α : Type u}

/-! ## Keyed trees -/

/-- No node has two branches under one level. -/
inductive Keyed : Tree α → Prop where
  | node (value : α) {branches : List (Level × Tree α)} :
      (branches.map Prod.fst).Nodup →
      (∀ branch ∈ branches, Keyed branch.2) →
      Keyed (node value branches)

namespace Keyed

theorem nodup_levels {tree : Tree α} (h : tree.Keyed) :
    (tree.branches.map Prod.fst).Nodup := by
  cases h with
  | node _ hnodup _ => exact hnodup

theorem of_mem_branches {tree : Tree α} (h : tree.Keyed) {branch : Level × Tree α}
    (hbranch : branch ∈ tree.branches) : branch.2.Keyed := by
  cases h with
  | node _ _ hbelow => exact hbelow branch hbranch

theorem child?_eq_some_iff {tree child : Tree α} (h : tree.Keyed) {level : Level} :
    tree.child? level = some child ↔ (level, child) ∈ tree.branches :=
  Branches.lookup_eq_some_iff_mem h.nodup_levels

theorem of_child? {tree child : Tree α} (h : tree.Keyed) {level : Level}
    (hchild : tree.child? level = some child) : child.Keyed :=
  h.of_mem_branches (h.child?_eq_some_iff.1 hchild)

/-- The root may hold any value. -/
theorem update {tree : Tree α} (h : tree.Keyed) (value : α) :
    (Tree.node value tree.branches).Keyed :=
  .node value h.nodup_levels fun _ => h.of_mem_branches

theorem put {tree child : Tree α} (h : tree.Keyed) (hchild : child.Keyed)
    (level : Level) :
    (Tree.node tree.value (Branches.put level child tree.branches)).Keyed := by
  refine .node _ (Branches.nodup_put h.nodup_levels level child) ?_
  intro branch hbranch
  rcases Branches.mem_put hbranch with rfl | hbranch
  · exact hchild
  · exact h.of_mem_branches hbranch

variable [Slot α]

theorem empty : (Tree.empty : Tree α).Keyed :=
  .node _ List.nodup_nil fun _ hbranch => by cases hbranch

theorem prune {tree child : Tree α} (h : tree.Keyed) (hchild : child.Keyed)
    (level : Level) :
    (Tree.node tree.value (Tree.prune level child tree.branches)).Keyed := by
  unfold Tree.prune
  split
  · refine .node _ (Branches.nodup_drop h.nodup_levels level) ?_
    intro branch hbranch
    exact h.of_mem_branches (Branches.mem_of_mem_drop hbranch)
  · exact h.put hchild level

/-- Growing keeps a tree keyed. -/
theorem grow {tree : Tree α} (h : tree.Keyed) (path : List Level) (update : α → α) :
    (tree.grow path update).Keyed := by
  induction path generalizing tree with
  | nil => exact h.update _
  | cons level path ih =>
      rw [Tree.grow]
      refine h.put (ih ?_) level
      cases hchild : tree.child? level with
      | some child => exact h.of_child? hchild
      | none => exact Keyed.empty

/-- Editing keeps a tree keyed. -/
theorem edit {ε : Type} {tree tree' : Tree α} (h : tree.Keyed) {path : List Level}
    {missing : ε} {update : α → Except ε α}
    (hedit : tree.edit path missing update = .ok tree') : tree'.Keyed := by
  induction path generalizing tree tree' with
  | nil =>
      simp only [Tree.edit] at hedit
      split at hedit
      · cases hedit
        exact h.update _
      · cases hedit
  | cons level path ih =>
      simp only [Tree.edit] at hedit
      split at hedit
      · cases hedit
      rename_i child hchild
      split at hedit
      · rename_i child' hedit'
        cases hedit
        exact h.prune (ih (h.of_child? hchild) hedit') level
      · cases hedit

theorem insert {tree : Tree α} (h : tree.Keyed) (topic : Scan) (update : α → α) :
    (tree.insert topic update).2.Keyed := by
  unfold Tree.insert
  split
  · exact h.grow _ _
  · exact h.grow _ _

theorem remove {tree tree' : Tree α} (h : tree.Keyed) {topic : Scan}
    {missing : TopicError} {update : α → Except TopicError α}
    (hremove : tree.remove topic missing update = .ok tree') : tree'.Keyed :=
  h.edit hremove

end Keyed

/-! ## The list of all nodes -/

theorem nodesBelow_eq_flatMap (branches : List (Level × Tree α)) :
    nodesBelow branches =
      branches.flatMap fun branch =>
        branch.2.nodes.map fun entry => (branch.1 :: entry.1, entry.2) := by
  induction branches with
  | nil => rfl
  | cons branch rest ih => rw [nodesBelow, ih, List.flatMap_cons]

theorem nodes_eq_cons (tree : Tree α) :
    tree.nodes = ([], tree) :: nodesBelow tree.branches := by
  cases tree
  rw [nodes]
  rfl

theorem mem_nodesBelow {branches : List (Level × Tree α)} {path : List Level}
    {found : Tree α} :
    (path, found) ∈ nodesBelow branches ↔
      ∃ level child rest, (level, child) ∈ branches ∧
        (rest, found) ∈ child.nodes ∧ path = level :: rest := by
  rw [nodesBelow_eq_flatMap, List.mem_flatMap]
  constructor
  · rintro ⟨⟨level, child⟩, hbranch, hentry⟩
    obtain ⟨⟨rest, found'⟩, hnode, heq⟩ := List.mem_map.1 hentry
    cases heq
    exact ⟨level, child, rest, hbranch, hnode, rfl⟩
  · rintro ⟨level, child, rest, hbranch, hnode, rfl⟩
    exact ⟨(level, child), hbranch, List.mem_map_of_mem hnode⟩

/-- The nodes of a keyed tree are listed with their paths. -/
theorem Keyed.mem_nodes_iff {tree : Tree α} (h : tree.Keyed) {path : List Level}
    {found : Tree α} : (path, found) ∈ tree.nodes ↔ tree.at? path = some found := by
  induction path generalizing tree with
  | nil =>
      rw [nodes_eq_cons, List.mem_cons, mem_nodesBelow, at?_nil]
      simp [eq_comm]
  | cons level path ih =>
      rw [nodes_eq_cons, List.mem_cons, mem_nodesBelow, at?_cons]
      constructor
      · rintro (hroot | ⟨level', child, rest, hbranch, hnode, hpath⟩)
        · cases hroot
        · cases hpath
          rw [h.child?_eq_some_iff.2 hbranch, Option.bind_some]
          exact (ih (h.of_mem_branches hbranch)).1 hnode
      · intro hat
        obtain ⟨child, hchild, hat⟩ := Option.bind_eq_some_iff.1 hat
        have hnode := (ih (h.of_child? hchild)).2 hat
        exact .inr ⟨level, child, path, h.child?_eq_some_iff.1 hchild, hnode, rfl⟩

/-- Each path is listed once. -/
theorem Keyed.nodup_paths {tree : Tree α} (h : tree.Keyed) :
    (tree.nodes.map Prod.fst).Nodup := by
  induction h with
  | @node value branches hnodup _ ih =>
      rw [nodes_eq_cons, List.map_cons, List.nodup_cons]
      constructor
      · intro hmem
        obtain ⟨⟨path, found⟩, hentry, hpath⟩ := List.mem_map.1 hmem
        obtain ⟨_, _, _, _, _, hcons⟩ := mem_nodesBelow.1 hentry
        rw [hcons] at hpath
        cases hpath
      · rw [Tree.branches, nodesBelow_eq_flatMap, List.map_flatMap, List.Nodup,
          List.pairwise_flatMap]
        constructor
        · intro branch hbranch
          rw [List.map_map, List.pairwise_map]
          refine (List.pairwise_map.1 (ih branch hbranch)).imp ?_
          intro first second hne heq
          exact hne (List.cons.inj heq).2
        · refine (List.pairwise_map.1 hnodup).imp ?_
          intro first second hne path hpath path' hpath' heq
          rw [List.map_map] at hpath hpath'
          obtain ⟨_, _, rfl⟩ := List.mem_map.1 hpath
          obtain ⟨_, _, rfl⟩ := List.mem_map.1 hpath'
          exact hne (List.cons.inj heq).1

/-! ## Branches in another order -/

/-- The same tree up to the order of the branches, at the root and below. -/
inductive Reordered : Tree α → Tree α → Prop where
  | refl (tree : Tree α) : Reordered tree tree
  | root (value : α) {branches branches' : List (Level × Tree α)} :
      branches.Perm branches' → Reordered (node value branches) (node value branches')
  | branch (value : α) (level : Level) (before after : List (Level × Tree α))
      {child child' : Tree α} :
      Reordered child child' →
      Reordered (node value (before ++ (level, child) :: after))
        (node value (before ++ (level, child') :: after))
  | trans {first second third : Tree α} :
      Reordered first second → Reordered second third → Reordered first third

namespace Reordered

/-- Every order of a keyed tree is keyed. -/
theorem keyed {tree tree' : Tree α} (h : Reordered tree tree') (hkeyed : tree.Keyed) :
    tree'.Keyed := by
  induction h with
  | refl tree => exact hkeyed
  | root value hperm =>
      refine .node value ((hperm.map Prod.fst).nodup_iff.1 hkeyed.nodup_levels) ?_
      intro branch hbranch
      exact hkeyed.of_mem_branches (hperm.mem_iff.2 hbranch)
  | branch value level before after _ ih =>
      refine .node value ?_ ?_
      · have hnodup := hkeyed.nodup_levels
        rw [branches, List.map_append, List.map_cons] at hnodup
        rw [List.map_append, List.map_cons]
        exact hnodup
      · intro branch hbranch
        rcases List.mem_append.1 hbranch with hbranch | hbranch
        · exact hkeyed.of_mem_branches (List.mem_append_left _ hbranch)
        rcases List.mem_cons.1 hbranch with rfl | hbranch
        · exact ih (hkeyed.of_mem_branches (List.mem_append_right _ List.mem_cons_self))
        · exact hkeyed.of_mem_branches
            (List.mem_append_right _ (List.mem_cons_of_mem _ hbranch))
  | trans _ _ ih ih' => exact ih' (ih hkeyed)

/-- The paths of a keyed tree and the values there, in every order. -/
theorem map_value_at? {tree tree' : Tree α} (h : Reordered tree tree')
    (hkeyed : tree.Keyed) (path : List Level) :
    (tree'.at? path).map value = (tree.at? path).map value := by
  induction h generalizing path with
  | refl tree => rfl
  | root a hperm =>
      cases path with
      | nil => rfl
      | cons level path =>
          rw [at?_cons, at?_cons, child?, child?, branches, branches,
            Branches.lookup_eq_of_perm hperm hkeyed.nodup_levels]
  | @branch a level before after child child' _ ih =>
      have hchild : child.Keyed :=
        hkeyed.of_mem_branches (List.mem_append_right _ List.mem_cons_self)
      cases path with
      | nil => rfl
      | cons key path =>
          rw [at?_cons, at?_cons, child?, child?, branches, branches,
            List.lookup_append, List.lookup_append, List.lookup_cons, List.lookup_cons]
          cases before.lookup key with
          | some found => rfl
          | none =>
              by_cases hkey : (key == level) = true
              · simp only [hkey, Option.none_or, Option.bind_some]
                exact ih hchild path
              · simp only [hkey]
  | trans hfirst _ ih ih' => rw [ih' (hfirst.keyed hkeyed), ih hkeyed]

theorem isSome_at? {tree tree' : Tree α} (h : Reordered tree tree') (hkeyed : tree.Keyed)
    (path : List Level) : (tree'.at? path).isSome = (tree.at? path).isSome := by
  rw [← Option.isSome_map, h.map_value_at? hkeyed path, Option.isSome_map]

/-- **The slots of a keyed tree are the same in every order.** -/
theorem slot_eq [Slot α] {tree tree' : Tree α} (h : Reordered tree tree')
    (hkeyed : tree.Keyed) : tree'.slot = tree.slot := by
  funext path
  rw [slot_eq_getD, slot_eq_getD, h.map_value_at? hkeyed path]

end Reordered

end Tree

end TopicRouter
