import TopicRouter.Proofs.Tree.Keyed

/-!
# How deep a walk goes

Changes and searches of a tree are recursive: they go down one level with every
call.  Each of them has a twin here that is told how many levels it may go down
and gives up (`none`) where it would have to go further.  A twin that does not
give up gives the same result, so its limit is a limit on the depth of the
recursion.

Along a topic, a walk goes down one level of the tree for each level of the
topic.  Only the wildcard for all remaining levels lets it go down as far as
there are nodes.

## Main results

* `Tree.insertTo_eq`, `Tree.removeTo_eq`, `Tree.forwardTo_eq` — these go down as
  many levels as the topic has.
* `Tree.nodesTo_eq`, `Tree.backwardTo_eq` — collecting a whole tree goes down as
  many levels as its longest path has.
-/

namespace TopicRouter

universe u

namespace Tree

/-! ## Changes -/

section Changes

variable {α : Type u} [Slot α]

/-- `grow` for at most so many levels. -/
def growTo : Nat → Tree α → List Level → (α → α) → Option (Tree α)
  | _, tree, [], update => some (node (update tree.value) tree.branches)
  | 0, _, _ :: _, _ => none
  | depth + 1, tree, level :: rest, update =>
      (growTo depth ((tree.child? level).getD empty) rest update).map fun child =>
        node tree.value (Branches.put level child tree.branches)

/-- `edit` for at most so many levels. -/
def editTo {ε : Type} : Nat → Tree α → List Level → ε → (α → Except ε α) →
    Option (Except ε (Tree α))
  | _, tree, [], _, update =>
      match update tree.value with
      | .ok value => some (.ok (node value tree.branches))
      | .error e => some (.error e)
  | 0, _, _ :: _, _, _ => none
  | depth + 1, tree, level :: rest, missing, update =>
      match tree.child? level with
      | none => some (.error missing)
      | some child =>
          match editTo depth child rest missing update with
          | none => none
          | some (.ok child) => some (.ok (node tree.value (prune level child tree.branches)))
          | some (.error e) => some (.error e)

/-- Growing goes down as many levels as the path has. -/
theorem growTo_eq {depth : Nat} {path : List Level} (h : path.length ≤ depth) (tree : Tree α)
    (update : α → α) : growTo depth tree path update = some (tree.grow path update) := by
  induction path generalizing depth tree with
  | nil => cases depth <;> rfl
  | cons level rest ih =>
      cases depth with
      | zero => cases h
      | succ depth => rw [growTo, ih (Nat.le_of_succ_le_succ h), grow, Option.map_some]

/-- Editing goes down at most as many levels as the path has. -/
theorem editTo_eq {ε : Type} {depth : Nat} {path : List Level} (h : path.length ≤ depth)
    (tree : Tree α) (missing : ε) (update : α → Except ε α) :
    editTo depth tree path missing update = some (tree.edit path missing update) := by
  induction path generalizing depth tree with
  | nil => cases depth <;> simp only [editTo, edit] <;> cases update tree.value <;> rfl
  | cons level rest ih =>
      cases depth with
      | zero => cases h
      | succ depth =>
          rw [editTo, edit]
          cases tree.child? level with
          | none => rfl
          | some child =>
              simp only [ih (Nat.le_of_succ_le_succ h)]
              cases child.edit rest missing update <;> rfl

/-- `insert` for at most so many levels. -/
def insertTo (depth : Nat) (tree : Tree α) (topic : Scan) (update : α → α) :
    Option (Except TopicError Unit × Tree α) :=
  match topic.fault? with
  | none => (growTo depth tree topic.levels update).map fun grown => (.ok (), grown)
  | some fault => (growTo depth tree topic.levels id).map fun grown => (.error fault, grown)

/-- `remove` for at most so many levels. -/
def removeTo (depth : Nat) (tree : Tree α) (topic : Scan) (missing : TopicError)
    (update : α → Except TopicError α) : Option (Except TopicError (Tree α)) :=
  editTo depth tree topic.levels missing fun value =>
    match topic.fault? with
    | none => update value
    | some fault => .error fault

/-- Inserting goes down as many levels as the topic has, up to its fault. -/
theorem insertTo_eq {depth : Nat} {topic : Scan} (h : topic.levels.length ≤ depth)
    (tree : Tree α) (update : α → α) :
    insertTo depth tree topic update = some (tree.insert topic update) := by
  unfold insertTo insert
  simp only [growTo_eq h, Option.map_some]
  cases topic.fault? <;> rfl

/-- Removing goes down at most as many levels as the topic has. -/
theorem removeTo_eq {depth : Nat} {topic : Scan} (h : topic.levels.length ≤ depth)
    (tree : Tree α) (missing : TopicError) (update : α → Except TopicError α) :
    removeTo depth tree topic missing update = some (tree.remove topic missing update) :=
  editTo_eq h tree missing _

end Changes

/-! ## All nodes -/

section Nodes

variable {α : Type u}

mutual

/-- `nodes` for at most so many levels. -/
def nodesTo (depth : Nat) : Tree α → Option (List (List Level × Tree α))
  | node value branches =>
      (nodesBelowTo depth branches).map fun below => ([], node value branches) :: below

/-- `nodesBelow` for at most so many levels; each branch goes down one. -/
def nodesBelowTo (depth : Nat) :
    List (Level × Tree α) → Option (List (List Level × Tree α))
  | [] => some []
  | (level, child) :: rest =>
      if depth = 0 then none
      else
        match nodesTo (depth - 1) child, nodesBelowTo depth rest with
        | some first, some others =>
            some (first.map (fun entry => (level :: entry.1, entry.2)) ++ others)
        | _, _ => none

end

mutual

/-- Collecting all nodes goes down as many levels as the longest path has. -/
theorem nodesTo_eq {depth : Nat} : (tree : Tree α) →
    (∀ entry ∈ tree.nodes, entry.1.length ≤ depth) → nodesTo depth tree = some tree.nodes
  | node value branches, h => by
      rw [nodesTo, nodes, nodesBelowTo_eq branches fun entry hentry =>
        h entry (List.mem_cons_of_mem _ hentry), Option.map_some]

theorem nodesBelowTo_eq {depth : Nat} : (branches : List (Level × Tree α)) →
    (∀ entry ∈ nodesBelow branches, entry.1.length ≤ depth) →
      nodesBelowTo depth branches = some (nodesBelow branches)
  | [], _ => by rw [nodesBelowTo, nodesBelow]
  | (level, child) :: rest, h => by
      have hchild : ∀ entry ∈ child.nodes, entry.1.length + 1 ≤ depth := fun entry hentry =>
        h (level :: entry.1, entry.2)
          (List.mem_append_left _ (List.mem_map.2 ⟨entry, hentry, rfl⟩))
      have hrest : ∀ entry ∈ nodesBelow rest, entry.1.length ≤ depth := fun entry hentry =>
        h entry (List.mem_append_right _ hentry)
      have hdepth : depth ≠ 0 := by
        have hroot := hchild ([], child) (by rw [nodes_eq_cons]; exact List.mem_cons_self)
        omega
      have hbelow : ∀ entry ∈ child.nodes, entry.1.length ≤ depth - 1 := fun entry hentry => by
        have := hchild entry hentry
        omega
      rw [nodesBelowTo, if_neg hdepth, nodesTo_eq child hbelow, nodesBelowTo_eq rest hrest,
        nodesBelow]

end

end Nodes

/-! ## Searches -/

section Searches

variable {β : Type u}

/-- `forward` for at most so many levels. -/
def forwardTo : Nat → Tree (List β) → Option TopicError → List Level → Option (Lookup β)
  | _, tree, fault?, [] =>
      match fault? with
      | some fault => some (.fail fault)
      | none => some (.done (tree.value ++ tree.coveringRest))
  | 0, _, _, _ :: _ => none
  | depth + 1, tree, fault?, level :: rest =>
      let bySingle :=
        match tree.child? .single with
        | some child => child.forwardTo depth fault? rest
        | none => some (.done [])
      let byLiteral :=
        match level.isWildcard, tree.child? level with
        | false, some child => child.forwardTo depth fault? rest
        | _, _ => some (.done [])
      match bySingle, byLiteral with
      | some single, some literal => some (.done tree.coveringRest ++ single ++ literal)
      | _, _ => none

/-- `backward` for at most so many levels. -/
def backwardTo : Nat → Tree (Option β) → Option TopicError → List Level → Option (Lookup β)
  | _, tree, fault?, [] =>
      match fault? with
      | some fault => some (.fail fault)
      | none => some (.done tree.value.toList)
  | depth, tree, _, .multi :: _ =>
      (nodesTo depth tree).map fun nodes => .done (nodes.filterMap fun entry => entry.2.value)
  | 0, _, _, .single :: _ => none
  | depth + 1, tree, fault?, .single :: rest =>
      (tree.branches.mapM fun (branch : Level × Tree (Option β)) =>
        branch.2.backwardTo depth fault? rest).map .concat
  | 0, _, _, .literal _ :: _ => none
  | depth + 1, tree, fault?, .literal text :: rest =>
      match tree.child? (.literal text) with
      | some child => child.backwardTo depth fault? rest
      | none => some (.done [])

/-- A forward search goes down at most as many levels as the topic has. -/
theorem forwardTo_eq {depth : Nat} {topic : List Level} (h : topic.length ≤ depth)
    (tree : Tree (List β)) (fault? : Option TopicError) :
    forwardTo depth tree fault? topic = some (tree.forward fault? topic) := by
  induction topic generalizing depth tree with
  | nil => cases depth <;> cases fault? <;> rfl
  | cons level rest ih =>
      cases depth with
      | zero => cases h
      | succ depth =>
          have hbelow : ∀ child : Tree (List β),
              child.forwardTo depth fault? rest = some (child.forward fault? rest) :=
            ih (Nat.le_of_succ_le_succ h)
          rw [forwardTo, forward]
          cases tree.child? .single <;> cases level.isWildcard <;> cases tree.child? level <;>
            simp only [hbelow]

private theorem mapM_eq_some_map {γ δ : Type u} {items : List γ} {f : γ → Option δ} {g : γ → δ}
    (h : ∀ item ∈ items, f item = some (g item)) : items.mapM f = some (items.map g) := by
  induction items with
  | nil => rfl
  | cons item rest ih =>
      obtain ⟨hitem, hrest⟩ := List.forall_mem_cons.1 h
      rw [List.mapM_cons, hitem, ih hrest]
      rfl

/-- The nodes below a branch are one level less deep. -/
theorem length_le_of_mem_branches {α : Type u} {depth : Nat} {tree : Tree α}
    (h : ∀ entry ∈ tree.nodes, entry.1.length ≤ depth + 1) {branch : Level × Tree α}
    (hbranch : branch ∈ tree.branches) : ∀ entry ∈ branch.2.nodes, entry.1.length ≤ depth := by
  intro entry hentry
  have hmem : (branch.1 :: entry.1, entry.2) ∈ tree.nodes := by
    rw [nodes_eq_cons]
    exact List.mem_cons_of_mem _ (mem_nodesBelow.2 ⟨_, _, _, hbranch, hentry, rfl⟩)
  exact Nat.le_of_succ_le_succ (h _ hmem)

/-- A backward search goes down at most as many levels as the filter has, or as
the longest path has. -/
theorem backwardTo_eq {depth : Nat} {filter : List Level} (h : filter.length ≤ depth)
    {tree : Tree (Option β)} (htree : ∀ entry ∈ tree.nodes, entry.1.length ≤ depth)
    (fault? : Option TopicError) :
    backwardTo depth tree fault? filter = some (tree.backward fault? filter) := by
  induction filter generalizing depth tree with
  | nil => cases depth <;> cases fault? <;> rfl
  | cons level rest ih =>
      cases level with
      | multi =>
          rw [backwardTo, backward, nodesTo_eq tree htree, Option.map_some]
      | single =>
          cases depth with
          | zero => cases h
          | succ depth =>
              have hbelow : ∀ branch ∈ tree.branches,
                  branch.2.backwardTo depth fault? rest =
                    some (branch.2.backward fault? rest) := fun branch hbranch =>
                ih (Nat.le_of_succ_le_succ h) (length_le_of_mem_branches htree hbranch)
              rw [backwardTo, backward, mapM_eq_some_map hbelow, Option.map_some]
      | literal text =>
          cases depth with
          | zero => cases h
          | succ depth =>
              rw [backwardTo, backward]
              cases hchild : tree.child? (.literal text) with
              | none => rfl
              | some child =>
                  obtain ⟨before, after, hbranches, _⟩ := List.lookup_eq_some_iff.1 hchild
                  have hbranch : (Level.literal text, child) ∈ tree.branches := by
                    rw [hbranches]
                    exact List.mem_append_right _ List.mem_cons_self
                  exact ih (Nat.le_of_succ_le_succ h) (length_le_of_mem_branches htree hbranch)

end Searches

end Tree

end TopicRouter
