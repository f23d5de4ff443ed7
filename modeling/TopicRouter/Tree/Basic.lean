import TopicRouter.Topic.Level

/-!
# Trees keyed by topic levels

A node holds a value and branches, each under a level.  The value of a node
may be vacant; which value that is, is said by the class `Slot`.  The trees
of the router differ in what they hold and in how they are searched, and
share all of this module.

A tree is changed in two ways.  `grow` creates the nodes of a path that do
not exist yet.  `edit` changes a node that exists, and drops on the way back
every node of the path that is left with neither a value nor branches.

## Main results

* `Tree.slot_grow`, `Tree.slot_edit` — both change the value at their path
  and no other value.
* `Tree.at?_grow_isSome` — growing adds the nodes of the path and no others.
* `Tree.edit_eq_error_iff`, `Tree.edit_of_isSome_at?` — editing fails when
  there is no node at the path, or when the change itself fails.
-/

namespace TopicRouter

universe u

/-- Types of which one value stands for an empty place. -/
class Slot (α : Type u) where
  /-- The value of an empty place. -/
  vacant : α
  /-- Is this that value? -/
  isVacant : α → Bool
  isVacant_iff (a : α) : isVacant a = true ↔ a = vacant

instance (α : Type u) : Slot (List α) :=
  ⟨[], List.isEmpty, fun _ => List.isEmpty_iff⟩

instance (α : Type u) : Slot (Option α) :=
  ⟨none, Option.isNone, fun _ => Option.isNone_iff_eq_none⟩

/-! ## Branches -/

namespace Branches

variable {α : Type u}

/-- Puts a value under a level, in place of the value that was there. -/
def put (level : Level) (a : α) : List (Level × α) → List (Level × α)
  | [] => [(level, a)]
  | (key, b) :: rest =>
      if key = level then (key, a) :: rest else (key, b) :: put level a rest

/-- Removes what is under a level. -/
def drop (level : Level) (branches : List (Level × α)) : List (Level × α) :=
  branches.filter fun branch => branch.1 ≠ level

theorem lookup_put (level key : Level) (a : α) (branches : List (Level × α)) :
    (put level a branches).lookup key =
      if key = level then some a else branches.lookup key := by
  induction branches with
  | nil => simp only [put, List.lookup_cons, List.lookup_nil]; grind
  | cons branch rest ih =>
      obtain ⟨key', b⟩ := branch
      unfold put
      split <;> simp only [List.lookup_cons, ih] <;> grind

theorem lookup_drop (level key : Level) (branches : List (Level × α)) :
    (drop level branches).lookup key =
      if key = level then none else branches.lookup key := by
  induction branches with
  | nil => simp [drop]
  | cons branch rest ih =>
      obtain ⟨key', b⟩ := branch
      simp only [drop] at ih
      simp only [drop, List.filter_cons]
      split <;> simp only [List.lookup_cons, ih] <;> grind

end Branches

/-! ## Nodes -/

/-- A node with its value and its branches. -/
inductive Tree (α : Type u) where
  | node (value : α) (branches : List (Level × Tree α))

namespace Tree

variable {α : Type u}

/-- The value at the root. -/
def value : Tree α → α
  | node value _ => value

/-- The trees one level below the root, each with its level. -/
def branches : Tree α → List (Level × Tree α)
  | node _ branches => branches

/-- The tree under a level. -/
def child? (tree : Tree α) (level : Level) : Option (Tree α) :=
  tree.branches.lookup level

/-- The tree below a path. -/
def at? : Tree α → List Level → Option (Tree α)
  | tree, [] => some tree
  | tree, level :: path =>
      match tree.child? level with
      | some child => child.at? path
      | none => none

mutual

/-- All nodes, each with its path; a node comes before the nodes below it. -/
def nodes : Tree α → List (List Level × Tree α)
  | node value branches => ([], node value branches) :: nodesBelow branches

/-- All nodes of a list of branches. -/
def nodesBelow : List (Level × Tree α) → List (List Level × Tree α)
  | [] => []
  | (level, child) :: rest =>
      child.nodes.map (fun entry => (level :: entry.1, entry.2)) ++ nodesBelow rest

end

section Decidable

variable [DecidableEq α]

mutual

/-- Decides whether two trees are the same. -/
def decEq : (a b : Tree α) → Decidable (a = b)
  | node value branches, node value' branches' =>
      if hvalue : value = value' then
        match decEqBranches branches branches' with
        | .isTrue hbranches => .isTrue (by rw [hvalue, hbranches])
        | .isFalse hbranches => .isFalse fun h => hbranches (node.inj h).2
      else .isFalse fun h => hvalue (node.inj h).1

/-- Decides whether two lists of branches are the same. -/
def decEqBranches : (a b : List (Level × Tree α)) → Decidable (a = b)
  | [], [] => .isTrue rfl
  | [], _ :: _ => .isFalse nofun
  | _ :: _, [] => .isFalse nofun
  | (level, child) :: rest, (level', child') :: rest' =>
      if hlevel : level = level' then
        match child.decEq child', decEqBranches rest rest' with
        | .isTrue hchild, .isTrue hrest => .isTrue (by rw [hlevel, hchild, hrest])
        | .isFalse hchild, _ => .isFalse fun h => hchild (Prod.mk.inj (List.cons.inj h).1).2
        | _, .isFalse hrest => .isFalse fun h => hrest (List.cons.inj h).2
      else .isFalse fun h => hlevel (Prod.mk.inj (List.cons.inj h).1).1

end

instance : DecidableEq (Tree α) := decEq

end Decidable

@[simp] theorem at?_nil (tree : Tree α) : tree.at? [] = some tree := rfl

theorem at?_cons (tree : Tree α) (level : Level) (path : List Level) :
    tree.at? (level :: path) = (tree.child? level).bind fun child => child.at? path := by
  rw [at?]
  cases tree.child? level <;> rfl

theorem child?_put (a : α) (level key : Level) (child : Tree α)
    (branches : List (Level × Tree α)) :
    (node a (Branches.put level child branches)).child? key =
      if key = level then some child else (node a branches).child? key :=
  Branches.lookup_put level key child branches

/-! ## Growing and editing -/

variable [Slot α]

/-- A tree of one node that holds nothing. -/
def empty : Tree α := node Slot.vacant []

/-- Is there neither a value at the root nor a branch? -/
def isEmpty (tree : Tree α) : Bool :=
  Slot.isVacant tree.value && tree.branches.isEmpty

/-- The value at a path, vacant where there is no node. -/
def slot (tree : Tree α) (path : List Level) : α :=
  match tree.at? path with
  | some found => found.value
  | none => Slot.vacant

/-- Changes the value at a path and creates the nodes that lead there. -/
def grow (tree : Tree α) (path : List Level) (update : α → α) : Tree α :=
  match path with
  | [] => node (update tree.value) tree.branches
  | level :: rest =>
      let child := (tree.child? level).getD empty
      node tree.value (Branches.put level (child.grow rest update) tree.branches)

/-- A branch is kept under its level unless it is empty. -/
def prune (level : Level) (child : Tree α) (branches : List (Level × Tree α)) :
    List (Level × Tree α) :=
  if child.isEmpty then Branches.drop level branches
  else Branches.put level child branches

/-- Changes the value at a path, which may fail, and drops the nodes of the
path that are left empty.  Fails with `missing` where there is no node. -/
def edit {ε : Type} (tree : Tree α) (path : List Level) (missing : ε)
    (update : α → Except ε α) : Except ε (Tree α) :=
  match path with
  | [] =>
      match update tree.value with
      | .ok value => .ok (node value tree.branches)
      | .error e => .error e
  | level :: rest =>
      match tree.child? level with
      | none => .error missing
      | some child =>
          match child.edit rest missing update with
          | .ok child => .ok (node tree.value (prune level child tree.branches))
          | .error e => .error e

/-! ## The values by path -/

@[simp] theorem slot_nil (tree : Tree α) : tree.slot [] = tree.value := rfl

theorem slot_cons (tree : Tree α) (level : Level) (path : List Level) :
    tree.slot (level :: path) = ((tree.child? level).getD empty).slot path := by
  simp only [slot, at?_cons]
  cases h : tree.child? level with
  | some child => rfl
  | none => cases path <;> rfl

theorem slot_empty (path : List Level) : (empty : Tree α).slot path = Slot.vacant := by
  cases path <;> rfl

theorem isEmpty_iff {tree : Tree α} : tree.isEmpty = true ↔ tree = empty := by
  cases tree
  simp [isEmpty, empty, value, branches, Slot.isVacant_iff]

/-- A branch that is pruned was empty, so no value is lost. -/
theorem getD_child?_prune (a : α) (level key : Level) (child : Tree α)
    (branches : List (Level × Tree α)) :
    ((node a (prune level child branches)).child? key).getD empty =
      if key = level then child else ((node a branches).child? key).getD empty := by
  unfold prune
  split
  · rename_i h
    rw [child?, Tree.branches, Branches.lookup_drop]
    split
    · exact (isEmpty_iff.1 h).symm
    · rfl
  · rw [child?_put]
    split <;> rfl

/-- Growing changes the value at its path and no other. -/
theorem slot_grow (tree : Tree α) (path : List Level) (update : α → α)
    (other : List Level) :
    (tree.grow path update).slot other =
      if other = path then update (tree.slot path) else tree.slot other := by
  induction path generalizing tree other with
  | nil =>
      cases other with
      | nil => rfl
      | cons level other => simp [grow, slot_cons, child?, branches]
  | cons level path ih =>
      cases other with
      | nil => simp [grow, value]
      | cons key other =>
          simp only [grow, slot_cons, child?_put]
          by_cases hkey : key = level
          · subst hkey
            simp [ih]
          · simp [hkey, child?, branches]

/-- Nodes that are created without a value leave every value as it was. -/
theorem slot_grow_id (tree : Tree α) (path : List Level) :
    (tree.grow path id).slot = tree.slot := by
  funext other
  rw [slot_grow]
  split
  · rename_i heq
    rw [heq, id]
  · rfl

/-- The nodes after growing are those before and those that lead to the
path. -/
theorem at?_grow_isSome (tree : Tree α) (path : List Level) (update : α → α)
    (other : List Level) :
    ((tree.grow path update).at? other).isSome ↔
      (tree.at? other).isSome ∨ other <+: path := by
  induction path generalizing tree other with
  | nil =>
      cases other with
      | nil => simp
      | cons level other => simp [grow, at?_cons, child?, branches]
  | cons level path ih =>
      cases other with
      | nil => simp
      | cons key other =>
          simp only [grow, at?_cons, child?_put, List.cons_prefix_cons]
          by_cases hkey : key = level
          · subst hkey
            cases hchild : tree.child? key with
            | some child => simp [ih]
            | none =>
                simp only [↓reduceIte, Option.getD_none, Option.bind_some, ih,
                  Option.bind_none, true_and]
                cases other <;> simp [empty, at?_cons, child?, branches]
          · simp [hkey, child?, branches]

/-- Editing changes the value at its path and no other. -/
theorem slot_edit {ε : Type} {tree tree' : Tree α} {path : List Level}
    {missing : ε} {update : α → Except ε α}
    (h : tree.edit path missing update = .ok tree') :
    update (tree.slot path) = .ok (tree'.slot path) ∧
      ∀ other, other ≠ path → tree'.slot other = tree.slot other := by
  induction path generalizing tree tree' with
  | nil =>
      simp only [edit] at h
      split at h
      · rename_i hupdate
        cases h
        refine ⟨hupdate, fun other hother => ?_⟩
        cases other with
        | nil => exact absurd rfl hother
        | cons level other => simp [slot_cons, child?, branches]
      · cases h
  | cons level path ih =>
      simp only [edit] at h
      split at h
      · cases h
      rename_i child hchild
      split at h
      · rename_i child' hedit
        cases h
        obtain ⟨hat, hother⟩ := ih hedit
        refine ⟨by simpa [slot_cons, getD_child?_prune, hchild] using hat, ?_⟩
        intro other hne
        cases other with
        | nil => rfl
        | cons key other =>
            rw [slot_cons, slot_cons, getD_child?_prune]
            by_cases hkey : key = level
            · subst hkey
              simpa [hchild] using hother other (by simpa using hne)
            · simp [hkey, child?, branches]
      · cases h

/-- Editing fails when no node is at the path, and else as the change
does. -/
theorem edit_eq_error_iff {ε : Type} {tree : Tree α} {path : List Level}
    {missing e : ε} {update : α → Except ε α} :
    tree.edit path missing update = .error e ↔
      (tree.at? path = none ∧ e = missing) ∨
        ∃ found, tree.at? path = some found ∧ update found.value = .error e := by
  induction path generalizing tree with
  | nil =>
      simp only [edit, at?_nil]
      cases hupdate : update tree.value <;> simp [hupdate, eq_comm]
  | cons level path ih =>
      simp only [edit, at?_cons]
      cases hchild : tree.child? level with
      | none => simp [eq_comm]
      | some child =>
          simp only [Option.bind_some, ← ih]
          cases child.edit path missing update <;> simp

theorem slot_eq_getD (tree : Tree α) (path : List Level) :
    tree.slot path = ((tree.at? path).map value).getD Slot.vacant := by
  rw [slot]
  cases tree.at? path <;> rfl

theorem slot_of_at?_eq_some {tree found : Tree α} {path : List Level}
    (h : tree.at? path = some found) : tree.slot path = found.value := by
  rw [slot, h]

theorem slot_of_at?_eq_none {tree : Tree α} {path : List Level}
    (h : tree.at? path = none) : tree.slot path = Slot.vacant := by
  rw [slot, h]

theorem edit_of_at?_eq_none {ε : Type} {tree : Tree α} {path : List Level}
    (h : tree.at? path = none) (missing : ε) (update : α → Except ε α) :
    tree.edit path missing update = .error missing :=
  edit_eq_error_iff.2 (.inl ⟨h, rfl⟩)

/-- Where there is a node, editing does to its slot what the change does. -/
theorem edit_of_isSome_at? {ε : Type} {tree : Tree α} {path : List Level}
    (h : (tree.at? path).isSome = true) (missing : ε) (update : α → Except ε α) :
    (∃ e, update (tree.slot path) = .error e ∧
        tree.edit path missing update = .error e) ∨
      ∃ value tree', update (tree.slot path) = .ok value ∧
        tree.edit path missing update = .ok tree' := by
  obtain ⟨found, hat⟩ := Option.isSome_iff_exists.1 h
  rw [slot_of_at?_eq_some hat]
  cases hedit : tree.edit path missing update with
  | error e =>
      rcases edit_eq_error_iff.1 hedit with ⟨hnone, _⟩ | ⟨found', hat', hupdate⟩
      · rw [hat] at hnone
        cases hnone
      · rw [hat] at hat'
        cases hat'
        exact .inl ⟨e, hupdate, rfl⟩
  | ok tree' =>
      have hupdate := (slot_edit hedit).1
      rw [slot_of_at?_eq_some hat] at hupdate
      exact .inr ⟨_, tree', hupdate, rfl⟩

end Tree

end TopicRouter
