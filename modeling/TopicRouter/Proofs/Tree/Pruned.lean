import TopicRouter.Tree.Walk

/-!
# Trees without empty nodes

A node with neither a value nor branches says nothing.  In a `Pruned` tree
there is none below the root, and so its nodes are known from its values: a
path has a node when a value is stored there or further down.  Two pruned
trees with the same values have the same nodes.

Editing creates no empty node.  Growing does so only at its own path, and
only where it leaves the place vacant.  `EmptyWithin` keeps the account of the
paths where that has happened.

## Main results

* `Tree.EmptyWithin.grow`, `Tree.EmptyWithin.edit` — where changes leave empty
  nodes.
* `Tree.Pruned.isSome_at?_iff` — the nodes of a pruned tree, by its slots.
* `Tree.Pruned.sameNodes` — trees with the same slots have the same nodes.
-/

namespace TopicRouter

universe u

namespace Tree

variable {α : Type u}

/-! ## Nodes below a node -/

theorem at?_append (tree : Tree α) (path below : List Level) :
    tree.at? (path ++ below) = (tree.at? path).bind fun found => found.at? below := by
  induction path generalizing tree with
  | nil => rfl
  | cons level path ih =>
      rw [List.cons_append, at?_cons, at?_cons, Option.bind_assoc]
      exact congrArg _ (funext fun child => ih child)

/-! ## Trees with the same nodes -/

/-- The trees have nodes at the same paths, and the same values there. -/
def SameNodes (tree tree' : Tree α) : Prop :=
  ∀ path, (tree.at? path).map value = (tree'.at? path).map value

namespace SameNodes

variable {tree tree' : Tree α}

theorem value_eq (h : SameNodes tree tree') : tree.value = tree'.value :=
  Option.some.inj (h [])

/-- The branches of such trees pair off, and are searched alike. -/
theorem elim_child?_eq {γ : Type u} (h : SameNodes tree tree') (level : Level) (missing : γ)
    {search : Tree α → γ}
    (hsearch : ∀ {child child'}, SameNodes child child' → search child = search child') :
    (tree.child? level).elim missing search = (tree'.child? level).elim missing search := by
  have hbelow : ∀ path, ((tree.child? level).bind fun child => child.at? path).map value =
      ((tree'.child? level).bind fun child => child.at? path).map value := fun path => by
    rw [← at?_cons, ← at?_cons, h]
  have hroot := hbelow []
  cases hchild : tree.child? level with
  | none =>
      cases hchild' : tree'.child? level with
      | none => rfl
      | some child' => simp [hchild, hchild'] at hroot
  | some child =>
      cases hchild' : tree'.child? level with
      | none => simp [hchild, hchild'] at hroot
      | some child' =>
          rw [hchild, hchild'] at hbelow
          exact hsearch hbelow

theorem slot_eq [Slot α] (h : SameNodes tree tree') : tree.slot = tree'.slot := by
  funext path
  rw [slot_eq_getD, slot_eq_getD, h path]

end SameNodes

/-! ## Empty nodes -/

variable [Slot α]

theorem slot_append_of_at? {tree found : Tree α} {path : List Level}
    (h : tree.at? path = some found) (below : List Level) :
    tree.slot (path ++ below) = found.slot below := by
  rw [slot_eq_getD, slot_eq_getD, at?_append, h]
  rfl

theorem child?_prune (a : α) (level key : Level) (child : Tree α)
    (branches : List (Level × Tree α)) :
    (node a (prune level child branches)).child? key =
      if key = level then (if child.isEmpty then none else some child)
      else (node a branches).child? key := by
  unfold prune
  split
  · exact Branches.lookup_drop level key branches
  · exact child?_put a level key child branches

/-- A node is empty after growing only if it is where the path ends and is left
vacant. -/
theorem eq_nil_of_isEmpty_grow {tree : Tree α} {path : List Level} {update : α → α}
    (h : (tree.grow path update).isEmpty = true) :
    path = [] ∧ update (tree.slot path) = Slot.vacant := by
  cases path with
  | nil =>
      rw [isEmpty, Bool.and_eq_true, Slot.isVacant_iff] at h
      exact ⟨rfl, h.1⟩
  | cons level path =>
      rw [isEmpty, Bool.and_eq_true, List.isEmpty_iff] at h
      have hlookup := Branches.lookup_put level level
        (((tree.child? level).getD empty).grow path update) tree.branches
      rw [show Branches.put level _ tree.branches = [] from h.2] at hlookup
      simp at hlookup

/-- Below the root, every empty node is at one of the places. -/
def EmptyWithin (places : List Level → Prop) (tree : Tree α) : Prop :=
  ∀ path found, path ≠ [] → tree.at? path = some found → found.isEmpty = true → places path

namespace EmptyWithin

variable {places : List Level → Prop}

/-- The empty nodes of a tree are those of its branches. -/
theorem iff_child {tree : Tree α} :
    EmptyWithin places tree ↔ ∀ level child, tree.child? level = some child →
      (child.isEmpty = true → places [level]) ∧
        EmptyWithin (fun path => places (level :: path)) child := by
  constructor
  · intro h level child hchild
    have hat : ∀ path, tree.at? (level :: path) = child.at? path := fun path => by
      rw [at?_cons, hchild]
      rfl
    exact ⟨fun hempty => h [level] child (List.cons_ne_nil _ _) (hat []) hempty,
      fun path found _ hfound => h (level :: path) found (List.cons_ne_nil _ _)
        ((hat path).trans hfound)⟩
  · intro h path found hpath hat hempty
    cases path with
    | nil => exact absurd rfl hpath
    | cons level path =>
        rw [at?_cons, Option.bind_eq_some_iff] at hat
        obtain ⟨child, hchild, hat⟩ := hat
        obtain ⟨hroot, hbelow⟩ := h level child hchild
        cases path with
        | nil =>
            cases hat
            exact hroot hempty
        | cons level' path =>
            exact hbelow (level' :: path) found (List.cons_ne_nil _ _) hat hempty

theorem empty : EmptyWithin places (Tree.empty : Tree α) :=
  iff_child.2 fun _ _ hchild => by cases hchild

theorem mono {places' : List Level → Prop} {tree : Tree α} (h : EmptyWithin places tree)
    (hplaces : ∀ path, places path → places' path) : EmptyWithin places' tree :=
  fun path found hpath hat hempty => hplaces path (h path found hpath hat hempty)

/-- Growing leaves an empty node at most at its own path, and only where it
leaves the place vacant. -/
theorem grow {tree : Tree α} (h : EmptyWithin places tree) {path : List Level}
    {update : α → α} (hplace : update (tree.slot path) = Slot.vacant → places path) :
    EmptyWithin places (tree.grow path update) := by
  induction path generalizing tree places with
  | nil => exact iff_child.2 fun key child hchild => iff_child.1 h key child hchild
  | cons level path ih =>
      refine iff_child.2 fun key child hchild => ?_
      rw [Tree.grow, child?_put] at hchild
      split at hchild
      · rename_i hkey
        subst hkey
        obtain rfl := Option.some.inj hchild
        have hbelow : EmptyWithin (fun path => places (key :: path))
            ((tree.child? key).getD Tree.empty) := by
          cases hold : tree.child? key with
          | none => exact empty
          | some old => exact (iff_child.1 h key old hold).2
        rw [slot_cons] at hplace
        refine ⟨fun hempty => ?_, ih hbelow hplace⟩
        obtain ⟨rfl, hvacant⟩ := eq_nil_of_isEmpty_grow hempty
        exact hplace hvacant
      · exact iff_child.1 h key child hchild

/-- Editing leaves no empty node that was not there. -/
theorem edit {ε : Type} {tree tree' : Tree α} (h : EmptyWithin places tree)
    {path : List Level} {missing : ε} {update : α → Except ε α}
    (hedit : tree.edit path missing update = .ok tree') : EmptyWithin places tree' := by
  induction path generalizing tree tree' places with
  | nil =>
      simp only [Tree.edit] at hedit
      split at hedit
      · cases hedit
        exact iff_child.2 fun key child hchild => iff_child.1 h key child hchild
      · cases hedit
  | cons level path ih =>
      simp only [Tree.edit] at hedit
      split at hedit
      · cases hedit
      rename_i old hold
      split at hedit
      · rename_i new hnew
        cases hedit
        refine iff_child.2 fun key child hchild => ?_
        rw [child?_prune] at hchild
        split at hchild
        · rename_i hkey
          subst hkey
          split at hchild
          · cases hchild
          · rename_i hfull
            obtain rfl := Option.some.inj hchild
            exact ⟨fun hempty => absurd hempty hfull, ih (iff_child.1 h key old hold).2 hnew⟩
        · exact iff_child.1 h key child hchild
      · cases hedit

theorem insert {tree : Tree α} (h : EmptyWithin places tree) {topic : Scan} {update : α → α}
    (hupdate : topic.fault? = none → update (tree.slot topic.levels) ≠ Slot.vacant)
    (hfault : topic.fault? ≠ none → places topic.levels) :
    EmptyWithin places (tree.insert topic update).2 := by
  unfold Tree.insert
  split
  · rename_i hnone
    exact h.grow fun hvacant => absurd hvacant (hupdate hnone)
  · rename_i fault hsome
    exact h.grow fun _ => hfault (by simp [hsome])

theorem remove {tree tree' : Tree α} (h : EmptyWithin places tree) {topic : Scan}
    {missing : TopicError} {update : α → Except TopicError α}
    (hremove : tree.remove topic missing update = .ok tree') : EmptyWithin places tree' :=
  h.edit hremove

end EmptyWithin

/-! ## Pruned trees -/

/-- No node below the root is empty. -/
def Pruned (tree : Tree α) : Prop := EmptyWithin (fun _ => False) tree

/-- A pruned tree that is not empty has a value. -/
theorem exists_slot_ne_vacant :
    (tree : Tree α) → Pruned tree → tree.isEmpty = false →
      ∃ path, tree.slot path ≠ Slot.vacant
  | node value [], _, hfull => by
      refine ⟨[], fun hvacant => ?_⟩
      rw [slot_nil] at hvacant
      rw [isEmpty, (Slot.isVacant_iff _).2 hvacant] at hfull
      cases hfull
  | node value ((level, child) :: rest), h, _ => by
      -- The first branch is found under its level, so the search goes on in it.
      have hchild : (node value ((level, child) :: rest)).child? level = some child :=
        List.lookup_cons_self
      obtain ⟨hroot, hbelow⟩ := EmptyWithin.iff_child.1 h level child hchild
      obtain ⟨path, hpath⟩ :=
        exists_slot_ne_vacant child hbelow (Bool.eq_false_iff.2 hroot)
      refine ⟨level :: path, ?_⟩
      rwa [slot_cons, hchild]

namespace Pruned

variable {tree tree' : Tree α}

theorem at? {found : Tree α} {path : List Level} (h : Pruned tree)
    (hat : tree.at? path = some found) : Pruned found := by
  intro below below' hbelow hfound hempty
  refine h (path ++ below) below' (by simp [hbelow]) ?_ hempty
  rw [at?_append, hat]
  exact hfound

/-- **The nodes of a pruned tree**, save its root, are where a value is stored
or leads to a value further down. -/
theorem isSome_at?_iff (h : Pruned tree) {path : List Level} (hpath : path ≠ []) :
    (tree.at? path).isSome = true ↔ ∃ below, tree.slot (path ++ below) ≠ Slot.vacant := by
  constructor
  · intro hsome
    obtain ⟨found, hfound⟩ := Option.isSome_iff_exists.1 hsome
    obtain ⟨below, hbelow⟩ := exists_slot_ne_vacant found (h.at? hfound)
      (Bool.eq_false_iff.2 (h path found hpath hfound))
    exact ⟨below, by rwa [slot_append_of_at? hfound]⟩
  · rintro ⟨below, hbelow⟩
    cases hat : tree.at? path with
    | some found => rfl
    | none =>
        refine absurd (slot_of_at?_eq_none ?_) hbelow
        rw [at?_append, hat]
        rfl

/-- **Pruned trees with the same values have the same nodes.** -/
theorem sameNodes (h : Pruned tree) (h' : Pruned tree') (hslot : tree.slot = tree'.slot) :
    SameNodes tree tree' := by
  intro path
  have hvalue := congrFun hslot path
  rw [slot_eq_getD, slot_eq_getD] at hvalue
  by_cases hpath : path = []
  · rw [hpath] at hvalue ⊢
    exact congrArg some hvalue
  · have hnode : (tree.at? path).isSome = (tree'.at? path).isSome := by
      rw [Bool.eq_iff_iff, h.isSome_at?_iff hpath, h'.isSome_at?_iff hpath, hslot]
    cases hat : tree.at? path <;> cases hat' : tree'.at? path <;> simp_all

end Pruned

end Tree

end TopicRouter
