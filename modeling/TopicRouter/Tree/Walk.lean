import TopicRouter.Topic.Scan
import TopicRouter.Tree.Basic

/-!
# Walking a tree along a topic

Changes and searches of a tree take the scan of a topic and walk down its
levels.  A fault of the topic is met at the end of those levels, and only by
a walk that gets there.

A tree is searched in two directions.  In `forward` the branches may be
wildcards and the topic is plain: a tree of filters is asked which of them
cover the topic.  In `backward` the topic may hold wildcards and is the
filter: a tree of topics is asked which of them it covers.

## Main results

* `Lookup.concat_map_done` — searches without a fault add up.
* `Tree.insert_fst` — inserting fails exactly when the topic is faulty.
* `Tree.slot_insert`, `Tree.slot_remove` — both change the value at a topic
  without a fault and no other value.
-/

namespace TopicRouter

universe u

/-! ## Results of a search -/

/-- What a search has found, and the fault that ended it early. -/
structure Lookup (β : Type u) where
  found : List β
  fault? : Option TopicError

namespace Lookup

variable {β : Type u}

/-- A search that ran to its end. -/
def done (found : List β) : Lookup β := ⟨found, none⟩

/-- A search that met a fault before it found anything. -/
def fail (fault : TopicError) : Lookup β := ⟨[], some fault⟩

/-- One search and then another, which is left out after a fault. -/
protected def append (first second : Lookup β) : Lookup β :=
  match first.fault? with
  | some _ => first
  | none => ⟨first.found ++ second.found, second.fault?⟩

instance : Append (Lookup β) := ⟨Lookup.append⟩

/-- Searches in a row. -/
def concat (lookups : List (Lookup β)) : Lookup β :=
  lookups.foldr (· ++ ·) (done [])

/-- Did the search run to its end? -/
def outcome (lookup : Lookup β) : Except TopicError Unit :=
  match lookup.fault? with
  | none => .ok ()
  | some fault => .error fault

@[simp] theorem done_append_done (first second : List β) :
    done first ++ done second = done (first ++ second) := rfl

@[simp] theorem outcome_done (found : List β) : (done found).outcome = .ok () := rfl

/-- Searches that all run to their ends find what each of them finds. -/
theorem concat_map_done {γ : Type u} (found : γ → List β) (items : List γ) :
    concat (items.map fun item => done (found item)) = done (items.flatMap found) := by
  induction items with
  | nil => rfl
  | cons item rest ih =>
      change done (found item) ++ concat (rest.map fun item => done (found item)) = _
      rw [ih, done_append_done, List.flatMap_cons]

end Lookup

namespace Tree

/-! ## Changing the tree at a topic -/

section Changes

variable {α : Type u} [Slot α]

/-- Changes the value at a topic and creates the nodes that lead there.  Of a
faulty topic, the nodes that lead to its fault are created. -/
def insert (tree : Tree α) (topic : Scan) (update : α → α) :
    Except TopicError Unit × Tree α :=
  match topic.fault? with
  | none => (.ok (), tree.grow topic.levels update)
  | some fault => (.error fault, tree.grow topic.levels id)

/-- Changes the value at a topic that has a node, and drops the nodes that
this leaves empty.  A fault of the topic is reported when the nodes that lead
to it exist, and else `missing`. -/
def remove (tree : Tree α) (topic : Scan) (missing : TopicError)
    (update : α → Except TopicError α) : Except TopicError (Tree α) :=
  tree.edit topic.levels missing fun value =>
    match topic.fault? with
    | none => update value
    | some fault => .error fault

theorem remove_of_fault {topic : Scan} {fault : TopicError}
    (h : topic.fault? = some fault) (tree : Tree α) (missing : TopicError)
    (update : α → Except TopicError α) :
    tree.remove topic missing update =
      tree.edit topic.levels missing fun _ => .error fault := by
  simp [remove, h]

theorem remove_of_no_fault {topic : Scan} (h : topic.fault? = none) (tree : Tree α)
    (missing : TopicError) (update : α → Except TopicError α) :
    tree.remove topic missing update = tree.edit topic.levels missing update := by
  simp [remove, h]

/-- Inserting fails exactly when the topic is faulty. -/
theorem insert_fst (tree : Tree α) (topic : Scan) (update : α → α) :
    (tree.insert topic update).1 = topic.outcome := by
  unfold insert Scan.outcome
  split <;> simp_all

/-- Inserting changes the value at a topic without a fault, and no other. -/
theorem slot_insert (tree : Tree α) (topic : Scan) (update : α → α)
    (path : List Level) :
    (tree.insert topic update).2.slot path =
      if topic = ⟨path, none⟩ then update (tree.slot path) else tree.slot path := by
  obtain ⟨levels, fault?⟩ := topic
  cases fault? with
  | some fault => simp [insert, slot_grow_id]
  | none =>
      rw [insert, slot_grow]
      by_cases hpath : path = levels
      · simp [hpath]
      · simp [hpath, Ne.symm hpath]

/-- Removing changes the value at a topic without a fault, and no other. -/
theorem slot_remove {tree tree' : Tree α} {topic : Scan} {missing : TopicError}
    {update : α → Except TopicError α}
    (h : tree.remove topic missing update = .ok tree') :
    topic.fault? = none ∧
      update (tree.slot topic.levels) = .ok (tree'.slot topic.levels) ∧
      ∀ path, path ≠ topic.levels → tree'.slot path = tree.slot path := by
  obtain ⟨hat, hother⟩ := slot_edit h
  cases hfault : topic.fault? with
  | some fault =>
      rw [hfault] at hat
      cases hat
  | none =>
      rw [hfault] at hat
      exact ⟨rfl, hat, hother⟩

end Changes

/-! ## Searching the tree -/

section Searches

variable {β : Type u}

/-- The entries under the wildcard for all remaining levels. -/
def coveringRest (tree : Tree (List β)) : List β :=
  match tree.child? .multi with
  | some child => child.value
  | none => []

/-- The entries at the paths that cover a topic, wildcards before literals. A
wildcard in the topic is covered by wildcards only.  The wildcard for all
remaining levels also covers its parent level. -/
def forward (tree : Tree (List β)) (fault? : Option TopicError) :
    List Level → Lookup β
  | [] =>
      match fault? with
      | some fault => .fail fault
      | none => .done (tree.value ++ tree.coveringRest)
  | level :: rest =>
      let bySingle :=
        match tree.child? .single with
        | some child => child.forward fault? rest
        | none => .done []
      let byLiteral :=
        match level.isWildcard, tree.child? level with
        | false, some child => child.forward fault? rest
        | _, _ => .done []
      .done tree.coveringRest ++ bySingle ++ byLiteral

theorem forward_cons (tree : Tree (List β)) (fault? : Option TopicError)
    (level : Level) (rest : List Level) :
    tree.forward fault? (level :: rest) =
      .done tree.coveringRest ++
        (tree.child? .single).elim (.done []) (·.forward fault? rest) ++
        (if level.isWildcard then .done []
          else (tree.child? level).elim (.done []) (·.forward fault? rest)) := by
  rw [forward]
  cases tree.child? .single <;> cases tree.child? level <;>
    cases level.isWildcard <;> rfl

/-- The entries at the paths that a filter covers. -/
def backward (tree : Tree (Option β)) (fault? : Option TopicError) :
    List Level → Lookup β
  | [] =>
      match fault? with
      | some fault => .fail fault
      | none => .done tree.value.toList
  | .multi :: _ => .done (tree.nodes.filterMap fun entry => entry.2.value)
  | .single :: rest =>
      .concat (tree.branches.map fun branch => branch.2.backward fault? rest)
  | .literal text :: rest =>
      match tree.child? (.literal text) with
      | some child => child.backward fault? rest
      | none => .done []

end Searches

end Tree

end TopicRouter
