import TopicRouter.Retained.Tree

/-!
# Histories of the tree of retained messages

A history is a sequence of changes to a tree, of which each is answered.  A
change that is refused may be part of a history like any other.
-/

namespace TopicRouter

/-- A change to the retained messages. -/
inductive RetainedChange where
  | keep (topic : String) (message : Message)
  | clear (topic : String)
deriving DecidableEq

namespace RetainedTree

/-- Answers a change.  A tree that refuses to clear is left as it was. -/
def apply (tree : RetainedTree) :
    RetainedChange → Except TopicError Unit × RetainedTree
  | .keep topic message => tree.keep topic message
  | .clear topic =>
      match tree.clear topic with
      | .ok changed => (.ok (), changed)
      | .error e => (.error e, tree)

/-- Answers changes in order. -/
def run (tree : RetainedTree) :
    List RetainedChange → List (Except TopicError Unit) × RetainedTree
  | [] => ([], tree)
  | change :: rest =>
      ((tree.apply change).1 :: ((tree.apply change).2.run rest).1,
        ((tree.apply change).2.run rest).2)

theorem run_cons (tree : RetainedTree) (change : RetainedChange)
    (rest : List RetainedChange) :
    tree.run (change :: rest) =
      ((tree.apply change).1 :: ((tree.apply change).2.run rest).1,
        ((tree.apply change).2.run rest).2) := rfl

/-- The tree that a history leads to from an empty one. -/
def ofHistory (changes : List RetainedChange) : RetainedTree :=
  (run Tree.empty changes).2

end RetainedTree

end TopicRouter
