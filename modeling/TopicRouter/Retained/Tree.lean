import TopicRouter.Retained.Message
import TopicRouter.Tree.Walk

/-!
# The tree of retained messages

A message is kept at the path of its topic, at most one to a path, and the
first one stays until it is cleared.  A filter is looked up `backward`: the
messages of all topics that it covers are found.
-/

namespace TopicRouter

/-- Retained messages by the levels of their topics. -/
abbrev RetainedTree := Tree (Option Message)

namespace RetainedTree

/-- Keeps a message under a topic unless one is kept there. -/
def keep (tree : RetainedTree) (topic : String) (message : Message) :
    Except TopicError Unit × RetainedTree :=
  tree.insert (scan topic) fun kept => kept.or (some message)

/-- Clears the message kept under a topic.  A node that holds no message can
be cleared as well, if it is there. -/
def clear (tree : RetainedTree) (topic : String) :
    Except TopicError RetainedTree :=
  tree.remove (scan topic) (.topicNotFound topic) fun _ => .ok none

/-- The messages whose topics a filter covers. -/
def lookup (tree : RetainedTree) (filter : String) : Lookup Message :=
  tree.backward (scan filter).fault? (scan filter).levels

/-- Adds the messages that a filter covers to a buffer. -/
def collect (tree : RetainedTree) (filter : String) (buffer : List Message) :
    Except TopicError Unit × List Message :=
  ((tree.lookup filter).outcome, buffer ++ (tree.lookup filter).found)

end RetainedTree

end TopicRouter
