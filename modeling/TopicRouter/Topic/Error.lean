/-!
# Topic errors

What can be wrong with a topic by itself (`Fault`), and what can go wrong
when a tree is asked about one (`TopicError`).  The wording of each error is
given once, by `message`.
-/

namespace TopicRouter

/-- A wildcard that stands where it may not stand. -/
inductive Fault where
  /-- A separator follows the wildcard for all remaining levels. -/
  | multiNotLast
  /-- A `#` shares its level with other text. -/
  | multiNotWhole
  /-- A `+` shares its level with other text. -/
  | singleNotWhole
  /-- Other text follows a wildcard within its level. -/
  | wildcardNotWhole
deriving DecidableEq

namespace Fault

/-- The rule that was broken. -/
def reason : Fault → String
  | multiNotLast => "'#' must be the last topic level"
  | multiNotWhole => "'#' must occupy an entire topic level"
  | singleNotWhole => "'+' must occupy an entire topic level"
  | wildcardNotWhole => "wildcards must occupy an entire topic level"

/-- The fault that a character shows by standing in a level which it may not
continue. -/
def ofChar (c : Char) : Fault :=
  if c = '#' then multiNotWhole
  else if c = '+' then singleNotWhole
  else wildcardNotWhole

end Fault

/-- Errors of reading a topic and of the trees that are kept by topic. -/
inductive TopicError where
  /-- The text that was left to read begins with a faulty level. -/
  | malformed (unread : String) (fault : Fault)
  /-- Nothing to remove from the subscriptions to this topic. -/
  | subscriberNotFound (topic : String)
  /-- No message can be retained under this topic. -/
  | topicNotFound (topic : String)
deriving DecidableEq

namespace TopicError

/-- Names the unread text and the rule broken at its start. -/
def malformedMessage (unread reason : String) : String :=
  "Malformed topic '" ++ unread ++ "': " ++ reason

/-- The wording of an error. -/
def message : TopicError → String
  | malformed unread fault => malformedMessage unread fault.reason
  | subscriberNotFound topic => "No subscriber found for topic '" ++ topic ++ "'"
  | topicNotFound topic => "Topic '" ++ topic ++ "' not found"

end TopicError

end TopicRouter
