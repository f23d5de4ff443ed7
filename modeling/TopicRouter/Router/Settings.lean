import TopicRouter.Router.Error
import TopicRouter.Topic.Read

/-!
# Settings and argument checks

The limits of a router, and the checks that a request has to pass before the
router looks at what it has stored.  Which of several errors is reported is
given by the order of the cases.
-/

namespace TopicRouter

universe u

/-- The limits of a router. -/
structure Settings where
  /-- The longest topic, in bytes of UTF-8. -/
  maxTopicLength : Nat := 65535
  /-- The largest number of levels of a topic. -/
  maxTopicLevels : Nat := 128
  /-- How many results to make room for in advance.  The room is not modelled:
  a list grows as it is filled, and a number of results for which there could be
  no room, so that making it would fail, is like any other number here. -/
  resultCapacity : Nat := 16
deriving DecidableEq

/-- One level more than there are separators. -/
def levelCount (topic : String) : Nat := topic.toList.count separator + 1

namespace Settings

/-- Checks a topic or filter against the limits. -/
def checkTopic (settings : Settings) (topic : String) :
    Except RouterError Unit :=
  if topic = "" then .error .emptyTopic
  else if settings.maxTopicLength < topic.utf8ByteSize then
    .error (.topicTooLong topic.utf8ByteSize settings.maxTopicLength)
  else if settings.maxTopicLevels < levelCount topic then
    .error (.tooManyLevels (levelCount topic) settings.maxTopicLevels)
  else .ok ()

/-- Checks a new subscription: its quality of service, then its subscriber,
then its filter. -/
def checkSubscription {σ : Type u} (settings : Settings) (filter : String)
    (qos : UInt8) (subscriber? : Option σ) : Except RouterError (QoS × σ) :=
  match QoS.ofByte qos, subscriber?, settings.checkTopic filter with
  | .error e, _, _ => .error e
  | .ok _, none, _ => .error .missingSubscriber
  | .ok _, some _, .error e => .error e
  | .ok granted, some subscriber, .ok () => .ok (granted, subscriber)

/-- Checks the topic of a message to be retained, which may hold no
wildcard. -/
def checkRetained (settings : Settings) (topic : String) :
    Except RouterError Unit :=
  match settings.checkTopic topic, hasWildcards topic with
  | .error e, _ => .error e
  | .ok (), true => .error (.wildcardInPublishTopic topic)
  | .ok (), false => .ok ()

end Settings

end TopicRouter
