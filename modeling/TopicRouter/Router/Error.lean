import TopicRouter.Qos
import TopicRouter.Topic.Error

/-!
# Router errors

Everything for which the router can refuse a request, with its wording, and
the code that a client is sent for the outcome of a subscription.
-/

namespace TopicRouter

/-- Why a request was refused. -/
inductive RouterError where
  /-- The byte stands for no quality of service. -/
  | invalidQos (byte : UInt8)
  /-- A subscription came without a subscriber. -/
  | missingSubscriber
  /-- The topic is faulty, or there is nothing to remove at it. -/
  | topic (error : TopicError)
  | emptyTopic
  /-- Lengths are in bytes of UTF-8. -/
  | topicTooLong (length limit : Nat)
  | tooManyLevels (levels limit : Nat)
  /-- A message was to be retained under a topic with wildcards. -/
  | wildcardInPublishTopic (topic : String)
  /-- The router has been closed. -/
  | closed
deriving DecidableEq

namespace RouterError

/-- The wording of an error. -/
def message : RouterError → String
  | invalidQos byte => "Invalid QoS " ++ toString byte.toNat
  | missingSubscriber => "Subscriber cannot be nil"
  | topic error => error.message
  | emptyTopic => "Topic cannot be empty"
  | topicTooLong length limit =>
      "Topic length " ++ toString length ++ " exceeds the limit of " ++
        toString limit ++ " bytes"
  | tooManyLevels levels limit =>
      "Topic has " ++ toString levels ++ " levels, the limit is " ++ toString limit
  | wildcardInPublishTopic name =>
      "Cannot retain a message published to wildcard topic '" ++ name ++ "'"
  | closed => "Topics provider is closed"

end RouterError

/-- The quality of service of a byte, or the reason why there is none. -/
def QoS.ofByte (byte : UInt8) : Except RouterError QoS :=
  match ofByte? byte with
  | some qos => .ok qos
  | none => .error (.invalidQos byte)

/-- What a client is told about its subscription. -/
inductive ReasonCode where
  | granted (qos : QoS)
  | failure
deriving DecidableEq

namespace ReasonCode

/-- The code for the outcome of a subscription. -/
def ofOutcome : Except RouterError QoS → ReasonCode
  | .ok qos => granted qos
  | .error _ => failure

/-- The byte of a code. -/
def toByte : ReasonCode → UInt8
  | granted qos => qos.toByte
  | failure => 0x80

end ReasonCode

end TopicRouter
