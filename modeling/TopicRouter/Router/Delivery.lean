import TopicRouter.Retained.Message
import TopicRouter.Subscriber.Token

/-!
# Deliveries

Of the subscribers of a publication, the callbacks are called, in the order
in which they were matched and each at the quality of service of its match.
-/

namespace TopicRouter

universe u

/-- One call of a callback. -/
structure Delivery where
  recipient : Token
  message : Message
  qos : QoS

/-- Calls a callback with a message. -/
def Callback.deliver (callback : Callback) (message : Message) (qos : QoS) :
    Delivery :=
  ⟨callback.token, message, qos⟩

/-- The calls that a message causes. -/
def deliveries {σ : Type u} (callback? : σ → Option Callback) (message : Message)
    (matched : List (σ × QoS)) : List Delivery :=
  matched.filterMap fun entry =>
    (callback? entry.1).map fun callback => callback.deliver message entry.2

end TopicRouter
