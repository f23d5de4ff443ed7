import TopicRouter.Subscription.Entry
import TopicRouter.Tree.Walk

/-!
# The subscription tree

Subscriptions are kept at the path of their filter, with the wildcards of the
filter stored as levels like any other.  A published topic is looked up
`forward`: all stored filters that cover it are found.

Every subscriber found is reported with the quality of service of the
publication, not with the one that it was granted.  The subscribers are added
to buffers of the caller, who empties them first where that is called for.
-/

namespace TopicRouter

universe u

/-- Subscriptions by the levels of their filters. -/
abbrev SubscriptionTree (σ : Type u) := Tree (List (Subscription σ))

/-- The subscribers of a publication, and at the same index the quality of
service to deliver at. -/
structure Fanout (σ : Type u) where
  subscribers : List σ := []
  qos : List QoS := []
deriving DecidableEq

/-- Adds subscribers, all to be served at the same quality of service. -/
def Fanout.extend {σ : Type u} (fanout : Fanout σ) (qos : QoS)
    (entries : List (Subscription σ)) : Fanout σ where
  subscribers := fanout.subscribers ++ entries.map Subscription.subscriber
  qos := fanout.qos ++ entries.map fun _ => qos

namespace SubscriptionTree

variable {σ : Type u}

section Changes

variable [Identity σ]

/-- Subscribes to a filter.  The nodes in front of a faulty level stay. -/
def subscribe (tree : SubscriptionTree σ) (filter : String) (qos : QoS)
    (subscriber : σ) : Except TopicError Unit × SubscriptionTree σ :=
  tree.insert (scan filter) (Subscription.grant subscriber qos)

/-- The entries that remain without a subscriber, or without all of them when
none is given. -/
def withdraw (filter : String) (subscriber? : Option σ)
    (entries : List (Subscription σ)) :
    Except TopicError (List (Subscription σ)) :=
  match subscriber? with
  | none => .ok []
  | some subscriber =>
      match Subscription.revoke? subscriber entries with
      | some rest => .ok rest
      | none => .error (.subscriberNotFound filter)

/-- Ends the subscription of a subscriber to a filter, or every subscription
to it. -/
def unsubscribe (tree : SubscriptionTree σ) (filter : String)
    (subscriber? : Option σ) : Except TopicError (SubscriptionTree σ) :=
  tree.remove (scan filter) (.subscriberNotFound filter)
    (withdraw filter subscriber?)

end Changes

/-- The subscriptions whose filters cover a topic. -/
def lookup (tree : SubscriptionTree σ) (topic : String) :
    Lookup (Subscription σ) :=
  tree.forward (scan topic).fault? (scan topic).levels

/-- Adds the subscribers of a publication to the buffers, also those that
were found before a fault. -/
def collect (tree : SubscriptionTree σ) (topic : String) (qos : QoS)
    (fanout : Fanout σ) : Except TopicError Unit × Fanout σ :=
  ((tree.lookup topic).outcome, fanout.extend qos (tree.lookup topic).found)

end SubscriptionTree

end TopicRouter
