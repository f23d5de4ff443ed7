import TopicRouter.Retained.Tree
import TopicRouter.Router.Settings
import TopicRouter.Subscription.Tree

/-!
# The router

A router keeps subscriptions in one tree and retained messages in another, until
it is closed.  Each request is first checked by itself, then refused if the tree
that it is about is gone, and only then carried out.

Searches write into buffers of the caller and empty them first, save that a
byte which stands for no quality of service is refused before that.

## Main results

* `Router.open_together` — the trees are both there or both gone, as every
  request that makes a router has to show.
* `Router.settings_subscribe`, `Router.settings_unsubscribe`,
  `Router.settings_retain` — no request changes the settings.
* `Router.retain_error` — a message that fails its checks leaves the router as
  it was.
-/

namespace TopicRouter

universe u

/-- A router of topics.  It has neither tree once it is closed. -/
structure Router (σ : Type u) where
  settings : Settings := {}
  subscriptions? : Option (SubscriptionTree σ) := some Tree.empty
  retained? : Option RetainedTree := some Tree.empty
  /-- Neither tree is there without the other. -/
  open_together : subscriptions?.isSome = retained?.isSome := by rfl

/-- What is left in a buffer that is emptied. -/
def emptied {α : Type u} (_ : List α) : List α := []

/-- What is left in the buffers for subscribers when both are emptied. -/
def Fanout.emptied {σ : Type u} (fanout : Fanout σ) : Fanout σ where
  subscribers := TopicRouter.emptied fanout.subscribers
  qos := TopicRouter.emptied fanout.qos

namespace Router

/-- The name that this way of keeping topics is known by. -/
def providerName : String := "mem"

variable {σ : Type u}

/-- Has the router been closed?  Both trees are looked at. -/
def isClosed (router : Router σ) : Bool :=
  router.subscriptions?.isNone && router.retained?.isNone

/-- Drops both trees, for good. -/
def close (router : Router σ) : Router σ :=
  { router with subscriptions? := none, retained? := none, open_together := rfl }

/-- The router with another tree of subscriptions, if it has one. -/
def storeSubscriptions (router : Router σ) (subscriptions : SubscriptionTree σ) : Router σ :=
  { router with
    subscriptions? := router.subscriptions?.map fun _ => subscriptions
    open_together := by rw [Option.isSome_map, router.open_together] }

/-- The router with another tree of messages, if it has one. -/
def storeRetained (router : Router σ) (retained : RetainedTree) : Router σ :=
  { router with
    retained? := router.retained?.map fun _ => retained
    open_together := by rw [Option.isSome_map, router.open_together] }

/-! ## Subscriptions -/

section Subscriptions

variable [Identity σ]

/-- Subscribes to a filter and returns the quality of service granted. -/
def subscribe (router : Router σ) (filter : String) (qos : UInt8)
    (subscriber? : Option σ) : Except RouterError QoS × Router σ :=
  match router.settings.checkSubscription filter qos subscriber?,
      router.subscriptions? with
  | .error e, _ => (.error e, router)
  | .ok _, none => (.error .closed, router)
  | .ok (granted, subscriber), some subscriptions =>
      let (outcome, subscriptions) := subscriptions.subscribe filter granted subscriber
      ((outcome.mapError .topic).map fun _ => granted,
        router.storeSubscriptions subscriptions)

/-- Ends the subscription of a subscriber to a filter, or every subscription
to it. -/
def unsubscribe (router : Router σ) (filter : String) (subscriber? : Option σ) :
    Except RouterError Unit × Router σ :=
  match router.settings.checkTopic filter, router.subscriptions? with
  | .error e, _ => (.error e, router)
  | .ok (), none => (.error .closed, router)
  | .ok (), some subscriptions =>
      match subscriptions.unsubscribe filter subscriber? with
      | .error e => (.error (.topic e), router)
      | .ok subscriptions => (.ok (), router.storeSubscriptions subscriptions)

end Subscriptions

/-- Fills the buffers with the subscribers of a publication. -/
def subscribers (router : Router σ) (topic : String) (qos : UInt8)
    (fanout : Fanout σ) : Except RouterError Unit × Fanout σ :=
  match QoS.ofByte qos with
  | .error e => (.error e, fanout)
  | .ok qos =>
      let fanout := fanout.emptied
      match router.settings.checkTopic topic, router.subscriptions? with
      | .error e, _ => (.error e, fanout)
      | .ok (), none => (.error .closed, fanout)
      | .ok (), some subscriptions =>
          let (outcome, fanout) := subscriptions.collect topic qos fanout
          (outcome.mapError .topic, fanout)

/-- The subscribers of a publication, each with its quality of service. -/
def subscribersFor (router : Router σ) (topic : String) (qos : UInt8) :
    Except RouterError (List (σ × QoS)) :=
  match router.subscribers topic qos {} with
  | (.ok (), found) => .ok (found.subscribers.zip found.qos)
  | (.error e, _) => .error e

/-! ## Retained messages -/

/-- Retains a message under its topic; a message without a payload clears
what is retained there. -/
def retain (router : Router σ) (message : Message) :
    Except RouterError Unit × Router σ :=
  match router.settings.checkRetained message.topic, router.retained? with
  | .error e, _ => (.error e, router)
  | .ok (), none => (.error .closed, router)
  | .ok (), some retained =>
      if message.payload.isEmpty then
        match retained.clear message.topic with
        | .error e => (.error (.topic e), router)
        | .ok retained => (.ok (), router.storeRetained retained)
      else
        let (outcome, retained) := retained.keep message.topic message
        (outcome.mapError .topic, router.storeRetained retained)

/-- Fills the buffer with the retained messages that a filter covers. -/
def retained (router : Router σ) (filter : String) (messages : List Message) :
    Except RouterError Unit × List Message :=
  let messages := emptied messages
  match router.settings.checkTopic filter, router.retained? with
  | .error e, _ => (.error e, messages)
  | .ok (), none => (.error .closed, messages)
  | .ok (), some retained =>
      let (outcome, messages) := retained.collect filter messages
      (outcome.mapError .topic, messages)

/-- The retained messages that a filter covers. -/
def retainedFor (router : Router σ) (filter : String) :
    Except RouterError (List Message) :=
  match router.retained filter [] with
  | (.ok (), found) => .ok found
  | (.error e, _) => .error e

/-! ## The settings of a router -/

@[simp] theorem settings_close (router : Router σ) :
    router.close.settings = router.settings := rfl

@[simp] theorem settings_subscribe [Identity σ] (router : Router σ)
    (filter : String) (qos : UInt8) (subscriber? : Option σ) :
    (router.subscribe filter qos subscriber?).2.settings = router.settings := by
  unfold subscribe
  split <;> rfl

@[simp] theorem settings_unsubscribe [Identity σ] (router : Router σ)
    (filter : String) (subscriber? : Option σ) :
    (router.unsubscribe filter subscriber?).2.settings = router.settings := by
  unfold unsubscribe
  split
  · rfl
  · rfl
  · split <;> rfl

@[simp] theorem settings_retain (router : Router σ) (message : Message) :
    (router.retain message).2.settings = router.settings := by
  unfold retain
  split
  · rfl
  · rfl
  · split
    · split <;> rfl
    · rfl

theorem retain_error {router : Router σ} {message : Message} {e : RouterError}
    (h : router.settings.checkRetained message.topic = .error e) :
    router.retain message = (.error e, router) := by
  simp [retain, h]

end Router

end TopicRouter
