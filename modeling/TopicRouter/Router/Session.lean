import TopicRouter.Router.Basic

/-!
# Sessions

A session is a router in use: requests come one after the other, and the
buffers that searches write into are used again for the next search.

## Main results

* `Session.run_append` — a run can be cut anywhere.
* `Session.step_settings` — no request changes the settings.
-/

namespace TopicRouter

universe u

/-- What a router can be asked. -/
inductive Request (σ : Type u) where
  | subscribe (filter : String) (qos : UInt8) (subscriber? : Option σ)
  | unsubscribe (filter : String) (subscriber? : Option σ)
  /-- Fills the buffers of the session. -/
  | subscribers (topic : String) (qos : UInt8)
  | subscribersFor (topic : String) (qos : UInt8)
  | retain (message : Message)
  /-- Fills the buffer of the session. -/
  | retained (filter : String)
  | retainedFor (filter : String)
  | close
  | isClosed

/-- What a router answers when it does not refuse. -/
inductive Answer (σ : Type u) where
  | done
  | granted (qos : QoS)
  | matched (subscribers : List (σ × QoS))
  | messages (messages : List Message)
  | closed (isClosed : Bool)
deriving DecidableEq

/-- A router and the buffers of its caller. -/
structure Session (σ : Type u) where
  router : Router σ
  fanout : Fanout σ := {}
  messages : List Message := []

namespace Session

variable {σ : Type u} [Identity σ]

/-- A session with a fresh router. -/
def start (settings : Settings) : Session σ := { router := { settings } }

/-- Answers a request. -/
def step (session : Session σ) (request : Request σ) :
    Except RouterError (Answer σ) × Session σ :=
  let { router, fanout, messages } := session
  match request with
  | .subscribe filter qos subscriber? =>
      let (result, router) := router.subscribe filter qos subscriber?
      (result.map .granted, { router, fanout, messages })
  | .unsubscribe filter subscriber? =>
      let (result, router) := router.unsubscribe filter subscriber?
      (result.map fun () => .done, { router, fanout, messages })
  | .subscribers topic qos =>
      let (result, fanout) := router.subscribers topic qos fanout
      (result.map fun () => .done, { router, fanout, messages })
  | .subscribersFor topic qos =>
      ((router.subscribersFor topic qos).map .matched, session)
  | .retain message =>
      let (result, router) := router.retain message
      (result.map fun () => .done, { router, fanout, messages })
  | .retained filter =>
      let (result, messages) := router.retained filter messages
      (result.map fun () => .done, { router, fanout, messages })
  | .retainedFor filter =>
      ((router.retainedFor filter).map .messages, session)
  | .close => (.ok .done, { router := router.close, fanout, messages })
  | .isClosed => (.ok (.closed router.isClosed), session)

/-- Answers requests in order. -/
def run (session : Session σ) :
    List (Request σ) → List (Except RouterError (Answer σ)) × Session σ
  | [] => ([], session)
  | request :: rest =>
      let (answer, session) := session.step request
      let (answers, session) := session.run rest
      (answer :: answers, session)

theorem step_settings (session : Session σ) (request : Request σ) :
    (session.step request).2.router.settings = session.router.settings := by
  cases request <;> simp [step]

@[simp] theorem run_nil (session : Session σ) : session.run [] = ([], session) := rfl

theorem run_cons (session : Session σ) (request : Request σ)
    (rest : List (Request σ)) :
    session.run (request :: rest) =
      ((session.step request).1 :: ((session.step request).2.run rest).1,
        ((session.step request).2.run rest).2) := rfl

theorem run_append (session : Session σ) (first second : List (Request σ)) :
    session.run (first ++ second) =
      ((session.run first).1 ++ ((session.run first).2.run second).1,
        ((session.run first).2.run second).2) := by
  induction first generalizing session with
  | nil => rfl
  | cons request rest ih => simp [run_cons, ih]

end Session

end TopicRouter
