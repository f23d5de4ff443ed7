import Mathlib.Data.List.Induction
import TopicRouter.Proofs.Router.Carrying

/-!
# Invariants of the contents

What a router has stored is changed in two ways: by a change to the
subscriptions whose filter passes the checks, and by a message that may be
retained.  A property of the contents that both keep, and that fresh contents
have, holds in every state of a session in which the router is open.

## Main results

* `Contents.Invariant.holds_step` — a request keeps an invariant.
* `Contents.Invariant.holds_run` — so do any number of requests.
* `Session.settings_run` — the settings stay as they were.
-/

namespace TopicRouter

universe u v w

variable {σ : Type u}

/-- The contents have the property as long as the router is open. -/
def Router.Holds (property : Contents σ → Prop) (router : Router σ) : Prop :=
  ∀ contents, router.contents? = some contents → property contents

/-- A property of fresh contents that is kept by the changes which pass the
checks. -/
structure Contents.Invariant [Identity σ] (settings : Settings) (property : Contents σ → Prop) :
    Prop where
  fresh : property {}
  amend : ∀ contents change, settings.checkTopic (SubscriptionChange.filter change) = .ok () →
    property contents → property (contents.amend change).2
  retain : ∀ contents message, settings.checkRetained message.topic = .ok () →
    property contents → property (contents.retain message).2

theorem Router.Holds.carryOut {α : Type v} {β : Type w} {property : Contents σ → Prop}
    {router : Router σ} (h : router.Holds property) {check : Except RouterError α}
    {change : α → Contents σ → Except RouterError β × Contents σ}
    (hchange : ∀ passed contents, check = .ok passed → property contents →
      property (change passed contents).2) : (router.carryOut check change).2.Holds property := by
  cases check with
  | error e => exact h
  | ok passed =>
      cases hopen : router.contents? with
      | none =>
          rw [carryOut_of_closed hopen]
          exact h
      | some contents =>
          rw [carryOut_of_open hopen]
          intro changed hchanged
          cases hchanged
          exact hchange passed contents rfl (h contents hopen)

theorem Session.settings_run [Identity σ] (session : Session σ) (requests : List (Request σ)) :
    (session.run requests).2.router.settings = session.router.settings := by
  induction requests generalizing session with
  | nil => rfl
  | cons request rest ih =>
      rw [run_cons]
      exact (ih _).trans (step_settings session request)

namespace Contents.Invariant

variable [Identity σ] {settings : Settings} {property : Contents σ → Prop} {session : Session σ}

/-- Every request keeps an invariant. -/
theorem holds_step (h : Invariant settings property)
    (hsettings : session.router.settings = settings) (hholds : session.router.Holds property)
    (request : Request σ) : (session.step request).2.router.Holds property := by
  cases request with
  | subscribe filter qos subscriber? =>
      rw [Session.step_subscribe, Router.subscribe_eq_carryOut, hsettings]
      refine hholds.carryOut fun passed contents hcheck hproperty => ?_
      exact h.amend contents _ (Settings.checkTopic_of_checkSubscription hcheck) hproperty
  | unsubscribe filter subscriber? =>
      rw [Session.step_unsubscribe, Router.unsubscribe_eq_carryOut, hsettings]
      refine hholds.carryOut fun passed contents hcheck hproperty => ?_
      exact h.amend contents _ hcheck hproperty
  | retain message =>
      rw [Session.step_retain, Router.retain_eq_carryOut, hsettings]
      refine hholds.carryOut fun passed contents hcheck hproperty => ?_
      exact h.retain contents message hcheck hproperty
  | close =>
      intro contents hopen
      cases hopen
  | subscribers topic qos => exact hholds
  | subscribersFor topic qos => exact hholds
  | retained filter => exact hholds
  | retainedFor filter => exact hholds
  | isClosed => exact hholds

/-- **An invariant holds as long as the router is in use.** -/
theorem holds_run (h : Invariant settings property)
    (hsettings : session.router.settings = settings) (hholds : session.router.Holds property)
    (requests : List (Request σ)) : (session.run requests).2.router.Holds property := by
  induction requests generalizing session with
  | nil => exact hholds
  | cons request rest ih =>
      rw [Session.run_cons]
      exact ih ((session.step_settings request).trans hsettings)
        (h.holds_step hsettings hholds request)

/-- A fresh router has what every invariant asks for. -/
theorem holds_start (h : Invariant settings property) :
    (Session.start settings : Session σ).router.Holds property := by
  intro contents hopen
  cases hopen
  exact h.fresh

end Contents.Invariant

end TopicRouter
