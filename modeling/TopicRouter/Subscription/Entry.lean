import TopicRouter.Qos
import TopicRouter.Subscriber.Identity

/-!
# Subscriptions of one filter

The subscribers of one filter are kept in the order in which they came.
Granting to a subscriber that is there changes its quality of service and
neither its place nor the stored subscriber.  It is the stored subscriber
that is asked whether it is the one in question.

## Main results

* `Subscription.grant_of_none`, `Subscription.grant_of_first` — granting
  changes the first entry of the subscriber, or appends one.
* `Subscription.revoke?_eq_some` — revoking removes that first entry.
-/

namespace TopicRouter

universe u

/-- A subscriber and the quality of service that it was granted. -/
structure Subscription (σ : Type u) where
  subscriber : σ
  granted : QoS
deriving DecidableEq

namespace Subscription

variable {σ : Type u} [Identity σ]

/-- Is this the entry of the given subscriber? -/
def isFor (subscriber : σ) (entry : Subscription σ) : Bool :=
  Identity.identical entry.subscriber subscriber

/-- Grants a quality of service to a subscriber, new or not. -/
def grant (subscriber : σ) (qos : QoS) :
    List (Subscription σ) → List (Subscription σ)
  | [] => [⟨subscriber, qos⟩]
  | entry :: rest =>
      if entry.isFor subscriber then ⟨entry.subscriber, qos⟩ :: rest
      else entry :: grant subscriber qos rest

/-- Removes the entry of a subscriber, which has to be there. -/
def revoke? (subscriber : σ) (entries : List (Subscription σ)) :
    Option (List (Subscription σ)) :=
  if entries.any (isFor subscriber) then some (entries.eraseP (isFor subscriber))
  else none

theorem grant_of_none {subscriber : σ} {qos : QoS}
    {entries : List (Subscription σ)}
    (h : ∀ entry ∈ entries, entry.isFor subscriber = false) :
    grant subscriber qos entries = entries ++ [⟨subscriber, qos⟩] := by
  induction entries with
  | nil => rfl
  | cons entry rest ih => simp_all [grant]

theorem grant_of_first {subscriber : σ} {qos : QoS}
    {before after : List (Subscription σ)} {entry : Subscription σ}
    (h : ∀ other ∈ before, other.isFor subscriber = false)
    (hentry : entry.isFor subscriber = true) :
    grant subscriber qos (before ++ entry :: after) =
      before ++ ⟨entry.subscriber, qos⟩ :: after := by
  induction before with
  | nil => simp [grant, hentry]
  | cons other rest ih => simp_all [grant]

theorem revoke?_eq_none {subscriber : σ} {entries : List (Subscription σ)} :
    revoke? subscriber entries = none ↔
      ∀ entry ∈ entries, entry.isFor subscriber = false := by
  simp [revoke?]

theorem revoke?_eq_some {subscriber : σ}
    {before after : List (Subscription σ)} {entry : Subscription σ}
    (h : ∀ other ∈ before, other.isFor subscriber = false)
    (hentry : entry.isFor subscriber = true) :
    revoke? subscriber (before ++ entry :: after) = some (before ++ after) := by
  have hany : (before ++ entry :: after).any (isFor subscriber) = true := by
    simp [hentry]
  have herase : (before ++ entry :: after).eraseP (isFor subscriber) =
      before ++ after := by
    rw [List.eraseP_append_right _ (by simpa using h),
      List.eraseP_cons_of_pos hentry]
  rw [revoke?, if_pos hany, herase]

end Subscription

end TopicRouter
