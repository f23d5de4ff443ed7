/-!
# Subscriber identity

The router is open to any type of subscriber.  All that it ever asks of one
is whether it is the same subscriber as another.
-/

namespace TopicRouter

universe u

/-- Subscribers that can be told apart.  Nothing is assumed about the answer:
where it is not symmetric it matters which side is asked, and the router asks
the subscriber that it has stored. -/
class Identity (σ : Type u) where
  /-- Does the second subscriber pass for the first? -/
  identical : σ → σ → Bool

end TopicRouter
