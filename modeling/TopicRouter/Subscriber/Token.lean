/-!
# Subscriber tokens

A token is a number that its supply has given to nobody else.  A subscriber
that has no value to be known by, such as a callback, is known by its token.

## Main results

* `TokenSupply.number_draw`, `TokenSupply.next_draw` — a supply counts upward
  from one.
-/

namespace TopicRouter

/-- An identity given to one subscriber. -/
structure Token where
  number : UInt64
deriving DecidableEq

/-- How a token is shown. -/
def Token.text (token : Token) : String :=
  "SubscriberToken(" ++ toString token.number.toNat ++ ")"

/-- A supply of tokens that have not been given away. -/
structure TokenSupply where
  /-- The number of the token that is given next. -/
  next : UInt64 := 1

namespace TokenSupply

/-- Gives a token away. -/
def draw (supply : TokenSupply) : Token × TokenSupply :=
  (⟨supply.next⟩, ⟨supply.next + 1⟩)

@[simp] theorem number_draw (supply : TokenSupply) :
    supply.draw.1.number = supply.next := rfl

@[simp] theorem next_draw (supply : TokenSupply) :
    supply.draw.2.next = supply.next + 1 := rfl

end TokenSupply

/-- A subscriber that is called with each message for it.  Copies of a
callback share its token. -/
structure Callback where
  token : Token
deriving DecidableEq

namespace Callback

/-- A new callback, which takes a token of its own. -/
def create (supply : TokenSupply) : Callback × TokenSupply :=
  (⟨supply.draw.1⟩, supply.draw.2)

/-- How a callback is shown. -/
def text (callback : Callback) : String :=
  "CallbackSubscriber \x7b token: " ++ callback.token.text ++ ", .. \x7d"

end Callback

end TopicRouter
