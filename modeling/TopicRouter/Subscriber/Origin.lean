import TopicRouter.Subscriber.Handle

/-!
# Origins of tokens and callbacks

Tokens and callbacks come into being one after the other, and a callback can
be copied.  An `Issue` keeps for each handle the step at which its token was
drawn.  Whether two such handles are identical is a question about numbers,
and can be compared with where they come from.
-/

namespace TopicRouter

/-- A step that yields a handle. -/
inductive IssueStep where
  /-- A token of its own. -/
  | token
  /-- A new callback. -/
  | callback
  /-- The token of the handle issued at an earlier step. -/
  | tokenOf (step : Nat)
  /-- A copy of the handle issued at an earlier step. -/
  | copy (step : Nat)

/-- A handle and the step at which its token was drawn. -/
structure Issue where
  handle : Handle
  origin : Nat

/-- The token that a handle carries, if it is a token or a callback. -/
def Handle.token? : Handle → Option Token
  | .token drawn => some drawn
  | .callback subscriber => some subscriber.token
  | _ => none

/-- All handles issued so far, and the supply of further tokens. -/
structure Issued where
  supply : TokenSupply := {}
  issues : List Issue := []

namespace Issued

/-- The handle issued at a step, or else a new token. -/
def source (issued : Issued) (step : Nat) : Option Issue := issued.issues[step]?

/-- Issues one more handle. A step that refers to no earlier one draws a
token. -/
def issue (issued : Issued) (step : IssueStep) : Issued :=
  let drawn : Issued :=
    { supply := issued.supply.draw.2
      issues := issued.issues ++
        [⟨.token issued.supply.draw.1, issued.issues.length⟩] }
  match step with
  | .token => drawn
  | .callback =>
      { supply := (Callback.create issued.supply).2
        issues := issued.issues ++
          [⟨.callback (Callback.create issued.supply).1, issued.issues.length⟩] }
  | .tokenOf step =>
      match issued.source step with
      | some ⟨handle, origin⟩ =>
          match handle.token? with
          | some token => { issued with issues := issued.issues ++ [⟨.token token, origin⟩] }
          | none => drawn
      | none => drawn
  | .copy step =>
      match issued.source step with
      | some earlier => { issued with issues := issued.issues ++ [earlier] }
      | none => drawn

/-- Issues handles in order. -/
def run (issued : Issued) (steps : List IssueStep) : Issued :=
  steps.foldl issue issued

end Issued

end TopicRouter
