import TopicRouter.Proofs.Router.Carrying

/-!
# The order of the checks

The arguments of a request are checked one after the other, in an order that is
the same for all requests: the quality of service, the subscriber, and then the
topic, of which four things are checked.  Not every check applies to every
request.  `ArgumentCheck.firstError?` is the error of the first check that
applies and fails.

The router looks at what it has stored, and whether it is open at all, only
after the last check.  So a request that fails a check is refused in the same
way in every state, and one that passes them all is refused as closed exactly
by a closed router.

## Main results

* `Request.map_prepare` — what is checked of a request, and in which order.
* `Session.answer_eq` — the checks, the state of the router and the trees, in
  the order in which they decide an answer.
* `Session.answer_of_firstError?` — a request that fails a check.
* `Session.answer_of_closed`, `Session.answer_ne_closed` — what a closed router
  answers, and what an open one does not.
-/

namespace TopicRouter

universe u v w

/-! ## Requests and their arguments -/

namespace Request

variable {σ : Type u}

/-- The topic or filter that a request is about. -/
def topic? : Request σ → Option String
  | subscribe filter _ _ => some filter
  | unsubscribe filter _ => some filter
  | subscribers topic _ => some topic
  | subscribersFor topic _ => some topic
  | retain message => some message.topic
  | retained filter => some filter
  | retainedFor filter => some filter
  | close => none
  | isClosed => none

/-- The byte that a request gives for the quality of service. -/
def qos? : Request σ → Option UInt8
  | subscribe _ qos _ => some qos
  | subscribers _ qos => some qos
  | subscribersFor _ qos => some qos
  | _ => none

end Request

/-- What is checked of the arguments of a request. -/
inductive ArgumentCheck where
  | qos
  | subscriber
  | notEmpty
  | length
  | levels
  | plain
deriving DecidableEq

namespace ArgumentCheck

variable {σ : Type u}

/-- The checks in the order in which they are made. -/
def all : List ArgumentCheck := [qos, subscriber, notEmpty, length, levels, plain]

/-- The error of a check, if it applies to the request and fails. -/
def error? (settings : Settings) (request : Request σ) : ArgumentCheck → Option RouterError
  | qos => (request.qos?.filter (2 < ·)).map .invalidQos
  | subscriber =>
      match request with
      | .subscribe _ _ none => some .missingSubscriber
      | _ => none
  | notEmpty => (request.topic?.filter (· = "")).map fun _ => .emptyTopic
  | length =>
      (request.topic?.filter (settings.maxTopicLength < ·.utf8ByteSize)).map fun topic =>
        .topicTooLong topic.utf8ByteSize settings.maxTopicLength
  | levels =>
      (request.topic?.filter (settings.maxTopicLevels < levelCount ·)).map fun topic =>
        .tooManyLevels (levelCount topic) settings.maxTopicLevels
  | plain =>
      match request with
      | .retain message =>
          if '+' ∈ message.topic.toList ∨ '#' ∈ message.topic.toList then
            some (.wildcardInPublishTopic message.topic)
          else none
      | _ => none

/-- The error of the first check that applies to the request and fails. -/
def firstError? (settings : Settings) (request : Request σ) : Option RouterError :=
  all.findSome? (error? settings request)

end ArgumentCheck

/-! ## What is checked -/

/-- The outcome of checks of which the first that fails has this error. -/
def outcomeOf : Option RouterError → Except RouterError Unit
  | some e => .error e
  | none => .ok ()

theorem outcomeOf_or (first second : Option RouterError) :
    outcomeOf (first.or second) = outcomeOf first >>= fun _ => outcomeOf second := by
  cases first <;> rfl

namespace ArgumentCheck

variable {σ : Type u} (settings : Settings) (request : Request σ)

/-- The quality of service, the subscriber and the topic, one after the
other. -/
theorem outcomeOf_firstError? :
    outcomeOf (firstError? settings request) = (do
      outcomeOf (error? settings request qos)
      outcomeOf (error? settings request subscriber)
      outcomeOf ([notEmpty, length, levels].findSome? (error? settings request))
      outcomeOf (error? settings request plain)) := by
  have hall : all = [qos] ++ ([subscriber] ++ ([notEmpty, length, levels] ++ [plain])) := rfl
  rw [firstError?, hall]
  simp only [List.findSome?_append, List.findSome?_singleton, outcomeOf_or]

variable {request}

theorem outcomeOf_qos {byte : UInt8} (h : request.qos? = some byte) :
    outcomeOf (error? settings request qos) = (QoS.ofByte byte).map fun _ => () := by
  rw [error?, h, Option.filter_some, QoS.ofByte]
  cases hquality : QoS.ofByte? byte with
  | none =>
      have hbyte := QoS.ofByte?_eq_none_iff.1 hquality
      rw [decide_eq_true hbyte]
      rfl
  | some quality =>
      have hbyte : ¬ 2 < byte := by
        intro hbyte
        rw [QoS.ofByte?_eq_none_iff.2 hbyte] at hquality
        cases hquality
      rw [decide_eq_false hbyte]
      rfl

theorem outcomeOf_topic {topic : String} (h : request.topic? = some topic) :
    outcomeOf ([notEmpty, length, levels].findSome? (error? settings request)) =
      settings.checkTopic topic := by
  simp only [List.findSome?, error?, h, Option.filter_some]
  unfold Settings.checkTopic
  by_cases hempty : topic = ""
  · simp [hempty, outcomeOf]
  by_cases hlength : settings.maxTopicLength < topic.utf8ByteSize
  · simp [hempty, hlength, outcomeOf]
  by_cases hlevels : settings.maxTopicLevels < levelCount topic
  · simp [hempty, hlength, hlevels, outcomeOf]
  · simp [hempty, hlength, hlevels, outcomeOf]

variable {settings}

/-- No check is about what is stored. -/
theorem ne_of_error? {check : ArgumentCheck} {e : RouterError}
    (h : error? settings request check = some e) :
    e ≠ .closed ∧ ∀ error, e ≠ .topic error := by
  cases check with
  | subscriber =>
      simp only [error?] at h
      split at h
      · cases h
        exact ⟨nofun, nofun⟩
      · cases h
  | plain =>
      simp only [error?] at h
      split at h
      · split at h
        · cases h
          exact ⟨nofun, nofun⟩
        · cases h
      · cases h
  | qos | notEmpty | length | levels =>
      obtain ⟨_, _, rfl⟩ := Option.map_eq_some_iff.1 h
      exact ⟨nofun, nofun⟩

theorem ne_of_firstError? {e : RouterError} (h : firstError? settings request = some e) :
    e ≠ .closed ∧ ∀ error, e ≠ .topic error := by
  obtain ⟨check, _, hcheck⟩ := List.exists_of_findSome?_eq_some h
  exact ne_of_error? hcheck

/-- A request that fails a check is about some topic. -/
theorem topic?_ne_none_of_firstError? {e : RouterError}
    (h : firstError? settings request = some e) : request.topic? ≠ none := by
  cases request with
  | close => cases h
  | isClosed => cases h
  | _ => exact Option.some_ne_none _

theorem firstError?_eq_none_iff :
    firstError? settings request = none ↔ ∀ check, error? settings request check = none := by
  rw [firstError?, List.findSome?_eq_none_iff]
  constructor
  · intro h check
    refine h check ?_
    cases check <;> decide
  · intro h check _
    exact h check

/-- The topic of a request that fails no check. -/
theorem checkTopic_of_firstError?_eq_none (h : firstError? settings request = none)
    {topic : String} (htopic : request.topic? = some topic) :
    settings.checkTopic topic = .ok () := by
  have hnone : [notEmpty, length, levels].findSome? (error? settings request) = none :=
    List.findSome?_eq_none_iff.2 fun check _ => firstError?_eq_none_iff.1 h check
  rw [← outcomeOf_topic settings htopic, hnone]
  rfl

end ArgumentCheck

/-! ## What is answered -/

namespace Request

variable {σ : Type u} [Identity σ]

/-- Checks a request, and tells how it is answered from the contents. -/
def prepare (settings : Settings) :
    Request σ → Except RouterError (Contents σ → Except TopicError (Answer σ))
  | subscribe filter qos subscriber? =>
      (settings.checkSubscription filter qos subscriber?).map fun passed contents =>
        (contents.subscriptions.apply (.subscribe filter passed.1 passed.2)).1.map fun _ =>
          .granted passed.1
  | unsubscribe filter subscriber? =>
      (settings.checkTopic filter).map fun _ contents =>
        (contents.subscriptions.apply (.unsubscribe filter subscriber?)).1.map fun _ => .done
  | subscribers topic qos =>
      (QoS.ofByte qos).bind fun quality => (settings.checkTopic topic).map fun _ contents =>
        (contents.subscriptions.collect topic quality {}).1.map fun _ => .done
  | subscribersFor topic qos =>
      (QoS.ofByte qos).bind fun quality => (settings.checkTopic topic).map fun _ contents =>
        let (outcome, found) := contents.subscriptions.collect topic quality {}
        outcome.map fun _ => .matched (found.subscribers.zip found.qos)
  | retain message =>
      (settings.checkRetained message.topic).map fun _ contents =>
        (contents.retained.apply (.ofMessage message)).1.map fun _ => .done
  | retained filter =>
      (settings.checkTopic filter).map fun _ contents =>
        (contents.retained.collect filter []).1.map fun _ => .done
  | retainedFor filter =>
      (settings.checkTopic filter).map fun _ contents =>
        let (outcome, found) := contents.retained.collect filter []
        outcome.map fun _ => .messages found
  | close => .ok fun _ => .ok .done
  | isClosed => .ok fun _ => .ok (.closed false)

open ArgumentCheck in
/-- **The order of the checks.** -/
theorem map_prepare (settings : Settings) (request : Request σ) :
    (request.prepare settings).map (fun _ => ()) =
      outcomeOf (firstError? settings request) := by
  rw [outcomeOf_firstError?]
  cases request with
  | subscribe filter qos subscriber? =>
      rw [outcomeOf_qos settings rfl, outcomeOf_topic settings rfl, prepare]
      unfold Settings.checkSubscription
      cases QoS.ofByte qos <;> cases subscriber? <;> cases settings.checkTopic filter <;> rfl
  | unsubscribe filter subscriber? =>
      rw [outcomeOf_topic settings rfl, prepare]
      cases settings.checkTopic filter <;> rfl
  | subscribers topic qos =>
      rw [outcomeOf_qos settings rfl, outcomeOf_topic settings rfl, prepare]
      cases QoS.ofByte qos <;> cases settings.checkTopic topic <;> rfl
  | subscribersFor topic qos =>
      rw [outcomeOf_qos settings rfl, outcomeOf_topic settings rfl, prepare]
      cases QoS.ofByte qos <;> cases settings.checkTopic topic <;> rfl
  | retain message =>
      rw [outcomeOf_topic settings rfl, prepare]
      unfold Settings.checkRetained
      simp only [error?, ← hasWildcards_iff]
      cases settings.checkTopic message.topic <;> cases hasWildcards message.topic <;> rfl
  | retained filter =>
      rw [outcomeOf_topic settings rfl, prepare]
      cases settings.checkTopic filter <;> rfl
  | retainedFor filter =>
      rw [outcomeOf_topic settings rfl, prepare]
      cases settings.checkTopic filter <;> rfl
  | close => rfl
  | isClosed => rfl

variable {settings : Settings} {request : Request σ}

theorem prepare_of_firstError? {e : RouterError}
    (h : ArgumentCheck.firstError? settings request = some e) :
    request.prepare settings = .error e := by
  have hmap := map_prepare settings request
  rw [h] at hmap
  cases hprepare : request.prepare settings with
  | error e' =>
      rw [hprepare] at hmap
      exact congrArg _ (Except.error.inj hmap)
  | ok answer =>
      rw [hprepare] at hmap
      cases hmap

theorem exists_prepare_of_firstError?_eq_none
    (h : ArgumentCheck.firstError? settings request = none) :
    ∃ answer, request.prepare settings = .ok answer := by
  have hmap := map_prepare settings request
  rw [h] at hmap
  cases hprepare : request.prepare settings with
  | error e =>
      rw [hprepare] at hmap
      cases hmap
  | ok answer => exact ⟨answer, rfl⟩

end Request

namespace Router

variable {σ : Type u}

/-- What a router answers to a request that is prepared. -/
def respond (router : Router σ) :
    Except RouterError (Contents σ → Except TopicError (Answer σ)) →
      Except RouterError (Answer σ)
  | .error e => .error e
  | .ok answer =>
      match router.contents? with
      | none => .error .closed
      | some contents => (answer contents).mapError .topic

variable {router : Router σ}

theorem respond_of_closed (hclosed : router.contents? = none)
    (answer : Contents σ → Except TopicError (Answer σ)) :
    router.respond (.ok answer) = .error .closed := by
  simp only [respond, hclosed]

theorem respond_of_open {contents : Contents σ} (hopen : router.contents? = some contents)
    (answer : Contents σ → Except TopicError (Answer σ)) :
    router.respond (.ok answer) = (answer contents).mapError .topic := by
  simp only [respond, hopen]

/-- A change is answered by the tree that is changed. -/
theorem fst_carryOut {α : Type v} {β : Type w} (check : Except RouterError α)
    {change : α → Contents σ → Except RouterError β × Contents σ} {f : β → Answer σ}
    {answer : α → Contents σ → Except TopicError (Answer σ)}
    (h : ∀ passed contents,
      (change passed contents).1.map f = (answer passed contents).mapError .topic) :
    (router.carryOut check change).1.map f = router.respond (check.map answer) := by
  cases check with
  | error e => rfl
  | ok passed =>
      cases hopen : router.contents? with
      | none =>
          rw [carryOut_of_closed hopen]
          exact (respond_of_closed hopen _).symm
      | some contents =>
          rw [carryOut_of_open hopen, h]
          exact (respond_of_open hopen _).symm

/-- A search is answered by the tree that is searched. -/
theorem map_search {β : Type v} (check : Except RouterError Unit)
    (find : Contents σ → Except TopicError Unit × β) (nothing : β) (answer : β → Answer σ) :
    (router.search check find nothing).1.map
        (fun _ => answer (router.search check find nothing).2) =
      router.respond (check.map fun _ contents =>
        (find contents).1.map fun _ => answer (find contents).2) := by
  cases check with
  | error e => rfl
  | ok _ =>
      cases hopen : router.contents? with
      | none =>
          rw [search_of_closed hopen]
          exact (respond_of_closed hopen _).symm
      | some contents =>
          rw [search_of_open hopen]
          show _ = router.respond
            (.ok fun contents => (find contents).1.map fun _ => answer (find contents).2)
          rw [respond_of_open hopen]
          cases (find contents).1 <;> rfl

end Router

namespace Session

private theorem map_map {α : Type u} {β : Type v} {γ : Type w} (result : Except RouterError α)
    (f : α → β) (g : β → γ) : (result.map f).map g = result.map fun a => g (f a) := by
  cases result <;> rfl

variable {σ : Type u} [Identity σ] {request : Request σ}

/-- **How a request is answered.**  First its arguments are checked, then the
router has to be open, and then the trees are asked. -/
theorem answer_eq (session : Session σ) (htopic : request.topic? ≠ none) :
    (session.step request).1 =
      session.router.respond (request.prepare session.router.settings) := by
  cases request with
  | subscribe filter qos subscriber? =>
      rw [step_subscribe, Router.subscribe_eq_carryOut]
      refine Router.fst_carryOut _ fun passed contents => ?_
      rw [Contents.amend]
      cases (contents.subscriptions.apply (.subscribe filter passed.1 passed.2)).1 <;> rfl
  | unsubscribe filter subscriber? =>
      rw [step_unsubscribe, Router.unsubscribe_eq_carryOut]
      refine Router.fst_carryOut _ fun _ contents => ?_
      rw [Contents.amend]
      cases (contents.subscriptions.apply (.unsubscribe filter subscriber?)).1 <;> rfl
  | subscribers topic qos =>
      simp only [step, Request.prepare]
      cases hqos : QoS.ofByte qos with
      | error e =>
          rw [session.router.subscribers_of_error topic hqos]
          rfl
      | ok quality =>
          rw [session.router.subscribers_eq_search topic hqos]
          exact Router.map_search _ _ _ fun _ => .done
  | subscribersFor topic qos =>
      simp only [step, Request.prepare, Router.subscribersFor_eq_map]
      cases hqos : QoS.ofByte qos with
      | error e =>
          rw [session.router.subscribers_of_error topic hqos]
          rfl
      | ok quality =>
          rw [session.router.subscribers_eq_search topic hqos, map_map]
          exact Router.map_search _ _ _ fun found : Fanout σ =>
            .matched (found.subscribers.zip found.qos)
  | retain message =>
      rw [step_retain, Router.retain_eq_carryOut]
      refine Router.fst_carryOut _ fun _ contents => ?_
      rw [Contents.retain]
      cases (contents.retained.apply (.ofMessage message)).1 <;> rfl
  | retained filter =>
      simp only [step, Request.prepare, Router.retained_eq_search]
      exact Router.map_search _ _ _ fun _ => .done
  | retainedFor filter =>
      simp only [step, Request.prepare, Router.retainedFor_eq_map, Router.retained_eq_search]
      rw [map_map]
      exact Router.map_search _ _ _ .messages
  | close => exact absurd rfl htopic
  | isClosed => exact absurd rfl htopic

variable {session : Session σ} {e : RouterError}

/-- A request that fails a check, in any state of the router. -/
theorem answer_of_firstError?
    (h : ArgumentCheck.firstError? session.router.settings request = some e) :
    (session.step request).1 = .error e := by
  have htopic := ArgumentCheck.topic?_ne_none_of_firstError? h
  rw [answer_eq session htopic, Request.prepare_of_firstError? h]
  rfl

/-- A closed router refuses whatever passes the checks. -/
theorem answer_of_closed (htopic : request.topic? ≠ none)
    (hclosed : session.router.contents? = none) :
    (session.step request).1 =
      .error ((ArgumentCheck.firstError? session.router.settings request).getD .closed) := by
  cases hfirst : ArgumentCheck.firstError? session.router.settings request with
  | some e => exact answer_of_firstError? hfirst
  | none =>
      obtain ⟨answer, hanswer⟩ := Request.exists_prepare_of_firstError?_eq_none hfirst
      rw [answer_eq session htopic, hanswer, Router.respond_of_closed hclosed]
      rfl

/-- An open router refuses nothing as closed. -/
theorem answer_ne_closed {contents : Contents σ}
    (hopen : session.router.contents? = some contents) (request : Request σ) :
    (session.step request).1 ≠ .error .closed := by
  by_cases htopic : request.topic? = none
  · cases request with
    | close => nofun
    | isClosed => nofun
    | _ => cases htopic
  cases hfirst : ArgumentCheck.firstError? session.router.settings request with
  | some e =>
      rw [answer_of_firstError? hfirst]
      intro hclosed
      exact (ArgumentCheck.ne_of_firstError? hfirst).1 (Except.error.inj hclosed)
  | none =>
      obtain ⟨answer, hanswer⟩ := Request.exists_prepare_of_firstError?_eq_none hfirst
      rw [answer_eq session htopic, hanswer, Router.respond_of_open hopen]
      cases answer contents <;> nofun

end Session

end TopicRouter
