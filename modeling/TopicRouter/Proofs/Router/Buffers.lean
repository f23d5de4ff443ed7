import TopicRouter.Proofs.Router.Invariant
import TopicRouter.Subscriber.Handle

/-!
# Buffers that are used again

A caller hands the same buffers to one search after the other.  What an earlier
search has left in them shows in no answer, and a search that empties them first
leaves the same in them whatever they held, however it ends: found in full, found
in part before a fault, refused by a check or refused as closed.

One refusal comes before the buffers are emptied.  A search for subscribers with
a byte that stands for no quality of service leaves both buffers as they are, and
so with the subscribers of the search before it.

## Main results

* `Router.subscribers_of_isValid`, `Router.subscribers_of_not_isValid` — when the
  buffers for subscribers are emptied.
* `Session.run_withBuffers` — what other buffers change in a run.
* `Session.searches_replace_buffers` — what each search leaves in the buffers.
* `Session.invalid_qos_keeps_buffers` — the subscribers of an earlier search are
  still there after a search that is refused.
-/

namespace TopicRouter

universe u

variable {σ : Type u}

/-! ## Which requests fill a buffer -/

namespace Request

/-- Does the request replace what is in the buffers for subscribers? -/
def fillsFanout : Request σ → Bool
  | subscribers _ qos => QoS.isValid qos
  | _ => false

/-- Does the request replace what is in the buffer for messages? -/
def fillsMessages : Request σ → Bool
  | retained _ => true
  | _ => false

end Request

/-! ## One search -/

theorem Fanout.length_extend {fanout : Fanout σ}
    (h : fanout.subscribers.length = fanout.qos.length) (qos : QoS)
    (entries : List (Subscription σ)) :
    (fanout.extend qos entries).subscribers.length = (fanout.extend qos entries).qos.length := by
  simp [extend, h]

theorem QoS.ofByte_of_not_isValid {byte : UInt8} (h : isValid byte = false) :
    ofByte byte = .error (.invalidQos byte) := by
  rw [isValid, Option.isSome_eq_false_iff, Option.isNone_iff_eq_none] at h
  rw [ofByte, h]

theorem QoS.exists_ofByte_of_isValid {byte : UInt8} (h : isValid byte = true) :
    ∃ qos, ofByte byte = .ok qos := by
  obtain ⟨qos, hqos⟩ := Option.isSome_iff_exists.1 h
  exact ⟨qos, by rw [ofByte, hqos]⟩

namespace Router

variable (router : Router σ) (topic : String)

/-- A search with a quality of service forgets what was in the buffers. -/
theorem subscribers_of_isValid {qos : UInt8} (hvalid : QoS.isValid qos = true)
    (fanout : Fanout σ) :
    router.subscribers topic qos fanout = router.subscribers topic qos {} := by
  obtain ⟨quality, hquality⟩ := QoS.exists_ofByte_of_isValid hvalid
  rw [router.subscribers_eq_search topic hquality fanout,
    router.subscribers_eq_search topic hquality {}]

/-- A search without one is refused before the buffers are touched. -/
theorem subscribers_of_not_isValid {qos : UInt8} (hinvalid : QoS.isValid qos = false)
    (fanout : Fanout σ) :
    router.subscribers topic qos fanout = (.error (.invalidQos qos), fanout) :=
  router.subscribers_of_error topic (QoS.ofByte_of_not_isValid hinvalid) fanout

/-- A search for messages forgets what was in the buffer. -/
theorem retained_eq_retained_nil (filter : String) (messages : List Message) :
    router.retained filter messages = router.retained filter [] := by
  rw [router.retained_eq_search filter messages, router.retained_eq_search filter []]

/-- The buffers keep pace with each other. -/
theorem length_subscribers (qos : UInt8) {fanout : Fanout σ}
    (h : fanout.subscribers.length = fanout.qos.length) :
    (router.subscribers topic qos fanout).2.subscribers.length =
      (router.subscribers topic qos fanout).2.qos.length := by
  cases hqos : QoS.ofByte qos with
  | error e =>
      rw [router.subscribers_of_error topic hqos]
      exact h
  | ok quality =>
      rw [router.subscribers_eq_search topic hqos]
      unfold search
      split
      · rfl
      · rfl
      · exact Fanout.length_extend rfl _ _

end Router

/-! ## Sessions with other buffers -/

namespace Session

variable [Identity σ]

/-- The session with other contents in the buffers of its caller. -/
def withBuffers (session : Session σ) (fanout : Fanout σ) (messages : List Message) :
    Session σ := { session with fanout, messages }

/-- **One request.**  It is answered alike whatever the buffers hold, and leaves
the same in a buffer that it fills. -/
theorem step_withBuffers (session : Session σ) (request : Request σ) (fanout : Fanout σ)
    (messages : List Message) :
    (session.withBuffers fanout messages).step request =
      ((session.step request).1, (session.step request).2.withBuffers
        (if request.fillsFanout then (session.step request).2.fanout else fanout)
        (if request.fillsMessages then (session.step request).2.messages else messages)) := by
  cases request with
  | subscribers topic qos =>
      cases hvalid : QoS.isValid qos with
      | true =>
          simp only [step, withBuffers, Request.fillsFanout, Request.fillsMessages, hvalid,
            Router.subscribers_of_isValid _ _ hvalid fanout,
            Router.subscribers_of_isValid _ _ hvalid session.fanout]
          rfl
      | false =>
          simp only [step, withBuffers, Request.fillsFanout, Request.fillsMessages, hvalid,
            Router.subscribers_of_not_isValid _ _ hvalid]
          rfl
  | retained filter =>
      simp only [step, withBuffers, Request.fillsFanout, Request.fillsMessages,
        Router.retained_eq_retained_nil _ _ messages,
        Router.retained_eq_retained_nil _ _ session.messages]
      rfl
  | _ => rfl

/-- A request that does not fill a buffer leaves it as it is. -/
theorem buffers_step (session : Session σ) (request : Request σ) :
    (request.fillsFanout = false → (session.step request).2.fanout = session.fanout) ∧
      (request.fillsMessages = false → (session.step request).2.messages = session.messages) := by
  have hstep := step_withBuffers session request session.fanout session.messages
  rw [show session.withBuffers session.fanout session.messages = session from rfl] at hstep
  constructor
  · intro hfanout
    rw [hfanout] at hstep
    exact congrArg (·.2.fanout) hstep
  · intro hmessages
    rw [hmessages] at hstep
    exact congrArg (·.2.messages) hstep

theorem buffers_run (session : Session σ) (requests : List (Request σ)) :
    (requests.any Request.fillsFanout = false →
      (session.run requests).2.fanout = session.fanout) ∧
    (requests.any Request.fillsMessages = false →
      (session.run requests).2.messages = session.messages) := by
  induction requests generalizing session with
  | nil => exact ⟨fun _ => rfl, fun _ => rfl⟩
  | cons request rest ih =>
      obtain ⟨hfanout, hmessages⟩ := buffers_step session request
      obtain ⟨hfanout', hmessages'⟩ := ih (session.step request).2
      simp only [List.any_cons, Bool.or_eq_false_iff, run_cons]
      exact ⟨fun h => (hfanout' h.2).trans (hfanout h.1),
        fun h => (hmessages' h.2).trans (hmessages h.1)⟩

/-- What is left by a request is there at the end unless it is replaced later. -/
private theorem ite_or_eq {β : Type u} {first later : Bool} {last next start : β}
    (h : later = false → last = next) :
    (if later then last else if first then next else start) =
      if first || later then last else start := by
  cases later with
  | true => rw [Bool.or_true, if_pos rfl, if_pos rfl]
  | false => rw [Bool.or_false, if_neg Bool.false_ne_true, h rfl]

/-- **A run.**  Its answers do not depend on what is in the buffers at first, and
nothing of that is left in a buffer that some request has filled. -/
theorem run_withBuffers (session : Session σ) (requests : List (Request σ)) (fanout : Fanout σ)
    (messages : List Message) :
    (session.withBuffers fanout messages).run requests =
      ((session.run requests).1, (session.run requests).2.withBuffers
        (if requests.any Request.fillsFanout then (session.run requests).2.fanout else fanout)
        (if requests.any Request.fillsMessages then (session.run requests).2.messages
          else messages)) := by
  induction requests generalizing session fanout messages with
  | nil => rfl
  | cons request rest ih =>
      obtain ⟨hfanout, hmessages⟩ := buffers_run (session.step request).2 rest
      rw [run_cons, run_cons, step_withBuffers, ih, ite_or_eq hfanout, ite_or_eq hmessages,
        List.any_cons, List.any_cons]

/-- **Searches replace what is in the buffers**, in every state of a session.  A
search for subscribers with a quality of service leaves buffers of equal length
that are the same whatever was in them, and so does a search for messages.  If
either is answered at all, its buffers hold what is returned by the search that
makes room for itself.  A search for subscribers without a quality of service is
refused and changes neither buffer.  So other contents of the buffers change no
answer from then on, and are gone from a buffer that was replaced once. -/
theorem searches_replace_buffers (settings : Settings) (before : List (Request σ)) :
    let session := ((start settings).run before).2
    (∀ topic qos, QoS.isValid qos = true →
      ∃ (outcome : Except RouterError Unit) (found : Fanout σ),
      found.subscribers.length = found.qos.length ∧
      session.router.subscribersFor topic qos =
        outcome.map (fun _ => found.subscribers.zip found.qos) ∧
      ∀ fanout messages, (session.withBuffers fanout messages).step (.subscribers topic qos) =
        (outcome.map fun _ => .done, session.withBuffers found messages)) ∧
    (∀ topic qos, QoS.isValid qos = false →
      ∀ fanout messages, (session.withBuffers fanout messages).step (.subscribers topic qos) =
        (.error (.invalidQos qos), session.withBuffers fanout messages)) ∧
    (∀ filter, ∃ (outcome : Except RouterError Unit) (found : List Message),
      session.router.retainedFor filter = outcome.map (fun _ => found) ∧
      ∀ fanout messages, (session.withBuffers fanout messages).step (.retained filter) =
        (outcome.map fun _ => .done, session.withBuffers fanout found)) ∧
    ∀ (after : List (Request σ)) fanout messages,
      (session.withBuffers fanout messages).run after =
        ((session.run after).1, (session.run after).2.withBuffers
          (if after.any Request.fillsFanout then (session.run after).2.fanout else fanout)
          (if after.any Request.fillsMessages then (session.run after).2.messages
            else messages)) := by
  intro session
  -- The buffers are compared with empty ones.
  have hstep := step_withBuffers (session.withBuffers {} [])
  refine ⟨fun topic qos hvalid => ?_, fun topic qos hinvalid fanout messages => ?_,
    fun filter => ?_, run_withBuffers session⟩
  · have hempty : ({} : Fanout σ).subscribers.length = ({} : Fanout σ).qos.length := rfl
    have hfills : Request.fillsFanout (.subscribers topic qos : Request σ) = true := hvalid
    refine ⟨_, _, session.router.length_subscribers topic qos hempty,
      session.router.subscribersFor_eq_map topic qos, fun fanout messages => ?_⟩
    have hsearch := hstep (.subscribers topic qos) fanout messages
    rw [if_pos hfills] at hsearch
    exact hsearch
  · have hfills : ¬ Request.fillsFanout (.subscribers topic qos : Request σ) = true :=
      Bool.eq_false_iff.1 hinvalid
    have hsearch := hstep (.subscribers topic qos) fanout messages
    have hrefused : ((session.withBuffers {} []).step (.subscribers topic qos)).1 =
        .error (.invalidQos qos) := by
      simp only [step, withBuffers, Router.subscribers_of_not_isValid _ _ hinvalid]
      rfl
    rw [if_neg hfills, hrefused] at hsearch
    exact hsearch
  · refine ⟨_, _, session.router.retainedFor_eq_map filter, fun fanout messages => ?_⟩
    exact hstep (.retained filter) fanout messages

/-- The topic has a fault, before which one subscriber is found. -/
theorem searches_replace_buffers_of_fault :
    let x : Handle := .text .owned "x"
    let y : Handle := .text .owned "y"
    let before : List (Request Handle) := [.subscribe "#" 1 (some x), .subscribe "a" 1 (some y)]
    let session := ((start {}).run before).2
    QoS.isValid 2 = true ∧ QoS.isValid 3 = false ∧
      (∃ (outcome : Except RouterError Unit) (found : Fanout Handle),
        found.subscribers.length = found.qos.length ∧
        session.router.subscribersFor "a/b#" 2 =
          outcome.map (fun _ => found.subscribers.zip found.qos) ∧
        ∀ fanout messages, (session.withBuffers fanout messages).step (.subscribers "a/b#" 2) =
          (outcome.map fun _ => .done, session.withBuffers found messages)) ∧
      (∀ fanout messages, (session.withBuffers fanout messages).step (.subscribers "a/b#" 3) =
        (.error (.invalidQos 3), session.withBuffers fanout messages)) ∧
      ∃ (outcome : Except RouterError Unit) (found : List Message),
        session.router.retainedFor "a/b#" = outcome.map (fun _ => found) ∧
        ∀ fanout messages, (session.withBuffers fanout messages).step (.retained "a/b#") =
          (outcome.map fun _ => .done, session.withBuffers fanout found) := by
  intro x y before session
  have hvalid : QoS.isValid 2 = true := by decide
  have hinvalid : QoS.isValid 3 = false := by decide
  obtain ⟨hsubscribers, hrefused, hmessages, _⟩ := searches_replace_buffers {} before
  exact ⟨hvalid, hinvalid, hsubscribers _ _ hvalid, hrefused _ _ hinvalid, hmessages _⟩

/-- A search is refused, and the buffers still hold the subscriber that the search
before it has found for another topic.  So what such a search leaves does depend on
what was in the buffers. -/
theorem invalid_qos_keeps_buffers :
    let x : Handle := .text .owned "x"
    let before : List (Request Handle) := [.subscribe "a" 1 (some x), .subscribers "a" 0]
    let session := ((start {}).run before).2
    session.fanout = ⟨[x], [.atMostOnce]⟩ ∧
      (session.step (.subscribers "b" 3)).1 = .error (.invalidQos 3) ∧
      (session.step (.subscribers "b" 3)).2.fanout = ⟨[x], [.atMostOnce]⟩ ∧
      ¬ ∃ outcome found, ∀ fanout messages,
        (session.withBuffers fanout messages).step (.subscribers "b" 3) =
          (outcome, session.withBuffers found messages) := by
  intro x before session
  have hfanout : session.fanout = ⟨[x], [.atMostOnce]⟩ := by decide +kernel
  refine ⟨hfanout, by decide +kernel, by decide +kernel, ?_⟩
  rintro ⟨outcome, found, hsame⟩
  have hempty := congrArg (·.2.fanout) (hsame {} [])
  have hfull := congrArg (·.2.fanout) (hsame ⟨[x], [.atMostOnce]⟩ [])
  have hcontents : ({} : Fanout Handle) = ⟨[x], [.atMostOnce]⟩ := hempty.trans hfull.symm
  exact absurd (congrArg Fanout.subscribers hcontents) (List.cons_ne_nil _ _).symm

end Session

end TopicRouter
