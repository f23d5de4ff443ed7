import TopicRouter.Proofs.Router.Buffers
import TopicRouter.Proofs.Router.Carrying
import TopicRouter.Proofs.Subscription.Matching
import TopicRouter.Proofs.Subscription.Revising
import TopicRouter.Subscriber.Handle

/-!
# Rejected requests leave no trace

A request that is answered with an error is as good as not made.  It does
change the router if it subscribes to a faulty filter, since the nodes in front
of the fault stay.  These nodes have no entries, and later requests may walk
through them, fill them or drop them.

So two sessions are compared, one with the request and one without it.  Their
routers are `Alike`: they have the same entries under every filter and the
same messages, and only the nodes may differ.  Every request keeps them alike,
and is answered alike unless it asks for the nodes themselves.

## Main results

* `Session.alike_of_error` — a rejected request leaves a router alike.
* `Session.alike_step`, `Session.answer_step` — one request to two routers that
  are alike.
* `Session.answer_run` — any number of requests to them.
* `Session.rejected_leaves_no_trace` — a rejected request can be left out.
-/

namespace TopicRouter

universe u v w

/-- The same entries under every filter, and the same messages. -/
structure Contents.Alike {σ : Type u} (contents contents' : Contents σ) : Prop where
  slot : contents.subscriptions.slot = contents'.subscriptions.slot
  retained : contents.retained = contents'.retained

namespace Contents

variable {σ : Type u} {contents contents' : Contents σ}

theorem Alike.refl (contents : Contents σ) : contents.Alike contents := ⟨rfl, rfl⟩

theorem Alike.amend [Identity σ] (h : contents.Alike contents') (change : SubscriptionChange σ) :
    (contents.amend change).2.Alike (contents'.amend change).2 :=
  ⟨SubscriptionTree.slot_apply_congr h.slot change, h.retained⟩

theorem Alike.answer_amend [Identity σ] (h : contents.Alike contents')
    (change : SubscriptionChange σ) (hfault : (scan change.filter).fault? = none)
    (hclear : change.isClear = false) :
    (contents.amend change).1 = (contents'.amend change).1 := by
  rw [Contents.amend, Contents.amend, SubscriptionTree.answer_congr h.slot hfault hclear]

theorem Alike.retain (h : contents.Alike contents') (message : Message) :
    (contents.retain message).2.Alike (contents'.retain message).2 ∧
      (contents.retain message).1 = (contents'.retain message).1 := by
  simp only [Contents.retain, h.retained]
  exact ⟨⟨h.slot, rfl⟩, trivial⟩

/-- A change that is refused leaves every entry. -/
theorem alike_amend_of_error [Identity σ] {change : SubscriptionChange σ} {e : RouterError}
    (h : (contents.amend change).1 = .error e) : contents.Alike (contents.amend change).2 := by
  rw [Contents.amend] at h
  cases hanswer : (contents.subscriptions.apply change).1 with
  | ok _ =>
      rw [hanswer] at h
      cases h
  | error fault => exact ⟨(SubscriptionTree.slot_apply_of_error hanswer).symm, rfl⟩

/-- A message that is refused leaves every message. -/
theorem retain_of_error {message : Message} (hfault : (scan message.topic).fault? = none)
    {e : RouterError} (h : (contents.retain message).1 = .error e) :
    (contents.retain message).2 = contents := by
  rcases RetainedTree.apply_ofMessage_cases hfault contents.retained with
    ⟨hanswer, _⟩ | ⟨_, _, hrefused⟩
  · rw [Contents.retain, hanswer] at h
    cases h
  · rw [Contents.retain, hrefused]

end Contents

/-- Routers that store the same, save for nodes without entries. -/
structure Router.Alike {σ : Type u} (router router' : Router σ) : Prop where
  settings : router.settings = router'.settings
  contents : Option.Rel Contents.Alike router.contents? router'.contents?

/-- Does the answer depend on which nodes there are?  A filter can be cleared
when it has a node, and a fault is reported when the nodes in front of it are
there. -/
def Request.AsksForNodes {σ : Type u} : Request σ → Prop
  | .unsubscribe filter subscriber? => subscriber? = none ∨ (scan filter).fault? ≠ none
  | .subscribers topic _ => (scan topic).fault? ≠ none
  | .subscribersFor topic _ => (scan topic).fault? ≠ none
  | _ => False

namespace Router

variable {σ : Type u}

/-- Whether a search is answered does not depend on the buffers. -/
theorem subscribers_fst_eq (router : Router σ) (topic : String) (qos : UInt8)
    (fanout fanout' : Fanout σ) :
    (router.subscribers topic qos fanout).1 = (router.subscribers topic qos fanout').1 := by
  cases hvalid : QoS.isValid qos with
  | true =>
      rw [router.subscribers_of_isValid topic hvalid fanout,
        router.subscribers_of_isValid topic hvalid fanout']
  | false =>
      rw [router.subscribers_of_not_isValid topic hvalid fanout,
        router.subscribers_of_not_isValid topic hvalid fanout']

end Router

namespace Router.Alike

variable {σ : Type u} {router router' : Router σ}

theorem refl (router : Router σ) : router.Alike router where
  settings := rfl
  contents := by
    cases router.contents? with
    | none => exact .none
    | some contents => exact .some (.refl contents)

/-- Both are closed, or both are open with contents that are alike. -/
theorem closed_or_open (h : router.Alike router') :
    (router.contents? = none ∧ router'.contents? = none) ∨
      ∃ contents contents', router.contents? = some contents ∧
        router'.contents? = some contents' ∧ contents.Alike contents' := by
  have hcontents := h.contents
  generalize router.contents? = opened, router'.contents? = opened' at hcontents ⊢
  cases hcontents with
  | none => exact .inl ⟨rfl, rfl⟩
  | some hcontents => exact .inr ⟨_, _, rfl, rfl, hcontents⟩

theorem store {contents contents' : Contents σ} (h : router.Alike router')
    (hcontents : contents.Alike contents') :
    (router.store contents).Alike (router'.store contents') :=
  ⟨h.settings, .some hcontents⟩

theorem close (h : router.Alike router') : router.close.Alike router'.close :=
  ⟨h.settings, .none⟩

theorem isClosed_eq (h : router.Alike router') : router.isClosed = router'.isClosed := by
  rcases h.closed_or_open with ⟨hnone, hnone'⟩ | ⟨_, _, hopen, hopen', _⟩
  · rw [Router.isClosed_eq, Router.isClosed_eq, hnone, hnone']
  · rw [Router.isClosed_eq, Router.isClosed_eq, hopen, hopen']
    rfl

/-! ## Changes -/

section CarryOut

variable {α : Type v} {β : Type w} {check : Except RouterError α}
  {change : α → Contents σ → Except RouterError β × Contents σ}

/-- The same request to two routers is refused by both, or carried out by
both. -/
theorem carryOut_both
    (related : Except RouterError β × Router σ → Except RouterError β × Router σ → Prop)
    (h : router.Alike router') (hrefused : ∀ e, related (.error e, router) (.error e, router'))
    (hcarried : ∀ passed contents contents', contents.Alike contents' →
      related ((change passed contents).1, router.store (change passed contents).2)
        ((change passed contents').1, router'.store (change passed contents').2)) :
    related (router.carryOut check change) (router'.carryOut check change) := by
  cases check with
  | error e => exact hrefused e
  | ok passed =>
      rcases h.closed_or_open with ⟨hnone, hnone'⟩ | ⟨contents, contents', hopen, hopen', halike⟩
      · rw [carryOut_of_closed hnone, carryOut_of_closed hnone']
        exact hrefused .closed
      · rw [carryOut_of_open hopen, carryOut_of_open hopen']
        exact hcarried passed contents contents' halike

theorem carryOut (h : router.Alike router')
    (hchange : ∀ passed contents contents', contents.Alike contents' →
      (change passed contents).2.Alike (change passed contents').2) :
    (router.carryOut check change).2.Alike (router'.carryOut check change).2 :=
  carryOut_both (fun result result' => result.2.Alike result'.2) h (fun _ => h)
    fun passed contents contents' halike => h.store (hchange passed contents contents' halike)

theorem answer_carryOut (h : router.Alike router')
    (hanswer : ∀ passed contents contents', contents.Alike contents' →
      (change passed contents).1 = (change passed contents').1) :
    (router.carryOut check change).1 = (router'.carryOut check change).1 :=
  carryOut_both (fun result result' => result.1 = result'.1) h (fun _ => rfl) hanswer

/-- A request that is refused leaves the router alike if its change does. -/
theorem carryOut_of_error
    (hchange : ∀ passed contents e, check = .ok passed →
      (change passed contents).1 = .error e → contents.Alike (change passed contents).2)
    {e : RouterError} (h : (router.carryOut check change).1 = .error e) :
    router.Alike (router.carryOut check change).2 := by
  cases check with
  | error e => exact .refl router
  | ok passed =>
      cases hopen : router.contents? with
      | none =>
          rw [carryOut_of_closed hopen]
          exact .refl router
      | some contents =>
          rw [carryOut_of_open hopen] at h ⊢
          have hcontents := hchange passed contents e rfl h
          have hstore := (Alike.refl router).store hcontents
          rwa [store_of_open hopen] at hstore

end CarryOut

section Subscriptions

variable [Identity σ]

theorem subscribe (h : router.Alike router') (filter : String) (qos : UInt8)
    (subscriber? : Option σ) :
    (router.subscribe filter qos subscriber?).2.Alike
        (router'.subscribe filter qos subscriber?).2 ∧
      (router.subscribe filter qos subscriber?).1 =
        (router'.subscribe filter qos subscriber?).1 := by
  rw [subscribe_eq_carryOut, subscribe_eq_carryOut, h.settings]
  refine ⟨h.carryOut fun passed _ _ halike => halike.amend _, ?_⟩
  refine h.answer_carryOut fun passed contents contents' _ => ?_
  rw [Contents.amend, Contents.amend,
    SubscriptionTree.answer_subscribe_congr contents.subscriptions contents'.subscriptions]

theorem unsubscribe (h : router.Alike router') (filter : String) (subscriber? : Option σ) :
    (router.unsubscribe filter subscriber?).2.Alike (router'.unsubscribe filter subscriber?).2 ∧
      (subscriber? ≠ none → (scan filter).fault? = none →
        (router.unsubscribe filter subscriber?).1 =
          (router'.unsubscribe filter subscriber?).1) := by
  rw [unsubscribe_eq_carryOut, unsubscribe_eq_carryOut, h.settings]
  refine ⟨h.carryOut fun _ _ _ halike => halike.amend _, fun hsome hfault => ?_⟩
  refine h.answer_carryOut fun _ contents contents' halike => halike.answer_amend _ hfault ?_
  exact Option.isNone_eq_false_iff.2 (Option.isSome_iff_ne_none.2 hsome)

end Subscriptions

theorem retain (h : router.Alike router') (message : Message) :
    (router.retain message).2.Alike (router'.retain message).2 ∧
      (router.retain message).1 = (router'.retain message).1 := by
  rw [retain_eq_carryOut, retain_eq_carryOut, h.settings]
  exact ⟨h.carryOut fun _ _ _ halike => (halike.retain message).1,
    h.answer_carryOut fun _ _ _ halike => (halike.retain message).2⟩

/-! ## Searches -/

/-- A search that finds the same in contents that are alike. -/
theorem search_eq {α : Type v} (h : router.Alike router') (check : Except RouterError Unit)
    {find : Contents σ → Except TopicError Unit × α} (nothing : α)
    (hfind : ∀ contents contents', contents.Alike contents' → find contents = find contents') :
    router.search check find nothing = router'.search check find nothing := by
  cases check with
  | error e => rfl
  | ok _ =>
      rcases h.closed_or_open with ⟨hnone, hnone'⟩ | ⟨contents, contents', hopen, hopen', halike⟩
      · rw [search_of_closed hnone, search_of_closed hnone']
      · rw [search_of_open hopen, search_of_open hopen', hfind contents contents' halike]

theorem subscribers_eq (h : router.Alike router') {topic : String}
    (hfault : (scan topic).fault? = none) (qos : UInt8) (fanout : Fanout σ) :
    router.subscribers topic qos fanout = router'.subscribers topic qos fanout := by
  have hscan : scan topic = ⟨(scan topic).levels, none⟩ := by rw [← hfault]
  cases hqos : QoS.ofByte qos with
  | error e => rw [router.subscribers_of_error topic hqos, router'.subscribers_of_error topic hqos]
  | ok quality =>
      rw [router.subscribers_eq_search topic hqos, router'.subscribers_eq_search topic hqos,
        h.settings]
      refine h.search_eq _ _ fun contents contents' halike => ?_
      simp only [SubscriptionTree.collect, SubscriptionTree.lookup_eq_done _ hscan, halike.slot]

theorem retained_eq (h : router.Alike router') (filter : String) (messages : List Message) :
    router.retained filter messages = router'.retained filter messages := by
  rw [router.retained_eq_search, router'.retained_eq_search, h.settings]
  refine h.search_eq _ _ fun contents contents' halike => ?_
  rw [halike.retained]

end Router.Alike

namespace Session

variable {σ : Type u} [Identity σ] {session session' : Session σ} {request : Request σ}

/-! ## One request -/

/-- Every request keeps routers alike. -/
theorem alike_step (h : session.router.Alike session'.router) (request : Request σ) :
    (session.step request).2.router.Alike (session'.step request).2.router := by
  cases request with
  | subscribe filter qos subscriber? => exact (h.subscribe filter qos subscriber?).1
  | unsubscribe filter subscriber? => exact (h.unsubscribe filter subscriber?).1
  | retain message => exact (h.retain message).1
  | close => exact h.close
  | subscribers topic qos => exact h
  | subscribersFor topic qos => exact h
  | retained filter => exact h
  | retainedFor filter => exact h
  | isClosed => exact h

/-- Routers that are alike answer alike, unless the nodes are asked for. -/
theorem answer_step (h : session.router.Alike session'.router)
    (hrequest : ¬ request.AsksForNodes) :
    (session.step request).1 = (session'.step request).1 := by
  cases request with
  | subscribe filter qos subscriber? =>
      rw [step_subscribe, step_subscribe, (h.subscribe filter qos subscriber?).2]
  | unsubscribe filter subscriber? =>
      obtain ⟨hsome, hfault⟩ := not_or.1 hrequest
      rw [step_unsubscribe, step_unsubscribe,
        (h.unsubscribe filter subscriber?).2 hsome (not_not.1 hfault)]
  | retain message => rw [step_retain, step_retain, (h.retain message).2]
  | close => rfl
  | subscribers topic qos =>
      have hsearch := h.subscribers_eq (not_not.1 hrequest) qos session'.fanout
      simp only [step, ← hsearch, session.router.subscribers_fst_eq topic qos session.fanout
        session'.fanout]
  | subscribersFor topic qos =>
      have hsearch := h.subscribers_eq (not_not.1 hrequest) qos {}
      simp only [step, Router.subscribersFor, hsearch]
  | retained filter =>
      simp only [step, session.router.retained_eq_retained_nil filter session.messages,
        session'.router.retained_eq_retained_nil filter session'.messages, h.retained_eq]
  | retainedFor filter => simp only [step, Router.retainedFor, h.retained_eq]
  | isClosed => simp only [step, h.isClosed_eq]

private theorem eq_error_of_map {α : Type v} {β : Type w} {f : α → β}
    {answer : Except RouterError α} {e : RouterError} (h : answer.map f = .error e) :
    answer = .error e := by
  cases answer with
  | error _ => exact congrArg _ (Except.error.inj h)
  | ok a => cases h

/-- **A rejected request leaves the router alike.** -/
theorem alike_of_error {e : RouterError} (h : (session.step request).1 = .error e) :
    session.router.Alike (session.step request).2.router := by
  cases request with
  | subscribe filter qos subscriber? =>
      -- The tree may have grown, but only by nodes without entries.
      rw [step_subscribe, Router.subscribe_eq_carryOut] at h ⊢
      exact .carryOut_of_error
        (fun passed contents e _ herror => Contents.alike_amend_of_error (eq_error_of_map herror))
        (eq_error_of_map h)
  | unsubscribe filter subscriber? =>
      rw [step_unsubscribe, Router.unsubscribe_eq_carryOut] at h ⊢
      exact .carryOut_of_error
        (fun _ contents e _ herror => Contents.alike_amend_of_error herror) (eq_error_of_map h)
  | retain message =>
      -- A topic that passes the checks has no fault, so no node was left behind.
      rw [step_retain, Router.retain_eq_carryOut] at h ⊢
      refine .carryOut_of_error (fun _ contents e hcheck herror => ?_) (eq_error_of_map h)
      rw [Contents.retain_of_error (Settings.scan_of_checkRetained hcheck).1 herror]
      exact .refl contents
  | close => cases h
  | subscribers topic qos => exact .refl session.router
  | subscribersFor topic qos => exact .refl session.router
  | retained filter => exact .refl session.router
  | retainedFor filter => exact .refl session.router
  | isClosed => exact .refl session.router

/-! ## Any number of requests -/

/-- Routers that are alike answer alike for ever, save for requests that ask
for the nodes. -/
theorem answer_run (h : session.router.Alike session'.router) (requests : List (Request σ))
    (n : Nat) (request : Request σ) (hat : requests[n]? = some request)
    (hrequest : ¬ request.AsksForNodes) :
    (session.run requests).1[n]? = (session'.run requests).1[n]? := by
  induction requests generalizing session session' n with
  | nil => cases hat
  | cons first rest ih =>
      rw [run_cons, run_cons]
      cases n with
      | zero =>
          obtain rfl := Option.some.inj hat
          exact congrArg some (answer_step h hrequest)
      | succ n =>
          -- Whatever the first request asks for, the routers stay alike.
          exact ih (alike_step h first) n hat

/-- **A rejected request leaves no trace.**  Take a request that is answered
with an error, and leave it out.  The requests before it and after it are
answered as they were, save for those after it that ask which nodes there
are. -/
theorem rejected_leaves_no_trace {settings : Settings} {before : List (Request σ)}
    {request : Request σ} {e : RouterError}
    (h : (((start settings).run before).2.step request).1 = .error e)
    (after : List (Request σ)) :
    ∃ earlier later later',
      ((start settings).run (before ++ request :: after)).1 = earlier ++ .error e :: later ∧
      ((start settings).run (before ++ after)).1 = earlier ++ later' ∧
      earlier.length = before.length ∧ later.length = after.length ∧
      later'.length = after.length ∧
      ∀ (n : Nat) (next : Request σ), after[n]? = some next → ¬ next.AsksForNodes →
        later[n]? = later'[n]? := by
  have halike := alike_of_error h
  refine ⟨((start settings).run before).1,
    ((((start settings).run before).2.step request).2.run after).1,
    (((start settings).run before).2.run after).1, ?_, ?_, length_run _ _, length_run _ _,
    length_run _ _, fun n next hat hnext => (answer_run halike after n next hat hnext).symm⟩
  · rw [run_append, run_cons, h]
  · rw [run_append]

/-- A faulty filter leaves two nodes, of which one is then cleared and the
other is walked through. -/
theorem rejected_leaves_no_trace_of_fault :
    let x : Handle := .text .owned "x"
    let before : List (Request Handle) :=
      [.subscribe "a/b" 1 (some x), .retain (.retained "a/b" .atMostOnce ⟨#[1]⟩)]
    let request : Request Handle := .subscribe "a/c/d#" 2 (some x)
    let e : RouterError := .topic (.malformed "d#" .multiNotWhole)
    let after : List (Request Handle) :=
      [.subscribersFor "a/b" 0, .unsubscribe "a/c" none, .retainedFor "a/#",
        .unsubscribe "a/b" (some x), .unsubscribe "a" (some x)]
    (((start {}).run before).2.step request).1 = .error e ∧
      ∃ earlier later later',
        ((start {}).run (before ++ request :: after)).1 = earlier ++ .error e :: later ∧
        ((start {}).run (before ++ after)).1 = earlier ++ later' ∧
        earlier.length = before.length ∧ later.length = after.length ∧
        later'.length = after.length ∧
        ∀ (n : Nat) (next : Request Handle), after[n]? = some next → ¬ next.AsksForNodes →
          later[n]? = later'[n]? := by
  intro x before request e after
  have hrejected : (((start {}).run before).2.step request).1 = .error e := by decide +kernel
  exact ⟨hrejected, rejected_leaves_no_trace hrejected after⟩

end Session

end TopicRouter
