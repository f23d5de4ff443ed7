import TopicRouter.Proofs.Router.Checks
import TopicRouter.Proofs.Router.Invariant
import TopicRouter.Subscriber.Handle

/-!
# Closing is final

A router is open until it is asked to close, and no request opens it again.
Which of the two it is decides the answers: an open router refuses nothing as
closed, and a closed one refuses everything.  It still checks the arguments
first, so a request that fails a check gets the same answer before and after.

## Main results

* `Session.isClosed_step`, `Session.isClosed_run` — a router is closed by a
  request to close and by nothing else.
* `Session.closing_is_final` — what a router answers before and after it is
  closed.
-/

namespace TopicRouter

universe u v w

variable {σ : Type u}

/-! ## Open or closed -/

namespace Router

theorem isClosed_carryOut {α : Type v} {β : Type w} (router : Router σ)
    (check : Except RouterError α)
    (change : α → Contents σ → Except RouterError β × Contents σ) :
    (router.carryOut check change).2.isClosed = router.isClosed := by
  cases check with
  | error e => rfl
  | ok passed =>
      cases hopen : router.contents? with
      | none => rw [carryOut_of_closed hopen]
      | some contents =>
          rw [carryOut_of_open hopen, isClosed_eq, isClosed_eq router, hopen]
          rfl

theorem contents?_eq_none_of_isClosed {router : Router σ} (h : router.isClosed = true) :
    router.contents? = none := by
  rw [isClosed_eq] at h
  exact Option.isNone_iff_eq_none.1 h

theorem exists_contents_of_not_isClosed {router : Router σ} (h : ¬ router.isClosed = true) :
    ∃ contents, router.contents? = some contents := by
  refine Option.ne_none_iff_exists'.1 fun hclosed => h ?_
  rw [isClosed_eq, hclosed]
  rfl

end Router

namespace Session

variable [Identity σ]

/-- A router is closed by a request to close, and stays so. -/
theorem isClosed_step (session : Session σ) (request : Request σ) :
    (session.step request).2.router.isClosed = true ↔
      session.router.isClosed = true ∨ request = .close := by
  -- All requests but one leave the state as it is.
  have hsame : ∀ router : Router σ, router.isClosed = session.router.isClosed →
      request ≠ .close →
      (router.isClosed = true ↔ session.router.isClosed = true ∨ request = .close) := by
    intro router hrouter hrequest
    rw [hrouter, or_iff_left hrequest]
  cases request with
  | subscribe filter qos subscriber? =>
      rw [step_subscribe, Router.subscribe_eq_carryOut]
      exact hsame _ (Router.isClosed_carryOut _ _ _) nofun
  | unsubscribe filter subscriber? =>
      rw [step_unsubscribe, Router.unsubscribe_eq_carryOut]
      exact hsame _ (Router.isClosed_carryOut _ _ _) nofun
  | retain message =>
      rw [step_retain, Router.retain_eq_carryOut]
      exact hsame _ (Router.isClosed_carryOut _ _ _) nofun
  | close => exact iff_of_true rfl (.inr rfl)
  | subscribers topic qos => exact hsame session.router rfl nofun
  | subscribersFor topic qos => exact hsame session.router rfl nofun
  | retained filter => exact hsame session.router rfl nofun
  | retainedFor filter => exact hsame session.router rfl nofun
  | isClosed => exact hsame session.router rfl nofun

/-- **A router is closed once it was asked to close.** -/
theorem isClosed_run (session : Session σ) (requests : List (Request σ)) :
    (session.run requests).2.router.isClosed = true ↔
      session.router.isClosed = true ∨ .close ∈ requests := by
  induction requests generalizing session with
  | nil => rw [run_nil, or_iff_left (List.not_mem_nil (a := Request.close))]
  | cons request rest ih =>
      rw [run_cons, ih, isClosed_step, or_assoc, List.mem_cons, eq_comm (a := request)]

/-! ## Answers -/

/-- What a router answers as long as it is open. -/
structure AnswersAsOpen (session : Session σ) : Prop where
  isClosed : (session.step .isClosed).1 = .ok (.closed false)
  ne_closed : ∀ request, (session.step request).1 ≠ .error .closed

/-- What a router with these settings answers once it is closed. -/
structure AnswersAsClosed (settings : Settings) (session : Session σ) : Prop where
  isClosed : (session.step .isClosed).1 = .ok (.closed true)
  close : (session.step .close).1 = .ok .done
  /-- A request about a topic is refused for the first check that it fails, or
  else because the router is closed. -/
  refused : ∀ request : Request σ, request.topic? ≠ none → (session.step request).1 =
    .error ((ArgumentCheck.firstError? settings request).getD .closed)
  closed_iff : ∀ request : Request σ, request.topic? ≠ none →
    ((session.step request).1 = .error .closed ↔
      ∀ check, ArgumentCheck.error? settings request check = none)
  /-- It is neither carried out nor refused for what is stored. -/
  ne_ok : ∀ request : Request σ, request.topic? ≠ none → ∀ answer,
    (session.step request).1 ≠ .ok answer
  ne_topic : ∀ request : Request σ, request.topic? ≠ none → ∀ error,
    (session.step request).1 ≠ .error (.topic error)

theorem answersAsOpen {session : Session σ} (h : ¬ session.router.isClosed = true) :
    AnswersAsOpen session where
  isClosed := by
    show Except.ok (Answer.closed session.router.isClosed) = .ok (.closed false)
    rw [Bool.eq_false_iff.2 h]
  ne_closed request := by
    obtain ⟨contents, hopen⟩ := Router.exists_contents_of_not_isClosed h
    exact answer_ne_closed hopen request

theorem answersAsClosed {settings : Settings} {session : Session σ}
    (hsettings : session.router.settings = settings) (h : session.router.isClosed = true) :
    AnswersAsClosed settings session := by
  have hrefused : ∀ request : Request σ, request.topic? ≠ none → (session.step request).1 =
      .error ((ArgumentCheck.firstError? settings request).getD .closed) := by
    intro request htopic
    rw [← hsettings]
    exact answer_of_closed htopic (Router.contents?_eq_none_of_isClosed h)
  refine ⟨?_, rfl, hrefused, fun request htopic => ?_, fun request htopic answer => ?_,
    fun request htopic error => ?_⟩
  · show Except.ok (Answer.closed session.router.isClosed) = .ok (.closed true)
    rw [h]
  · rw [hrefused request htopic, ← ArgumentCheck.firstError?_eq_none_iff]
    cases hfirst : ArgumentCheck.firstError? settings request with
    | none => exact iff_of_true rfl rfl
    | some e =>
        refine iff_of_false (fun hclosed => ?_) nofun
        exact (ArgumentCheck.ne_of_firstError? hfirst).1 (Except.error.inj hclosed)
  · rw [hrefused request htopic]
    nofun
  · rw [hrefused request htopic]
    intro hfound
    cases hfirst : ArgumentCheck.firstError? settings request with
    | none =>
        rw [hfirst] at hfound
        cases hfound
    | some e =>
        rw [hfirst] at hfound
        exact (ArgumentCheck.ne_of_firstError? hfirst).2 error (Except.error.inj hfound)

/-- **Closing is final.**  Until it is asked to close, a router answers as an
open one, and ever after as a closed one.  A request that fails a check gets the
same answer from every router with these settings, open or closed. -/
theorem closing_is_final (settings : Settings) (before : List (Request σ)) :
    (.close ∉ before → AnswersAsOpen ((start settings).run before).2) ∧
    (.close ∈ before → AnswersAsClosed settings ((start settings).run before).2) ∧
    ∀ (request : Request σ) e, ArgumentCheck.firstError? settings request = some e →
      ∀ session : Session σ, session.router.settings = settings →
        (session.step request).1 = .error e := by
  have hclosed := isClosed_run (start settings) before
  have hopen : ¬ (start settings : Session σ).router.isClosed = true := nofun
  rw [or_iff_right hopen] at hclosed
  refine ⟨fun hbefore => ?_, fun hbefore => ?_, fun request e hfirst session hsettings => ?_⟩
  · exact answersAsOpen fun h => hbefore (hclosed.1 h)
  · exact answersAsClosed (settings_run (start settings) before) (hclosed.2 hbefore)
  · rw [← hsettings] at hfirst
    exact answer_of_firstError? hfirst

/-- A request with three faults is refused for the first of them, before and
after closing. -/
theorem closing_is_final_of_faults :
    let settings : Settings := { maxTopicLength := 4, maxTopicLevels := 2 }
    let x : Handle := .text .owned "x"
    let before : List (Request Handle) := [.subscribe "a" 1 (some x), .retainedFor "#"]
    let after : List (Request Handle) := before ++ [.close, .subscribe "a" 1 (some x), .close]
    let faulty : Request Handle := .subscribe "a/b/c" 3 none
    .close ∉ before ∧ AnswersAsOpen ((start settings).run before).2 ∧
      .close ∈ after ∧ AnswersAsClosed settings ((start settings).run after).2 ∧
      ArgumentCheck.firstError? settings faulty = some (.invalidQos 3) ∧
      (((start settings).run before).2.step faulty).1 = .error (.invalidQos 3) ∧
      (((start settings).run after).2.step faulty).1 = .error (.invalidQos 3) := by
  intro settings x before after faulty
  have hbefore : .close ∉ before := by simp [before]
  have hafter : .close ∈ after := by simp [after]
  have hfirst : ArgumentCheck.firstError? settings faulty = some (.invalidQos 3) := by
    decide +kernel
  obtain ⟨hopen, _, hfaulty⟩ := closing_is_final settings before
  obtain ⟨_, hclosed, _⟩ := closing_is_final settings after
  have hsame := hfaulty faulty _ hfirst
  exact ⟨hbefore, hopen hbefore, hafter, hclosed hafter, hfirst,
    hsame _ (settings_run _ before), hsame _ (settings_run _ after)⟩

end Session

end TopicRouter
