import Mathlib.Data.List.DropRight
import TopicRouter.Proofs.Router.Carrying
import TopicRouter.Proofs.Router.Filing
import TopicRouter.Subscriber.Handle

/-!
# The first message stays

A router keeps at most one message under the levels of a topic, the first that
came, until a message without a payload clears the place.  What is kept there
can thus be read off the requests and their answers: it is the first message
that was retained there since the place was last cleared.

A message whose topic passes the checks is never refused for its topic.  Only
clearing can fail, namely when no stored message has a topic that is the one
to be cleared or goes on from it.

## Main results

* `Entry.Changes.slot` — what one request makes of each place.
* `Session.retaining_run` — what holds of the messages as long as the router
  is open.
* `Session.first_message_stays` — the places of an open router, and what a message
  to be retained makes of them.
-/

namespace TopicRouter

universe u

/-! ## Requests and their answers -/

/-- A request and its answer. -/
abbrev Entry (σ : Type u) := Request σ × Except RouterError (Answer σ)

namespace Entry

variable {σ : Type u}

/-- The message that was retained at the path. -/
def retained? (path : List Level) : Entry σ → Option Message
  | (.retain message, .ok _) =>
      if message.payload.isEmpty = false ∧ path = message.levels then some message else none
  | _ => none

/-- Was the path cleared? -/
def clears (path : List Level) : Entry σ → Bool
  | (.retain message, .ok _) => message.payload.isEmpty && path = message.levels
  | _ => false

/-- The first message that was retained at the path since it was last
cleared. -/
def firstRetained? (path : List Level) (log : List (Entry σ)) : Option Message :=
  (log.rtakeWhile fun entry => !entry.clears path).findSome? (retained? path)

theorem firstRetained?_append_singleton (path : List Level) (log : List (Entry σ))
    (entry : Entry σ) :
    firstRetained? path (log ++ [entry]) =
      if entry.clears path then none else (firstRetained? path log).or (entry.retained? path) := by
  rw [firstRetained?, List.rtakeWhile_concat]
  cases entry.clears path with
  | true => rfl
  | false =>
      rw [if_pos Bool.not_false, List.findSome?_append, List.findSome?_singleton]
      rfl

/-- The request has retained nothing and cleared nothing. -/
def IsQuiet (entry : Entry σ) : Prop :=
  ∀ path, entry.clears path = false ∧ entry.retained? path = none

theorem isQuiet_of_error (request : Request σ) (e : RouterError) :
    IsQuiet (request, .error e) := by
  intro path
  cases request <;> exact ⟨rfl, rfl⟩

theorem IsQuiet.slot {entry : Entry σ} (h : entry.IsQuiet) (tree : RetainedTree)
    (path : List Level) :
    tree.slot path =
      if entry.clears path then none else (tree.slot path).or (entry.retained? path) := by
  obtain ⟨hclears, hretained⟩ := h path
  rw [hclears, hretained, Option.or_none]
  rfl

/-- How the messages change when a request is answered. -/
inductive Changes (settings : Settings) : Entry σ → RetainedTree → RetainedTree → Prop where
  | quiet {entry : Entry σ} {tree : RetainedTree} : entry.IsQuiet → Changes settings entry tree tree
  | retain {message : Message} {tree : RetainedTree} :
      settings.checkRetained message.topic = .ok () →
      Changes settings
        (.retain message,
          ((tree.apply (.ofMessage message)).1.mapError .topic).map fun () => .done)
        tree (tree.apply (.ofMessage message)).2

variable {settings : Settings} {entry : Entry σ} {tree tree' : RetainedTree}

theorem Changes.tidy (h : Changes settings entry tree tree') (htidy : tree.Tidy) :
    tree'.Tidy := by
  cases h with
  | quiet _ => exact htidy
  | retain hcheck => exact htidy.apply (Settings.scan_of_checkRetained hcheck).1

/-- **What a request makes of each place.** -/
theorem Changes.slot (h : Changes settings entry tree tree') (path : List Level) :
    tree'.slot path =
      if entry.clears path then none else (tree.slot path).or (entry.retained? path) := by
  cases h with
  | quiet hquiet => exact hquiet.slot tree path
  | @retain message tree hcheck =>
      have hfault := (Settings.scan_of_checkRetained hcheck).1
      rcases RetainedTree.apply_ofMessage_cases hfault tree with ⟨hanswer, _⟩ | ⟨_, _, hrefused⟩
      · rw [RetainedTree.slot_apply_ofMessage hfault, hanswer]
        change _ = if (message.payload.isEmpty && path = message.levels) = true then none
          else (tree.slot path).or
            (if message.payload.isEmpty = false ∧ path = message.levels then some message else none)
        cases message.payload.isEmpty <;> by_cases hpath : path = message.levels <;>
          simp [hpath]
      · -- Nothing was there to clear, so nothing changes.
        rw [hrefused]
        exact (isQuiet_of_error _ _).slot tree path

end Entry

namespace Session

variable {σ : Type u} [Identity σ] {session : Session σ} {request : Request σ}

/-- The requests of a run, each with its answer. -/
def log (session : Session σ) (requests : List (Request σ)) : List (Entry σ) :=
  requests.zip (session.run requests).1

theorem run_append_singleton (session : Session σ) (requests : List (Request σ))
    (request : Request σ) :
    (session.run (requests ++ [request])).2 = ((session.run requests).2.step request).2 := by
  rw [run_append]
  rfl

theorem log_append_singleton (session : Session σ) (requests : List (Request σ))
    (request : Request σ) :
    session.log (requests ++ [request]) =
      session.log requests ++ [(request, ((session.run requests).2.step request).1)] := by
  rw [log, run_append, List.zip_append (length_run session requests).symm]
  rfl

/-! ## One request -/

/-- A request which leaves the messages alone, as far as the router stays
open. -/
private theorem changes_of_isQuiet {contents' : Contents σ}
    (hopen : (session.step request).2.router.contents? = some contents')
    (hquiet : Entry.IsQuiet (request, (session.step request).1))
    (hmap : (session.step request).2.router.contents?.map Contents.retained =
      session.router.contents?.map Contents.retained) :
    ∃ contents, session.router.contents? = some contents ∧
      Entry.Changes session.router.settings (request, (session.step request).1)
        contents.retained contents'.retained := by
  rw [hopen, Option.map_some, eq_comm, Option.map_eq_some_iff] at hmap
  obtain ⟨contents, hcontents, heq⟩ := hmap
  rw [← heq]
  exact ⟨contents, hcontents, .quiet hquiet⟩

/-- A request changes the messages of a router that stays open. -/
theorem changes_step {contents' : Contents σ}
    (hopen : (session.step request).2.router.contents? = some contents') :
    ∃ contents, session.router.contents? = some contents ∧
      Entry.Changes session.router.settings (request, (session.step request).1)
        contents.retained contents'.retained := by
  cases request with
  | retain message =>
      rw [step_retain] at hopen ⊢
      cases hcheck : session.router.settings.checkRetained message.topic with
      | error e =>
          rw [Router.retain_error hcheck] at hopen ⊢
          exact ⟨contents', hopen, .quiet (Entry.isQuiet_of_error _ e)⟩
      | ok _ =>
          rw [Router.retain_eq_carryOut, hcheck] at hopen ⊢
          cases hcontents : session.router.contents? with
          | none =>
              rw [Router.carryOut_of_closed hcontents, hcontents] at hopen
              cases hopen
          | some contents =>
              rw [Router.carryOut_of_open hcontents] at hopen ⊢
              cases hopen
              exact ⟨contents, rfl, .retain hcheck⟩
  | close => cases hopen
  | subscribe filter qos subscriber? =>
      refine changes_of_isQuiet hopen (fun _ => ⟨rfl, rfl⟩) ?_
      rw [step_subscribe, Router.subscribe_eq_carryOut]
      exact Router.map_retained_carryOut _ _ fun _ _ => rfl
  | unsubscribe filter subscriber? =>
      refine changes_of_isQuiet hopen (fun _ => ⟨rfl, rfl⟩) ?_
      rw [step_unsubscribe, Router.unsubscribe_eq_carryOut]
      exact Router.map_retained_carryOut _ _ fun _ _ => rfl
  | subscribers topic qos => exact changes_of_isQuiet hopen (fun _ => ⟨rfl, rfl⟩) rfl
  | subscribersFor topic qos => exact changes_of_isQuiet hopen (fun _ => ⟨rfl, rfl⟩) rfl
  | retained filter => exact changes_of_isQuiet hopen (fun _ => ⟨rfl, rfl⟩) rfl
  | retainedFor filter => exact changes_of_isQuiet hopen (fun _ => ⟨rfl, rfl⟩) rfl
  | isClosed => exact changes_of_isQuiet hopen (fun _ => ⟨rfl, rfl⟩) rfl

/-! ## Whole sessions -/

/-- What holds of the messages of an open router, given the requests so far and
their answers. -/
structure Retaining (log : List (Entry σ)) (tree : RetainedTree) : Prop where
  /-- Every message has a payload. -/
  payload : ∀ {path : List Level} {kept : Message},
    tree.slot path = some kept → kept.payload.isEmpty = false
  /-- Every message is under its own topic. -/
  scanned : ∀ {path : List Level} {kept : Message},
    tree.slot path = some kept → scan kept.topic = ⟨path, none⟩
  /-- Every node below the root has a message, or leads to one. -/
  occupied : ∀ {path : List Level} {found : Tree (Option Message)}, path ≠ [] →
    tree.at? path = some found → ∃ below kept, tree.slot (path ++ below) = some kept
  /-- Every place holds the first message since it was last cleared. -/
  first : ∀ path, tree.slot path = Entry.firstRetained? path log

/-- The messages of an open router, after any requests. -/
theorem tidy_and_first_run (settings : Settings) (requests : List (Request σ))
    {contents : Contents σ}
    (hopen : ((start settings).run requests).2.router.contents? = some contents) :
    contents.retained.Tidy ∧
      ∀ path, contents.retained.slot path =
        Entry.firstRetained? path ((start settings).log requests) := by
  -- Requests are taken off at the end, where the log goes on.
  induction requests using List.reverseRecOn generalizing contents with
  | nil =>
      cases hopen
      exact ⟨RetainedTree.tidy_empty, Tree.slot_empty⟩
  | append_singleton requests request ih =>
      rw [run_append_singleton] at hopen
      obtain ⟨before, hbefore, hchanges⟩ := changes_step hopen
      obtain ⟨htidy, hfirst⟩ := ih hbefore
      refine ⟨hchanges.tidy htidy, fun path => ?_⟩
      rw [log_append_singleton, Entry.firstRetained?_append_singleton, hchanges.slot, hfirst]

theorem retaining_run (settings : Settings) (requests : List (Request σ))
    {contents : Contents σ}
    (hopen : ((start settings).run requests).2.router.contents? = some contents) :
    Retaining ((start settings).log requests) contents.retained := by
  obtain ⟨htidy, hfirst⟩ := tidy_and_first_run settings requests hopen
  have hfiled := filed_run (filed_start settings) requests contents hopen
  refine ⟨htidy.payload, hfiled.scanned, fun {path found} hpath hfound => ?_, hfirst⟩
  have hnode : (contents.retained.at? path).isSome = true := by rw [hfound]; rfl
  obtain ⟨below, hbelow⟩ := (htidy.pruned.isSome_at?_iff hpath).1 hnode
  exact ⟨below, Option.ne_none_iff_exists'.1 hbelow⟩

/-- What a message to be retained makes of an open router. -/
structure Retains (session : Session σ) (contents : Contents σ) (message : Message) : Prop where
  not_malformed : ∀ rest fault,
    (session.step (.retain message)).1 ≠ .error (.topic (.malformed rest fault))
  /-- A message with a payload is kept where there is none. -/
  kept : message.payload.isEmpty = false → ∃ retained,
    session.step (.retain message) =
        (.ok .done, { session with router := session.router.store { contents with retained } }) ∧
      ∀ path, retained.slot path =
        if path = message.levels then (contents.retained.slot path).or (some message)
        else contents.retained.slot path
  /-- A message without a payload clears where some message is kept, there or
  further down. -/
  cleared : message.payload.isEmpty = true → contents.retained.HoldsWithin message.levels →
    ∃ retained,
      session.step (.retain message) =
          (.ok .done, { session with router := session.router.store { contents with retained } }) ∧
        ∀ path, retained.slot path =
          if path = message.levels then none else contents.retained.slot path
  /-- Elsewhere it is refused. -/
  refused : message.payload.isEmpty = true → ¬ contents.retained.HoldsWithin message.levels →
    session.step (.retain message) =
      (.error (.topic (.topicNotFound message.topic)), session)

theorem retains_of_tidy {session : Session σ} {contents : Contents σ}
    (hopen : session.router.contents? = some contents) (htidy : contents.retained.Tidy)
    (hscanned : ∀ {path kept}, contents.retained.slot path = some kept →
      scan kept.topic = ⟨path, none⟩)
    {message : Message} (hcheck : session.router.settings.checkRetained message.topic = .ok ()) :
    Retains session contents message := by
  obtain ⟨hfault, hlevels⟩ := Settings.scan_of_checkRetained hcheck
  rw [← Message.levels] at hlevels
  have hstep := step_retain session message
  rw [Router.retain_of_checked hcheck hopen, Contents.retain] at hstep
  have hslot := RetainedTree.slot_apply_ofMessage hfault contents.retained
  have hnode := RetainedTree.isSome_at?_iff_holdsWithin htidy hscanned hlevels
  rcases RetainedTree.apply_ofMessage_cases hfault contents.retained with
    ⟨hanswer, hpresent⟩ | ⟨hempty, hmissing, hrefused⟩
  · rw [hanswer] at hstep
    refine ⟨fun rest fault h => ?_, fun hfull => ?_, fun hempty _ => ?_, fun hempty hnone => ?_⟩
    · rw [hstep] at h
      cases h
    · simp only [hfull] at hslot
      exact ⟨_, hstep, hslot⟩
    · simp only [hempty] at hslot
      exact ⟨_, hstep, hslot⟩
    · exact absurd (hnode.1 (hpresent hempty)) hnone
  · have hsession : session.step (.retain message) =
        (.error (.topic (.topicNotFound message.topic)), session) := by
      rw [hstep, hrefused, Router.store_of_open hopen]
      rfl
    refine ⟨fun rest fault h => ?_, fun hfull => ?_, fun _ hholds => ?_, fun _ _ => hsession⟩
    · rw [hsession] at h
      cases h
    · rw [hempty] at hfull
      cases hfull
    · have hsome := hnode.2 hholds
      rw [hmissing] at hsome
      cases hsome

/-- **The first message stays.**  As long as a router is open, each of its
messages has a payload and is under its own topic, no node is there for
nothing, and each place holds the first message that was retained there since
it was last cleared.  A message whose topic passes the checks and has no
wildcard is kept at its place, if that is free.  If it has no payload it
clears its place, provided that some message is kept there or further down. -/
theorem first_message_stays (settings : Settings) (requests : List (Request σ))
    {contents : Contents σ}
    (hopen : ((start settings).run requests).2.router.contents? = some contents) :
    Retaining ((start settings).log requests) contents.retained ∧
      ∀ message : Message, settings.checkTopic message.topic = .ok () →
        '+' ∉ message.topic.toList → '#' ∉ message.topic.toList →
        Retains ((start settings).run requests).2 contents message := by
  have hretaining := retaining_run settings requests hopen
  refine ⟨hretaining, fun message hcheck hsingle hmulti => ?_⟩
  have hsettings : ((start settings).run requests).2.router.settings = settings :=
    settings_run _ _
  refine retains_of_tidy hopen (tidy_and_first_run settings requests hopen).1 hretaining.scanned ?_
  rw [hsettings]
  exact Settings.checkRetained_of_plain hcheck hsingle hmulti

/-- A topic above the only message, after requests of which two were refused. -/
theorem first_message_stays_below :
    let first := Message.retained "a/b/c" .atMostOnce ⟨#[1]⟩
    let second := Message.retained "a/b/c" .atMostOnce ⟨#[2]⟩
    let requests : List (Request Handle) :=
      [.retain first, .retain (.retained "a" .atMostOnce ⟨#[]⟩),
        .subscribe "a/b#" 0 (some (.text .owned "x")), .retain second,
        .retain (.retained "a/c" .atMostOnce ⟨#[]⟩)]
    let contents : Contents Handle :=
      { subscriptions := .node [] [(.literal "a", .node [] [])]
        retained := .node none
          [(.literal "a", .node none
            [(.literal "b", .node none [(.literal "c", .node (some first) [])])])] }
    let message := Message.retained "a/b" .atMostOnce ⟨#[]⟩
    ((start {}).run requests).2.router.contents? = some contents ∧
      Settings.checkTopic {} message.topic = .ok () ∧
      '+' ∉ message.topic.toList ∧ '#' ∉ message.topic.toList ∧
      contents.retained.HoldsWithin message.levels ∧
      Retaining ((start {}).log requests) contents.retained ∧
      Retains ((start {}).run requests).2 contents message := by
  intro first second requests contents message
  have hopen : ((start {}).run requests).2.router.contents? = some contents := by decide +kernel
  have hcheck : Settings.checkTopic {} message.topic = .ok () := by decide +kernel
  have hsingle : '+' ∉ message.topic.toList := by decide +kernel
  have hmulti : '#' ∉ message.topic.toList := by decide +kernel
  have hholds : contents.retained.HoldsWithin message.levels := by
    refine ⟨[.literal "a", .literal "b", .literal "c"], first, rfl, ?_⟩
    decide +kernel
  have hstays := first_message_stays {} requests hopen
  exact ⟨hopen, hcheck, hsingle, hmulti, hholds, hstays.1,
    hstays.2 message hcheck hsingle hmulti⟩

end Session

end TopicRouter
