import TopicRouter.Proofs.Retained.Keeping
import TopicRouter.Router.Contents
import TopicRouter.Subscription.History

/-!
# Requests that are carried out

Each request that changes a router is first checked, then refused if the
router is closed, and only then carried out.  `carryOut` is this order, with
the check and the change left open.

A request that is carried out is a change to one of the two trees.  The answer
is that of the tree, and the other tree stays as it was.

Searches go through the same stages.  `search` is their order, with what to look
for left open; the buffers hold nothing unless it gets to the last of them.

## Main results

* `Router.subscribe_eq_carryOut`, `Router.unsubscribe_eq_carryOut`,
  `Router.retain_eq_carryOut` — the requests that change a router.
* `Router.subscribers_eq_search`, `Router.retained_eq_search` — the requests that
  search it.
* `Settings.scan_of_checkRetained` — topics that messages are retained under
  have no fault.
* `Router.retain_of_checked` — what becomes of a message that passes the
  checks.
* `Router.map_retained_carryOut` — the messages stay as they were.
-/

namespace TopicRouter

universe u v w

/-! ## Topics that pass the checks -/

namespace Settings

variable {settings : Settings} {topic : String}

theorem checkTopic_of_checkRetained (h : settings.checkRetained topic = .ok ()) :
    settings.checkTopic topic = .ok () := by
  unfold checkRetained at h
  split at h
  · cases h
  · cases h
  · assumption

theorem checkTopic_of_checkSubscription {σ : Type u} {qos : UInt8}
    {subscriber? : Option σ} {passed : QoS × σ}
    (h : settings.checkSubscription topic qos subscriber? = .ok passed) :
    settings.checkTopic topic = .ok () := by
  unfold checkSubscription at h
  split at h
  · cases h
  · cases h
  · cases h
  · assumption

theorem checkRetained_of_plain
    (hcheck : settings.checkTopic topic = .ok ()) (hsingle : '+' ∉ topic.toList)
    (hmulti : '#' ∉ topic.toList) : settings.checkRetained topic = .ok () := by
  have hplain : hasWildcards topic = false :=
    Bool.eq_false_iff.2 fun hwildcards => (hasWildcards_iff.1 hwildcards).elim hsingle hmulti
  rw [checkRetained, hcheck, hplain]

/-- A topic that a message may be retained under has levels and no fault. -/
theorem scan_of_checkRetained
    (hcheck : settings.checkRetained topic = .ok ()) :
    (scan topic).fault? = none ∧ (scan topic).levels ≠ [] := by
  unfold checkRetained at hcheck
  split at hcheck
  · cases hcheck
  · cases hcheck
  rename_i htopic hplain
  have hne : topic.toList ≠ [] := by
    intro hnil
    rw [String.toList_eq_nil_iff] at hnil
    rw [checkTopic, if_pos hnil] at htopic
    cases htopic
  have hfault : (scan topic).fault? = none := by
    rw [Bool.eq_false_iff, Ne, hasWildcards_iff, not_or] at hplain
    exact Scan.fault?_of_plain hplain.1 hplain.2
  exact ⟨hfault, Scan.levels_ne_nil hne hfault⟩

end Settings

/-! ## Changes of the contents -/

variable {σ : Type u}

namespace Contents

/-- The contents after a change to the subscriptions. -/
def amend [Identity σ] (contents : Contents σ) (change : SubscriptionChange σ) :
    Except RouterError Unit × Contents σ :=
  ((contents.subscriptions.apply change).1.mapError .topic,
    { contents with subscriptions := (contents.subscriptions.apply change).2 })

/-- The contents after a message was retained, or its place cleared. -/
def retain (contents : Contents σ) (message : Message) : Except RouterError Unit × Contents σ :=
  ((contents.retained.apply (.ofMessage message)).1.mapError .topic,
    { contents with retained := (contents.retained.apply (.ofMessage message)).2 })

end Contents

namespace Router

variable {router : Router σ} {contents : Contents σ}

/-! ## The order of checks and changes -/

section CarryOut

variable {α : Type v} {β : Type w}

/-- Changes the contents if the check is passed and the router is open. -/
def carryOut (router : Router σ) (check : Except RouterError α)
    (change : α → Contents σ → Except RouterError β × Contents σ) :
    Except RouterError β × Router σ :=
  match check, router.contents? with
  | .error e, _ => (.error e, router)
  | .ok _, none => (.error .closed, router)
  | .ok passed, some contents =>
      ((change passed contents).1, router.store (change passed contents).2)

variable {change : α → Contents σ → Except RouterError β × Contents σ}

theorem carryOut_of_closed (hclosed : router.contents? = none) (passed : α) :
    router.carryOut (.ok passed) change = (.error .closed, router) := by
  simp only [carryOut, hclosed]

theorem carryOut_of_open (hopen : router.contents? = some contents) (passed : α) :
    router.carryOut (.ok passed) change =
      ((change passed contents).1, router.store (change passed contents).2) := by
  simp only [carryOut, hopen]

/-- A change that leaves the messages alone. -/
theorem map_retained_carryOut (router : Router σ) (check : Except RouterError α)
    (hchange : ∀ passed contents, (change passed contents).2.retained = contents.retained) :
    (router.carryOut check change).2.contents?.map Contents.retained =
      router.contents?.map Contents.retained := by
  cases check with
  | error e => rfl
  | ok passed =>
      cases hopen : router.contents? with
      | none => rw [carryOut_of_closed hopen, hopen]
      | some contents =>
          rw [carryOut_of_open hopen]
          exact congrArg some (hchange passed contents)

end CarryOut

section Search

variable {β : Type v}

/-- Looks for something in the contents if the check is passed and the router is
open. -/
def search (router : Router σ) (check : Except RouterError Unit)
    (find : Contents σ → Except TopicError Unit × β) (nothing : β) :
    Except RouterError Unit × β :=
  match check, router.contents? with
  | .error e, _ => (.error e, nothing)
  | .ok _, none => (.error .closed, nothing)
  | .ok _, some contents => ((find contents).1.mapError .topic, (find contents).2)

variable {find : Contents σ → Except TopicError Unit × β} {nothing : β}

theorem search_of_closed (hclosed : router.contents? = none) :
    router.search (.ok ()) find nothing = (.error .closed, nothing) := by
  simp only [search, hclosed]

theorem search_of_open (hopen : router.contents? = some contents) :
    router.search (.ok ()) find nothing =
      ((find contents).1.mapError .topic, (find contents).2) := by
  simp only [search, hopen]

end Search

/-! ## The requests -/

theorem subscribe_eq_carryOut [Identity σ] (router : Router σ) (filter : String) (qos : UInt8)
    (subscriber? : Option σ) :
    router.subscribe filter qos subscriber? =
      router.carryOut (router.settings.checkSubscription filter qos subscriber?)
        fun passed contents =>
          ((contents.amend (.subscribe filter passed.1 passed.2)).1.map fun _ => passed.1,
            (contents.amend (.subscribe filter passed.1 passed.2)).2) := by
  unfold subscribe carryOut
  cases router.settings.checkSubscription filter qos subscriber? with
  | error e => rfl
  | ok passed =>
      rw [router.subscriptions?_eq]
      cases hopen : router.contents? with
      | none => rfl
      | some contents =>
          simp only [Option.map_some, storeSubscriptions_of_open hopen]
          rfl

theorem unsubscribe_eq_carryOut [Identity σ] (router : Router σ) (filter : String)
    (subscriber? : Option σ) :
    router.unsubscribe filter subscriber? =
      router.carryOut (router.settings.checkTopic filter)
        fun _ contents => contents.amend (.unsubscribe filter subscriber?) := by
  unfold unsubscribe carryOut
  cases router.settings.checkTopic filter with
  | error e => rfl
  | ok _ =>
      rw [router.subscriptions?_eq]
      cases hopen : router.contents? with
      | none => rfl
      | some contents =>
          simp only [Option.map_some, Contents.amend, SubscriptionTree.apply,
            storeSubscriptions_of_open hopen]
          cases contents.subscriptions.unsubscribe filter subscriber? with
          | ok subscriptions => rfl
          | error e => exact congrArg _ (store_of_open hopen).symm

theorem retain_eq_carryOut (router : Router σ) (message : Message) :
    router.retain message =
      router.carryOut (router.settings.checkRetained message.topic)
        fun _ contents => contents.retain message := by
  unfold retain carryOut
  cases router.settings.checkRetained message.topic with
  | error e => rfl
  | ok _ =>
      rw [router.retained?_eq]
      cases hopen : router.contents? with
      | none => rfl
      | some contents =>
          simp only [Option.map_some, Contents.retain, RetainedChange.ofMessage,
            storeRetained_of_open hopen]
          cases message.payload.isEmpty with
          | false => rfl
          | true =>
              simp only [if_true, RetainedTree.apply]
              cases contents.retained.clear message.topic with
              | ok retained => rfl
              | error e => exact congrArg _ (store_of_open hopen).symm

theorem retain_of_checked {message : Message}
    (hcheck : router.settings.checkRetained message.topic = .ok ())
    (hopen : router.contents? = some contents) :
    router.retain message =
      ((contents.retain message).1, router.store (contents.retain message).2) := by
  rw [retain_eq_carryOut, hcheck, carryOut_of_open hopen]

/-- A search for subscribers without a quality of service is refused before the
buffers are touched. -/
theorem subscribers_of_error (router : Router σ) (topic : String) {qos : UInt8}
    {e : RouterError} (hqos : QoS.ofByte qos = .error e) (fanout : Fanout σ) :
    router.subscribers topic qos fanout = (.error e, fanout) := by
  rw [subscribers, hqos]

/-- With one, it forgets what was in them. -/
theorem subscribers_eq_search (router : Router σ) (topic : String) {qos : UInt8}
    {quality : QoS} (hqos : QoS.ofByte qos = .ok quality) (fanout : Fanout σ) :
    router.subscribers topic qos fanout =
      router.search (router.settings.checkTopic topic)
        (fun contents => contents.subscriptions.collect topic quality {}) {} := by
  simp only [subscribers, hqos, router.subscriptions?_eq]
  unfold search
  cases router.settings.checkTopic topic with
  | error e => rfl
  | ok _ => cases router.contents? <;> rfl

/-- A search for messages forgets what was in the buffer. -/
theorem retained_eq_search (router : Router σ) (filter : String) (messages : List Message) :
    router.retained filter messages =
      router.search (router.settings.checkTopic filter)
        (fun contents => contents.retained.collect filter []) [] := by
  simp only [retained, router.retained?_eq]
  unfold search
  cases router.settings.checkTopic filter with
  | error e => rfl
  | ok _ => cases router.contents? <;> rfl

theorem subscribersFor_eq_map (router : Router σ) (topic : String) (qos : UInt8) :
    router.subscribersFor topic qos = (router.subscribers topic qos {}).1.map fun _ =>
      (router.subscribers topic qos {}).2.subscribers.zip
        (router.subscribers topic qos {}).2.qos := by
  unfold subscribersFor
  rcases router.subscribers topic qos {} with ⟨_ | _, found⟩ <;> rfl

theorem retainedFor_eq_map (router : Router σ) (filter : String) :
    router.retainedFor filter = (router.retained filter []).1.map fun _ =>
      (router.retained filter []).2 := by
  unfold retainedFor
  rcases router.retained filter [] with ⟨_ | _, found⟩ <;> rfl

end Router

namespace Session

variable [Identity σ]

theorem step_subscribe (session : Session σ) (filter : String) (qos : UInt8)
    (subscriber? : Option σ) :
    session.step (.subscribe filter qos subscriber?) =
      ((session.router.subscribe filter qos subscriber?).1.map .granted,
        { session with router := (session.router.subscribe filter qos subscriber?).2 }) := rfl

theorem step_unsubscribe (session : Session σ) (filter : String) (subscriber? : Option σ) :
    session.step (.unsubscribe filter subscriber?) =
      ((session.router.unsubscribe filter subscriber?).1.map fun () => .done,
        { session with router := (session.router.unsubscribe filter subscriber?).2 }) := rfl

theorem step_retain (session : Session σ) (message : Message) :
    session.step (.retain message) =
      ((session.router.retain message).1.map fun () => .done,
        { session with router := (session.router.retain message).2 }) := rfl

theorem length_run (session : Session σ) (requests : List (Request σ)) :
    (session.run requests).1.length = requests.length := by
  induction requests generalizing session with
  | nil => rfl
  | cons request rest ih => exact congrArg Nat.succ (ih _)

end Session

end TopicRouter
