import TopicRouter.Proofs.Subscription.Pruning

/-!
# One entry per subscriber

A subscriber that is known under a filter keeps its entry, and a new one is
added only when no entry recognizes it.  So of two entries of one filter the
first never recognizes the second.  It is the stored side that is asked, so
without symmetry nothing can be said about the other direction.

Where identity is symmetric and transitive, each subscriber has at most one
entry, and the calls that touched it tell what is known of it: it is there if
the last of them was a grant, its quality of service is that of this grant, and
it has its place and its handle from the first grant since it was last taken
away.

## Main results

* `Subscription.distinct_step` — every change keeps the entries distinct.
* `Register.step` — a register of the entries, with the call that each of them
  goes back to, is kept up by every change.
* `SubscriptionTree.one_entry_per_subscriber` — the entries of every filter
  after any history.
-/

namespace TopicRouter

universe u

/-- Among the subscribers in use, identity is symmetric and transitive. -/
structure Identity.CoherentOn {σ : Type u} [Identity σ] (used : σ → Prop) : Prop where
  symm : ∀ {first second : σ}, used first → used second →
    identical first second = true → identical second first = true
  trans : ∀ {first second third : σ}, used first → used second → used third →
    identical first second = true → identical second third = true →
    identical first third = true

namespace Identity.CoherentOn

variable {σ : Type u} [Identity σ] {used : σ → Prop} {first second third : σ}

/-- Two subscribers that recognize a third one recognize each other. -/
theorem of_common (h : CoherentOn used) (hfirst : used first) (hsecond : used second)
    (hthird : used third) (hidentical : identical first third = true)
    (hidentical' : identical second third = true) : identical first second = true :=
  h.trans hfirst hthird hsecond hidentical (h.symm hsecond hthird hidentical')

/-- Two subscribers that a third one recognizes recognize each other. -/
theorem of_recognized (h : CoherentOn used) (hfirst : used first) (hsecond : used second)
    (hthird : used third) (hidentical : identical first second = true)
    (hidentical' : identical first third = true) : identical second third = true :=
  h.trans hsecond hfirst hthird (h.symm hfirst hsecond hidentical) hidentical'

end Identity.CoherentOn

namespace SubscriptionChange

variable {σ : Type u}

/-- Does the change grant a subscription? -/
def isGrant : SubscriptionChange σ → Bool
  | subscribe _ _ _ => true
  | unsubscribe _ _ => false

/-- The subscriber that the change is about, unless it is about all of them. -/
def subscriber? : SubscriptionChange σ → Option σ
  | subscribe _ _ subscriber => some subscriber
  | unsubscribe _ subscriber? => subscriber?

end SubscriptionChange

variable {σ : Type u} [Identity σ]

/-! ## Distinct entries -/

namespace Subscription

/-- No entry recognizes the subscriber of a later one. -/
def Distinct (entries : List (Subscription σ)) : Prop :=
  (entries.map Subscription.subscriber).Pairwise fun first second =>
    Identity.identical first second = false

theorem Distinct.renew {before after : List (Subscription σ)} {entry : Subscription σ}
    (h : Distinct (before ++ entry :: after)) (qos : QoS) :
    Distinct (before ++ ⟨entry.subscriber, qos⟩ :: after) := by
  rw [Distinct, List.map_append, List.map_cons] at h ⊢
  exact h

theorem Distinct.add {entries : List (Subscription σ)} (h : Distinct entries) {subscriber : σ}
    (hnone : ∀ entry ∈ entries, Identity.identical entry.subscriber subscriber = false)
    (qos : QoS) : Distinct (entries ++ [⟨subscriber, qos⟩]) := by
  rw [Distinct, List.map_append]
  refine List.pairwise_append.2 ⟨h, List.pairwise_singleton _ _, fun first hfirst last hlast => ?_⟩
  obtain ⟨entry, hentry, rfl⟩ := List.mem_map.1 hfirst
  rw [List.mem_singleton.1 hlast]
  exact hnone entry hentry

theorem Distinct.revoke {before after : List (Subscription σ)} {entry : Subscription σ}
    (h : Distinct (before ++ entry :: after)) : Distinct (before ++ after) :=
  h.sublist (((List.sublist_cons_self entry after).append_left before).map _)

/-- Where one of distinct entries recognizes a subscriber, no other does. -/
theorem Distinct.others {used : σ → Prop} (hcoherent : Identity.CoherentOn used)
    {before after : List (Subscription σ)} {entry : Subscription σ}
    (h : Distinct (before ++ entry :: after))
    (hused : ∀ other ∈ before ++ entry :: after, used other.subscriber) {subscriber : σ}
    (hsubscriber : used subscriber)
    (hentry : Identity.identical entry.subscriber subscriber = true) :
    ∀ other ∈ before ++ after, Identity.identical other.subscriber subscriber = false := by
  rw [Distinct, List.map_append, List.map_cons, List.pairwise_append, List.pairwise_cons] at h
  obtain ⟨_, ⟨hafter, _⟩, hbefore⟩ := h
  have hentryUsed : used entry.subscriber :=
    hused entry (List.mem_append_right _ List.mem_cons_self)
  intro other hother
  refine Bool.eq_false_iff.2 fun hidentical => ?_
  rcases List.mem_append.1 hother with hother | hother
  · have hotherUsed := hused other (List.mem_append_left _ hother)
    have hfalse := hbefore _ (List.mem_map_of_mem hother) _ List.mem_cons_self
    rw [hcoherent.of_common hotherUsed hentryUsed hsubscriber hidentical hentry] at hfalse
    cases hfalse
  · have hotherUsed := hused other (List.mem_append_right _ (List.mem_cons_of_mem _ hother))
    have hfalse := hafter _ (List.mem_map_of_mem hother)
    rw [hcoherent.of_common hentryUsed hotherUsed hsubscriber hentry hidentical] at hfalse
    cases hfalse

/-- Of distinct entries, at most one recognizes a subscriber. -/
theorem Distinct.countP_isFor_le_one {used : σ → Prop} (hcoherent : Identity.CoherentOn used)
    {entries : List (Subscription σ)} (h : Distinct entries)
    (hused : ∀ entry ∈ entries, used entry.subscriber) {subscriber : σ}
    (hsubscriber : used subscriber) : entries.countP (isFor subscriber) ≤ 1 := by
  rcases forall_or_isFirst subscriber entries with hnone | ⟨before, entry, after, hfirst⟩
  · have hzero : entries.countP (isFor subscriber) = 0 :=
      List.countP_eq_zero.2 fun entry hentry => Bool.eq_false_iff.1 (hnone entry hentry)
    rw [hzero]
    exact Nat.zero_le 1
  · rw [hfirst.split] at h hused ⊢
    have hothers := h.others hcoherent hused hsubscriber hfirst.recognizes
    have hbefore : before.countP (isFor subscriber) = 0 := List.countP_eq_zero.2
      fun other hother => Bool.eq_false_iff.1 (hothers other (List.mem_append_left _ hother))
    have hafter : after.countP (isFor subscriber) = 0 := List.countP_eq_zero.2
      fun other hother => Bool.eq_false_iff.1 (hothers other (List.mem_append_right _ hother))
    have hentry : isFor subscriber entry = true := hfirst.recognizes
    have hone : (before ++ entry :: after).countP (isFor subscriber) = 1 := by
      rw [List.countP_append, List.countP_cons_of_pos hentry, hbefore, hafter]
    exact Nat.le_of_eq hone

/-- **Every change keeps the entries distinct**, whatever identity is. -/
theorem distinct_step {hasNode : List Level → Prop} {store store' : Store σ}
    {change : SubscriptionChange σ} {answer : Except TopicError Unit}
    (hstep : Store.Step hasNode store change answer store')
    (h : ∀ levels, Distinct (store levels)) (levels : List Level) : Distinct (store' levels) := by
  have hput : ∀ {filter entries}, Distinct entries →
      Distinct (store.put filter entries levels) := by
    intro filter entries hentries
    unfold Store.put
    split
    · exact hentries
    · exact h levels
  cases hstep with
  | renew _ hfirst => exact hput ((hfirst.split ▸ h _).renew _)
  | add _ hnone => exact hput ((h _).add hnone _)
  | revoke _ hfirst => exact hput (hfirst.split ▸ h _).revoke
  | clear => exact hput .nil
  | refuse | unknown | nothing | meet | miss => exact h levels

end Subscription

/-! ## Calls that touch an entry -/

/-- Was the call accepted, and was it about the entry of the subscriber under the
filter?  Clearing the filter is about every entry. -/
def touches (subscriber : σ) (levels : List Level)
    (call : SubscriptionChange σ × Except TopicError Unit) : Bool :=
  match call.2 with
  | .error _ => false
  | .ok () =>
      scan call.1.filter = ⟨levels, none⟩ &&
        call.1.subscriber?.all (Identity.identical · subscriber)

/-- The last call that touched the entry of a subscriber. -/
def lastTouch? (subscriber : σ) (levels : List Level)
    (log : List (SubscriptionChange σ × Except TopicError Unit)) :
    Option (SubscriptionChange σ × Except TopicError Unit) :=
  (log.filter (touches subscriber levels)).getLast?

/-- Call number `n` has given an entry to `holder`, and this was the first grant
to the subscriber since its entry was last taken away: a grant was not the last
to touch it before, and only grants have touched it since. -/
def HeldSince (subscriber : σ) (levels : List Level)
    (log : List (SubscriptionChange σ × Except TopicError Unit)) (n : Nat) (holder : σ) : Prop :=
  ∃ before after filter qos,
    log = before ++ (.subscribe filter qos holder, .ok ()) :: after ∧
    before.length = n ∧
    scan filter = ⟨levels, none⟩ ∧
    (∀ call ∈ lastTouch? subscriber levels before, call.1.isGrant = false) ∧
    ∀ call ∈ after, touches subscriber levels call = true → call.1.isGrant = true

section Calls

variable {subscriber caller holder : σ} {levels levels' : List Level} {filter : String} {qos : QoS}
  {log : List (SubscriptionChange σ × Except TopicError Unit)}
  {call : SubscriptionChange σ × Except TopicError Unit} {n : Nat}

theorem touches_subscribe (hscan : scan filter = ⟨levels, none⟩) :
    touches subscriber levels (.subscribe filter qos caller, .ok ()) =
      Identity.identical caller subscriber := by
  simp [touches, SubscriptionChange.filter, SubscriptionChange.subscriber?, hscan]

theorem touches_unsubscribe (hscan : scan filter = ⟨levels, none⟩) :
    touches subscriber levels (.unsubscribe filter (some caller), .ok ()) =
      Identity.identical caller subscriber := by
  simp [touches, SubscriptionChange.filter, SubscriptionChange.subscriber?, hscan]

theorem touches_clear (hscan : scan filter = ⟨levels, none⟩) :
    touches subscriber levels (.unsubscribe filter none, .ok ()) = true := by
  simp [touches, SubscriptionChange.filter, SubscriptionChange.subscriber?, hscan]

/-- Calls about other filters touch no entry of this one. -/
theorem touches_of_ne {change : SubscriptionChange σ} (hscan : scan change.filter = ⟨levels', none⟩)
    (hne : levels ≠ levels') (answer : Except TopicError Unit) :
    touches subscriber levels (change, answer) = false := by
  cases answer with
  | error e => rfl
  | ok done => simp [touches, hscan, Ne.symm hne]

theorem lastTouch?_append_singleton (subscriber : σ) (levels : List Level)
    (log : List (SubscriptionChange σ × Except TopicError Unit))
    (call : SubscriptionChange σ × Except TopicError Unit) :
    lastTouch? subscriber levels (log ++ [call]) =
      if touches subscriber levels call then some call else lastTouch? subscriber levels log := by
  cases htouches : touches subscriber levels call with
  | true => simp [lastTouch?, htouches]
  | false => simp [lastTouch?, htouches]

theorem HeldSince.append (h : HeldSince subscriber levels log n holder)
    (hcall : touches subscriber levels call = true → call.1.isGrant = true) :
    HeldSince subscriber levels (log ++ [call]) n holder := by
  obtain ⟨before, after, filter, qos, hlog, hlength, hscan, hbefore, hafter⟩ := h
  refine ⟨before, after ++ [call], filter, qos, ?_, hlength, hscan, hbefore, ?_⟩
  · rw [hlog, List.append_assoc, List.cons_append]
  · intro other hother
    rcases List.mem_append.1 hother with hother | hother
    · exact hafter other hother
    · rw [List.mem_singleton.1 hother]
      exact hcall

theorem HeldSince.of_grant (hscan : scan filter = ⟨levels, none⟩)
    (hlog : ∀ call ∈ lastTouch? subscriber levels log, call.1.isGrant = false) :
    HeldSince subscriber levels (log ++ [(.subscribe filter qos holder, .ok ())]) log.length
      holder :=
  ⟨log, [], filter, qos, rfl, rfl, hscan, hlog, fun _ hcall => absurd hcall List.not_mem_nil⟩

theorem HeldSince.lt_length (h : HeldSince subscriber levels log n holder) : n < log.length := by
  obtain ⟨before, after, filter, qos, rfl, rfl, _⟩ := h
  simp

end Calls

/-! ## A register of the entries -/

section Registers

variable {used : σ → Prop} {levels : List Level}
  {log : List (SubscriptionChange σ × Except TopicError Unit)}
  {call : SubscriptionChange σ × Except TopicError Unit} {item : Nat × Subscription σ}

/-- What the calls so far say about an entry, given the number of the call that
it goes back to.  They are read for every subscriber that the entry recognizes,
and for the stored one, which it may not recognize. -/
structure Tenure (used : σ → Prop) (levels : List Level)
    (log : List (SubscriptionChange σ × Except TopicError Unit)) (item : Nat × Subscription σ) :
    Prop where
  known : used item.2.subscriber
  held : ∀ subscriber, used subscriber →
    (item.2.subscriber = subscriber ∨ Identity.identical item.2.subscriber subscriber = true) →
    HeldSince subscriber levels log item.1 item.2.subscriber
  latest : ∀ subscriber, used subscriber →
    Identity.identical item.2.subscriber subscriber = true →
    ∃ filter caller, lastTouch? subscriber levels log =
      some (.subscribe filter item.2.granted caller, .ok ())

/-- A register of all entries of a filter, in the order of the calls that they go
back to. -/
structure Register (used : σ → Prop) (levels : List Level)
    (log : List (SubscriptionChange σ × Except TopicError Unit))
    (entries : List (Subscription σ)) (dated : List (Nat × Subscription σ)) : Prop where
  entries_eq : dated.map Prod.snd = entries
  increasing : (dated.map Prod.fst).Pairwise (· < ·)
  tenure : ∀ item ∈ dated, Tenure used levels log item
  /-- The last to touch a subscriber without an entry was no grant. -/
  absent : ∀ subscriber, used subscriber →
    (∀ item ∈ dated, Identity.identical item.2.subscriber subscriber = false) →
    ∀ call ∈ lastTouch? subscriber levels log, call.1.isGrant = false

namespace Tenure

theorem lt_length (h : Tenure used levels log item) : item.1 < log.length :=
  (h.held _ h.known (.inl rfl)).lt_length

/-- A call that is not about the entry does not change what is said about it. -/
theorem untouched (h : Tenure used levels log item)
    (hcall : ∀ subscriber, used subscriber →
      (item.2.subscriber = subscriber ∨ Identity.identical item.2.subscriber subscriber = true) →
      touches subscriber levels call = false) :
    Tenure used levels (log ++ [call]) item where
  known := h.known
  held subscriber hused hsame := (h.held subscriber hused hsame).append fun htouches => by
    rw [hcall subscriber hused hsame] at htouches
    cases htouches
  latest subscriber hused hidentical := by
    rw [lastTouch?_append_singleton, hcall subscriber hused (.inr hidentical)]
    exact h.latest subscriber hused hidentical

end Tenure

theorem Register.known {entries : List (Subscription σ)} {dated : List (Nat × Subscription σ)}
    (h : Register used levels log entries dated) : ∀ entry ∈ entries, used entry.subscriber := by
  rw [← h.entries_eq]
  intro entry hentry
  obtain ⟨item, hitem, rfl⟩ := List.mem_map.1 hentry
  exact (h.tenure item hitem).known

/-- A call that touches no entry of the filter. -/
theorem Register.quiet {entries : List (Subscription σ)} {dated : List (Nat × Subscription σ)}
    (h : Register used levels log entries dated)
    (hcall : ∀ subscriber, touches subscriber levels call = false) :
    Register used levels (log ++ [call]) entries dated where
  entries_eq := h.entries_eq
  increasing := h.increasing
  tenure item hitem := (h.tenure item hitem).untouched fun subscriber _ _ => hcall subscriber
  absent subscriber hused hnone := by
    rw [lastTouch?_append_singleton, hcall subscriber]
    exact h.absent subscriber hused hnone

variable {filter : String} {qos : QoS} {caller : σ}

/-- All entries are taken away. -/
theorem Register.clear (hscan : scan filter = ⟨levels, none⟩) :
    Register used levels (log ++ [(.unsubscribe filter none, .ok ())]) [] [] where
  entries_eq := rfl
  increasing := .nil
  tenure item hitem := absurd hitem List.not_mem_nil
  absent subscriber _ _ last hlast := by
    rw [lastTouch?_append_singleton, touches_clear hscan] at hlast
    cases hlast
    rfl

/-- What is said about an entry that is given to a caller now. -/
theorem Tenure.grant (hscan : scan filter = ⟨levels, none⟩) (hcaller : used caller)
    (hlast : ∀ subscriber, used subscriber →
      (caller = subscriber ∨ Identity.identical caller subscriber = true) →
      ∀ call ∈ lastTouch? subscriber levels log, call.1.isGrant = false) :
    Tenure used levels (log ++ [(.subscribe filter qos caller, .ok ())])
      (log.length, ⟨caller, qos⟩) where
  known := hcaller
  held subscriber hused hsame := .of_grant hscan (hlast subscriber hused hsame)
  latest subscriber _ hidentical := by
    rw [lastTouch?_append_singleton, touches_subscribe hscan, if_pos hidentical]
    exact ⟨filter, caller, rfl⟩

variable (hcoherent : Identity.CoherentOn used) {entries before after : List (Subscription σ)}
  {entry : Subscription σ} {dated : List (Nat × Subscription σ)}

include hcoherent

/-- A call does not change what is said about an entry that does not recognize
the caller. -/
theorem Tenure.unrecognized (h : Tenure used levels log item) (hcaller : used caller)
    (hitem : Identity.identical item.2.subscriber caller = false)
    (hcall : ∀ subscriber, touches subscriber levels call =
      Identity.identical caller subscriber) : Tenure used levels (log ++ [call]) item := by
  refine h.untouched fun subscriber hused hsame => ?_
  rw [hcall, Bool.eq_false_iff]
  intro hidentical
  have hrecognizes : Identity.identical item.2.subscriber caller = true := by
    rcases hsame with rfl | hsame
    · exact hcoherent.symm hcaller hused hidentical
    · exact hcoherent.of_common h.known hcaller hused hsame hidentical
  rw [hitem] at hrecognizes
  cases hrecognizes

/-- What is said about an entry that recognizes the caller and is renewed now. -/
theorem Tenure.renew {n : Nat} (h : Tenure used levels log (n, entry))
    (hscan : scan filter = ⟨levels, none⟩) (hcaller : used caller)
    (hentry : Identity.identical entry.subscriber caller = true) :
    Tenure used levels (log ++ [(.subscribe filter qos caller, .ok ())])
      (n, ⟨entry.subscriber, qos⟩) where
  known := h.known
  held subscriber hused hsame := (h.held subscriber hused hsame).append fun _ => rfl
  latest subscriber hused hidentical := by
    have hcall := hcoherent.of_recognized h.known hcaller hused hentry hidentical
    rw [lastTouch?_append_singleton, touches_subscribe hscan, if_pos hcall]
    exact ⟨filter, caller, rfl⟩

/-- A caller that is not known is given an entry, which comes last. -/
theorem Register.add (h : Register used levels log entries dated)
    (hscan : scan filter = ⟨levels, none⟩) (hcaller : used caller)
    (hnone : ∀ entry ∈ entries, Identity.identical entry.subscriber caller = false) :
    Register used levels (log ++ [(.subscribe filter qos caller, .ok ())])
      (entries ++ [⟨caller, qos⟩]) (dated ++ [(log.length, ⟨caller, qos⟩)]) := by
  have hnone : ∀ item ∈ dated, Identity.identical item.2.subscriber caller = false :=
    fun item hitem => hnone _ (h.entries_eq ▸ List.mem_map_of_mem hitem)
  have hlast : ∀ subscriber, used subscriber → Identity.identical caller subscriber = true →
      ∀ item ∈ dated, Identity.identical item.2.subscriber subscriber = false := by
    intro subscriber hused hidentical item hitem
    refine Bool.eq_false_iff.2 fun hrecognizes => ?_
    have hitemUsed := (h.tenure item hitem).known
    have hfalse := hnone item hitem
    rw [hcoherent.of_common hitemUsed hcaller hused hrecognizes hidentical] at hfalse
    cases hfalse
  constructor
  case entries_eq => rw [List.map_append, h.entries_eq]; rfl
  case increasing =>
    rw [List.map_append]
    refine List.pairwise_append.2 ⟨h.increasing, List.pairwise_singleton _ _, ?_⟩
    intro n hn last hlast
    obtain ⟨item, hitem, rfl⟩ := List.mem_map.1 hn
    rw [List.mem_singleton.1 hlast]
    exact (h.tenure item hitem).lt_length
  case tenure =>
    intro item hitem
    rcases List.mem_append.1 hitem with hitem | hitem
    · exact (h.tenure item hitem).unrecognized hcoherent hcaller (hnone item hitem)
        fun subscriber => touches_subscribe hscan
    · rw [List.mem_singleton.1 hitem]
      refine .grant hscan hcaller fun subscriber hused hsame => h.absent subscriber hused ?_
      rcases hsame with rfl | hidentical
      · exact hnone
      · exact hlast subscriber hused hidentical
  case absent =>
    intro subscriber hused hnone
    have hcall : Identity.identical caller subscriber = false :=
      hnone _ (List.mem_append_right _ (List.mem_singleton_self _))
    rw [lastTouch?_append_singleton, touches_subscribe hscan, hcall]
    exact h.absent subscriber hused fun item hitem => hnone item (List.mem_append_left _ hitem)

omit hcoherent in
/-- The line of an entry in the register. -/
theorem Register.split (h : Register used levels log (before ++ entry :: after) dated) :
    ∃ earlier n later, dated = earlier ++ (n, entry) :: later ∧
      earlier.map Prod.snd = before ∧ later.map Prod.snd = after := by
  obtain ⟨earlier, rest, rfl, hearlier, hrest⟩ := List.map_eq_append_iff.1 h.entries_eq
  obtain ⟨⟨n, _⟩, later, rfl, rfl, hlater⟩ := List.map_eq_cons_iff.1 hrest
  exact ⟨earlier, n, later, rfl, hearlier, hlater⟩

/-- Where the register shows an entry that recognizes the caller, it shows no
other. -/
theorem Register.others {earlier later : List (Nat × Subscription σ)} {n : Nat}
    (h : Register used levels log entries (earlier ++ (n, entry) :: later))
    (hdistinct : Subscription.Distinct entries) (hcaller : used caller)
    (hentry : Identity.identical entry.subscriber caller = true) :
    ∀ item ∈ earlier ++ later, Identity.identical item.2.subscriber caller = false := by
  have hused := h.known
  have hentries := h.entries_eq
  rw [List.map_append, List.map_cons] at hentries
  subst hentries
  intro item hitem
  refine hdistinct.others hcoherent hused hcaller hentry item.2 ?_
  rw [← List.map_append]
  exact List.mem_map_of_mem hitem

/-- The entry that recognizes the caller keeps its place and gets the new
quality of service. -/
theorem Register.renew (h : Register used levels log (before ++ entry :: after) dated)
    (hdistinct : Subscription.Distinct (before ++ entry :: after))
    (hscan : scan filter = ⟨levels, none⟩) (hcaller : used caller)
    (hentry : Identity.identical entry.subscriber caller = true) :
    ∃ dated', Register used levels (log ++ [(.subscribe filter qos caller, .ok ())])
      (before ++ ⟨entry.subscriber, qos⟩ :: after) dated' := by
  obtain ⟨earlier, n, later, rfl, rfl, rfl⟩ := h.split
  have hothers := h.others hcoherent hdistinct hcaller hentry
  have hold := h.tenure (n, entry) (List.mem_append_right _ List.mem_cons_self)
  refine ⟨earlier ++ (n, ⟨entry.subscriber, qos⟩) :: later, ?_⟩
  constructor
  case entries_eq => rw [List.map_append, List.map_cons]
  case increasing =>
    have hincreasing := h.increasing
    rw [List.map_append, List.map_cons] at hincreasing ⊢
    exact hincreasing
  case tenure =>
    intro item hitem
    rcases List.mem_cons.1 (List.perm_middle.mem_iff.1 hitem) with rfl | hitem
    · exact hold.renew hcoherent hscan hcaller hentry
    · have hmem := List.perm_middle.mem_iff.2 (List.mem_cons_of_mem (n, entry) hitem)
      exact (h.tenure item hmem).unrecognized hcoherent hcaller (hothers item hitem)
        fun subscriber => touches_subscribe hscan
  case absent =>
    intro subscriber hused hnone
    have hstill : Identity.identical entry.subscriber subscriber = false :=
      hnone (n, ⟨entry.subscriber, qos⟩) (List.mem_append_right _ List.mem_cons_self)
    have hcall : Identity.identical caller subscriber = false := by
      refine Bool.eq_false_iff.2 fun hcall => ?_
      rw [hcoherent.trans hold.known hcaller hused hentry hcall] at hstill
      cases hstill
    rw [lastTouch?_append_singleton, touches_subscribe hscan, hcall]
    refine h.absent subscriber hused fun item hitem => ?_
    rcases List.mem_cons.1 (List.perm_middle.mem_iff.1 hitem) with rfl | hitem
    · exact hstill
    · exact hnone item (List.perm_middle.mem_iff.2 (List.mem_cons_of_mem _ hitem))

/-- The entry that recognizes the caller is taken away. -/
theorem Register.revoke (h : Register used levels log (before ++ entry :: after) dated)
    (hdistinct : Subscription.Distinct (before ++ entry :: after))
    (hscan : scan filter = ⟨levels, none⟩) (hcaller : used caller)
    (hentry : Identity.identical entry.subscriber caller = true) :
    ∃ dated', Register used levels (log ++ [(.unsubscribe filter (some caller), .ok ())])
      (before ++ after) dated' := by
  obtain ⟨earlier, n, later, rfl, rfl, rfl⟩ := h.split
  have hothers := h.others hcoherent hdistinct hcaller hentry
  have hold := h.tenure (n, entry) (List.mem_append_right _ List.mem_cons_self)
  have hsublist : (earlier ++ later).Sublist (earlier ++ (n, entry) :: later) :=
    (List.sublist_cons_self _ later).append_left earlier
  refine ⟨earlier ++ later, ?_⟩
  constructor
  case entries_eq => exact List.map_append
  case increasing => exact h.increasing.sublist (hsublist.map _)
  case tenure =>
    intro item hitem
    exact (h.tenure item (hsublist.subset hitem)).unrecognized hcoherent hcaller
      (hothers item hitem) fun subscriber => touches_unsubscribe hscan
  case absent =>
    intro subscriber hused hnone call hlast
    rw [lastTouch?_append_singleton, touches_unsubscribe hscan] at hlast
    split at hlast
    · cases hlast
      rfl
    · rename_i hcall
      -- The entry that is gone did not recognize the subscriber either.
      have hgone : Identity.identical entry.subscriber subscriber = false :=
        Bool.eq_false_iff.2 fun hidentical =>
          hcall (hcoherent.of_recognized hold.known hcaller hused hentry hidentical)
      refine h.absent subscriber hused (fun item hitem => ?_) call hlast
      rcases List.mem_cons.1 (List.perm_middle.mem_iff.1 hitem) with rfl | hitem
      · exact hgone
      · exact hnone item hitem

/-- **Every change keeps up a register.** -/
theorem Register.step {hasNode : List Level → Prop} {store store' : Store σ}
    {change : SubscriptionChange σ} {answer : Except TopicError Unit}
    (hstep : Store.Step hasNode store change answer store')
    (hdistinct : Subscription.Distinct (store levels))
    (hused : ∀ caller ∈ change.subscriber?, used caller)
    (h : Register used levels log (store levels) dated) :
    ∃ dated', Register used levels (log ++ [(change, answer)]) (store' levels) dated' := by
  -- A change to the entries of another filter touches none of this one.
  have hput : ∀ {levels' entries}, scan change.filter = ⟨levels', none⟩ →
      (levels' = levels →
        ∃ dated', Register used levels (log ++ [(change, answer)]) entries dated') →
      ∃ dated', Register used levels (log ++ [(change, answer)])
        (store.put levels' entries levels) dated' := by
    intro levels' entries hscan hsame
    by_cases heq : levels' = levels
    · rw [heq, Store.put_same]
      exact hsame heq
    · rw [Store.put_other store entries (Ne.symm heq)]
      exact ⟨dated, h.quiet fun _ => touches_of_ne hscan (Ne.symm heq) answer⟩
  cases hstep with
  | @renew filter qos caller levels' before after entry hscan hfirst =>
      refine hput hscan ?_
      rintro rfl
      rw [hfirst.split] at h hdistinct
      exact h.renew hcoherent hdistinct hscan (hused caller rfl) hfirst.recognizes
  | @add filter qos caller levels' hscan hnone =>
      refine hput hscan ?_
      rintro rfl
      exact ⟨_, h.add hcoherent hscan (hused caller rfl) hnone⟩
  | @revoke filter caller levels' before after entry hscan hfirst =>
      refine hput hscan ?_
      rintro rfl
      rw [hfirst.split] at h hdistinct
      exact h.revoke hcoherent hdistinct hscan (hused caller rfl) hfirst.recognizes
  | clear hscan =>
      refine hput hscan ?_
      rintro rfl
      exact ⟨[], .clear hscan⟩
  | refuse | unknown | nothing | meet | miss => exact ⟨dated, h.quiet fun _ => rfl⟩

end Registers

/-! ## Histories -/

namespace SubscriptionTree

theorem distinct_ofHistory (changes : List (SubscriptionChange σ)) (levels : List Level) :
    Subscription.Distinct ((ofHistory changes).slot levels) := by
  induction changes using List.reverseRecOn generalizing levels with
  | nil =>
      rw [ofHistory, run_nil, Tree.slot_empty]
      exact .nil
  | append_singleton changes change ih =>
      rw [ofHistory_append_singleton]
      exact Subscription.distinct_step (step_slot_iff.2 ⟨rfl, rfl⟩) ih levels

/-- The entries of a filter have a register after any history. -/
theorem exists_register {used : σ → Prop} (hcoherent : Identity.CoherentOn used)
    {changes : List (SubscriptionChange σ)}
    (hused : ∀ change ∈ changes, ∀ caller ∈ change.subscriber?, used caller)
    (levels : List Level) :
    ∃ dated, Register used levels (log changes) ((ofHistory changes).slot levels) dated := by
  induction changes using List.reverseRecOn with
  | nil =>
      refine ⟨[], ?_⟩
      rw [ofHistory, run_nil, Tree.slot_empty]
      exact ⟨rfl, .nil, fun _ hitem => absurd hitem List.not_mem_nil,
        fun _ _ _ _ hcall => absurd hcall (Option.not_mem_none _)⟩
  | append_singleton changes change ih =>
      obtain ⟨dated, hdated⟩ := ih fun change hchange =>
        hused change (List.mem_append_left _ hchange)
      rw [ofHistory_append_singleton, log_append_singleton]
      exact hdated.step hcoherent (step_slot_iff.2 ⟨rfl, rfl⟩) (distinct_ofHistory changes levels)
        (hused change (List.mem_append_right _ (List.mem_singleton_self _)))

/-- **Each subscriber has one entry, which goes back to one call.**  No entry of a
filter recognizes the subscriber of a later one, whatever identity is.  Where it
is symmetric and transitive among the subscribers in use, at most one entry of a
filter recognizes a given one.  There is such an entry exactly if the last call
that touched it was a grant; its quality of service is that of this call, and its
handle and its place among the entries are those of the first grant since it was
last taken away. -/
theorem one_entry_per_subscriber (changes : List (SubscriptionChange σ)) (levels : List Level) :
    (((ofHistory changes).slot levels).Pairwise fun first second =>
      Identity.identical first.subscriber second.subscriber = false) ∧
    ∀ used : σ → Prop, Identity.CoherentOn used →
      (∀ change ∈ changes, ∀ caller ∈ change.subscriber?, used caller) →
      (∀ subscriber, used subscriber →
        ((ofHistory changes).slot levels).countP (Subscription.isFor subscriber) ≤ 1) ∧
      ∃ dated : List (Nat × Subscription σ),
        dated.map Prod.snd = (ofHistory changes).slot levels ∧
        (dated.map Prod.fst).Pairwise (· < ·) ∧
        (∀ item ∈ dated,
          HeldSince item.2.subscriber levels (log changes) item.1 item.2.subscriber) ∧
        ∀ subscriber, used subscriber →
          ((∃ item ∈ dated, item.2.isFor subscriber = true) ↔
            ∃ call ∈ lastTouch? subscriber levels (log changes), call.1.isGrant = true) ∧
          ∀ item ∈ dated, item.2.isFor subscriber = true →
            HeldSince subscriber levels (log changes) item.1 item.2.subscriber ∧
            ∃ filter caller, lastTouch? subscriber levels (log changes) =
              some (.subscribe filter item.2.granted caller, .ok ()) := by
  have hdistinct := distinct_ofHistory changes levels
  refine ⟨List.pairwise_map.1 hdistinct, fun used hcoherent hused => ?_⟩
  obtain ⟨dated, hdated⟩ := exists_register hcoherent hused levels
  refine ⟨fun subscriber hsubscriber => ?_, dated, hdated.entries_eq, hdated.increasing,
    fun item hitem => ?_, fun subscriber hsubscriber => ⟨⟨?_, ?_⟩, fun item hitem hfor => ?_⟩⟩
  · exact hdistinct.countP_isFor_le_one hcoherent hdated.known hsubscriber
  · exact (hdated.tenure item hitem).held _ (hdated.tenure item hitem).known (.inl rfl)
  · rintro ⟨item, hitem, hfor⟩
    obtain ⟨filter, caller, hlast⟩ := (hdated.tenure item hitem).latest subscriber hsubscriber hfor
    exact ⟨_, hlast, rfl⟩
  · rintro ⟨call, hcall, hgrant⟩
    by_contra hnone
    push Not at hnone
    have hfalse := hdated.absent subscriber hsubscriber
      (fun item hitem => Bool.eq_false_iff.2 (hnone item hitem)) call hcall
    rw [hgrant] at hfalse
    cases hfalse
  · have htenure := hdated.tenure item hitem
    exact ⟨htenure.held subscriber hsubscriber (.inr hfor),
      htenure.latest subscriber hsubscriber hfor⟩

/-- A subscriber that was taken away and came back stands behind one that was
renewed meanwhile, whichever way the filter was written. -/
theorem one_entry_per_subscriber_renewed :
    let x : Handle := .text .owned "x"
    let y : Handle := .text .owned "y"
    let changes : List (SubscriptionChange Handle) :=
      [.subscribe "a//b" .atMostOnce x, .subscribe "a/+/b" .atMostOnce y,
        .unsubscribe "a/+/b/" (some x), .subscribe "a//b/" .atLeastOnce x,
        .subscribe "a//b" .exactlyOnce y, .unsubscribe "a" (some y)]
    let levels : List Level := [.literal "a", .single, .literal "b"]
    let used : Handle → Prop := fun handle => handle = x ∨ handle = y
    Identity.CoherentOn used ∧
      (∀ change ∈ changes, ∀ caller ∈ change.subscriber?, used caller) ∧ used y ∧
      ((ofHistory changes).slot levels).countP (Subscription.isFor y) ≤ 1 ∧
      ∃ dated : List (Nat × Subscription Handle),
        dated.map Prod.snd = [⟨y, .exactlyOnce⟩, ⟨x, .atLeastOnce⟩] ∧
        (dated.map Prod.fst).Pairwise (· < ·) ∧
        ∀ item ∈ dated, item.2.isFor y = true →
          HeldSince y levels (log changes) item.1 item.2.subscriber ∧
          ∃ filter caller, lastTouch? y levels (log changes) =
            some (.subscribe filter item.2.granted caller, .ok ()) := by
  intro x y changes levels used
  have hcoherent : Identity.CoherentOn used := by
    constructor
    · rintro _ _ (rfl | rfl) (rfl | rfl) <;> decide
    · rintro _ _ _ (rfl | rfl) (rfl | rfl) (rfl | rfl) <;> decide
  have hused : ∀ change ∈ changes, ∀ caller ∈ change.subscriber?, used caller := by decide
  have hslot : (ofHistory changes).slot levels = [⟨y, .exactlyOnce⟩, ⟨x, .atLeastOnce⟩] := by
    decide +kernel
  obtain ⟨hone, dated, hentries, hincreasing, _, hcalls⟩ :=
    (one_entry_per_subscriber changes levels).2 used hcoherent hused
  rw [hslot] at hentries
  exact ⟨hcoherent, hused, .inr rfl, hone y (.inr rfl), dated, hentries, hincreasing,
    (hcalls y (.inr rfl)).2⟩

end SubscriptionTree

end TopicRouter
