import Mathlib.Order.Monotone.Basic
import TopicRouter.Proofs.Subscriber.Kinds
import TopicRouter.Subscriber.Origin

/-!
# Where tokens and callbacks come from

Every new token and every new callback draws a number, and copies of a callback
keep the number of the one that they were copied from.  The number of a token is
the count of the draws up to its own.  As long as there are fewer draws than
numbers, no two draws give the same one, so the number of a handle says where the
handle comes from.  Two callbacks are identical exactly if both descend from one
that was created, and two tokens exactly if both were drawn at once, be it as a
token or for a callback.

A callback and its token are handles of different kinds.

## Main results

* `HoldsTokenOf.unique` — a handle has one origin.
* `Issued.accounted_run` — a handle carries the token that was drawn at its origin.
* `identity_by_kind_and_origin` — what identity says about two handles.
-/

namespace TopicRouter

/-! ## Origins -/

namespace IssueStep

/-- The earlier step that a step refers to, if it refers to one. -/
def source? : IssueStep → Option Nat
  | token => none
  | callback => none
  | tokenOf step => some step
  | copy step => some step

/-- Does a step draw a token if it is the step of this number?  It does unless it
refers to one before it. -/
def draws (step : IssueStep) (n : Nat) : Bool := step.source?.all fun earlier => n ≤ earlier

theorem le_of_draws {step : IssueStep} {n earlier : Nat} (h : step.draws n = true)
    (hsource : step.source? = some earlier) : n ≤ earlier := by
  rw [draws, hsource] at h
  exact of_decide_eq_true h

theorem exists_source_of_draws_eq_false {step : IssueStep} {n : Nat}
    (h : step.draws n = false) : ∃ earlier, step.source? = some earlier ∧ earlier < n := by
  cases hsource : step.source? with
  | none =>
      rw [draws, hsource] at h
      cases h
  | some earlier =>
      rw [draws, hsource] at h
      exact ⟨earlier, rfl, Nat.lt_of_not_le (of_decide_eq_false h)⟩

end IssueStep

/-- The handle issued at the first step holds the token that was drawn at the
second. -/
inductive HoldsTokenOf (steps : List IssueStep) : Nat → Nat → Prop where
  | drawn {n : Nat} {step : IssueStep} : steps[n]? = some step → step.draws n = true →
      HoldsTokenOf steps n n
  | passed {n earlier origin : Nat} {step : IssueStep} : steps[n]? = some step →
      step.source? = some earlier → earlier < n → HoldsTokenOf steps earlier origin →
      HoldsTokenOf steps n origin

/-- The callback issued at the first step descends by copying from the one that
was created at the second. -/
inductive CopiedFrom (steps : List IssueStep) : Nat → Nat → Prop where
  | created {n : Nat} : steps[n]? = some .callback → CopiedFrom steps n n
  | copied {n earlier origin : Nat} : steps[n]? = some (.copy earlier) → earlier < n →
      CopiedFrom steps earlier origin → CopiedFrom steps n origin

variable {steps : List IssueStep} {step step' : IssueStep} {n n' origin origin' : Nat}

private theorem getElem?_append_of_eq_some {α : Type} {items : List α} {n : Nat} {item : α}
    (h : items[n]? = some item) (more : List α) : (items ++ more)[n]? = some item := by
  rw [List.getElem?_append_left (List.getElem?_eq_some_iff.1 h).1, h]

namespace HoldsTokenOf

theorem append (h : HoldsTokenOf steps n origin) (more : List IssueStep) :
    HoldsTokenOf (steps ++ more) n origin := by
  induction h with
  | drawn hstep hdraws => exact .drawn (getElem?_append_of_eq_some hstep more) hdraws
  | passed hstep hsource hlt _ ih =>
      exact .passed (getElem?_append_of_eq_some hstep more) hsource hlt ih

/-- The token was drawn at its origin. -/
theorem exists_draws (h : HoldsTokenOf steps n origin) :
    ∃ step, steps[origin]? = some step ∧ step.draws origin = true := by
  induction h with
  | drawn hstep hdraws => exact ⟨_, hstep, hdraws⟩
  | passed _ _ _ _ ih => exact ih

theorem origin_lt_length (h : HoldsTokenOf steps n origin) : origin < steps.length := by
  obtain ⟨step, hstep, -⟩ := h.exists_draws
  exact (List.getElem?_eq_some_iff.1 hstep).1

/-- A handle has one origin. -/
theorem unique (h : HoldsTokenOf steps n origin) (h' : HoldsTokenOf steps n origin') :
    origin = origin' := by
  -- Both descents take the same steps back, as the step at each place tells where.
  induction h with
  | drawn hstep hdraws =>
      cases h' with
      | drawn => rfl
      | passed hstep' hsource' hlt _ =>
          cases hstep.symm.trans hstep'
          exact absurd hlt (Nat.not_lt.2 (IssueStep.le_of_draws hdraws hsource'))
  | passed hstep hsource hlt _ ih =>
      cases h' with
      | drawn hstep' hdraws' =>
          cases hstep.symm.trans hstep'
          exact absurd hlt (Nat.not_lt.2 (IssueStep.le_of_draws hdraws' hsource))
      | passed hstep' hsource' _ h' =>
          cases hstep.symm.trans hstep'
          cases hsource.symm.trans hsource'
          exact ih h'

end HoldsTokenOf

namespace CopiedFrom

theorem append (h : CopiedFrom steps n origin) (more : List IssueStep) :
    CopiedFrom (steps ++ more) n origin := by
  induction h with
  | created hstep => exact .created (getElem?_append_of_eq_some hstep more)
  | copied hstep hlt _ ih => exact .copied (getElem?_append_of_eq_some hstep more) hlt ih

/-- A copy holds the token of the callback that it descends from. -/
theorem holdsTokenOf (h : CopiedFrom steps n origin) : HoldsTokenOf steps n origin := by
  induction h with
  | created hstep => exact .drawn hstep rfl
  | copied hstep hlt _ ih => exact .passed hstep rfl hlt ih

end CopiedFrom

/-! ## Counting draws -/

/-- How many tokens are drawn. -/
def drawCount (steps : List IssueStep) : Nat :=
  steps.zipIdx.countP fun (step, n) => step.draws n

theorem drawCount_concat (steps : List IssueStep) (step : IssueStep) :
    drawCount (steps ++ [step]) =
      drawCount steps + if step.draws steps.length then 1 else 0 := by
  simp [drawCount, List.zipIdx_append, List.countP_append, List.countP_singleton]

theorem drawCount_concat_of_draws (h : step.draws steps.length = true) :
    drawCount (steps ++ [step]) = drawCount steps + 1 := by
  rw [drawCount_concat, if_pos h]

theorem drawCount_concat_of_not_draws (h : step.draws steps.length = false) :
    drawCount (steps ++ [step]) = drawCount steps := by
  rw [drawCount_concat, h]
  rfl

theorem drawCount_take_mono (steps : List IssueStep) (h : n ≤ n') :
    drawCount (steps.take n) ≤ drawCount (steps.take n') := by
  refine monotone_nat_of_le_succ (f := fun n => drawCount (steps.take n)) (fun n => ?_) h
  rw [List.take_add_one]
  cases steps[n]? with
  | none => rw [Option.toList_none, List.append_nil]
  | some step =>
      rw [Option.toList_some, drawCount_concat]
      exact Nat.le_add_right _ _

theorem drawCount_take_le (steps : List IssueStep) (n : Nat) :
    drawCount (steps.take n) ≤ drawCount steps := by
  rcases Nat.le_total n steps.length with hle | hle
  · have h := drawCount_take_mono steps hle
    rwa [List.take_length] at h
  · rw [List.take_of_length_le hle]

/-- A draw counts itself besides all draws before it. -/
theorem drawCount_take_lt (hlt : n < n') (hstep : steps[n']? = some step)
    (hdraws : step.draws n' = true) :
    drawCount (steps.take (n + 1)) < drawCount (steps.take (n' + 1)) := by
  have hlength : (steps.take n').length = n' :=
    List.length_take_of_le (List.getElem?_eq_some_iff.1 hstep).1.le
  rw [List.take_add_one (i := n'), hstep, Option.toList_some,
    drawCount_concat_of_draws (by rwa [hlength])]
  exact Nat.lt_succ_of_le (drawCount_take_mono steps hlt)

/-- The token drawn at a step.  It is numbered by the draws so far. -/
def tokenAt (steps : List IssueStep) (n : Nat) : Token :=
  ⟨UInt64.ofNat (drawCount (steps.take (n + 1)))⟩

theorem tokenAt_append (h : n < steps.length) (more : List IssueStep) :
    tokenAt (steps ++ more) n = tokenAt steps n := by
  rw [tokenAt, tokenAt, List.take_append_of_le_length h]

/-- While there are numbers left, no two draws give the same token. -/
theorem tokenAt_inj (hcount : drawCount steps < 2 ^ 64)
    (hstep : steps[n]? = some step) (hdraws : step.draws n = true)
    (hstep' : steps[n']? = some step') (hdraws' : step'.draws n' = true) :
    tokenAt steps n = tokenAt steps n' ↔ n = n' := by
  constructor
  · intro h
    have hnumber := congrArg (fun token => token.number.toNat) h
    dsimp only [tokenAt] at hnumber
    rw [UInt64.toNat_ofNat_of_lt' ((drawCount_take_le steps _).trans_lt hcount),
      UInt64.toNat_ofNat_of_lt' ((drawCount_take_le steps _).trans_lt hcount)] at hnumber
    -- The later draw would count the earlier one.
    rcases Nat.lt_trichotomy n n' with hlt | heq | hlt
    · exact absurd hnumber (Nat.ne_of_lt (drawCount_take_lt hlt hstep' hdraws'))
    · exact heq
    · exact absurd hnumber (Nat.ne_of_gt (drawCount_take_lt hlt hstep hdraws))
  · rintro rfl
    rfl

/-! ## Issuing handles -/

/-- A handle issued at a step carries the token that was drawn at its origin. -/
structure Issue.Traced (steps : List IssueStep) (n : Nat) (issue : Issue) : Prop where
  token_eq : issue.handle.token? = some (tokenAt steps issue.origin)
  holds : HoldsTokenOf steps n issue.origin
  copied : issue.handle.kind = .callback → CopiedFrom steps n issue.origin

theorem Issue.Traced.append {issue : Issue} (h : issue.Traced steps n) (more : List IssueStep) :
    issue.Traced (steps ++ more) n where
  token_eq := by rw [h.token_eq, tokenAt_append h.holds.origin_lt_length]
  holds := h.holds.append more
  copied hkind := (h.copied hkind).append more

namespace Issued

variable {issued : Issued}

/-- A step that draws a token issues it, or else a callback with it. -/
theorem issue_of_draws (hdraws : step.draws issued.issues.length = true) :
    ∃ handle, issued.issue step = ⟨issued.supply.draw.2,
        issued.issues ++ [⟨handle, issued.issues.length⟩]⟩ ∧
      handle.token? = some issued.supply.draw.1 ∧
      (handle.kind = .callback → step = .callback) := by
  have hnone : ∀ m, step.source? = some m → issued.source m = none := fun m hsource =>
    List.getElem?_eq_none (IssueStep.le_of_draws hdraws hsource)
  cases step with
  | token => exact ⟨.token issued.supply.draw.1, rfl, rfl, nofun⟩
  | callback =>
      exact ⟨.callback (Callback.create issued.supply).1, rfl, rfl, fun _ => rfl⟩
  | tokenOf m =>
      refine ⟨.token issued.supply.draw.1, ?_, rfl, nofun⟩
      simp only [issue, hnone m rfl]
  | copy m =>
      refine ⟨.token issued.supply.draw.1, ?_, rfl, nofun⟩
      simp only [issue, hnone m rfl]

/-- A step that refers to an earlier handle passes on its token. -/
theorem issue_of_source {m : Nat} {earlier : Issue} {token : Token}
    (hsource : step.source? = some m) (hearlier : issued.issues[m]? = some earlier)
    (htoken : earlier.handle.token? = some token) :
    ∃ handle, issued.issue step = ⟨issued.supply,
        issued.issues ++ [⟨handle, earlier.origin⟩]⟩ ∧
      handle.token? = some token ∧
      (handle.kind = .callback → step = .copy m ∧ earlier.handle.kind = .callback) := by
  have hearlier : issued.source m = some earlier := hearlier
  cases step with
  | token => cases hsource
  | callback => cases hsource
  | tokenOf _ =>
      cases hsource
      refine ⟨.token token, ?_, rfl, nofun⟩
      simp only [issue, hearlier, htoken]
  | copy _ =>
      cases hsource
      refine ⟨earlier.handle, ?_, htoken, fun hkind => ⟨rfl, hkind⟩⟩
      simp only [issue, hearlier]

/-- All handles are traced to their origins, and the next number is one more than
the number of draws. -/
structure Accounted (steps : List IssueStep) (issued : Issued) : Prop where
  length_eq : issued.issues.length = steps.length
  next_eq : issued.supply.next = UInt64.ofNat (drawCount steps + 1)
  traced (n : Nat) (issue : Issue) : issued.issues[n]? = some issue → issue.Traced steps n

/-- One more handle that is traced to its origin keeps the account. -/
theorem Accounted.concat (h : Accounted steps issued) {supply : TokenSupply} {issue : Issue}
    (hnext : supply.next = UInt64.ofNat (drawCount (steps ++ [step]) + 1))
    (hissue : issue.Traced (steps ++ [step]) steps.length) :
    Accounted (steps ++ [step]) ⟨supply, issued.issues ++ [issue]⟩ where
  length_eq := by
    rw [List.length_append, List.length_append, h.length_eq, List.length_singleton,
      List.length_singleton]
  next_eq := hnext
  traced n issue' hissue' := by
    dsimp only at hissue'
    rw [List.getElem?_append, List.getElem?_singleton] at hissue'
    split at hissue'
    · exact (h.traced n issue' hissue').append [step]
    · next hlt =>
        split at hissue'
        · next hzero =>
            have hn : n = steps.length := by
              rw [← h.length_eq]
              omega
            rw [hn, ← Option.some.inj hissue']
            exact hissue
        · cases hissue'

/-- A step keeps the account. -/
theorem Accounted.issue (h : Accounted steps issued) (step : IssueStep) :
    Accounted (steps ++ [step]) (issued.issue step) := by
  have hstep : (steps ++ [step])[steps.length]? = some step := List.getElem?_concat_length
  cases hdraws : step.draws steps.length with
  | true =>
      -- The token that is drawn is numbered by the count that includes its own draw.
      have hcount := drawCount_concat_of_draws hdraws
      obtain ⟨handle, hissued, htoken, hcallback⟩ :=
        issue_of_draws (h.length_eq.symm ▸ hdraws)
      rw [hissued, h.length_eq]
      refine h.concat ?_ ⟨?_, .drawn hstep hdraws, fun hkind => ?_⟩
      · rw [TokenSupply.next_draw, h.next_eq, hcount, UInt64.ofNat_add (drawCount steps + 1) 1]
        rfl
      · have htake : (steps ++ [step]).take (steps.length + 1) = steps ++ [step] :=
          List.take_of_length_le (by simp)
        rw [htoken, tokenAt, htake, hcount, ← h.next_eq]
        rfl
      · rw [hcallback hkind] at hstep ⊢
        exact .created hstep
  | false =>
      -- The supply stays as it is, and the origin is that of the earlier handle.
      have hcount := drawCount_concat_of_not_draws hdraws
      obtain ⟨m, hsource, hm⟩ := IssueStep.exists_source_of_draws_eq_false hdraws
      obtain ⟨earlier, hearlier⟩ : ∃ earlier, issued.issues[m]? = some earlier :=
        ⟨_, List.getElem?_eq_getElem (h.length_eq ▸ hm)⟩
      have htraced := (h.traced m earlier hearlier).append [step]
      obtain ⟨handle, hissued, htoken, hcallback⟩ :=
        issue_of_source hsource hearlier htraced.token_eq
      rw [hissued]
      refine h.concat (by rw [hcount, h.next_eq])
        ⟨htoken, .passed hstep hsource hm htraced.holds, fun hkind => ?_⟩
      obtain ⟨hcopy, hkind⟩ := hcallback hkind
      exact .copied (hcopy ▸ hstep) hm (htraced.copied hkind)

theorem accounted_nil : Accounted [] {} where
  length_eq := rfl
  next_eq := by decide
  traced _ _ h := by cases h

/-- Further steps keep the account. -/
theorem Accounted.run (h : Accounted steps issued) (more : List IssueStep) :
    Accounted (steps ++ more) (issued.run more) := by
  induction more generalizing steps issued with
  | nil => rwa [List.append_nil]
  | cons step rest ih =>
      rw [List.append_cons]
      exact ih (h.issue step)

/-- **Every handle carries the token that was drawn at its origin**, however many
handles are issued. -/
theorem accounted_run (steps : List IssueStep) : Accounted steps (run {} steps) :=
  accounted_nil.run steps

end Issued

/-! ## Identity of issued handles -/

/-- Handles of one kind that carry tokens are identical if the tokens are the same. -/
theorem Handle.identical_iff_token?_eq {a b : Handle} {token : Token}
    (htoken : a.token? = some token) (hkind : a.kind = b.kind) :
    identical a b = true ↔ a.token? = b.token? := by
  cases a with
  | token drawn =>
      cases b with
      | token drawn' => simp [identical, token?]
      | _ => cases hkind
  | callback subscriber =>
      cases b with
      | callback subscriber' =>
          obtain ⟨token⟩ := subscriber
          obtain ⟨token'⟩ := subscriber'
          simp [identical, token?]
      | _ => cases hkind
  | _ => cases htoken

/-- Two issued handles are identical only for what they are and where they come
from. -/
structure ComparedByOrigin (steps : List IssueStep) (n n' : Nat) (first second : Handle) :
    Prop where
  callbacks : first.kind = .callback → second.kind = .callback →
    (first.identical second = true ↔
      ∃ origin, CopiedFrom steps n origin ∧ CopiedFrom steps n' origin)
  tokens : first.kind = .token → second.kind = .token →
    (first.identical second = true ↔
      ∃ origin, HoldsTokenOf steps n origin ∧ HoldsTokenOf steps n' origin)
  apart : first.kind = .callback → second.kind = .token →
    first.identical second = false ∧ second.identical first = false

namespace Issue.Traced

variable {issue issue' : Issue}

theorem identical_iff (h : issue.Traced steps n) (h' : issue'.Traced steps n')
    (hcount : drawCount steps < 2 ^ 64) (hkind : issue.handle.kind = issue'.handle.kind) :
    issue.handle.identical issue'.handle = true ↔ issue.origin = issue'.origin := by
  obtain ⟨step, hstep, hdraws⟩ := h.holds.exists_draws
  obtain ⟨step', hstep', hdraws'⟩ := h'.holds.exists_draws
  rw [Handle.identical_iff_token?_eq h.token_eq hkind, h.token_eq, h'.token_eq,
    Option.some.injEq, tokenAt_inj hcount hstep hdraws hstep' hdraws']

theorem comparedByOrigin (h : issue.Traced steps n) (h' : issue'.Traced steps n')
    (hcount : drawCount steps < 2 ^ 64) :
    ComparedByOrigin steps n n' issue.handle issue'.handle where
  callbacks hkind hkind' := by
    rw [h.identical_iff h' hcount (hkind.trans hkind'.symm)]
    constructor
    · intro horigin
      exact ⟨issue.origin, h.copied hkind, horigin ▸ h'.copied hkind'⟩
    · rintro ⟨origin, hcopied, hcopied'⟩
      rw [h.holds.unique hcopied.holdsTokenOf, h'.holds.unique hcopied'.holdsTokenOf]
  tokens hkind hkind' := by
    rw [h.identical_iff h' hcount (hkind.trans hkind'.symm)]
    constructor
    · intro horigin
      exact ⟨issue.origin, h.holds, horigin ▸ h'.holds⟩
    · rintro ⟨origin, hholds, hholds'⟩
      rw [h.holds.unique hholds, h'.holds.unique hholds']
  apart hkind hkind' := by
    have hne : issue.handle.kind ≠ issue'.handle.kind := by
      rw [hkind, hkind']
      exact nofun
    exact ⟨Handle.identical_of_kind_ne hne, Handle.identical_of_kind_ne hne.symm⟩

end Issue.Traced

/-- **Identity goes by kind, value and origin.**  It is a partial equivalence that
keeps kinds apart and is reflexive off what is no number.  Floating point numbers
are identical if they stand for the same value, and other handles if they are the
same.  Issued callbacks are identical if they descend from the same one, and
issued tokens if they come from the same draw; only steps that draw count against
the supply. -/
theorem identity_by_kind_and_origin :
    (∀ a b : Handle, a.identical b = b.identical a) ∧
    (∀ a b c : Handle, a.identical b = true → b.identical c = true → a.identical c = true) ∧
    (∀ a b : Handle, a.kind ≠ b.kind → a.identical b = false) ∧
    (∀ a : Handle, a.identical a = !a.isNaN) ∧
    (∀ (format : FloatFormat) (x y : format.Bits),
      (Handle.float format x).identical (.float format y) = true ↔
        ∃ value, FloatFormat.value? x = some value ∧ FloatFormat.value? y = some value) ∧
    (∀ a b : Handle, (∀ format bits, a ≠ .float format bits) → (a.identical b = true ↔ a = b)) ∧
    ∀ steps : List IssueStep, drawCount steps < 2 ^ 64 → ∀ (n n' : Nat) (issue issue' : Issue),
      (Issued.run {} steps).issues[n]? = some issue →
      (Issued.run {} steps).issues[n']? = some issue' →
      ComparedByOrigin steps n n' issue.handle issue'.handle := by
  refine ⟨Handle.identical_comm, fun _ _ _ => Handle.identical_trans,
    fun _ _ => Handle.identical_of_kind_ne, Handle.identical_self,
    fun _ _ _ => Handle.identical_float_iff, fun _ _ => Handle.identical_iff_eq, ?_⟩
  intro steps hcount n n' issue issue' hissue hissue'
  have haccounted := Issued.accounted_run steps
  exact (haccounted.traced n issue hissue).comparedByOrigin
    (haccounted.traced n' issue' hissue') hcount

/-- The two zeros, a token and the callback that it was drawn for, and two
callbacks of which the first is copied. -/
theorem identity_by_kind_and_origin_of_copy :
    (Handle.identical (.float .binary32 0x00000000) (.float .binary32 0x80000000) = true ∧
      Handle.identical (.float .binary32 0x80000000) (.float .binary32 0x00000000) = true ∧
      Handle.identical (.float .binary32 0x00000000) (.float .binary32 0x00000000) = true) ∧
    ((Handle.token ⟨1⟩).kind ≠ (Handle.callback ⟨⟨1⟩⟩).kind ∧
      Handle.identical (.token ⟨1⟩) (.callback ⟨⟨1⟩⟩) = false) ∧
    (Handle.identical (.token ⟨1⟩) (.token ⟨2⟩) = true ↔ Handle.token ⟨1⟩ = .token ⟨2⟩) ∧
    drawCount [.callback, .copy 0, .callback] < 2 ^ 64 ∧
    (Issued.run {} [.callback, .copy 0, .callback]).issues =
      [⟨.callback ⟨⟨1⟩⟩, 0⟩, ⟨.callback ⟨⟨1⟩⟩, 0⟩, ⟨.callback ⟨⟨2⟩⟩, 2⟩] ∧
    (∃ origin, CopiedFrom [.callback, .copy 0, .callback] 0 origin ∧
      CopiedFrom [.callback, .copy 0, .callback] 1 origin) ∧
    ¬ ∃ origin, CopiedFrom [.callback, .copy 0, .callback] 1 origin ∧
      CopiedFrom [.callback, .copy 0, .callback] 2 origin := by
  obtain ⟨-, htrans, hkinds, -, -, hsame, hissued⟩ := identity_by_kind_and_origin
  have hzero : Handle.identical (.float .binary32 0x00000000)
      (.float .binary32 0x80000000) = true := by decide
  have hzero' : Handle.identical (.float .binary32 0x80000000)
      (.float .binary32 0x00000000) = true := by decide
  have hcopy := hissued [.callback, .copy 0, .callback] (by decide) 0 1 _ _ rfl rfl
  have hother := hissued [.callback, .copy 0, .callback] (by decide) 1 2 _ _ rfl rfl
  exact ⟨⟨hzero, hzero', htrans _ _ _ hzero hzero'⟩, ⟨by decide, hkinds _ _ (by decide)⟩,
    hsame _ _ nofun, by decide, rfl, (hcopy.callbacks rfl rfl).1 (by decide),
    (hother.callbacks rfl rfl).not.1 (by decide)⟩

end TopicRouter
