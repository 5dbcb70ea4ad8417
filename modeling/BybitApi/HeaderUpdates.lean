import BybitApi.ServerBudget

/-!
# What the rate headers leave behind

`update` stores the remaining budget before it converts the reset time, and swallows
the exception when that conversion throws: the budget of this response is then kept
beside the reset time of an earlier one, or beside none (`update_not_atomic`).  That
is the only way in which an `update` is half done (`updates_atomic_iff`), so in a run
without it `wait` goes by what a single response has said.
-/

namespace BybitApi

namespace RateLimiter

/-- The limiter goes by a response. -/
def TakenFrom (limiter : RateLimiter) (response : HttpResponse) : Prop :=
  limiter.serverHeadersFound = true ∧
    response.budget? = some (limiter.remaining, limiter.resetTime)

/-- The two limiters go by the same budget. -/
def SameBudget (limiter other : RateLimiter) : Prop :=
  limiter.remaining = other.remaining ∧ limiter.resetTime = other.resetTime ∧
    limiter.serverHeadersFound = other.serverHeadersFound

instance (limiter : RateLimiter) (response : HttpResponse) :
    Decidable (limiter.TakenFrom response) :=
  inferInstanceAs (Decidable (_ ∧ _))

instance (limiter other : RateLimiter) : Decidable (limiter.SameBudget other) :=
  inferInstanceAs (Decidable (_ ∧ _ ∧ _))

/-- An `update` takes all of a response, or nothing. -/
def UpdatesAtomically (limiter : RateLimiter) (response : HttpResponse) : Prop :=
  (limiter.update response).TakenFrom response ∨ (limiter.update response).SameBudget limiter

/-- The first header reads as another budget than the one recorded, and the second one
    does not read. -/
def HalfReadable (limiter : RateLimiter) (response : HttpResponse) : Prop :=
  ∃ status reset remaining thrown, response.find "X-Bapi-Limit-Status" = some status ∧
    response.find "X-Bapi-Limit-Reset" = some reset ∧ stoi status = .ok remaining ∧
    stoll reset = .error thrown ∧ remaining ≠ limiter.remaining

/-- No response so far, or one of them as a whole. -/
def FromOneOf (limiter : RateLimiter) (responses : List HttpResponse) : Prop :=
  limiter.SameBudget {} ∨ ∃ response ∈ responses, limiter.TakenFrom response

theorem SameBudget.fromOneOf {limiter other : RateLimiter} {responses : List HttpResponse}
    (h : limiter.SameBudget other) (hother : other.FromOneOf responses) :
    limiter.FromOneOf responses := by
  obtain ⟨hremaining, hresetTime, hfound⟩ := h
  simpa only [FromOneOf, SameBudget, TakenFrom, hremaining, hresetTime, hfound] using hother

/-- Calls of `wait` leave the budget alone. -/
theorem sameBudget_wait (limiter : RateLimiter) (now nowAfterWait : Int) :
    (limiter.wait now nowAfterWait).2.SameBudget limiter := by
  cases hmode : limiter.serverHeadersFound with
  | true =>
      rw [(wait_server hmode now nowAfterWait).1]
      exact ⟨rfl, rfl, rfl⟩
  | false =>
      simp only [wait, hmode, Bool.false_eq_true, if_false]
      split
      · split <;> exact ⟨rfl, rfl, hmode.symm⟩
      · exact ⟨rfl, rfl, hmode.symm⟩

/-! ### One update -/

theorem updatesAtomically_of_some (limiter : RateLimiter) {response : HttpResponse}
    {remaining resetTime : Int} (h : response.budget? = some (remaining, resetTime)) :
    limiter.UpdatesAtomically response := by
  left
  rw [update_of_some limiter h]
  exact ⟨rfl, h⟩

/-- What is stored of a response that records no budget can only be the first header. -/
theorem updatesAtomically_iff_of_none (limiter : RateLimiter) {response : HttpResponse}
    (h : response.budget? = none) :
    limiter.UpdatesAtomically response ↔
      (limiter.update response).remaining = limiter.remaining := by
  obtain ⟨hfound, hresetTime⟩ := update_of_none limiter h
  constructor
  · rintro (⟨-, htaken⟩ | ⟨hremaining, -⟩)
    · rw [h] at htaken
      cases htaken
    · exact hremaining
  · intro hremaining
    exact .inr ⟨hremaining, hresetTime, hfound⟩

theorem update_remaining_of_halfReadable {limiter : RateLimiter} {response : HttpResponse}
    (h : limiter.HalfReadable response) :
    (limiter.update response).remaining ≠ limiter.remaining := by
  obtain ⟨status, reset, remaining, thrown, hstatus, hreset, hstoi, hstoll, hne⟩ := h
  simpa only [update, hstatus, hreset, hstoi, hstoll] using hne

theorem update_remaining_of_not_halfReadable {limiter : RateLimiter} {response : HttpResponse}
    (hnone : response.budget? = none) (h : ¬ limiter.HalfReadable response) :
    (limiter.update response).remaining = limiter.remaining := by
  by_cases hcarries : response.CarriesRateHeaders
  · obtain ⟨status, hstatus⟩ := Option.isSome_iff_exists.mp hcarries.1
    obtain ⟨reset, hreset⟩ := Option.isSome_iff_exists.mp hcarries.2
    cases hstoi : stoi status with
    | error thrown => simp only [update, hstatus, hreset, hstoi]
    | ok remaining =>
        cases hstoll : stoll reset with
        | error thrown =>
            -- the reset time throws behind a budget that is stored already
            have hsame : remaining = limiter.remaining := by
              apply Classical.byContradiction
              intro hne
              exact h ⟨status, reset, remaining, thrown, hstatus, hreset, hstoi, hstoll, hne⟩
            simp only [update, hstatus, hreset, hstoi, hstoll, hsame]
        | ok resetTime =>
            simp only [HttpResponse.budget?, hstatus, hreset, hstoi, hstoll] at hnone
            cases hnone
  · rw [update_of_no_headers limiter hcarries]

theorem not_halfReadable_of_some (limiter : RateLimiter) {response : HttpResponse}
    {budget : Int × Int} (h : response.budget? = some budget) :
    ¬ limiter.HalfReadable response := by
  rintro ⟨status, reset, remaining, thrown, hstatus, hreset, hstoi, hstoll, -⟩
  simp only [HttpResponse.budget?, hstatus, hreset, hstoi, hstoll] at h
  cases h

theorem updatesAtomically_iff (limiter : RateLimiter) (response : HttpResponse) :
    limiter.UpdatesAtomically response ↔ ¬ limiter.HalfReadable response := by
  cases hbudget : response.budget? with
  | some budget =>
      exact iff_of_true (updatesAtomically_of_some limiter hbudget)
        (not_halfReadable_of_some limiter hbudget)
  | none =>
      rw [updatesAtomically_iff_of_none limiter hbudget]
      exact ⟨fun hkept hhalf => update_remaining_of_halfReadable hhalf hkept,
        update_remaining_of_not_halfReadable hbudget⟩

end RateLimiter

/-! ### Runs -/

/-- The responses among the events. -/
def responsesOf (events : List LimiterEvent) : List HttpResponse :=
  events.filterMap fun event =>
    match event with
    | .wait .. => none
    | .update response => some response

/-- The response of an event, if it is one, can be read as a whole or not at all. -/
def NotHalfReadable (s : LimiterState) : LimiterEvent → Prop
  | .wait .. => True
  | .update response => ¬ s.limiter.HalfReadable response

theorem fromOneOf_step {responses : List HttpResponse} {s next : LimiterState}
    {event : LimiterEvent} (hfrom : s.limiter.FromOneOf responses)
    (hcond : NotHalfReadable s event)
    (hmem : ∀ response, event = .update response → response ∈ responses)
    (hstep : s.step event = some next) : next.limiter.FromOneOf responses := by
  cases event with
  | wait now nowAfterWait returned =>
      simp only [LimiterState.step, Option.ite_none_right_eq_some, Option.some.injEq] at hstep
      obtain ⟨-, rfl⟩ := hstep
      exact (RateLimiter.sameBudget_wait s.limiter now nowAfterWait).fromOneOf hfrom
  | update response =>
      obtain rfl := Option.some.inj hstep
      rcases (RateLimiter.updatesAtomically_iff s.limiter response).mpr hcond with htaken | hsame
      · exact .inr ⟨response, hmem response rfl, htaken⟩
      · exact hsame.fromOneOf hfrom

theorem fromOneOf_run {clock : Int} {events : List LimiterEvent} {final : LimiterState}
    (halong : Machine.Along LimiterState.step NotHalfReadable (.initial clock) events)
    (hrun : Machine.run LimiterState.step (.initial clock) events = some final) :
    final.limiter.FromOneOf (responsesOf events) := by
  have hall := Machine.along_and_of_forall (P := (· ∈ events)) halong fun _ h => h
  have hkept : ∀ (s : LimiterState) (event : LimiterEvent) (next : LimiterState),
      s.limiter.FromOneOf (responsesOf events) → NotHalfReadable s event ∧ event ∈ events →
        s.step event = some next → next.limiter.FromOneOf (responsesOf events) := by
    rintro s event next hfrom ⟨hcond, hevent⟩ hstep
    apply fromOneOf_step hfrom hcond _ hstep
    rintro response rfl
    exact List.mem_filterMap.mpr ⟨_, hevent, rfl⟩
  exact Machine.invariant_of_run hkept (.inl ⟨rfl, rfl, rfl⟩) hall hrun

/-- **When a header update is atomic.**  An `update` takes both headers of a response or
    leaves the budget alone, unless the first one reads as another budget and the second
    one throws.  In a run without such a response the limiter goes, in every state, by
    no response or by a single one. -/
theorem updates_atomic_iff (limiter : RateLimiter) (response : HttpResponse) (clock : Int)
    (events : List LimiterEvent) :
    (limiter.UpdatesAtomically response ↔ ¬ limiter.HalfReadable response) ∧
    ∀ final : LimiterState,
      Machine.Along LimiterState.step NotHalfReadable (.initial clock) events →
      Machine.run LimiterState.step (.initial clock) events = some final →
        final.limiter.FromOneOf (responsesOf events) :=
  ⟨limiter.updatesAtomically_iff response, fun _ halong hrun => fromOneOf_run halong hrun⟩

theorem updates_atomic_iff_threeRemain :
    ({} : RateLimiter).UpdatesAtomically threeRemain ∧
      threeLeft.state.limiter.FromOneOf [threeRemain] := by
  have hreadable := RateLimiter.not_halfReadable_of_some {} budget_threeRemain
  have hstep : LimiterState.step (.initial 0) (.update threeRemain) = some threeLeft.state := by
    simp only [LimiterState.step, LimiterState.initial,
      RateLimiter.update_of_some _ budget_threeRemain]
    rfl
  obtain ⟨hiff, hrun⟩ := updates_atomic_iff {} threeRemain 0 [.update threeRemain]
  refine ⟨hiff.mpr hreadable, hrun threeLeft.state ?_ ?_⟩
  · exact Machine.along_cons hreadable hstep trivial
  · exact Machine.run_cons_eq_some.mpr ⟨_, hstep, rfl⟩

/-- One request remains until an instant that is no number. -/
def resetUnreadable : HttpResponse :=
  { result := 200
    fields := [("X-Bapi-Limit-Status", "1"), ("X-Bapi-Limit-Reset", "soon")]
    body := "" }

/-- One request remains, by this response, until the reset of the response before. -/
theorem update_not_atomic :
    ¬ ∀ (limiter : RateLimiter) (response : HttpResponse),
      limiter.UpdatesAtomically response := by
  intro h
  have hhalf : threeLeft.state.limiter.HalfReadable resetUnreadable :=
    ⟨"1", "soon", 1, .invalidArgument, by decide +kernel, by decide +kernel, by decide +kernel,
      by decide +kernel, by decide⟩
  exact (RateLimiter.updatesAtomically_iff _ _).mp (h _ _) hhalf

end BybitApi
