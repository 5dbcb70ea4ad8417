import BybitApi.LocalWindow
import BybitApi.ServerBudget
import Mathlib.Data.List.Basic

/-!
# The limiter after the reset

The first response with rate headers switches the limiter to server mode for good.
Responses of public endpoints carry none, so after the reset recorded last there may
be nothing to go by any more: `wait` keeps no window of its own in this mode, and
whoever calls it from then on is let through at once.  At most ten calls return in a
second after the reset if no more than ten are made in one (`throttled_of_sparse`);
eleven calls after a single private response are enough to exceed the limit
(`unthrottled_after_headers`).
-/

namespace BybitApi

/-- The reset recorded last, and when the last response with rate headers arrived. -/
structure SeenHeaders where
  resetTime : Int
  arrived : Int
deriving DecidableEq, Repr

/-- The limiter with the account kept of rate headers. -/
structure HeaderState where
  state : LimiterState
  seen : Option SeenHeaders
deriving DecidableEq, Repr

/-- A call as in `LimiterEvent`, or a response with the instant at which it arrives. -/
inductive TimedEvent where
  | wait (now nowAfterWait returned : Int)
  | update (arrived : Int) (response : HttpResponse)
deriving DecidableEq, Repr

/-- The account after a response.  Headers that cannot be read record no reset. -/
def seenAfter (seen : Option SeenHeaders) (arrived : Int) (response : HttpResponse) :
    Option SeenHeaders :=
  match response.budget? with
  | some (_, resetTime) => some { resetTime, arrived }
  | none =>
      if response.CarriesRateHeaders then seen.map fun h => { h with arrived := arrived } else seen

namespace HeaderState

def step (s : HeaderState) : TimedEvent → Option HeaderState
  | .wait now nowAfterWait returned =>
      (s.state.step (.wait now nowAfterWait returned)).map fun state => { s with state := state }
  | .update arrived response =>
      if s.state.clock ≤ arrived then
        (s.state.step (.update response)).map fun state =>
          { state := { state with clock := arrived }
            seen := seenAfter s.seen arrived response }
      else none

def initial (clock : Int) : HeaderState := { state := .initial clock, seen := none }

/-- At most ten calls have returned in every closed window of a second that begins at
    the reset recorded last or later and in which no response with rate headers has
    arrived. -/
def Throttled (s : HeaderState) : Prop :=
  ∀ seen ∈ s.seen, ∀ t, seen.resetTime ≤ t → seen.arrived < t →
    (returnedWithin t s.state.calls).length ≤ localLimit

/-- Where the window begins that a call at `now` would have to keep. -/
def windowStart (seen : SeenHeaders) (now : Int) : Int :=
  max (now - windowSizeMs) (max seen.resetTime (seen.arrived + 1))

/-- The calls that have returned since an instant. -/
def returnedSince (t : Int) (calls : List WaitCall) : List WaitCall :=
  calls.filter fun call => decide (t ≤ call.returned)

/-- A call made at the reset or later finds that fewer than ten have returned within
    the last second, after the reset and after the last response with rate headers. -/
def Sparse (s : HeaderState) : TimedEvent → Prop
  | .wait now _ _ => ∀ seen ∈ s.seen, seen.resetTime ≤ now →
      (returnedSince (windowStart seen now) s.state.calls).length < localLimit
  | .update _ _ => True

instance (s : HeaderState) : DecidablePred s.Sparse
  | .wait now _ _ =>
      inferInstanceAs (Decidable (∀ seen ∈ s.seen, seen.resetTime ≤ now →
        (returnedSince (windowStart seen now) s.state.calls).length < localLimit))
  | .update _ _ => .isTrue trivial

/-- Calls have returned by now, and the limiter goes by the reset recorded last. -/
structure Recorded (s : HeaderState) : Prop where
  returned : ∀ call ∈ s.state.calls, call.returned ≤ s.state.clock
  server : ∀ seen ∈ s.seen, s.state.limiter.serverHeadersFound = true ∧
    s.state.limiter.resetTime = seen.resetTime
  arrived : ∀ seen ∈ s.seen, seen.arrived ≤ s.state.clock

/-! ### Windows -/

/-- What has returned in a window has returned since its beginning. -/
theorem returnedWithin_le_since {t t' : Int} (h : t' ≤ t) (calls : List WaitCall) :
    (returnedWithin t calls).length ≤ (returnedSince t' calls).length := by
  apply List.Sublist.length_le
  apply List.monotone_filter_right
  intro call hin
  simp only [decide_eq_true_eq] at hin ⊢
  exact le_trans h hin.1

/-- A window that begins within the last second has not ended. -/
theorem returnedWithin_eq_since {t clock : Int} {calls : List WaitCall}
    (hreturned : ∀ call ∈ calls, call.returned ≤ clock) (ht : clock - windowSizeMs ≤ t) :
    returnedWithin t calls = returnedSince t calls := by
  apply List.filter_congr
  intro call hcall
  have hle := hreturned call hcall
  simp only [decide_eq_decide, and_iff_left_iff_imp]
  intro
  omega

theorem returnedWithin_concat (t : Int) (calls : List WaitCall) (call : WaitCall) :
    (returnedWithin t (calls ++ [call])).length =
      (returnedWithin t calls).length +
        if t ≤ call.returned ∧ call.returned ≤ t + windowSizeMs then 1 else 0 := by
  rw [returnedWithin, List.filter_append, ← returnedWithin, List.length_append]
  congr 1
  by_cases hin : t ≤ call.returned ∧ call.returned ≤ t + windowSizeMs
  · simp [hin]
  · simp [hin]

/-- Nothing has returned in a window yet to come. -/
theorem Recorded.returnedWithin_eq_nil {s : HeaderState} (hs : s.Recorded) {t : Int}
    (h : s.state.clock < t) : returnedWithin t s.state.calls = [] := by
  apply List.filter_eq_nil_iff.mpr
  intro call hcall hin
  simp only [decide_eq_true_eq] at hin
  exact absurd hin.1 (not_le.mpr ((hs.returned call hcall).trans_lt h))

/-! ### Runs -/

/-- What a call leaves behind. -/
theorem step_wait {s next : HeaderState} {now nowAfterWait returned : Int}
    (hstep : s.step (.wait now nowAfterWait returned) = some next) :
    ReadingsInOrder s.state.clock now nowAfterWait returned
        (s.state.limiter.wait now nowAfterWait).1 ∧
      next = { s with
        state := { limiter := (s.state.limiter.wait now nowAfterWait).2
                   clock := returned
                   calls := s.state.calls ++ [{ recorded := now, returned := returned }] } } := by
  obtain ⟨state, hstate, rfl⟩ := Option.map_eq_some_iff.mp hstep
  simp only [LimiterState.step, Option.ite_none_right_eq_some, Option.some.injEq] at hstate
  rcases hstate with ⟨hreadings, rfl⟩
  exact ⟨hreadings, rfl⟩

theorem step_update {s next : HeaderState} {arrived : Int} {response : HttpResponse}
    (hstep : s.step (.update arrived response) = some next) :
    s.state.clock ≤ arrived ∧
      next =
        { state := { limiter := s.state.limiter.update response
                     clock := arrived
                     calls := s.state.calls }
          seen := seenAfter s.seen arrived response } := by
  simp only [step, Option.ite_none_right_eq_some] at hstep
  rcases hstep with ⟨harrived, hstep⟩
  exact ⟨harrived, (Option.some.inj hstep).symm⟩

/-- Headers seen after a response: those from before, or they arrived just now. -/
theorem mem_seenAfter {old : Option SeenHeaders} {arrived : Int} {response : HttpResponse}
    {seen : SeenHeaders} (h : seen ∈ seenAfter old arrived response) :
    seen.arrived = arrived ∨ seen ∈ old := by
  unfold seenAfter at h
  split at h
  · obtain rfl := Option.some.inj h
    exact .inl rfl
  · split at h
    · obtain ⟨before, -, rfl⟩ := Option.map_eq_some_iff.mp h
      exact .inl rfl
    · exact .inr h

/-- A response that records no reset keeps the one recorded before. -/
theorem resetTime_of_seenAfter {old : Option SeenHeaders} {arrived : Int}
    {response : HttpResponse} {seen : SeenHeaders} (hnone : response.budget? = none)
    (h : seen ∈ seenAfter old arrived response) :
    ∃ before ∈ old, before.resetTime = seen.resetTime := by
  simp only [seenAfter, hnone] at h
  split at h
  · obtain ⟨before, hbefore, rfl⟩ := Option.map_eq_some_iff.mp h
    exact ⟨before, hbefore, rfl⟩
  · exact ⟨seen, h, rfl⟩

theorem recorded_step {s next : HeaderState} {event : TimedEvent} (hs : s.Recorded)
    (hstep : s.step event = some next) : next.Recorded := by
  cases event with
  | wait now nowAfterWait returned =>
      obtain ⟨hreadings, rfl⟩ := step_wait hstep
      obtain ⟨hclock, hnow⟩ := hreadings.le_returned
      refine ⟨?_, ?_, ?_⟩
      · intro call hcall
        rcases List.mem_append.mp hcall with hcall | hcall
        · exact le_trans (hs.returned call hcall) (le_trans hclock hnow)
        · obtain rfl := List.mem_singleton.mp hcall
          exact le_refl _
      · intro seen hseen
        obtain ⟨hserver, hreset⟩ := hs.server seen hseen
        rw [(RateLimiter.wait_server hserver now nowAfterWait).1]
        exact ⟨hserver, hreset⟩
      · intro seen hseen
        exact le_trans (hs.arrived seen hseen) (le_trans hclock hnow)
  | update arrived response =>
      obtain ⟨harrived, rfl⟩ := step_update hstep
      refine ⟨?_, ?_, ?_⟩
      · intro call hcall
        exact le_trans (hs.returned call hcall) harrived
      · intro seen hseen
        cases hbudget : response.budget? with
        | some budget =>
            simp only [seenAfter, hbudget, Option.mem_some_iff] at hseen
            obtain rfl := hseen
            simp only [RateLimiter.update_of_some _ hbudget, and_self]
        | none =>
            obtain ⟨hserver, hreset⟩ := RateLimiter.update_of_none s.state.limiter hbudget
            obtain ⟨before, hbefore, heq⟩ := resetTime_of_seenAfter hbudget hseen
            simp only [hserver, hreset, ← heq]
            exact hs.server before hbefore
      · intro seen hseen
        rcases mem_seenAfter hseen with heq | hold
        · exact le_of_eq heq
        · exact le_trans (hs.arrived seen hold) harrived

/-- A call made before the reset finds nothing returned since the reset; one made at it
    or later has room. -/
theorem throttled_step {s next : HeaderState} {event : TimedEvent} (hs : s.Recorded)
    (hthrottled : s.Throttled) (hsparse : s.Sparse event) (hstep : s.step event = some next) :
    next.Throttled := by
  intro seen hseen t hreset hafter
  cases event with
  | update arrived response =>
      obtain ⟨harrived, rfl⟩ := step_update hstep
      rcases mem_seenAfter hseen with heq | hold
      · have hclock : s.state.clock < t := by omega
        rw [hs.returnedWithin_eq_nil hclock]
        exact Nat.zero_le _
      · exact hthrottled seen hold t hreset hafter
  | wait now nowAfterWait returned =>
      obtain ⟨hreadings, rfl⟩ := step_wait hstep
      obtain ⟨hclock, hnow⟩ := hreadings.le_returned
      rw [returnedWithin_concat]
      split
      · rename_i hin
        apply Nat.succ_le_of_lt
        rcases lt_or_ge now seen.resetTime with hearly | hlate
        · rw [hs.returnedWithin_eq_nil (hclock.trans_lt (hearly.trans_le hreset))]
          decide
        · apply lt_of_le_of_lt _ (hsparse seen hseen hlate)
          apply returnedWithin_le_since
          simp only at hin
          unfold windowStart
          omega
      · exact hthrottled seen hseen t hreset hafter

/-- **A call that the limiter lets through.**  In server mode a call made at the reset
    or later can return at once, however many have just returned. -/
theorem returns_at_once {s : HeaderState} {seen : SeenHeaders} {now : Int} (hs : s.Recorded)
    (hseen : seen ∈ s.seen) (hclock : s.state.clock ≤ now) (hreset : seen.resetTime ≤ now) :
    ∃ next, s.step (.wait now now now) = some next ∧ next.seen = s.seen ∧
      next.state.calls = s.state.calls ++ [{ recorded := now, returned := now }] := by
  obtain ⟨hserver, hresetTime⟩ := hs.server seen hseen
  have hslept : (s.state.limiter.wait now now).1 = none := by
    have hpassed : ¬ s.state.limiter.resetTime > now := by omega
    simp only [RateLimiter.wait, hserver, if_true, hpassed, if_false, ite_self]
  have hreadings : ReadingsInOrder s.state.clock now now now (s.state.limiter.wait now now).1 := by
    rw [hslept]
    exact ⟨hclock, le_refl now⟩
  have hstep : s.step (.wait now now now) = some { s with
      state := { limiter := (s.state.limiter.wait now now).2
                 clock := now
                 calls := s.state.calls ++ [{ recorded := now, returned := now }] } } := by
    simp only [step, LimiterState.step, if_pos hreadings, Option.map_some]
  exact ⟨_, hstep, rfl, rfl⟩

/-- A call made without room for it, when it returns at once, is one too many. -/
theorem unthrottled_of_not_sparse {s : HeaderState} {now : Int} (hs : s.Recorded)
    (hclock : s.state.clock ≤ now) (hcrowded : ¬ s.Sparse (.wait now now now)) :
    ∃ next, s.step (.wait now now now) = some next ∧ ¬ next.Throttled := by
  simp only [Sparse, not_forall, not_lt] at hcrowded
  obtain ⟨seen, hseen, hreset, hcrowd⟩ := hcrowded
  obtain ⟨next, hstep, hnext, hcalls⟩ := returns_at_once hs hseen hclock hreset
  refine ⟨next, hstep, ?_⟩
  intro hthrottled
  have hreturned : ∀ call ∈ s.state.calls, call.returned ≤ now := by
    intro call hcall
    exact le_trans (hs.returned call hcall) hclock
  -- some of the ten have returned, so the window has begun
  have hbegun : windowStart seen now ≤ now := by
    obtain ⟨call, hcall⟩ := List.exists_mem_of_length_pos (lt_of_lt_of_le (by decide) hcrowd)
    obtain ⟨hmem, hsince⟩ := List.mem_filter.mp hcall
    exact le_trans (by simpa using hsince) (hreturned call hmem)
  have hstart : now - windowSizeMs ≤ windowStart seen now := le_max_left _ _
  have hwindow := hthrottled seen (hnext ▸ hseen) (windowStart seen now)
    (le_trans (le_max_left _ _) (le_max_right _ _))
    (lt_of_lt_of_le (Int.lt_succ _) (le_trans (le_max_right _ _) (le_max_right _ _)))
  rw [hcalls, returnedWithin_concat, if_pos ⟨hbegun, by simp only; omega⟩,
    returnedWithin_eq_since hreturned hstart] at hwindow
  omega

/-- **Calls after the reset.**  In every run in which each call made at the reset
    recorded last or later finds fewer than ten returned within the last second, after
    the reset and after the last response with rate headers, at most ten calls return
    in every closed window of a second that begins at the reset or later and in which
    no such response arrives.  The limiter sees to nothing of this: a call made in any
    other situation at the end of a run may return at once, and is one too many. -/
theorem throttled_of_sparse (clock : Int) (events : List TimedEvent) (final : HeaderState)
    (hrun : Machine.run step (.initial clock) events = some final) :
    (Machine.Along step Sparse (.initial clock) events →
      Machine.Throughout step Throttled (.initial clock) events) ∧
    ∀ now, final.state.clock ≤ now → ¬ final.Sparse (.wait now now now) →
      ∃ next, Machine.run step (.initial clock) (events ++ [.wait now now now]) = some next ∧
        ¬ next.Throttled := by
  have hstart : (HeaderState.initial clock).Recorded := by
    refine ⟨?_, ?_, ?_⟩
    · intro call hcall
      cases hcall
    · intro seen hseen
      cases hseen
    · intro seen hseen
      cases hseen
  constructor
  · intro halong
    have hthrottled : (HeaderState.initial clock).Throttled := by
      intro seen hseen
      cases hseen
    have hkept : ∀ (s : HeaderState) (event : TimedEvent) (next : HeaderState),
        s.Recorded ∧ s.Throttled → s.Sparse event → s.step event = some next →
          next.Recorded ∧ next.Throttled :=
      fun _ _ _ hs hsparse hstep =>
        ⟨recorded_step hs.1 hstep, throttled_step hs.1 hs.2 hsparse hstep⟩
    exact halong.throughout hkept (fun _ h => h.2) ⟨hstart, hthrottled⟩
  · intro now hclock hcrowded
    have hfinal : final.Recorded := by
      apply Machine.invariant_of_run _ hstart (Machine.along_true _ events) hrun
      intro s event next hs _ hstep
      exact recorded_step hs hstep
    obtain ⟨next, hstep, hlost⟩ := unthrottled_of_not_sparse hfinal hclock hcrowded
    refine ⟨next, ?_, hlost⟩
    rw [Machine.run_append _ hrun]
    exact Machine.run_cons_eq_some.mpr ⟨next, hstep, rfl⟩

/-- The limiter after a response that arrived at the instant 0 and after which three
    requests remain until 1000. -/
def resetAtThousand : HeaderState :=
  { state :=
      { limiter := { remaining := 3, resetTime := 1000, serverHeadersFound := true }
        clock := 0
        calls := [] }
    seen := some { resetTime := 1000, arrived := 0 } }

theorem step_of_budget {response : HttpResponse} (h : response.budget? = some (3, 1000)) :
    step (.initial 0) (.update 0 response) = some resetAtThousand := by
  simp only [step, initial, LimiterState.step, LimiterState.initial,
    RateLimiter.update_of_some _ h, seenAfter, h, Option.map_some, le_refl, if_true]
  rfl

/-- Ten calls at the reset, and one when they have left the window. -/
def callsAtReset : List TimedEvent :=
  List.replicate 10 (.wait 1000 1000 1000) ++ [.wait 2001 2001 2001]

theorem throttled_of_sparse_atReset :
    Machine.Throughout step Throttled (.initial 0) (.update 0 threeRemain :: callsAtReset) := by
  have hfirst := step_of_budget budget_threeRemain
  have hrun := Machine.run_cons_eq_some.mpr ⟨_, hfirst,
    (rfl : Machine.run step resetAtThousand callsAtReset = _)⟩
  apply (throttled_of_sparse 0 _ _ hrun).1
  exact Machine.along_cons trivial hfirst (by decide)

/-- **Unthrottled after headers.**  One private response, and eleven calls at its reset. -/
theorem unthrottled_after_headers :
    ¬ ∀ clock events final,
      Machine.run step (.initial clock) events = some final → final.Throttled := by
  intro h
  have hrun := Machine.run_cons_eq_some.mpr ⟨_, step_of_budget budget_threeRemain,
    (rfl : Machine.run step resetAtThousand (List.replicate 11 (.wait 1000 1000 1000)) = _)⟩
  have hthrottled := h 0 _ _ hrun { resetTime := 1000, arrived := 0 } rfl 1000 (le_refl _)
    (by decide)
  exact absurd hthrottled (by decide)

end HeaderState

end BybitApi
