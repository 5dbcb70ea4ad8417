import BybitApi.HeaderUpdates
import BybitApi.WindowShape
import Mathlib.Tactic.Ring
import Mathlib.Tactic.SplitIfs

/-!
# The limiter and its history

`RateLimiter` keeps a window that it prunes, a budget that it overwrites and a flag.
What it is for can be said without them, over all calls and all responses so far:
`LimiterHistory` forgets nothing, and the limiter has exactly its runs
(`limiter_follows_history`).

From the window that is left of the history comes the rate in local mode.  The limit of
ten calls in a second fails by one at most, over any number of seconds
(`local_rate_bounded`).
-/

namespace BybitApi

/-! ### What the limiter is to do -/

/-- What a response makes `update` store in `remaining`. -/
def HttpResponse.remaining? (response : HttpResponse) : Option Int :=
  match response.find "X-Bapi-Limit-Status", response.find "X-Bapi-Limit-Reset" with
  | some status, some _ => (stoi status).toOption
  | _, _ => none

/-- All calls that have returned, and all responses. -/
structure LimiterHistory where
  clock : Int
  calls : List WaitCall
  responses : List HttpResponse
deriving DecidableEq, Repr

namespace LimiterHistory

/-- When the calls began that did so in the second before `now`. -/
def startedSince (h : LimiterHistory) (now : Int) : List Int :=
  (h.calls.map WaitCall.recorded).filter fun t => decide (now - t ≤ windowSizeMs)

/-- The requests that remain by the last response that tells. -/
def remaining (h : LimiterHistory) : Int :=
  (h.responses.filterMap HttpResponse.remaining?).getLast?.getD 50

/-- The reset time of the last response that has a budget. -/
def resetTime? (h : LimiterHistory) : Option Int :=
  (h.responses.filterMap HttpResponse.budget?).getLast?.map Prod.snd

/-- How long a call that begins at `now` is to sleep: until the reset when the budget is
    low, or, while there is none, until the first call of the last second is too old. -/
def sleep (h : LimiterHistory) (now : Int) : Option Int :=
  match h.resetTime? with
  | some resetTime =>
      if h.remaining ≤ 2 ∧ now < resetTime then some (resetTime - now + 50) else none
  | none =>
      if localLimit ≤ (h.startedSince now).length then
        some ((h.startedSince now).headD 0 + windowSizeMs - now + 10)
      else none

def step (h : LimiterHistory) : LimiterEvent → Option LimiterHistory
  | .wait now nowAfterWait returned =>
      if ReadingsInOrder h.clock now nowAfterWait returned (h.sleep now) then
        some
          { h with
            clock := returned
            calls := h.calls ++ [{ recorded := now, returned := returned }] }
      else none
  | .update response => some { h with responses := h.responses ++ [response] }

def initial (clock : Int) : LimiterHistory := { clock := clock, calls := [], responses := [] }

theorem remaining_update (h : LimiterHistory) (response : HttpResponse) :
    remaining { h with responses := h.responses ++ [response] } =
      response.remaining?.getD h.remaining := by
  cases hremaining : response.remaining? <;>
    simp [remaining, List.filterMap_append, hremaining]

theorem resetTime?_update (h : LimiterHistory) (response : HttpResponse) :
    resetTime? { h with responses := h.responses ++ [response] } =
      (response.budget?.map Prod.snd).or h.resetTime? := by
  cases hbudget : response.budget? <;> simp [resetTime?, List.filterMap_append, hbudget]

end LimiterHistory

theorem RateLimiter.remaining_update (limiter : RateLimiter) (response : HttpResponse) :
    (limiter.update response).remaining = response.remaining?.getD limiter.remaining := by
  cases hstatus : response.find "X-Bapi-Limit-Status" with
  | none => simp only [RateLimiter.update, HttpResponse.remaining?, hstatus, Option.getD_none]
  | some status =>
      cases hreset : response.find "X-Bapi-Limit-Reset" with
      | none =>
          simp only [RateLimiter.update, HttpResponse.remaining?, hstatus, hreset,
            Option.getD_none]
      | some reset =>
          simp only [RateLimiter.update, HttpResponse.remaining?, hstatus, hreset]
          cases stoi status with
          | error thrown => rfl
          | ok remaining => cases stoll reset <;> rfl

/-! ### The window and the calls -/

/-- Popping the front of an ordered list leaves the entries that are not to be popped. -/
theorem dropWhile_eq_filter {α : Type} {p : α → Bool} {entries : List α}
    (h : entries.Pairwise fun x y => p y = true → p x = true) :
    entries.dropWhile p = entries.filter fun x => !p x := by
  induction entries with
  | nil => rfl
  | cons x rest ih =>
      obtain ⟨hx, hrest⟩ := List.pairwise_cons.mp h
      cases hpx : p x with
      | true =>
          rw [List.dropWhile_cons_of_pos hpx, List.filter_cons_of_neg (by simp [hpx]), ih hrest]
      | false =>
          have hkept : ∀ y ∈ rest, p y = false := by
            intro y hy
            cases hpy : p y with
            | true => exact absurd (hx y hy hpy) (by simp [hpx])
            | false => rfl
          rw [List.dropWhile_cons_of_neg (by simp [hpx]), List.filter_cons_of_pos (by simp [hpx]),
            List.filter_eq_self.mpr fun y hy => by simp [hkept y hy]]

/-- The calls come one after the other, and in local mode those without an entry any
    more began before the window. -/
structure CallsInv (s : LimiterState) : Prop where
  timed : ∀ call ∈ s.calls, call.recorded ≤ call.returned ∧ call.returned ≤ s.clock
  inOrder : s.calls.Pairwise fun call later => call.returned ≤ later.recorded
  entries : s.limiter.serverHeadersFound = false → ∃ expired live,
    s.calls = expired ++ live ∧ s.limiter.requestTimes = live.map WaitCall.recorded ∧
      ∀ call ∈ expired, call.recorded + windowSizeMs < s.clock

/-- No step leads back into local mode. -/
theorem LimiterState.isLocal_of_step (s : LimiterState) {event : LimiterEvent}
    {next : LimiterState} (hstep : s.step event = some next)
    (hlocal : next.limiter.serverHeadersFound = false) :
    s.limiter.serverHeadersFound = false := by
  cases event with
  | wait now nowAfterWait returned =>
      simp only [LimiterState.step, Option.ite_none_right_eq_some, Option.some.injEq] at hstep
      obtain ⟨-, rfl⟩ := hstep
      rw [← (RateLimiter.sameBudget_wait s.limiter now nowAfterWait).2.2, hlocal]
  | update response =>
      obtain rfl := Option.some.inj hstep
      cases hbudget : response.budget? with
      | none => rw [← (RateLimiter.update_of_none s.limiter hbudget).1, hlocal]
      | some budget =>
          rw [RateLimiter.update_of_some s.limiter hbudget] at hlocal
          cases hlocal

theorem callsInv_initial (clock : Int) : CallsInv (.initial clock) where
  timed := fun _ hcall => nomatch hcall
  inOrder := List.Pairwise.nil
  entries := fun _ => ⟨[], [], rfl, rfl, fun _ hcall => nomatch hcall⟩

/-- The first readings of the calls are in order. -/
theorem CallsInv.recorded_ordered {s : LimiterState} (hinv : CallsInv s) :
    s.calls.Pairwise fun call later => call.recorded ≤ later.recorded := by
  apply hinv.inOrder.imp_of_mem
  intro call later hcall _ hle
  exact (hinv.timed call hcall).1.trans hle

/-- Popping at a reading splits the calls into those that began before the window and
    those that keep their entry. -/
theorem popExpired_split {calls expired live : List WaitCall} {clock reading : Int}
    (hcalls : calls = expired ++ live) (hclock : clock ≤ reading)
    (hexpired : ∀ call ∈ expired, call.recorded + windowSizeMs < clock) :
    ∃ expired' live', calls = expired' ++ live' ∧
      popExpired reading (live.map WaitCall.recorded) = live'.map WaitCall.recorded ∧
      ∀ call ∈ expired', call.recorded + windowSizeMs < reading := by
  refine ⟨expired ++
      live.takeWhile (fun call => decide (reading - call.recorded > windowSizeMs)),
    live.dropWhile (fun call => decide (reading - call.recorded > windowSizeMs)),
    ?_, popExpired_map reading live, ?_⟩
  · rw [List.append_assoc, List.takeWhile_append_dropWhile, hcalls]
  · intro call hcall
    rcases List.mem_append.mp hcall with hold | hnew
    · have hlt := hexpired call hold
      omega
    · have hout := List.mem_takeWhile_imp hnew
      simp only [gt_iff_lt, decide_eq_true_eq] at hout
      omega

theorem callsInv_step (s : LimiterState) (event : LimiterEvent) (next : LimiterState)
    (hinv : CallsInv s) (hstep : s.step event = some next) : CallsInv next := by
  cases event with
  | update response =>
      obtain rfl := Option.some.inj hstep
      refine { timed := hinv.timed, inOrder := hinv.inOrder, entries := ?_ }
      intro hlocal
      rw [requestTimes_update]
      have hstep : s.step (.update response) = some _ := rfl
      exact hinv.entries (s.isLocal_of_step hstep hlocal)
  | wait now nowAfterWait returned =>
      simp only [LimiterState.step, Option.ite_none_right_eq_some, Option.some.injEq] at hstep
      obtain ⟨hreadings, rfl⟩ := hstep
      obtain ⟨hclock, hreturned⟩ := hreadings.le_returned
      refine { timed := ?_, inOrder := ?_, entries := ?_ }
      · intro call hcall
        rcases List.mem_append.mp hcall with hold | hnew
        · obtain ⟨hstarted, hended⟩ := hinv.timed call hold
          exact ⟨hstarted, hended.trans (hclock.trans hreturned)⟩
        · rw [List.mem_singleton.mp hnew]
          exact ⟨hreturned, le_refl _⟩
      · rw [List.pairwise_append]
        refine ⟨hinv.inOrder, List.pairwise_singleton _ _, ?_⟩
        intro call hcall later hlater
        rw [List.mem_singleton.mp hlater]
        exact (hinv.timed call hcall).2.trans hclock
      · intro hmode
        rw [(RateLimiter.sameBudget_wait s.limiter now nowAfterWait).2.2] at hmode
        obtain ⟨expired, live, hcalls, htimes, hexpired⟩ := hinv.entries hmode
        obtain ⟨expired₁, live₁, hcalls₁, hpop₁, hexpired₁⟩ :=
          popExpired_split hcalls hclock hexpired
        rcases s.limiter.wait_local hmode now nowAfterWait with
          ⟨-, hwait⟩ | ⟨oldest, rest, hpop, hage, hwait⟩
        · refine ⟨expired₁, live₁ ++ [{ recorded := now, returned := returned }], ?_, ?_, ?_⟩
          · rw [hcalls₁, List.append_assoc]
          · rw [hwait, List.map_append, ← hpop₁, htimes]
            rfl
          · intro call hcall
            exact (hexpired₁ call hcall).trans_le hreturned
        · -- the second reading pops once more
          rw [hwait] at hreadings
          obtain ⟨-, hslept, hafter⟩ := hreadings
          obtain ⟨expired₂, live₂, hcalls₂, hpop₂, hexpired₂⟩ :=
            popExpired_split hcalls₁ (by omega : now ≤ nowAfterWait) hexpired₁
          refine ⟨expired₂, live₂ ++ [{ recorded := now, returned := returned }], ?_, ?_, ?_⟩
          · rw [hcalls₂, List.append_assoc]
          · rw [hwait, List.map_append, ← hpop₂, ← hpop₁, ← htimes, hpop]
            rfl
          · intro call hcall
            exact (hexpired₂ call hcall).trans_le hafter

/-! ### The limiter keeps what matters -/

/-- The limiter is what the history makes of it. -/
structure Represents (s : LimiterState) (h : LimiterHistory) : Prop where
  clock : s.clock = h.clock
  calls : s.calls = h.calls
  remaining : s.limiter.remaining = h.remaining
  mode : s.limiter.serverHeadersFound = h.resetTime?.isSome
  resetTime : ∀ resetTime ∈ h.resetTime?, s.limiter.resetTime = resetTime
  inv : CallsInv s

/-- What is left of the window are the calls of the last second. -/
theorem Represents.window {s : LimiterState} {h : LimiterHistory} (hrep : Represents s h)
    (hlocal : s.limiter.serverHeadersFound = false) {now : Int} (hclock : s.clock ≤ now) :
    popExpired now s.limiter.requestTimes = h.startedSince now := by
  obtain ⟨expired, live, hcalls, htimes, hexpired⟩ := hrep.inv.entries hlocal
  have hordered := hrep.inv.recorded_ordered
  rw [hcalls, List.pairwise_append] at hordered
  have hgone : (expired.map WaitCall.recorded).filter
      (fun t => decide (now - t ≤ windowSizeMs)) = [] := by
    rw [List.filter_eq_nil_iff]
    intro t ht
    obtain ⟨call, hcall, rfl⟩ := List.mem_map.mp ht
    have hlt := hexpired call hcall
    simp only [decide_eq_true_eq]
    omega
  have hlive : (live.map WaitCall.recorded).Pairwise fun t later =>
      decide (now - later > windowSizeMs) = true → decide (now - t > windowSizeMs) = true := by
    rw [List.pairwise_map]
    apply hordered.2.1.imp
    intro call later hle
    simp only [decide_eq_true_eq]
    omega
  rw [LimiterHistory.startedSince, ← hrep.calls, hcalls, List.map_append, List.filter_append,
    hgone, List.nil_append, htimes, popExpired, dropWhile_eq_filter hlive]
  apply List.filter_congr
  intro t _
  rw [← decide_not, decide_eq_decide]
  omega

/-- A call sleeps for as long as the history says. -/
theorem Represents.sleep {s : LimiterState} {h : LimiterHistory} (hrep : Represents s h)
    {now : Int} (hclock : s.clock ≤ now) (nowAfterWait : Int) :
    (s.limiter.wait now nowAfterWait).1 = h.sleep now := by
  cases hreset : h.resetTime? with
  | some resetTime =>
      have hmode := hrep.mode
      rw [hreset, Option.isSome_some] at hmode
      simp only [RateLimiter.wait, LimiterHistory.sleep, hmode, hreset, hrep.remaining,
        hrep.resetTime resetTime hreset, if_true, gt_iff_lt]
      by_cases hlow : h.remaining ≤ 2
      · by_cases hbefore : now < resetTime <;> simp [hlow, hbefore]
      · simp [hlow]
  | none =>
      have hmode := hrep.mode
      rw [hreset, Option.isSome_none] at hmode
      have hleft := hrep.window hmode hclock
      simp only [LimiterHistory.sleep, hreset]
      rcases s.limiter.wait_local hmode now nowAfterWait with
        ⟨hroom, hwait⟩ | ⟨oldest, rest, hpop, hage, hwait⟩
      · rw [hleft] at hroom
        rw [hwait, if_neg (by omega)]
      · have hfull : localLimit ≤ (popExpired now s.limiter.requestTimes).length := by
          apply Classical.byContradiction
          intro hroom
          simp [RateLimiter.wait, hmode, hroom] at hwait
        rw [hleft] at hpop hfull
        rw [hwait, if_pos hfull, hpop, List.headD_cons]

theorem represents_initial (clock : Int) :
    Represents (.initial clock) (.initial clock) where
  clock := rfl
  calls := rfl
  remaining := rfl
  mode := rfl
  resetTime := fun _ hreset => nomatch hreset
  inv := callsInv_initial clock

theorem Represents.update {s : LimiterState} {h : LimiterHistory} (hrep : Represents s h)
    (response : HttpResponse) :
    Represents { s with limiter := s.limiter.update response }
      { h with responses := h.responses ++ [response] } where
  clock := hrep.clock
  calls := hrep.calls
  remaining := by
    rw [LimiterHistory.remaining_update, ← hrep.remaining]
    exact s.limiter.remaining_update response
  mode := by
    rw [LimiterHistory.resetTime?_update]
    cases hbudget : response.budget? with
    | none => exact (RateLimiter.update_of_none s.limiter hbudget).1.trans hrep.mode
    | some budget =>
        rw [RateLimiter.update_of_some s.limiter hbudget]
        rfl
  resetTime := by
    rw [LimiterHistory.resetTime?_update]
    cases hbudget : response.budget? with
    | none =>
        rw [(RateLimiter.update_of_none s.limiter hbudget).2]
        exact hrep.resetTime
    | some budget =>
        rw [RateLimiter.update_of_some s.limiter hbudget]
        rintro resetTime ⟨⟩
        rfl
  inv := callsInv_step s (.update response) _ hrep.inv rfl

theorem represents_step (s : LimiterState) (h : LimiterHistory) (event : LimiterEvent)
    (hrep : Represents s h) : Option.Rel Represents (s.step event) (h.step event) := by
  cases event with
  | update response => exact .some (hrep.update response)
  | wait now nowAfterWait returned =>
      by_cases hclock : s.clock ≤ now
      · have hsleep := hrep.sleep hclock nowAfterWait
        simp only [LimiterState.step, LimiterHistory.step, hsleep, ← hrep.clock]
        by_cases hreadings : ReadingsInOrder s.clock now nowAfterWait returned (h.sleep now)
        · rw [if_pos hreadings, if_pos hreadings]
          have hbudget := RateLimiter.sameBudget_wait s.limiter now nowAfterWait
          apply Option.Rel.some
          refine
            { clock := rfl
              calls := by rw [hrep.calls]
              remaining := hbudget.1.trans hrep.remaining
              mode := hbudget.2.2.trans hrep.mode
              resetTime := fun resetTime hreset =>
                hbudget.2.1.trans (hrep.resetTime resetTime hreset)
              inv := ?_ }
          apply callsInv_step s (.wait now nowAfterWait returned) _ hrep.inv
          rw [LimiterState.step, hsleep, if_pos hreadings]
        · rw [if_neg hreadings, if_neg hreadings]
          exact .none
      · -- the clock does not go back in either of them
        rw [LimiterState.step, LimiterHistory.step, if_neg fun h => hclock h.1,
          if_neg fun h' => hclock (hrep.clock ▸ h'.1)]
        exact .none

/-- **The limiter forgets nothing that matters.**  Any sequence of calls and responses is
    a run of the limiter if and only if it is one of the limiter that keeps all calls and
    all responses and decides by them alone, and the calls then return at the same
    instants. -/
theorem limiter_follows_history (clock : Int) (events : List LimiterEvent) :
    (Machine.run LimiterState.step (.initial clock) events).map
        (fun s => (s.clock, s.calls)) =
      (Machine.run LimiterHistory.step (.initial clock) events).map
        (fun h => (h.clock, h.calls)) := by
  have hrel : Option.Rel Represents (Machine.run LimiterState.step (.initial clock) events)
      (Machine.run LimiterHistory.step (.initial clock) events) :=
    Machine.run_rel represents_step (represents_initial clock) events
  generalize Machine.run LimiterState.step (.initial clock) events = final at hrel ⊢
  generalize Machine.run LimiterHistory.step (.initial clock) events = history at hrel ⊢
  cases hrel with
  | none => rfl
  | some hrep => rw [Option.map_some, Option.map_some, hrep.clock, hrep.calls]

/-! ### The rate in local mode -/

/-- At most one of the calls that come one after the other is in progress at an instant. -/
theorem one_in_progress {calls : List WaitCall} (t : Int)
    (hinOrder : calls.Pairwise fun call later => call.returned ≤ later.recorded) :
    (calls.filter fun call => decide (call.recorded < t ∧ t ≤ call.returned)).length ≤ 1 := by
  induction calls with
  | nil => exact Nat.zero_le _
  | cons call rest ih =>
      obtain ⟨hlater, hrest⟩ := List.pairwise_cons.mp hinOrder
      by_cases hin : call.recorded < t ∧ t ≤ call.returned
      · have hnone : (rest.filter fun c => decide (c.recorded < t ∧ t ≤ c.returned)) = [] := by
          rw [List.filter_eq_nil_iff]
          intro later hmem
          have hle := hlater later hmem
          simp only [decide_eq_true_eq]
          omega
        rw [List.filter_cons_of_pos (by simpa using hin), hnone, List.length_singleton]
      · rw [List.filter_cons_of_neg (by simpa using hin)]
        exact ih hrest

/-- Among calls of which those without an entry began before a reading, the second
    before the reading holds those with an entry, and the call in progress at its
    beginning. -/
theorem returnedWithin_of_entries {calls expired live : List WaitCall} {t reading : Int}
    (hinOrder : calls.Pairwise fun call later => call.returned ≤ later.recorded)
    (hcalls : calls = expired ++ live)
    (hexpired : ∀ call ∈ expired, call.recorded + windowSizeMs < reading)
    (hreading : reading ≤ t + windowSizeMs) :
    (returnedWithin t calls).length ≤ live.length + 1 := by
  have hlive : (returnedWithin t live).length ≤ live.length := List.length_filter_le _ _
  have hold : (returnedWithin t expired).length ≤ 1 := by
    rw [hcalls, List.pairwise_append] at hinOrder
    refine le_trans ?_ (one_in_progress t hinOrder.1)
    rw [returnedWithin, ← List.countP_eq_length_filter, ← List.countP_eq_length_filter]
    apply List.countP_mono_left
    intro call hcall hin
    have hlt := hexpired call hcall
    simp only [decide_eq_true_eq] at hin ⊢
    omega
  rw [hcalls, returnedWithin, List.filter_append, ← returnedWithin, ← returnedWithin,
    List.length_append]
  omega

/-- In local mode at most eleven calls have returned within any second. -/
structure RateInv (s : LimiterState) : Prop where
  calls : CallsInv s
  shape : ShapeInv s
  rate : s.limiter.serverHeadersFound = false →
    ∀ t, (returnedWithin t s.calls).length ≤ localLimit + 1

theorem rateInv_initial (clock : Int) : RateInv (.initial clock) where
  calls := callsInv_initial clock
  shape := shapeInv_initial clock
  rate := fun _ _ => Nat.zero_le _

theorem rateInv_step (s : LimiterState) (event : LimiterEvent) (next : LimiterState)
    (hinv : RateInv s) (hstep : s.step event = some next) : RateInv next := by
  have hcalls := callsInv_step s event next hinv.calls hstep
  have hshape := shapeInv_step s event next hinv.shape hstep
  refine { calls := hcalls, shape := hshape, rate := ?_ }
  intro hlocal t
  have hbefore := hinv.rate (s.isLocal_of_step hstep hlocal) t
  cases event with
  | update response =>
      obtain rfl := Option.some.inj hstep
      exact hbefore
  | wait now nowAfterWait returned =>
      obtain ⟨expired, live, hsplit, htimes, hexpired⟩ := hcalls.entries hlocal
      have hsize := hshape.size
      rw [htimes, List.length_map] at hsize
      simp only [LimiterState.step, Option.ite_none_right_eq_some, Option.some.injEq] at hstep
      obtain ⟨-, rfl⟩ := hstep
      by_cases hin : t ≤ returned ∧ returned ≤ t + windowSizeMs
      · have hle := returnedWithin_of_entries hcalls.inOrder hsplit hexpired hin.2
        omega
      · rw [returnedWithin, List.filter_append, List.filter_cons_of_neg (by simpa using hin),
          List.filter_nil, List.append_nil]
        exact hbefore

/-- The calls that returned at `t`, at `t'` or between. -/
def returnedBetween (t t' : Int) (calls : List WaitCall) : List WaitCall :=
  calls.filter fun call => decide (t ≤ call.returned ∧ call.returned ≤ t')

theorem returnedBetween_le_add (t t' t'' : Int) (calls : List WaitCall) :
    (returnedBetween t t'' calls).length ≤
      (returnedBetween t t' calls).length + (returnedBetween t' t'' calls).length := by
  simp only [returnedBetween, ← List.countP_eq_length_filter]
  induction calls with
  | nil => exact Nat.zero_le _
  | cons call rest ih =>
      simp only [List.countP_cons, decide_eq_true_eq]
      have hcall : (if t ≤ call.returned ∧ call.returned ≤ t'' then 1 else 0) ≤
          (if t ≤ call.returned ∧ call.returned ≤ t' then 1 else 0) +
            if t' ≤ call.returned ∧ call.returned ≤ t'' then 1 else 0 := by
        split_ifs <;> omega
      omega

/-- A bound for any second is one for any number of seconds. -/
theorem length_within_seconds {calls : List WaitCall} {bound : Nat}
    (h : ∀ t, (returnedWithin t calls).length ≤ bound) (t : Int) (seconds : Nat) :
    (returnedBetween t (t + (seconds + 1) * windowSizeMs) calls).length ≤
      (seconds + 1) * bound := by
  induction seconds with
  | zero => simpa [returnedBetween, returnedWithin] using h t
  | succ seconds ih =>
      have hlast := h (t + (seconds + 1) * windowSizeMs)
      have hsplit := returnedBetween_le_add t (t + (seconds + 1) * windowSizeMs)
        (t + (seconds + 1) * windowSizeMs + windowSizeMs) calls
      have hend : t + ((seconds + 1 : Nat) + 1) * windowSizeMs =
          t + (seconds + 1) * windowSizeMs + windowSizeMs := by
        push_cast
        ring
      rw [hend, Nat.succ_mul (seconds + 1)]
      exact hsplit.trans (Nat.add_le_add ih hlast)

/-- **The rate in local mode.**  As long as no budget has been read, at most eleven calls
    in a second return in any number of seconds: the limit fails by one at most. -/
theorem local_rate_bounded (clock : Int) (events : List LimiterEvent) (s : LimiterState)
    (hrun : Machine.run LimiterState.step (.initial clock) events = some s)
    (hlocal : s.limiter.serverHeadersFound = false) (t : Int) (seconds : Nat) :
    (returnedBetween t (t + (seconds + 1) * windowSizeMs) s.calls).length ≤
      (seconds + 1) * (localLimit + 1) := by
  have hinv := Machine.invariant_of_run
    (fun s event next hinv _ hstep => rateInv_step s event next hinv hstep)
    (rateInv_initial clock) (Machine.along_true _ events) hrun
  exact length_within_seconds (hinv.rate hlocal) t seconds

/-- The bound is reached. -/
theorem local_rate_bounded_burstAfterSleep : ∃ s,
    Machine.run LimiterState.step (.initial 0) burstAfterSleep = some s ∧
      (returnedBetween 1010 2010 s.calls).length = localLimit + 1 ∧
      (returnedBetween 1010 3010 s.calls).length ≤ 2 * (localLimit + 1) := by
  refine ⟨_, rfl, by decide, ?_⟩
  exact local_rate_bounded 0 burstAfterSleep _ rfl rfl 1010 1

end BybitApi
