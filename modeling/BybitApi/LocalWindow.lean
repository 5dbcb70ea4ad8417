import BybitApi.RateLimiter
import Mathlib.Data.List.TakeWhile

/-!
# The sliding window of the rate limiter

While no response has carried rate headers, `wait` is meant to let at most ten
calls return in a second.  A call that sleeps is recorded with the reading of
the clock before its sleep, so its entry expires too early, and the guarantee
fails: ten calls at once, one that sleeps, and ten more right after it make
eleven returns at one instant (`local_window_fails`).

What the limiter does guarantee rests on entries not expiring before their
calls have left the window: `local_window_of_onlyReturnedExpire`.
-/

namespace BybitApi

/-- The calls that returned in the closed window of `windowSizeMs` from `t` on. -/
def returnedWithin (t : Int) (calls : List WaitCall) : List WaitCall :=
  calls.filter fun call => decide (t ≤ call.returned ∧ call.returned ≤ t + windowSizeMs)

def KeepsLocalWindow (s : LimiterState) : Prop :=
  ∀ t, (returnedWithin t s.calls).length ≤ localLimit

/-- No response of the run carried rate headers. -/
def NoRateHeaders (events : List LimiterEvent) : Prop :=
  ∀ response, LimiterEvent.update response ∈ events → ¬ response.CarriesRateHeaders

/-- At every reading of the clock by which a call pops expired entries, the calls
    whose entries are out of the window have returned before the window, too. -/
def OnlyReturnedExpire (s : LimiterState) : LimiterEvent → Prop
  | .wait now nowAfterWait _ =>
      (∀ call ∈ s.calls, now - call.recorded > windowSizeMs →
        now - call.returned > windowSizeMs) ∧
      ((s.limiter.wait now nowAfterWait).1.isSome →
        ∀ call ∈ s.calls, nowAfterWait - call.recorded > windowSizeMs →
          nowAfterWait - call.returned > windowSizeMs)
  | .update _ => True

instance (s : LimiterState) (event : LimiterEvent) : Decidable (OnlyReturnedExpire s event) := by
  cases event <;> unfold OnlyReturnedExpire <;> infer_instance

/-! ### The entries and the calls they stand for -/

theorem popExpired_map (now : Int) (calls : List WaitCall) :
    popExpired now (calls.map WaitCall.recorded) =
      (calls.dropWhile fun call => decide (now - call.recorded > windowSizeMs)).map
        WaitCall.recorded := by
  rw [popExpired, List.dropWhile_map]
  rfl

theorem oldest_after_popExpired {now oldest : Int} {requestTimes rest : List Int}
    (h : popExpired now requestTimes = oldest :: rest) : now - oldest ≤ windowSizeMs := by
  have hhead := List.head?_dropWhile_not
    (fun t => decide (now - t > windowSizeMs)) requestTimes
  rw [← popExpired, h] at hhead
  simpa using hhead

/-- **What a call does in local mode.**  With fewer than ten entries left it is
    recorded and returns; otherwise it sleeps until the oldest entry has expired,
    expires entries once more, and is recorded under its first reading. -/
theorem RateLimiter.wait_local {limiter : RateLimiter}
    (hlocal : limiter.serverHeadersFound = false) (now nowAfterWait : Int) :
    ((popExpired now limiter.requestTimes).length < localLimit ∧
      limiter.wait now nowAfterWait = (none,
        { limiter with requestTimes := popExpired now limiter.requestTimes ++ [now] })) ∨
    (∃ oldest rest, popExpired now limiter.requestTimes = oldest :: rest ∧
      now - oldest ≤ windowSizeMs ∧
      limiter.wait now nowAfterWait = (some (oldest + windowSizeMs - now + 10),
        { limiter with
          requestTimes := popExpired nowAfterWait (oldest :: rest) ++ [now] })) := by
  by_cases hfull : localLimit ≤ (popExpired now limiter.requestTimes).length
  · right
    cases hpop : popExpired now limiter.requestTimes with
    | nil =>
        rw [hpop] at hfull
        exact absurd hfull (by decide)
    | cons oldest rest =>
        have hage := oldest_after_popExpired hpop
        have hwait : oldest + windowSizeMs - now + 10 > 0 := by omega
        rw [hpop] at hfull
        refine ⟨oldest, rest, rfl, hage, ?_⟩
        simp only [RateLimiter.wait, hlocal, hpop, Bool.false_eq_true, if_false, ge_iff_le,
          hfull, if_true, List.headD_cons, hwait]
  · left
    refine ⟨by omega, ?_⟩
    simp only [RateLimiter.wait, hlocal, Bool.false_eq_true, if_false, ge_iff_le, hfull]

/-- Between two calls: the entries are those of the last calls, and every call
    that has no entry any more returned before the window. -/
structure WindowInv (s : LimiterState) : Prop where
  isLocal : s.limiter.serverHeadersFound = false
  entries : ∃ expired live, s.calls = expired ++ live ∧
    s.limiter.requestTimes = live.map WaitCall.recorded ∧
    ∀ call ∈ expired, call.returned + windowSizeMs < s.clock
  size : s.limiter.requestTimes.length ≤ localLimit
  keeps : KeepsLocalWindow s

/-- Popping expired entries at a reading keeps the split of the calls into those
    that returned before the window and those that have an entry. -/
theorem split_after_popExpired {calls expired live : List WaitCall} {clock reading : Int}
    (hcalls : calls = expired ++ live) (hclock : clock ≤ reading)
    (hexpired : ∀ call ∈ expired, call.returned + windowSizeMs < clock)
    (hreturned : ∀ call ∈ calls, reading - call.recorded > windowSizeMs →
      reading - call.returned > windowSizeMs) :
    ∃ expired' live', calls = expired' ++ live' ∧
      popExpired reading (live.map WaitCall.recorded) = live'.map WaitCall.recorded ∧
      ∀ call ∈ expired', call.returned + windowSizeMs < reading := by
  refine ⟨expired ++
      live.takeWhile (fun call => decide (reading - call.recorded > windowSizeMs)),
    live.dropWhile (fun call => decide (reading - call.recorded > windowSizeMs)),
    ?_, popExpired_map reading live, ?_⟩
  · rw [List.append_assoc, List.takeWhile_append_dropWhile, hcalls]
  · intro call hcall
    rcases List.mem_append.mp hcall with hold | hnew
    · have hlt := hexpired call hold
      omega
    · have hout := List.mem_takeWhile_imp hnew
      have hmem : call ∈ calls := by
        rw [hcalls]
        exact List.mem_append_right _ ((List.takeWhile_sublist _).mem hnew)
      have hlt := hreturned call hmem (by simpa using hout)
      omega

/-- A call that returns while at most nine others have an entry leaves the
    window with at most ten returns. -/
theorem keepsLocalWindow_push {calls expired live : List WaitCall} {reading : Int}
    {call : WaitCall} (hcalls : calls = expired ++ live)
    (hexpired : ∀ c ∈ expired, c.returned + windowSizeMs < reading)
    (hreading : reading ≤ call.returned) (hroom : live.length < localLimit)
    (hkeeps : ∀ t, (returnedWithin t calls).length ≤ localLimit) (t : Int) :
    (returnedWithin t (calls ++ [call])).length ≤ localLimit := by
  rw [returnedWithin, List.filter_append, ← returnedWithin, ← returnedWithin,
    List.length_append]
  by_cases hin : t ≤ call.returned ∧ call.returned ≤ t + windowSizeMs
  · have hnone : returnedWithin t expired = [] := by
      rw [returnedWithin, List.filter_eq_nil_iff]
      intro c hc
      have hlt := hexpired c hc
      simp only [decide_eq_true_eq, not_and]
      omega
    have hlive : (returnedWithin t live).length ≤ live.length := List.length_filter_le _ _
    have hold : returnedWithin t calls = returnedWithin t live := by
      rw [hcalls, returnedWithin, List.filter_append, ← returnedWithin, ← returnedWithin,
        hnone, List.nil_append]
    have hnew : (returnedWithin t [call]).length ≤ 1 := List.length_filter_le _ _
    rw [hold]
    omega
  · have hnew : returnedWithin t [call] = [] := by
      simp [returnedWithin, hin]
    rw [hnew, List.length_nil, Nat.add_zero]
    exact hkeeps t

/-! ### Runs -/

/-- A recorded call keeps the invariant once there is room for it among the
    entries left. -/
theorem WindowInv.push {s : LimiterState} {expired live : List WaitCall}
    {now reading returned : Int} (hinv : WindowInv s)
    (hcalls : s.calls = expired ++ live)
    (hexpired : ∀ call ∈ expired, call.returned + windowSizeMs < reading)
    (hroom : live.length < localLimit) (hreading : reading ≤ returned) :
    WindowInv
      { limiter :=
          { s.limiter with requestTimes := live.map WaitCall.recorded ++ [now] }
        clock := returned
        calls := s.calls ++ [{ recorded := now, returned := returned }] } where
  isLocal := hinv.isLocal
  entries := by
    refine ⟨expired, live ++ [{ recorded := now, returned := returned }], ?_, by simp, ?_⟩
    · simp only [hcalls, List.append_assoc]
    · intro call hcall
      have hlt := hexpired call hcall
      simp only
      omega
  size := by
    simp only [List.length_append, List.length_map, List.length_singleton]
    omega
  keeps := keepsLocalWindow_push hcalls hexpired hreading hroom hinv.keeps

theorem windowInv_step (s : LimiterState) (event : LimiterEvent) (next : LimiterState)
    (hinv : WindowInv s)
    (hcond : OnlyReturnedExpire s event ∧
      ∀ response, event = .update response → ¬ response.CarriesRateHeaders)
    (hstep : s.step event = some next) : WindowInv next := by
  cases event with
  | update response =>
      simp only [LimiterState.step, Option.some.injEq] at hstep
      rw [← hstep, RateLimiter.update_of_no_headers _ (hcond.2 response rfl)]
      exact hinv
  | wait now nowAfterWait returned =>
      rcases hcond with ⟨⟨hfirst, hsecond⟩, -⟩
      simp only [LimiterState.step, Option.ite_none_right_eq_some, Option.some.injEq] at hstep
      rcases hstep with ⟨⟨hclock, hreadings⟩, rfl⟩
      obtain ⟨expired, live, hcalls, hentries, hexpired⟩ := hinv.entries
      obtain ⟨expired₁, live₁, hcalls₁, hpop₁, hexpired₁⟩ :=
        split_after_popExpired hcalls hclock hexpired hfirst
      rw [← hentries] at hpop₁
      have hsize₁ : live₁.length ≤ localLimit := by
        have hle := (List.dropWhile_sublist
          (fun t => decide (now - t > windowSizeMs)) (l := s.limiter.requestTimes)).length_le
        rw [← popExpired, hpop₁, List.length_map] at hle
        exact le_trans hle hinv.size
      rcases s.limiter.wait_local hinv.isLocal now nowAfterWait with
        ⟨hroom, hwait⟩ | ⟨oldest, rest, hfull, hage, hwait⟩
      · -- no sleep: fewer than ten entries are left at the first reading
        rw [hwait] at hreadings ⊢
        rw [hpop₁] at hroom ⊢
        exact hinv.push hcalls₁ hexpired₁ (by simpa using hroom) hreadings
      · -- the sleep outlasts the oldest entry, which is popped at the second reading
        rw [hwait] at hreadings hsecond ⊢
        rcases hreadings with ⟨hslept, hreturned⟩
        obtain ⟨expired₂, live₂, hcalls₂, hpop₂, hexpired₂⟩ :=
          split_after_popExpired hcalls₁ (by omega : now ≤ nowAfterWait) hexpired₁
            (hsecond rfl)
        rw [← hpop₁, hfull] at hpop₂
        have hroom₂ : live₂.length < localLimit := by
          have hdrop : popExpired nowAfterWait (oldest :: rest) =
              popExpired nowAfterWait rest := by
            rw [popExpired, List.dropWhile_cons_of_pos (by simp; omega), ← popExpired]
          have hle := (List.dropWhile_sublist
            (fun t => decide (nowAfterWait - t > windowSizeMs)) (l := rest)).length_le
          rw [← popExpired, ← hdrop, hpop₂, List.length_map] at hle
          have hlen : live₁.length = rest.length + 1 := by
            rw [← List.length_map (f := WaitCall.recorded), ← hpop₁, hfull,
              List.length_cons]
          omega
        rw [hpop₂]
        exact hinv.push hcalls₂ hexpired₂ hroom₂ hreturned

theorem windowInv_initial (clock : Int) : WindowInv (LimiterState.initial clock) where
  isLocal := rfl
  entries := ⟨[], [], rfl, rfl, by simp⟩
  size := by simp [LimiterState.initial]
  keeps := by
    intro t
    simp [LimiterState.initial, returnedWithin]

/-- **The window as the limiter keeps it.**  In every run without rate headers in
    which entries expire only after their calls have left the window, at most ten
    calls return in any closed window of a second. -/
theorem local_window_of_onlyReturnedExpire (clock : Int) (events : List LimiterEvent)
    (s : LimiterState) (hheaders : NoRateHeaders events)
    (halong : Machine.Along LimiterState.step OnlyReturnedExpire
      (LimiterState.initial clock) events)
    (hrun : Machine.run LimiterState.step (LimiterState.initial clock) events = some s) :
    KeepsLocalWindow s := by
  have halong' := Machine.along_and_of_forall
    (P := fun event => ∀ response, event = .update response → ¬ response.CarriesRateHeaders)
    halong (fun event he response heq => hheaders response (heq ▸ he))
  exact (Machine.invariant_of_run windowInv_step (windowInv_initial clock) halong' hrun).keeps

/-- Ten calls at once, one that sleeps, and one after the sleeper has left the
    window as well. -/
def sparseAfterSleep : List LimiterEvent :=
  List.replicate 10 (.wait 0 0 0) ++ [.wait 0 1010 1010, .wait 2011 2011 2011]

theorem local_window_of_onlyReturnedExpire_sparse :
    ∃ s, Machine.run LimiterState.step (LimiterState.initial 0) sparseAfterSleep = some s ∧
      s.calls.length = 12 ∧ KeepsLocalWindow s := by
  refine ⟨_, rfl, rfl,
    local_window_of_onlyReturnedExpire 0 sparseAfterSleep _ ?_ (by decide) rfl⟩
  intro response hmem
  simp [sparseAfterSleep] at hmem

/-- Ten calls at once, one that sleeps until the oldest entry has expired, and
    ten more at the instant at which it returns. -/
def burstAfterSleep : List LimiterEvent :=
  List.replicate 10 (.wait 0 0 0) ++ [.wait 0 1010 1010] ++
    List.replicate 10 (.wait 1010 1010 1010)

/-- **The window fails after a sleep.**  Eleven calls return at one instant. -/
theorem local_window_fails :
    ¬ ∀ clock events s, NoRateHeaders events →
      Machine.run LimiterState.step (LimiterState.initial clock) events = some s →
      KeepsLocalWindow s := by
  intro h
  have hrun : ∃ s, Machine.run LimiterState.step (LimiterState.initial 0) burstAfterSleep =
      some s ∧ (returnedWithin 1010 s.calls).length = 11 := ⟨_, rfl, by decide⟩
  rcases hrun with ⟨s, hrun, hcount⟩
  have hkeeps := h 0 burstAfterSleep s (by
    intro response hmem
    simp [burstAfterSleep] at hmem) hrun 1010
  rw [hcount] at hkeeps
  exact absurd hkeeps (by decide)

end BybitApi
