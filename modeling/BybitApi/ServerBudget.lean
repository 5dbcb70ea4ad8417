import BybitApi.RateLimiter

/-!
# The exchange's budget

Once a response has carried rate headers, `wait` compares the remaining budget with
two and never lowers it: calls count in local mode, but not in this one.  So every
call between two responses is let through while more than two requests remain, and
four threads that call `wait` before their responses are back exceed a budget of
three (`server_budget_fails`).

`serverBudget_iff` tells when the budget is kept: a call that is let through must
return at the reset time or later, or find the budget not used up.
-/

namespace BybitApi

/-- The budget that a response makes `update` record: what remains, and until when. -/
def HttpResponse.budget? (response : HttpResponse) : Option (Int × Int) :=
  match response.find "X-Bapi-Limit-Status", response.find "X-Bapi-Limit-Reset" with
  | some status, some reset =>
      match stoi status, stoll reset with
      | .ok remaining, .ok resetTime => some (remaining, resetTime)
      | _, _ => none
  | _, _ => none

/-- A budget recorded, and how many calls have returned before its reset since. -/
structure ServerBudget where
  remaining : Int
  resetTime : Int
  passed : Nat
deriving DecidableEq, Repr

/-- The limiter with the budget recorded last. -/
structure BudgetState where
  state : LimiterState
  budget : Option ServerBudget
deriving DecidableEq, Repr

def ServerBudget.pass (budget : ServerBudget) (returned : Int) : ServerBudget :=
  if returned < budget.resetTime then { budget with passed := budget.passed + 1 } else budget

/-- The account kept of an event. -/
def budgetAfter (budget : Option ServerBudget) : LimiterEvent → Option ServerBudget
  | .wait _ _ returned => budget.map fun b => b.pass returned
  | .update response =>
      match response.budget? with
      | some (remaining, resetTime) =>
          some { remaining := remaining, resetTime := resetTime, passed := 0 }
      | none => budget

namespace BudgetState

def step (b : BudgetState) (event : LimiterEvent) : Option BudgetState :=
  (b.state.step event).map fun state => { state := state, budget := budgetAfter b.budget event }

def initial (clock : Int) : BudgetState := { state := .initial clock, budget := none }

/-- At most as many calls as remained have returned before the reset. -/
def KeepsBudget (b : BudgetState) : Prop :=
  ∀ budget ∈ b.budget, budget.passed ≤ budget.remaining.toNat

/-- A call that is let through returns at the reset time or later, or the budget is
    not used up. -/
def WithinBudget (b : BudgetState) : LimiterEvent → Prop
  | .wait _ _ returned =>
      ∀ budget ∈ b.budget, 2 < b.state.limiter.remaining →
        budget.resetTime ≤ returned ∨ budget.passed < budget.remaining.toNat
  | .update _ => True

/-- The limiter goes by the budget recorded last. -/
def Recorded (b : BudgetState) : Prop :=
  ∀ budget ∈ b.budget, b.state.limiter.serverHeadersFound = true ∧
    b.state.limiter.resetTime = budget.resetTime

end BudgetState

instance (b : BudgetState) : Decidable b.KeepsBudget :=
  inferInstanceAs (Decidable (∀ budget ∈ b.budget, _))

instance (b : BudgetState) : DecidablePred b.WithinBudget
  | .wait _ _ returned =>
      inferInstanceAs (Decidable (∀ budget ∈ b.budget, 2 < b.state.limiter.remaining →
        budget.resetTime ≤ returned ∨ budget.passed < budget.remaining.toNat))
  | .update _ => .isTrue trivial

/-! ### What the two calls do -/

/-- An `update` that records no budget leaves the reset time alone. -/
theorem RateLimiter.update_of_none (limiter : RateLimiter) {response : HttpResponse}
    (h : response.budget? = none) :
    (limiter.update response).serverHeadersFound = limiter.serverHeadersFound ∧
      (limiter.update response).resetTime = limiter.resetTime := by
  unfold HttpResponse.budget? at h
  unfold RateLimiter.update
  split
  · next status reset hstatus hreset =>
      simp only [hstatus, hreset] at h
      cases hremaining : stoi status with
      | error => exact ⟨rfl, rfl⟩
      | ok remaining =>
          cases hresetTime : stoll reset with
          | error => exact ⟨rfl, rfl⟩
          | ok resetTime => simp [hremaining, hresetTime] at h
  · exact ⟨rfl, rfl⟩

theorem RateLimiter.update_of_some (limiter : RateLimiter) {response : HttpResponse}
    {remaining resetTime : Int} (h : response.budget? = some (remaining, resetTime)) :
    limiter.update response =
      { limiter with
        remaining := remaining, resetTime := resetTime, serverHeadersFound := true } := by
  unfold HttpResponse.budget? at h
  unfold RateLimiter.update
  split
  · next status reset hstatus hreset =>
      simp only [hstatus, hreset] at h
      split at h
      · next hremaining hresetTime =>
          simp only [Option.some.injEq, Prod.mk.injEq] at h
          rcases h with ⟨rfl, rfl⟩
          simp only [hremaining, hresetTime]
      · cases h
  · next hnone =>
      split at h
      · next status reset hstatus hreset => exact absurd hreset (hnone status reset hstatus)
      · cases h

/-! ### Runs -/

namespace BudgetState

theorem recorded_step {b next : BudgetState} {event : LimiterEvent} (hb : b.Recorded)
    (hstep : b.step event = some next) : next.Recorded := by
  obtain ⟨state, hstate, rfl⟩ := Option.map_eq_some_iff.mp hstep
  intro budget hbudget
  cases event with
  | wait now nowAfterWait returned =>
      obtain ⟨old, hold, rfl⟩ := Option.map_eq_some_iff.mp hbudget
      obtain ⟨hserver, hreset⟩ := hb old hold
      simp only [LimiterState.step, Option.ite_none_right_eq_some, Option.some.injEq] at hstate
      rcases hstate with ⟨-, rfl⟩
      have hwait := (RateLimiter.wait_server hserver now nowAfterWait).1
      have hresetTime : (old.pass returned).resetTime = old.resetTime := by
        unfold ServerBudget.pass
        split <;> rfl
      simp only [hwait, hresetTime]
      exact ⟨hserver, hreset⟩
  | update response =>
      obtain rfl := Option.some.inj hstate
      simp only [budgetAfter] at hbudget
      split at hbudget
      · next remaining resetTime hrecords =>
          obtain rfl := Option.some.inj hbudget
          simp only [RateLimiter.update_of_some _ hrecords, and_self]
      · next hnone =>
          obtain ⟨hserver, hreset⟩ := hb budget hbudget
          obtain ⟨hserver', hreset'⟩ := RateLimiter.update_of_none b.state.limiter hnone
          exact ⟨hserver'.trans hserver, hreset'.trans hreset⟩

/-- A call that has returned before the reset is let through, and counted. -/
theorem pass_le_iff {budget : ServerBudget} {returned : Int}
    (hkeeps : budget.passed ≤ budget.remaining.toNat) :
    (budget.pass returned).passed ≤ (budget.pass returned).remaining.toNat ↔
      budget.resetTime ≤ returned ∨ budget.passed < budget.remaining.toNat := by
  unfold ServerBudget.pass
  split
  · next hbefore =>
      rw [or_iff_right (not_le.mpr hbefore)]
      exact Nat.succ_le_iff
  · next hafter => simp [not_lt.mp hafter, hkeeps]

theorem keepsBudget_step_iff {b next : BudgetState} {event : LimiterEvent} (hb : b.Recorded)
    (hkeeps : b.KeepsBudget) (hstep : b.step event = some next) :
    next.KeepsBudget ↔ b.WithinBudget event := by
  obtain ⟨state, hstate, rfl⟩ := Option.map_eq_some_iff.mp hstep
  cases event with
  | update response =>
      refine iff_of_true ?_ trivial
      intro budget hbudget
      simp only [budgetAfter] at hbudget
      split at hbudget
      · obtain rfl := Option.some.inj hbudget
        exact Nat.zero_le _
      · exact hkeeps budget hbudget
  | wait now nowAfterWait returned =>
      simp only [LimiterState.step, Option.ite_none_right_eq_some] at hstate
      have hreadings := hstate.1
      cases hbudget : b.budget with
      | none => simp [KeepsBudget, WithinBudget, budgetAfter, hbudget]
      | some budget =>
          obtain ⟨hserver, hreset⟩ := hb budget hbudget
          have hold := hkeeps budget hbudget
          simp only [KeepsBudget, WithinBudget, budgetAfter, hbudget, Option.map_some,
            Option.mem_some_iff, forall_eq']
          rw [pass_le_iff hold]
          constructor
          · exact fun h _ => h
          · intro h
            rcases le_or_gt b.state.limiter.remaining 2 with hlow | hhigh
            · -- the call sleeps until the reset, if need be
              left
              rw [← hreset]
              exact (RateLimiter.wait_server hserver now nowAfterWait).2 _ _ hlow hreadings
            · exact h hhigh

end BudgetState

open BudgetState in
/-- **Exactly when the budget is kept.**  In every run at most as many calls return
    before a recorded reset time as requests remained, until a budget is recorded
    again, if and only if every call that is let through returns at the reset time
    or later, or finds the budget not used up. -/
theorem serverBudget_iff {clock : Int} {events : List LimiterEvent} {final : BudgetState}
    (hrun : Machine.run BudgetState.step (.initial clock) events = some final) :
    Machine.Throughout BudgetState.step KeepsBudget (.initial clock) events ↔
      Machine.Along BudgetState.step WithinBudget (.initial clock) events := by
  have hstart : (BudgetState.initial clock).KeepsBudget := by
    intro budget hbudget
    cases hbudget
  have hrecorded : (BudgetState.initial clock).Recorded := by
    intro budget hbudget
    cases hbudget
  refine Machine.throughout_iff_along ?_ hrecorded hstart hrun
  intro b event next hb hkeeps hstep
  exact ⟨recorded_step hb hstep, keepsBudget_step_iff hb hkeeps hstep⟩

/-- A response after which three requests remain until the instant 1000. -/
def threeRemain : HttpResponse :=
  { result := 200
    fields := [("X-Bapi-Limit-Status", "3"), ("X-Bapi-Limit-Reset", "1000")]
    body := "" }

theorem budget_threeRemain : threeRemain.budget? = some (3, 1000) := by
  decide +kernel

/-- The limiter after that response. -/
def threeLeft : BudgetState :=
  { state :=
      { limiter := { remaining := 3, resetTime := 1000, serverHeadersFound := true }
        clock := 0
        calls := [] }
    budget := some { remaining := 3, resetTime := 1000, passed := 0 } }

theorem step_of_budget {response : HttpResponse} (h : response.budget? = some (3, 1000)) :
    BudgetState.step (.initial 0) (.update response) = some threeLeft := by
  simp only [BudgetState.step, BudgetState.initial, LimiterState.step, LimiterState.initial,
    RateLimiter.update_of_some _ h, budgetAfter, h, Option.map_some]
  rfl

theorem step_threeRemain :
    BudgetState.step (.initial 0) (.update threeRemain) = some threeLeft :=
  step_of_budget budget_threeRemain

/-- Three calls before the reset, and one at the reset. -/
def threeCalls : List LimiterEvent :=
  [.wait 0 0 0, .wait 0 0 1, .wait 2 2 2, .wait 1000 1000 1000]

theorem serverBudget_iff_threeCalls :
    Machine.Throughout BudgetState.step BudgetState.KeepsBudget (.initial 0)
      (.update threeRemain :: threeCalls) := by
  have hrun := Machine.run_cons_eq_some.mpr ⟨_, step_threeRemain,
    (rfl : Machine.run BudgetState.step threeLeft threeCalls = _)⟩
  apply (serverBudget_iff hrun).mpr
  exact Machine.along_cons trivial step_threeRemain (by decide)

/-- Four threads call `wait` before their responses are back. -/
theorem server_budget_fails :
    ¬ ∀ clock events final,
      Machine.run BudgetState.step (.initial clock) events = some final → final.KeepsBudget := by
  intro h
  have hrun := Machine.run_cons_eq_some.mpr ⟨_, step_threeRemain,
    (rfl : Machine.run BudgetState.step threeLeft (List.replicate 4 (.wait 0 0 0)) = _)⟩
  have hkeeps := h 0 _ _ hrun
  exact absurd hkeeps (by decide)

end BybitApi
