import Mathlib.Tactic.Basic

/-!
# Runs of a labelled state machine

A machine is a partial step function: `step state event` is `none` when the
event cannot happen in that state.  Everything the environment chooses is in
the events, so a run is determined by its list of events and can be evaluated.

A condition on steps holds `Along` a run when every step of the run meets it.
`invariant_of_run` is the rule for safety properties under such a condition;
with the trivial condition it is the ordinary induction over reachable states.
-/

namespace BybitApi.Machine

variable {σ ε : Type}

/-- The state after a list of events, if all of them can happen. -/
def run (step : σ → ε → Option σ) : σ → List ε → Option σ
  | state, [] => some state
  | state, event :: events =>
      match step state event with
      | none => none
      | some next => run step next events

/-- Every step of the run meets the condition. -/
def Along (step : σ → ε → Option σ) (cond : σ → ε → Prop) : σ → List ε → Prop
  | _, [] => True
  | state, event :: events =>
      cond state event ∧ ∀ next, step state event = some next → Along step cond next events

variable {step : σ → ε → Option σ} {cond : σ → ε → Prop}

instance Along.decidable [∀ state event, Decidable (cond state event)] :
    ∀ state events, Decidable (Along step cond state events)
  | _, [] => isTrue trivial
  | state, event :: events =>
      match hstep : step state event with
      | none => decidable_of_iff (cond state event) (by simp [Along, hstep])
      | some next =>
          have := Along.decidable next events
          decidable_of_iff (cond state event ∧ Along step cond next events)
            (by simp [Along, hstep])

theorem run_cons_eq_some {state final : σ} {event : ε} {events : List ε} :
    run step state (event :: events) = some final ↔
      ∃ next, step state event = some next ∧ run step next events = some final := by
  cases hstep : step state event with
  | none => simp [run, hstep]
  | some next => simp [run, hstep]

/-- Two runs, one after the other. -/
theorem run_append {state middle : σ} {events : List ε} (rest : List ε)
    (h : run step state events = some middle) :
    run step state (events ++ rest) = run step middle rest := by
  induction events generalizing state with
  | nil =>
      simp only [run, Option.some.injEq] at h
      rw [List.nil_append, h]
  | cons event events ih =>
      obtain ⟨next, hnext, hrest⟩ := run_cons_eq_some.mp h
      simp only [List.cons_append, run, hnext]
      exact ih hrest

theorem along_true : ∀ (state : σ) (events : List ε), Along step (fun _ _ => True) state events
  | _, [] => trivial
  | _, _ :: events => ⟨trivial, fun next _ => along_true next events⟩

/-- Every state of the run has the property. -/
def Throughout (step : σ → ε → Option σ) (P : σ → Prop) : σ → List ε → Prop
  | state, [] => P state
  | state, event :: events =>
      P state ∧ ∀ next, step state event = some next → Throughout step P next events

/-- A condition on the events alone can be added to a condition on the steps. -/
theorem along_and_of_forall {P : ε → Prop} {state : σ} {events : List ε}
    (halong : Along step cond state events) (hevents : ∀ event ∈ events, P event) :
    Along step (fun state event => cond state event ∧ P event) state events := by
  induction events generalizing state with
  | nil => trivial
  | cons event events ih =>
      rcases halong with ⟨hcond, hafter⟩
      refine ⟨⟨hcond, hevents event (by simp)⟩, ?_⟩
      intro next hnext
      exact ih (hafter next hnext) (fun e he => hevents e (List.mem_cons_of_mem _ he))

theorem along_cons {state next : σ} {event : ε} {events : List ε} (hcond : cond state event)
    (hstep : step state event = some next) (hrest : Along step cond next events) :
    Along step cond state (event :: events) := by
  refine ⟨hcond, ?_⟩
  intro next' hnext'
  rw [hstep, Option.some.injEq] at hnext'
  exact hnext' ▸ hrest

/-- **Invariants of runs.**  What holds at the start and is kept by every step
    that meets the condition holds at the end of every run along which the
    condition is met. -/
theorem invariant_of_run {Inv : σ → Prop}
    (hstep : ∀ state event next, Inv state → cond state event →
      step state event = some next → Inv next)
    {state final : σ} {events : List ε} (hstart : Inv state)
    (halong : Along step cond state events) (hrun : run step state events = some final) :
    Inv final := by
  induction events generalizing state with
  | nil =>
      simp only [run, Option.some.injEq] at hrun
      exact hrun ▸ hstart
  | cons event events ih =>
      obtain ⟨next, hnext, hrest⟩ := run_cons_eq_some.mp hrun
      rcases halong with ⟨hcond, hafter⟩
      exact ih (hstep state event next hstart hcond hnext) (hafter next hnext) hrest

theorem Throughout.last {P : σ → Prop} {state final : σ} {events : List ε}
    (h : Throughout step P state events) (hrun : run step state events = some final) :
    P final := by
  induction events generalizing state with
  | nil =>
      simp only [run, Option.some.injEq] at hrun
      exact hrun ▸ h
  | cons event events ih =>
      obtain ⟨next, hnext, hrest⟩ := run_cons_eq_some.mp hrun
      exact ih (h.2 next hnext) hrest

theorem Throughout.mono {P Q : σ → Prop} (h : ∀ state, P state → Q state) {state : σ}
    {events : List ε} (hthroughout : Throughout step P state events) :
    Throughout step Q state events := by
  induction events generalizing state with
  | nil => exact h state hthroughout
  | cons event events ih =>
      refine ⟨h state hthroughout.1, ?_⟩
      intro next hnext
      exact ih (hthroughout.2 next hnext)

/-- What an invariant implies holds in every state of a run. -/
theorem throughout_of_invariant {Inv P : σ → Prop}
    (hstep : ∀ state event next, Inv state → step state event = some next → Inv next)
    (hP : ∀ state, Inv state → P state) {state : σ} (hstart : Inv state) (events : List ε) :
    Throughout step P state events := by
  induction events generalizing state with
  | nil => exact hP state hstart
  | cons event events ih =>
      refine ⟨hP state hstart, ?_⟩
      intro next hnext
      exact ih (hstep state event next hstart hnext)

/-- What an invariant of the steps that meet a condition implies holds in every state
    of a run along which the condition is met. -/
theorem Along.throughout {Inv P : σ → Prop}
    (hstep : ∀ state event next, Inv state → cond state event →
      step state event = some next → Inv next)
    (hP : ∀ state, Inv state → P state) {state : σ} {events : List ε} (hstart : Inv state)
    (halong : Along step cond state events) : Throughout step P state events := by
  induction events generalizing state with
  | nil => exact hP state hstart
  | cons event events ih =>
      rcases halong with ⟨hcond, hafter⟩
      refine ⟨hP state hstart, ?_⟩
      intro next hnext
      exact ih (hstep state event next hstart hcond hnext) (hafter next hnext)

/-- What follows from the property in one step holds of every step. -/
theorem Throughout.along {P : σ → Prop} (hcond : ∀ state event, P state → cond state event)
    {state : σ} {events : List ε} (h : Throughout step P state events) :
    Along step cond state events := by
  induction events generalizing state with
  | nil => trivial
  | cons event events ih =>
      rcases h with ⟨hstate, hafter⟩
      exact ⟨hcond state event hstate, fun next hnext => ih (hafter next hnext)⟩

/-- **Exact conditions.**  Where a step loses the property if and only if it does
    not meet the condition, a run has the property throughout if and only if
    every step meets the condition. -/
theorem throughout_iff_along {Inv P : σ → Prop}
    (hstep : ∀ state event next, Inv state → P state → step state event = some next →
      Inv next ∧ (P next ↔ cond state event))
    {state final : σ} {events : List ε} (hinv : Inv state) (hstart : P state)
    (hrun : run step state events = some final) :
    Throughout step P state events ↔ Along step cond state events := by
  induction events generalizing state with
  | nil => exact ⟨fun _ => trivial, fun _ => hstart⟩
  | cons event events ih =>
      obtain ⟨next, hnext, hrest⟩ := run_cons_eq_some.mp hrun
      obtain ⟨hinvNext, hexact⟩ := hstep state event next hinv hstart hnext
      constructor
      · rintro ⟨-, hafter⟩
        have hthrough := hafter next hnext
        have hPnext : P next := by
          cases events with
          | nil => exact hthrough
          | cons _ _ => exact hthrough.1
        refine ⟨hexact.mp hPnext, ?_⟩
        intro next' hnext'
        rw [hnext, Option.some.injEq] at hnext'
        subst hnext'
        exact (ih hinvNext hPnext hrest).mp hthrough
      · rintro ⟨hcond, hafter⟩
        refine ⟨hstart, ?_⟩
        intro next' hnext'
        rw [hnext, Option.some.injEq] at hnext'
        subst hnext'
        exact (ih hinvNext (hexact.mpr hcond) hrest).mpr (hafter next hnext)

/-- **Conditions that carry over.**  Where an invariant is kept by the steps that meet
    a condition, what it implies of these steps holds along the run, too. -/
theorem Along.of_invariant {Inv : σ → Prop} {prop : σ → ε → Prop}
    (hstep : ∀ state event next, Inv state → cond state event →
      step state event = some next → Inv next)
    (hprop : ∀ state event, Inv state → cond state event → prop state event)
    {state : σ} {events : List ε} (hstart : Inv state) (halong : Along step cond state events) :
    Along step prop state events := by
  induction events generalizing state with
  | nil => trivial
  | cons event events ih =>
      rcases halong with ⟨hcond, hafter⟩
      refine ⟨hprop state event hstart hcond, ?_⟩
      intro next hnext
      exact ih (hstep state event next hstart hcond hnext) (hafter next hnext)

/-- **Conditions whose breach shows later.**  A step that breaches the condition dooms
    the run: it stays doomed while the steps have the property.  So the condition
    holds along a run that has the property and does not end doomed. -/
theorem Along.of_doomed {Inv Doomed : σ → Prop} {prop : σ → ε → Prop}
    (hstep : ∀ state event next, Inv state → cond state event →
      step state event = some next → Inv next)
    (hbreach : ∀ state event next, Inv state → prop state event → ¬ cond state event →
      step state event = some next → Doomed next)
    (hdoomed : ∀ state event next, Doomed state → prop state event →
      step state event = some next → Doomed next)
    {state final : σ} {events : List ε} (hstart : Inv state)
    (halong : Along step prop state events) (hrun : run step state events = some final)
    (hfinal : ¬ Doomed final) : Along step cond state events := by
  induction events generalizing state with
  | nil => trivial
  | cons event events ih =>
      obtain ⟨next, hnext, hrest⟩ := run_cons_eq_some.mp hrun
      rcases halong with ⟨hprop, hafter⟩
      have hcond : cond state event := by
        apply Classical.byContradiction
        intro hcond
        have hdoom := hbreach state event next hstart hprop hcond hnext
        exact hfinal (invariant_of_run hdoomed hdoom (hafter next hnext) hrest)
      apply along_cons hcond hnext
      exact ih (hstep state event next hstart hcond hnext) (hafter next hnext) hrest

/-- **Runs of two machines.**  Where every step keeps two states related, or is possible
    in neither of them, so does every run. -/
theorem run_rel {τ : Type} {step' : τ → ε → Option τ} {R : σ → τ → Prop}
    (hstep : ∀ state state' event, R state state' →
      Option.Rel R (step state event) (step' state' event))
    {state : σ} {state' : τ} (hstart : R state state') (events : List ε) :
    Option.Rel R (run step state events) (run step' state' events) := by
  induction events generalizing state state' with
  | nil => exact .some hstart
  | cons event events ih =>
      have hnext := hstep state state' event hstart
      simp only [run]
      cases h : step state event <;> cases h' : step' state' event <;> rw [h, h'] at hnext
      · exact .none
      · cases hnext
      · cases hnext
      · cases hnext with
        | some hrelated => exact ih hrelated

end BybitApi.Machine
