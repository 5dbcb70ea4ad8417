import Mathlib.Tactic.Basic

/-!
# While loops with fuel

A `while` loop of a sequential program is a body that maps the loop's state
either to the state of the next pass or to the value with which the loop is
left.  `Loop.run` executes a body with a bound on the number of passes, so that
it is a total function that can be evaluated; `Loop.Returns` is the unbounded
reading, on which `Loop.total_correctness` is the usual rule: an invariant that
every pass keeps, and a natural-number variant that every pass lowers, give
termination and the postcondition at the exit together.
-/

namespace BybitApi.Loop

/-- What one pass of a loop body does: go round again, or leave the loop. -/
inductive Pass (σ ρ : Type) where
  | again (next : σ)
  | exit (result : ρ)

variable {σ ρ : Type}

/-- Run a loop body for at most `fuel` passes. -/
def run (body : σ → Pass σ ρ) : Nat → σ → Option ρ
  | 0, _ => none
  | fuel + 1, state =>
      match body state with
      | .again next => run body fuel next
      | .exit result => some result

/-- The loop, started in `state`, is left with `result`. -/
def Returns (body : σ → Pass σ ρ) (state : σ) (result : ρ) : Prop :=
  ∃ fuel, run body fuel state = some result

theorem run_again {body : σ → Pass σ ρ} {state next : σ}
    (h : body state = .again next) (fuel : Nat) :
    run body (fuel + 1) state = run body fuel next := by
  simp only [run, h]

theorem run_exit {body : σ → Pass σ ρ} {state : σ} {result : ρ}
    (h : body state = .exit result) (fuel : Nat) :
    run body (fuel + 1) state = some result := by
  simp only [run, h]

/-- Fuel beyond what a run needs does not change its result. -/
theorem run_mono {body : σ → Pass σ ρ} {result : ρ} :
    ∀ {fuel fuel' : Nat} {state : σ}, run body fuel state = some result →
      fuel ≤ fuel' → run body fuel' state = some result := by
  intro fuel
  induction fuel with
  | zero =>
      intro fuel' state hrun hle
      simp [run] at hrun
  | succ fuel ih =>
      intro fuel' state hrun hle
      obtain ⟨more, rfl⟩ : ∃ more, fuel' = more + 1 := ⟨fuel' - 1, by omega⟩
      cases hbody : body state with
      | again next =>
          rw [run_again hbody] at hrun ⊢
          exact ih hrun (by omega)
      | exit value =>
          rw [run_exit hbody] at hrun ⊢
          exact hrun

theorem returns_of_again {body : σ → Pass σ ρ} {state next : σ} {result : ρ}
    (h : body state = .again next) (hnext : Returns body next result) :
    Returns body state result := by
  rcases hnext with ⟨fuel, hrun⟩
  exact ⟨fuel + 1, by rw [run_again h, hrun]⟩

theorem returns_of_exit {body : σ → Pass σ ρ} {state : σ} {result : ρ}
    (h : body state = .exit result) : Returns body state result :=
  ⟨1, run_exit h 0⟩

/-- From some amount of fuel on, a loop that returns has its result. -/
theorem Returns.eventually {body : σ → Pass σ ρ} {state : σ} {result : ρ}
    (h : Returns body state result) :
    ∃ enough, ∀ fuel, enough ≤ fuel → run body fuel state = some result := by
  rcases h with ⟨enough, hrun⟩
  exact ⟨enough, fun fuel hle => run_mono hrun hle⟩

/-- **Total correctness of a while loop.**  Where the invariant holds, a pass
    either goes round again, keeps the invariant and lowers the variant, or
    leaves the loop with a result that satisfies the postcondition. -/
theorem total_correctness {body : σ → Pass σ ρ} {Inv : σ → Prop} (variant : σ → Nat)
    {Post : ρ → Prop}
    (hpass : ∀ state, Inv state →
      (∃ next, body state = .again next ∧ Inv next ∧ variant next < variant state) ∨
      (∃ result, body state = .exit result ∧ Post result))
    (state : σ) (hstate : Inv state) :
    ∃ result, Returns body state result ∧ Post result := by
  induction hn : variant state using Nat.strongRecOn generalizing state with
  | ind n ih =>
      rcases hpass state hstate with ⟨next, hbody, hnext, hlt⟩ | ⟨result, hbody, hpost⟩
      · obtain ⟨result, hreturns, hpost⟩ := ih (variant next) (by omega) next hnext rfl
        exact ⟨result, returns_of_again hbody hreturns, hpost⟩
      · exact ⟨result, returns_of_exit hbody, hpost⟩

/-! ### The passes of a run -/

/-- The states in which a run is at the head of the loop. -/
def heads (body : σ → Pass σ ρ) : Nat → σ → List σ
  | 0, _ => []
  | fuel + 1, state =>
      match body state with
      | .again next => state :: heads body fuel next
      | .exit _ => [state]

/-- The loop, started in `state`, is left with `result` after passes from the states
    `visited`. -/
def ReturnsVia (body : σ → Pass σ ρ) (state : σ) (visited : List σ) (result : ρ) : Prop :=
  ∃ fuel, run body fuel state = some result ∧ heads body fuel state = visited

theorem heads_again {body : σ → Pass σ ρ} {state next : σ}
    (h : body state = .again next) (fuel : Nat) :
    heads body (fuel + 1) state = state :: heads body fuel next := by
  simp only [heads, h]

theorem heads_exit {body : σ → Pass σ ρ} {state : σ} {result : ρ}
    (h : body state = .exit result) (fuel : Nat) :
    heads body (fuel + 1) state = [state] := by
  simp only [heads, h]

theorem returnsVia_of_again {body : σ → Pass σ ρ} {state next : σ} {visited : List σ}
    {result : ρ} (h : body state = .again next) (hnext : ReturnsVia body next visited result) :
    ReturnsVia body state (state :: visited) result := by
  rcases hnext with ⟨fuel, hrun, hheads⟩
  exact ⟨fuel + 1, by rw [run_again h, hrun], by rw [heads_again h, hheads]⟩

theorem returnsVia_of_exit {body : σ → Pass σ ρ} {state : σ} {result : ρ}
    (h : body state = .exit result) : ReturnsVia body state [state] result :=
  ⟨1, run_exit h 0, heads_exit h 0⟩

/-- Fuel beyond what a run needs adds no pass. -/
theorem heads_mono {body : σ → Pass σ ρ} {result : ρ} :
    ∀ {fuel fuel' : Nat} {state : σ}, run body fuel state = some result →
      fuel ≤ fuel' → heads body fuel' state = heads body fuel state := by
  intro fuel
  induction fuel with
  | zero =>
      intro fuel' state hrun hle
      simp [run] at hrun
  | succ fuel ih =>
      intro fuel' state hrun hle
      obtain ⟨more, rfl⟩ : ∃ more, fuel' = more + 1 := ⟨fuel' - 1, by omega⟩
      cases hbody : body state with
      | again next =>
          rw [run_again hbody] at hrun
          rw [heads_again hbody, heads_again hbody, ih hrun (by omega)]
      | exit value => rw [heads_exit hbody, heads_exit hbody]

theorem ReturnsVia.eventually {body : σ → Pass σ ρ} {state : σ} {visited : List σ} {result : ρ}
    (h : ReturnsVia body state visited result) :
    ∃ enough, ∀ fuel, enough ≤ fuel →
      run body fuel state = some result ∧ heads body fuel state = visited := by
  rcases h with ⟨enough, hrun, hheads⟩
  refine ⟨enough, ?_⟩
  intro fuel hle
  exact ⟨run_mono hrun hle, by rw [heads_mono hrun hle, hheads]⟩

/-- **Total correctness with an account of the passes.**  The postcondition speaks of
    the state a run starts in, of the passes it makes and of its result; it holds
    of a run that leaves the loop at once, and a pass carries it backward. -/
theorem total_correctness_via {body : σ → Pass σ ρ} {Inv : σ → Prop} (variant : σ → Nat)
    {Post : σ → List σ → ρ → Prop}
    (hpass : ∀ state, Inv state →
      (∃ next, body state = .again next ∧ Inv next ∧ variant next < variant state ∧
        ∀ visited result, Post next visited result → Post state (state :: visited) result) ∨
      (∃ result, body state = .exit result ∧ Post state [state] result))
    (state : σ) (hstate : Inv state) :
    ∃ visited result, ReturnsVia body state visited result ∧ Post state visited result := by
  induction hn : variant state using Nat.strongRecOn generalizing state with
  | ind n ih =>
      rcases hpass state hstate with ⟨next, hbody, hnext, hlt, hback⟩ | ⟨result, hbody, hpost⟩
      · obtain ⟨visited, result, hreturns, hpost⟩ := ih (variant next) (by omega) next hnext rfl
        exact ⟨state :: visited, result, returnsVia_of_again hbody hreturns,
          hback visited result hpost⟩
      · exact ⟨[state], result, returnsVia_of_exit hbody, hpost⟩

end BybitApi.Loop
