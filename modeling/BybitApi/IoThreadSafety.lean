import BybitApi.IoThread
import Mathlib.Data.Fintype.Option

/-!
# What the `isRunning` flag promises

`run` decides by `isRunning` whether a thread has to be started.  The flag is
wrong twice.

* It is still up after `ioContext.run()` has returned: a caller that posts work
  and tests it there starts no thread, and its work is lost (`wakeup_lost`).  A
  call that has started a thread and has not returned yet is no help
  (`lost_beside_start`).
* It is cleared once more behind the loop, when the next caller may have set it
  already: that caller starts a thread whose flag is down, and the call after it
  waits in `join` for the new thread (`run_joins_live`).

Each of the two is the only way to go wrong: along every run whose tests avoid
it no work is lost (`no_lost_wakeup`), and no caller joins a live thread
(`no_live_join`).
-/

namespace BybitApi

open Machine

/-- The thread has set the flag and has yet to return from `ioContext.run()`. -/
def IoPoint.FlagUp (point : IoPoint) : Prop := point.Live ∧ point ≠ .loopHead

namespace IoState

variable {κ : Type} [DecidableEq κ]

/-- An enabled event happens. -/
theorem run_cons {s : IoState κ} {event : IoEvent κ} {events : List (IoEvent κ)}
    (hterminated : s.terminated = false) (hen : s.Enabled event) :
    run step s (event :: events) = run step (s.next event) events := by
  simp [run, step, hterminated, hen]

/-! ### Moving one caller, and one thread -/

@[simp] theorem moveCaller_threads (s : IoState κ) (c : κ) (point : CallerPoint) :
    (s.moveCaller c point).threads = s.threads := rfl

@[simp] theorem moveCaller_ioThread (s : IoState κ) (c : κ) (point : CallerPoint) :
    (s.moveCaller c point).ioThread = s.ioThread := rfl

@[simp] theorem moveCaller_callers_self (s : IoState κ) (c : κ) (point : CallerPoint) :
    (s.moveCaller c point).callers c = point := by
  simp [moveCaller]

theorem moveCaller_callers_of_ne (s : IoState κ) {c c' : κ} (point : CallerPoint) (h : c' ≠ c) :
    (s.moveCaller c point).callers c' = s.callers c' := by
  simp [moveCaller, h]

@[simp] theorem moveThread_callers (s : IoState κ) (place : Option κ) (point : IoPoint) :
    (s.moveThread place point).callers = s.callers := rfl

@[simp] theorem moveThread_threads_self (s : IoState κ) (place : Option κ) (point : IoPoint) :
    (s.moveThread place point).threads place = some point := by
  simp [moveThread]

theorem moveThread_threads_of_ne (s : IoState κ) {place place' : Option κ} (point : IoPoint)
    (h : place' ≠ place) : (s.moveThread place point).threads place' = s.threads place' := by
  simp [moveThread, h]

@[simp] theorem assignThread_callers (s : IoState κ) (c : κ) :
    (s.assignThread c).callers = s.callers := rfl

@[simp] theorem assignThread_none (s : IoState κ) (c : κ) :
    (s.assignThread c).threads none = s.threads (some c) := by
  simp [assignThread]

@[simp] theorem assignThread_self (s : IoState κ) (c : κ) :
    (s.assignThread c).threads (some c) = none := by
  simp [assignThread]

theorem assignThread_of_ne (s : IoState κ) {c c' : κ} (h : c' ≠ c) :
    (s.assignThread c).threads (some c') = s.threads (some c') := by
  simp [assignThread, h]

theorem next_join_of_none {s : IoState κ} (c : κ) (h : s.ioThread = none) :
    s.next (.join c) = s.moveCaller c .idle := by
  simp [next, h]

theorem next_join_of_some {s : IoState κ} {point : IoPoint} (c : κ) (h : s.ioThread = some point) :
    s.next (.join c) =
      { s.moveCaller c .spawning with threads := Function.update s.threads none none } := by
  simp [next, h]

theorem next_assign_of_none {s : IoState κ} (c : κ) (h : s.ioThread = none) :
    s.next (.assign c) = (s.assignThread c).moveCaller c .returning := by
  simp [next, h]

theorem next_assign_of_some {s : IoState κ} {point : IoPoint} (c : κ)
    (h : s.ioThread = some point) : s.next (.assign c) = { s with terminated := true } := by
  simp [next, h]

/-! ### Threads in the hands of callers -/

/-- Only a caller that stands before its assignment has a thread that `ioThread` has
    not. -/
def Held (s : IoState κ) : Prop := ∀ c, s.callers c ≠ .assigning → s.threads (some c) = none

omit [DecidableEq κ] in
theorem held_initial : Held (initial : IoState κ) := fun _ _ => rfl

theorem Held.moveCaller {s : IoState κ} (hheld : s.Held) {c : κ} {point : CallerPoint}
    (hc : s.callers c ≠ .assigning) : (s.moveCaller c point).Held := by
  intro c' hc'
  rw [moveCaller_threads]
  by_cases heq : c' = c
  · exact heq ▸ hheld c hc
  · rw [moveCaller_callers_of_ne s point heq] at hc'
    exact hheld c' hc'

/-- A thread that is there stays in the same hands when it moves on. -/
theorem Held.moveThread {s : IoState κ} (hheld : s.Held) {place : Option κ} {before : IoPoint}
    (point : IoPoint) (hplace : s.threads place = some before) :
    (s.moveThread place point).Held := by
  intro c hc
  have hnone := hheld c hc
  have hne : some c ≠ place := by
    rintro rfl
    rw [hplace] at hnone
    cases hnone
  rw [moveThread_threads_of_ne s point hne, hnone]

theorem held_next {s : IoState κ} {event : IoEvent κ} (hheld : s.Held) (hen : s.Enabled event) :
    (s.next event).Held := by
  cases event with
  | subscribe c | call c | testFlag c | setFlag c | testJoinable c | leave c =>
      have hc : s.callers c = _ := hen
      exact hheld.moveCaller (by simp [hc])
  | join c =>
      obtain ⟨hc, hnone | hexited⟩ := hen
      · rw [next_join_of_none c hnone]
        exact hheld.moveCaller (by simp [hc])
      · rw [next_join_of_some c hexited]
        intro c' hc'
        have hmoved : (s.moveCaller c .spawning).Held := hheld.moveCaller (by simp [hc])
        simpa using hmoved c' hc'
  | start c =>
      intro c' hc'
      by_cases heq : c' = c
      · subst heq
        exact absurd (moveCaller_callers_self _ c' .assigning) hc'
      · have hcallers : s.callers c' ≠ .assigning := by
          rwa [next, moveCaller_callers_of_ne _ _ heq] at hc'
        rw [next, moveCaller_threads,
          moveThread_threads_of_ne s .loopHead (by simpa using heq)]
        exact hheld c' hcallers
  | assign c =>
      cases hthread : s.ioThread with
      | some point =>
          rw [next_assign_of_some c hthread]
          exact hheld
      | none =>
          rw [next_assign_of_none c hthread]
          intro c' hc'
          by_cases heq : c' = c
          · subst heq
            simp
          · rw [moveCaller_callers_of_ne _ _ heq] at hc'
            rw [moveCaller_threads, assignThread_of_ne s heq]
            exact hheld c' hc'
  | enterLoop place | testStopped place | restart place | clearFlag place | clearFlagAgain place
  | exit place => exact hheld.moveThread _ hen
  | handler place posted => exact hheld
  | handlerThrows place posted | runReturns place => exact hheld.moveThread _ hen.1

/-! ### No lost wake-up -/

/-- The thread at this place comes to the pending work: it has yet to enter
    `ioContext.run()`, or it is inside and the context is not stopped. -/
def Serves (s : IoState κ) (place : Option κ) : Prop :=
  ∃ point, s.threads place = some point ∧
    (point.BeforeRun ∨ point = .insideRun ∧ s.stopped = false)

/-- The call of `run` has yet to test the flag, or it has found it down and has yet to
    start its thread.  One that waits in `join` for a thread that another call has
    joined will not start any. -/
def WillStart (s : IoState κ) (c : κ) : Prop :=
  match s.callers c with
  | .idle | .assigning | .returning => False
  | .joining => s.ioThread ≠ none
  | .testingFlag | .settingFlag | .testingJoinable | .spawning => True

/-- Some thread comes to the pending work, or some call will start one. -/
def Watched (s : IoState κ) : Prop := (∃ place, s.Serves place) ∨ ∃ c, s.WillStart c

/-- A caller that leaves `run` because it finds `isRunning` up leaves no pending work
    behind that no thread comes to, and that no other call will start a thread for. -/
def LeavesNoWork (s : IoState κ) : IoEvent κ → Prop
  | .testFlag c =>
      s.isRunning = true → 0 < s.work →
        (∃ place, s.Serves place) ∨ ∃ c', c' ≠ c ∧ s.WillStart c'
  | _ => True

omit [DecidableEq κ] in
theorem serves_iff {s : IoState κ} {place : Option κ} : s.Serves place ↔
    s.threads place = some .loopHead ∨ s.threads place = some .flagSet ∨
      s.threads place = some .restarting ∨
      s.threads place = some .insideRun ∧ s.stopped = false := by
  constructor
  · rintro ⟨point, hpoint, hbefore | ⟨rfl, hstopped⟩⟩
    · cases point <;> simp_all [IoPoint.BeforeRun]
    · exact Or.inr (Or.inr (Or.inr ⟨hpoint, hstopped⟩))
  · rintro (h | h | h | ⟨h, hstopped⟩)
    · exact ⟨_, h, Or.inl trivial⟩
    · exact ⟨_, h, Or.inl trivial⟩
    · exact ⟨_, h, Or.inl trivial⟩
    · exact ⟨_, h, Or.inr ⟨rfl, hstopped⟩⟩

instance (s : IoState κ) : DecidablePred s.Serves := fun _ => decidable_of_iff _ serves_iff.symm

instance (s : IoState κ) : DecidablePred s.WillStart := fun c => by
  unfold WillStart
  split <;> infer_instance

instance [Fintype κ] (s : IoState κ) : DecidablePred (LeavesNoWork s)
  | .testFlag c =>
      inferInstanceAs (Decidable (s.isRunning = true → 0 < s.work →
        (∃ place, s.Serves place) ∨ ∃ c', c' ≠ c ∧ s.WillStart c'))
  | .subscribe _ | .call _ | .setFlag _ | .testJoinable _ | .join _ | .start _ | .assign _
  | .leave _ | .enterLoop _ | .testStopped _ | .restart _ | .handler _ _ | .handlerThrows _ _
  | .runReturns _ | .clearFlag _ | .clearFlagAgain _ | .exit _ => .isTrue trivial

theorem willStart_moveCaller_of_ne {s : IoState κ} {c c' : κ} {point : CallerPoint}
    (h : c' ≠ c) : (s.moveCaller c point).WillStart c' ↔ s.WillStart c' := by
  unfold WillStart
  rw [moveCaller_callers_of_ne s point h, moveCaller_ioThread]

/-- A caller that will start no thread may go anywhere. -/
theorem Watched.moveCaller {s : IoState κ} (hwatched : s.Watched) {c : κ} {point : CallerPoint}
    (hc : ¬ s.WillStart c) : (s.moveCaller c point).Watched := by
  rcases hwatched with hserves | ⟨c', hstart⟩
  · exact Or.inl hserves
  · have hne : c' ≠ c := by
      rintro rfl
      exact hc hstart
    exact Or.inr ⟨c', (willStart_moveCaller_of_ne hne).mpr hstart⟩

/-- A thread that does not come to the work may go anywhere. -/
theorem Watched.moveThread {s : IoState κ} (hwatched : s.Watched) {place : Option κ}
    {point : IoPoint} (hplace : ¬ s.Serves place) : (s.moveThread place point).Watched := by
  rcases hwatched with ⟨place', hserves⟩ | ⟨c, hstart⟩
  · have hne : place' ≠ place := by
      rintro rfl
      exact hplace hserves
    refine Or.inl ⟨place', ?_⟩
    unfold Serves
    rw [moveThread_threads_of_ne s point hne]
    exact hserves
  · refine Or.inr ⟨c, ?_⟩
    unfold WillStart at hstart ⊢
    rw [moveThread_callers]
    split at hstart
    · exact hstart
    · exact hstart
    · exact hstart
    · intro hnone
      by_cases hmoved : none = place
      · subst hmoved
        rw [ioThread, moveThread_threads_self] at hnone
        cases hnone
      · rw [ioThread, moveThread_threads_of_ne s point hmoved] at hnone
        exact hstart hnone
    · trivial
    · trivial
    · trivial
    · trivial

omit [DecidableEq κ] in
theorem Watched.of_caller {s : IoState κ} {c : κ} {point : CallerPoint}
    (hc : s.callers c = point)
    (hpoint : point = .testingFlag ∨ point = .settingFlag ∨ point = .testingJoinable ∨
      point = .spawning ∨ point = .joining ∧ s.ioThread ≠ none) : s.Watched := by
  refine Or.inr ⟨c, ?_⟩
  unfold WillStart
  rcases hpoint with rfl | rfl | rfl | rfl | ⟨rfl, hthread⟩
  · simp [hc]
  · simp [hc]
  · simp [hc]
  · simp [hc]
  · simpa [hc] using hthread

omit [DecidableEq κ] in
theorem not_serves {s : IoState κ} {place : Option κ} {point : IoPoint}
    (hplace : s.threads place = some point) (hbefore : ¬ point.BeforeRun)
    (hinside : point = .insideRun → s.stopped = true) : ¬ s.Serves place := by
  rintro ⟨point', hpoint', hserves⟩
  rw [hplace, Option.some.injEq] at hpoint'
  subst hpoint'
  rcases hserves with hbefore' | ⟨heq, hstopped⟩
  · exact hbefore hbefore'
  · rw [hinside heq] at hstopped
    cases hstopped

omit [DecidableEq κ] in
theorem not_willStart {s : IoState κ} {c : κ} {point : CallerPoint} (hc : s.callers c = point)
    (hpoint : point = .idle ∨ point = .assigning ∨ point = .returning ∨
      point = .joining ∧ s.ioThread = none) : ¬ s.WillStart c := by
  unfold WillStart
  rcases hpoint with rfl | rfl | rfl | ⟨rfl, hthread⟩
  · simp [hc]
  · simp [hc]
  · simp [hc]
  · simp [hc, hthread]

/-- What `c` has started comes to the work wherever it is. -/
theorem Watched.assignThread {s : IoState κ} (hwatched : s.Watched) {c : κ}
    (hc : s.callers c = .assigning) (hnone : s.ioThread = none) :
    ((s.assignThread c).moveCaller c .returning).Watched := by
  rcases hwatched with ⟨place, point, hplace, hserves⟩ | ⟨c', hstart⟩
  · refine Or.inl ?_
    cases place with
    | none => exact absurd (hnone.symm.trans hplace) (by simp)
    | some c' =>
        by_cases heq : c' = c
        · subst heq
          exact ⟨none, point, by rw [moveCaller_threads, assignThread_none, hplace], hserves⟩
        · exact ⟨some c', point, by rw [moveCaller_threads, assignThread_of_ne s heq, hplace],
            hserves⟩
  · have hne : c' ≠ c := by
      rintro rfl
      exact not_willStart hc (Or.inr (Or.inl rfl)) hstart
    refine Or.inr ⟨c', ?_⟩
    rw [willStart_moveCaller_of_ne hne]
    unfold WillStart at hstart ⊢
    rw [assignThread_callers]
    split at hstart
    · exact hstart
    · exact hstart
    · exact hstart
    · exact absurd hnone hstart
    · trivial
    · trivial
    · trivial
    · trivial

/-- Pending work is watched over, unless a caller leaves it behind. -/
theorem watched_next {s : IoState κ} {event : IoEvent κ} (hwatched : 0 < s.work → s.Watched)
    (hcond : LeavesNoWork s event) (hen : s.Enabled event) :
    0 < (s.next event).work → (s.next event).Watched := by
  intro hwork
  cases event with
  | subscribe c | call c =>
      exact .of_caller (moveCaller_callers_self s c .testingFlag) (Or.inl rfl)
  | testFlag c =>
      cases hflag : s.isRunning with
      | false =>
          rw [next, hflag]
          exact .of_caller (moveCaller_callers_self s c .settingFlag) (Or.inr (Or.inl rfl))
      | true =>
          rw [next, hflag]
          rcases hcond hflag hwork with hserves | ⟨c', hne, hstart⟩
          · exact Or.inl hserves
          · exact Or.inr ⟨c', (willStart_moveCaller_of_ne hne).mpr hstart⟩
  | setFlag c =>
      exact .of_caller (moveCaller_callers_self s c .testingJoinable) (Or.inr (Or.inr (Or.inl rfl)))
  | testJoinable c =>
      cases hthread : s.ioThread with
      | none =>
          have hself : (s.next (.testJoinable c)).callers c = .spawning := by
            simp [next, hthread]
          exact .of_caller hself (Or.inr (Or.inr (Or.inr (Or.inl rfl))))
      | some point =>
          have hself : (s.next (.testJoinable c)).callers c = .joining := by
            simp [next, hthread]
          have hsome : (s.next (.testJoinable c)).ioThread ≠ none := by
            simp [next, hthread]
          exact .of_caller hself (Or.inr (Or.inr (Or.inr (Or.inr ⟨rfl, hsome⟩))))
  | join c =>
      obtain ⟨hc, hnone | hexited⟩ := hen
      · -- the thread was joined by another caller, which goes on to start a new one
        rw [next_join_of_none c hnone] at hwork ⊢
        exact (hwatched hwork).moveCaller
          (not_willStart hc (Or.inr (Or.inr (Or.inr ⟨rfl, hnone⟩))))
      · have hself : (s.next (.join c)).callers c = .spawning := by
          rw [next_join_of_some c hexited]
          exact moveCaller_callers_self s c .spawning
        exact .of_caller hself (Or.inr (Or.inr (Or.inr (Or.inl rfl))))
  | start c =>
      exact Or.inl ⟨some c, .loopHead, moveThread_threads_self s (some c) .loopHead, Or.inl trivial⟩
  | assign c =>
      cases hthread : s.ioThread with
      | none =>
          rw [next_assign_of_none c hthread] at hwork ⊢
          exact (hwatched hwork).assignThread hen hthread
      | some point =>
          rw [next_assign_of_some c hthread] at hwork ⊢
          exact hwatched hwork
  | leave c => exact (hwatched hwork).moveCaller (not_willStart hen (Or.inr (Or.inr (Or.inl rfl))))
  | enterLoop place =>
      exact Or.inl ⟨place, .flagSet, moveThread_threads_self s place .flagSet, Or.inl trivial⟩
  | testStopped place =>
      refine Or.inl ⟨place, _, moveThread_threads_self s place _, ?_⟩
      cases hstopped : s.stopped with
      | true => exact Or.inl trivial
      | false => exact Or.inr ⟨rfl, hstopped⟩
  | restart place =>
      exact Or.inl ⟨place, .insideRun, moveThread_threads_self s place .insideRun,
        Or.inr ⟨rfl, rfl⟩⟩
  | handler place posted => exact Or.inl ⟨place, .insideRun, hen.1, Or.inr ⟨rfl, hen.2.1⟩⟩
  | handlerThrows place posted =>
      exact Or.inl ⟨place, .loopHead, moveThread_threads_self s place .loopHead, Or.inl trivial⟩
  | runReturns place =>
      obtain ⟨hinside, hzero | hstopped⟩ := hen
      · have hwork' : 0 < s.work := hwork
        omega
      · have hmoved : (s.moveThread place .runReturned).Watched :=
          (hwatched hwork).moveThread (not_serves hinside id (fun _ => hstopped))
        have hnext : s.next (.runReturns place) = s.moveThread place .runReturned := by
          rw [next, ← hstopped]
          rfl
        exact hnext ▸ hmoved
  | clearFlag place | clearFlagAgain place | exit place =>
      exact (hwatched hwork).moveThread (not_serves hen id (by simp))

/-- **No lost wake-up** along a run in which no caller leaves work behind. -/
theorem no_lost_wakeup {events : List (IoEvent κ)} {final : IoState κ}
    (halong : Along step LeavesNoWork initial events)
    (hrun : run step initial events = some final) : ¬ final.Lost := by
  have hkeeps : ∀ (s : IoState κ) event s', s.Held ∧ (0 < s.work → s.Watched) →
      s.LeavesNoWork event → s.step event = some s' →
        s'.Held ∧ (0 < s'.work → s'.Watched) := by
    intro s event s' ⟨hheld, hwatched⟩ hcond hstep
    obtain ⟨⟨-, hen⟩, rfl⟩ := step_eq_some.mp hstep
    exact ⟨held_next hheld hen, watched_next hwatched hcond hen⟩
  have hstart : (initial : IoState κ).Held ∧
      (0 < (initial : IoState κ).work → (initial : IoState κ).Watched) :=
    ⟨held_initial, fun h => absurd h (by simp [initial])⟩
  obtain ⟨hheld, hwatched⟩ := invariant_of_run hkeeps hstart halong hrun
  rintro ⟨hwork, hexited, hidle⟩
  rcases hwatched hwork with ⟨place, hserves⟩ | ⟨c, hstart⟩
  · cases place with
    | none => exact not_serves hexited id (by simp) hserves
    | some c =>
        obtain ⟨point, hpoint, -⟩ := hserves
        rw [hheld c (by simp [hidle c])] at hpoint
        cases hpoint
  · exact not_willStart (hidle c) (Or.inl rfl) hstart

/-- The second caller posts work and starts a new thread while the first thread
    is between its two writes of the flag. -/
def restartedRun : List (IoEvent (Fin 2)) :=
  [.subscribe 0, .testFlag 0, .setFlag 0, .testJoinable 0, .start 0, .assign 0, .leave 0,
    .enterLoop none, .testStopped none, .handlerThrows none 2, .enterLoop none,
    .testStopped none, .handler none 0, .handler none 0, .runReturns none, .clearFlag none,
    .subscribe 1, .testFlag 1, .setFlag 1, .testJoinable 1, .clearFlagAgain none, .exit none,
    .join 1, .start 1, .assign 1, .leave 1]

theorem no_lost_wakeup_restarted :
    ∃ final, run step initial restartedRun = some final ∧ 0 < final.work ∧ ¬ final.Lost := by
  have halong : Along step LeavesNoWork initial restartedRun := by decide
  exact ⟨_, rfl, by decide, no_lost_wakeup halong rfl⟩

/-- One caller: the subscription is posted after `ioContext.run()` has returned,
    and the flag is tested before it is cleared. -/
theorem wakeup_lost :
    ¬ ∀ (events : List (IoEvent Unit)) (final : IoState Unit),
      run step initial events = some final → ¬ final.Lost := by
  intro h
  refine h [.subscribe (), .testFlag (), .setFlag (), .testJoinable (), .start (), .assign (),
    .leave (), .enterLoop none, .testStopped none, .handler none 0, .runReturns none,
    .subscribe (), .testFlag (), .clearFlag none, .clearFlagAgain none, .exit none] _ rfl
    ⟨?_, rfl, fun _ => rfl⟩
  decide

/-! ### What is left behind is lost -/

/-- A thread that has returned from `ioContext.run()` finishes. -/
theorem run_finish {s : IoState κ} {place : Option κ} (hterminated : s.terminated = false)
    (hplace : s.threads place = some .runReturned) :
    run step s [.clearFlag place, .clearFlagAgain place, .exit place] =
      some { s.moveThread place .exited with isRunning := false } := by
  have hclear : s.Enabled (.clearFlag place) := hplace
  rw [run_cons hterminated hclear]
  refine Eq.trans (run_cons hterminated (moveThread_threads_self s place .flagCleared)) ?_
  refine Eq.trans (run_cons hterminated (moveThread_threads_self _ place .flagClearedAgain)) ?_
  simp [run, next, moveThread]

/-- Work that a caller leaves behind is lost once the thread has exited, when there is
    nobody else in `run`. -/
theorem lost_of_leavesWork {s : IoState κ} {c : κ} (hterminated : s.terminated = false)
    (hc : s.callers c = .testingFlag) (hleaves : ¬ s.LeavesNoWork (.testFlag c))
    (hreturned : s.ioThread = some .runReturned) (hidle : ∀ c', c' ≠ c → s.callers c' = .idle) :
    ∃ final, run step s [.testFlag c, .clearFlag none, .clearFlagAgain none, .exit none] =
        some final ∧ final.Lost := by
  unfold LeavesNoWork at hleaves
  push Not at hleaves
  obtain ⟨hflag, hwork, -⟩ := hleaves
  have htest : s.Enabled (.testFlag c) := hc
  have hleft : s.next (.testFlag c) = s.moveCaller c .idle := by
    simp [next, hflag]
  refine ⟨{ (s.moveCaller c .idle).moveThread none .exited with isRunning := false }, ?_,
    hwork, moveThread_threads_self (s.moveCaller c .idle) none .exited, ?_⟩
  · rw [run_cons hterminated htest, hleft]
    exact run_finish hterminated hreturned
  · intro c'
    by_cases h : c' = c
    · subst h
      exact moveCaller_callers_self s c' .idle
    · exact (moveCaller_callers_of_ne s .idle h).trans (hidle c' h)

/-- A caller moves its thread into `ioThread` and returns. -/
theorem run_assign {s : IoState κ} {c : κ} (hterminated : s.terminated = false)
    (hc : s.callers c = .assigning) (hnone : s.ioThread = none) :
    run step s [.assign c, .leave c] = some ((s.assignThread c).moveCaller c .idle) := by
  have hassign : s.Enabled (.assign c) := hc
  have hleave : ((s.assignThread c).moveCaller c .returning).Enabled (.leave c) :=
    moveCaller_callers_self _ c .returning
  have hassigned : ((s.assignThread c).moveCaller c .returning).terminated = false := hterminated
  rw [run_cons hterminated hassign, next_assign_of_none c hnone, run_cons hassigned hleave]
  simp [run, next, moveCaller]

/-- So is work left behind beside a call that has started its thread and has yet to
    return. -/
theorem lost_beside_start {s : IoState κ} {c c' : κ} (hterminated : s.terminated = false)
    (hc : s.callers c = .testingFlag) (hleaves : ¬ s.LeavesNoWork (.testFlag c))
    (hc' : s.callers c' = .assigning) (hnone : s.ioThread = none)
    (hreturned : s.threads (some c') = some .runReturned)
    (hidle : ∀ c'', c'' ≠ c → c'' ≠ c' → s.callers c'' = .idle) :
    ∃ final, run step s [.testFlag c, .clearFlag (some c'), .clearFlagAgain (some c'),
        .exit (some c'), .assign c', .leave c'] = some final ∧ final.Lost := by
  unfold LeavesNoWork at hleaves
  push Not at hleaves
  obtain ⟨hflag, hwork, -⟩ := hleaves
  have hne : c' ≠ c := by
    rintro rfl
    rw [hc] at hc'
    cases hc'
  have htest : s.Enabled (.testFlag c) := hc
  have hleft : s.next (.testFlag c) = s.moveCaller c .idle := by
    simp [next, hflag]
  -- the caller leaves, and the thread that has been started exits
  let exited : IoState κ :=
    { (s.moveCaller c .idle).moveThread (some c') .exited with isRunning := false }
  have hexited : run step s [.testFlag c, .clearFlag (some c'), .clearFlagAgain (some c'),
      .exit (some c')] = some exited := by
    rw [run_cons hterminated htest, hleft]
    exact run_finish hterminated hreturned
  have hplace : (none : Option κ) ≠ some c' := by simp
  have hassigning : exited.callers c' = .assigning :=
    (moveCaller_callers_of_ne s .idle hne).trans hc'
  have hstill : exited.ioThread = none :=
    (moveThread_threads_of_ne (s.moveCaller c .idle) .exited hplace).trans hnone
  refine ⟨(exited.assignThread c').moveCaller c' .idle, ?_, hwork, ?_, ?_⟩
  · have hmoved : run step exited [.assign c', .leave c'] = _ :=
      run_assign hterminated hassigning hstill
    exact (run_append [.assign c', .leave c'] hexited).trans hmoved
  · rw [moveCaller_ioThread]
    refine (assignThread_none exited c').trans ?_
    exact moveThread_threads_self (s.moveCaller c .idle) (some c') .exited
  · intro c''
    by_cases hself : c'' = c'
    · subst hself
      exact moveCaller_callers_self _ c'' .idle
    · rw [moveCaller_callers_of_ne _ _ hself, assignThread_callers]
      show (s.moveCaller c .idle).callers c'' = .idle
      by_cases hother : c'' = c
      · subst hother
        exact moveCaller_callers_self s c'' .idle
      · exact (moveCaller_callers_of_ne s .idle hother).trans (hidle c'' hother hself)

/-! ### No join of a live thread -/

/-- A caller that finds `isRunning` down, and so goes on to start a thread, is the
    only one to do so, and the last thread is not at the head of its loop with
    the flag still to be set. -/
def StartsAlone (s : IoState κ) : IoEvent κ → Prop
  | .testFlag _ =>
      s.isRunning = false →
        s.ioThread ≠ some .loopHead ∧ ∀ c', ¬ (s.callers c').PastTest
  | _ => True

instance [Fintype κ] (s : IoState κ) : DecidablePred (StartsAlone s)
  | .testFlag _ =>
      inferInstanceAs (Decidable (s.isRunning = false →
        s.ioThread ≠ some .loopHead ∧ ∀ c', ¬ (s.callers c').PastTest))
  | .subscribe _ | .call _ | .setFlag _ | .testJoinable _ | .join _ | .start _ | .assign _
  | .leave _ | .enterLoop _ | .testStopped _ | .restart _ | .handler _ _ | .handlerThrows _ _
  | .runReturns _ | .clearFlag _ | .clearFlagAgain _ | .exit _ => .isTrue trivial

structure JoinInv (s : IoState κ) : Prop where
  held : s.Held
  flagUp : ∀ place point, s.threads place = some point → point.FlagUp → s.isRunning = true
  threadDone : ∀ c, (s.callers c).PastTest → ∀ point, s.ioThread = some point → ¬ point.Live
  joined : ∀ c, s.callers c = .spawning ∨ s.callers c = .assigning → s.ioThread = none
  onePast : ∀ c c', (s.callers c).PastTest → (s.callers c').PastTest → c = c'

omit [DecidableEq κ] in
theorem joinInv_initial : JoinInv (initial : IoState κ) where
  held := held_initial
  flagUp _ _ h := by simp [initial] at h
  threadDone _ h := h.elim
  joined _ _ := rfl
  onePast _ _ h := h.elim

theorem pastTest_of_moveCaller {s : IoState κ} {c c' : κ} {point : CallerPoint}
    (hbefore : point.PastTest → (s.callers c).PastTest)
    (h : ((s.moveCaller c point).callers c').PastTest) : (s.callers c').PastTest := by
  by_cases hc : c' = c
  · subst hc
    rw [moveCaller_callers_self] at h
    exact hbefore h
  · rwa [moveCaller_callers_of_ne s point hc] at h

omit [DecidableEq κ] in
/-- There is one thread at the most: the one of `ioThread`, or the one that the only
    caller who is past its test has started. -/
theorem JoinInv.oneThread {s : IoState κ} (hinv : JoinInv s) {place place' : Option κ}
    {point point' : IoPoint} (h : s.threads place = some point)
    (h' : s.threads place' = some point') : place = place' := by
  have hassigning : ∀ {c : κ} {p : IoPoint}, s.threads (some c) = some p →
      s.callers c = .assigning := by
    intro c p hp
    by_contra hne
    rw [hinv.held c hne] at hp
    cases hp
  cases place with
  | none =>
      cases place' with
      | none => rfl
      | some c' =>
          have hnone := hinv.joined c' (Or.inr (hassigning h'))
          exact absurd (hnone.symm.trans h) (by simp)
  | some c =>
      cases place' with
      | none =>
          have hnone := hinv.joined c (Or.inr (hassigning h))
          exact absurd (hnone.symm.trans h') (by simp)
      | some c' =>
          rw [hinv.onePast c c' (hassigning h ▸ trivial) (hassigning h' ▸ trivial)]

/-- A caller that does not pass its test in this step, while the threads stay where they
    are. -/
theorem JoinInv.moveCaller {s : IoState κ} (hinv : JoinInv s) {c : κ} {point : CallerPoint}
    {flag : Bool} {work : Nat} (hc : s.callers c ≠ .assigning)
    (hbefore : point.PastTest → (s.callers c).PastTest)
    (hjoined : point = .spawning ∨ point = .assigning → s.ioThread = none)
    (hflag : s.isRunning = true → flag = true) :
    JoinInv { s.moveCaller c point with isRunning := flag, work := work } where
  held := hinv.held.moveCaller hc
  flagUp place point h hup := hflag (hinv.flagUp place point h hup)
  threadDone _ h := hinv.threadDone _ (pastTest_of_moveCaller hbefore h)
  joined c' h := by
    by_cases heq : c' = c
    · subst heq
      replace h : (s.moveCaller c' point).callers c' = .spawning ∨ _ := h
      rw [moveCaller_callers_self] at h
      exact hjoined h
    · replace h : (s.moveCaller c point).callers c' = .spawning ∨ _ := h
      rw [moveCaller_callers_of_ne s point heq] at h
      exact hinv.joined c' h
  onePast _ _ h h' :=
    hinv.onePast _ _ (pastTest_of_moveCaller hbefore h) (pastTest_of_moveCaller hbefore h')

/-- A step of a thread: where it is still to return from `ioContext.run()` it was before,
    and the flag is up if it is past the head of its loop. -/
theorem JoinInv.moveThread {s : IoState κ} (hinv : JoinInv s) {place : Option κ}
    {before point : IoPoint} {flag stopped : Bool} {work : Nat}
    (hplace : s.threads place = some before) (hlive : point.Live → before.Live)
    (hflag : point.FlagUp → flag = true) :
    JoinInv { s.moveThread place point with
      isRunning := flag, stopped := stopped, work := work } where
  held := hinv.held.moveThread point hplace
  flagUp place' point' h hup := by
    by_cases heq : place' = place
    · subst heq
      replace h : (s.moveThread place' point).threads place' = some point' := h
      rw [moveThread_threads_self, Option.some.injEq] at h
      exact hflag (h ▸ hup)
    · replace h : (s.moveThread place point).threads place' = some point' := h
      rw [moveThread_threads_of_ne s point heq] at h
      exact absurd (hinv.oneThread h hplace) heq
  threadDone c h point' hthread := by
    by_cases heq : none = place
    · subst heq
      replace hthread : (s.moveThread none point).threads none = some point' := hthread
      rw [moveThread_threads_self, Option.some.injEq] at hthread
      subst hthread
      exact fun h' => hinv.threadDone c h before hplace (hlive h')
    · replace hthread : (s.moveThread place point).threads none = some point' := hthread
      rw [moveThread_threads_of_ne s point heq] at hthread
      exact hinv.threadDone c h point' hthread
  joined c h := by
    have hnone := hinv.joined c h
    have hne : none ≠ place := by
      rintro rfl
      exact absurd (hnone.symm.trans hplace) (by simp)
    exact (moveThread_threads_of_ne s point hne).trans hnone
  onePast := hinv.onePast

section Steps

variable {s : IoState κ} {c : κ}

/-- A caller that finds the flag down goes on alone, past a thread that is done. -/
theorem JoinInv.testFlag (hinv : JoinInv s) (hcond : StartsAlone s (.testFlag c))
    (hen : s.Enabled (.testFlag c)) : JoinInv (s.next (.testFlag c)) := by
  have hc : s.callers c = .testingFlag := hen
  cases hflag : s.isRunning with
  | true =>
      rw [next, hflag]
      exact hinv.moveCaller (by simp [hc]) False.elim (by simp) (fun _ => hflag)
  | false =>
      obtain ⟨hhead, halone⟩ := hcond hflag
      have hdead : ∀ point, s.ioThread = some point → ¬ point.Live := by
        intro point hpoint hlive
        have hup := hinv.flagUp none point hpoint
          ⟨hlive, fun heq => hhead (heq ▸ hpoint)⟩
        rw [hflag] at hup
        cases hup
      have honly : ∀ c', ((s.moveCaller c .settingFlag).callers c').PastTest → c' = c := by
        intro c' hpast
        by_contra hne
        rw [moveCaller_callers_of_ne s _ hne] at hpast
        exact halone c' hpast
      rw [next, hflag]
      refine ⟨hinv.held.moveCaller (by simp [hc]), hinv.flagUp, fun _ _ => hdead, ?_, ?_⟩
      · intro c' hc'
        have hsame := honly c' (by rcases hc' with h | h <;> exact h ▸ trivial)
        subst hsame
        replace hc' : (s.moveCaller c' .settingFlag).callers c' = .spawning ∨ _ := hc'
        simp at hc'
      · intro c₁ c₂ h₁ h₂
        rw [honly c₁ h₁, honly c₂ h₂]

theorem JoinInv.join (hinv : JoinInv s) (hen : s.Enabled (.join c)) :
    JoinInv (s.next (.join c)) := by
  obtain ⟨hc, hnone | hexited⟩ := hen
  · rw [next_join_of_none c hnone]
    exact hinv.moveCaller (by simp [hc]) False.elim (by simp) id
  · rw [next_join_of_some c hexited]
    have hpast : ∀ c', ((s.moveCaller c .spawning).callers c').PastTest → c' = c := by
      intro c' h
      exact hinv.onePast c' c (pastTest_of_moveCaller (fun _ => hc ▸ trivial) h) (hc ▸ trivial)
    refine ⟨?_, ?_, ?_, fun _ _ => by simp [ioThread], ?_⟩
    · intro c' hc'
      have hmoved : (s.moveCaller c .spawning).Held := hinv.held.moveCaller (by simp [hc])
      simpa using hmoved c' hc'
    · intro place point h hup
      cases place with
      | none => simp at h
      | some c' => exact hinv.flagUp (some c') point (by simpa using h) hup
    · intro c' _ point h
      simp [ioThread] at h
    · intro c₁ c₂ h₁ h₂
      rw [hpast c₁ h₁, hpast c₂ h₂]

/-- The new thread is at the head of its loop, and `ioThread` has none. -/
theorem JoinInv.start (hinv : JoinInv s) (hen : s.Enabled (.start c)) :
    JoinInv (s.next (.start c)) := by
  have hc : s.callers c = .spawning := hen
  have hnone := hinv.joined c (Or.inl hc)
  have hpast : ∀ c', ((s.next (.start c)).callers c').PastTest → c' = c := by
    intro c' h
    exact hinv.onePast c' c
      (pastTest_of_moveCaller (s := s.moveThread (some c) .loopHead) (fun _ => hc ▸ trivial) h)
      (hc ▸ trivial)
  have hplace : (none : Option κ) ≠ some c := by simp
  have hthread : (s.next (.start c)).ioThread = none :=
    (moveThread_threads_of_ne s .loopHead hplace).trans hnone
  refine ⟨held_next hinv.held hen, ?_, ?_, fun _ _ => hthread, ?_⟩
  · intro place point h hup
    by_cases heq : place = some c
    · subst heq
      replace h : (s.moveThread (some c) .loopHead).threads (some c) = some point := h
      rw [moveThread_threads_self, Option.some.injEq] at h
      exact absurd h.symm hup.2
    · replace h : (s.moveThread (some c) .loopHead).threads place = some point := h
      rw [moveThread_threads_of_ne s .loopHead heq] at h
      exact hinv.flagUp place point h hup
  · intro c' _ point h
    rw [hthread] at h
    cases h
  · intro c₁ c₂ h₁ h₂
    rw [hpast c₁ h₁, hpast c₂ h₂]

/-- With its thread moved into `ioThread`, nobody is past the test any more. -/
theorem JoinInv.assign (hinv : JoinInv s) (hen : s.Enabled (.assign c)) :
    JoinInv (s.next (.assign c)) := by
  have hc : s.callers c = .assigning := hen
  have hnone := hinv.joined c (Or.inr hc)
  have hnobody : ∀ c', ¬ ((s.next (.assign c)).callers c').PastTest := by
    intro c' hpast
    rw [next_assign_of_none c hnone] at hpast
    have hc' : c' = c := hinv.onePast c' c
      (pastTest_of_moveCaller (s := s.assignThread c) False.elim hpast) (hc ▸ trivial)
    rw [hc', moveCaller_callers_self] at hpast
    exact hpast
  refine ⟨held_next hinv.held hen, ?_, fun c' h => absurd h (hnobody c'), ?_,
    fun c' _ h => absurd h (hnobody c')⟩
  · intro place point h hup
    rw [next_assign_of_none c hnone] at h ⊢
    rw [moveCaller_threads] at h
    cases place with
    | none => exact hinv.flagUp (some c) point (by rwa [assignThread_none] at h) hup
    | some c' =>
        by_cases heq : c' = c
        · subst heq
          rw [assignThread_self] at h
          cases h
        · exact hinv.flagUp (some c') point (by rwa [assignThread_of_ne s heq] at h) hup
  · intro c' h
    exact absurd (by rcases h with h | h <;> exact h ▸ trivial) (hnobody c')

end Steps

theorem joinInv_next {s : IoState κ} {event : IoEvent κ} (hinv : JoinInv s)
    (hcond : StartsAlone s event) (hen : s.Enabled event) : JoinInv (s.next event) := by
  cases event with
  | subscribe c | call c =>
      have hc : s.callers c = .idle := hen
      exact hinv.moveCaller (by simp [hc]) False.elim (by simp) id
  | testFlag c => exact hinv.testFlag hcond hen
  | setFlag c =>
      have hc : s.callers c = .settingFlag := hen
      exact hinv.moveCaller (by simp [hc]) (fun _ => hc ▸ trivial) (by simp) (fun _ => rfl)
  | testJoinable c =>
      have hc : s.callers c = .testingJoinable := hen
      refine hinv.moveCaller (by simp [hc]) (fun _ => hc ▸ trivial) ?_ id
      cases hthread : s.ioThread with
      | none => exact fun _ => rfl
      | some point => simp
  | join c => exact hinv.join hen
  | start c => exact hinv.start hen
  | assign c => exact hinv.assign hen
  | leave c =>
      have hc : s.callers c = .returning := hen
      exact hinv.moveCaller (by simp [hc]) False.elim (by simp) id
  | enterLoop place => exact hinv.moveThread hen (fun _ => trivial) (fun _ => rfl)
  | testStopped place =>
      exact hinv.moveThread hen (fun _ => trivial) (fun _ => hinv.flagUp place _ hen (by
        simp [IoPoint.FlagUp, IoPoint.Live]))
  | restart place =>
      exact hinv.moveThread hen (fun _ => trivial) (fun _ => hinv.flagUp place _ hen (by
        simp [IoPoint.FlagUp, IoPoint.Live]))
  | handler place posted =>
      exact ⟨hinv.held, hinv.flagUp, hinv.threadDone, hinv.joined, hinv.onePast⟩
  | handlerThrows place posted =>
      exact hinv.moveThread hen.1 (fun _ => trivial) (fun h => absurd rfl h.2)
  | runReturns place => exact hinv.moveThread hen.1 False.elim (fun h => h.1.elim)
  | clearFlag place | clearFlagAgain place | exit place =>
      exact hinv.moveThread hen False.elim (fun h => h.1.elim)

/-- **No call of `run` joins a live thread** along a run in which callers start
    threads alone. -/
theorem no_live_join {events : List (IoEvent κ)} {final : IoState κ}
    (halong : Along step StartsAlone initial events)
    (hrun : run step initial events = some final) : ¬ final.JoinsLive := by
  have hinv : JoinInv final := by
    refine invariant_of_run ?_ joinInv_initial halong hrun
    intro s event s' hs hcond hstep
    obtain ⟨⟨-, hen⟩, rfl⟩ := step_eq_some.mp hstep
    exact joinInv_next hs hcond hen
  rintro ⟨⟨point, hpoint, hlive⟩, c, hjoining⟩
  exact hinv.threadDone c (hjoining ▸ trivial) point hpoint hlive

theorem no_live_join_restarted :
    ∃ final, run step initial restartedRun = some final ∧ ¬ final.JoinsLive := by
  have halong : Along step StartsAlone initial restartedRun := by decide
  exact ⟨_, rfl, no_live_join halong rfl⟩

/-- One caller: it starts the second thread between the two writes of the flag,
    and calls `run` again before the new thread has set the flag. -/
theorem run_joins_live :
    ¬ ∀ (events : List (IoEvent Unit)) (final : IoState Unit),
      run step initial events = some final → ¬ final.JoinsLive := by
  intro h
  exact h [.subscribe (), .testFlag (), .setFlag (), .testJoinable (), .start (), .assign (),
    .leave (), .enterLoop none, .testStopped none, .handler none 0, .runReturns none,
    .clearFlag none, .subscribe (), .testFlag (), .setFlag (), .testJoinable (),
    .clearFlagAgain none, .exit none, .join (), .start (), .assign (), .leave (),
    .call (), .testFlag (), .setFlag (), .testJoinable ()] _ rfl
    ⟨⟨.loopHead, rfl, trivial⟩, (), rfl⟩

/-- A caller that finds the flag down before the new thread has set it goes on to
    join that thread. -/
theorem joinsLive_of_loopHead {s : IoState κ} {c : κ} (hterminated : s.terminated = false)
    (hc : s.callers c = .testingFlag) (hflag : s.isRunning = false)
    (hhead : s.ioThread = some .loopHead) :
    ∃ final, run step s [.testFlag c, .setFlag c, .testJoinable c] = some final ∧
      final.JoinsLive := by
  have htest : s.Enabled (.testFlag c) := hc
  have htested : s.next (.testFlag c) = s.moveCaller c .settingFlag := by
    simp [next, hflag]
  refine ⟨((s.moveCaller c .settingFlag).next (.setFlag c)).next (.testJoinable c), ?_,
    ⟨.loopHead, hhead, trivial⟩, c, ?_⟩
  · rw [run_cons hterminated htest, htested]
    refine Eq.trans (run_cons hterminated (moveCaller_callers_self s c .settingFlag)) ?_
    exact Eq.trans (run_cons hterminated (moveCaller_callers_self _ c .testingJoinable)) rfl
  · generalize hset : (s.moveCaller c .settingFlag).next (.setFlag c) = t
    have hthread : t.ioThread = some .loopHead := by
      rw [← hset]
      exact hhead
    simp [next, hthread]

end IoState

end BybitApi
