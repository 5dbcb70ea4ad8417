import BybitApi.Machine
import Mathlib.Logic.Function.Basic

/-!
# The io thread of the WebSocket client

`WebSocketClient::run` starts a thread that runs the `io_context` until no work is
left.  Calls of `run` and the threads interleave freely, so every access to the
shared state is a step of its own: the test and the writes of `isRunning`, the
joinable test, the join, the start of a new thread, its move into `ioThread` and the
return of `run`, and in the thread the test of `ioContext.stopped()` and the restart.
A new thread runs from its start on, before `ioThread` has it.

The pending work of the `io_context` is counted.  `ioContext.run()` returns when
the count is zero or the context is stopped, and leaves the context stopped;
a handler takes one item of work and may post more.
-/

namespace BybitApi

/-- Where an io thread stands in the function given to `std::thread`. -/
inductive IoPoint where
  /-- At the head of the loop, before `isRunning = true`. -/
  | loopHead
  /-- `isRunning` is set; before the test of `ioContext.stopped()`. -/
  | flagSet
  /-- Before `ioContext.restart()`. -/
  | restarting
  | insideRun
  | runReturned
  /-- After the `isRunning = false` in front of `break`. -/
  | flagCleared
  /-- After the `isRunning = false` behind the loop. -/
  | flagClearedAgain
  | exited
deriving DecidableEq, Repr

/-- The thread has yet to enter `ioContext.run()`. -/
def IoPoint.BeforeRun : IoPoint → Prop
  | .loopHead | .flagSet | .restarting => True
  | .insideRun | .runReturned | .flagCleared | .flagClearedAgain | .exited => False

/-- The thread has yet to return from `ioContext.run()`. -/
def IoPoint.Live : IoPoint → Prop
  | .loopHead | .flagSet | .restarting | .insideRun => True
  | .runReturned | .flagCleared | .flagClearedAgain | .exited => False

instance : DecidablePred IoPoint.BeforeRun := fun point => by
  cases point <;> unfold IoPoint.BeforeRun <;> infer_instance

/-- Where a caller stands in `WebSocketClient::run`, between two accesses. -/
inductive CallerPoint where
  /-- Not in `run`. -/
  | idle
  | testingFlag
  | settingFlag
  | testingJoinable
  | joining
  | spawning
  /-- The new thread runs; before its move into `ioThread`. -/
  | assigning
  | returning
deriving DecidableEq, Repr

/-- The caller has found `isRunning` down, and `ioThread` has no thread of its yet. -/
def CallerPoint.PastTest : CallerPoint → Prop
  | .idle | .testingFlag | .returning => False
  | .settingFlag | .testingJoinable | .joining | .spawning | .assigning => True

instance : DecidablePred CallerPoint.PastTest := fun point => by
  cases point <;> unfold CallerPoint.PastTest <;> infer_instance

/-- The part of `WebSocketClient::P` that `run` and the io threads share, and the
    program points of all threads.  `threads none` is the thread that `ioThread`
    has, if it is joinable, and `threads (some c)` the one that caller `c` has
    started and not moved there yet. -/
structure IoState (κ : Type) where
  isRunning : Bool
  threads : Option κ → Option IoPoint
  stopped : Bool
  work : Nat
  callers : κ → CallerPoint
  /-- `std::terminate` was called: a thread was moved into a joinable `ioThread`. -/
  terminated : Bool

/-- The steps of the callers, and those of the thread at a place. -/
inductive IoEvent (κ : Type) where
  /-- `subscribe` opens a session, which posts work; its caller goes on to `run`. -/
  | subscribe (caller : κ)
  /-- `run` is called with nothing posted before it. -/
  | call (caller : κ)
  | testFlag (caller : κ)
  | setFlag (caller : κ)
  | testJoinable (caller : κ)
  | join (caller : κ)
  | start (caller : κ)
  | assign (caller : κ)
  | leave (caller : κ)
  | enterLoop (place : Option κ)
  | testStopped (place : Option κ)
  | restart (place : Option κ)
  | handler (place : Option κ) (posted : Nat)
  | handlerThrows (place : Option κ) (posted : Nat)
  | runReturns (place : Option κ)
  | clearFlag (place : Option κ)
  | clearFlagAgain (place : Option κ)
  | exit (place : Option κ)
deriving Repr

variable {κ : Type}

namespace IoState

/-- A client that has just been constructed. -/
def initial : IoState κ :=
  { isRunning := false, threads := fun _ => none, stopped := false, work := 0,
    callers := fun _ => .idle, terminated := false }

/-- The thread of `ioThread`. -/
def ioThread (s : IoState κ) : Option IoPoint := s.threads none

def Enabled (s : IoState κ) : IoEvent κ → Prop
  | .subscribe c | .call c => s.callers c = .idle
  | .testFlag c => s.callers c = .testingFlag
  | .setFlag c => s.callers c = .settingFlag
  | .testJoinable c => s.callers c = .testingJoinable
  | .join c => s.callers c = .joining ∧ (s.ioThread = none ∨ s.ioThread = some .exited)
  | .start c => s.callers c = .spawning
  | .assign c => s.callers c = .assigning
  | .leave c => s.callers c = .returning
  | .enterLoop place => s.threads place = some .loopHead
  | .testStopped place => s.threads place = some .flagSet
  | .restart place => s.threads place = some .restarting
  | .handler place _ | .handlerThrows place _ =>
      s.threads place = some .insideRun ∧ s.stopped = false ∧ 0 < s.work
  | .runReturns place => s.threads place = some .insideRun ∧ (s.work = 0 ∨ s.stopped = true)
  | .clearFlag place => s.threads place = some .runReturned
  | .clearFlagAgain place => s.threads place = some .flagCleared
  | .exit place => s.threads place = some .flagClearedAgain

instance (s : IoState κ) : DecidablePred s.Enabled := fun event => by
  cases event <;> unfold Enabled <;> infer_instance

variable [DecidableEq κ]

def moveCaller (s : IoState κ) (c : κ) (point : CallerPoint) : IoState κ :=
  { s with callers := Function.update s.callers c point }

def moveThread (s : IoState κ) (place : Option κ) (point : IoPoint) : IoState κ :=
  { s with threads := Function.update s.threads place (some point) }

/-- The thread that `c` has started becomes the one of `ioThread`. -/
def assignThread (s : IoState κ) (c : κ) : IoState κ :=
  { s with threads :=
      Function.update (Function.update s.threads none (s.threads (some c))) (some c) none }

def next (s : IoState κ) : IoEvent κ → IoState κ
  | .subscribe c => { s.moveCaller c .testingFlag with work := s.work + 1 }
  | .call c => s.moveCaller c .testingFlag
  | .testFlag c => s.moveCaller c (if s.isRunning then .idle else .settingFlag)
  | .setFlag c => { s.moveCaller c .testingJoinable with isRunning := true }
  | .testJoinable c => s.moveCaller c (if s.ioThread.isSome then .joining else .spawning)
  | .join c =>
      match s.ioThread with
      -- another caller has joined the thread meanwhile: `join` throws out of `run`
      | none => s.moveCaller c .idle
      | some _ => { s.moveCaller c .spawning with threads := Function.update s.threads none none }
  | .start c => (s.moveThread (some c) .loopHead).moveCaller c .assigning
  | .assign c =>
      match s.ioThread with
      | none => (s.assignThread c).moveCaller c .returning
      | some _ => { s with terminated := true }
  | .leave c => s.moveCaller c .idle
  | .enterLoop place => { s.moveThread place .flagSet with isRunning := true }
  | .testStopped place => s.moveThread place (if s.stopped then .restarting else .insideRun)
  | .restart place => { s.moveThread place .insideRun with stopped := false }
  | .handler _ posted => { s with work := s.work - 1 + posted }
  -- the exception is logged and the loop starts over
  | .handlerThrows place posted =>
      { s.moveThread place .loopHead with work := s.work - 1 + posted }
  | .runReturns place => { s.moveThread place .runReturned with stopped := true }
  | .clearFlag place => { s.moveThread place .flagCleared with isRunning := false }
  | .clearFlagAgain place => { s.moveThread place .flagClearedAgain with isRunning := false }
  | .exit place => s.moveThread place .exited

def step (s : IoState κ) (event : IoEvent κ) : Option (IoState κ) :=
  if s.terminated = false ∧ s.Enabled event then some (s.next event) else none

theorem step_eq_some {s s' : IoState κ} {event : IoEvent κ} :
    s.step event = some s' ↔ (s.terminated = false ∧ s.Enabled event) ∧ s.next event = s' := by
  unfold step
  split <;> simp_all

/-- Nobody will ever do the pending work: the thread has exited and every call of `run`
    has returned. -/
def Lost (s : IoState κ) : Prop :=
  0 < s.work ∧ s.ioThread = some .exited ∧ ∀ c, s.callers c = .idle

/-- Some call of `run` waits for a thread that is still inside `ioContext.run()`,
    or has yet to enter it. -/
def JoinsLive (s : IoState κ) : Prop :=
  (∃ point, s.ioThread = some point ∧ point.Live) ∧ ∃ c, s.callers c = .joining

end IoState

end BybitApi
