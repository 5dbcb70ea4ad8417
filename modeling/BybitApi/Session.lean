import BybitApi.EventStore
import BybitApi.Machine
import BybitApi.Subscriptions

/-!
# The WebSocket session

A session is driven by the completions of its asynchronous operations.  Every
handler holds a reference to the session, but for that of a close, so a session
lives as long as an operation or a wait on the ping timer is outstanding.

The completions come in any order and with or without an error.  A wait on the
timer that is due is queued with success, and `cancel` and `expires_after` abort
only the waits that are not due yet.  `onRead` takes `subscriptionLocker` several
times, and other threads may subscribe in between, so it is several steps here;
no other handler runs meanwhile, as one thread runs them all.

A write is started with a text that lives no longer than the handler that starts it.  What
is written is up to the library, which has the memory of the text for longer (`wire`).
-/

namespace BybitApi

/-- The waits on a timer: not due yet, due with the handler queued, and aborted
    with the handler queued. -/
structure PingTimer where
  waiting : Nat
  expired : Nat
  aborted : Nat
deriving DecidableEq, Repr

namespace PingTimer

def asyncWait (timer : PingTimer) : PingTimer := { timer with waiting := timer.waiting + 1 }

/-- `cancel`, and `expires_after` as far as the waits go. -/
def cancel (timer : PingTimer) : PingTimer :=
  { timer with waiting := 0, aborted := timer.aborted + timer.waiting }

def expire (timer : PingTimer) : PingTimer :=
  { timer with waiting := 0, expired := timer.expired + timer.waiting }

end PingTimer

/-- Where the io thread stands in `onRead`. -/
inductive ReadPoint where
  /-- In no handler. -/
  | idle
  /-- The message has been dealt with; `readSubscription` comes next. -/
  | dispatched
  /-- There was no request to send; the test of `subscriptions` comes next. -/
  | nothingToSend
deriving DecidableEq, Repr

/-- The operations outstanding are counted; `texts` are those that writes are started with. -/
structure Session where
  subscriptions : Subscriptions
  resolving : Nat
  connecting : Nat
  sslHandshaking : Nat
  handshaking : Nat
  writing : Nat
  reading : Nat
  closing : Nat
  timer : PingTimer
  handler : ReadPoint
  texts : List String
deriving DecidableEq, Repr

/-- The memory of a text that a write is started with: the text at the initiation, and
    whatever is left there when the string has been destroyed. -/
structure WrittenText where
  initial : String
  afterwards : String

/-- The library makes its frame of the text at the initiation. -/
def TakesAtInitiation (frame : WrittenText → String) : Prop :=
  ∀ memory, frame memory = memory.initial

inductive SessionEvent where
  | subscribe (subscriptionFilter : String)
  | close
  | resolved (failed : Bool)
  /-- The connection may fail, and the server name may be refused after it. -/
  | connected (failed nameRefused : Bool)
  | sslHandshaked (failed : Bool)
  | handshaked (failed : Bool)
  | written (failed : Bool)
  | readFailed
  /-- A text is read; the data callback, if it is called, ends as given. -/
  | received (message : String) (callback : Except Fault Unit)
  | sendNext
  | checkSubscriptions
  | closed (failed : Bool)
  | timerExpires
  | pinged (pingExpired : Bool)
  | pingAborted

namespace Session

/-- A write is started with a text. -/
def asyncWrite (subscription : String) (s : Session) : Session :=
  { s with writing := s.writing + 1, texts := s.texts ++ [subscription] }

def asyncRead (s : Session) : Session := { s with reading := s.reading + 1 }

def closeWs (s : Session) : Session := { s with closing := s.closing + 1 }

section Source

variable (text : JsonText) (common : VkCommon) (logger : Bool)

/-- A session after `WebSocketSession::run`. -/
def opened (subscriptionFilter : String) : Session :=
  { subscriptions := writeSubscription text subscriptionFilter .none_
    resolving := 1, connecting := 0, sslHandshaking := 0, handshaking := 0
    writing := 0, reading := 0, closing := 0
    timer := { waiting := 0, expired := 0, aborted := 0 }
    handler := .idle
    texts := [] }

def onResolve (failed : Bool) (s : Session) : Session :=
  if failed then s else { s with connecting := s.connecting + 1 }

def onConnect (failed nameRefused : Bool) (s : Session) : Session :=
  if failed then s
  else if nameRefused then s
  else { s with sslHandshaking := s.sslHandshaking + 1 }

def onSSLHandshake (failed : Bool) (s : Session) : Session :=
  if failed then s else { s with handshaking := s.handshaking + 1 }

def onHandshake (failed : Bool) (s : Session) : Session :=
  if failed then s
  else
    let s := { s with timer := s.timer.asyncWait }
    match readSubscription text logger s.subscriptions with
    | .ok subscription subscriptions =>
        asyncWrite subscription { s with subscriptions := subscriptions }
    | .error _ subscriptions => { s with subscriptions := subscriptions }

def onWrite (failed : Bool) (s : Session) : Session :=
  if failed then s else s.asyncRead

/-- The error exit of `onRead`. -/
def onReadError (s : Session) : Session := { s with timer := s.timer.cancel }

/-- What `onRead` does with a text before it looks for a request to send. -/
def processMessage (message : String) (callback : Except Fault Unit) :
    Effect Subscriptions Unit := do
  let json ← ofExcept (text.parse message)
  if json.isObject then
    if isApiControlMsg json then handleApiControlMsg common logger json
    else catchAndLog logger () (do
      let _dataEvent ← ofExcept (built (Event.fromJson common json) .empty)
      ofExcept callback)
  else pure ()

/-- `onRead` up to the message, with its `catch (nlohmann::json::exception &)`. -/
def onReceived (message : String) (callback : Except Fault Unit) (s : Session) : Option Session :=
  match processMessage text common logger message callback s.subscriptions with
  | .ok () subscriptions => some { s with subscriptions := subscriptions, handler := .dispatched }
  | .error (.undefined _) _ => none
  | .error (.json _) subscriptions =>
      -- without a logger the exception handler throws itself
      if logger then some (closeWs { s with subscriptions := subscriptions })
      else some { s with subscriptions := subscriptions }
  | .error _ subscriptions => some { s with subscriptions := subscriptions }

def onSendNext (s : Session) : Session :=
  match readSubscription text logger s.subscriptions with
  | .ok subscription subscriptions =>
      if subscription ≠ "" then
        asyncWrite subscription { s with subscriptions := subscriptions, handler := .idle }
      else { s with subscriptions := subscriptions, handler := .nothingToSend }
  | .error _ subscriptions => { s with subscriptions := subscriptions, handler := .idle }

def onNothingToSend (s : Session) : Session :=
  let s := { s with handler := .idle }
  if s.subscriptions.subscriptions.isEmpty then
    -- without a logger the warning throws
    if logger then asyncRead (closeWs s) else s
  else asyncRead s

def onClose (s : Session) : Session := { s with timer := s.timer.cancel }

def onPingTimer (pingExpired : Bool) (s : Session) : Session :=
  -- without a logger the warning of `ping` throws
  if pingExpired && !logger then s
  else { s with timer := s.timer.cancel.asyncWait }

def Enabled (s : Session) : SessionEvent → Prop
  | .subscribe _ | .close => True
  | .resolved _ => s.handler = .idle ∧ 0 < s.resolving
  | .connected _ _ => s.handler = .idle ∧ 0 < s.connecting
  | .sslHandshaked _ => s.handler = .idle ∧ 0 < s.sslHandshaking
  | .handshaked _ => s.handler = .idle ∧ 0 < s.handshaking
  | .written _ => s.handler = .idle ∧ 0 < s.writing
  | .readFailed | .received _ _ => s.handler = .idle ∧ 0 < s.reading
  | .sendNext => s.handler = .dispatched
  | .checkSubscriptions => s.handler = .nothingToSend
  | .closed _ => s.handler = .idle ∧ 0 < s.closing
  | .timerExpires => 0 < s.timer.waiting
  | .pinged _ => s.handler = .idle ∧ 0 < s.timer.expired
  | .pingAborted => s.handler = .idle ∧ 0 < s.timer.aborted

instance (s : Session) : DecidablePred s.Enabled := fun event => by
  cases event <;> unfold Enabled <;> infer_instance

/-- The session after an event; `none` after undefined behaviour. -/
def next (s : Session) : SessionEvent → Option Session
  | .subscribe subscriptionFilter =>
      some { s with subscriptions := writeSubscription text subscriptionFilter s.subscriptions }
  | .close => some s.closeWs
  | .resolved failed => some (onResolve failed { s with resolving := s.resolving - 1 })
  | .connected failed nameRefused =>
      some (onConnect failed nameRefused { s with connecting := s.connecting - 1 })
  | .sslHandshaked failed =>
      some (onSSLHandshake failed { s with sslHandshaking := s.sslHandshaking - 1 })
  | .handshaked failed =>
      some (onHandshake text logger failed { s with handshaking := s.handshaking - 1 })
  | .written failed => some (onWrite failed { s with writing := s.writing - 1 })
  | .readFailed => some (onReadError { s with reading := s.reading - 1 })
  | .received message callback =>
      onReceived text common logger message callback { s with reading := s.reading - 1 }
  | .sendNext => some (onSendNext text logger s)
  | .checkSubscriptions => some (onNothingToSend logger s)
  | .closed _ => some (onClose { s with closing := s.closing - 1 })
  | .timerExpires => some { s with timer := s.timer.expire }
  | .pinged pingExpired =>
      some (onPingTimer logger pingExpired
        { s with timer := { s.timer with expired := s.timer.expired - 1 } })
  | .pingAborted =>
      some { s with timer := { s.timer with aborted := s.timer.aborted - 1 } }

def step (s : Session) (event : SessionEvent) : Option Session :=
  if s.Enabled event then s.next text common logger event else none

theorem step_eq_some {s s' : Session} {event : SessionEvent} :
    s.step text common logger event = some s' ↔
      s.Enabled event ∧ s.next text common logger event = some s' := by
  unfold step
  split <;> simp_all

end Source

/-! ### What keeps a session alive -/

/-- The resolve, connect and handshakes outstanding. -/
def connectOps (s : Session) : Nat :=
  s.resolving + s.connecting + s.sslHandshaking + s.handshaking

/-- The reads and writes outstanding. -/
def dataOps (s : Session) : Nat := s.writing + s.reading

/-- The handlers that hold a reference to the session. -/
def selfReferences (s : Session) : Nat :=
  s.connectOps + s.dataOps + s.timer.waiting + s.timer.expired + s.timer.aborted

/-- `WebSocketClient::subscribe`, when the client's weak pointer refers to the session:
    the session it refers to afterwards, while there is one. -/
def clientSubscribe (text : JsonText) (subscriptionFilter : String) (s : Session) :
    Option Session :=
  if 0 < s.selfReferences ∨ s.handler ≠ .idle then
    some { s with subscriptions := writeSubscription text subscriptionFilter s.subscriptions }
  -- `WebSocketSession::run` throws, and the new session is destroyed
  else if subscriptionFilter = "" then none
  else some (opened text subscriptionFilter)

/-- The frames that are written, where `frame` is what `async_write` makes of the memory of a
    text and `left n` is left of the `n`-th. -/
def wire (frame : WrittenText → String) (left : Nat → String) (s : Session) : List String :=
  s.texts.mapIdx fun n subscription => frame ⟨subscription, left n⟩

theorem wire_eq {frame : WrittenText → String} (hframe : TakesAtInitiation frame)
    (left : Nat → String) (s : Session) : s.wire frame left = s.texts := by
  rw [wire, List.mapIdx_eq_iff]
  intro n
  cases s.texts[n]? with
  | none => rfl
  | some subscription => exact congrArg some (hframe ⟨subscription, left n⟩).symm

/-- No handler runs, no operation is outstanding and no close is in progress. -/
def Quiet (s : Session) : Prop :=
  s.handler = .idle ∧ s.connectOps = 0 ∧ s.dataOps = 0 ∧ s.closing = 0

/-- The ping timer is not waiting, and no handler is queued that arms it again. -/
def TimerDone (s : Session) : Prop := s.timer.waiting = 0 ∧ s.timer.expired = 0

/-- Once it is quiet the session leaves the timer alone, too. -/
def NoZombie (s : Session) : Prop := s.Quiet → s.TimerDone

/-- A session that is quiet and no zombie is referred to by aborted waits only, so
    it is destroyed when they are delivered. -/
theorem NoZombie.selfReferences {s : Session} (h : s.NoZombie) (hquiet : s.Quiet) :
    s.selfReferences = s.timer.aborted := by
  obtain ⟨hwaiting, hexpired⟩ := h hquiet
  rcases hquiet with ⟨-, hconnect, hdata, -⟩
  simp [Session.selfReferences, hconnect, hdata, hwaiting, hexpired]

theorem clientSubscribe_of_unreferenced (text : JsonText) {s : Session}
    {subscriptionFilter : String} (hidle : s.handler = .idle) (hreferences : s.selfReferences = 0)
    (hfilter : subscriptionFilter ≠ "") :
    s.clientSubscribe text subscriptionFilter = some (opened text subscriptionFilter) := by
  simp [clientSubscribe, hidle, hreferences, hfilter]

end Session

end BybitApi
