import BybitApi.Faults
import BybitApi.SessionLifetime

/-!
# The read handler

`onRead` as one computation, from the text received to the next operation, with all
the exceptions that it lets out.  The session machine runs it in three steps, as other
threads may subscribe in between; when none does, the steps leave the session that
`onRead` leaves (`onRead_run`).
-/

namespace BybitApi

/-- A computation on what `subscriptionLocker` guards, within a handler. -/
def onSubscriptions {α : Type} (effect : Effect Subscriptions α) : Effect Session α := fun s =>
  match effect s.subscriptions with
  | .ok value subscriptions => .ok value { s with subscriptions := subscriptions }
  | .error fault subscriptions => .error fault { s with subscriptions := subscriptions }

/-- `if (dataEventCB) dataEventCB(dataEvent)`. -/
def callDataEvent (dataEventCB : Option (Event → Except Fault Unit)) (dataEvent : Event) :
    Except Fault Unit :=
  match dataEventCB with
  | none => .ok ()
  | some callback => callback dataEvent

namespace Session

section Source

variable (text : JsonText) (common : VkCommon) (logger : Bool)
  (dataEventCB : Option (Event → Except Fault Unit))

/-- What `onRead` does with a value that it has parsed. -/
def dispatch (json : Json) : Effect Subscriptions Unit :=
  if json.isObject then
    if isApiControlMsg json then handleApiControlMsg common logger json
    else catchAndLog logger () (do
      let dataEvent ← ofExcept (built (Event.fromJson common json) .empty)
      ofExcept (callDataEvent dataEventCB dataEvent))
  else pure ()

/-- What `onRead` does when the message has been dealt with. -/
def nextOperation : Effect Session Unit := do
  let subscription ← onSubscriptions (readSubscription text logger)
  if subscription ≠ "" then modify (asyncWrite subscription)
  else do
    if (← get).subscriptions.subscriptions.isEmpty then do
      logMessage logger
      modify closeWs
    modify asyncRead

/-- The `try` block of `onRead`. -/
def handleMessage (message : String) : Effect Session Unit := do
  let json ← ofExcept (text.parse message)
  onSubscriptions (dispatch common logger dataEventCB json)
  nextOperation text logger

/-- The `catch (nlohmann::json::exception &)` of `onRead`. -/
def catchJson (effect : Effect Session Unit) : Effect Session Unit := fun s =>
  match effect s with
  | .error (.json _) s' => (do logMessage logger; modify closeWs : Effect Session Unit) s'
  | result => result

/-- `onRead` without a stream error. -/
def onRead (message : String) : Effect Session Unit :=
  catchJson logger (handleMessage text common logger dataEventCB message)

end Source

variable {text : JsonText} {common : VkCommon} {logger : Bool}
  {dataEventCB : Option (Event → Except Fault Unit)}

/-! ### The parts of the handler -/

theorem onSubscriptions_of_ok {α : Type} {effect : Effect Subscriptions α} {value : α}
    {s : Session} {subscriptions : Subscriptions}
    (h : effect s.subscriptions = .ok value subscriptions) :
    onSubscriptions effect s = .ok value { s with subscriptions := subscriptions } := by
  simp only [onSubscriptions, h]

theorem onSubscriptions_of_error {α : Type} {effect : Effect Subscriptions α} {fault : Fault}
    {s : Session} {subscriptions : Subscriptions}
    (h : effect s.subscriptions = .error fault subscriptions) :
    onSubscriptions effect s = .error fault { s with subscriptions := subscriptions } := by
  simp only [onSubscriptions, h]

/-- A pending request is written. -/
theorem nextOperation_of_request (htext : text.Faithful) {s : Session} {f : String}
    {subscriptions : Subscriptions}
    (h : readSubscription text logger s.subscriptions =
      .ok (subscriptionRequest text f) subscriptions) :
    nextOperation text logger s =
      .ok () (asyncWrite (subscriptionRequest text f)
        { s with subscriptions := subscriptions }) := by
  unfold nextOperation
  rw [bind_of_ok _ (onSubscriptions_of_ok h), if_pos (htext.request_ne_empty f)]
  rfl

/-- Without one the session reads on; without a subscription it warns and closes, too. -/
theorem nextOperation_of_nil {s : Session}
    (h : readSubscription text logger s.subscriptions = .ok "" s.subscriptions) :
    nextOperation text logger s =
      if s.subscriptions.subscriptions.isEmpty then
        if logger then .ok () (asyncRead (closeWs s)) else .error .badFunctionCall s
      else .ok () (asyncRead s) := by
  unfold nextOperation
  rw [bind_of_ok _ (onSubscriptions_of_ok h), if_neg (not_not_intro rfl)]
  cases hempty : s.subscriptions.subscriptions.isEmpty <;> cases logger <;>
    simp [bind, EStateM.bind, get, getThe, MonadStateOf.get, EStateM.get, hempty, logMessage, pure,
      EStateM.pure, modify, modifyGet, MonadStateOf.modifyGet, EStateM.modifyGet, throw,
      throwThe, MonadExceptOf.throw, EStateM.throw]

/-! ### The three steps -/

/-- How the data callback ends on a message, if it is called. -/
def callbackOutcome (text : JsonText) (common : VkCommon)
    (dataEventCB : Option (Event → Except Fault Unit)) (message : String) : Except Fault Unit := do
  let dataEvent ← built (Event.fromJson common (← text.parse message)) .empty
  callDataEvent dataEventCB dataEvent

theorem dispatch_callbackOutcome {message : String} {json : Json}
    (h : text.parse message = .ok json) :
    dispatch common logger
        (some fun _ => callbackOutcome text common dataEventCB message) json =
      dispatch common logger dataEventCB json := by
  unfold dispatch
  cases hbuilt : built (Event.fromJson common json) .empty with
  | error fault => rfl
  | ok dataEvent =>
      have houtcome : callbackOutcome text common dataEventCB message =
          callDataEvent dataEventCB dataEvent := by
        simp only [callbackOutcome, h, bind, Except.bind, hbuilt]
      rw [houtcome]
      rfl

/-- What the first step does with a message. -/
theorem processMessage_eq (message : String) (s : Subscriptions) :
    processMessage text common logger message (callbackOutcome text common dataEventCB message) s =
      match text.parse message with
      | .ok json => dispatch common logger dataEventCB json s
      | .error fault => .error fault s := by
  cases hparse : text.parse message with
  | error fault =>
      unfold processMessage
      rw [hparse]
      rfl
  | ok json =>
      show _ = dispatch common logger dataEventCB json s
      rw [← dispatch_callbackOutcome hparse]
      unfold processMessage
      rw [hparse]
      rfl

/-- The pending requests stay those for filters. -/
theorem requested_processMessage {message : String} {callback : Except Fault Unit}
    {s subscriptions : Subscriptions} (hs : s.Requested text)
    (h : processMessage text common logger message callback s = .ok () subscriptions) :
    subscriptions.Requested text := by
  have hkeeps :
      (after (processMessage text common logger message callback) s).subscriptionRequests =
        s.subscriptionRequests := processMessage_keeps message callback s
  rw [after_of_ok h] at hkeeps
  intro request hrequest
  exact hs request (hkeeps ▸ hrequest)

theorem handleMessage_of_error {message : String} {s : Session} {fault : Fault}
    {subscriptions : Subscriptions}
    (h : processMessage text common logger message
      (callbackOutcome text common dataEventCB message) s.subscriptions =
        .error fault subscriptions) :
    handleMessage text common logger dataEventCB message s =
      .error fault { s with subscriptions := subscriptions } := by
  rw [processMessage_eq] at h
  unfold handleMessage
  cases hparse : text.parse message with
  | error fault' =>
      rw [hparse] at h
      cases h
      rfl
  | ok json =>
      rw [hparse] at h
      have hparsed : (ofExcept (.ok json) : Effect Session Json) s = .ok json s := rfl
      rw [bind_of_ok _ hparsed]
      exact bind_of_error _ (onSubscriptions_of_error h)

theorem handleMessage_of_ok {message : String} {s : Session} {subscriptions : Subscriptions}
    (h : processMessage text common logger message
      (callbackOutcome text common dataEventCB message) s.subscriptions = .ok () subscriptions) :
    handleMessage text common logger dataEventCB message s =
      nextOperation text logger { s with subscriptions := subscriptions } := by
  rw [processMessage_eq] at h
  unfold handleMessage
  cases hparse : text.parse message with
  | error fault =>
      rw [hparse] at h
      cases h
  | ok json =>
      rw [hparse] at h
      have hparsed : (ofExcept (.ok json) : Effect Session Json) s = .ok json s := rfl
      rw [bind_of_ok _ hparsed]
      exact bind_of_ok _ (onSubscriptions_of_ok h)

theorem after_catchJson_congr {effect effect' : Effect Session Unit} {s s' : Session}
    (h : effect s = effect' s') :
    after (catchJson logger effect) s = after (catchJson logger effect') s' := by
  simp only [after, catchJson, h]

theorem catchJson_of_ok {effect : Effect Session Unit} {s s' : Session}
    (h : effect s = .ok () s') : catchJson logger effect s = .ok () s' := by
  simp only [catchJson, h]

/-- The session when the `catch` of `onRead` has had its turn: a JSON exception is
    logged and the session closed. -/
def afterCatch (logger : Bool) (s : Session) : Fault → Session
  | .json _ => if logger then closeWs s else s
  | .badFunctionCall | .other _ | .undefined _ => s

theorem after_catchJson_of_error {effect : Effect Session Unit} {s s' : Session} {fault : Fault}
    (h : effect s = .error fault s') :
    after (catchJson logger effect) s = afterCatch logger s' fault := by
  simp only [after, catchJson, h]
  cases fault <;> cases logger <;> rfl

theorem undefined_catchJson_of_error {effect : Effect Session Unit} {s s' : Session} {what : String}
    (h : effect s = .error (.undefined what) s') : Undefined (catchJson logger effect) s := by
  refine ⟨what, s', ?_⟩
  simp only [catchJson, h]

/-- The last two steps: a request is sent, -/
theorem nextOperation_run_of_request (htext : text.Faithful) {s : Session} {f : String}
    {subscriptions : Subscriptions} (hidle : s.handler = .idle)
    (h : readSubscription text logger s.subscriptions =
      .ok (subscriptionRequest text f) subscriptions) :
    Machine.run (fun s event => s.step text common logger event)
        { s with handler := .dispatched } [.sendNext] =
      some (after (catchJson logger (nextOperation text logger)) s) := by
  rw [after_of_ok (catchJson_of_ok (nextOperation_of_request htext h))]
  simp [Machine.run, step, Enabled, next, onSendNext, h, htext.request_ne_empty f, asyncWrite,
    hidle]

/-- or there is none, and the subscriptions are looked at. -/
theorem nextOperation_run_of_nil {s : Session} (hidle : s.handler = .idle)
    (h : readSubscription text logger s.subscriptions = .ok "" s.subscriptions) :
    Machine.run (fun s event => s.step text common logger event)
        { s with handler := .dispatched } [.sendNext, .checkSubscriptions] =
      some (after (catchJson logger (nextOperation text logger)) s) := by
  have hself : { s with handler := .idle } = s := by rw [← hidle]
  have hcatch : catchJson logger (nextOperation text logger) s = nextOperation text logger s := by
    unfold catchJson
    rw [nextOperation_of_nil h]
    cases s.subscriptions.subscriptions.isEmpty <;> cases logger <;> rfl
  simp only [after, hcatch]
  rw [nextOperation_of_nil h]
  cases hempty : s.subscriptions.subscriptions.isEmpty <;> cases logger <;>
    simp [Machine.run, step, Enabled, next, onSendNext, h, onNothingToSend, hempty, asyncRead,
      closeWs, hidle, hself]

/-- **The steps of the session machine are those of `onRead`.**  Without undefined
    behaviour, and when no other thread subscribes in between, a message that is
    received leaves the session as `onRead` does. -/
theorem onRead_run (htext : text.Faithful) {s : Session}
    (hrequested : s.subscriptions.Requested text) (hidle : s.handler = .idle)
    (hreading : 0 < s.reading) (message : String)
    (hdefined : ¬ Undefined (onRead text common logger dataEventCB message)
      { s with reading := s.reading - 1 }) :
    ∃ events, Machine.run (fun s event => s.step text common logger event) s
        (.received message (callbackOutcome text common dataEventCB message) :: events) =
      some (after (onRead text common logger dataEventCB message)
        { s with reading := s.reading - 1 }) := by
  have henabled : s.Enabled (.received message (callbackOutcome text common dataEventCB message)) :=
    ⟨hidle, hreading⟩
  unfold onRead at hdefined ⊢
  cases hprocess : processMessage text common logger message
      (callbackOutcome text common dataEventCB message) s.subscriptions with
  | error fault subscriptions =>
      have hhandle := handleMessage_of_error (s := { s with reading := s.reading - 1 }) hprocess
      refine ⟨[], ?_⟩
      rw [after_catchJson_of_error hhandle]
      cases fault with
      | undefined what => exact absurd (undefined_catchJson_of_error hhandle) hdefined
      | json what =>
          cases logger <;>
            simp [Machine.run, step, henabled, next, onReceived, hprocess, afterCatch]
      | badFunctionCall | other _ =>
          simp [Machine.run, step, henabled, next, onReceived, hprocess, afterCatch]
  | ok value subscriptions =>
      have hhandle := handleMessage_of_ok (s := { s with reading := s.reading - 1 }) hprocess
      have hreceived : s.step text common logger
          (.received message (callbackOutcome text common dataEventCB message)) =
            some { s with reading := s.reading - 1
                          subscriptions := subscriptions
                          handler := .dispatched } := by
        simp only [step, henabled, if_true, next, onReceived, hprocess]
      have hrequested' := requested_processMessage hrequested hprocess
      rw [after_catchJson_congr hhandle]
      rcases hrequested'.read htext logger with ⟨-, hread⟩ | ⟨f, rest, -, hread⟩
      · refine ⟨[.sendNext, .checkSubscriptions], ?_⟩
        exact Machine.run_cons_eq_some.mpr ⟨_, hreceived, nextOperation_run_of_nil
          (s := { s with reading := s.reading - 1, subscriptions := subscriptions }) hidle hread⟩
      · refine ⟨[.sendNext], ?_⟩
        exact Machine.run_cons_eq_some.mpr ⟨_, hreceived, nextOperation_run_of_request htext
          (s := { s with reading := s.reading - 1, subscriptions := subscriptions }) hidle hread⟩

end Session

end BybitApi
