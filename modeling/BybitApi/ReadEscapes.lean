import BybitApi.MessageAccess

/-!
# Exceptions that leave the read handler

`onRead` logs what goes wrong wherever it catches an exception, and logs through
`logMessageCB` without a test whether it is set.  With a logger every exception is
dealt with; without one each attempt to log throws `bad_function_call` past the
`catch (nlohmann::json::exception &)`, and the session neither reads nor writes again.
`onRead_returns_iff` tells what gives reason to log; a text that is no JSON is enough
(`unparsable_text_escapes`).
-/

namespace BybitApi

/-- `readValue` of a string throws JSON exceptions only. -/
def VkCommon.StringsThrowJson (common : VkCommon) : Prop :=
  ∀ json key current fault,
    common.readString json key current = .error fault → ∃ what, fault = .json what

/-- Dealing with the value gives no reason to log: a control message can be read and
    rejects no request, an event decodes and the data callback returns. -/
def NothingToLog (common : VkCommon) (dataEventCB : Option (Event → Except Fault Unit))
    (json : Json) : Prop :=
  json.isObject = true →
    if isApiControlMsg json = true then
      ∃ isError, controlIsError json = .ok isError ∧
        (isError = true → json.contains "request" = false)
    else
      ∃ event, built (Event.fromJson common json) .empty = .ok event ∧
        callDataEvent dataEventCB event = .ok ()

/-- A JSON exception, or undefined behaviour. -/
def Fault.IsJsonOrUndefined : Fault → Prop
  | .json _ | .undefined _ => True
  | .badFunctionCall | .other _ => False

theorem Json.index_faults (json : Json) (key : String) (fault : Fault)
    (h : json.index key = .error fault) : fault.IsJsonOrUndefined := by
  unfold index at h
  split at h
  · split at h
    · cases h
    · cases h
      trivial
  · cases h
    trivial

variable {text : JsonText} {common : VkCommon} {logger : Bool}
  {dataEventCB : Option (Event → Except Fault Unit)}

/-! ### Rejections are logged -/

theorem not_ends_logMessage {s s' : Subscriptions} :
    (logMessage false : Effect Subscriptions Unit) s ≠ .ok () s' := by
  intro h
  cases h

/-- An effect that ends with a log entry does not end normally without a logger. -/
theorem not_ends_bind {α : Type} {effect : Effect Subscriptions α}
    {k : α → Effect Subscriptions Unit}
    (hk : ∀ value s s', k value s ≠ .ok () s') (s s' : Subscriptions) :
    (effect >>= k) s ≠ .ok () s' := by
  cases h : effect s with
  | ok value s'' =>
      rw [bind_of_ok k h]
      exact hk value s'' s'
  | error fault s'' =>
      rw [bind_of_error k h]
      intro hok
      cases hok

theorem handleRejection_escapes (json : Json) (s s' : Subscriptions) :
    handleRejection common false json s ≠ .ok () s' := by
  apply not_ends_bind
  intro requestJson
  apply not_ends_bind
  intro operation
  apply not_ends_bind
  intro argsJson
  apply not_ends_bind
  intro _
  apply not_ends_bind
  intro errorMsg s s'
  exact not_ends_logMessage

theorem handleApiControlMsg_ends {json : Json} {s s' : Subscriptions}
    (h : handleApiControlMsg common false json s = .ok () s') :
    s' = s ∧ ∃ isError, controlIsError json = .ok isError ∧
      (isError = true → json.contains "request" = false) := by
  unfold handleApiControlMsg at h
  cases herror : controlIsError json with
  | error fault =>
      rw [herror] at h
      cases h
  | ok isError =>
      have hok : (ofExcept (.ok isError) : Effect Subscriptions Bool) s = .ok isError s := rfl
      rw [herror, bind_of_ok _ hok] at h
      split at h
      · exact absurd h (handleRejection_escapes json s s')
      · rename_i hnone
        cases h
        refine ⟨rfl, isError, rfl, ?_⟩
        rintro rfl
        simpa using hnone

namespace Session

/-- What is done with an event that decodes. -/
theorem dataEvent_of_built {json : Json} {event : Event}
    (h : built (Event.fromJson common json) .empty = .ok event) :
    (do let dataEvent ← ofExcept (built (Event.fromJson common json) .empty)
        ofExcept (callDataEvent dataEventCB dataEvent) : Effect Subscriptions Unit) =
      ofExcept (callDataEvent dataEventCB event) := by
  rw [h]
  rfl

/-- Without a logger a `catch` that logs saves nothing. -/
theorem ends_of_catchAndLog {effect : Effect Subscriptions Unit} {s s' : Subscriptions}
    (h : catchAndLog false () effect s = .ok () s') : effect s = .ok () s' := by
  unfold catchAndLog at h
  cases heffect : effect s with
  | ok value s'' =>
      rw [heffect] at h
      exact h
  | error fault s'' =>
      rw [heffect] at h
      cases fault <;> cases h

/-- Without a logger a message is dealt with normally only if it gives no reason to
    log, and then the subscriptions stay as they are. -/
theorem dispatch_ends {json : Json} {s s' : Subscriptions}
    (h : dispatch common false dataEventCB json s = .ok () s') :
    s' = s ∧ NothingToLog common dataEventCB json := by
  unfold dispatch at h
  split at h
  · split at h
    · rename_i hcontrol
      obtain ⟨hsame, hread⟩ := handleApiControlMsg_ends h
      refine ⟨hsame, fun _ => ?_⟩
      rwa [if_pos hcontrol]
    · rename_i hevent
      have hends := ends_of_catchAndLog h
      cases hbuilt : built (Event.fromJson common json) .empty with
      | error fault =>
          rw [hbuilt] at hends
          cases hends
      | ok event =>
          rw [dataEvent_of_built hbuilt] at hends
          cases hcallback : callDataEvent dataEventCB event with
          | error fault =>
              rw [hcallback] at hends
              cases hends
          | ok value =>
              rw [hcallback] at hends
              cases hends
              refine ⟨rfl, fun _ => ?_⟩
              rw [if_neg hevent]
              exact ⟨event, hbuilt, hcallback⟩
  · rename_i hobject
    cases h
    exact ⟨rfl, fun h => absurd h hobject⟩

/-- Without a reason to log the subscriptions stay as they are. -/
theorem dispatch_of_nothingToLog {json : Json} (h : NothingToLog common dataEventCB json)
    (s : Subscriptions) : dispatch common logger dataEventCB json s = .ok () s := by
  unfold dispatch
  split
  · rename_i hobject
    have hnothing := h hobject
    split
    · rename_i hcontrol
      rw [if_pos hcontrol] at hnothing
      obtain ⟨isError, herror, hnone⟩ := hnothing
      have hok : (ofExcept (.ok isError) : Effect Subscriptions Bool) s = .ok isError s := rfl
      unfold handleApiControlMsg
      rw [herror, bind_of_ok _ hok]
      cases isError with
      | false =>
          rw [Bool.and_false, if_neg Bool.false_ne_true]
          rfl
      | true =>
          rw [hnone rfl, Bool.false_and, if_neg Bool.false_ne_true]
          rfl
    · rename_i hevent
      rw [if_neg hevent] at hnothing
      obtain ⟨event, hbuilt, hcallback⟩ := hnothing
      apply catchAndLog_of_ok
      rw [dataEvent_of_built hbuilt, hcallback]
      rfl
  · rfl

/-- With a logger dealing with a message throws JSON exceptions only. -/
theorem dispatch_faults (hstrings : common.StringsThrowJson) (json : Json) :
    FaultsOnly Fault.IsJsonOrUndefined (dispatch common true dataEventCB json) := by
  have hjson : ∀ what, Fault.IsJsonOrUndefined (.json what) := fun _ => trivial
  have hread : ∀ json key fault, common.readString json key "" = .error fault →
      fault.IsJsonOrUndefined := by
    intro json key fault herror
    obtain ⟨what, rfl⟩ := hstrings json key "" fault herror
    trivial
  have hrejection : FaultsOnly Fault.IsJsonOrUndefined (handleRejection common true json) := by
    apply (faultsOnly_ofExcept (json.index_faults "request")).bind
    intro requestJson
    apply (faultsOnly_ofExcept (hread requestJson "op")).bind
    intro operation
    apply (faultsOnly_ofExcept (requestJson.index_faults "args")).bind
    intro argsJson
    apply (eraseSubscriptions_faults hjson argsJson.items).bind
    intro _
    apply (faultsOnly_ofExcept (hread json "ret_msg")).bind
    intro errorMsg
    exact faultsOnly_logMessage (fun h => nomatch h)
  unfold dispatch
  split
  · split
    · apply (faultsOnly_ofExcept (controlIsError_faults hjson json)).bind
      intro isError
      split
      · exact hrejection
      · exact faultsOnly_pure ()
    · intro s fault hfaults
      rcases faults_catchAndLog.mp hfaults with ⟨what, rfl, -⟩ | ⟨hlogger, -⟩
      · trivial
      · cases hlogger
  · exact faultsOnly_pure ()

/-! ### The next operation -/

/-- An operation comes next unless there is nothing to do and nowhere to log it. -/
theorem nextOperation_ends_iff (htext : text.Faithful) (logger : Bool) {s : Session}
    (hrequested : s.subscriptions.Requested text) :
    (∃ s', nextOperation text logger s = .ok () s') ↔
      logger = true ∨ s.subscriptions.subscriptionRequests ≠ [] ∨
        s.subscriptions.subscriptions ≠ [] := by
  rcases hrequested.read htext logger with ⟨hnil, hread⟩ | ⟨f, rest, hcons, hread⟩
  · rw [nextOperation_of_nil hread]
    cases hsubscriptions : s.subscriptions.subscriptions <;> cases logger <;> simp [hnil]
  · rw [nextOperation_of_request htext hread]
    simp [hcons]

/-- It is one read or one write. -/
theorem nextOperation_dataOps (htext : text.Faithful) {s s' : Session}
    (hrequested : s.subscriptions.Requested text) (h : nextOperation text logger s = .ok () s') :
    s'.dataOps = s.dataOps + 1 := by
  rcases hrequested.read htext logger with ⟨-, hread⟩ | ⟨f, rest, -, hread⟩
  · rw [nextOperation_of_nil hread] at h
    split at h
    · split at h
      · cases h
        rfl
      · cases h
    · cases h
      rfl
  · rw [nextOperation_of_request htext hread] at h
    cases h
    simp only [dataOps, asyncWrite]
    omega

/-! ### The handler -/

theorem catchJson_of_json {effect : Effect Session Unit} {s s' : Session} {what : String}
    (h : effect s = .error (.json what) s') :
    catchJson true effect s = .ok () (closeWs s') := by
  simp only [catchJson, h]
  rfl

theorem ends_of_catchJson {effect : Effect Session Unit} {s s' : Session}
    (h : catchJson false effect s = .ok () s') : effect s = .ok () s' := by
  unfold catchJson at h
  cases heffect : effect s with
  | ok value s'' =>
      rw [heffect] at h
      exact h
  | error fault s'' =>
      rw [heffect] at h
      cases fault <;> cases h

/-- The handler has ended normally, with one more read or write outstanding or with a
    close started. -/
def ReturnsWithOperation (s : Session) (result : EStateM.Result Fault Session Unit) : Prop :=
  ∃ s', result = .ok () s' ∧ (s'.dataOps = s.dataOps + 1 ∨ s.closing < s'.closing)

/-- With a logger all exceptions are dealt with. -/
theorem onRead_returns_of_logger (htext : text.Faithful) (hparse : text.ThrowsJson)
    (hstrings : common.StringsThrowJson) {message : String} {s : Session}
    (hrequested : s.subscriptions.Requested text)
    (hdefined : ¬ Undefined (onRead text common true dataEventCB message) s) :
    ReturnsWithOperation s (onRead text common true dataEventCB message s) := by
  unfold onRead at hdefined ⊢
  cases hprocess : processMessage text common true message
      (callbackOutcome text common dataEventCB message) s.subscriptions with
  | ok value subscriptions =>
      have hhandle := handleMessage_of_ok hprocess
      have hrequested' := requested_processMessage hrequested hprocess
      obtain ⟨s', hnext⟩ := (nextOperation_ends_iff htext true
        (s := { s with subscriptions := subscriptions }) hrequested').mpr (.inl rfl)
      refine ⟨s', catchJson_of_ok (hhandle.trans hnext), .inl ?_⟩
      exact nextOperation_dataOps htext (s := { s with subscriptions := subscriptions })
        hrequested' hnext
  | error fault subscriptions =>
      have hhandle := handleMessage_of_error hprocess
      have hkind : fault.IsJsonOrUndefined := by
        rw [processMessage_eq] at hprocess
        cases hjson : text.parse message with
        | error fault' =>
            rw [hjson] at hprocess
            cases hprocess
            obtain ⟨what, rfl⟩ := hparse message _ hjson
            trivial
        | ok json =>
            rw [hjson] at hprocess
            exact dispatch_faults hstrings json s.subscriptions fault ⟨_, hprocess⟩
      cases fault with
      | json what => exact ⟨_, catchJson_of_json hhandle, .inr (Nat.lt_succ_self _)⟩
      | undefined what => exact absurd (undefined_catchJson_of_error hhandle) hdefined
      | badFunctionCall => cases hkind
      | other what => cases hkind

/-- Without one a reason to log and nothing to do are too much. -/
theorem onRead_returns_of_no_logger (htext : text.Faithful) {message : String} {s : Session}
    (hrequested : s.subscriptions.Requested text) :
    ReturnsWithOperation s (onRead text common false dataEventCB message s) ↔
      (∃ json, text.parse message = .ok json ∧ NothingToLog common dataEventCB json) ∧
        (s.subscriptions.subscriptionRequests ≠ [] ∨ s.subscriptions.subscriptions ≠ []) := by
  unfold onRead
  constructor
  · rintro ⟨s', hok, -⟩
    have hends := ends_of_catchJson hok
    cases hprocess : processMessage text common false message
        (callbackOutcome text common dataEventCB message) s.subscriptions with
    | error fault subscriptions =>
        rw [handleMessage_of_error hprocess] at hends
        cases hends
    | ok value subscriptions =>
        rw [handleMessage_of_ok hprocess] at hends
        rw [processMessage_eq] at hprocess
        cases hjson : text.parse message with
        | error fault =>
            rw [hjson] at hprocess
            cases hprocess
        | ok json =>
            rw [hjson] at hprocess
            obtain ⟨rfl, hnothing⟩ := dispatch_ends hprocess
            refine ⟨⟨json, rfl, hnothing⟩, ?_⟩
            rcases (nextOperation_ends_iff htext false hrequested).mp ⟨s', hends⟩ with h | h
            · cases h
            · exact h
  · rintro ⟨⟨json, hjson, hnothing⟩, hwork⟩
    have hprocess : processMessage text common false message
        (callbackOutcome text common dataEventCB message) s.subscriptions =
          .ok () s.subscriptions := by
      rw [processMessage_eq, hjson]
      exact dispatch_of_nothingToLog hnothing s.subscriptions
    obtain ⟨s', hnext⟩ := (nextOperation_ends_iff htext false hrequested).mpr
      (.inr hwork)
    exact ⟨s', catchJson_of_ok ((handleMessage_of_ok hprocess).trans hnext),
      .inl (nextOperation_dataOps htext hrequested hnext)⟩

/-- **Exactly when `onRead` returns and leaves something to do.**  For every text and
    every behaviour of the data callback: nothing undefined is accessed, and a logger is
    set, or there is no reason to log and a request to send or a subscription. -/
theorem onRead_returns_iff (text : JsonText) (common : VkCommon) (htext : text.Faithful)
    (hparse : text.ThrowsJson) (hstrings : common.StringsThrowJson) (hcommon : common.Checks)
    (logger : Bool) (dataEventCB : Option (Event → Except Fault Unit)) (message : String)
    (s : Session) (hrequested : s.subscriptions.Requested text) :
    ReturnsWithOperation s (onRead text common logger dataEventCB message s) ↔
      (∀ json, text.parse message = .ok json → AccessesPresent common
        (fun event => ¬ ∃ what, callDataEvent dataEventCB event = .error (.undefined what))
        json) ∧
      (logger = true ∨
        (∃ json, text.parse message = .ok json ∧ NothingToLog common dataEventCB json) ∧
          (s.subscriptions.subscriptionRequests ≠ [] ∨ s.subscriptions.subscriptions ≠ [])) := by
  have hdefined : (∀ json, text.parse message = .ok json → AccessesPresent common
      (fun event => ¬ ∃ what, callDataEvent dataEventCB event = .error (.undefined what))
      json) ↔ ¬ Undefined (onRead text common logger dataEventCB message) s := by
    rw [undefined_onRead_iff hparse hcommon]
    push Not
    rfl
  rw [hdefined]
  constructor
  · intro hreturns
    refine ⟨?_, ?_⟩
    · rintro ⟨what, s'', herror⟩
      obtain ⟨s', hok, -⟩ := hreturns
      rw [herror] at hok
      cases hok
    · cases logger with
      | true => exact .inl rfl
      | false => exact .inr ((onRead_returns_of_no_logger htext hrequested).mp hreturns)
  · rintro ⟨hno, hreason⟩
    cases logger with
    | true => exact onRead_returns_of_logger htext hparse hstrings hrequested hno
    | false =>
        rcases hreason with h | h
        · cases h
        · exact (onRead_returns_of_no_logger htext hrequested).mpr h

end Session

/-- With a logger only undefined behaviour passes a `catch` that logs. -/
theorem undefined_of_catchAndLog {σ : Type} {effect : Effect σ Unit} {s : σ} {fault : Fault}
    (h : Faults (catchAndLog true () effect) s fault) : ∃ what, fault = .undefined what := by
  rcases faults_catchAndLog.mp h with ⟨what, rfl, -⟩ | ⟨hlogger, -⟩
  · exact ⟨what, rfl⟩
  · cases hlogger

/-- The stream manager's callback returns when its logger is set, or runs into undefined
    behaviour. -/
theorem managerCallback_returns_iff (hcommon : common.Checks) (event : Event)
    (store : EventStore) :
    managerCallback common true store event = .ok () ↔ CandlePresent common true event := by
  rw [← not_iff_not, ← EventStore.managerCallback_undefined_iff hcommon event store]
  constructor
  · intro hthrows
    have hexceptions : FaultsOnly (fun fault => ∃ what, fault = .undefined what)
        (EventStore.onEvent common true event) := by
      intro s fault hfaults
      unfold EventStore.onEvent at hfaults
      split at hfaults
      · exact undefined_of_catchAndLog hfaults
      · split at hfaults
        · exact undefined_of_catchAndLog hfaults
        · exact absurd hfaults (not_faults_pure _ _ _)
    unfold managerCallback at hthrows ⊢
    cases hevent : EventStore.onEvent common true event store with
    | ok value store' =>
        rw [hevent] at hthrows
        exact absurd rfl hthrows
    | error fault store' =>
        obtain ⟨what, rfl⟩ := hexceptions store fault ⟨store', hevent⟩
        exact ⟨what, rfl⟩
  · rintro ⟨what, herror⟩ hok
    rw [herror] at hok
    cases hok

/-! ### Texts without a logger -/

theorem textKnowing_faithful {known : String} (hknown : known ≠ "") (json : Json) :
    (textKnowing known json).Faithful where
  undoes subscription := by
    have hplain : parsePlain (plainText.dump (subscribeJson subscription)) =
        .ok (subscribeJson subscription) := plainText_faithful.undoes subscription
    simp only [textKnowing, hplain]
  empty json' h := by
    simp only [textKnowing] at h
    split at h
    · rename_i request hplain
      exact plainText_faithful.empty request hplain
    · rw [if_neg hknown.symm] at h
      cases h

theorem VkCommon.documented_stringsThrowJson (number : Json → Option Double) :
    (VkCommon.documented number).StringsThrowJson := by
  intro json key current fault h
  simp only [documented] at h
  cases hvalue : json.find? key with
  | none =>
      rw [hvalue] at h
      cases h
  | some value =>
      rw [hvalue] at h
      exact value.asString_faults (P := fun fault => ∃ what, fault = .json what)
        (fun what => ⟨what, rfl⟩) fault h

/-- A parser that knows the answer to a request that succeeds. -/
def successText : JsonText :=
  textKnowing "\x7b\"success\":true\x7d" (.object [("success", .bool true)])

/-- A session with one subscription, while its handler deals with a text. -/
def subscribedSession : Session :=
  { Session.opened successText "tickers.BTCUSDT" with
    resolving := 0
    subscriptions := { subscriptions := ["tickers.BTCUSDT"], subscriptionRequests := [] } }

theorem successText_parse :
    successText.parse "\x7b\"success\":true\x7d" = .ok (.object [("success", .bool true)]) := by
  have hplain : ∃ fault, parsePlain "\x7b\"success\":true\x7d" = .error fault := ⟨_, rfl⟩
  obtain ⟨fault, hplain⟩ := hplain
  simp only [successText, textKnowing, hplain, if_true]

theorem subscribedSession_requested : subscribedSession.subscriptions.Requested successText := by
  intro request hrequest
  cases hrequest

/-- The answer to a request that succeeds leaves the session reading on, without a
    logger, too. -/
theorem onRead_returns_iff_success :
    Session.ReturnsWithOperation subscribedSession
      (Session.onRead successText (.documented fun _ => none) false none
        "\x7b\"success\":true\x7d" subscribedSession) := by
  apply (Session.onRead_returns_iff successText (.documented fun _ => none)
    (textKnowing_faithful (by decide) _) (textKnowing_throwsJson _ _)
    (VkCommon.documented_stringsThrowJson _) (VkCommon.documented_checks _) false none
    "\x7b\"success\":true\x7d" subscribedSession subscribedSession_requested).mpr
  refine ⟨?_, .inr ⟨⟨_, successText_parse, ?_⟩, .inr (by decide)⟩⟩
  · intro json hjson
    rw [successText_parse] at hjson
    cases hjson
    refine ⟨?_, ?_, ?_⟩
    · intro request hsuccess
      cases hsuccess
    · intro _ hevent
      cases hevent
    · intro event _ hevent
      cases hevent
  · intro _
    exact ⟨false, rfl, fun h => nomatch h⟩

/-- **A text that is no JSON ends the session's reading.**  Without a logger, the report
    of the parser's exception throws itself. -/
theorem unparsable_text_escapes :
    ¬ ∀ (text : JsonText) (common : VkCommon), text.Faithful → text.ThrowsJson →
      common.StringsThrowJson → common.Checks →
      ∀ logger dataEventCB message s, s.subscriptions.Requested text →
        (∀ event, ¬ ∃ what, callDataEvent dataEventCB event = .error (.undefined what)) →
        Session.ReturnsWithOperation s
          (Session.onRead text common logger dataEventCB message s) := by
  intro h
  have hreturns := h successText (.documented fun _ => none)
    (textKnowing_faithful (by decide) _) (textKnowing_throwsJson _ _)
    (VkCommon.documented_stringsThrowJson _) (VkCommon.documented_checks _) false none "pong"
    subscribedSession subscribedSession_requested
    (by rintro event ⟨what, hcallback⟩; cases hcallback)
  obtain ⟨⟨json, hjson, -⟩, -⟩ := (Session.onRead_returns_of_no_logger
    (textKnowing_faithful (by decide) _) subscribedSession_requested).mp hreturns
  have hknown := ((textKnowing_parse_of_short (by decide) json).mp hjson).1
  exact absurd hknown (by decide)

end BybitApi
