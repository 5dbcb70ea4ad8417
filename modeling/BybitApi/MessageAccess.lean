import BybitApi.CandleStore
import BybitApi.ReadHandler

/-!
# Accesses that nothing checks

A message passes `onRead`, `handleApiControlMsg` or `Event::fromJson`, and the callback
of the stream manager.  The readers look keys up before they use them, but four
accesses do not: `"args"` of a rejected request, `"data"` of an event, the first element
of a candle event's data, and the interval that its candle names.  Undefined behaviour
is reached on these alone (`onRead_defined_iff`), and the empty object is enough
(`empty_object_is_undefined`).
-/

namespace BybitApi

/-- The parser throws JSON exceptions only. -/
def JsonText.ThrowsJson (text : JsonText) : Prop :=
  ∀ message fault, text.parse message = .error fault → ∃ what, fault = .json what

theorem JsonText.ThrowsJson.defined {text : JsonText} (h : text.ThrowsJson)
    (message what : String) : text.parse message ≠ .error (.undefined what) := by
  intro herror
  obtain ⟨_, hjson⟩ := h message _ herror
  cases hjson

/-- How the callback of `WSStreamManager` ends. -/
def managerCallback (common : VkCommon) (logger : Bool) (store : EventStore) (event : Event) :
    Except Fault Unit :=
  match EventStore.onEvent common logger event store with
  | .ok () _ => .ok ()
  | .error fault _ => .error fault

section Conditions

variable (common : VkCommon)

/-- The request of a rejection, if it is an object, has the arguments that are looked
    up in it. -/
def ArgsPresent (json : Json) : Prop :=
  ∀ request, json.find? "success" = some (.bool false) → json.find? "request" = some request →
    (∃ operation, common.readString request "op" "" = .ok operation) →
      request.isObject = true → request.contains "args" = true

/-- What `Event::fromJson` reads first is read without an exception. -/
def HeadReads (json : Json) : Prop :=
  (∃ topic, common.readString json "topic" "" = .ok topic) ∧
    (∃ type, common.readResponseType json "type" .snapshot = .ok type) ∧
    ∃ ts, common.readInt64 json "ts" 0 = .ok ts

/-- An event that decodes so far has data. -/
def DataPresent (json : Json) : Prop :=
  json.isObject = true → isApiControlMsg json = false → HeadReads common json →
    json.contains "data" = true

end Conditions

/-! ### Values -/

theorem Json.asString_faults {P : Fault → Prop} (hP : ∀ what, P (.json what)) (json : Json)
    (fault : Fault) (h : json.asString = .error fault) : P fault := by
  cases json with
  | string value => cases h
  | null | bool _ | integer _ | float _ | array _ | object _ =>
      cases h
      exact hP _

/-! ### Control messages -/

variable {text : JsonText} {common : VkCommon} {logger : Bool}

/-- A loop over arguments, which does something to the object with each of them, throws
    JSON exceptions only. -/
theorem faultsOnly_forEach {P : Fault → Prop} (hP : ∀ what, P (.json what)) {σ : Type}
    {loop : List Json → Effect σ Unit} {change : String → σ → σ} (hnil : loop [] = pure ())
    (hcons : ∀ arg args, loop (arg :: args) =
      ofExcept arg.asString >>= fun filter => modify (change filter) >>= fun _ => loop args)
    (args : List Json) : FaultsOnly P (loop args) := by
  induction args with
  | nil =>
      rw [hnil]
      exact faultsOnly_pure ()
  | cons arg args ih =>
      rw [hcons]
      apply (faultsOnly_ofExcept (arg.asString_faults hP)).bind
      intro filter
      exact (faultsOnly_modify _).bind fun _ => ih

theorem eraseSubscriptions_faults {P : Fault → Prop} (hP : ∀ what, P (.json what))
    (args : List Json) : FaultsOnly P (eraseSubscriptions args) :=
  faultsOnly_forEach hP rfl (fun _ _ => rfl) args

theorem controlIsError_faults {P : Fault → Prop} (hP : ∀ what, P (.json what)) (json : Json)
    (fault : Fault) (herror : controlIsError json = .error fault) : P fault := by
  unfold controlIsError at herror
  cases h : json.find? "success" with
  | none =>
      simp [Json.contains, h, pure, Except.pure] at herror
  | some success =>
      simp only [Json.contains, h, Json.index_of_find? h, bind, Except.bind, Option.isSome_some,
        if_true] at herror
      cases success with
      | bool value => cases herror
      | null | integer _ | float _ | string _ | array _ | object _ =>
          cases herror
          exact hP _

theorem undefined_handleRejection_iff (hcommon : common.Checks) {json request : Json}
    (hrequest : json.find? "request" = some request) (s : Subscriptions) :
    Undefined (handleRejection common logger json) s ↔
      (∃ operation, common.readString request "op" "" = .ok operation) ∧
        request.isObject = true ∧ request.contains "args" = false := by
  have hrest : ∀ args : Json, FaultsOnly Fault.IsException (do
      eraseSubscriptions args.items
      let _errorMsg ← ofExcept (common.readString json "ret_msg" "")
      logMessage logger : Effect Subscriptions Unit) := by
    intro args
    apply (eraseSubscriptions_faults (P := Fault.IsException) (fun _ => trivial) args.items).bind
    intro _
    apply (faultsOnly_ofExcept
      (isException_of_defined (hcommon.readString json "ret_msg" ""))).bind
    intro _
    exact faultsOnly_logMessage fun _ => trivial
  unfold handleRejection
  rw [Json.index_of_find? hrequest, undefined_ofExcept_bind]
  simp only [reduceCtorEq, exists_false, Except.ok.injEq, exists_eq_left', false_or]
  rw [undefined_ofExcept_bind, or_iff_right (by simp [hcommon.readString])]
  simp only [undefined_ofExcept_bind, Json.index_undefined_iff, (hrest _).not_undefined s,
    and_false, exists_false, or_false, exists_and_right]

theorem undefined_handleApiControlMsg_iff (hcommon : common.Checks) (json : Json)
    (s : Subscriptions) :
    Undefined (handleApiControlMsg common logger json) s ↔ ¬ ArgsPresent common json := by
  unfold handleApiControlMsg ArgsPresent
  have hcontrol : ¬ ∃ what, controlIsError json = .error (.undefined what) := by
    rintro ⟨what, herror⟩
    exact controlIsError_faults (P := Fault.IsException) (fun _ => trivial) json _ herror
  rw [undefined_ofExcept_bind, or_iff_right hcontrol]
  constructor
  · rintro ⟨isError, herror, hundefined⟩ hpresent
    split at hundefined
    · rename_i hrejection
      obtain ⟨hcontains, rfl⟩ := Bool.and_eq_true_iff.mp hrejection
      obtain ⟨request, hrequest⟩ := Option.isSome_iff_exists.mp hcontains
      obtain ⟨hop, hobject, habsent⟩ :=
        (undefined_handleRejection_iff hcommon hrequest s).mp hundefined
      have hargs := hpresent request ((controlIsError_true_iff json).mp herror) hrequest hop hobject
      rw [habsent] at hargs
      cases hargs
    · exact (faultsOnly_pure ()).not_undefined s hundefined
  · intro hpresent
    push Not at hpresent
    obtain ⟨request, hsuccess, hrequest, hop, hobject, habsent⟩ := hpresent
    refine ⟨true, (controlIsError_true_iff json).mpr hsuccess, ?_⟩
    have hcontains : json.contains "request" = true := by simp [Json.contains, hrequest]
    rw [hcontains, Bool.and_true, if_pos rfl]
    apply (undefined_handleRejection_iff hcommon hrequest s).mpr
    exact ⟨hop, hobject, Bool.eq_false_iff.mpr habsent⟩

/-! ### Events -/

theorem undefined_eventFromJson_iff (hcommon : common.Checks) {json : Json}
    (hobject : json.isObject = true) :
    Undefined (Event.fromJson common json) .empty ↔
      HeadReads common json ∧ json.contains "data" = false := by
  have hindex := Json.index_undefined_iff json "data"
  unfold Undefined Event.fromJson HeadReads
  simp only [faults_assign_bind, faults_assign, hcommon.readString, hcommon.readResponseType,
    hcommon.readInt64, false_or]
  constructor
  · rintro ⟨what, topic, htopic, type, htype, ts, hts, hdata⟩
    exact ⟨⟨⟨topic, htopic⟩, ⟨type, htype⟩, ⟨ts, hts⟩⟩, (hindex.mp ⟨what, hdata⟩).2⟩
  · rintro ⟨⟨⟨topic, htopic⟩, ⟨type, htype⟩, ⟨ts, hts⟩⟩, habsent⟩
    obtain ⟨what, hdata⟩ := hindex.mpr ⟨hobject, habsent⟩
    exact ⟨what, topic, htopic, type, htype, ts, hts, hdata⟩

namespace EventStore

/-- The callback reaches undefined behaviour as the store does. -/
theorem managerCallback_undefined_iff (hcommon : common.Checks) (event : Event)
    (store : EventStore) :
    (∃ what, managerCallback common logger store event = .error (.undefined what)) ↔
      ¬ CandlePresent common logger event := by
  rw [← undefined_onEvent_iff hcommon event store]
  unfold managerCallback Undefined Faults
  cases onEvent common logger event store <;> simp

end EventStore

/-! ### The handler -/

/-- All accesses without a check find something, those of the data callback included. -/
structure AccessesPresent (common : VkCommon) (callback : Event → Prop) (json : Json) : Prop where
  args : ArgsPresent common json
  data : DataPresent common json
  event : ∀ event, json.isObject = true → isApiControlMsg json = false →
    built (Event.fromJson common json) .empty = .ok event → callback event

namespace Session

variable {dataEventCB : Option (Event → Except Fault Unit)}

theorem undefined_dispatch_iff (hcommon : common.Checks) (json : Json) (s : Subscriptions) :
    Undefined (dispatch common logger dataEventCB json) s ↔
      ¬ AccessesPresent common
        (fun event => ¬ ∃ what, callDataEvent dataEventCB event = .error (.undefined what))
        json := by
  unfold dispatch
  cases hobject : json.isObject with
  | false =>
      rw [if_neg Bool.false_ne_true]
      refine iff_of_false ((faultsOnly_pure ()).not_undefined s) (not_not_intro ?_)
      refine ⟨?_, ?_, ?_⟩
      · intro request hsuccess
        cases json <;> simp_all [Json.isObject, Json.find?]
      · intro h
        rw [hobject] at h
        cases h
      · intro event h
        rw [hobject] at h
        cases h
  | true =>
      rw [if_pos rfl]
      cases hcontrol : isApiControlMsg json with
      | true =>
          rw [if_pos rfl, undefined_handleApiControlMsg_iff hcommon, not_iff_not]
          constructor
          · intro hargs
            refine ⟨hargs, ?_, ?_⟩
            · intro _ h
              rw [hcontrol] at h
              cases h
            · intro event _ h
              rw [hcontrol] at h
              cases h
          · exact fun h => h.args
      | false =>
          rw [if_neg Bool.false_ne_true, undefined_catchAndLog, undefined_ofExcept_bind]
          have hnone : json.find? "success" = none := by
            simpa [isApiControlMsg, Json.contains] using hcontrol
          have hdata : (∃ what, built (Event.fromJson common json) .empty =
              .error (.undefined what)) ↔ ¬ DataPresent common json := by
            have hiff := undefined_eventFromJson_iff hcommon hobject
            simp only [built_eq_error, DataPresent, hobject, hcontrol, true_implies]
            rw [← Undefined, hiff, Classical.not_imp, Bool.not_eq_true]
          rw [hdata]
          constructor
          · rintro (habsent | ⟨event, hevent, what, hfaults⟩) hpresent
            · exact habsent hpresent.data
            · exact hpresent.event event hobject hcontrol hevent
                ⟨what, faults_ofExcept.mp hfaults⟩
          · intro habsent
            by_contra hneither
            apply habsent
            refine ⟨?_, ?_, ?_⟩
            · intro request hsuccess
              rw [hnone] at hsuccess
              cases hsuccess
            · by_contra hmissing
              exact hneither (.inl hmissing)
            · rintro event _ _ hevent ⟨what, hcallback⟩
              exact hneither (.inr ⟨event, hevent, what, faults_ofExcept.mpr hcallback⟩)

theorem undefined_catchJson {effect : Effect Session Unit} {s : Session} :
    Undefined (catchJson logger effect) s ↔ Undefined effect s := by
  unfold Undefined Faults catchJson
  cases effect s with
  | ok value s' => simp
  | error fault s' =>
      cases fault with
      | json what =>
          cases logger <;> simp [logMessage, bind, EStateM.bind, pure, EStateM.pure, modify,
            modifyGet, MonadStateOf.modifyGet, EStateM.modifyGet, throw, throwThe,
            MonadExceptOf.throw, EStateM.throw]
      | badFunctionCall | other _ | undefined _ => simp

theorem pushSubscriptions_faults {P : Fault → Prop} (hP : ∀ what, P (.json what))
    (args : List Json) : FaultsOnly P (pushSubscriptions args) :=
  faultsOnly_forEach hP rfl (fun _ _ => rfl) args

/-- The session's own requests are read with checks. -/
theorem readSubscription_exceptions (htext : text.ThrowsJson) :
    FaultsOnly Fault.IsException (readSubscription text logger) := by
  have hactivate : ∀ request, FaultsOnly Fault.IsException (activateRequest text request) := by
    intro request
    apply (faultsOnly_ofExcept (isException_of_defined (htext.defined request))).bind
    intro subJson
    have hindex : ∀ what, subJson.indexOrNull "args" ≠ .error (.undefined what) := by
      intro what
      cases subJson <;> simp [Json.indexOrNull]
    apply (faultsOnly_ofExcept (isException_of_defined hindex)).bind
    intro argsJson
    apply (pushSubscriptions_faults (P := Fault.IsException) (fun _ => trivial) argsJson.items).bind
    intro _
    exact faultsOnly_pure request
  apply (faultsOnly_get (P := Fault.IsException)).bind
  intro s
  split
  · exact faultsOnly_pure ""
  · rename_i request _ _
    apply ((hactivate request).catchAndLog logger "").bind
    intro retVal
    refine FaultsOnly.bind (faultsOnly_modify popRequest) ?_
    intro _
    exact faultsOnly_pure retVal

theorem faults_onSubscriptions {α : Type} {effect : Effect Subscriptions α} {s : Session}
    {fault : Fault} :
    Faults (onSubscriptions effect) s fault ↔ Faults effect s.subscriptions fault := by
  unfold Faults onSubscriptions
  cases effect s.subscriptions <;> simp

theorem nextOperation_exceptions (htext : text.ThrowsJson) :
    FaultsOnly Fault.IsException (nextOperation text logger) := by
  have hread : FaultsOnly Fault.IsException (onSubscriptions (readSubscription text logger)) := by
    intro s fault hfaults
    exact readSubscription_exceptions htext _ fault (faults_onSubscriptions.mp hfaults)
  apply hread.bind
  intro subscription
  split
  · exact faultsOnly_modify _
  · apply (faultsOnly_get (P := Fault.IsException)).bind
    intro s
    split
    · refine FaultsOnly.bind (faultsOnly_logMessage fun _ => trivial) ?_
      intro _
      exact FaultsOnly.bind (faultsOnly_modify _) fun _ => faultsOnly_modify _
    · exact faultsOnly_modify _

/-- **What undefined behaviour depends on.** -/
theorem undefined_onRead_iff (htext : text.ThrowsJson) (hcommon : common.Checks) (message : String)
    (s : Session) :
    Undefined (onRead text common logger dataEventCB message) s ↔
      ∃ json, text.parse message = .ok json ∧ ¬ AccessesPresent common
        (fun event => ¬ ∃ what, callDataEvent dataEventCB event = .error (.undefined what))
        json := by
  unfold onRead handleMessage
  rw [undefined_catchJson, undefined_ofExcept_bind, or_iff_right (by simp [htext.defined message])]
  apply exists_congr
  intro json
  apply and_congr_right
  intro _
  have hdispatch : Undefined (onSubscriptions (dispatch common logger dataEventCB json)) s ↔
      Undefined (dispatch common logger dataEventCB json) s.subscriptions := by
    simp only [Undefined, faults_onSubscriptions]
  rw [undefined_bind, hdispatch, undefined_dispatch_iff hcommon]
  apply or_iff_left
  rintro ⟨_, s', -, hundefined⟩
  exact (nextOperation_exceptions htext).not_undefined s' hundefined

/-- **Exactly when a message reaches no undefined access.**  From `onRead` to the
    callback of the stream manager nothing is undefined, if and only if the text does not
    parse or all four accesses without a check find something in its value. -/
theorem onRead_defined_iff (text : JsonText) (common : VkCommon) (htext : text.ThrowsJson)
    (hcommon : common.Checks) (logger managerLogger : Bool) (store : EventStore)
    (message : String) (s : Session) :
    ¬ Undefined (onRead text common logger (some (managerCallback common managerLogger store))
        message) s ↔
      ∀ json, text.parse message = .ok json →
        AccessesPresent common (CandlePresent common managerLogger) json := by
  have hcallback : (fun event => ¬ ∃ what, callDataEvent
      (some (managerCallback common managerLogger store)) event = .error (.undefined what)) =
        CandlePresent common managerLogger := by
    funext event
    rw [callDataEvent, EventStore.managerCallback_undefined_iff hcommon, not_not]
  rw [undefined_onRead_iff htext hcommon, hcallback]
  push Not
  rfl

end Session

/-! ### The empty object -/

theorem parsePlain_throwsJson {message : String} {fault : Fault}
    (h : parsePlain message = .error fault) : ∃ what, fault = .json what := by
  unfold parsePlain at h
  dsimp only at h
  split at h
  · cases h
  · cases h
    exact ⟨_, rfl⟩

/-- A parser that knows one text more than plain requests. -/
def textKnowing (known : String) (json : Json) : JsonText where
  parse message :=
    match parsePlain message with
    | .ok request => .ok request
    | .error fault => if message = known then .ok json else .error fault
  dump := plainText.dump

theorem textKnowing_throwsJson (known : String) (json : Json) :
    (textKnowing known json).ThrowsJson := by
  intro message fault h
  simp only [textKnowing] at h
  split at h
  · cases h
  · rename_i fault' hplain
    split at h
    · cases h
    · cases h
      exact parsePlain_throwsJson hplain

/-- A short text is no request; only the one that is known parses. -/
theorem textKnowing_parse_of_short {known message : String} {json : Json}
    (h : message.toList.length < requestBefore.length) (parsed : Json) :
    (textKnowing known json).parse message = .ok parsed ↔ message = known ∧ json = parsed := by
  simp only [textKnowing]
  split
  · rename_i request hplain
    exact absurd hplain (parsePlain_of_short h request)
  · split
    · rename_i hknown
      simp [hknown]
    · rename_i hknown
      simp [hknown]

/-- A parser that knows the empty object. -/
def bracesText : JsonText := textKnowing "\x7b\x7d" (.object [])

/-- No text that does not parse reaches an undefined access. -/
theorem onRead_defined_iff_unparsable :
    ¬ Undefined (Session.onRead bracesText (.documented fun _ => none) false
        (some (managerCallback (.documented fun _ => none) true .initial)) "pong")
        (Session.opened bracesText "tickers.BTCUSDT") := by
  apply (Session.onRead_defined_iff bracesText (.documented fun _ => none)
    (textKnowing_throwsJson _ _) (VkCommon.documented_checks _) false true .initial "pong"
    (Session.opened bracesText "tickers.BTCUSDT")).mpr
  intro json hparse
  have hknown := ((textKnowing_parse_of_short (by decide) json).mp hparse).1
  exact absurd hknown (by decide)

/-- **The empty object is an event without data.** -/
theorem empty_object_is_undefined :
    ¬ ∀ (text : JsonText) (common : VkCommon), text.ThrowsJson → common.Checks →
      ∀ logger managerLogger store message s,
        ¬ Undefined (Session.onRead text common logger
          (some (managerCallback common managerLogger store)) message) s := by
  intro h
  have hdefined := h bracesText (.documented fun _ => none) (textKnowing_throwsJson _ _)
    (VkCommon.documented_checks _) true true .initial "\x7b\x7d"
    (Session.opened bracesText "tickers.BTCUSDT")
  apply hdefined
  apply (Session.undefined_onRead_iff (textKnowing_throwsJson _ _)
    (VkCommon.documented_checks _) _ _).mpr
  refine ⟨_, (textKnowing_parse_of_short (by decide) _).mpr ⟨rfl, rfl⟩, ?_⟩
  intro hpresent
  have hdata := hpresent.data rfl rfl ⟨⟨"", rfl⟩, ⟨.snapshot, rfl⟩, ⟨0, rfl⟩⟩
  cases hdata

end BybitApi
