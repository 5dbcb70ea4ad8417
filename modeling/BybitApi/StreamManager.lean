import BybitApi.CandleStore
import BybitApi.Loop
import BybitApi.MessageAccess
import BybitApi.RejectedEvents

/-!
# The stream manager

The parts of `WSStreamManager` put together: user threads subscribe and read, the io thread
drives the session, and every data message that the session reads changes the store.
`readEventTicker` and `readEventCandlestick` poll the store, each poll under the lock that
the callback holds for the whole of an event.

The store outlives the sessions.  Whatever the interleaving, a read returns the merge of
the data messages that have arrived when it returns, over all sessions and among messages of
any other kind, and it misses nothing that had arrived at its last try
(`reads_merge_messages`).
-/

namespace BybitApi

open Machine EventStore

/-- What a read asks for. -/
inductive StoreKey where
  | ticker (pair : String)
  | candlestick (pair : String) (interval : CandleInterval)
deriving DecidableEq, Repr

inductive StoredEvent where
  | ticker (ticker : EventTicker)
  | candlestick (candlestick : EventCandlestick)
deriving DecidableEq, Repr

def StoreKey.pair : StoreKey → String
  | ticker pair => pair
  | candlestick pair _ => pair

/-- A call of `readEventTicker` or `readEventCandlestick` that has not returned.  `started`
    and `looked` are the texts that had been read when it began and at its last try. -/
structure ReadCall where
  key : StoreKey
  maxNumTries : Int
  numTries : Int
  started : Nat
  looked : Nat
deriving DecidableEq, Repr

/-- A call that has returned, the timeout at that moment, and the number of texts that had
    been read. -/
structure ReadAnswer where
  call : ReadCall
  found : Option StoredEvent
  timeout : Int
  returned : Nat
deriving DecidableEq, Repr

/-- A stream manager with the threads that read from it, and the texts read so far. -/
structure StreamManager (κ : Type) where
  session : Option Session
  store : EventStore
  timeout : Int
  reads : κ → Option ReadCall
  texts : List String
  answers : List ReadAnswer

inductive ManagerEvent (κ : Type) where
  /-- A user thread subscribes a stream. -/
  | subscribe (subscriptionFilter : String)
  /-- A completion other than that of a read with a text, or a step within `onRead`. -/
  | completed (event : SessionEvent)
  | received (message : String)
  | setTimeout (seconds : Int)
  | read (thread : κ) (key : StoreKey)
  | poll (thread : κ)

/-- The events of a session that the io thread brings about, but for a text that is read. -/
def SessionEvent.ofConnection : SessionEvent → Bool
  | .subscribe _ | .close | .received _ _ => false
  | _ => true

/-- A handler runs, or something refers to the session. -/
def Session.Alive (s : Session) : Prop := 0 < s.selfReferences ∨ s.handler ≠ .idle

instance (s : Session) : Decidable s.Alive := inferInstanceAs (Decidable (_ ∨ _))

def EventStore.look (store : EventStore) : StoreKey → Option StoredEvent
  | .ticker pair => store.tickers[pair]?.map .ticker
  | .candlestick pair interval => (store.candle pair interval).map .candlestick

namespace StreamManager

variable {κ : Type}

def initial : StreamManager κ :=
  { session := none, store := .initial, timeout := 5, reads := fun _ => none, texts := [],
    answers := [] }

section Source

variable (text : JsonText) (common : VkCommon) (logger : Bool)

/-- What `subscribeTickerStream` and `subscribeCandlestickStream` do on the session that the
    client has. -/
def subscribeStream (subscriptionFilter : String) : Option Session → Option Session
  | some session =>
      if session.Alive ∧ session.subscriptions.isSubscribed subscriptionFilter then some session
      else session.clientSubscribe text subscriptionFilter
  | none =>
      -- `WebSocketSession::run` throws, and the new session is destroyed
      if subscriptionFilter = "" then none else some (Session.opened text subscriptionFilter)

/-- The event that `onRead` hands to the callback. -/
def dataEvent? (message : String) : Option Event :=
  match text.parse message with
  | .error _ => none
  | .ok json =>
      if json.isObject = true ∧ isApiControlMsg json = false then
        (built (Event.fromJson common json) .empty).toOption
      else none

/-- The store after a text has been read; `none` after undefined behaviour. -/
def storeAfter (store : EventStore) (message : String) : Option EventStore :=
  match dataEvent? text common message with
  | some event => settled (EventStore.onEvent common logger event) store
  | none => some store

/-- One pass of the loops of `readEventTicker` and `readEventCandlestick`. -/
def readPass (timeout : Int) (store : EventStore) (call : ReadCall) :
    Loop.Pass ReadCall (Option StoredEvent) :=
  if call.numTries ≤ call.maxNumTries then
    if timeout = 0 then .exit none
    else
      match store.look call.key with
      | some found => .exit (some found)
      | none => .again { call with numTries := call.numTries + 1 }
  else .exit none

/-- A read on a store that does not change meanwhile. -/
def readAlone (timeout : Int) (store : EventStore) : StoreKey → Option StoredEvent
  | .ticker pair => (readEventTicker timeout pair store).map .ticker
  | .candlestick pair interval =>
      (readEventCandlestick timeout pair interval store).map .candlestick

def step [DecidableEq κ] (s : StreamManager κ) : ManagerEvent κ → Option (StreamManager κ)
  | .subscribe subscriptionFilter =>
      some { s with session := subscribeStream text subscriptionFilter s.session }
  | .completed event =>
      if event.ofConnection then
        (s.session.bind fun session => session.step text common logger event).map
          fun session => { s with session := some session }
      else none
  | .received message => do
      let session ← s.session
      let session ← session.step text common logger
        (.received message (Session.callbackOutcome text common
          (some (managerCallback common logger s.store)) message))
      let store ← storeAfter text common logger s.store message
      return { s with session := some session, store, texts := s.texts ++ [message] }
  | .setTimeout seconds => some { s with timeout := seconds }
  | .read thread key =>
      match s.reads thread with
      | some _ => none
      | none =>
          -- the cast to `int` is undefined for a longer timeout
          if s.timeout.natAbs ≤ maxTimeout then
            some
              { s with
                reads := Function.update s.reads thread
                  (some
                    { key, maxNumTries := maxNumTries s.timeout, numTries := 0,
                      started := s.texts.length, looked := s.texts.length }) }
          else none
  | .poll thread =>
      match s.reads thread with
      | none => none
      | some call =>
          match readPass s.timeout s.store call with
          | .again call =>
              some
                { s with
                  reads := Function.update s.reads thread
                    (some { call with looked := s.texts.length }) }
          | .exit found =>
              some
                { s with
                  reads := Function.update s.reads thread none
                  answers := s.answers ++
                    [{ call, found, timeout := s.timeout, returned := s.texts.length }] }

end Source

/-! ### Reads that are not disturbed -/

/-- The passes of a loop that looks the key up until there is an entry. -/
theorem run_readPass {timeout : Int} {store : EventStore} {key : StoreKey}
    {loop : Nat → Option StoredEvent} (hzero : loop 0 = none)
    (hsucc : ∀ tries, loop (tries + 1) =
      if timeout = 0 then none else (store.look key).or (loop tries))
    {tries : Nat} {call : ReadCall} (hkey : call.key = key)
    (htries : (call.maxNumTries + 1 - call.numTries).toNat = tries) :
    Loop.run (readPass timeout store) (tries + 1) call = some (loop tries) := by
  induction tries generalizing call with
  | zero =>
      have hdone : ¬ call.numTries ≤ call.maxNumTries := by omega
      have hpass : readPass timeout store call = .exit none := by
        rw [readPass, if_neg hdone]
      rw [Loop.run_exit hpass, hzero]
  | succ tries ih =>
      have hmore : call.numTries ≤ call.maxNumTries := by omega
      rw [hsucc]
      by_cases htimeout : timeout = 0
      · have hpass : readPass timeout store call = .exit none := by
          rw [readPass, if_pos hmore, if_pos htimeout]
        rw [Loop.run_exit hpass, if_pos htimeout]
      · rw [if_neg htimeout]
        cases hlook : store.look key with
        | some value =>
            have hpass : readPass timeout store call = .exit (some value) := by
              simp only [readPass, if_pos hmore, if_neg htimeout, hkey, hlook]
            rw [Loop.run_exit hpass, Option.some_or]
        | none =>
            have hpass : readPass timeout store call =
                .again { call with numTries := call.numTries + 1 } := by
              simp only [readPass, if_pos hmore, if_neg htimeout, hkey, hlook]
            rw [Loop.run_again hpass, Option.none_or]
            have hleft : (call.maxNumTries + 1 - (call.numTries + 1)).toNat = tries := by omega
            have hnext : { call with numTries := call.numTries + 1 }.key = key := hkey
            exact ih hnext hleft

/-- On a store that does not change, the passes of a call are those of the function read. -/
theorem run_readPass_eq (timeout : Int) (store : EventStore) (key : StoreKey)
    (started looked : Nat) :
    Loop.run (readPass timeout store) ((maxNumTries timeout + 1).toNat + 1)
        { key, maxNumTries := maxNumTries timeout, numTries := 0, started, looked } =
      some (readAlone timeout store key) := by
  cases key with
  | ticker pair =>
      refine @run_readPass timeout store (.ticker pair)
        (fun tries => (readTickerLoop timeout pair store tries).map .ticker) rfl ?_ _ _ rfl
        (by simp)
      intro tries
      simp only [readTickerLoop, EventStore.look]
      by_cases htimeout : timeout = 0
      · simp [htimeout]
      · cases store.tickers[pair]? <;> simp [htimeout]
  | candlestick pair interval =>
      refine @run_readPass timeout store (.candlestick pair interval)
        (fun tries => (readLoop timeout pair interval store tries).map .candlestick) rfl ?_ _ _ rfl
        (by simp)
      intro tries
      simp only [readLoop, EventStore.look, EventStore.candle]
      by_cases htimeout : timeout = 0
      · simp [htimeout]
      · cases store.candlesticks[pair]? with
        | none => simp [htimeout]
        | some candles => cases hcandle : candles interval <;> simp [htimeout, hcandle]

/-! ### What should be read -/

/-- The data events among the texts. -/
def dataEvents (text : JsonText) (common : VkCommon) (texts : List String) : List Event :=
  texts.filterMap (dataEvent? text common)

/-- The merge of the events under a key. -/
def merged (number : Json → Option Double) (events : List Event) : StoreKey → Option StoredEvent
  | .ticker pair => (referenceTicker number pair events).map .ticker
  | .candlestick pair interval => (lastCandle number pair interval events).map .candlestick

/-- An event as the exchange sends it: a well-formed one of a subscribed stream, or one on
    another topic, with anything in it. -/
def SentEvent (number : Json → Option Double) (event : Event) : Prop :=
  (∃ pair, PairName pair ∧ (IsTickerEvent number pair event ∨
    ∃ interval, IsKlineEvent number pair interval event)) ∨
  containsText event.topic "tickers" = false ∧ containsText event.topic "kline" = false

/-- The texts that are read may be anything, but if one carries a data event it is one as
    the exchange sends it; what is read are pairs. -/
def Sends (text : JsonText) (common : VkCommon) (number : Json → Option Double) :
    ManagerEvent κ → Prop
  | .received message => ∀ event, dataEvent? text common message = some event →
      SentEvent number event
  | .read _ key => PairName key.pair
  | _ => True

/-- **A right answer.**  What was found is the merge of what had arrived when the call
    returned.  Nothing is found only with a timeout of zero, with one that was negative
    when the call began, or after a hundred tries a second and one more; then nothing had
    arrived at the last of them. -/
structure RightAnswer (text : JsonText) (common : VkCommon) (number : Json → Option Double)
    (texts : List String) (answer : ReadAnswer) : Prop where
  started_le : answer.call.started ≤ answer.call.looked
  looked_le : answer.call.looked ≤ answer.returned
  returned_le : answer.returned ≤ texts.length
  found : ∀ value, answer.found = some value →
    merged number (dataEvents text common (texts.take answer.returned)) answer.call.key =
      some value
  missed : answer.found = none →
    answer.timeout = 0 ∨ answer.call.maxNumTries < 0 ∨
      answer.call.numTries = answer.call.maxNumTries + 1 ∧
        merged number (dataEvents text common (texts.take answer.call.looked))
          answer.call.key = none

/-! ### The store -/

section Store

variable {text : JsonText} {common : VkCommon} {logger : Bool} {number : Json → Option Double}

theorem SentEvent.isCandleStreamEvent {event : Event} (h : SentEvent number event) :
    IsCandleStreamEvent number event := by
  rcases h with ⟨pair, hpair, hticker | ⟨interval, hkline⟩⟩ | ⟨-, hkline⟩
  · refine .inr (.inl ?_)
    rw [hticker.topic]
    exact containsText_tickerTopic pair
  · exact .inl ⟨pair, hpair, interval, hkline⟩
  · exact .inr (.inr (by rw [hkline]; exact Bool.false_ne_true))

/-- The event is on a topic that the callback knows. -/
def onKnownTopic (event : Event) : Bool :=
  containsText event.topic "tickers" || containsText event.topic "kline"

theorem onEvent_of_unknown {event : Event} (h : onKnownTopic event = false)
    (store : EventStore) :
    settled (EventStore.onEvent common logger event) store = some store := by
  obtain ⟨htickers, hkline⟩ := Bool.or_eq_false_iff.mp h
  rw [EventStore.onEvent, if_neg (by simp [htickers]), if_neg (by simp [hkline])]
  rfl

theorem onEvents_filter (events : List Event) (store : EventStore) :
    EventStore.onEvents common logger store events =
      EventStore.onEvents common logger store (events.filter onKnownTopic) := by
  induction events generalizing store with
  | nil => rfl
  | cons event events ih =>
      rw [onEvents_cons]
      by_cases hknown : onKnownTopic event = true
      · rw [List.filter_cons_of_pos hknown, onEvents_cons]
        congr 1
        funext store'
        exact ih store'
      · rw [List.filter_cons_of_neg hknown, ← ih store,
          onEvent_of_unknown (Bool.eq_false_iff.mpr hknown), Option.bind_some]

theorem referenceTicker_filter (pair : String) (events : List Event) :
    referenceTicker number pair (events.filter onKnownTopic) =
      referenceTicker number pair events := by
  have hown : (events.filter onKnownTopic).filter (fun event => event.topic == tickerTopic pair) =
      events.filter fun event => event.topic == tickerTopic pair := by
    rw [List.filter_filter]
    refine List.filter_congr ?_
    intro event _
    by_cases htopic : event.topic = tickerTopic pair
    · simp [onKnownTopic, htopic, containsText_tickerTopic]
    · simp [htopic]
  unfold referenceTicker
  rw [hown]

/-- What the store holds under a key is the merge of the events. -/
theorem look_onEvents (hreads : common.ReadsCandles number) (hsplits : common.Splits)
    {events : List Event} (hevents : ∀ event ∈ events, SentEvent number event)
    {store : EventStore} (hstore : EventStore.onEvents common logger .initial events = some store)
    {key : StoreKey} (hkey : PairName key.pair) : store.look key = merged number events key := by
  cases key with
  | ticker pair =>
      have hstream : ∀ event ∈ events.filter onKnownTopic, IsStreamEvent number event := by
        intro event hevent
        obtain ⟨hmem, hknown⟩ := List.mem_filter.mp hevent
        rcases hevents event hmem with ⟨pair', hpair', hticker | ⟨interval, hkline⟩⟩ |
          ⟨htickers, hkline⟩
        · exact ⟨pair', hpair', .inl hticker⟩
        · exact ⟨pair', hpair', .inr ⟨interval, hkline.topic⟩⟩
        · simp [onKnownTopic, htickers, hkline] at hknown
      have hentry : store.tickers[pair]? =
          referenceTicker number pair (events.filter onKnownTopic) := by
        rw [onEvents_filter] at hstore
        rw [EventStore.onEvents_tickers hreads.strings hreads.numbers hsplits hstream
          (by simp [EventStore.initial]) hstore, EventStore.foldl_mergeStep]
        simp only [EventStore.initial, Std.ExtTreeMap.getElem?_empty, Option.getD_none]
        rfl
      rw [EventStore.look, hentry, referenceTicker_filter]
      rfl
  | candlestick pair interval =>
      have hpair : PairName pair := hkey
      rw [EventStore.look, EventStore.candle_onEvents hreads hsplits logger hpair
        (fun event hevent => (hevents event hevent).isCandleStreamEvent) hstore]
      rfl

end Store

/-! ### Runs -/

section Runs

variable {text : JsonText} {common : VkCommon} {logger : Bool} {number : Json → Option Double}

/-- A call under way: it began at some text, and if it has tried in vain then nothing had
    arrived at its last try. -/
structure UnderWay (text : JsonText) (common : VkCommon) (number : Json → Option Double)
    (texts : List String) (call : ReadCall) : Prop where
  named : PairName call.key.pair
  started_le : call.started ≤ call.looked
  looked_le : call.looked ≤ texts.length
  tries : call.numTries = 0 ∨ call.numTries ≤ call.maxNumTries + 1 ∧
    merged number (dataEvents text common (texts.take call.looked)) call.key = none

structure Inv (text : JsonText) (common : VkCommon) (logger : Bool)
    (number : Json → Option Double) (s : StreamManager κ) : Prop where
  store_eq : EventStore.onEvents common logger .initial (dataEvents text common s.texts) =
    some s.store
  sent : ∀ event ∈ dataEvents text common s.texts, SentEvent number event
  reading : ∀ thread, ∀ call ∈ s.reads thread, UnderWay text common number s.texts call
  right : ∀ answer ∈ s.answers, RightAnswer text common number s.texts answer
  ordered : (s.answers.map ReadAnswer.returned).Pairwise (· ≤ ·)

theorem inv_initial : Inv text common logger number (initial : StreamManager κ) where
  store_eq := rfl
  sent := by simp [initial, dataEvents]
  reading := by simp [initial]
  right := by simp [initial]
  ordered := List.Pairwise.nil

theorem dataEvents_concat (texts : List String) (message : String) :
    dataEvents text common (texts ++ [message]) =
      dataEvents text common texts ++ (dataEvent? text common message).toList := by
  unfold dataEvents
  rw [List.filterMap_append]
  cases hevent : dataEvent? text common message with
  | none => rw [List.filterMap_cons_none hevent, List.filterMap_nil, Option.toList_none]
  | some event => rw [List.filterMap_cons_some hevent, List.filterMap_nil, Option.toList_some]

theorem RightAnswer.concat {texts : List String} {answer : ReadAnswer}
    (h : RightAnswer text common number texts answer) (message : String) :
    RightAnswer text common number (texts ++ [message]) answer where
  started_le := h.started_le
  looked_le := h.looked_le
  returned_le := h.returned_le.trans (by simp)
  found := by
    rw [List.take_append_of_le_length h.returned_le]
    exact h.found
  missed := by
    rw [List.take_append_of_le_length (h.looked_le.trans h.returned_le)]
    exact h.missed

theorem UnderWay.concat {texts : List String} {call : ReadCall}
    (h : UnderWay text common number texts call) (message : String) :
    UnderWay text common number (texts ++ [message]) call where
  named := h.named
  started_le := h.started_le
  looked_le := h.looked_le.trans (by simp)
  tries := by
    rw [List.take_append_of_le_length h.looked_le]
    exact h.tries

/-- A text changes the store by its data event. -/
theorem inv_received {s : StreamManager κ} (hs : Inv text common logger number s)
    {message : String}
    (hsends : ∀ event, dataEvent? text common message = some event → SentEvent number event)
    {store : EventStore} (hstore : storeAfter text common logger s.store message = some store)
    (session : Option Session) :
    Inv text common logger number
      { s with session := session, store := store, texts := s.texts ++ [message] } where
  store_eq := by
    simp only [dataEvents_concat]
    unfold storeAfter at hstore
    cases hevent : dataEvent? text common message with
    | none =>
        rw [hevent] at hstore
        obtain rfl := Option.some.inj hstore
        rw [Option.toList_none, List.append_nil]
        exact hs.store_eq
    | some event =>
        rw [hevent] at hstore
        rw [Option.toList_some, onEvents_concat, hs.store_eq, Option.bind_some]
        exact hstore
  sent := by
    simp only [dataEvents_concat]
    intro event hevent
    rcases List.mem_append.mp hevent with hevent | hevent
    · exact hs.sent event hevent
    · exact hsends event (Option.mem_toList.mp hevent)
  reading thread call hcall := (hs.reading thread call hcall).concat message
  right answer hanswer := (hs.right answer hanswer).concat message
  ordered := hs.ordered

theorem Inv.look_eq (hreads : common.ReadsCandles number) (hsplits : common.Splits)
    {s : StreamManager κ} (hs : Inv text common logger number s) {key : StoreKey}
    (hkey : PairName key.pair) :
    s.store.look key = merged number (dataEvents text common s.texts) key :=
  look_onEvents hreads hsplits hs.sent hs.store_eq hkey

/-- **A poll in vain** is one for something that has not arrived. -/
theorem underWay_again (hreads : common.ReadsCandles number) (hsplits : common.Splits)
    {s : StreamManager κ} (hs : Inv text common logger number s) {call next : ReadCall}
    (hcall : UnderWay text common number s.texts call)
    (hpass : readPass s.timeout s.store call = .again next) :
    UnderWay text common number s.texts { next with looked := s.texts.length } := by
  unfold readPass at hpass
  by_cases htries : call.numTries ≤ call.maxNumTries
  · rw [if_pos htries] at hpass
    by_cases htimeout : s.timeout = 0
    · rw [if_pos htimeout] at hpass
      cases hpass
    · rw [if_neg htimeout] at hpass
      cases hlook : s.store.look call.key with
      | some value =>
          rw [hlook] at hpass
          cases hpass
      | none =>
          rw [hlook] at hpass
          cases hpass
          rw [hs.look_eq hreads hsplits hcall.named] at hlook
          refine ⟨hcall.named, hcall.started_le.trans hcall.looked_le, le_refl _, .inr ⟨?_, ?_⟩⟩
          · exact Int.add_le_add_right htries 1
          · rw [List.take_length]
            exact hlook
  · rw [if_neg htries] at hpass
    cases hpass

/-- **A call returns** with what is in the store, or when it has tried often enough. -/
theorem rightAnswer_exit (hreads : common.ReadsCandles number) (hsplits : common.Splits)
    {s : StreamManager κ} (hs : Inv text common logger number s) {call : ReadCall}
    (hcall : UnderWay text common number s.texts call) {found : Option StoredEvent}
    (hpass : readPass s.timeout s.store call = .exit found) :
    RightAnswer text common number s.texts
      { call, found, timeout := s.timeout, returned := s.texts.length } := by
  have hright : (∀ value, found = some value → s.store.look call.key = some value) ∧
      (found = none → s.timeout = 0 ∨ ¬ call.numTries ≤ call.maxNumTries) := by
    unfold readPass at hpass
    by_cases htries : call.numTries ≤ call.maxNumTries
    · rw [if_pos htries] at hpass
      by_cases htimeout : s.timeout = 0
      · rw [if_pos htimeout] at hpass
        cases hpass
        exact ⟨fun _ h => (by cases h), fun _ => .inl htimeout⟩
      · rw [if_neg htimeout] at hpass
        cases hlook : s.store.look call.key with
        | some value =>
            rw [hlook] at hpass
            cases hpass
            exact ⟨fun _ h => h, fun h => (by cases h)⟩
        | none =>
            rw [hlook] at hpass
            cases hpass
    · rw [if_neg htries] at hpass
      cases hpass
      exact ⟨fun _ h => (by cases h), fun _ => .inr htries⟩
  refine ⟨hcall.started_le, hcall.looked_le, le_refl _, ?_, ?_⟩
  · intro value hvalue
    rw [List.take_length, ← hs.look_eq hreads hsplits hcall.named]
    exact hright.1 value hvalue
  · intro hnone
    rcases hright.2 hnone with htimeout | htries
    · exact .inl htimeout
    · rcases hcall.tries with hzero | ⟨hle, hmissed⟩
      · right
        left
        show call.maxNumTries < 0
        omega
      · right
        right
        refine ⟨?_, hmissed⟩
        show call.numTries = call.maxNumTries + 1
        omega

variable [DecidableEq κ]

theorem inv_poll (hreads : common.ReadsCandles number) (hsplits : common.Splits)
    {s s' : StreamManager κ} {thread : κ} (hs : Inv text common logger number s)
    (hstep : step text common logger s (.poll thread) = some s') :
    Inv text common logger number s' := by
  simp only [step] at hstep
  cases hread : s.reads thread with
  | none =>
      rw [hread] at hstep
      cases hstep
  | some call =>
      have hcall := hs.reading thread call hread
      rw [hread] at hstep
      have hothers : ∀ (entry : Option ReadCall),
          (∀ next ∈ entry, UnderWay text common number s.texts next) →
            ∀ other, ∀ next ∈ Function.update s.reads thread entry other,
              UnderWay text common number s.texts next := by
        intro entry hentry other next hnext
        by_cases hsame : other = thread
        · subst hsame
          rw [Function.update_self] at hnext
          exact hentry next hnext
        · rw [Function.update_of_ne hsame] at hnext
          exact hs.reading other next hnext
      cases hpass : readPass s.timeout s.store call with
      | again next =>
          simp only [hpass, Option.some.injEq] at hstep
          subst hstep
          refine ⟨hs.store_eq, hs.sent, hothers _ ?_, hs.right, hs.ordered⟩
          intro next' hnext'
          obtain rfl := Option.mem_some.mp hnext'
          exact underWay_again hreads hsplits hs hcall hpass
      | exit found =>
          simp only [hpass, Option.some.injEq] at hstep
          subst hstep
          refine ⟨hs.store_eq, hs.sent, hothers _ (by simp), ?_, ?_⟩
          · intro answer hanswer
            rcases List.mem_append.mp hanswer with hanswer | hanswer
            · exact hs.right answer hanswer
            · obtain rfl := List.mem_singleton.mp hanswer
              exact rightAnswer_exit hreads hsplits hs hcall hpass
          · rw [List.map_append, List.pairwise_append]
            refine ⟨hs.ordered, List.pairwise_singleton _ _, ?_⟩
            intro earlier hearlier later hlater
            obtain ⟨answer, hanswer, rfl⟩ := List.mem_map.mp hearlier
            obtain rfl := List.mem_singleton.mp hlater
            exact (hs.right answer hanswer).returned_le

theorem inv_step (hreads : common.ReadsCandles number) (hsplits : common.Splits)
    (s : StreamManager κ) (event : ManagerEvent κ) (s' : StreamManager κ)
    (hs : Inv text common logger number s) (hsends : Sends text common number event)
    (hstep : step text common logger s event = some s') : Inv text common logger number s' := by
  cases event with
  | subscribe subscriptionFilter =>
      obtain rfl := Option.some.inj hstep
      exact ⟨hs.store_eq, hs.sent, hs.reading, hs.right, hs.ordered⟩
  | completed event =>
      simp only [step] at hstep
      split at hstep
      · obtain ⟨session, -, rfl⟩ := Option.map_eq_some_iff.mp hstep
        exact ⟨hs.store_eq, hs.sent, hs.reading, hs.right, hs.ordered⟩
      · cases hstep
  | received message =>
      simp only [step, bind, Option.bind_eq_some_iff] at hstep
      obtain ⟨-, -, session, -, store, hstore, hstep⟩ := hstep
      obtain rfl := Option.some.inj hstep
      exact inv_received hs hsends hstore (some session)
  | setTimeout seconds =>
      obtain rfl := Option.some.inj hstep
      exact ⟨hs.store_eq, hs.sent, hs.reading, hs.right, hs.ordered⟩
  | read thread key =>
      simp only [step] at hstep
      cases hread : s.reads thread with
      | some call =>
          rw [hread] at hstep
          cases hstep
      | none =>
          simp only [hread, Option.ite_none_right_eq_some, Option.some.injEq] at hstep
          obtain ⟨-, rfl⟩ := hstep
          refine ⟨hs.store_eq, hs.sent, ?_, hs.right, hs.ordered⟩
          intro other call hcall
          by_cases hsame : other = thread
          · subst hsame
            simp only [Function.update_self, Option.mem_some_iff] at hcall
            subst hcall
            exact ⟨hsends, le_refl _, le_refl _, .inl rfl⟩
          · simp only [Function.update_of_ne hsame] at hcall
            exact hs.reading other call hcall
  | poll thread => exact inv_poll hreads hsplits hs hstep

/-- **Reads are merges of the messages.**  In every run of a stream manager whose data
    messages are well formed, whatever its threads, the completions of its sessions and the
    other texts that are read, control messages, garbage and later connections among them:
    every answer is right, and the answers are in the order of the texts. -/
theorem reads_merge_messages (hreads : common.ReadsCandles number) (hsplits : common.Splits)
    {events : List (ManagerEvent κ)} (hsends : ∀ event ∈ events, Sends text common number event)
    {final : StreamManager κ} (hrun : run (step text common logger) initial events = some final) :
    (∀ answer ∈ final.answers, RightAnswer text common number final.texts answer) ∧
      (final.answers.map ReadAnswer.returned).Pairwise (· ≤ ·) := by
  have halong : Along (step text common logger)
      (fun _ event => True ∧ Sends text common number event) initial events :=
    along_and_of_forall (along_true initial events) hsends
  have hfinal : Inv text common logger number final :=
    invariant_of_run (fun s event s' hs hcond hstep =>
      inv_step hreads hsplits s event s' hs hcond.2 hstep) inv_initial halong hrun
  exact ⟨hfinal.right, hfinal.ordered⟩

end Runs

/-! ### A run -/

def bidEvent : Event where
  topic := "tickers.BTCUSDT"
  type := .delta
  ts := 1
  data := .object [("bid1Price", .string "99"), ("symbol", .string "BTCUSDT")]

/-- A parser that knows the message of the event. -/
def bidText : JsonText :=
  textKnowing "t" (.object
    [("data", bidEvent.data), ("topic", .string "tickers.BTCUSDT"), ("ts", .integer 1),
      ("type", .string "delta")])

/-- Two reads: one that begins before anything has arrived, and one that is given up as the
    timeout is set to zero. -/
def bidRun : List (ManagerEvent Bool) :=
  [.subscribe "tickers.BTCUSDT", .read true (.ticker "BTCUSDT"), .poll true,
    .completed (.resolved false), .completed (.connected false false),
    .completed (.sslHandshaked false), .completed (.handshaked false),
    .read false (.ticker "ETHUSDT"), .completed (.written false), .poll false, .received "t",
    .poll true, .setTimeout 0, .poll false, .completed .sendNext]

theorem dataEvent?_bid : dataEvent? bidText (.documented wholeNumber) "t" = some bidEvent := by
  have hparse : bidText.parse "t" = .ok _ :=
    (textKnowing_parse_of_short (by decide) _).mpr ⟨rfl, rfl⟩
  simp only [dataEvent?, hparse]
  rfl

theorem isTickerEvent_bid : IsTickerEvent wholeNumber "BTCUSDT" bidEvent :=
  ⟨rfl, rfl, by decide, by decide⟩

theorem bidRun_sends :
    ∀ event ∈ bidRun, Sends bidText (.documented wholeNumber) wholeNumber event := by
  have hbtc : PairName "BTCUSDT" := ⟨by decide, by simp⟩
  have heth : PairName "ETHUSDT" := ⟨by decide, by simp⟩
  have hbid : ∀ event, dataEvent? bidText (.documented wholeNumber) "t" = some event →
      SentEvent wholeNumber event := by
    intro event hevent
    rw [dataEvent?_bid] at hevent
    obtain rfl := Option.some.inj hevent
    exact .inl ⟨_, hbtc, .inl isTickerEvent_bid⟩
  simp only [bidRun, List.forall_mem_cons]
  exact ⟨trivial, hbtc, trivial, trivial, trivial, trivial, trivial, heth, trivial, trivial, hbid,
    trivial, trivial, trivial, trivial, by simp⟩

theorem bidRun_found :
    (run (step bidText (.documented wholeNumber) true) initial bidRun).map
        (fun final => final.answers.map ReadAnswer.found) =
      some [some (.ticker { zeroTicker "BTCUSDT" with bid1Price := 99 }), none] := by
  decide +kernel

theorem reads_merge_messages_bid :
    ∃ final, run (step bidText (.documented wholeNumber) true) initial bidRun = some final ∧
      final.answers.map ReadAnswer.found =
        [some (.ticker { zeroTicker "BTCUSDT" with bid1Price := 99 }), none] ∧
      ∀ answer ∈ final.answers,
        RightAnswer bidText (.documented wholeNumber) wholeNumber final.texts answer := by
  obtain ⟨final, hfinal, hfound⟩ := Option.map_eq_some_iff.mp bidRun_found
  exact ⟨final, hfinal, hfound, (reads_merge_messages (VkCommon.documented_readsCandles _)
    (VkCommon.documented_splits _) bidRun_sends hfinal).1⟩

end StreamManager

end BybitApi
