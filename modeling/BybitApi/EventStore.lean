import BybitApi.Faults

/-!
# The stores of the stream manager

The data callback of `WSStreamManager` keeps the last ticker of every pair and
the last candle of every pair and interval.  A ticker is looked up under the
last segment of the topic and, when it is new, inserted under the symbol of its
payload; one that exists is changed in place, field by field.
-/

namespace BybitApi

structure Event where
  topic : String
  type : ResponseType
  ts : Int
  data : Json
deriving Repr

def Event.empty : Event := { topic := "", type := .snapshot, ts := 0, data := .null }

structure EventTicker where
  symbol : String
  ask1Price : Double
  ask1Size : Double
  bid1Price : Double
  bid1Size : Double
  lastPrice : Double
deriving DecidableEq, Repr

def EventTicker.empty : EventTicker :=
  { symbol := "", ask1Price := 0, ask1Size := 0, bid1Price := 0, bid1Size := 0, lastPrice := 0 }

structure EventCandlestick where
  start : Int
  end_ : Int
  interval : String
  open_ : Double
  high : Double
  low : Double
  close : Double
  volume : Double
  turnover : Double
  confirm : Bool
  timestamp : Int
deriving DecidableEq, Repr

def EventCandlestick.empty : EventCandlestick :=
  { start := 0, end_ := 0, interval := "", open_ := 0, high := 0, low := 0, close := 0,
    volume := 0, turnover := 0, confirm := false, timestamp := 0 }

/-- The maps of `WSStreamManager::P`; the inner map of `candlesticks` has the
    intervals for its keys. -/
structure EventStore where
  tickers : Std.ExtTreeMap String EventTicker
  candlesticks : Std.ExtTreeMap String (CandleInterval → Option EventCandlestick)

def EventStore.initial : EventStore := { tickers := ∅, candlesticks := ∅ }

/-- The filter of `subscribeTickerStream`. -/
def tickerTopic (pair : String) : String := "tickers." ++ pair

/-- The filter of `subscribeCandlestickStream`. -/
def klineTopic (pair : String) (interval : CandleInterval) : String :=
  "kline." ++ interval.enumName ++ "." ++ pair

/-- `std::string::find` finds the pattern. -/
def containsText (text pattern : String) : Bool :=
  pattern.toList.isInfixOf_internal text.toList

section Source

variable (common : VkCommon) (logger : Bool)

def Event.fromJson (json : Json) : Effect Event Unit := do
  assign fun e => do return { e with topic := ← common.readString json "topic" e.topic }
  assign fun e => do return { e with type := ← common.readResponseType json "type" e.type }
  assign fun e => do return { e with ts := ← common.readInt64 json "ts" e.ts }
  assign fun e => do return { e with data := ← json.index "data" }

def EventTicker.fromJson (json : Json) : Effect EventTicker Unit := do
  assign fun t => do return { t with symbol := ← common.readString json "symbol" t.symbol }
  assign fun t => do
    return { t with ask1Price := ← common.readStringAsDouble json "ask1Price" t.ask1Price }
  assign fun t => do
    return { t with ask1Size := ← common.readStringAsDouble json "ask1Size" t.ask1Size }
  assign fun t => do
    return { t with bid1Price := ← common.readStringAsDouble json "bid1Price" t.bid1Price }
  assign fun t => do
    return { t with bid1Size := ← common.readStringAsDouble json "bid1Size" t.bid1Size }
  assign fun t => do
    return { t with lastPrice := ← common.readStringAsDouble json "lastPrice" t.lastPrice }

def EventTicker.loadEventData (event : Event) : Effect EventTicker Unit :=
  match event.type with
  | .snapshot => EventTicker.fromJson common event.data
  | .delta => EventTicker.fromJson common event.data

def EventCandlestick.fromJson (json : Json) : Effect EventCandlestick Unit := do
  assign fun c => do return { c with start := ← common.readInt64 json "start" c.start }
  assign fun c => do return { c with end_ := ← common.readInt64 json "end" c.end_ }
  assign fun c => do return { c with interval := ← common.readString json "interval" c.interval }
  assign fun c => do return { c with open_ := ← common.readStringAsDouble json "open" c.open_ }
  assign fun c => do return { c with high := ← common.readStringAsDouble json "high" c.high }
  assign fun c => do return { c with low := ← common.readStringAsDouble json "low" c.low }
  assign fun c => do return { c with close := ← common.readStringAsDouble json "close" c.close }
  assign fun c => do return { c with volume := ← common.readStringAsDouble json "volume" c.volume }
  assign fun c => do
    return { c with turnover := ← common.readStringAsDouble json "turnover" c.turnover }
  assign fun c => do return { c with confirm := ← common.readBool json "confirm" c.confirm }
  assign fun c => do return { c with timestamp := ← common.readInt64 json "timestamp" c.timestamp }

def readSymbolFromFilter (subscriptionFilter : String) : String :=
  (common.splitString subscriptionFilter '.').getLast?.getD ""

namespace EventStore

/-- The `try` block of the ticker branch. -/
def storeTicker (event : Event) : Effect EventStore Unit := fun store =>
  let key := readSymbolFromFilter common event.topic
  match store.tickers[key]? with
  | none =>
      match EventTicker.loadEventData common event .empty with
      | .ok () eventTicker =>
          .ok () { store with tickers := store.tickers.insert eventTicker.symbol eventTicker }
      | .error fault _ => .error fault store
  | some ticker =>
      -- changed in place, so what was read before an exception stays
      match EventTicker.loadEventData common event ticker with
      | .ok () ticker => .ok () { store with tickers := store.tickers.insert key ticker }
      | .error fault ticker =>
          .error fault { store with tickers := store.tickers.insert key ticker }

def insertCandlestick (symbol : String) (interval : CandleInterval)
    (candlestick : EventCandlestick) (store : EventStore) : EventStore :=
  let candles := (store.candlesticks[symbol]?).getD fun _ => none
  { store with
    candlesticks :=
      store.candlesticks.insert symbol (Function.update candles interval (some candlestick)) }

/-- The `try` block of the candle branch. -/
def storeCandlestick (event : Event) : Effect EventStore Unit := do
  (if event.data.size ≠ 1 then logMessage logger else pure ())
  let json ← ofExcept (event.data.indexAt 0)
  let candlestick ← ofExcept (built (EventCandlestick.fromJson common json) .empty)
  let symbol := readSymbolFromFilter common event.topic
  modify fun store =>
    { store with candlesticks := store.candlesticks.insertIfNew symbol fun _ => none }
  match CandleInterval.enumCast? candlestick.interval with
  | some interval => modify (insertCandlestick symbol interval candlestick)
  | none => throw (.undefined "operator* of an empty optional")

/-- The callback that `WSStreamManager` hands to its client. -/
def onEvent (event : Event) : Effect EventStore Unit :=
  if containsText event.topic "tickers" then catchAndLog logger () (storeTicker common event)
  else if containsText event.topic "kline" then
    catchAndLog logger () (storeCandlestick common logger event)
  else pure ()

/-- The store after a sequence of events, if none of them runs into undefined
    behaviour. -/
def onEvents (store : EventStore) (events : List Event) : Option EventStore :=
  events.foldlM (fun store event => settled (onEvent common logger event) store) store

/-- A candle event leaves the tickers alone, however it ends. -/
theorem storeCandlestick_keeps (event : Event) :
    Keeps EventStore.tickers (storeCandlestick common logger event) := by
  unfold storeCandlestick
  apply Keeps.bind
  · split
    · exact keeps_logMessage logger
    · exact keeps_pure ()
  · intro _
    apply (keeps_ofExcept _).bind
    intro json
    apply (keeps_ofExcept _).bind
    intro candlestick
    dsimp only
    apply Keeps.bind
    · apply keeps_modify
      intro _
      rfl
    · intro _
      split
      · exact keeps_modify fun _ => rfl
      · exact keeps_throw _

/-- A ticker event leaves the candles alone, however it ends. -/
theorem storeTicker_keeps (event : Event) :
    Keeps EventStore.candlesticks (storeTicker common event) := by
  intro store
  unfold after storeTicker
  dsimp only
  cases store.tickers[readSymbolFromFilter common event.topic]? with
  | none => cases EventTicker.loadEventData common event .empty <;> rfl
  | some ticker =>
      dsimp only
      cases EventTicker.loadEventData common event ticker <;> rfl

end EventStore

end Source

/-! ### Accesses that nothing checks -/

/-- The data of a candle event have a first element, and if it decodes it names a known
    interval.  The number of candles is logged first, which throws without a logger. -/
def CandlePresent (common : VkCommon) (logger : Bool) (event : Event) : Prop :=
  containsText event.topic "tickers" = false → containsText event.topic "kline" = true →
    (event.data.size = 1 ∨ logger = true) →
      event.data ≠ .array [] ∧
      ∀ first candlestick, event.data.indexAt 0 = .ok first →
        built (EventCandlestick.fromJson common first) .empty = .ok candlestick →
          CandleInterval.enumCast? candlestick.interval ≠ none

theorem Json.indexAt_zero_undefined_iff {json : Json} :
    (∃ what, json.indexAt 0 = .error (.undefined what)) ↔ json = .array [] := by
  cases json with
  | array items => cases items <;> simp [indexAt]
  | null | bool _ | integer _ | float _ | string _ | object _ => simp [indexAt]

section Defined

variable {common : VkCommon} {logger : Bool}

theorem tickerFromJson_defined (hcommon : common.Checks) (json : Json) (ticker : EventTicker) :
    ¬ Undefined (EventTicker.fromJson common json) ticker := by
  rintro ⟨what, hfaults⟩
  simp only [EventTicker.fromJson, faults_assign_bind, faults_assign, hcommon.readString,
    hcommon.readStringAsDouble, false_or, and_false, exists_false] at hfaults

theorem candlestickFromJson_defined (hcommon : common.Checks) (json : Json)
    (candlestick : EventCandlestick) :
    ¬ Undefined (EventCandlestick.fromJson common json) candlestick := by
  rintro ⟨what, hfaults⟩
  simp only [EventCandlestick.fromJson, faults_assign_bind, faults_assign, hcommon.readInt64,
    hcommon.readString, hcommon.readStringAsDouble, hcommon.readBool, false_or, and_false,
    exists_false] at hfaults

namespace EventStore

/-- Storing a ticker only reads what it has looked up. -/
theorem storeTicker_defined (hcommon : common.Checks) (event : Event) (store : EventStore) :
    ¬ Undefined (storeTicker common event) store := by
  have hload : ∀ ticker, ¬ Undefined (EventTicker.loadEventData common event) ticker := by
    intro ticker
    unfold EventTicker.loadEventData
    cases event.type <;> exact tickerFromJson_defined hcommon event.data ticker
  rintro ⟨what, s', hfaults⟩
  simp only [storeTicker] at hfaults
  split at hfaults
  · split at hfaults
    · cases hfaults
    · rename_i fault s'' hload'
      cases hfaults
      exact hload .empty ⟨what, s'', hload'⟩
  · rename_i ticker _
    split at hfaults
    · cases hfaults
    · rename_i fault s'' hload'
      cases hfaults
      exact hload ticker ⟨what, s'', hload'⟩

/-- Nothing is looked at when the number of candles is wrong and cannot be logged. -/
theorem undefined_count_bind {event : Event} {k : Unit → Effect EventStore Unit}
    {store : EventStore} :
    Undefined ((if event.data.size ≠ 1 then logMessage logger else pure ()) >>= k) store ↔
      (event.data.size = 1 ∨ logger = true) ∧ Undefined (k ()) store := by
  by_cases hsize : event.data.size = 1
  · have hpure : (if event.data.size ≠ 1 then logMessage logger else pure () :
        Effect EventStore Unit) store = .ok () store := by
      rw [if_neg (not_not_intro hsize)]
      rfl
    simp only [Undefined, Faults, bind_of_ok k hpure]
    simp only [hsize, true_or, true_and]
  · rw [if_pos hsize]
    cases logger with
    | true =>
        have hlog : (logMessage true : Effect EventStore Unit) store = .ok () store := rfl
        simp only [Undefined, Faults, bind_of_ok k hlog, or_true, true_and]
    | false =>
        have hlog : (logMessage false : Effect EventStore Unit) store =
            .error .badFunctionCall store := rfl
        simp [Undefined, Faults, bind_of_error k hlog, hsize]

/-- A candle that decodes is stored unless its interval is unknown. -/
theorem undefined_storeCandlestick_iff (hcommon : common.Checks) (event : Event)
    (store : EventStore) :
    Undefined (storeCandlestick common logger event) store ↔
      (event.data.size = 1 ∨ logger = true) ∧
        (event.data = .array [] ∨ ∃ first, event.data.indexAt 0 = .ok first ∧ ∃ candlestick,
          built (EventCandlestick.fromJson common first) .empty = .ok candlestick ∧
            CandleInterval.enumCast? candlestick.interval = none) := by
  have hbuilt : ∀ json, ¬ ∃ what, built (EventCandlestick.fromJson common json) .empty =
      .error (.undefined what) := by
    rintro json ⟨what, herror⟩
    exact candlestickFromJson_defined hcommon json .empty ⟨what, built_eq_error.mp herror⟩
  unfold storeCandlestick
  rw [undefined_count_bind]
  simp only [undefined_ofExcept_bind, Json.indexAt_zero_undefined_iff, hbuilt, false_or,
    undefined_modify_bind]
  apply and_congr_right
  intro _
  apply or_congr_right
  apply exists_congr
  intro first
  apply and_congr_right
  intro _
  apply exists_congr
  intro candlestick
  apply and_congr_right
  intro _
  -- the candle is inserted under an interval that has a name, or there is none to look at
  cases CandleInterval.enumCast? candlestick.interval <;> simp [Undefined]

theorem undefined_onEvent_iff (hcommon : common.Checks) (event : Event) (store : EventStore) :
    Undefined (onEvent common logger event) store ↔ ¬ CandlePresent common logger event := by
  unfold onEvent CandlePresent
  cases htickers : containsText event.topic "tickers" with
  | true =>
      rw [if_pos rfl, undefined_catchAndLog]
      refine iff_of_false (storeTicker_defined hcommon event store) ?_
      simp
  | false =>
      rw [if_neg Bool.false_ne_true]
      cases hkline : containsText event.topic "kline" with
      | false =>
          rw [if_neg Bool.false_ne_true]
          refine iff_of_false ((faultsOnly_pure ()).not_undefined store) ?_
          simp
      | true =>
          rw [if_pos rfl, undefined_catchAndLog, undefined_storeCandlestick_iff hcommon]
          constructor
          · rintro ⟨hcount, hmissing⟩ hpresent
            obtain ⟨hne, hknown⟩ := hpresent rfl rfl hcount
            rcases hmissing with hempty | ⟨first, hfirst, candlestick, hbuilt, hunknown⟩
            · exact hne hempty
            · exact hknown first candlestick hfirst hbuilt hunknown
          · intro habsent
            by_cases hcount : event.data.size = 1 ∨ logger = true
            · refine ⟨hcount, ?_⟩
              by_contra hneither
              apply habsent
              intro _ _ _
              refine ⟨fun hempty => hneither (.inl hempty), ?_⟩
              intro first candlestick hfirst hbuilt hunknown
              exact hneither (.inr ⟨first, hfirst, candlestick, hbuilt, hunknown⟩)
            · exact absurd (fun _ _ h => absurd h hcount) habsent

/-! ### Sequences of events -/

theorem onEvents_cons (event : Event) (events : List Event) (store : EventStore) :
    onEvents common logger store (event :: events) =
      (settled (onEvent common logger event) store).bind
        fun store => onEvents common logger store events := rfl

theorem onEvents_concat (events : List Event) (event : Event) (store : EventStore) :
    onEvents common logger store (events ++ [event]) =
      (onEvents common logger store events).bind (settled (onEvent common logger event)) := by
  induction events generalizing store with
  | nil => simp [onEvents]
  | cons first events ih =>
      rw [List.cons_append, onEvents_cons, onEvents_cons, Option.bind_assoc]
      congr 1
      funext store'
      exact ih store'

/-- Events are handled without undefined behaviour if their candles are there. -/
theorem onEvents_isSome_iff (hcommon : common.Checks) (events : List Event)
    (store : EventStore) :
    (onEvents common logger store events).isSome ↔
      ∀ event ∈ events, CandlePresent common logger event := by
  induction events generalizing store with
  | nil => simp [onEvents]
  | cons event events ih =>
      have hpresent : (settled (onEvent common logger event) store).isSome ↔
          CandlePresent common logger event := by
        rw [settled_isSome_iff, undefined_onEvent_iff hcommon, not_not]
      rw [onEvents_cons, List.forall_mem_cons, ← hpresent]
      cases hsettled : settled (onEvent common logger event) store with
      | none => simp
      | some store' =>
          rw [Option.bind_some, ih]
          simp

end EventStore

end Defined

end BybitApi
