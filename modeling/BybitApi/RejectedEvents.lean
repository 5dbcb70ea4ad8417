import BybitApi.CandleStore
import BybitApi.Faults

/-!
# Events that are rejected

An event whose payload cannot be decoded is logged and dropped.  A candle, and the
ticker of a new symbol, are decoded into an object of their own, so nothing is left of
a failure; a ticker that is known is decoded in place, field by field, and keeps the
fields read before the exception.  `rejected_event_iff` tells when that makes no
difference.
-/

namespace BybitApi

/-- The loop of `readEventTicker`, with the tries left, on a store that does not change
    meanwhile. -/
def readTickerLoop (timeout : Int) (pair : String) (store : EventStore) :
    Nat → Option EventTicker
  | 0 => none
  | tries + 1 =>
      if timeout = 0 then none
      else
        match store.tickers[pair]? with
        | some ticker => some ticker
        | none => readTickerLoop timeout pair store tries

def readEventTicker (timeout : Int) (pair : String) (store : EventStore) : Option EventTicker :=
  readTickerLoop timeout pair store (maxNumTries timeout + 1).toNat

section Source

variable (common : VkCommon) (logger : Bool)

/-- The reads of `EventTicker::fromJson`, in order, against the ticker stored. -/
def tickerReads (json : Json) (ticker : EventTicker) : List (Except Fault Bool) :=
  [agrees (common.readString json "symbol" ticker.symbol) ticker.symbol,
   agrees (common.readStringAsDouble json "ask1Price" ticker.ask1Price) ticker.ask1Price,
   agrees (common.readStringAsDouble json "ask1Size" ticker.ask1Size) ticker.ask1Size,
   agrees (common.readStringAsDouble json "bid1Price" ticker.bid1Price) ticker.bid1Price,
   agrees (common.readStringAsDouble json "bid1Size" ticker.bid1Size) ticker.bid1Size,
   agrees (common.readStringAsDouble json "lastPrice" ticker.lastPrice) ticker.lastPrice]

/-- The `try` blocks of the callback. -/
def EventStore.storeEvent (event : Event) : Effect EventStore Unit :=
  if containsText event.topic "tickers" then storeTicker common event
  else if containsText event.topic "kline" then storeCandlestick common logger event
  else pure ()

end Source

variable {common : VkCommon} {logger : Bool}

/-! ### What is read -/

theorem readEventTicker_eq {timeout : Int} (htimeout : 0 < timeout) (pair : String)
    (store : EventStore) : readEventTicker timeout pair store = store.tickers[pair]? := by
  have hloop : ∀ tries, readTickerLoop timeout pair store (tries + 1) = store.tickers[pair]? := by
    intro tries
    induction tries with
    | zero =>
        unfold readTickerLoop
        rw [if_neg htimeout.ne']
        cases store.tickers[pair]? <;> rfl
    | succ tries ih =>
        rw [readTickerLoop, if_neg htimeout.ne', ih]
        cases store.tickers[pair]? <;> rfl
  have htries : (maxNumTries timeout + 1).toNat = (maxNumTries timeout).toNat + 1 := by
    unfold maxNumTries
    omega
  rw [readEventTicker, htries, hloop]

/-- The two loops look at one entry. -/
theorem readTickerLoop_congr {store' store : EventStore} {pair : String}
    (h : store'.tickers[pair]? = store.tickers[pair]?) (timeout : Int) (tries : Nat) :
    readTickerLoop timeout pair store' tries = readTickerLoop timeout pair store tries := by
  induction tries with
  | zero => rfl
  | succ tries ih => rw [readTickerLoop, readTickerLoop, h, ih]

theorem readLoop_succ (timeout : Int) (pair : String) (interval : CandleInterval)
    (store : EventStore) (tries : Nat) :
    readLoop timeout pair interval store (tries + 1) =
      if timeout = 0 then none
      else (store.candle pair interval).or (readLoop timeout pair interval store tries) := by
  rw [readLoop, EventStore.candle]
  cases store.candlesticks[pair]? with
  | none => rfl
  | some candles => cases hcandle : candles interval <;> simp [hcandle]

theorem readLoop_congr {store' store : EventStore} {pair : String} {interval : CandleInterval}
    (h : store'.candle pair interval = store.candle pair interval) (timeout : Int) (tries : Nat) :
    readLoop timeout pair interval store' tries = readLoop timeout pair interval store tries := by
  induction tries with
  | zero => rfl
  | succ tries ih => rw [readLoop_succ, readLoop_succ, h, ih]

/-! ### A ticker that is known -/

/-- Each field is assigned once, and the assignments after it leave it alone. -/
theorem fromJson_unchangedIff (json : Json) :
    UnchangedIff (tickerReads common json) (EventTicker.fromJson common json) := by
  unfold EventTicker.fromJson tickerReads
  iterate 5
    refine UnchangedIff.assign_bind ?_ ?keeps (fun _ _ => rfl) (fun _ => rfl)
    case keeps =>
      repeat
        first
          | exact keeps_assign fun _ _ => rfl
          | refine Keeps.bind (keeps_assign fun _ _ => rfl) fun _ => ?_
  exact unchangedIff_assign _ EventTicker.lastPrice

theorem loadEventData_unchangedIff (event : Event) :
    UnchangedIff (tickerReads common event.data) (EventTicker.loadEventData common event) := by
  unfold EventTicker.loadEventData
  cases event.type <;> exact fromJson_unchangedIff event.data

namespace EventStore

/-- The store holds the same tickers and candles under every key. -/
def SameEntries (store' store : EventStore) : Prop :=
  (∀ pair : String, store'.tickers[pair]? = store.tickers[pair]?) ∧
    ∀ pair interval, store'.candle pair interval = store.candle pair interval

/-- Everything that can be read is the same. -/
def ReadsSame (store' store : EventStore) : Prop :=
  (∀ timeout pair, readEventTicker timeout pair store' = readEventTicker timeout pair store) ∧
    ∀ timeout pair interval, readEventCandlestick timeout pair interval store' =
      readEventCandlestick timeout pair interval store

/-- With any timeout the two functions look an entry up, or nothing at all. -/
theorem readsSame_iff {store' store : EventStore} :
    ReadsSame store' store ↔ SameEntries store' store := by
  constructor
  · rintro ⟨htickers, hcandles⟩
    refine ⟨?_, ?_⟩
    · intro pair
      have hread := htickers 1 pair
      rwa [readEventTicker_eq Int.one_pos, readEventTicker_eq Int.one_pos] at hread
    · intro pair interval
      have hread := hcandles 1 pair interval
      rwa [readEventCandlestick_eq Int.one_pos, readEventCandlestick_eq Int.one_pos] at hread
  · rintro ⟨htickers, hcandles⟩
    refine ⟨?_, ?_⟩
    · intro timeout pair
      exact readTickerLoop_congr (htickers pair) timeout _
    · intro timeout pair interval
      exact readLoop_congr (hcandles pair interval) timeout _

/-- A ticker event that throws: the ticker of a known symbol keeps what was read of the
    payload, and everything else is as before. -/
theorem storeTicker_of_fault {event : Event} {store store' : EventStore} {fault : Fault}
    (h : storeTicker common event store = .error fault store') :
    SameEntries store' store ↔
      ∀ ticker ∈ store.tickers[readSymbolFromFilter common event.topic]?,
        SameUntilFault (tickerReads common event.data ticker) := by
  simp only [storeTicker] at h
  split at h
  · rename_i hunknown
    split at h
    · cases h
    · cases h
      rw [hunknown]
      refine iff_of_true ⟨fun _ => rfl, fun _ _ => rfl⟩ ?_
      intro ticker hticker
      cases hticker
  · rename_i ticker hknown
    split at h
    · cases h
    · rename_i fault' ticker' hload
      cases h
      have hiff := loadEventData_unchangedIff event ticker fault ticker' hload
      simp only [hknown, Option.mem_some_iff, forall_eq']
      rw [← hiff]
      constructor
      · rintro ⟨htickers, -⟩
        have hentry := htickers (readSymbolFromFilter common event.topic)
        rw [Std.ExtTreeMap.getElem?_insert_self, hknown] at hentry
        exact Option.some.inj hentry
      · rintro rfl
        refine ⟨?_, fun _ _ => rfl⟩
        intro pair
        rw [Std.ExtTreeMap.getElem?_insert]
        split
        · rename_i hpair
          rw [← compare_eq_iff_eq.mp hpair, hknown]
        · rfl

/-- A candle event that throws leaves the store alone. -/
theorem storeCandlestick_of_fault {event : Event} {store store' : EventStore} {fault : Fault}
    (h : storeCandlestick common logger event store = .error fault store')
    (hexception : fault.IsException) : store' = store := by
  have hcount : after (if event.data.size ≠ 1 then logMessage logger else pure () :
      Effect EventStore Unit) store = store := by
    split
    · exact after_logMessage logger store
    · rfl
  unfold storeCandlestick at h
  rcases error_of_bind h with hlog | ⟨_, store₁, hlog, h⟩
  · exact (after_of_error hlog).symm.trans hcount
  · have hstore₁ : store₁ = store := (after_of_ok hlog).symm.trans hcount
    rcases error_of_ofExcept_bind h with ⟨-, rfl⟩ | ⟨json, -, h⟩
    · exact hstore₁
    · rcases error_of_ofExcept_bind h with ⟨-, rfl⟩ | ⟨candlestick, -, h⟩
      · exact hstore₁
      · -- the candle is known now: only its interval can be wrong, which is no exception
        rcases error_of_bind h with hmodify | ⟨_, store₂, -, h⟩
        · cases hmodify
        · cases hcast : CandleInterval.enumCast? candlestick.interval with
          | some interval =>
              simp only [hcast] at h
              cases h
          | none =>
              simp only [hcast] at h
              cases h
              cases hexception

theorem after_onEvent (event : Event) (store : EventStore) :
    after (onEvent common logger event) store = after (storeEvent common logger event) store := by
  unfold onEvent storeEvent
  split
  · exact after_catchAndLog logger () _ store
  · split
    · exact after_catchAndLog logger () _ store
    · rfl

end EventStore

open EventStore

/-- **Exactly when a rejected event leaves the store as it was.**  An event that throws
    changes nothing that can be read, if and only if it is no ticker event, or of no
    known symbol, or the fields read before the exception have the values stored. -/
theorem rejected_event_iff (common : VkCommon) (logger : Bool) (event : Event)
    (store : EventStore) (fault : Fault)
    (hrejected : Faults (storeEvent common logger event) store fault)
    (hexception : fault.IsException) :
    ReadsSame (after (onEvent common logger event) store) store ↔
      (containsText event.topic "tickers" = true →
        ∀ ticker ∈ store.tickers[readSymbolFromFilter common event.topic]?,
          SameUntilFault (tickerReads common event.data ticker)) := by
  obtain ⟨store', herror⟩ := hrejected
  rw [after_onEvent, after_of_error herror, readsSame_iff]
  unfold storeEvent at herror
  split at herror
  · rename_i htickers
    rw [storeTicker_of_fault herror]
    simp only [htickers, true_implies]
  · rename_i htickers
    refine iff_of_true ?_ (fun h => absurd h htickers)
    split at herror
    · obtain rfl := storeCandlestick_of_fault herror hexception
      exact ⟨fun _ => rfl, fun _ _ => rfl⟩
    · cases herror

/-! ### A price that is no number -/

/-- The parser of `stod` on the texts used here. -/
def oneNumber : Json → Option Double
  | .string "2" => some 2
  | _ => none

def knownTicker : EventTicker :=
  { symbol := "BTCUSDT", ask1Price := 1, ask1Size := 1, bid1Price := 1, bid1Size := 1,
    lastPrice := 1 }

def knownStore : EventStore :=
  { tickers := (∅ : Std.ExtTreeMap String EventTicker).insert "BTCUSDT" knownTicker
    candlesticks := ∅ }

/-- An event on the known ticker. -/
def tickerDelta (members : List (String × Json)) : Event :=
  { topic := tickerTopic "BTCUSDT", type := .delta, ts := 0, data := .object members }

theorem knownStore_lookup (members : List (String × Json)) :
    knownStore.tickers[readSymbolFromFilter (.documented oneNumber)
      (tickerDelta members).topic]? = some knownTicker := by
  have hkey : readSymbolFromFilter (.documented oneNumber) (tickerTopic "BTCUSDT") = "BTCUSDT" :=
    readSymbolFromFilter_tickerTopic (VkCommon.documented_splits oneNumber)
      ⟨by decide, by simp⟩
  simp only [tickerDelta, hkey, knownStore, Std.ExtTreeMap.getElem?_insert_self]

theorem storeTicker_known {members : List (String × Json)} {fault : Fault} {ticker : EventTicker}
    (h : EventTicker.loadEventData (.documented oneNumber) (tickerDelta members) knownTicker =
      .error fault ticker) :
    ∃ store', storeTicker (.documented oneNumber) (tickerDelta members) knownStore =
      .error fault store' := by
  simp only [storeTicker, knownStore_lookup, h]
  exact ⟨_, rfl⟩

theorem storeEvent_tickerDelta (common : VkCommon) (logger : Bool)
    (members : List (String × Json)) :
    storeEvent common logger (tickerDelta members) = storeTicker common (tickerDelta members) := by
  unfold storeEvent
  exact if_pos (containsText_tickerTopic "BTCUSDT")

/-- The symbol is as stored, and the price after it cannot be read. -/
theorem rejected_event_iff_sameSymbol :
    ReadsSame (after (onEvent (.documented oneNumber) true (tickerDelta
      [("symbol", .string "BTCUSDT"), ("ask1Price", .string "x")])) knownStore) knownStore := by
  have hrejected : Faults (storeEvent (.documented oneNumber) true (tickerDelta
      [("symbol", .string "BTCUSDT"), ("ask1Price", .string "x")])) knownStore
      (.other "stod") := by
    rw [storeEvent_tickerDelta]
    exact storeTicker_known rfl
  apply (rejected_event_iff (.documented oneNumber) true _ knownStore _ hrejected trivial).mpr
  intro _ ticker hticker
  rw [knownStore_lookup, Option.mem_some_iff] at hticker
  subst hticker
  decide

/-- **Half an event is kept.**  The ask price of a known ticker is overwritten before the
    bid price throws. -/
theorem half_event_kept :
    ¬ ∀ (common : VkCommon) (logger : Bool) (event : Event) (store : EventStore) (fault : Fault),
      Faults (storeEvent common logger event) store fault → fault.IsException →
        ReadsSame (after (onEvent common logger event) store) store := by
  intro h
  have hload : EventTicker.loadEventData (.documented oneNumber)
      (tickerDelta [("ask1Price", .string "2"), ("bid1Price", .string "x")]) knownTicker =
        .error (.other "stod") { knownTicker with ask1Price := 2 } := rfl
  obtain ⟨store', hstore⟩ := storeTicker_known hload
  have hrejected := hstore
  rw [← storeEvent_tickerDelta (.documented oneNumber) true] at hrejected
  have hsame := h _ true _ knownStore _ ⟨store', hrejected⟩ trivial
  rw [after_onEvent, after_of_error hrejected, readsSame_iff, storeTicker_of_fault hstore] at hsame
  exact absurd (hsame knownTicker (knownStore_lookup _)) (by decide)

end BybitApi
