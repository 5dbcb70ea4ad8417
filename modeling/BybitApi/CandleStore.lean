import BybitApi.TickerMerge

/-!
# The candle store is a last-write map

A candle is stored under the last segment of its topic and under the interval that
its payload names, and read under a pair and an interval.  On the streams of
`subscribeCandlestickStream` the two agree, so the store holds the last candle of
every pair and interval (`candles_eq_last`).
-/

namespace BybitApi

/-- The tries that `readEventCandlestick` makes at most, less one: `timeout / 0.01`, cast to
    `int`. -/
def maxNumTries (timeout : Int) : Int := timeout * 100

/-- The longest timeout whose tries an `int` can count; for a longer one the cast is
    undefined. -/
def maxTimeout : Int := (2 ^ 31 - 1) / 100

/-- The loop of `readEventCandlestick`, with the tries left, on a store that does not
    change meanwhile. -/
def readLoop (timeout : Int) (pair : String) (interval : CandleInterval) (store : EventStore) :
    Nat → Option EventCandlestick
  | 0 => none
  | tries + 1 =>
      if timeout = 0 then none
      else
        match store.candlesticks[pair]? with
        | some candles =>
            match candles interval with
            | some candlestick => some candlestick
            | none => readLoop timeout pair interval store tries
        | none => readLoop timeout pair interval store tries

def readEventCandlestick (timeout : Int) (pair : String) (interval : CandleInterval)
    (store : EventStore) : Option EventCandlestick :=
  readLoop timeout pair interval store (maxNumTries timeout + 1).toNat

section Reference

/-- The integer that a payload carries under a key. -/
def integerAt (json : Json) (key : String) : Option Int :=
  match json.find? key with
  | some (.integer value) => if IsInt64 value then some value else none
  | _ => none

def stringAt (json : Json) (key : String) : Option String :=
  match json.find? key with
  | some (.string value) => some value
  | _ => none

def boolAt (json : Json) (key : String) : Option Bool :=
  match json.find? key with
  | some (.bool value) => some value
  | _ => none

variable (number : Json → Option Double)

/-- The candle in a payload. -/
def candleOf (json : Json) : Option EventCandlestick := do
  let start ← integerAt json "start"
  let end_ ← integerAt json "end"
  let interval ← stringAt json "interval"
  let open_ ← carried number json "open"
  let high ← carried number json "high"
  let low ← carried number json "low"
  let close ← carried number json "close"
  let volume ← carried number json "volume"
  let turnover ← carried number json "turnover"
  let confirm ← boolAt json "confirm"
  let timestamp ← integerAt json "timestamp"
  return { start, end_, interval, open_, high, low, close, volume, turnover, confirm, timestamp }

/-- The candle of an event that carries exactly one. -/
def eventCandle (event : Event) : Option EventCandlestick :=
  match event.data with
  | .array [json] => candleOf number json
  | _ => none

structure IsKlineEvent (pair : String) (interval : CandleInterval) (event : Event) : Prop where
  topic : event.topic = klineTopic pair interval
  wellFormed : ∃ candle, eventCandle number event = some candle ∧
    candle.interval = interval.enumName

/-- Kline events are those of a subscribed stream; events on tickers and on other
    topics may carry anything. -/
def IsCandleStreamEvent (event : Event) : Prop :=
  (∃ pair, PairName pair ∧ ∃ interval, IsKlineEvent number pair interval event) ∨
    containsText event.topic "tickers" ∨ ¬ containsText event.topic "kline"

/-- What the store should hold for a pair and an interval: the candle of the last
    event on their topic. -/
def lastCandle (pair : String) (interval : CandleInterval) (events : List Event) :
    Option EventCandlestick :=
  ((events.filter fun event => event.topic == klineTopic pair interval).getLast?).bind
    (eventCandle number)

end Reference

/-! ### Topics -/

variable {common : VkCommon} {number : Json → Option Double} {pair : String}
  {interval : CandleInterval} {event : Event}

theorem klineTopic_contains (pair : String) (interval : CandleInterval) :
    containsText (klineTopic pair interval) "kline" = true := by
  rw [containsText_iff]
  refine List.IsPrefix.isInfix ⟨'.' :: (interval.enumName ++ "." ++ pair).toList, ?_⟩
  simp [klineTopic]

theorem enumName_segment (interval : CandleInterval) :
    interval.enumName ≠ "" ∧ '.' ∉ interval.enumName.toList := by
  cases interval <;> decide

theorem readSymbolFromFilter_klineTopic (hsplits : common.Splits) (hpair : PairName pair)
    (interval : CandleInterval) :
    readSymbolFromFilter common (klineTopic pair interval) = pair := by
  have hsegments := hsplits '.' ["kline", interval.enumName, pair] (by simp) (by
    simp only [List.mem_cons, List.not_mem_nil, or_false, forall_eq_or_imp, forall_eq]
    exact ⟨by decide, enumName_segment interval, hpair.1, hpair.not_mem (by decide)⟩)
  have htopic : klineTopic pair interval =
      String.intercalate (Char.toString '.') ["kline", interval.enumName, pair] := by
    simp [klineTopic, String.intercalate_cons_cons, String.append_assoc]
  rw [readSymbolFromFilter, htopic, hsegments]
  rfl

theorem klineTopic_injective {pair' : String} {interval' : CandleInterval} (hpair : PairName pair)
    (hpair' : PairName pair') (h : klineTopic pair interval = klineTopic pair' interval') :
    pair = pair' ∧ interval = interval' := by
  have hsplits := VkCommon.documented_splits fun _ => none
  have hpairs : pair = pair' := by
    rw [← readSymbolFromFilter_klineTopic hsplits hpair interval, h,
      readSymbolFromFilter_klineTopic hsplits hpair' interval']
  refine ⟨hpairs, ?_⟩
  subst hpairs
  have hlist := congrArg String.toList h
  simp only [klineTopic, String.toList_append, List.append_cancel_left_eq,
    List.append_cancel_right_eq] at hlist
  have hnames := String.toList_injective hlist
  have hcast := CandleInterval.enumCast?_enumName interval
  rw [hnames, CandleInterval.enumCast?_enumName] at hcast
  exact (Option.some.inj hcast).symm

/-! ### One candle -/

theorem integerAt_eq_some {json : Json} {key : String} {value : Int} :
    integerAt json key = some value ↔ json.find? key = some (.integer value) ∧ IsInt64 value := by
  unfold integerAt
  split
  · next found hfind =>
      rw [hfind, Option.ite_none_right_eq_some, Option.some.injEq, Option.some.injEq,
        Json.integer.injEq]
      constructor
      · rintro ⟨hint, rfl⟩
        exact ⟨rfl, hint⟩
      · rintro ⟨rfl, hint⟩
        exact ⟨hint, rfl⟩
  · next hnone =>
      refine iff_of_false (by simp) ?_
      rintro ⟨hfind, -⟩
      exact hnone value hfind

theorem stringAt_eq_some {json : Json} {key value : String} :
    stringAt json key = some value ↔ json.find? key = some (.string value) := by
  unfold stringAt
  split <;> simp_all

theorem boolAt_eq_some {json : Json} {key : String} {value : Bool} :
    boolAt json key = some value ↔ json.find? key = some (.bool value) := by
  unfold boolAt
  split
  · simp_all
  · cases value <;> simp_all

/-- The readers do what is documented of them, for all fields of a candle. -/
structure VkCommon.ReadsCandles (common : VkCommon) (number : Json → Option Double) : Prop where
  strings : common.ReadsStrings
  integers : common.ReadsIntegers
  bools : common.ReadsBools
  numbers : common.ReadsNumbers number

theorem VkCommon.documented_readsCandles (number : Json → Option Double) :
    (VkCommon.documented number).ReadsCandles number where
  strings := documented_readsStrings number
  integers := documented_readsIntegers number
  bools := documented_readsBools number
  numbers := documented_readsNumbers number

theorem EventCandlestick.fromJson_eq (hreads : common.ReadsCandles number) {json : Json}
    {candle : EventCandlestick} (h : candleOf number json = some candle)
    (before : EventCandlestick) :
    EventCandlestick.fromJson common json before = .ok () candle := by
  have hnumber : ∀ {key : String} {value : Double} (default : Double),
      carried number json key = some value →
        common.readStringAsDouble json key default = .ok value := by
    intro key value default hcarried
    obtain ⟨text, htext, hvalue⟩ := Option.bind_eq_some_iff.mp hcarried
    exact hreads.numbers.present default htext hvalue
  obtain ⟨start, hstart, h⟩ := Option.bind_eq_some_iff.mp h
  obtain ⟨end_, hend, h⟩ := Option.bind_eq_some_iff.mp h
  obtain ⟨interval, hinterval, h⟩ := Option.bind_eq_some_iff.mp h
  obtain ⟨open_, hopen, h⟩ := Option.bind_eq_some_iff.mp h
  obtain ⟨high, hhigh, h⟩ := Option.bind_eq_some_iff.mp h
  obtain ⟨low, hlow, h⟩ := Option.bind_eq_some_iff.mp h
  obtain ⟨close, hclose, h⟩ := Option.bind_eq_some_iff.mp h
  obtain ⟨volume, hvolume, h⟩ := Option.bind_eq_some_iff.mp h
  obtain ⟨turnover, hturnover, h⟩ := Option.bind_eq_some_iff.mp h
  obtain ⟨confirm, hconfirm, h⟩ := Option.bind_eq_some_iff.mp h
  obtain ⟨timestamp, htimestamp, h⟩ := Option.bind_eq_some_iff.mp h
  obtain rfl := Option.some.inj h
  rw [integerAt_eq_some] at hstart hend htimestamp
  rw [stringAt_eq_some] at hinterval
  rw [boolAt_eq_some] at hconfirm
  simp [EventCandlestick.fromJson, assign, bind, EStateM.bind, Except.bind, pure, Except.pure,
    hreads.integers _ hstart.1 hstart.2, hreads.integers _ hend.1 hend.2,
    hreads.strings.present _ hinterval, hnumber _ hopen, hnumber _ hhigh, hnumber _ hlow,
    hnumber _ hclose, hnumber _ hvolume, hnumber _ hturnover, hreads.bools _ hconfirm,
    hreads.integers _ htimestamp.1 htimestamp.2]

/-! ### One event of the stream -/

namespace EventStore

/-- What the store holds for a pair and an interval. -/
def candle (pair : String) (interval : CandleInterval) (store : EventStore) :
    Option EventCandlestick :=
  (store.candlesticks[pair]?).bind fun candles => candles interval

theorem readLoop_eq {timeout : Int} (htimeout : timeout ≠ 0) (store : EventStore) (tries : Nat) :
    readLoop timeout pair interval store (tries + 1) = store.candle pair interval := by
  induction tries with
  | zero =>
      unfold readLoop candle
      rw [if_neg htimeout]
      cases store.candlesticks[pair]? with
      | none => rfl
      | some candles => cases hcandle : candles interval <;> simp [readLoop, hcandle]
  | succ tries ih =>
      rw [readLoop, if_neg htimeout, ih]
      unfold candle
      cases store.candlesticks[pair]? with
      | none => rfl
      | some candles => cases hcandle : candles interval <;> simp [hcandle]

theorem readEventCandlestick_eq {timeout : Int} (htimeout : 0 < timeout) (store : EventStore) :
    readEventCandlestick timeout pair interval store = store.candle pair interval := by
  have htries : (maxNumTries timeout + 1).toNat = (maxNumTries timeout).toNat + 1 := by
    unfold maxNumTries
    omega
  rw [readEventCandlestick, htries, readLoop_eq htimeout.ne']

theorem candle_insertCandlestick (store : EventStore) (pair' : String)
    (interval' : CandleInterval) (candlestick : EventCandlestick) :
    (insertCandlestick pair' interval' candlestick
        { store with
          candlesticks := store.candlesticks.insertIfNew pair' fun _ => none }).candle pair
      interval =
      if pair = pair' ∧ interval = interval' then some candlestick
      else store.candle pair interval := by
  simp only [candle, insertCandlestick, Std.ExtTreeMap.getElem?_insert, compare_eq_iff_eq,
    Std.ExtTreeMap.getElem?_insertIfNew]
  by_cases hpair : pair' = pair
  · subst hpair
    simp only [if_true, true_and, Option.bind_some, Function.update_apply]
    split
    · rfl
    · by_cases hmem : pair' ∈ store.candlesticks
      · rw [if_neg (not_not_intro hmem)]
        obtain ⟨candles, hcandles⟩ := Std.ExtTreeMap.mem_iff_isSome_getElem?.mp hmem
          |> Option.isSome_iff_exists.mp
        simp [hcandles]
      · rw [if_pos hmem, Std.ExtTreeMap.getElem?_eq_none hmem]
        rfl
  · simp [hpair, Ne.symm hpair]

/-- **What a kline event does.**  It sets a candle by the first one of its data; any
    other count than one is logged before, which throws without a logger. -/
theorem storeCandlestick_of_first (hreads : common.ReadsCandles number) (logger : Bool)
    {json : Json} {rows : List Json} {candlestick : EventCandlestick}
    (hdata : event.data = .array (json :: rows)) (hcandle : candleOf number json = some candlestick)
    (hinterval : CandleInterval.enumCast? candlestick.interval = some interval)
    (store : EventStore) :
    storeCandlestick common logger event store =
      if rows = [] ∨ logger = true then
        .ok () (insertCandlestick (readSymbolFromFilter common event.topic) interval candlestick
          { store with
            candlesticks := store.candlesticks.insertIfNew
              (readSymbolFromFilter common event.topic) fun _ => none })
      else .error .badFunctionCall store := by
  have hjson := EventCandlestick.fromJson_eq hreads hcandle .empty
  have hbuilt : built (EventCandlestick.fromJson common json) .empty = .ok candlestick := by
    simp [built, hjson]
  by_cases hrows : rows = []
  · simp [storeCandlestick, hdata, hrows, Json.size, Json.indexAt, hbuilt, hinterval, ofExcept,
      bind, EStateM.bind, pure, EStateM.pure, modify, modifyGet, MonadStateOf.modifyGet,
      EStateM.modifyGet]
  · cases logger with
    | false =>
        simp [storeCandlestick, hdata, hrows, Json.size, logMessage, bind, EStateM.bind, throw,
          throwThe, MonadExceptOf.throw, EStateM.throw]
    | true =>
        simp [storeCandlestick, hdata, hrows, Json.size, Json.indexAt, logMessage, hbuilt,
          hinterval, ofExcept, bind, EStateM.bind, pure, EStateM.pure, modify, modifyGet,
          MonadStateOf.modifyGet, EStateM.modifyGet]

/-- An event with one candle sets the candle of its pair and interval. -/
theorem storeCandlestick_eq (hreads : common.ReadsCandles number) (hsplits : common.Splits)
    (logger : Bool) (hpair : PairName pair) (hevent : IsKlineEvent number pair interval event)
    (store : EventStore) :
    ∃ candlestick, eventCandle number event = some candlestick ∧
      storeCandlestick common logger event store =
        .ok () (insertCandlestick pair interval candlestick
          { store with
            candlesticks := store.candlesticks.insertIfNew pair fun _ => none }) := by
  obtain ⟨candlestick, hcandle, hinterval⟩ := hevent.wellFormed
  refine ⟨candlestick, hcandle, ?_⟩
  have hkey : readSymbolFromFilter common event.topic = pair := by
    rw [hevent.topic, readSymbolFromFilter_klineTopic hsplits hpair interval]
  unfold eventCandle at hcandle
  split at hcandle
  · next json hdata =>
      have hcast : CandleInterval.enumCast? candlestick.interval = some interval := by
        rw [hinterval, CandleInterval.enumCast?_enumName]
      rw [storeCandlestick_of_first hreads logger hdata hcandle hcast, hkey, if_pos (.inl rfl)]
  · cases hcandle

/-- **What an event does to a candle.**  Only an event on the topic of the pair and
    the interval changes it. -/
theorem candle_onEvent (hreads : common.ReadsCandles number) (hsplits : common.Splits)
    (logger : Bool) (hpair : PairName pair) (hevent : IsCandleStreamEvent number event)
    (store : EventStore) :
    (after (onEvent common logger event) store).candle pair interval =
      if event.topic = klineTopic pair interval then eventCandle number event
      else store.candle pair interval := by
  by_cases htickers : containsText event.topic "tickers"
  · have hne : event.topic ≠ klineTopic pair interval := by
      intro h
      rw [h, containsText_klineTopic hpair interval] at htickers
      cases htickers
    rw [onEvent, if_pos htickers, after_catchAndLog, if_neg hne]
    rw [candle, storeTicker_keeps common event store, ← candle]
  · by_cases hkline : containsText event.topic "kline"
    · rcases hevent with ⟨pair', hpair', interval', hevent⟩ | h | h
      · obtain ⟨candlestick, hcandle, hstore⟩ :=
          storeCandlestick_eq hreads hsplits logger hpair' hevent store
        rw [onEvent, if_neg htickers, if_pos hkline, after_catchAndLog, after_of_ok hstore,
          candle_insertCandlestick, hevent.topic, hcandle]
        by_cases hsame : pair = pair' ∧ interval = interval'
        · obtain ⟨rfl, rfl⟩ := hsame
          simp
        · have hne : klineTopic pair' interval' ≠ klineTopic pair interval := fun h =>
            hsame (klineTopic_injective hpair hpair' h.symm)
          rw [if_neg hsame, if_neg hne]
      · exact absurd h htickers
      · exact absurd hkline h
    · have hne : event.topic ≠ klineTopic pair interval := by
        intro h
        rw [h, klineTopic_contains] at hkline
        exact hkline rfl
      rw [onEvent, if_neg htickers, if_neg hkline, if_neg hne]
      rfl

/-- Every event on the topic carries a candle. -/
theorem eventCandle_isSome (hpair : PairName pair) (hevent : IsCandleStreamEvent number event)
    (htopic : event.topic = klineTopic pair interval) : (eventCandle number event).isSome := by
  rcases hevent with ⟨pair', -, interval', hevent⟩ | htickers | hkline
  · obtain ⟨candle, hcandle, -⟩ := hevent.wellFormed
    simp [hcandle]
  · rw [htopic, containsText_klineTopic hpair interval] at htickers
    cases htickers
  · rw [htopic, klineTopic_contains] at hkline
    exact absurd rfl hkline

/-! ### Any sequence of events -/

theorem lastCandle_isSome (hpair : PairName pair) {events : List Event}
    (hevents : ∀ event ∈ events, IsCandleStreamEvent number event) :
    (lastCandle number pair interval events).isSome ↔
      ∃ event ∈ events, event.topic = klineTopic pair interval := by
  unfold lastCandle
  cases hlast : (events.filter fun event => event.topic == klineTopic pair interval).getLast? with
  | none =>
      rw [List.getLast?_eq_none_iff, List.filter_eq_nil_iff] at hlast
      simpa using hlast
  | some event =>
      obtain ⟨hmem, htopic⟩ := List.mem_filter.mp (List.mem_of_getLast? hlast)
      have htopic : event.topic = klineTopic pair interval := by simpa using htopic
      refine iff_of_true ?_ ⟨event, hmem, htopic⟩
      exact eventCandle_isSome hpair (hevents event hmem) htopic

/-- A candle of a subscribed stream names a known interval. -/
theorem candlePresent_of_stream (hreads : common.ReadsCandles number) (logger : Bool)
    (hevent : IsCandleStreamEvent number event) : CandlePresent common logger event := by
  intro htickers hkline _
  rcases hevent with ⟨pair, -, interval, hevent⟩ | h | h
  · obtain ⟨candle, hcandle, hinterval⟩ := hevent.wellFormed
    unfold eventCandle at hcandle
    split at hcandle
    · next json hdata =>
        rw [hdata]
        refine ⟨by simp, ?_⟩
        intro first candlestick hfirst hbuilt
        obtain rfl : json = first := Except.ok.inj hfirst
        rw [built, EventCandlestick.fromJson_eq hreads hcandle .empty] at hbuilt
        obtain rfl := Except.ok.inj hbuilt
        rw [hinterval, CandleInterval.enumCast?_enumName]
        simp
    · cases hcandle
  · rw [htickers] at h
    cases h
  · exact absurd hkline h

theorem candle_onEvents (hreads : common.ReadsCandles number) (hsplits : common.Splits)
    (logger : Bool) (hpair : PairName pair) {events : List Event}
    (hevents : ∀ event ∈ events, IsCandleStreamEvent number event) {store : EventStore}
    (hstore : onEvents common logger .initial events = some store) :
    store.candle pair interval = lastCandle number pair interval events := by
  induction events using List.reverseRecOn generalizing store with
  | nil =>
      obtain rfl := Option.some.inj hstore
      simp [candle, EventStore.initial, lastCandle]
  | append_singleton events event ih =>
      rw [onEvents_concat] at hstore
      obtain ⟨before, hbefore, hsettled⟩ := Option.bind_eq_some_iff.mp hstore
      have hcandle : (after (onEvent common logger event) before).candle pair interval = _ :=
        candle_onEvent hreads hsplits logger hpair (hevents event (by simp)) before
      rw [after_of_settled hsettled,
        ih (fun e he => hevents e (List.mem_append_left _ he)) hbefore] at hcandle
      rw [hcandle]
      unfold lastCandle
      by_cases htopic : event.topic = klineTopic pair interval
      · simp [htopic]
      · simp [htopic]

/-- **The candle store is a last-write map.**  The events are handled without undefined
    behaviour.  Then a candle is found for a pair and an interval exactly when an event on
    their topic occurred, and is that of the last one; an event on any other topic changes
    nothing in it. -/
theorem candles_eq_last (hreads : common.ReadsCandles number) (hsplits : common.Splits)
    (logger : Bool) {timeout : Int} (htimeout : 0 < timeout ∧ timeout ≤ maxTimeout)
    {pair : String} (hpair : PairName pair) (interval : CandleInterval) {events : List Event}
    (hevents : ∀ event ∈ events, IsCandleStreamEvent number event) :
    (common.Checks → (onEvents common logger .initial events).isSome) ∧
      ∀ store, onEvents common logger .initial events = some store →
        let found := readEventCandlestick timeout pair interval store
        (found.isSome ↔ ∃ event ∈ events, event.topic = klineTopic pair interval) ∧
          found = lastCandle number pair interval events ∧
          ∀ event, IsCandleStreamEvent number event → event.topic ≠ klineTopic pair interval →
            ∀ next, settled (onEvent common logger event) store = some next →
              readEventCandlestick timeout pair interval next = found := by
  constructor
  · intro hcommon
    rw [onEvents_isSome_iff hcommon]
    intro event hevent
    exact candlePresent_of_stream hreads logger (hevents event hevent)
  · intro store hstore
    have hfound : readEventCandlestick timeout pair interval store =
        lastCandle number pair interval events := by
      rw [readEventCandlestick_eq htimeout.1, candle_onEvents hreads hsplits logger hpair hevents
        hstore]
    refine ⟨?_, hfound, ?_⟩
    · rw [hfound, lastCandle_isSome hpair hevents]
    · intro event hevent htopic next hnext
      have hcandle : (after (onEvent common logger event) store).candle pair interval = _ :=
        candle_onEvent hreads hsplits logger hpair hevent store
      rw [after_of_settled hnext, if_neg htopic] at hcandle
      rw [readEventCandlestick_eq htimeout.1, readEventCandlestick_eq htimeout.1, hcandle]

def twoIntervals : List Event :=
  let candle (interval close : String) : Json :=
    .array [.object [("close", .string close), ("confirm", .bool false), ("end", .integer 59999),
      ("high", .string "9"), ("interval", .string interval), ("low", .string "1"),
      ("open", .string "5"), ("start", .integer 0), ("timestamp", .integer 7),
      ("turnover", .string "20"), ("volume", .string "4")]]
  [{ topic := "kline.1.BTCUSDT", type := .snapshot, ts := 1, data := candle "1" "6" },
   { topic := "kline.D.BTCUSDT", type := .snapshot, ts := 2, data := candle "D" "7" },
   { topic := "kline.1.BTCUSDT", type := .snapshot, ts := 3, data := candle "1" "8" },
   { topic := "tickers.BTCUSDT", type := .delta, ts := 4, data := .null }]

theorem candles_eq_last_twoIntervals :
    ∃ store, onEvents (.documented wholeNumber) true .initial twoIntervals = some store ∧
      (readEventCandlestick 5 "BTCUSDT" ._1 store).map (fun candle => candle.close) = some 8 := by
  have hbtc : PairName "BTCUSDT" := ⟨by decide, by simp⟩
  have hevents : ∀ event ∈ twoIntervals, IsCandleStreamEvent wholeNumber event := by
    simp only [twoIntervals, List.forall_mem_cons]
    refine ⟨Or.inl ⟨_, hbtc, ._1, rfl, _, rfl, rfl⟩, Or.inl ⟨_, hbtc, ._D, rfl, _, rfl, rfl⟩,
      Or.inl ⟨_, hbtc, ._1, rfl, _, rfl, rfl⟩, Or.inr (Or.inl (by decide)), by simp⟩
  have hlast := candles_eq_last (VkCommon.documented_readsCandles _)
    (VkCommon.documented_splits _) true (by decide : (0 : Int) < 5 ∧ 5 ≤ maxTimeout) hbtc ._1
    hevents
  obtain ⟨store, hstore⟩ := Option.isSome_iff_exists.mp
    (hlast.1 (VkCommon.documented_checks wholeNumber))
  refine ⟨store, hstore, ?_⟩
  rw [(hlast.2 store hstore).2.1]
  decide +kernel

end EventStore

end BybitApi
