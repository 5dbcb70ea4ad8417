import BybitApi.EventStore

/-!
# The ticker store is a merge per symbol

The reference for a symbol looks at that symbol's ticker events alone: a snapshot
replaces the ticker, a delta overwrites the fields it carries.  The store looks
tickers up by topic, inserts them by payload and reads every field with its old
value for a default; `tickers_eq_reference` says that it holds the reference
merge for every symbol, whatever the interleaving.
-/

namespace BybitApi

/-- Upper-case letters, digits and dashes, at least one of them. -/
def PairName (pair : String) : Prop :=
  pair ≠ "" ∧ ∀ c ∈ pair.toList, c.isUpper ∨ c.isDigit ∨ c = '-'

/-- The numeric fields of a ticker in its payload. -/
def tickerFields : List String := ["ask1Price", "ask1Size", "bid1Price", "bid1Size", "lastPrice"]

section Reference

variable (number : Json → Option Double)

/-- The number that a payload carries under a key. -/
def carried (json : Json) (key : String) : Option Double := (json.find? key).bind number

structure IsTickerEvent (pair : String) (event : Event) : Prop where
  topic : event.topic = tickerTopic pair
  symbol : event.data.find? "symbol" = some (.string pair)
  wellFormed : ∀ key ∈ tickerFields, ∀ text ∈ event.data.find? key, (number text).isSome
  complete : event.type = .snapshot → ∀ key ∈ tickerFields, event.data.contains key

/-- The events that the exchange sends on the subscribed streams. -/
def IsStreamEvent (event : Event) : Prop :=
  ∃ pair, PairName pair ∧
    (IsTickerEvent number pair event ∨ ∃ interval, event.topic = klineTopic pair interval)

/-- The ticker before any event. -/
def zeroTicker (pair : String) : EventTicker := { EventTicker.empty with symbol := pair }

def mergeTicker (ticker : EventTicker) (event : Event) : EventTicker :=
  let value := carried number event.data
  match event.type with
  | .snapshot =>
      { symbol := ticker.symbol
        ask1Price := (value "ask1Price").getD 0
        ask1Size := (value "ask1Size").getD 0
        bid1Price := (value "bid1Price").getD 0
        bid1Size := (value "bid1Size").getD 0
        lastPrice := (value "lastPrice").getD 0 }
  | .delta =>
      { symbol := ticker.symbol
        ask1Price := (value "ask1Price").getD ticker.ask1Price
        ask1Size := (value "ask1Size").getD ticker.ask1Size
        bid1Price := (value "bid1Price").getD ticker.bid1Price
        bid1Size := (value "bid1Size").getD ticker.bid1Size
        lastPrice := (value "lastPrice").getD ticker.lastPrice }

/-- What the store should hold for a pair: nothing before its first ticker event,
    and the merge of its own ticker events after that. -/
def referenceTicker (pair : String) (events : List Event) : Option EventTicker :=
  match events.filter fun event => event.topic == tickerTopic pair with
  | [] => none
  | own => some (own.foldl (mergeTicker number) (zeroTicker pair))

end Reference

/-! ### Topics -/

theorem PairName.not_mem {pair : String} (h : PairName pair) {c : Char}
    (hc : c.isUpper = false ∧ c.isDigit = false ∧ c ≠ '-') : c ∉ pair.toList := by
  intro hmem
  rcases h.2 c hmem with hupper | hdigit | hdash
  · simp [hc.1] at hupper
  · simp [hc.2.1] at hdigit
  · exact hc.2.2 hdash

theorem tickerTopic_injective {pair pair' : String} (h : tickerTopic pair = tickerTopic pair') :
    pair = pair' := by
  have hlist := congrArg String.toList h
  simp only [tickerTopic, String.toList_append] at hlist
  exact String.toList_injective (List.append_cancel_left hlist)

theorem containsText_iff {text pattern : String} :
    containsText text pattern = true ↔ pattern.toList <:+: text.toList :=
  List.isInfixOf_internal_iff_isInfix

theorem containsText_tickerTopic (pair : String) :
    containsText (tickerTopic pair) "tickers" = true := by
  rw [containsText_iff, tickerTopic, String.toList_append]
  exact List.IsPrefix.isInfix ⟨'.' :: pair.toList, by simp⟩

theorem containsText_klineTopic {pair : String} (hpair : PairName pair)
    (interval : CandleInterval) : containsText (klineTopic pair interval) "tickers" = false := by
  rw [Bool.eq_false_iff, Ne, containsText_iff]
  intro hinfix
  have hmem : 't' ∈ (klineTopic pair interval).toList := hinfix.subset (by decide)
  simp only [klineTopic, String.toList_append, List.mem_append] at hmem
  rcases hmem with ((hkline | hname) | hdot) | hmem
  · revert hkline
    decide
  · revert hname
    cases interval <;> decide
  · revert hdot
    decide
  · exact hpair.not_mem (by decide) hmem

theorem readSymbolFromFilter_tickerTopic {common : VkCommon} (hsplits : common.Splits)
    {pair : String} (hpair : PairName pair) :
    readSymbolFromFilter common (tickerTopic pair) = pair := by
  have hsegments := hsplits '.' ["tickers", pair] (by simp) (by
    simp only [List.mem_cons, List.not_mem_nil, or_false, forall_eq_or_imp, forall_eq]
    exact ⟨by decide, hpair.1, hpair.not_mem (by decide)⟩)
  have htopic : tickerTopic pair = String.intercalate (Char.toString '.') ["tickers", pair] := by
    simp [tickerTopic, String.intercalate_cons_cons]
  rw [readSymbolFromFilter, htopic, hsegments]
  rfl

/-! ### One ticker event -/

variable {common : VkCommon} {number : Json → Option Double} {pair : String} {event : Event}

/-- A numeric field is read as the number carried, or keeps its value. -/
theorem IsTickerEvent.readStringAsDouble (hevent : IsTickerEvent number pair event)
    (hnumbers : common.ReadsNumbers number) {key : String} (hkey : key ∈ tickerFields)
    (default : Double) :
    common.readStringAsDouble event.data key default =
      .ok ((carried number event.data key).getD default) := by
  cases htext : event.data.find? key with
  | none => simp [hnumbers.absent default htext, carried, htext]
  | some text =>
      obtain ⟨value, hvalue⟩ := Option.isSome_iff_exists.mp (hevent.wellFormed key hkey text htext)
      simp [hnumbers.present default htext hvalue, carried, htext, hvalue]

theorem IsTickerEvent.carried_isSome (hevent : IsTickerEvent number pair event)
    (hsnapshot : event.type = .snapshot) {key : String} (hkey : key ∈ tickerFields) :
    ∃ value, carried number event.data key = some value := by
  obtain ⟨text, htext⟩ := Option.isSome_iff_exists.mp (hevent.complete hsnapshot key hkey)
  obtain ⟨value, hvalue⟩ := Option.isSome_iff_exists.mp (hevent.wellFormed key hkey text htext)
  exact ⟨value, by simp [carried, htext, hvalue]⟩

/-- The fields that `fromJson` leaves in a ticker. -/
def loadedTicker (number : Json → Option Double) (pair : String) (json : Json)
    (ticker : EventTicker) : EventTicker :=
  let value := carried number json
  { symbol := pair
    ask1Price := (value "ask1Price").getD ticker.ask1Price
    ask1Size := (value "ask1Size").getD ticker.ask1Size
    bid1Price := (value "bid1Price").getD ticker.bid1Price
    bid1Size := (value "bid1Size").getD ticker.bid1Size
    lastPrice := (value "lastPrice").getD ticker.lastPrice }

theorem IsTickerEvent.fromJson (hevent : IsTickerEvent number pair event)
    (hstrings : common.ReadsStrings) (hnumbers : common.ReadsNumbers number)
    (ticker : EventTicker) :
    EventTicker.fromJson common event.data ticker =
      .ok () (loadedTicker number pair event.data ticker) := by
  have hsymbol : ∀ current, common.readString event.data "symbol" current = .ok pair :=
    fun current => hstrings.present current hevent.symbol
  have hnumber : ∀ key ∈ tickerFields, ∀ default,
      common.readStringAsDouble event.data key default =
        .ok ((carried number event.data key).getD default) :=
    fun key hkey default => hevent.readStringAsDouble hnumbers hkey default
  simp only [tickerFields, List.forall_mem_cons] at hnumber
  simp [EventTicker.fromJson, assign, bind, EStateM.bind, Except.bind, pure, Except.pure,
    hsymbol, hnumber, loadedTicker]

theorem loadedTicker_eq_mergeTicker (hevent : IsTickerEvent number pair event)
    {ticker : EventTicker} (hsymbol : ticker.symbol = pair) :
    loadedTicker number pair event.data ticker = mergeTicker number ticker event := by
  cases htype : event.type with
  | delta => simp [loadedTicker, mergeTicker, htype, hsymbol]
  | snapshot =>
      -- every field is carried, so the default that is passed does not matter
      have hcarried : ∀ key ∈ tickerFields, ∀ default,
          (carried number event.data key).getD default =
            (carried number event.data key).getD 0 := by
        intro key hkey default
        obtain ⟨value, hvalue⟩ := hevent.carried_isSome htype hkey
        simp [hvalue]
      simp only [tickerFields, List.forall_mem_cons] at hcarried
      rcases hcarried with ⟨hask, haskSize, hbid, hbidSize, hlast, -⟩
      simp only [loadedTicker, mergeTicker, htype, hsymbol]
      rw [hask, haskSize, hbid, hbidSize, hlast]

/-! ### One event of the stream -/

namespace EventStore

theorem storeTicker_eq (hstrings : common.ReadsStrings) (hnumbers : common.ReadsNumbers number)
    (hsplits : common.Splits) (hpair : PairName pair) (hevent : IsTickerEvent number pair event)
    (store : EventStore) :
    storeTicker common event store =
      .ok () { store with
        tickers := store.tickers.insert pair
          (loadedTicker number pair event.data ((store.tickers[pair]?).getD .empty)) } := by
  have hkey : readSymbolFromFilter common event.topic = pair := by
    rw [hevent.topic, readSymbolFromFilter_tickerTopic hsplits hpair]
  have hload : ∀ ticker, EventTicker.loadEventData common event ticker =
      .ok () (loadedTicker number pair event.data ticker) := by
    intro ticker
    unfold EventTicker.loadEventData
    cases event.type <;> exact hevent.fromJson hstrings hnumbers ticker
  unfold storeTicker
  simp only [hkey]
  cases store.tickers[pair]? with
  | none => simp [hload, loadedTicker]
  | some ticker => simp [hload]

/-- What an event of the stream does to the entry of a pair. -/
def mergeStep (number : Json → Option Double) (pair : String) (entry : Option EventTicker)
    (event : Event) : Option EventTicker :=
  if event.topic = tickerTopic pair then
    some (mergeTicker number (entry.getD (zeroTicker pair)) event)
  else entry

theorem loadedTicker_eq_merge (hevent : IsTickerEvent number pair event)
    {entry : Option EventTicker} (hsymbol : ∀ ticker ∈ entry, ticker.symbol = pair) :
    loadedTicker number pair event.data (entry.getD .empty) =
      mergeTicker number (entry.getD (zeroTicker pair)) event := by
  cases entry with
  | none => exact loadedTicker_eq_mergeTicker hevent (show (zeroTicker pair).symbol = pair from rfl)
  | some ticker => exact loadedTicker_eq_mergeTicker hevent (hsymbol ticker rfl)

theorem after_onEvent_tickers (hstrings : common.ReadsStrings)
    (hnumbers : common.ReadsNumbers number) (hsplits : common.Splits) (logger : Bool)
    (hevent : IsStreamEvent number event) (store : EventStore)
    (hsymbol : ∀ ticker ∈ store.tickers[pair]?, ticker.symbol = pair) :
    (after (onEvent common logger event) store).tickers[pair]? =
      mergeStep number pair store.tickers[pair]? event := by
  obtain ⟨pair', hpair', hticker | ⟨interval, hkline⟩⟩ := hevent
  · have hafter : after (onEvent common logger event) store =
        { store with
          tickers := store.tickers.insert pair'
            (loadedTicker number pair' event.data ((store.tickers[pair']?).getD .empty)) } := by
      unfold onEvent
      rw [hticker.topic, if_pos (containsText_tickerTopic pair'), after_catchAndLog]
      exact after_of_ok (storeTicker_eq hstrings hnumbers hsplits hpair' hticker store)
    rw [hafter, mergeStep, hticker.topic]
    by_cases hsame : pair' = pair
    · subst hsame
      rw [if_pos rfl, ← loadedTicker_eq_merge hticker hsymbol]
      exact Std.ExtTreeMap.getElem?_insert_self
    · have hne : tickerTopic pair' ≠ tickerTopic pair := fun h => hsame (tickerTopic_injective h)
      rw [if_neg hne, Std.ExtTreeMap.getElem?_insert, if_neg (by simpa using hsame)]
  · have hne : event.topic ≠ tickerTopic pair := by
      intro h
      have hcontains := containsText_klineTopic hpair' interval
      rw [← hkline, h, containsText_tickerTopic] at hcontains
      cases hcontains
    have htickers : (after (onEvent common logger event) store).tickers = store.tickers := by
      unfold onEvent
      rw [hkline, containsText_klineTopic hpair' interval, if_neg Bool.false_ne_true]
      split
      · exact (storeCandlestick_keeps common logger event).catchAndLog logger () store
      · rfl
    rw [htickers, mergeStep, if_neg hne]

/-! ### Any sequence of events -/

theorem mergeStep_symbol {entry : Option EventTicker}
    (hsymbol : ∀ ticker ∈ entry, ticker.symbol = pair) :
    ∀ ticker ∈ mergeStep number pair entry event, ticker.symbol = pair := by
  have hbefore : (entry.getD (zeroTicker pair)).symbol = pair := by
    cases entry with
    | none => rfl
    | some ticker => exact hsymbol ticker rfl
  unfold mergeStep
  split
  · intro ticker hticker
    rw [Option.mem_some_iff] at hticker
    subst hticker
    unfold mergeTicker
    split <;> exact hbefore
  · exact hsymbol

theorem onEvents_tickers (hstrings : common.ReadsStrings) (hnumbers : common.ReadsNumbers number)
    (hsplits : common.Splits) {logger : Bool} {events : List Event} {store final : EventStore}
    (hevents : ∀ event ∈ events, IsStreamEvent number event)
    (hsymbol : ∀ ticker ∈ store.tickers[pair]?, ticker.symbol = pair)
    (hfinal : onEvents common logger store events = some final) :
    final.tickers[pair]? = events.foldl (mergeStep number pair) store.tickers[pair]? := by
  induction events generalizing store with
  | nil =>
      obtain rfl := Option.some.inj hfinal
      rfl
  | cons event events ih =>
      rw [onEvents_cons] at hfinal
      obtain ⟨next, hsettled, hrest⟩ := Option.bind_eq_some_iff.mp hfinal
      have hstep := after_onEvent_tickers hstrings hnumbers hsplits logger
        (hevents event List.mem_cons_self) store hsymbol
      rw [after_of_settled hsettled] at hstep
      have hnext : ∀ ticker ∈ next.tickers[pair]?, ticker.symbol = pair := by
        rw [hstep]
        exact mergeStep_symbol hsymbol
      rw [ih (fun e he => hevents e (List.mem_cons_of_mem _ he)) hnext hrest, hstep]
      rfl

theorem foldl_mergeStep (events : List Event) (entry : Option EventTicker) :
    events.foldl (mergeStep number pair) entry =
      match events.filter fun event => event.topic == tickerTopic pair with
      | [] => entry
      | own => some (own.foldl (mergeTicker number) (entry.getD (zeroTicker pair))) := by
  induction events generalizing entry with
  | nil => rfl
  | cons event events ih =>
      rw [List.foldl_cons, ih, mergeStep]
      by_cases htopic : event.topic = tickerTopic pair
      · simp only [htopic, if_true, List.filter_cons, beq_self_eq_true, Option.getD_some]
        cases events.filter fun event => event.topic == tickerTopic pair <;> rfl
      · simp [htopic]

theorem referenceTicker_isSome (pair : String) (events : List Event) :
    (referenceTicker number pair events).isSome ↔
      ∃ event ∈ events, event.topic = tickerTopic pair := by
  unfold referenceTicker
  cases hown : events.filter fun event => event.topic == tickerTopic pair with
  | nil =>
      rw [List.filter_eq_nil_iff] at hown
      simpa using hown
  | cons event own =>
      have hevent : event ∈ events.filter fun event => event.topic == tickerTopic pair := by
        simp [hown]
      obtain ⟨hmem, htopic⟩ := List.mem_filter.mp hevent
      simpa using ⟨event, hmem, by simpa using htopic⟩

/-- **The ticker store is the reference merge.**  A sequence of ticker events and of kline
    events of any kind is handled, unless a candle that is looked at without a check is
    not there; and then the store holds the reference for every pair. -/
theorem tickers_eq_reference (hcommon : common.Checks) (hstrings : common.ReadsStrings)
    (hnumbers : common.ReadsNumbers number) (hsplits : common.Splits) (logger : Bool)
    {events : List Event} (hevents : ∀ event ∈ events, IsStreamEvent number event)
    (pair : String) :
    ((onEvents common logger .initial events).isSome ↔
      ∀ event ∈ events, CandlePresent common logger event) ∧
    ∀ store, onEvents common logger .initial events = some store →
      (store.tickers[pair]?.isSome ↔ ∃ event ∈ events, event.topic = tickerTopic pair) ∧
        store.tickers[pair]? = referenceTicker number pair events := by
  refine ⟨onEvents_isSome_iff hcommon events .initial, ?_⟩
  intro store hstore
  have hentry : store.tickers[pair]? = referenceTicker number pair events := by
    rw [onEvents_tickers hstrings hnumbers hsplits hevents (by simp [initial]) hstore,
      foldl_mergeStep]
    simp only [initial, Std.ExtTreeMap.getElem?_empty, Option.getD_none]
    rfl
  refine ⟨?_, hentry⟩
  rw [hentry, referenceTicker_isSome]

/-- A parser for whole numbers, to instantiate the readers with. -/
def wholeNumber : Json → Option Double
  | .string text =>
      if text ≠ "" ∧ text.toList.all Char.isDigit then
        some (text.toList.foldl (fun n c => 10 * n + (c.toNat - '0'.toNat)) 0 : Nat)
      else none
  | _ => none

def twoPairs : List Event :=
  [{ topic := "tickers.BTCUSDT", type := .snapshot, ts := 1
     data := .object [("ask1Price", .string "101"), ("ask1Size", .string "7"),
      ("bid1Price", .string "99"), ("bid1Size", .string "8"), ("lastPrice", .string "100"),
      ("symbol", .string "BTCUSDT")] },
   { topic := "kline.5.ETH-25", type := .snapshot, ts := 2
     data := .array [.object [("interval", .string "5")]] },
   { topic := "tickers.ETH-25", type := .delta, ts := 3
     data := .object [("lastPrice", .string "42"), ("symbol", .string "ETH-25")] },
   { topic := "tickers.BTCUSDT", type := .delta, ts := 4
     data := .object [("bid1Size", .string "3"), ("symbol", .string "BTCUSDT")] }]

theorem twoPairs_stream : ∀ event ∈ twoPairs, IsStreamEvent wholeNumber event := by
  simp only [twoPairs, List.forall_mem_cons]
  have hbtc : PairName "BTCUSDT" := ⟨by decide, by simp⟩
  have heth : PairName "ETH-25" := ⟨by decide, by simp⟩
  exact ⟨⟨_, hbtc, Or.inl ⟨rfl, rfl, by decide, by decide⟩⟩, ⟨_, heth, Or.inr ⟨._5, rfl⟩⟩,
    ⟨_, heth, Or.inl ⟨rfl, rfl, by decide, by decide⟩⟩,
    ⟨_, hbtc, Or.inl ⟨rfl, rfl, by decide, by decide⟩⟩, by simp⟩

/-- The candle names an interval, and the other events are on tickers. -/
theorem twoPairs_present :
    ∀ event ∈ twoPairs, CandlePresent (.documented wholeNumber) true event := by
  have hticker : ∀ {event : Event}, containsText event.topic "tickers" = true →
      CandlePresent (.documented wholeNumber) true event := by
    intro event htickers hnot
    rw [htickers] at hnot
    cases hnot
  simp only [twoPairs, List.forall_mem_cons]
  refine ⟨hticker (by decide), ?_, hticker (by decide), hticker (by decide), by simp⟩
  intro _ _ _
  refine ⟨by simp, ?_⟩
  intro first candlestick hfirst hbuilt
  obtain rfl := Except.ok.inj hfirst
  obtain rfl := Except.ok.inj hbuilt
  decide

theorem tickers_eq_reference_twoPairs :
    ∃ store, onEvents (.documented wholeNumber) true .initial twoPairs = some store ∧
      store.tickers["BTCUSDT"]? = referenceTicker wholeNumber "BTCUSDT" twoPairs := by
  have hmerged := tickers_eq_reference (VkCommon.documented_checks wholeNumber)
    (VkCommon.documented_readsStrings _) (VkCommon.documented_readsNumbers _)
    (VkCommon.documented_splits _) true twoPairs_stream "BTCUSDT"
  obtain ⟨store, hstore⟩ := Option.isSome_iff_exists.mp (hmerged.1.mpr twoPairs_present)
  exact ⟨store, hstore, (hmerged.2 store hstore).2⟩

end EventStore

end BybitApi
