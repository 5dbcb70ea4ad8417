import BybitApi.CandleStore

/-!
# Kline events with any number of candles

The exchange may send several candles in one event.  The callback reports a count other
than one and goes on with the first candle, the oldest; without a logger the report
throws, and with one an empty array is read out of range.  `batch_eq_singles_iff` tells
when the candles are left as they would be by one event for each candle.
-/

namespace BybitApi.EventStore

/-- A kline event and its candles, each with the interval that it names. -/
structure IsKlineBatch (number : Json → Option Double) (event : Event)
    (batch : List (CandleInterval × EventCandlestick)) : Prop where
  notTickers : containsText event.topic "tickers" = false
  kline : containsText event.topic "kline" = true
  rows : ∃ rows, event.data = .array rows ∧
    List.Forall₂ (fun json entry => candleOf number json = some entry.2 ∧
      CandleInterval.enumCast? entry.2.interval = some entry.1) rows batch

def Chronological (batch : List (CandleInterval × EventCandlestick)) : Prop :=
  batch.Pairwise fun entry entry' => entry.2.start ≤ entry'.2.start

/-- The event with a single candle. -/
def single (event : Event) (json : Json) : Event := { event with data := .array [json] }

/-- One event for each candle, in the same order. -/
def singles (event : Event) : List Event := event.data.items.map (single event)

section Source

variable (common : VkCommon) (logger : Bool)

/-- The event leaves the candles as single events do. -/
def SameAsSingles (event : Event) (store : EventStore) : Prop :=
  ∃ final, settled (onEvent common logger event) store = some final ∧
    ∃ singlesFinal, onEvents common logger store (singles event) = some singlesFinal ∧
      final.candlesticks = singlesFinal.candlesticks

end Source

/-- The last candle of an interval. -/
def lastOf (interval : CandleInterval) (batch : List (CandleInterval × EventCandlestick)) :
    Option EventCandlestick :=
  ((batch.filter fun entry => entry.1 == interval).getLast?).map Prod.snd

/-- Of several candles, those that come last are the first one, where it is read, and
    what is stored already. -/
def FirstSuffices (logger : Bool) (symbol : String) (store : EventStore) :
    List (CandleInterval × EventCandlestick) → Prop
  | [] => logger = false
  | [_] => True
  | first :: rest =>
      ∀ interval candle, lastOf interval (first :: rest) = some candle →
        if logger = true ∧ interval = first.1 then candle = first.2
        else store.candle symbol interval = some candle

/-! ### Last candles -/

variable {common : VkCommon} {number : Json → Option Double} {logger : Bool} {event : Event}
  {symbol : String} {interval : CandleInterval}

theorem lastOf_cons (entry : CandleInterval × EventCandlestick)
    (rest : List (CandleInterval × EventCandlestick)) :
    lastOf interval (entry :: rest) =
      (lastOf interval rest).or (if interval = entry.1 then some entry.2 else none) := by
  unfold lastOf
  by_cases h : interval = entry.1
  · rw [List.filter_cons_of_pos (by simp [h]), List.getLast?_cons, if_pos h]
    cases (rest.filter fun entry => entry.1 == interval).getLast? <;> rfl
  · rw [List.filter_cons_of_neg (by simpa using Ne.symm h), if_neg h, Option.or_none]

theorem lastOf_isSome_of_head (entry : CandleInterval × EventCandlestick)
    (rest : List (CandleInterval × EventCandlestick)) :
    ∃ candle, lastOf entry.1 (entry :: rest) = some candle := by
  rw [lastOf_cons, if_pos rfl]
  cases lastOf entry.1 rest with
  | none => exact ⟨entry.2, rfl⟩
  | some candle => exact ⟨candle, rfl⟩

/-! ### What is stored -/

theorem candles_apply (store : EventStore) :
    ((store.candlesticks[symbol]?).getD fun _ => none) interval = store.candle symbol interval := by
  unfold candle
  cases store.candlesticks[symbol]? <;> rfl

theorem candlesticks_insertCandlestick (store : EventStore) (candlestick : EventCandlestick) :
    (insertCandlestick symbol interval candlestick store).candlesticks =
      store.candlesticks.insert symbol fun interval' =>
        if interval' = interval then some candlestick else store.candle symbol interval' := by
  simp only [insertCandlestick, ← candles_apply]
  congr 1
  funext interval'
  rw [Function.update_apply]

/-- The entry that is made for a new symbol is written over. -/
theorem insertCandlestick_insertIfNew (store : EventStore) (candlestick : EventCandlestick) :
    insertCandlestick symbol interval candlestick
        { store with candlesticks := store.candlesticks.insertIfNew symbol fun _ => none } =
      insertCandlestick symbol interval candlestick store := by
  have hcandles : ∀ symbol' : String,
      (insertCandlestick symbol interval candlestick
          { store with
            candlesticks :=
              store.candlesticks.insertIfNew symbol fun _ => none }).candlesticks[symbol']? =
        (insertCandlestick symbol interval candlestick store).candlesticks[symbol']? := by
    intro symbol'
    simp only [insertCandlestick, Std.ExtTreeMap.getElem?_insert,
      Std.ExtTreeMap.getElem?_insertIfNew, compare_eq_iff_eq]
    by_cases hsymbol : symbol = symbol'
    · subst hsymbol
      by_cases hmem : symbol ∈ store.candlesticks <;> simp [hmem]
    · simp [hsymbol]
  exact congrArg (EventStore.mk store.tickers) (Std.ExtTreeMap.ext_getElem? hcandles)

theorem candle_insertCandlestick_same (store : EventStore) (interval' : CandleInterval)
    (candlestick : EventCandlestick) :
    (insertCandlestick symbol interval' candlestick store).candle symbol interval =
      if interval = interval' then some candlestick else store.candle symbol interval := by
  rw [candle, candlesticks_insertCandlestick, Std.ExtTreeMap.getElem?_insert_self, Option.bind_some]

theorem insert_insert_symbol {β : Type} (candles : Std.ExtTreeMap String β) (value value' : β) :
    (candles.insert symbol value).insert symbol value' = candles.insert symbol value' := by
  apply Std.ExtTreeMap.ext_getElem?
  intro symbol'
  simp only [Std.ExtTreeMap.getElem?_insert]
  split <;> rfl

/-- What single events store. -/
def insertAll (symbol : String) (batch : List (CandleInterval × EventCandlestick))
    (store : EventStore) : EventStore :=
  batch.foldl (fun store entry => insertCandlestick symbol entry.1 entry.2 store) store

theorem candlesticks_insertAll (first : CandleInterval × EventCandlestick)
    (rest : List (CandleInterval × EventCandlestick)) (store : EventStore) :
    (insertAll symbol (first :: rest) store).candlesticks =
      store.candlesticks.insert symbol fun interval =>
        (lastOf interval (first :: rest)).or (store.candle symbol interval) := by
  induction rest generalizing first store with
  | nil =>
      rw [insertAll, List.foldl_cons, List.foldl_nil, candlesticks_insertCandlestick]
      congr 1
      funext interval
      rw [lastOf_cons]
      split <;> rfl
  | cons next rest ih =>
      have hrest := ih next (insertCandlestick symbol first.1 first.2 store)
      rw [insertAll, List.foldl_cons, ← insertAll, hrest, candlesticks_insertCandlestick,
        insert_insert_symbol]
      congr 1
      funext interval
      rw [candle_insertCandlestick_same, lastOf_cons first]
      split
      · rw [Option.or_assoc]
        rfl
      · rw [Option.or_none]

/-! ### What the callback does -/

theorem onEvent_of_kline (event : Event)
    (htickers : containsText event.topic "tickers" = false)
    (hkline : containsText event.topic "kline" = true) :
    onEvent common logger event =
      catchAndLog logger () (storeCandlestick common logger event) := by
  rw [onEvent, if_neg (by simp [htickers]), if_pos hkline]

theorem onEvents_singles (hreads : common.ReadsCandles number)
    {batch : List (CandleInterval × EventCandlestick)} (hbatch : IsKlineBatch number event batch)
    (store : EventStore) :
    onEvents common logger store (singles event) =
      some (insertAll (readSymbolFromFilter common event.topic) batch store) := by
  obtain ⟨htickers, hkline, rows, hdata, hrows⟩ := hbatch
  rw [singles, hdata, Json.items]
  clear hdata
  induction hrows generalizing store with
  | nil => rfl
  | @cons json entry rows batch hentry hrest ih =>
      have hdata : (single event json).data = .array [json] := rfl
      have hstored := storeCandlestick_of_first hreads logger hdata hentry.1 hentry.2 store
      rw [if_pos (.inl rfl), insertCandlestick_insertIfNew] at hstored
      have hsettled : settled (onEvent common logger (single event json)) store =
          some (insertCandlestick (readSymbolFromFilter common event.topic) entry.1 entry.2
            store) := by
        rw [onEvent_of_kline (single event json) htickers hkline, settled_catchAndLog, settled,
          hstored]
        rfl
      rw [List.map_cons, onEvents_cons, hsettled, Option.bind_some]
      exact ih _

/-- What an event with candles leaves: the first one is stored if the count is right or
    can be reported. -/
theorem settled_onEvent (hreads : common.ReadsCandles number)
    {first : CandleInterval × EventCandlestick}
    {rest : List (CandleInterval × EventCandlestick)}
    (hbatch : IsKlineBatch number event (first :: rest)) (store : EventStore) :
    settled (onEvent common logger event) store =
      some (if rest = [] ∨ logger = true then
        insertCandlestick (readSymbolFromFilter common event.topic) first.1 first.2 store
      else store) := by
  obtain ⟨htickers, hkline, rows, hdata, hrows⟩ := hbatch
  cases hrows with
  | @cons _ _ rows _ hfirst hrest =>
      have hempty : rows = [] ↔ rest = [] := by
        rw [← List.length_eq_zero_iff, hrest.length_eq, List.length_eq_zero_iff]
      have hstored := storeCandlestick_of_first hreads logger hdata hfirst.1 hfirst.2 store
      rw [onEvent_of_kline event htickers hkline, settled_catchAndLog, settled, hstored,
        insertCandlestick_insertIfNew]
      by_cases h : rest = [] ∨ logger = true
      · rw [if_pos h, if_pos (h.imp_left hempty.mpr)]
      · rw [if_neg h, if_neg (fun h' => h (h'.imp_left hempty.mp))]

theorem settled_onEvent_empty (hbatch : IsKlineBatch number event []) (store : EventStore) :
    settled (onEvent common logger event) store = if logger = true then none else some store := by
  obtain ⟨htickers, hkline, rows, hdata, hrows⟩ := hbatch
  cases hrows
  rw [onEvent_of_kline event htickers hkline, settled_catchAndLog]
  cases logger <;>
    simp [settled, storeCandlestick, hdata, Json.size, Json.indexAt, logMessage, ofExcept, bind,
      EStateM.bind, pure, EStateM.pure, throw, throwThe, MonadExceptOf.throw, EStateM.throw]

/-! ### Batches -/

theorem insert_inj_symbol {β : Type} {candles : Std.ExtTreeMap String β} {value value' : β} :
    candles.insert symbol value = candles.insert symbol value' ↔ value = value' := by
  constructor
  · intro h
    have hget := congrArg (fun candles => candles[symbol]?) h
    simpa using hget
  · rintro rfl
    rfl

theorem eq_insert_symbol {β : Type} {candles : Std.ExtTreeMap String β} {value : β} :
    candles = candles.insert symbol value ↔ candles[symbol]? = some value := by
  constructor
  · intro h
    rw [h, Std.ExtTreeMap.getElem?_insert_self]
  · intro h
    apply Std.ExtTreeMap.ext_getElem?
    intro symbol'
    simp only [Std.ExtTreeMap.getElem?_insert, compare_eq_iff_eq]
    split
    · next hsymbol => rw [← hsymbol, h]
    · rfl

/-- What is held stands for the last candle if there is none, or if it is that one. -/
theorem eq_or_iff {α : Type} {held last : Option α} :
    held = last.or held ↔ ∀ candle, last = some candle → held = some candle := by
  cases last with
  | none => simp
  | some candle => simp

theorem sameAsSingles_iff_of_logger (hreads : common.ReadsCandles number)
    {first next : CandleInterval × EventCandlestick}
    {rest : List (CandleInterval × EventCandlestick)}
    (hbatch : IsKlineBatch number event (first :: next :: rest)) (store : EventStore) :
    SameAsSingles common true event store ↔
      FirstSuffices true (readSymbolFromFilter common event.topic) store
        (first :: next :: rest) := by
  simp only [SameAsSingles, settled_onEvent hreads hbatch, onEvents_singles hreads hbatch, or_true,
    if_true, Option.some.injEq, exists_eq_left', candlesticks_insertCandlestick,
    candlesticks_insertAll, insert_inj_symbol, FirstSuffices, true_and]
  rw [funext_iff]
  apply forall_congr'
  intro interval
  by_cases h : interval = first.1
  · subst h
    obtain ⟨candle, hlast⟩ := lastOf_isSome_of_head first (next :: rest)
    simp [hlast, eq_comm]
  · simp only [h, if_false]
    exact eq_or_iff

theorem sameAsSingles_iff_of_no_logger (hreads : common.ReadsCandles number)
    {first next : CandleInterval × EventCandlestick}
    {rest : List (CandleInterval × EventCandlestick)}
    (hbatch : IsKlineBatch number event (first :: next :: rest)) (store : EventStore) :
    SameAsSingles common false event store ↔
      FirstSuffices false (readSymbolFromFilter common event.topic) store
        (first :: next :: rest) := by
  simp only [SameAsSingles, settled_onEvent hreads hbatch, onEvents_singles hreads hbatch,
    reduceCtorEq, Bool.false_eq_true, or_self, if_false, Option.some.injEq, exists_eq_left',
    candlesticks_insertAll, eq_insert_symbol, FirstSuffices, false_and, ← eq_or_iff]
  constructor
  · intro hstored interval
    conv_lhs => rw [candle, hstored, Option.bind_some]
  · intro hheld
    -- the last candle of the first one's interval is there, and so is the symbol
    obtain ⟨last, hlast⟩ := lastOf_isSome_of_head first (next :: rest)
    have hcandle : store.candle (readSymbolFromFilter common event.topic) first.1 = some last := by
      rw [hheld, hlast, Option.some_or]
    obtain ⟨candles, hcandles, -⟩ := Option.bind_eq_some_iff.mp hcandle
    rw [hcandles, Option.some.injEq]
    funext interval
    rw [← hheld interval, candle, hcandles, Option.bind_some]

/-- **When a batch is its candles one by one.**  A kline event leaves the candles as
    single events would if it has one candle; if it has none and there is no logger; or if
    it has several, and those that come last are the first one, where it is read, and
    what is stored already. -/
theorem batch_eq_singles_iff (hreads : common.ReadsCandles number) (logger : Bool)
    {batch : List (CandleInterval × EventCandlestick)} (hbatch : IsKlineBatch number event batch)
    (store : EventStore) :
    SameAsSingles common logger event store ↔
      FirstSuffices logger (readSymbolFromFilter common event.topic) store batch := by
  cases batch with
  | nil =>
      simp only [SameAsSingles, settled_onEvent_empty hbatch, onEvents_singles hreads hbatch,
        FirstSuffices]
      cases logger <;> simp [insertAll]
  | cons first rest =>
      cases rest with
      | nil =>
          simp [SameAsSingles, settled_onEvent hreads hbatch, onEvents_singles hreads hbatch,
            insertAll, FirstSuffices]
      | cons next rest =>
          cases logger with
          | false => exact sameAsSingles_iff_of_no_logger hreads hbatch store
          | true => exact sameAsSingles_iff_of_logger hreads hbatch store

/-- A minute candle that opened at an instant. -/
def minuteCandle (start : Int) (close : Double) : EventCandlestick :=
  { start, end_ := start + 59999, interval := "1", open_ := 5, high := 9, low := 1, close,
    volume := 4, turnover := 20, confirm := false, timestamp := start + 7 }

def minuteRow (start : Int) (close : String) : Json :=
  .object [("close", .string close), ("confirm", .bool false), ("end", .integer (start + 59999)),
    ("high", .string "9"), ("interval", .string "1"), ("low", .string "1"),
    ("open", .string "5"), ("start", .integer start), ("timestamp", .integer (start + 7)),
    ("turnover", .string "20"), ("volume", .string "4")]

def minuteEvent (rows : List Json) : Event :=
  { topic := klineTopic "BTCUSDT" ._1, type := .snapshot, ts := 1, data := .array rows }

theorem candleOf_minuteRow {start : Int} (hstart : IsInt64 start)
    (hend : IsInt64 (start + 59999)) {text : String} {close : Double}
    (hclose : wholeNumber (.string text) = some close) :
    candleOf wholeNumber (minuteRow start text) = some (minuteCandle start close) := by
  have hclose : carried wholeNumber (minuteRow start text) "close" = some close := hclose
  have hopen : carried wholeNumber (minuteRow start text) "open" = some 5 :=
    (by decide +kernel : wholeNumber (.string "5") = some 5)
  have hhigh : carried wholeNumber (minuteRow start text) "high" = some 9 :=
    (by decide +kernel : wholeNumber (.string "9") = some 9)
  have hlow : carried wholeNumber (minuteRow start text) "low" = some 1 :=
    (by decide +kernel : wholeNumber (.string "1") = some 1)
  have hvolume : carried wholeNumber (minuteRow start text) "volume" = some 4 :=
    (by decide +kernel : wholeNumber (.string "4") = some 4)
  have hturnover : carried wholeNumber (minuteRow start text) "turnover" = some 20 :=
    (by decide +kernel : wholeNumber (.string "20") = some 20)
  have htimestamp : IsInt64 (start + 7) := by
    unfold IsInt64 at *
    omega
  have hstartAt : integerAt (minuteRow start text) "start" = some start :=
    integerAt_eq_some.mpr ⟨rfl, hstart⟩
  have hendAt : integerAt (minuteRow start text) "end" = some (start + 59999) :=
    integerAt_eq_some.mpr ⟨rfl, hend⟩
  have htimestampAt : integerAt (minuteRow start text) "timestamp" = some (start + 7) :=
    integerAt_eq_some.mpr ⟨rfl, htimestamp⟩
  simp only [candleOf, hstartAt, hendAt, htimestampAt, hclose, hopen, hhigh, hlow, hvolume,
    hturnover]
  rfl

theorem isKlineBatch_minutes {start start' : Int} (hstart : IsInt64 start)
    (hend : IsInt64 (start + 59999)) (hstart' : IsInt64 start')
    (hend' : IsInt64 (start' + 59999)) {text text' : String} {close close' : Double}
    (h : wholeNumber (.string text) = some close)
    (h' : wholeNumber (.string text') = some close') :
    IsKlineBatch wholeNumber (minuteEvent [minuteRow start text, minuteRow start' text'])
      [(._1, minuteCandle start close), (._1, minuteCandle start' close')] where
  notTickers := containsText_klineTopic ⟨by decide, by simp⟩ ._1
  kline := klineTopic_contains "BTCUSDT" ._1
  rows :=
    ⟨_, rfl, .cons ⟨candleOf_minuteRow hstart hend h, CandleInterval.enumCast?_enumName ._1⟩
      (.cons ⟨candleOf_minuteRow hstart' hend' h', CandleInterval.enumCast?_enumName ._1⟩ .nil)⟩

/-- A candle that is sent twice. -/
theorem batch_eq_singles_iff_twice :
    SameAsSingles (.documented wholeNumber) true
      (minuteEvent [minuteRow 0 "6", minuteRow 0 "6"]) .initial := by
  have hclose : wholeNumber (.string "6") = some 6 := by decide +kernel
  refine (batch_eq_singles_iff (VkCommon.documented_readsCandles wholeNumber) true
    (isKlineBatch_minutes (by decide) (by decide) (by decide) (by decide) hclose hclose) _).mpr ?_
  intro interval candle hlast
  rw [lastOf_cons, lastOf_cons] at hlast
  by_cases hminute : interval = ._1
  · simp only [hminute, if_true, lastOf, List.filter_nil, List.getLast?_nil, Option.map_none,
      Option.none_or, Option.some_or, Option.some.injEq] at hlast
    rw [if_pos ⟨rfl, hminute⟩, hlast]
  · simp [hminute, lastOf] at hlast

/-- The newest candle is not stored. -/
theorem newest_candle_lost :
    ¬ ∀ (common : VkCommon) (number : Json → Option Double), common.ReadsCandles number →
      ∀ (logger : Bool) (event : Event) (batch : List (CandleInterval × EventCandlestick)),
        IsKlineBatch number event batch → Chronological batch →
          ∀ store, SameAsSingles common logger event store := by
  intro h
  have hreads := VkCommon.documented_readsCandles wholeNumber
  have hbefore : wholeNumber (.string "6") = some 6 := by decide +kernel
  have hafter : wholeNumber (.string "8") = some 8 := by decide +kernel
  have hbatch : IsKlineBatch wholeNumber (minuteEvent [minuteRow 0 "6", minuteRow 60000 "8"])
      [(._1, minuteCandle 0 6), (._1, minuteCandle 60000 8)] :=
    isKlineBatch_minutes (by decide) (by decide) (by decide) (by decide) hbefore hafter
  have hsame := h _ _ hreads true _ _ hbatch (by simp [Chronological, minuteCandle]) .initial
  have hlast : lastOf ._1 [(._1, minuteCandle 0 6), (._1, minuteCandle 60000 8)] =
      some (minuteCandle 60000 8) := by
    simp [lastOf]
  have hfirst := (sameAsSingles_iff_of_logger hreads hbatch _).mp hsame ._1 _ hlast
  rw [if_pos ⟨rfl, rfl⟩] at hfirst
  exact absurd (congrArg EventCandlestick.start hfirst) (by decide)

end BybitApi.EventStore
