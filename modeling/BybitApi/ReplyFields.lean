import BybitApi.Replies

/-!
# What a reply has to hold

A decoder reads one field after the other, each with the reader for its type, and an
exception of any of them ends the decoding.  The fields are listed here in the order of the
source, and `ReplyType.succeeds_ofResult_iff` says that a result is decoded if and only if
all of them are read, in the result and in each of its rows.
-/

namespace BybitApi

open Decoding

/-- A field, by the reader that reads it and the value it has when it is absent. -/
inductive Field : Type 1 where
  | string (key : String)
  | number (key : String)
  | bool (key : String) (current : Bool)
  | int (key : String)
  | int64 (key : String)
  | enum {α : Type} (enumCast? : String → Option α) (key : String) (current : α)
  | stringAsInt64 (key : String) (default : Option Int)
  | stringAsInt (key : String)
  | decimal (key : String)

section Conditions

variable (common : VkCommon) (readers : ReplyReaders)

def Field.Reads (json : Json) : Field → Prop
  | .string key => Succeeds (common.readString json key "")
  | .number key => Succeeds (common.readStringAsDouble json key 0)
  | .bool key current => Succeeds (common.readBool json key current)
  | .int key => Succeeds (readers.readInt json key 0)
  | .int64 key => Succeeds (common.readInt64 json key 0)
  | .enum enumCast? key current => Succeeds (readers.readMagicEnum enumCast? json key current)
  | .stringAsInt64 key default => Succeeds (readers.readStringAsInt64 json key default)
  | .stringAsInt key => Succeeds (readers.readStringAsInt json key 0)
  | .decimal key => Succeeds (readDecimalValue readers.positions json key 0)

def FieldsRead (json : Json) (fields : List Field) : Prop :=
  ∀ field ∈ fields, field.Reads common readers json

/-! ### Fields -/

def FundingRate.fields : List Field :=
  [.string "symbol", .number "fundingRate", .stringAsInt64 "fundingRateTimestamp" (some 0)]

def Coin.fields : List Field :=
  [.number "accruedInterest", .number "availableToBorrow", .number "availableToWithdraw",
   .number "bonus", .number "borrowAmount", .string "coin", .bool "collateralSwitch" true,
   .number "cumRealisedPnl", .number "equity", .number "locked", .bool "marginCollateral" true,
   .number "totalOrderIM", .number "totalPositionIM", .number "totalPositionMM",
   .number "unrealisedPnl", .number "usdValue", .number "walletBalance"]

def AccountBalance.fields : List Field :=
  [.number "accountIMRate", .number "accountLTV", .number "accountMMRate",
   .enum AccountType.enumCast? "accountType" .UNIFIED, .number "totalAvailableBalance",
   .number "totalEquity", .number "totalInitialMargin", .number "totalMaintenanceMargin",
   .number "totalMarginBalance", .number "totalPerpUPL", .number "totalWalletBalance"]

def PositionRecord.fields : List Field :=
  [.int "positionIdx", .int "riskId", .number "riskLimitValue", .string "symbol",
   .enum Side.enumCast? "side" .Buy, .decimal "size", .number "size", .number "avgPrice",
   .number "positionValue", .int "tradeMode",
   .enum PositionStatus.enumCast? "positionStatus" .Normal, .int "autoAddMargin",
   .int "adlRankIndicator", .number "leverage", .number "positionBalance", .number "markPrice",
   .number "liqPrice", .number "bustPrice", .number "positionMM", .number "positionIM",
   .enum TpSlMode.enumCast? "tpSlMode" .Full, .number "stopLoss", .number "takeProfit",
   .number "trailingStop", .number "unrealisedPnl", .number "cumRealisedPnl",
   .bool "isReduceOnly" false, .stringAsInt64 "createdTime" none,
   .stringAsInt64 "updatedTime" none, .int64 "seq", .string "mmrSysUpdateTime",
   .string "leverageSysUpdatedTime"]

def LeverageFilter.fields : List Field :=
  [.number "minLeverage", .number "maxLeverage", .number "leverageStep"]

def PriceFilter.fields : List Field :=
  [.number "minPrice", .number "maxPrice", .number "tickSize"]

def LotSizeFilter.fields : List Field :=
  [.number "maxOrderQty", .number "minOrderQty", .number "qtyStep",
   .number "postOnlyMaxTradingQty"]

/-- The fields of an instrument besides its filters. -/
def Instrument.fields : List Field :=
  [.string "symbol", .enum ContractType.enumCast? "contractType" .LinearPerpetual,
   .enum ContractStatus.enumCast? "contractStatus" .Trading, .string "baseCoin",
   .string "quoteCoin", .stringAsInt64 "launchTime" none, .stringAsInt64 "deliveryTime" none,
   .number "deliveryFeeRate", .stringAsInt "priceScale", .bool "unifiedMarginTrade" true,
   .int "fundingInterval", .string "settleCoin"]

def OrderResponse.fields : List Field :=
  [.string "orderId", .string "orderLinkId", .string "symbol", .enum Side.enumCast? "side" .Buy,
   .number "price", .number "qty", .int64 "positionIdx",
   .enum OrderStatus.enumCast? "orderStatus" .Created, .string "rejectReason",
   .number "avgPrice", .number "cumExecQty", .number "cumExecValue", .number "cumExecFee",
   .enum TimeInForce.enumCast? "timeInForce" .GTC, .enum OrderType.enumCast? "orderType" .Market,
   .bool "reduceOnly" false, .bool "closeOnTrigger" false, .number "lastPriceOnCreated",
   .string "createdTime", .string "updatedTime", .number "takeProfit", .number "stopLoss",
   .enum TriggerPriceType.enumCast? "tpTriggerBy" .LastPrice,
   .enum TriggerPriceType.enumCast? "slTriggerBy" .LastPrice]

def Ticker.fields : List Field :=
  [.string "symbol", .number "lastPrice", .number "indexPrice", .number "markPrice",
   .number "prevPrice24h", .number "price24hPcnt", .number "highPrice24h",
   .number "prevPrice1h", .stringAsInt64 "openInterest" (some 0), .number "openInterestValue",
   .number "turnover24h", .number "volume24h", .number "fundingRate",
   .stringAsInt64 "nextFundingTime" (some 0), .number "ask1Size", .number "bid1Price",
   .number "ask1Price", .number "bid1Size"]

/-! ### Rows -/

/-- A column of a candle is there and is read. -/
def ColumnReads (items : List Json) (i : Nat) : Prop :=
  ∃ digits, items[i]? = some (.string digits) ∧
    if i = 0 then Succeeds (stollOrThrow digits) else Succeeds (readers.stod digits)

def Candle.Reads (row : Json) : Prop :=
  ∃ items, row = .array items ∧ ∀ i < 7, ColumnReads readers items i

/-- An account whose coins are there, and are read. -/
def AccountBalance.Reads (row : Json) : Prop :=
  FieldsRead common readers row AccountBalance.fields ∧ row.contains "coin" = true ∧
    ∀ coin ∈ (row.memberOrNull "coin").items, FieldsRead common readers coin Coin.fields

/-- The leverage filter of an instrument is the one that may be absent. -/
def Instrument.HeadReads (row : Json) : Prop :=
  FieldsRead common readers row Instrument.fields ∧
    (row.contains "leverageFilter" = true →
      FieldsRead common readers (row.memberOrNull "leverageFilter") LeverageFilter.fields)

def Instrument.PriceFilterReads (row : Json) : Prop :=
  row.contains "priceFilter" = true ∧
    FieldsRead common readers (row.memberOrNull "priceFilter") PriceFilter.fields

def Instrument.LotSizeFilterReads (row : Json) : Prop :=
  row.contains "lotSizeFilter" = true ∧
    FieldsRead common readers (row.memberOrNull "lotSizeFilter") LotSizeFilter.fields

def Instrument.Reads (row : Json) : Prop :=
  Instrument.HeadReads common readers row ∧ Instrument.PriceFilterReads common readers row ∧
    Instrument.LotSizeFilterReads common readers row

/-! ### Results -/

def categoryField : Field := .enum Category.enumCast? "category" .linear

/-- The fields of a result besides its list. -/
def ReplyType.fields : ReplyType → List Field
  | .Candles => [.string "symbol", categoryField]
  | .Instruments => [categoryField, .string "nextPageCursor"]
  | .FundingRates | .Positions | .OrdersResponse | .Tickers => [categoryField]
  | .OrderId => [.string "orderId", .string "orderLinkId"]
  | .ServerTime => [.stringAsInt64 "timeSecond" none, .stringAsInt64 "timeNano" none]
  | .WalletBalance | .Response => []

/-- What a row has to hold, if there are rows. -/
def ReplyType.rowReads? : ReplyType → Option (Json → Prop)
  | .Candles => some (Candle.Reads readers)
  | .FundingRates => some fun row => FieldsRead common readers row FundingRate.fields
  | .Instruments => some (Instrument.Reads common readers)
  | .WalletBalance => some (AccountBalance.Reads common readers)
  | .Positions => some fun row => FieldsRead common readers row PositionRecord.fields
  | .OrdersResponse => some fun row => FieldsRead common readers row OrderResponse.fields
  | .Tickers => some fun row => FieldsRead common readers row Ticker.fields
  | .OrderId | .ServerTime | .Response => none

/-- The result holds what the type asks for. -/
def ReplyType.ResultReads (type : ReplyType) (result : Json) : Prop :=
  FieldsRead common readers result type.fields ∧
    ∀ RowReads ∈ type.rowReads? common readers,
      result.HoldsList ∧ ∀ row ∈ result.rows, RowReads row

end Conditions

/-! ### Reading -/

section Reading

variable {common : VkCommon} {readers : ReplyReaders} {json : Json} {α β : Type}

theorem fieldsRead_nil : FieldsRead common readers json [] := by
  simp [FieldsRead]

/-- One field is read, then the others and what comes behind them. -/
theorem succeeds_reading_and {reading : Except Fault α} {next : α → Except Fault β}
    {field : Field} {fields : List Field} {Q : Prop}
    (hreading : field.Reads common readers json = Succeeds reading)
    (hnext : ∀ value, Succeeds (next value) ↔ FieldsRead common readers json fields ∧ Q) :
    Succeeds (reading >>= next) ↔ FieldsRead common readers json (field :: fields) ∧ Q := by
  rw [succeeds_bind_of hnext, ← hreading, FieldsRead, FieldsRead, List.forall_mem_cons, and_assoc]

theorem succeeds_reading {reading : Except Fault α} {next : α → Except Fault β} {field : Field}
    {fields : List Field} (hreading : field.Reads common readers json = Succeeds reading)
    (hnext : ∀ value, Succeeds (next value) ↔ FieldsRead common readers json fields) :
    Succeeds (reading >>= next) ↔ FieldsRead common readers json (field :: fields) := by
  rw [succeeds_reading_and (Q := True) hreading (by simpa only [and_true] using hnext), and_true]

theorem succeeds_fundingRate_iff :
    Succeeds (FundingRate.fromJson common readers json) ↔
      FieldsRead common readers json FundingRate.fields := by
  unfold FundingRate.fromJson FundingRate.fields
  repeat' refine succeeds_reading rfl fun _ => ?_
  exact iff_of_true (succeeds_pure _) fieldsRead_nil

theorem succeeds_coin_iff :
    Succeeds (Coin.fromJson common json) ↔ FieldsRead common readers json Coin.fields := by
  unfold Coin.fromJson Coin.fields
  repeat' refine succeeds_reading rfl fun _ => ?_
  exact iff_of_true (succeeds_pure _) fieldsRead_nil

theorem succeeds_balanceFields_iff :
    Succeeds (AccountBalance.readFields common readers json) ↔
      FieldsRead common readers json AccountBalance.fields := by
  unfold AccountBalance.readFields AccountBalance.fields
  repeat' refine succeeds_reading rfl fun _ => ?_
  exact iff_of_true (succeeds_pure _) fieldsRead_nil

theorem succeeds_position_iff :
    Succeeds (PositionRecord.fromJson common readers json) ↔
      FieldsRead common readers json PositionRecord.fields := by
  unfold PositionRecord.fromJson PositionRecord.fields
  repeat' refine succeeds_reading rfl fun _ => ?_
  exact iff_of_true (succeeds_pure _) fieldsRead_nil

theorem succeeds_order_iff :
    Succeeds (OrderResponse.fromJson common readers json) ↔
      FieldsRead common readers json OrderResponse.fields := by
  unfold OrderResponse.fromJson OrderResponse.fields
  repeat' refine succeeds_reading rfl fun _ => ?_
  exact iff_of_true (succeeds_pure _) fieldsRead_nil

theorem succeeds_ticker_iff :
    Succeeds (Ticker.fromJson common readers json) ↔
      FieldsRead common readers json Ticker.fields := by
  unfold Ticker.fromJson Ticker.fields
  repeat' refine succeeds_reading rfl fun _ => ?_
  exact iff_of_true (succeeds_pure _) fieldsRead_nil

theorem succeeds_leverageFilter_iff :
    Succeeds (LeverageFilter.fromJson common json) ↔
      FieldsRead common readers json LeverageFilter.fields := by
  unfold LeverageFilter.fromJson LeverageFilter.fields
  repeat' refine succeeds_reading rfl fun _ => ?_
  exact iff_of_true (succeeds_pure _) fieldsRead_nil

theorem succeeds_priceFilter_iff :
    Succeeds (PriceFilter.fromJson common json) ↔
      FieldsRead common readers json PriceFilter.fields := by
  unfold PriceFilter.fromJson PriceFilter.fields
  repeat' refine succeeds_reading rfl fun _ => ?_
  exact iff_of_true (succeeds_pure _) fieldsRead_nil

theorem succeeds_lotSizeFilter_iff :
    Succeeds (LotSizeFilter.fromJson common json) ↔
      FieldsRead common readers json LotSizeFilter.fields := by
  unfold LotSizeFilter.fromJson LotSizeFilter.fields
  repeat' refine succeeds_reading rfl fun _ => ?_
  exact iff_of_true (succeeds_pure _) fieldsRead_nil

/-- A member of a constant object that is taken without looking for it first. -/
theorem succeeds_index_bind_iff {key : String} {next : Json → Except Fault β} :
    Succeeds (json.index key >>= next) ↔
      json.contains key = true ∧ Succeeds (next (json.memberOrNull key)) := by
  by_cases hcontains : json.contains key = true
  · rw [Json.index_of_contains hcontains, and_iff_right hcontains]
    rfl
  · obtain ⟨fault, hfault⟩ :=
      Json.index_of_find?_none (Option.not_isSome_iff_eq_none.mp hcontains)
    rw [hfault]
    exact iff_of_false (not_succeeds_error _) fun h => hcontains h.1

theorem succeeds_account_iff :
    Succeeds (AccountBalance.fromJson common readers json) ↔
      AccountBalance.Reads common readers json := by
  unfold AccountBalance.fromJson AccountBalance.Reads
  rw [succeeds_bind_of, succeeds_balanceFields_iff]
  intro balance
  rw [succeeds_index_bind_iff, succeeds_bind_of (fun _ => iff_true_intro (succeeds_pure _)),
    and_true, succeeds_mapM]
  simp only [@succeeds_coin_iff common readers]

/-! ### Instruments -/

/-- What `Instrument::fromJson` reads before it takes the filters that are not looked for. -/
def Instrument.readHead (common : VkCommon) (readers : ReplyReaders) (json : Json) :
    Except Fault String := do
  let symbol ← common.readString json "symbol" ""
  let _contractType ← readers.instruments.readContractType json "contractType" .LinearPerpetual
  let _contractStatus ← readers.instruments.readContractStatus json "contractStatus" .Trading
  let _baseCoin ← common.readString json "baseCoin" ""
  let _quoteCoin ← common.readString json "quoteCoin" ""
  let _launchTime ← readers.instruments.readStringAsInt64 json "launchTime"
  let _deliveryTime ← readers.instruments.readStringAsInt64 json "deliveryTime"
  let _deliveryFeeRate ← common.readStringAsDouble json "deliveryFeeRate" 0
  let _priceScale ← readers.instruments.readStringAsInt json "priceScale" 0
  let _unifiedMarginTrade ← common.readBool json "unifiedMarginTrade" true
  let _fundingInterval ← readers.instruments.readInt json "fundingInterval" 0
  let _settleCoin ← common.readString json "settleCoin" ""
  if json.contains "leverageFilter" then
    let _leverageFilter ← LeverageFilter.fromJson common (← json.index "leverageFilter")
  return symbol

theorem Instrument.fromJson_eq :
    Instrument.fromJson common readers.instruments json = do
      let symbol ← Instrument.readHead common readers json
      let priceFilter ← PriceFilter.fromJson common (← json.index "priceFilter")
      let lotSizeFilter ← LotSizeFilter.fromJson common (← json.index "lotSizeFilter")
      return { symbol, priceFilter, lotSizeFilter } := by
  simp only [Instrument.fromJson, Instrument.readHead, bind_assoc]
  by_cases h : json.contains "leverageFilter" = true
  · simp only [h, if_true, bind_assoc, pure_bind]
  · simp only [h, Bool.false_eq_true, if_false, pure_bind]

theorem succeeds_instrumentHead_iff :
    Succeeds (Instrument.readHead common readers json) ↔
      Instrument.HeadReads common readers json := by
  unfold Instrument.readHead Instrument.HeadReads Instrument.fields
  iterate 12 refine succeeds_reading_and rfl fun _ => ?_
  rw [and_iff_right fieldsRead_nil]
  by_cases h : json.contains "leverageFilter" = true
  · simp only [h, if_true, true_implies, succeeds_index_bind_iff, true_and]
    rw [succeeds_bind_of (fun _ => iff_true_intro (succeeds_pure _)), and_true]
    exact succeeds_leverageFilter_iff
  · simp [h]

theorem succeeds_instrument_iff :
    Succeeds (Instrument.fromJson common readers.instruments json) ↔
      Instrument.Reads common readers json := by
  rw [Instrument.fromJson_eq, Instrument.Reads, succeeds_bind_of, succeeds_instrumentHead_iff]
  intro symbol
  rw [succeeds_index_bind_iff, succeeds_bind_of, Instrument.PriceFilterReads, and_assoc,
    succeeds_priceFilter_iff]
  intro priceFilter
  rw [succeeds_index_bind_iff, succeeds_bind_of (fun _ => iff_true_intro (succeeds_pure _)),
    and_true, Instrument.LotSizeFilterReads, succeeds_lotSizeFilter_iff]

/-! ### Candles -/

/-- A column of an array is missing or there. -/
theorem column_array (convert : String → Except Fault β) (items : List Json) (i : Nat) :
    (items.length ≤ i ∧ column convert (.array items) i =
      .error (.undefined "operator[] out of range")) ∨
    ∃ item, items[i]? = some item ∧
      column convert (.array items) i = item.asString >>= convert := by
  unfold column Json.indexAt
  cases h : items[i]? with
  | none => exact .inl ⟨List.getElem?_eq_none_iff.mp h, by simp only [h]; rfl⟩
  | some item => exact .inr ⟨item, rfl, by simp only [h]; rfl⟩

theorem succeeds_column_iff (convert : String → Except Fault β) (items : List Json) (i : Nat) :
    Succeeds (column convert (.array items) i) ↔
      ∃ digits, items[i]? = some (.string digits) ∧ Succeeds (convert digits) := by
  rcases column_array convert items i with ⟨hlength, hcolumn⟩ | ⟨item, hitem, hcolumn⟩
  · rw [hcolumn, List.getElem?_eq_none hlength]
    simp
  · rw [hcolumn, hitem]
    cases item with
    | string digits =>
        simp only [Option.some.injEq, Json.string.injEq, exists_eq_left']
        rfl
    | null | bool _ | integer _ | float _ | array _ | object _ =>
        simp [Json.asString, bind, Except.bind]

theorem succeeds_startTime_iff (items : List Json) :
    Succeeds (column stollOrThrow (.array items) 0) ↔ ColumnReads readers items 0 := by
  rw [succeeds_column_iff, ColumnReads]
  simp only [if_true]

theorem succeeds_value_iff (items : List Json) {i : Nat} (hi : i ≠ 0) :
    Succeeds (column readers.stod (.array items) i) ↔ ColumnReads readers items i := by
  rw [succeeds_column_iff, ColumnReads]
  simp only [if_neg hi]

theorem succeeds_column_bind_iff {convert : String → Except Fault α} {next : α → Except Fault β}
    {items : List Json} {i : Nat} {is : List Nat}
    (hcolumn : Succeeds (column convert (.array items) i) ↔ ColumnReads readers items i)
    (hnext : ∀ value, Succeeds (next value) ↔ ∀ j ∈ is, ColumnReads readers items j) :
    Succeeds (column convert (.array items) i >>= next) ↔
      ∀ j ∈ i :: is, ColumnReads readers items j := by
  rw [succeeds_bind_of hnext, hcolumn, List.forall_mem_cons]

theorem succeeds_candle_iff :
    Succeeds (Candle.fromJson readers json) ↔ Candle.Reads readers json := by
  cases json with
  | array items =>
      have hcolumns : Succeeds (Candle.fromJson readers (.array items)) ↔
          ∀ i ∈ [0, 1, 2, 3, 4, 5, 6], ColumnReads readers items i := by
        unfold Candle.fromJson
        refine succeeds_column_bind_iff (succeeds_startTime_iff items) fun startTime => ?_
        iterate 6
          refine succeeds_column_bind_iff (succeeds_value_iff items (by decide)) fun _ => ?_
        simp
      rw [hcolumns, Candle.Reads]
      constructor
      · intro hreads
        exact ⟨items, rfl, fun i hi => hreads i (List.mem_range.mpr hi)⟩
      · rintro ⟨items', hrow, hreads⟩
        obtain rfl := Json.array.inj hrow
        exact fun i hi => hreads i (List.mem_range.mp hi)
  | null | bool _ | integer _ | float _ | string _ | object _ =>
      refine iff_of_false (not_succeeds_error _) ?_
      rintro ⟨items, hrow, -⟩
      cases hrow

/-! ### Results -/

theorem succeeds_list_iff {element : Json → Except Fault α} {next : List α → Except Fault β}
    {RowReads : Json → Prop} (helement : ∀ row, Succeeds (element row) ↔ RowReads row)
    (hnext : ∀ rows, Succeeds (next rows)) :
    Succeeds (readList element json >>= next) ↔
      json.HoldsList ∧ ∀ row ∈ json.rows, RowReads row := by
  rw [succeeds_bind_of (fun rows => iff_true_intro (hnext rows)), and_true, succeeds_readList]
  simp only [helement]

theorem ReplyType.resultReads_of_rows {type : ReplyType} {RowReads : Json → Prop}
    (h : type.rowReads? common readers = some RowReads) :
    type.ResultReads common readers json ↔
      FieldsRead common readers json type.fields ∧
        json.HoldsList ∧ ∀ row ∈ json.rows, RowReads row := by
  simp [ResultReads, h]

theorem ReplyType.resultReads_of_none {type : ReplyType}
    (h : type.rowReads? common readers = none) :
    type.ResultReads common readers json ↔ FieldsRead common readers json type.fields := by
  simp [ResultReads, h]

/-- Fields, and then a list of rows. -/
theorem succeeds_fields_list_iff {element : Json → Except Fault α}
    {next : List α → Except Fault β} {RowReads : Json → Prop}
    (helement : ∀ row, Succeeds (element row) ↔ RowReads row)
    (hnext : ∀ rows, Succeeds (next rows)) :
    Succeeds (readList element json >>= next) ↔
      FieldsRead common readers json [] ∧ json.HoldsList ∧ ∀ row ∈ json.rows, RowReads row := by
  rw [and_iff_right fieldsRead_nil]
  exact succeeds_list_iff helement hnext

/-- **When results are decoded.**  A result is decoded if and only if it holds what its type
    asks for. -/
theorem ReplyType.succeeds_ofResult_iff (type : ReplyType) :
    Succeeds (type.ofResult common readers json) ↔ type.ResultReads common readers json := by
  cases type with
  | Candles =>
      rw [resultReads_of_rows rfl]
      refine succeeds_reading_and rfl fun symbol => succeeds_reading_and rfl fun category => ?_
      exact succeeds_fields_list_iff (fun _ => succeeds_candle_iff) fun _ => succeeds_pure _
  | Instruments =>
      rw [resultReads_of_rows rfl]
      refine succeeds_reading_and rfl fun category => succeeds_reading_and rfl fun cursor => ?_
      exact succeeds_fields_list_iff (fun _ => succeeds_instrument_iff) fun _ => succeeds_pure _
  | WalletBalance =>
      rw [resultReads_of_rows rfl]
      exact succeeds_fields_list_iff (fun _ => succeeds_account_iff) fun _ => succeeds_pure _
  | FundingRates =>
      rw [resultReads_of_rows rfl]
      refine succeeds_reading_and rfl fun category => ?_
      exact succeeds_fields_list_iff (fun _ => succeeds_fundingRate_iff) fun _ => succeeds_pure _
  | Positions =>
      rw [resultReads_of_rows rfl]
      refine succeeds_reading_and rfl fun category => ?_
      exact succeeds_fields_list_iff (fun _ => succeeds_position_iff) fun _ => succeeds_pure _
  | OrdersResponse =>
      rw [resultReads_of_rows rfl]
      refine succeeds_reading_and rfl fun category => ?_
      exact succeeds_fields_list_iff (fun _ => succeeds_order_iff) fun _ => succeeds_pure _
  | Tickers =>
      rw [resultReads_of_rows rfl]
      refine succeeds_reading_and rfl fun category => ?_
      exact succeeds_fields_list_iff (fun _ => succeeds_ticker_iff) fun _ => succeeds_pure _
  | OrderId =>
      rw [resultReads_of_none rfl]
      refine succeeds_reading rfl fun orderId => succeeds_reading rfl fun orderLinkId => ?_
      exact iff_of_true (succeeds_pure _) fieldsRead_nil
  | ServerTime =>
      rw [resultReads_of_none rfl]
      refine succeeds_reading rfl fun timeSecond => succeeds_reading rfl fun timeNano => ?_
      exact iff_of_true (succeeds_pure _) fieldsRead_nil
  | Response =>
      rw [resultReads_of_none rfl]
      exact iff_of_true (succeeds_pure _) fieldsRead_nil

end Reading

end BybitApi
