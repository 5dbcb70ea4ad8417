import BybitApi.MarketReplies
import BybitApi.ReplyErrors

/-!
# What a reply says

A reply says what it holds by the names of its members: in any order, among any others,
and an absent one says its default.  `replies_as_said` is the format of all replies in one
statement: what a reply says is what the client makes of it, and there is nothing else
that it says.
-/

namespace BybitApi

open Decoding

/-! ### Fields -/

/-- What a field holds. -/
def Field.Value : Field → Type
  | .string _ => String
  | .number _ => Double
  | .bool _ _ => Bool
  | .int _ | .int64 _ | .stringAsInt64 _ _ | .stringAsInt _ => Int
  | @Field.enum α _ _ _ => α
  | .decimal _ => Rat

def Field.key : Field → String
  | .string key | .number key | .bool key _ | .int key | .int64 key | .enum _ key _
  | .stringAsInt64 key _ | .stringAsInt key | .decimal key => key

/-- What a field holds that is absent. -/
def Field.absent : (field : Field) → field.Value
  | .string _ => ""
  | .number _ => (0 : Double)
  | .bool _ current => current
  | .int _ | .int64 _ | .stringAsInt _ => (0 : Int)
  | .stringAsInt64 _ default => default.getD 0
  | .enum _ _ current => current
  | .decimal _ => (0 : Rat)

/-- An integer that is written as a text. -/
def Json.ofInteger (n : Int) : Json := .string (toString n)

/-- How a value is written.  Amounts are texts; a position without a size may have an empty
    one. -/
def Field.Writes : (field : Field) → field.Value → Json → Prop
  | .string _, value, json => json = .string value
  | .number _, value, json => ∃ digits, json = .string digits ∧ Decimal.value? digits = some value
  | .bool _ _, value, json => json = .bool value
  | .int _, value, json => json = .integer value ∧ IsInt32 value
  | .int64 _, value, json => json = .integer value ∧ IsInt64 value
  | .enum enumCast? _ _, value, json => ∃ name, json = .string name ∧ enumCast? name = some value
  | .stringAsInt64 _ _, value, json => json = .ofInteger value ∧ IsInt64 value
  | .stringAsInt _, value, json => json = .ofInteger value ∧ IsInt32 value
  | .decimal _, value, json =>
      ∃ digits, json = .string digits ∧
        if digits ≠ "" then Decimal.value? digits = some value else value = (0 : Rat)

/-- An object says that a field has this value. -/
def Field.Says (json : Json) (field : Field) (value : field.Value) : Prop :=
  (∃ written, json.find? field.key = some written ∧ field.Writes value written) ∨
    json.find? field.key = none ∧ value = field.absent

/-- A field with its value. -/
abbrev Entry : Type 1 := (field : Field) × field.Value

/-- An object says all these. -/
def Says (json : Json) (entries : List Entry) : Prop :=
  ∀ entry ∈ entries, entry.1.Says json entry.2

/-- The reader that a field is read with. -/
def Field.read (common : VkCommon) (readers : ReplyReaders) (json : Json) :
    (field : Field) → Except Fault field.Value
  | .string key => common.readString json key ""
  | .number key => common.readStringAsDouble json key 0
  | .bool key current => common.readBool json key current
  | .int key => readers.readInt json key 0
  | .int64 key => common.readInt64 json key 0
  | .enum enumCast? key current => readers.readMagicEnum enumCast? json key current
  | .stringAsInt64 key default => readers.readStringAsInt64 json key default
  | .stringAsInt key => readers.readStringAsInt json key 0
  | .decimal key => readDecimalValue readers.positions json key 0

/-- The readers read what is documented of them, and leave their targets alone where there
    is nothing to read. -/
structure ReadsReplies (common : VkCommon) (readers : ReplyReaders) : Prop extends
    ReadsMarket common readers where
  bools : common.ReadsBools
  decimals : ∀ {digits value}, Decimal.value? digits = some value →
    readers.assignDecimal digits = .ok value
  textInts : ∀ {json key n} (default : Int),
    json.find? key = some (.string (toString (n : Int))) → IsInt32 n →
      readers.readStringAsInt json key default = .ok n
  absentBool : ∀ {json key} (current : Bool), json.find? key = none →
    common.readBool json key current = .ok current
  absentInt64 : ∀ {json key} (current : Int), json.find? key = none →
    common.readInt64 json key current = .ok current
  absentInt : readers.LeavesAbsent
  absentEnum : ∀ {α : Type} (enumCast? : String → Option α) {json key} (current : α),
    json.find? key = none → readers.readMagicEnum enumCast? json key current = .ok current
  absentTextInt64 : ∀ {json key} (default : Option Int), json.find? key = none →
    readers.readStringAsInt64 json key default = .ok (default.getD 0)
  absentTextInt : ∀ {json key} (default : Int), json.find? key = none →
    readers.readStringAsInt json key default = .ok default

theorem documented_readsReplies :
    ReadsReplies (.documented sizeNumber) (.documented sizeNumber) where
  toReadsMarket := documented_readsMarket
  bools := VkCommon.documented_readsBools _
  decimals h := by simp [ReplyReaders.documented, PositionReaders.documented, h]
  textInts default h _ := by simp [ReplyReaders.documented, readStringAsInteger, h]
  absentBool current h := by simp [VkCommon.documented, h]
  absentInt64 current h := by simp [VkCommon.documented, h]
  absentInt := ReplyReaders.documented_leavesAbsent _
  absentEnum _ _ _ _ h := by simp [ReplyReaders.documented, readMagicEnum, h]
  absentTextInt64 default h := by simp [ReplyReaders.documented, readStringAsInteger, h]
  absentTextInt default h := by simp [ReplyReaders.documented, readStringAsInteger, h]

variable {text : JsonText} {common : VkCommon} {readers : ReplyReaders} {json : Json}

/-- A field is read as it is said. -/
theorem Field.read_of_said (hreads : ReadsReplies common readers) {field : Field}
    {value : field.Value} (h : field.Says json value) :
    field.read common readers json = .ok value := by
  rcases h with ⟨written, hfind, hwrites⟩ | ⟨hfind, rfl⟩
  · cases field with
    | string key =>
        obtain rfl := hwrites
        exact hreads.strings.present "" hfind
    | number key =>
        obtain ⟨digits, rfl, hvalue⟩ := hwrites
        exact hreads.numbers.present 0 hfind hvalue
    | bool key current =>
        obtain rfl := hwrites
        exact hreads.bools current hfind
    | int key =>
        obtain ⟨rfl, hlow, hhigh⟩ := hwrites
        exact hreads.ints 0 hfind hlow hhigh
    | int64 key =>
        obtain ⟨rfl, hint⟩ := hwrites
        exact hreads.integers 0 hfind hint
    | enum enumCast? key current =>
        obtain ⟨name, rfl, hcast⟩ := hwrites
        exact hreads.enums enumCast? current hfind hcast
    | stringAsInt64 key default =>
        obtain ⟨rfl, hint⟩ := hwrites
        exact hreads.textIntegers default hfind hint
    | stringAsInt key =>
        obtain ⟨rfl, hint⟩ := hwrites
        exact hreads.textInts 0 hfind hint
    | decimal key =>
        obtain ⟨digits, rfl, hvalue⟩ := hwrites
        have hread : json.find? key = some (.string digits) := hfind
        simp only [Field.read, readDecimalValue, hread]
        by_cases hdigits : digits = ""
        · rw [if_neg (not_not_intro hdigits)] at hvalue ⊢
          obtain rfl := hvalue
          rfl
        · rw [if_pos hdigits] at hvalue ⊢
          exact hreads.decimals hvalue
  · cases field with
    | string key => exact hreads.strings.absent "" hfind
    | number key => exact hreads.numbers.absent 0 hfind
    | bool key current => exact hreads.absentBool current hfind
    | int key => exact hreads.absentInt 0 hfind
    | int64 key => exact hreads.absentInt64 0 hfind
    | enum enumCast? key current => exact hreads.absentEnum enumCast? current hfind
    | stringAsInt64 key default => exact hreads.absentTextInt64 default hfind
    | stringAsInt key => exact hreads.absentTextInt 0 hfind
    | decimal key =>
        have hread : json.find? key = none := hfind
        simp only [Field.read, readDecimalValue, hread]
        rfl

/-- One field is read as it is said, then the others. -/
theorem decodes_reading (hreads : ReadsReplies common readers) {β : Type} {field : Field}
    {value : field.Value} {entries : List Entry} {reading : Except Fault field.Value}
    {next : field.Value → Except Fault β} {result : β}
    (hreading : field.read common readers json = reading)
    (hnext : Says json entries → next value = .ok result) :
    Says json (⟨field, value⟩ :: entries) → reading >>= next = .ok result := by
  intro hsaid
  obtain ⟨hfield, hentries⟩ := List.forall_mem_cons.mp hsaid
  have hvalue : reading = .ok value := hreading ▸ Field.read_of_said hreads hfield
  rw [hvalue]
  exact hnext hentries

/-! ### Rows -/

def FundingRate.entries (rate : FundingRate) : List Entry :=
  [⟨.string "symbol", rate.symbol⟩, ⟨.number "fundingRate", rate.fundingRate⟩,
   ⟨.stringAsInt64 "fundingRateTimestamp" (some 0), rate.fundingRateTimestamp⟩]

def Coin.entries (coin : Coin) : List Entry :=
  [⟨.number "accruedInterest", coin.accruedInterest⟩,
   ⟨.number "availableToBorrow", coin.availableToBorrow⟩,
   ⟨.number "availableToWithdraw", coin.availableToWithdraw⟩, ⟨.number "bonus", coin.bonus⟩,
   ⟨.number "borrowAmount", coin.borrowAmount⟩, ⟨.string "coin", coin.coin⟩,
   ⟨.bool "collateralSwitch" true, coin.collateralSwitch⟩,
   ⟨.number "cumRealisedPnl", coin.cumRealisedPnl⟩, ⟨.number "equity", coin.equity⟩,
   ⟨.number "locked", coin.locked⟩, ⟨.bool "marginCollateral" true, coin.marginCollateral⟩,
   ⟨.number "totalOrderIM", coin.totalOrderIM⟩,
   ⟨.number "totalPositionIM", coin.totalPositionIM⟩,
   ⟨.number "totalPositionMM", coin.totalPositionMM⟩,
   ⟨.number "unrealisedPnl", coin.unrealisedPnl⟩, ⟨.number "usdValue", coin.usdValue⟩,
   ⟨.number "walletBalance", coin.walletBalance⟩]

/-- The fields of an account besides its coins. -/
def AccountBalance.entries (balance : AccountBalance) : List Entry :=
  [⟨.number "accountIMRate", balance.accountIMRate⟩, ⟨.number "accountLTV", balance.accountLTV⟩,
   ⟨.number "accountMMRate", balance.accountMMRate⟩,
   ⟨.enum AccountType.enumCast? "accountType" .UNIFIED, balance.accountType⟩,
   ⟨.number "totalAvailableBalance", balance.totalAvailableBalance⟩,
   ⟨.number "totalEquity", balance.totalEquity⟩,
   ⟨.number "totalInitialMargin", balance.totalInitialMargin⟩,
   ⟨.number "totalMaintenanceMargin", balance.totalMaintenanceMargin⟩,
   ⟨.number "totalMarginBalance", balance.totalMarginBalance⟩,
   ⟨.number "totalPerpUPL", balance.totalPerpUPL⟩,
   ⟨.number "totalWalletBalance", balance.totalWalletBalance⟩]

/-- The fields of a position; its size is said twice, by the same member. -/
def PositionRecord.entries (record : PositionRecord) : List Entry :=
  [⟨.int "positionIdx", record.position.positionIdx⟩, ⟨.int "riskId", record.riskId⟩,
   ⟨.number "riskLimitValue", record.riskLimitValue⟩,
   ⟨.string "symbol", record.position.symbol⟩,
   ⟨.enum Side.enumCast? "side" .Buy, record.position.side⟩,
   ⟨.decimal "size", record.position.size⟩, ⟨.number "size", record.position.size⟩,
   ⟨.number "avgPrice", record.avgPrice⟩, ⟨.number "positionValue", record.positionValue⟩,
   ⟨.int "tradeMode", record.tradeMode⟩,
   ⟨.enum PositionStatus.enumCast? "positionStatus" .Normal, record.positionStatus⟩,
   ⟨.int "autoAddMargin", record.autoAddMargin⟩,
   ⟨.int "adlRankIndicator", record.adlRankIndicator⟩, ⟨.number "leverage", record.leverage⟩,
   ⟨.number "positionBalance", record.positionBalance⟩, ⟨.number "markPrice", record.markPrice⟩,
   ⟨.number "liqPrice", record.liqPrice⟩, ⟨.number "bustPrice", record.bustPrice⟩,
   ⟨.number "positionMM", record.positionMM⟩, ⟨.number "positionIM", record.positionIM⟩,
   ⟨.enum TpSlMode.enumCast? "tpSlMode" .Full, record.tpSlMode⟩,
   ⟨.number "stopLoss", record.stopLoss⟩, ⟨.number "takeProfit", record.takeProfit⟩,
   ⟨.number "trailingStop", record.trailingStop⟩, ⟨.number "unrealisedPnl", record.unrealisedPnl⟩,
   ⟨.number "cumRealisedPnl", record.cumRealisedPnl⟩,
   ⟨.bool "isReduceOnly" false, record.isReduceOnly⟩,
   ⟨.stringAsInt64 "createdTime" none, record.createdTime⟩,
   ⟨.stringAsInt64 "updatedTime" none, record.updatedTime⟩, ⟨.int64 "seq", record.seq⟩,
   ⟨.string "mmrSysUpdateTime", record.mmrSysUpdateTime⟩,
   ⟨.string "leverageSysUpdatedTime", record.leverageSysUpdatedTime⟩]

def PriceFilter.entries (filter : PriceFilter) : List Entry :=
  [⟨.number "minPrice", filter.minPrice⟩, ⟨.number "maxPrice", filter.maxPrice⟩,
   ⟨.number "tickSize", filter.tickSize⟩]

def LotSizeFilter.entries (filter : LotSizeFilter) : List Entry :=
  [⟨.number "maxOrderQty", filter.maxOrderQty⟩, ⟨.number "minOrderQty", filter.minOrderQty⟩,
   ⟨.number "qtyStep", filter.qtyStep⟩,
   ⟨.number "postOnlyMaxTradingQty", filter.postOnlyMaxTradingQty⟩]

def OrderResponse.entries (order : OrderResponse) : List Entry :=
  [⟨.string "orderId", order.orderId⟩, ⟨.string "orderLinkId", order.orderLinkId⟩,
   ⟨.string "symbol", order.symbol⟩, ⟨.enum Side.enumCast? "side" .Buy, order.side⟩,
   ⟨.number "price", order.price⟩, ⟨.number "qty", order.qty⟩,
   ⟨.int64 "positionIdx", order.positionIdx⟩,
   ⟨.enum OrderStatus.enumCast? "orderStatus" .Created, order.orderStatus⟩,
   ⟨.string "rejectReason", order.rejectReason⟩, ⟨.number "avgPrice", order.avgPrice⟩,
   ⟨.number "cumExecQty", order.cumExecQty⟩, ⟨.number "cumExecValue", order.cumExecValue⟩,
   ⟨.number "cumExecFee", order.cumExecFee⟩,
   ⟨.enum TimeInForce.enumCast? "timeInForce" .GTC, order.timeInForce⟩,
   ⟨.enum OrderType.enumCast? "orderType" .Market, order.orderType⟩,
   ⟨.bool "reduceOnly" false, order.reduceOnly⟩,
   ⟨.bool "closeOnTrigger" false, order.closeOnTrigger⟩,
   ⟨.number "lastPriceOnCreated", order.lastPriceOnCreated⟩,
   ⟨.string "createdTime", order.createdTime⟩, ⟨.string "updatedTime", order.updatedTime⟩,
   ⟨.number "takeProfit", order.takeProfit⟩, ⟨.number "stopLoss", order.stopLoss⟩,
   ⟨.enum TriggerPriceType.enumCast? "tpTriggerBy" .LastPrice, order.tpTriggerBy⟩,
   ⟨.enum TriggerPriceType.enumCast? "slTriggerBy" .LastPrice, order.slTriggerBy⟩]

def Ticker.entries (ticker : Ticker) : List Entry :=
  [⟨.string "symbol", ticker.symbol⟩, ⟨.number "lastPrice", ticker.lastPrice⟩,
   ⟨.number "indexPrice", ticker.indexPrice⟩, ⟨.number "markPrice", ticker.markPrice⟩,
   ⟨.number "prevPrice24h", ticker.prevPrice24h⟩, ⟨.number "price24hPcnt", ticker.price24hPcnt⟩,
   ⟨.number "highPrice24h", ticker.highPrice24h⟩, ⟨.number "prevPrice1h", ticker.prevPrice1h⟩,
   ⟨.stringAsInt64 "openInterest" (some 0), ticker.openInterest⟩,
   ⟨.number "openInterestValue", ticker.openInterestValue⟩,
   ⟨.number "turnover24h", ticker.turnover24h⟩, ⟨.number "volume24h", ticker.volume24h⟩,
   ⟨.number "fundingRate", ticker.fundingRate⟩,
   ⟨.stringAsInt64 "nextFundingTime" (some 0), ticker.nextFundingTime⟩,
   ⟨.number "ask1Size", ticker.ask1Size⟩, ⟨.number "bid1Price", ticker.bid1Price⟩,
   ⟨.number "ask1Price", ticker.ask1Price⟩, ⟨.number "bid1Size", ticker.bid1Size⟩]

theorem fundingRate_of_said (hreads : ReadsReplies common readers) {rate : FundingRate} :
    Says json rate.entries → FundingRate.fromJson common readers json = .ok rate := by
  unfold FundingRate.fromJson FundingRate.entries
  repeat' refine decodes_reading hreads rfl ?_
  exact fun _ => rfl

theorem coin_of_said (hreads : ReadsReplies common readers) {coin : Coin} :
    Says json coin.entries → Coin.fromJson common json = .ok coin := by
  unfold Coin.fromJson Coin.entries
  repeat' refine decodes_reading hreads rfl ?_
  exact fun _ => rfl

theorem balanceFields_of_said (hreads : ReadsReplies common readers) {balance : AccountBalance} :
    Says json balance.entries →
      AccountBalance.readFields common readers json = .ok { balance with coins := [] } := by
  unfold AccountBalance.readFields AccountBalance.entries
  repeat' refine decodes_reading hreads rfl ?_
  exact fun _ => rfl

theorem priceFilter_of_said (hreads : ReadsReplies common readers) {filter : PriceFilter} :
    Says json filter.entries → PriceFilter.fromJson common json = .ok filter := by
  unfold PriceFilter.fromJson PriceFilter.entries
  repeat' refine decodes_reading hreads rfl ?_
  exact fun _ => rfl

theorem lotSizeFilter_of_said (hreads : ReadsReplies common readers) {filter : LotSizeFilter} :
    Says json filter.entries → LotSizeFilter.fromJson common json = .ok filter := by
  unfold LotSizeFilter.fromJson LotSizeFilter.entries
  repeat' refine decodes_reading hreads rfl ?_
  exact fun _ => rfl

theorem order_of_said (hreads : ReadsReplies common readers) {order : OrderResponse} :
    Says json order.entries → OrderResponse.fromJson common readers json = .ok order := by
  unfold OrderResponse.fromJson OrderResponse.entries
  repeat' refine decodes_reading hreads rfl ?_
  exact fun _ => rfl

theorem ticker_of_said (hreads : ReadsReplies common readers) {ticker : Ticker} :
    Says json ticker.entries → Ticker.fromJson common readers json = .ok ticker := by
  unfold Ticker.fromJson Ticker.entries
  repeat' refine decodes_reading hreads rfl ?_
  exact fun _ => rfl

/-- The flag that tells whether the size is zero is not said; it follows. -/
theorem position_of_said (hreads : ReadsReplies common readers) {record : PositionRecord}
    (hzero : record.position.zeroSize = if record.position.size ≠ 0 then false else true) :
    Says json record.entries → PositionRecord.fromJson common readers json = .ok record := by
  obtain ⟨⟨positionIdx, symbol, side, size, zeroSize⟩, _⟩ := record
  have hflag : zeroSize = if size ≠ 0 then false else true := hzero
  subst hflag
  unfold PositionRecord.fromJson PositionRecord.entries
  repeat' refine decodes_reading hreads rfl ?_
  exact fun _ => rfl

/-- A row of a candle says its time and its amounts in the order of its columns. -/
def Candle.SaidBy (row : Json) (candle : Candle) : Prop :=
  ∃ items, row = .array items ∧
    (∃ digits, items[0]? = some (.string digits) ∧ stoll digits = .ok candle.startTime) ∧
    ∀ i amount, candle.amounts[i]? = some amount →
      ∃ digits, items[i + 1]? = some (.string digits) ∧ Decimal.value? digits = some amount

/-- An account says its coins as well. -/
def AccountBalance.SaidBy (row : Json) (balance : AccountBalance) : Prop :=
  Says row balance.entries ∧ row.contains "coin" = true ∧
    List.Forall₂ (fun coinRow coin => Says coinRow (Coin.entries coin))
      (row.memberOrNull "coin").items balance.coins

/-- A position says all but the flag, which is for its size. -/
def PositionRecord.SaidBy (row : Json) (record : PositionRecord) : Prop :=
  Says row record.entries ∧
    record.position.zeroSize = if record.position.size ≠ 0 then false else true

/-- The fields of an instrument that are not kept have to be read all the same. -/
def Instrument.SaidBy (common : VkCommon) (readers : ReplyReaders) (row : Json)
    (instrument : Instrument) : Prop :=
  Instrument.HeadReads common readers row ∧ Says row [⟨.string "symbol", instrument.symbol⟩] ∧
    (row.contains "priceFilter" = true ∧
      Says (row.memberOrNull "priceFilter") instrument.priceFilter.entries) ∧
    row.contains "lotSizeFilter" = true ∧
      Says (row.memberOrNull "lotSizeFilter") instrument.lotSizeFilter.entries

/-- A column is read as it is said. -/
theorem column_of_said {α : Type} {convert : String → Except Fault α} {items : List Json}
    {i : Nat} {digits : String} {value : α} (hitem : items[i]? = some (.string digits))
    (hconvert : convert digits = .ok value) : column convert (.array items) i = .ok value := by
  simp only [column, Json.indexAt, hitem]
  exact hconvert

theorem candle_of_said (hreads : ReadsMarket common readers) {row : Json} {candle : Candle}
    (h : candle.SaidBy row) : Candle.fromJson readers row = .ok candle := by
  obtain ⟨items, rfl, ⟨digits, hitem, htime⟩, hamounts⟩ := h
  have hstart : stollOrThrow digits = .ok candle.startTime := by rw [stollOrThrow, htime]
  have hcolumn : ∀ i amount, candle.amounts[i]? = some amount →
      column readers.stod (.array items) (i + 1) = .ok amount := by
    intro i amount hamount
    obtain ⟨digits, hitem, hvalue⟩ := hamounts i amount hamount
    exact column_of_said hitem (hreads.stod hvalue)
  simp only [Candle.fromJson, bind_eq_ok]
  exact ⟨_, column_of_said hitem hstart, _, hcolumn 0 _ rfl, _, hcolumn 1 _ rfl, _,
    hcolumn 2 _ rfl, _, hcolumn 3 _ rfl, _, hcolumn 4 _ rfl, _, hcolumn 5 _ rfl, rfl⟩

/-- Rows are decoded one after the other. -/
theorem mapM_of_forall₂ {α β : Type} {element : α → Except Fault β} {rows : List α}
    {values : List β} (h : List.Forall₂ (fun row value => element row = .ok value) rows values) :
    rows.mapM element = .ok values := by
  induction h with
  | nil => rfl
  | cons hrow _ ih =>
      rw [mapM_cons_eq, hrow, ih]
      rfl

theorem account_of_said (hreads : ReadsReplies common readers) {row : Json}
    {balance : AccountBalance} (h : balance.SaidBy row) :
    AccountBalance.fromJson common readers row = .ok balance := by
  obtain ⟨hsaid, hcontains, hcoins⟩ := h
  have hlist : (row.memberOrNull "coin").items.mapM (Coin.fromJson common) = .ok balance.coins :=
    mapM_of_forall₂ (hcoins.imp fun _ _ => coin_of_said hreads)
  simp only [AccountBalance.fromJson, bind_eq_ok]
  exact ⟨_, balanceFields_of_said hreads hsaid, _, Json.index_of_contains hcontains, _, hlist, rfl⟩

/-- What is read first of an instrument is what is kept of its head. -/
theorem symbol_of_readHead {symbol : String}
    (h : Instrument.readHead common readers json = .ok symbol) :
    common.readString json "symbol" "" = .ok symbol := by
  obtain ⟨first, hfirst, h⟩ := bind_eq_ok.mp h
  iterate 11 obtain ⟨_, -, h⟩ := bind_eq_ok.mp h
  have hsame : first = symbol := by
    by_cases hleverage : json.contains "leverageFilter" = true
    · simp only [if_pos hleverage, bind_eq_ok] at h
      obtain ⟨_, -, _, -, h⟩ := h
      exact Except.ok.inj h
    · simp only [if_neg hleverage] at h
      exact Except.ok.inj h
  rw [hfirst, hsame]

theorem instrument_of_said (hreads : ReadsReplies common readers) {row : Json}
    {instrument : Instrument} (h : instrument.SaidBy common readers row) :
    Instrument.fromJson common readers.instruments row = .ok instrument := by
  obtain ⟨hhead, hsymbol, ⟨hprice, hpriceFilter⟩, hlot, hlotSizeFilter⟩ := h
  obtain ⟨symbol, hread⟩ := succeeds_instrumentHead_iff.mpr hhead
  have hsaid : common.readString row "symbol" "" = .ok instrument.symbol :=
    Field.read_of_said hreads (hsymbol _ List.mem_cons_self)
  obtain rfl : instrument.symbol = symbol :=
    Except.ok.inj (hsaid.symm.trans (symbol_of_readHead hread))
  simp only [Instrument.fromJson_eq, bind_eq_ok]
  exact ⟨_, hread, _, Json.index_of_contains hprice, _, priceFilter_of_said hreads hpriceFilter, _,
    Json.index_of_contains hlot, _, lotSizeFilter_of_said hreads hlotSizeFilter, rfl⟩

/-! ### Results -/

/-- The rows under `"list"` say these, in this order; without a list there are none. -/
def ListSays {α : Type} (saidBy : Json → α → Prop) (result : Json) (values : List α) : Prop :=
  result.HoldsList ∧ List.Forall₂ saidBy result.rows values

theorem readList_of_said {α : Type} {saidBy : Json → α → Prop} {element : Json → Except Fault α}
    {result : Json} {values : List α} (h : ListSays saidBy result values)
    (helement : ∀ row value, saidBy row value → element row = .ok value) :
    readList element result = .ok values := by
  obtain ⟨hlist, hrows⟩ := h
  rw [readList, Json.indexOrNull_of_holdsList hlist]
  exact mapM_of_forall₂ (hrows.imp helement)

/-- The result of a reply says this. -/
def ReplyType.Says (common : VkCommon) (readers : ReplyReaders) (result : Json) :
    (type : ReplyType) → type.Payload → Prop
  | .Candles, (candles : BybitApi.Candles) =>
      BybitApi.Says result [⟨.string "symbol", candles.symbol⟩, ⟨categoryField, candles.category⟩] ∧
        ListSays (fun row candle => Candle.SaidBy row candle) result candles.candles
  | .FundingRates, (rates : BybitApi.FundingRates) =>
      BybitApi.Says result [⟨categoryField, rates.category⟩] ∧
        ListSays (fun row rate => BybitApi.Says row rate.entries) result rates.fundingRates
  | .Instruments, (page : BybitApi.Instruments) =>
      (∃ category : Category, BybitApi.Says result
        [⟨categoryField, category⟩, ⟨.string "nextPageCursor", page.nextPageCursor⟩]) ∧
        ListSays (fun row instrument => Instrument.SaidBy common readers row instrument) result
          page.instruments
  | .WalletBalance, (wallet : BybitApi.WalletBalance) =>
      ListSays (fun row balance => AccountBalance.SaidBy row balance) result wallet.balances
  | .Positions, (positions : BybitApi.Positions) =>
      BybitApi.Says result [⟨categoryField, positions.category⟩] ∧
        ListSays (fun row record => PositionRecord.SaidBy row record) result positions.positions
  | .OrdersResponse, (orders : BybitApi.OrdersResponse) =>
      BybitApi.Says result [⟨categoryField, orders.category⟩] ∧
        ListSays (fun row order => BybitApi.Says row order.entries) result orders.orders
  | .Tickers, (tickers : BybitApi.Tickers) =>
      BybitApi.Says result [⟨categoryField, tickers.category⟩] ∧
        ListSays (fun row ticker => BybitApi.Says row ticker.entries) result tickers.tickers
  | .OrderId, (id : BybitApi.OrderId) =>
      BybitApi.Says result
        [⟨.string "orderId", id.orderId⟩, ⟨.string "orderLinkId", id.orderLinkId⟩]
  | .ServerTime, (time : BybitApi.ServerTime) =>
      BybitApi.Says result [⟨.stringAsInt64 "timeSecond" none, time.timeSecond⟩,
        ⟨.stringAsInt64 "timeNano" none, time.timeNano⟩]
  | .Response, _ => True

/-- The envelope of a reply. -/
def Response.SaidBy (json : Json) (envelope : Response) : Prop :=
  Says json [⟨.int "retCode", envelope.retCode⟩, ⟨.string "retMsg", envelope.retMsg⟩,
    ⟨.int64 "time", envelope.time⟩] ∧
  json.memberOrNull "retExtInfo" = envelope.retExtInfo ∧
  json.memberOrNull "result" = envelope.result

theorem payload_of_said (hreads : ReadsReplies common readers) (type : ReplyType) {result : Json}
    {payload : type.Payload} (h : type.Says common readers result payload) :
    type.ofResult common readers result = .ok payload := by
  cases type with
  | Candles =>
      obtain ⟨hfields, hlist⟩ := h
      revert hfields
      refine decodes_reading hreads rfl (decodes_reading hreads rfl fun _ => ?_)
      exact bind_eq_ok.mpr
        ⟨_, readList_of_said hlist fun _ _ => candle_of_said hreads.toReadsMarket, rfl⟩
  | FundingRates =>
      obtain ⟨hfields, hlist⟩ := h
      revert hfields
      refine decodes_reading hreads rfl fun _ => ?_
      exact bind_eq_ok.mpr ⟨_, readList_of_said hlist fun _ _ => fundingRate_of_said hreads, rfl⟩
  | Instruments =>
      obtain ⟨⟨category, hfields⟩, hlist⟩ := h
      revert hfields
      refine decodes_reading hreads rfl (decodes_reading hreads rfl fun _ => ?_)
      exact bind_eq_ok.mpr ⟨_, readList_of_said hlist fun _ _ => instrument_of_said hreads, rfl⟩
  | WalletBalance =>
      exact bind_eq_ok.mpr ⟨_, readList_of_said h fun _ _ => account_of_said hreads, rfl⟩
  | Positions =>
      obtain ⟨hfields, hlist⟩ := h
      revert hfields
      refine decodes_reading hreads rfl fun _ => ?_
      exact bind_eq_ok.mpr ⟨_, readList_of_said hlist fun _ _ h => position_of_said hreads h.2 h.1,
        rfl⟩
  | OrdersResponse =>
      obtain ⟨hfields, hlist⟩ := h
      revert hfields
      refine decodes_reading hreads rfl fun _ => ?_
      exact bind_eq_ok.mpr ⟨_, readList_of_said hlist fun _ _ => order_of_said hreads, rfl⟩
  | Tickers =>
      obtain ⟨hfields, hlist⟩ := h
      revert hfields
      refine decodes_reading hreads rfl fun _ => ?_
      exact bind_eq_ok.mpr ⟨_, readList_of_said hlist fun _ _ => ticker_of_said hreads, rfl⟩
  | OrderId =>
      revert h
      exact decodes_reading hreads rfl (decodes_reading hreads rfl fun _ => rfl)
  | ServerTime =>
      revert h
      exact decodes_reading hreads rfl (decodes_reading hreads rfl fun _ => rfl)
  | Response => rfl

/-- The envelope and the payload of a reply are decoded as they are said. -/
theorem reply_of_said (hreads : ReadsReplies common readers) (type : ReplyType)
    {envelope : Response} {payload : type.Payload} (henvelope : envelope.SaidBy json)
    (hpayload : type.Says common readers envelope.result payload) :
    type.fromJson common readers json = .ok (envelope, payload) := by
  obtain ⟨hfields, hinfo, hresult⟩ := henvelope
  obtain ⟨hcode, hfields⟩ := List.forall_mem_cons.mp hfields
  obtain ⟨hmsg, hfields⟩ := List.forall_mem_cons.mp hfields
  have htime := hfields _ List.mem_cons_self
  have hvalue : type.ofResult common readers (json.memberOrNull "result") = .ok payload :=
    payload_of_said hreads type (hresult ▸ hpayload)
  exact readReply_eq_ok.mpr ⟨Field.read_of_said hreads hcode, Field.read_of_said hreads hmsg,
    Field.read_of_said hreads htime, hinfo, hresult, hvalue⟩

section Source

variable (text : JsonText) (common : VkCommon) (readers : ReplyReaders)

/-- What becomes of a reply that is decoded as the type, with its envelope. -/
def replyWithEnvelope (type : ReplyType) :
    Except String HttpResponse → Except ApiError (Response × type.Payload)
  | .error what => .error (.transport what)
  | .ok response =>
      match checkResponse response with
      | .error e => .error e
      | .ok response =>
          handleBybitResponse text (fun json => do
            let reply ← type.fromJson common readers json
            return (reply.1, reply)) response

/-- The reply says this payload, in this envelope. -/
def ReplySays (type : ReplyType) (reply : Except String HttpResponse) (envelope : Response)
    (payload : type.Payload) : Prop :=
  ∃ response json, reply = .ok response ∧ response.result = 200 ∧
    text.parse response.body = .ok json ∧ envelope.SaidBy json ∧
      type.Says common readers envelope.result payload

end Source

/-- Most callers leave the envelope behind. -/
theorem replyAs_eq (type : ReplyType) (reply : Except String HttpResponse) :
    replyAs text common readers type reply =
      (replyWithEnvelope text common readers type reply).map Prod.snd := by
  cases reply with
  | error what => rfl
  | ok response =>
      simp only [replyAs, replyWithEnvelope]
      cases checkResponse response with
      | error e => rfl
      | ok response =>
          simp only [handleBybitResponse]
          cases text.parse response.body with
          | error fault => rfl
          | ok json =>
              simp only
              cases hdecodes : type.fromJson common readers json with
              | error fault => rfl
              | ok reply =>
                  show (if reply.1.retCode ≠ 0 then _ else _) =
                    Except.map Prod.snd (if reply.1.retCode ≠ 0 then _ else _)
                  split <;> rfl

theorem replyWithEnvelope_of_said (hreads : ReadsReplies common readers) {type : ReplyType}
    {reply : Except String HttpResponse} {envelope : Response} {payload : type.Payload}
    (hsaid : ReplySays text common readers type reply envelope payload) :
    replyWithEnvelope text common readers type reply =
      if envelope.retCode = 0 then .ok (envelope, payload)
      else .error (.api envelope.retCode envelope.retMsg) := by
  obtain ⟨response, json, rfl, hstatus, hparse, henvelope, hpayload⟩ := hsaid
  have hchecked : checkResponse response = .ok response := if_neg (not_not_intro hstatus)
  have hdecodes := reply_of_said hreads type henvelope hpayload
  simp only [replyWithEnvelope, hchecked, handleBybitResponse, hparse, hdecodes]
  show (if envelope.retCode ≠ 0 then _ else _) = _
  by_cases hcode : envelope.retCode = 0
  · rw [if_pos hcode, if_neg (not_not_intro hcode)]
  · rw [if_neg hcode, if_pos hcode]

theorem replyAs_of_said (hreads : ReadsReplies common readers) {type : ReplyType}
    {reply : Except String HttpResponse} {envelope : Response} {payload : type.Payload}
    (hsaid : ReplySays text common readers type reply envelope payload) :
    replyAs text common readers type reply =
      if envelope.retCode = 0 then .ok payload
      else .error (.api envelope.retCode envelope.retMsg) := by
  rw [replyAs_eq, replyWithEnvelope_of_said hreads hsaid]
  split <;> rfl

/-- **Replies are read as they are said.**  Whatever the order of the members and whatever
    else is among them, the client makes of every reply what it says: its payload, or the
    error of the exchange; and a reply says nothing else. -/
theorem replies_as_said (hreads : ReadsReplies common readers) (type : ReplyType)
    {reply : Except String HttpResponse} {envelope : Response} {payload : type.Payload}
    (hsaid : ReplySays text common readers type reply envelope payload) :
    replyAs text common readers type reply =
        (if envelope.retCode = 0 then .ok payload
          else .error (.api envelope.retCode envelope.retMsg)) ∧
      ∀ (otherEnvelope : Response) (other : type.Payload),
        ReplySays text common readers type reply otherEnvelope other →
          otherEnvelope = envelope ∧ other = payload := by
  refine ⟨replyAs_of_said hreads hsaid, ?_⟩
  intro otherEnvelope other hother
  obtain ⟨response, json, rfl, -, hparse, henvelope, hpayload⟩ := hsaid
  obtain ⟨_, otherJson, ⟨⟩, -, hotherParse, hotherEnvelope, hotherPayload⟩ := hother
  obtain rfl : otherJson = json := Except.ok.inj (hotherParse.symm.trans hparse)
  have hsame := (reply_of_said hreads type hotherEnvelope hotherPayload).symm.trans
    (reply_of_said hreads type henvelope hpayload)
  exact Prod.ext_iff.mp (Except.ok.inj hsame)

/-! ### A ticker -/

/-- The ticker of a pair that has a rate and two prices. -/
def btcTicker : Ticker :=
  { symbol := "BTCUSDT", lastPrice := 0, indexPrice := 0, markPrice := 0, prevPrice24h := 0
    price24hPcnt := 0, highPrice24h := 0, prevPrice1h := 0, openInterest := 0
    openInterestValue := 0, turnover24h := 0, volume24h := 0, fundingRate := 1 / 100
    nextFundingTime := 28800000, ask1Size := 0, bid1Price := 15 / 2, ask1Price := 8
    bid1Size := 0 }

/-- What the exchange sends of it, in an order of its own and with a member more. -/
def tickerJson : Json :=
  .object
    [("bid1Price", .string "7.50"), ("nextFundingTime", .ofInteger 28800000),
     ("curPreListingPhase", .string ""), ("symbol", .string "BTCUSDT"),
     ("ask1Price", .string "8.00"), ("fundingRate", .string "0.01")]

def tickersJson (retCode : Int) (retMsg : String) (rows : List Json) : Json :=
  .object
    [("result", .object [("list", .array rows), ("category", .string "linear")]),
     ("time", .integer 5), ("retMsg", .string retMsg), ("retCode", .integer retCode)]

def tickerText : String :=
  "\x7b\"bid1Price\":\"7.50\",\"nextFundingTime\":\"28800000\",\"curPreListingPhase\":\"\"," ++
    "\"symbol\":\"BTCUSDT\",\"ask1Price\":\"8.00\",\"fundingRate\":\"0.01\"\x7d"

def tickersBody (retCode : Int) (retMsg : String) (rows : String) : String :=
  "\x7b\"result\":\x7b\"list\":[" ++ rows ++ "],\"category\":\"linear\"\x7d,\"time\":5," ++
    "\"retMsg\":\"" ++ retMsg ++ "\",\"retCode\":" ++ toString retCode ++ "\x7d"

/-- The replies with the ticker, and to a symbol that is not listed: code, message, and rows
    with their text. -/
def tickersReplies : List (Int × String × String × List Json) :=
  [(0, "OK", tickerText, [tickerJson]), (10001, "params error", "", [])]

def tickersText : JsonText :=
  documentsText (tickersReplies.map fun reply =>
    (tickersBody reply.1 reply.2.1 reply.2.2.1, tickersJson reply.1 reply.2.1 reply.2.2.2))

theorem tickersText_parse {retCode : Int} {retMsg rowsText : String} {rows : List Json}
    (h : (retCode, retMsg, rowsText, rows) ∈ tickersReplies) :
    tickersText.parse (tickersBody retCode retMsg rowsText) =
      .ok (tickersJson retCode retMsg rows) := by
  have hnodup : (tickersReplies.map fun reply =>
      tickersBody reply.1 reply.2.1 reply.2.2.1).Nodup := by decide +kernel
  have hparse := parse_documentsText
    (fun reply : Int × String × String × List Json => tickersBody reply.1 reply.2.1 reply.2.2.1)
    (fun reply => tickersJson reply.1 reply.2.1 reply.2.2.2) hnodup h
  rwa [← tickersText] at hparse

theorem btcTicker_said : Says tickerJson btcTicker.entries := by
  have habsent : ∀ field : Field, tickerJson.find? field.key = none →
      field.Says tickerJson field.absent := fun _ h => .inr ⟨h, rfl⟩
  have hrate : Decimal.value? "0.01" = some btcTicker.fundingRate := by decide +kernel
  have hbid : Decimal.value? "7.50" = some btcTicker.bid1Price := by decide +kernel
  have hask : Decimal.value? "8.00" = some btcTicker.ask1Price := by decide +kernel
  simp only [Says, Ticker.entries, List.forall_mem_cons]
  refine ⟨.inl ⟨_, rfl, rfl⟩, habsent _ rfl, habsent _ rfl, habsent _ rfl, habsent _ rfl,
    habsent _ rfl, habsent _ rfl, habsent _ rfl, habsent _ rfl, habsent _ rfl, habsent _ rfl,
    habsent _ rfl, .inl ⟨_, rfl, _, rfl, hrate⟩, .inl ⟨_, rfl, rfl, by decide⟩,
    habsent _ rfl, .inl ⟨_, rfl, _, rfl, hbid⟩, .inl ⟨_, rfl, _, rfl, hask⟩, habsent _ rfl, ?_⟩
  simp

/-- The envelope of these replies. -/
def tickersEnvelope (retCode : Int) (retMsg : String) (rows : List Json) : Response where
  retCode := retCode
  retMsg := retMsg
  retExtInfo := .null
  time := 5
  result := .object [("list", .array rows), ("category", .string "linear")]

theorem tickersEnvelope_said {retCode : Int} (hcode : IsInt32 retCode) (retMsg : String)
    (rows : List Json) :
    (tickersEnvelope retCode retMsg rows).SaidBy (tickersJson retCode retMsg rows) := by
  refine ⟨?_, rfl, rfl⟩
  simp only [Says, List.forall_mem_cons]
  have htime : IsInt64 5 := by decide
  refine ⟨.inl ⟨_, rfl, rfl, hcode⟩, .inl ⟨_, rfl, rfl⟩, .inl ⟨_, rfl, rfl, htime⟩, ?_⟩
  simp

theorem tickers_said {rows : List Json} {tickers : List Ticker}
    (h : List.Forall₂ (fun row ticker => Says row (Ticker.entries ticker)) rows tickers)
    (common : VkCommon) (readers : ReplyReaders) (retCode : Int) (retMsg : String) :
    ReplyType.Tickers.Says common readers (tickersEnvelope retCode retMsg rows).result
      ({ category := .linear, tickers } : Tickers) := by
  refine ⟨?_, .inr rfl, h⟩
  intro entry hentry
  obtain rfl := List.mem_singleton.mp hentry
  exact .inl ⟨_, rfl, _, rfl, Category.enumCast?_enumName .linear⟩

theorem tickersReply_said {retCode : Int} {retMsg rowsText : String} {rows : List Json}
    {tickers : List Ticker} (hmem : (retCode, retMsg, rowsText, rows) ∈ tickersReplies)
    (hcode : IsInt32 retCode)
    (hrows : List.Forall₂ (fun row ticker => Says row (Ticker.entries ticker)) rows tickers) :
    ReplySays tickersText (.documented sizeNumber) (.documented sizeNumber) .Tickers
      (.ok (answer (tickersBody retCode retMsg rowsText))) (tickersEnvelope retCode retMsg rows)
      ({ category := .linear, tickers } : Tickers) :=
  ⟨_, _, rfl, rfl, tickersText_parse hmem, tickersEnvelope_said hcode retMsg rows,
    tickers_said hrows _ _ retCode retMsg⟩

theorem btcReply_said :
    ReplySays tickersText (.documented sizeNumber) (.documented sizeNumber) .Tickers
      (.ok (answer (tickersBody 0 "OK" tickerText))) (tickersEnvelope 0 "OK" [tickerJson])
      ({ category := .linear, tickers := [btcTicker] } : Tickers) :=
  tickersReply_said List.mem_cons_self (by decide) (.cons btcTicker_said .nil)

theorem replies_as_said_btcTicker :
    replyAs tickersText (.documented sizeNumber) (.documented sizeNumber) .Tickers
        (.ok (answer (tickersBody 0 "OK" tickerText))) =
      .ok ({ category := .linear, tickers := [btcTicker] } : Tickers) :=
  (replies_as_said documented_readsReplies .Tickers btcReply_said).1.trans (if_pos rfl)

end BybitApi
