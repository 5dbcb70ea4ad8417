import BybitApi.Decoding
import BybitApi.FundingRates
import BybitApi.HistoricalPrices
import BybitApi.InstrumentPages
import BybitApi.Positions

/-!
# The replies of the exchange

Every reply carries an envelope and, under `result`, what was asked for; most of them a
list of rows.  `fromJson` of a reply decodes the envelope and then the rest, all of it,
whatever the return code in the envelope is.
-/

namespace BybitApi

/-- What decoding a reply takes from `vk_cpp_common`, `magic_enum`, Boost and the
    standard library, besides `VkCommon`. -/
structure ReplyReaders where
  readInt : Json → String → Int → Except Fault Int
  /-- `readMagicEnum`, given the `enum_cast` of the enumeration. -/
  readMagicEnum : {α : Type} → (String → Option α) → Json → String → α → Except Fault α
  /-- With the default, if one is passed. -/
  readStringAsInt64 : Json → String → Option Int → Except Fault Int
  readStringAsInt : Json → String → Int → Except Fault Int
  assignDecimal : String → Except Fault Rat
  stod : String → Except Fault Double

namespace ReplyReaders

def instruments (readers : ReplyReaders) : InstrumentReaders where
  readInt := readers.readInt
  readCategory := readers.readMagicEnum Category.enumCast?
  readContractType := readers.readMagicEnum ContractType.enumCast?
  readContractStatus := readers.readMagicEnum ContractStatus.enumCast?
  readStringAsInt64 json key := readers.readStringAsInt64 json key none
  readStringAsInt := readers.readStringAsInt

def positions (readers : ReplyReaders) : PositionReaders where
  readInt := readers.readInt
  readSide := readers.readMagicEnum Side.enumCast?
  assignDecimal := readers.assignDecimal

/-- Readers that do what is documented of them, with `number` for `std::stod`. -/
def documented (number : Json → Option Double) : ReplyReaders where
  readInt := InstrumentReaders.documented.readInt
  readMagicEnum := BybitApi.readMagicEnum
  readStringAsInt64 json key default := readStringAsInteger json key (default.getD 0)
  readStringAsInt := readStringAsInteger
  assignDecimal := PositionReaders.documented.assignDecimal
  stod text :=
    match number (.string text) with
    | some value => .ok value
    | none => .error (.other "stod")

end ReplyReaders

structure Candles where
  category : Category
  symbol : String
  candles : List Candle

structure FundingRates where
  category : Category
  fundingRates : List FundingRate

structure Coin where
  accruedInterest : Double
  availableToBorrow : Double
  availableToWithdraw : Double
  bonus : Double
  borrowAmount : Double
  coin : String
  collateralSwitch : Bool
  cumRealisedPnl : Double
  equity : Double
  locked : Double
  marginCollateral : Bool
  totalOrderIM : Double
  totalPositionIM : Double
  totalPositionMM : Double
  unrealisedPnl : Double
  usdValue : Double
  walletBalance : Double

structure AccountBalance where
  accountIMRate : Double
  accountLTV : Double
  accountMMRate : Double
  accountType : AccountType
  totalAvailableBalance : Double
  totalEquity : Double
  totalInitialMargin : Double
  totalMaintenanceMargin : Double
  totalMarginBalance : Double
  totalPerpUPL : Double
  totalWalletBalance : Double
  coins : List Coin

structure WalletBalance where
  balances : List AccountBalance

structure ServerTime where
  timeSecond : Int
  timeNano : Int

/-- A position with all that the exchange reports of it; closing positions reads the
    part of it that is in `Position`. -/
structure PositionRecord where
  position : Position := {}
  riskId : Int := 0
  riskLimitValue : Double := 0
  avgPrice : Double := 0
  positionValue : Double := 0
  tradeMode : Int := 0
  positionStatus : PositionStatus := .Normal
  autoAddMargin : Int := 0
  adlRankIndicator : Int := 0
  leverage : Double := 0
  positionBalance : Double := 0
  markPrice : Double := 0
  liqPrice : Double := 0
  bustPrice : Double := 0
  positionMM : Double := 0
  positionIM : Double := 0
  tpSlMode : TpSlMode := .Full
  stopLoss : Double := 0
  takeProfit : Double := 0
  trailingStop : Double := 0
  unrealisedPnl : Double := 0
  cumRealisedPnl : Double := 0
  isReduceOnly : Bool := false
  createdTime : Int := 0
  updatedTime : Int := 0
  seq : Int := 0
  mmrSysUpdateTime : String := ""
  leverageSysUpdatedTime : String := ""

structure Positions where
  category : Category
  positions : List PositionRecord

structure OrderResponse where
  orderId : String := ""
  orderLinkId : String := ""
  symbol : String := ""
  price : Double := 0
  qty : Double := 0
  side : Side := .Buy
  positionIdx : Int := 0
  orderStatus : OrderStatus := .Created
  rejectReason : String := ""
  avgPrice : Double := 0
  cumExecQty : Double := 0
  cumExecValue : Double := 0
  cumExecFee : Double := 0
  timeInForce : TimeInForce := .GTC
  orderType : OrderType := .Market
  reduceOnly : Bool := false
  closeOnTrigger : Bool := false
  lastPriceOnCreated : Double := 0
  createdTime : String := ""
  updatedTime : String := ""
  takeProfit : Double := 0
  stopLoss : Double := 0
  tpTriggerBy : TriggerPriceType := .LastPrice
  slTriggerBy : TriggerPriceType := .LastPrice
deriving DecidableEq, Repr

structure OrdersResponse where
  category : Category
  orders : List OrderResponse

structure Ticker where
  symbol : String
  lastPrice : Double
  indexPrice : Double
  markPrice : Double
  prevPrice24h : Double
  price24hPcnt : Double
  highPrice24h : Double
  prevPrice1h : Double
  openInterest : Int
  openInterestValue : Double
  turnover24h : Double
  volume24h : Double
  fundingRate : Double
  nextFundingTime : Int
  ask1Size : Double
  bid1Price : Double
  ask1Price : Double
  bid1Size : Double

structure Tickers where
  category : Category
  tickers : List Ticker

section Source

variable (text : JsonText) (common : VkCommon) (readers : ReplyReaders)

/-! ### Rows -/

/-- `std::stoll`, as it throws. -/
def stollOrThrow (digits : String) : Except Fault Int :=
  match stoll digits with
  | .ok value => .ok value
  | .error _ => .error (.other "stoll")

/-- A column of a row, which is a text; the row is constant. -/
def column {β : Type} (convert : String → Except Fault β) (json : Json) (i : Nat) :
    Except Fault β := do
  let value ← json.indexAt i
  convert (← value.asString)

def Candle.fromJson (json : Json) : Except Fault Candle := do
  let startTime ← column stollOrThrow json 0
  let open_ ← column readers.stod json 1
  let high ← column readers.stod json 2
  let low ← column readers.stod json 3
  let close ← column readers.stod json 4
  let volume ← column readers.stod json 5
  let turnover ← column readers.stod json 6
  return { startTime, open_, high, low, close, volume, turnover }

def FundingRate.fromJson (json : Json) : Except Fault FundingRate := do
  let symbol ← common.readString json "symbol" ""
  let fundingRate ← common.readStringAsDouble json "fundingRate" 0
  let fundingRateTimestamp ← readers.readStringAsInt64 json "fundingRateTimestamp" (some 0)
  return { symbol, fundingRate, fundingRateTimestamp }

def Coin.fromJson (json : Json) : Except Fault Coin := do
  let accruedInterest ← common.readStringAsDouble json "accruedInterest" 0
  let availableToBorrow ← common.readStringAsDouble json "availableToBorrow" 0
  let availableToWithdraw ← common.readStringAsDouble json "availableToWithdraw" 0
  let bonus ← common.readStringAsDouble json "bonus" 0
  let borrowAmount ← common.readStringAsDouble json "borrowAmount" 0
  let coin ← common.readString json "coin" ""
  let collateralSwitch ← common.readBool json "collateralSwitch" true
  let cumRealisedPnl ← common.readStringAsDouble json "cumRealisedPnl" 0
  let equity ← common.readStringAsDouble json "equity" 0
  let locked ← common.readStringAsDouble json "locked" 0
  let marginCollateral ← common.readBool json "marginCollateral" true
  let totalOrderIM ← common.readStringAsDouble json "totalOrderIM" 0
  let totalPositionIM ← common.readStringAsDouble json "totalPositionIM" 0
  let totalPositionMM ← common.readStringAsDouble json "totalPositionMM" 0
  let unrealisedPnl ← common.readStringAsDouble json "unrealisedPnl" 0
  let usdValue ← common.readStringAsDouble json "usdValue" 0
  let walletBalance ← common.readStringAsDouble json "walletBalance" 0
  return { accruedInterest, availableToBorrow, availableToWithdraw, bonus, borrowAmount, coin,
           collateralSwitch, cumRealisedPnl, equity, locked, marginCollateral, totalOrderIM,
           totalPositionIM, totalPositionMM, unrealisedPnl, usdValue, walletBalance }

/-- The fields that `AccountBalance::fromJson` reads before it goes through the coins. -/
def AccountBalance.readFields (json : Json) : Except Fault AccountBalance := do
  let accountIMRate ← common.readStringAsDouble json "accountIMRate" 0
  let accountLTV ← common.readStringAsDouble json "accountLTV" 0
  let accountMMRate ← common.readStringAsDouble json "accountMMRate" 0
  let accountType ← readers.readMagicEnum AccountType.enumCast? json "accountType" .UNIFIED
  let totalAvailableBalance ← common.readStringAsDouble json "totalAvailableBalance" 0
  let totalEquity ← common.readStringAsDouble json "totalEquity" 0
  let totalInitialMargin ← common.readStringAsDouble json "totalInitialMargin" 0
  let totalMaintenanceMargin ← common.readStringAsDouble json "totalMaintenanceMargin" 0
  let totalMarginBalance ← common.readStringAsDouble json "totalMarginBalance" 0
  let totalPerpUPL ← common.readStringAsDouble json "totalPerpUPL" 0
  let totalWalletBalance ← common.readStringAsDouble json "totalWalletBalance" 0
  return { accountIMRate, accountLTV, accountMMRate, accountType, totalAvailableBalance,
           totalEquity, totalInitialMargin, totalMaintenanceMargin, totalMarginBalance,
           totalPerpUPL, totalWalletBalance, coins := [] }

/-- `AccountBalance::fromJson`; its argument is constant, so an absent `"coin"` is not
    looked for. -/
def AccountBalance.fromJson (json : Json) : Except Fault AccountBalance := do
  let balance ← AccountBalance.readFields common readers json
  let coin ← json.index "coin"
  let coins ← coin.items.mapM (Coin.fromJson common)
  return { balance with coins := coins }

/-- `Position::fromJson`, with all fields. -/
def PositionRecord.fromJson (json : Json) : Except Fault PositionRecord := do
  let positionIdx ← readers.readInt json "positionIdx" 0
  let riskId ← readers.readInt json "riskId" 0
  let riskLimitValue ← common.readStringAsDouble json "riskLimitValue" 0
  let symbol ← common.readString json "symbol" ""
  let side ← readers.readMagicEnum Side.enumCast? json "side" .Buy
  let positionSize ← readDecimalValue readers.positions json "size" 0
  let zeroSize := if positionSize ≠ 0 then false else true
  let size ← common.readStringAsDouble json "size" 0
  let avgPrice ← common.readStringAsDouble json "avgPrice" 0
  let positionValue ← common.readStringAsDouble json "positionValue" 0
  let tradeMode ← readers.readInt json "tradeMode" 0
  let positionStatus ← readers.readMagicEnum PositionStatus.enumCast? json "positionStatus" .Normal
  let autoAddMargin ← readers.readInt json "autoAddMargin" 0
  let adlRankIndicator ← readers.readInt json "adlRankIndicator" 0
  let leverage ← common.readStringAsDouble json "leverage" 0
  let positionBalance ← common.readStringAsDouble json "positionBalance" 0
  let markPrice ← common.readStringAsDouble json "markPrice" 0
  let liqPrice ← common.readStringAsDouble json "liqPrice" 0
  let bustPrice ← common.readStringAsDouble json "bustPrice" 0
  let positionMM ← common.readStringAsDouble json "positionMM" 0
  let positionIM ← common.readStringAsDouble json "positionIM" 0
  let tpSlMode ← readers.readMagicEnum TpSlMode.enumCast? json "tpSlMode" .Full
  let stopLoss ← common.readStringAsDouble json "stopLoss" 0
  let takeProfit ← common.readStringAsDouble json "takeProfit" 0
  let trailingStop ← common.readStringAsDouble json "trailingStop" 0
  let unrealisedPnl ← common.readStringAsDouble json "unrealisedPnl" 0
  let cumRealisedPnl ← common.readStringAsDouble json "cumRealisedPnl" 0
  let isReduceOnly ← common.readBool json "isReduceOnly" false
  let createdTime ← readers.readStringAsInt64 json "createdTime" none
  let updatedTime ← readers.readStringAsInt64 json "updatedTime" none
  let seq ← common.readInt64 json "seq" 0
  let mmrSysUpdateTime ← common.readString json "mmrSysUpdateTime" ""
  let leverageSysUpdatedTime ← common.readString json "leverageSysUpdatedTime" ""
  return { position := { positionIdx, symbol, side, size, zeroSize }, riskId, riskLimitValue,
           avgPrice, positionValue, tradeMode, positionStatus, autoAddMargin, adlRankIndicator,
           leverage, positionBalance, markPrice, liqPrice, bustPrice, positionMM, positionIM,
           tpSlMode, stopLoss, takeProfit, trailingStop, unrealisedPnl, cumRealisedPnl,
           isReduceOnly, createdTime, updatedTime, seq, mmrSysUpdateTime, leverageSysUpdatedTime }

/-- `OrderResponse::fromJson` of a new order. -/
def OrderResponse.fromJson (json : Json) : Except Fault OrderResponse := do
  let orderId ← common.readString json "orderId" ""
  let orderLinkId ← common.readString json "orderLinkId" ""
  let symbol ← common.readString json "symbol" ""
  let side ← readers.readMagicEnum Side.enumCast? json "side" .Buy
  let price ← common.readStringAsDouble json "price" 0
  let qty ← common.readStringAsDouble json "qty" 0
  let positionIdx ← common.readInt64 json "positionIdx" 0
  let orderStatus ← readers.readMagicEnum OrderStatus.enumCast? json "orderStatus" .Created
  let rejectReason ← common.readString json "rejectReason" ""
  let avgPrice ← common.readStringAsDouble json "avgPrice" 0
  let cumExecQty ← common.readStringAsDouble json "cumExecQty" 0
  let cumExecValue ← common.readStringAsDouble json "cumExecValue" 0
  let cumExecFee ← common.readStringAsDouble json "cumExecFee" 0
  let timeInForce ← readers.readMagicEnum TimeInForce.enumCast? json "timeInForce" .GTC
  let orderType ← readers.readMagicEnum OrderType.enumCast? json "orderType" .Market
  let reduceOnly ← common.readBool json "reduceOnly" false
  let closeOnTrigger ← common.readBool json "closeOnTrigger" false
  let lastPriceOnCreated ← common.readStringAsDouble json "lastPriceOnCreated" 0
  let createdTime ← common.readString json "createdTime" ""
  let updatedTime ← common.readString json "updatedTime" ""
  let takeProfit ← common.readStringAsDouble json "takeProfit" 0
  let stopLoss ← common.readStringAsDouble json "stopLoss" 0
  let tpTriggerBy ←
    readers.readMagicEnum TriggerPriceType.enumCast? json "tpTriggerBy" .LastPrice
  let slTriggerBy ←
    readers.readMagicEnum TriggerPriceType.enumCast? json "slTriggerBy" .LastPrice
  return { orderId, orderLinkId, symbol, price, qty, side, positionIdx, orderStatus, rejectReason,
           avgPrice, cumExecQty, cumExecValue, cumExecFee, timeInForce, orderType, reduceOnly,
           closeOnTrigger, lastPriceOnCreated, createdTime, updatedTime, takeProfit, stopLoss,
           tpTriggerBy, slTriggerBy }

def Ticker.fromJson (json : Json) : Except Fault Ticker := do
  let symbol ← common.readString json "symbol" ""
  let lastPrice ← common.readStringAsDouble json "lastPrice" 0
  let indexPrice ← common.readStringAsDouble json "indexPrice" 0
  let markPrice ← common.readStringAsDouble json "markPrice" 0
  let prevPrice24h ← common.readStringAsDouble json "prevPrice24h" 0
  let price24hPcnt ← common.readStringAsDouble json "price24hPcnt" 0
  let highPrice24h ← common.readStringAsDouble json "highPrice24h" 0
  let prevPrice1h ← common.readStringAsDouble json "prevPrice1h" 0
  let openInterest ← readers.readStringAsInt64 json "openInterest" (some 0)
  let openInterestValue ← common.readStringAsDouble json "openInterestValue" 0
  let turnover24h ← common.readStringAsDouble json "turnover24h" 0
  let volume24h ← common.readStringAsDouble json "volume24h" 0
  let fundingRate ← common.readStringAsDouble json "fundingRate" 0
  let nextFundingTime ← readers.readStringAsInt64 json "nextFundingTime" (some 0)
  let ask1Size ← common.readStringAsDouble json "ask1Size" 0
  let bid1Price ← common.readStringAsDouble json "bid1Price" 0
  let ask1Price ← common.readStringAsDouble json "ask1Price" 0
  let bid1Size ← common.readStringAsDouble json "bid1Size" 0
  return { symbol, lastPrice, indexPrice, markPrice, prevPrice24h, price24hPcnt, highPrice24h,
           prevPrice1h, openInterest, openInterestValue, turnover24h, volume24h, fundingRate,
           nextFundingTime, ask1Size, bid1Price, ask1Price, bid1Size }

/-! ### Replies -/

/-- A reply: the envelope, and then what is read in its `result`. -/
def readReply {α : Type} (payload : Json → Except Fault α) (json : Json) :
    Except Fault (Response × α) := do
  let response ← Response.fromJson common readers.instruments json
  let value ← payload response.result
  return (response, value)

/-- The rows under `"list"`.  `result` is a variable, so an absent list is made, as
    `null`. -/
def readList {α : Type} (element : Json → Except Fault α) (result : Json) :
    Except Fault (List α) := do
  let list ← result.indexOrNull "list"
  list.items.mapM element

def readCategory (result : Json) : Except Fault Category :=
  readers.readMagicEnum Category.enumCast? result "category" .linear

def Candles.ofResult (result : Json) : Except Fault Candles := do
  let symbol ← common.readString result "symbol" ""
  let category ← readCategory readers result
  let candles ← readList (Candle.fromJson readers) result
  return { category, symbol, candles }

def FundingRates.ofResult (result : Json) : Except Fault FundingRates := do
  let category ← readCategory readers result
  let fundingRates ← readList (FundingRate.fromJson common readers) result
  return { category, fundingRates }

def Instruments.ofResult (result : Json) : Except Fault Instruments := do
  let _category ← readCategory readers result
  let nextPageCursor ← common.readString result "nextPageCursor" ""
  let instruments ← readList (Instrument.fromJson common readers.instruments) result
  return { instruments, nextPageCursor }

def WalletBalance.ofResult (result : Json) : Except Fault WalletBalance := do
  let balances ← readList (AccountBalance.fromJson common readers) result
  return { balances }

def Positions.ofResult (result : Json) : Except Fault Positions := do
  let category ← readCategory readers result
  let positions ← readList (PositionRecord.fromJson common readers) result
  return { category, positions }

def OrdersResponse.ofResult (result : Json) : Except Fault OrdersResponse := do
  let category ← readCategory readers result
  let orders ← readList (OrderResponse.fromJson common readers) result
  return { category, orders }

def Tickers.ofResult (result : Json) : Except Fault Tickers := do
  let category ← readCategory readers result
  let tickers ← readList (Ticker.fromJson common readers) result
  return { category, tickers }

def OrderId.ofResult (result : Json) : Except Fault OrderId := do
  let orderId ← common.readString result "orderId" ""
  let orderLinkId ← common.readString result "orderLinkId" ""
  return { orderId, orderLinkId }

def ServerTime.ofResult (result : Json) : Except Fault ServerTime := do
  let timeSecond ← readers.readStringAsInt64 result "timeSecond" none
  let timeNano ← readers.readStringAsInt64 result "timeNano" none
  return { timeSecond, timeNano }

/-- The types that `handleBybitResponse` decodes. -/
inductive ReplyType where
  | Candles | FundingRates | Instruments | WalletBalance | Positions | OrdersResponse | Tickers
  | OrderId | ServerTime | Response
deriving DecidableEq, Repr

/-- What a reply carries besides its envelope. -/
def ReplyType.Payload : ReplyType → Type
  | .Candles => BybitApi.Candles
  | .FundingRates => BybitApi.FundingRates
  | .Instruments => BybitApi.Instruments
  | .WalletBalance => BybitApi.WalletBalance
  | .Positions => BybitApi.Positions
  | .OrdersResponse => BybitApi.OrdersResponse
  | .Tickers => BybitApi.Tickers
  | .OrderId => BybitApi.OrderId
  | .ServerTime => BybitApi.ServerTime
  | .Response => Unit

def ReplyType.ofResult : (type : ReplyType) → Json → Except Fault type.Payload
  | .Candles => Candles.ofResult common readers
  | .FundingRates => FundingRates.ofResult common readers
  | .Instruments => Instruments.ofResult common readers
  | .WalletBalance => WalletBalance.ofResult common readers
  | .Positions => Positions.ofResult common readers
  | .OrdersResponse => OrdersResponse.ofResult common readers
  | .Tickers => Tickers.ofResult common readers
  | .OrderId => OrderId.ofResult common
  | .ServerTime => ServerTime.ofResult readers
  | .Response => fun _ => pure ()

/-- `fromJson` of each type of reply. -/
def ReplyType.fromJson (type : ReplyType) (json : Json) :
    Except Fault (BybitApi.Response × type.Payload) :=
  readReply common readers (type.ofResult common readers) json

/-- The loop of `RESTClient::cancelAllOrders`: every entry is decoded as the result of a
    reply that is empty otherwise.  `res` is constant. -/
def cancelledOrderIds (res : Json) : Except Fault (List OrderId) := do
  let list ← res.index "list"
  list.items.mapM fun el => do
    let _oid ← Response.fromJson common readers.instruments .null
    OrderId.ofResult common el

/-- What `RESTClient::cancelAllOrders` makes of the JSON of a reply. -/
def cancelAllOrders (json : Json) : Except Fault (Except ApiError (List OrderId)) := do
  let (envelope, _) ← ReplyType.fromJson common readers .Response json
  if envelope.retCode ≠ 0 then
    return .error (.api envelope.retCode envelope.retMsg)
  else
    let orderIds ← cancelledOrderIds common readers envelope.result
    return .ok orderIds

end Source

/-! ### Envelopes -/

/-- A member, or `null` if there is none. -/
def Json.memberOrNull (json : Json) (key : String) : Json := (json.find? key).getD .null

/-- The rows under `"list"`. -/
def Json.rows (result : Json) : List Json := (result.memberOrNull "list").items

/-- `"list"` can be looked up. -/
def Json.HoldsList (result : Json) : Prop := result = .null ∨ result.isObject = true

section

variable {common : VkCommon} {readers : ReplyReaders} {α : Type} {P : Fault → Prop}

theorem Json.index_of_contains {json : Json} {key : String} (h : json.contains key = true) :
    json.index key = .ok (json.memberOrNull key) := by
  obtain ⟨value, hvalue⟩ := Option.isSome_iff_exists.mp h
  rw [index_of_find? hvalue, memberOrNull, hvalue, Option.getD_some]

/-- A member that is looked up only when it is there. -/
theorem Json.index_of_contains_bind {β : Type} (json : Json) (key : String)
    (next : Json → Except Fault β) :
    (if json.contains key then json.index key >>= next else (.ok .null) >>= next) =
      next (json.memberOrNull key) := by
  by_cases h : json.contains key = true
  · rw [if_pos h, index_of_contains h]
    rfl
  · rw [if_neg h, memberOrNull, Option.not_isSome_iff_eq_none.mp h]
    rfl

theorem Response.fromJson_eq (readers : InstrumentReaders) (json : Json) :
    Response.fromJson common readers json = do
      let retCode ← readers.readInt json "retCode" 0
      let retMsg ← common.readString json "retMsg" ""
      let time ← common.readInt64 json "time" 0
      return { retCode, retMsg, retExtInfo := json.memberOrNull "retExtInfo", time,
               result := json.memberOrNull "result" } := by
  simp only [fromJson, Json.index_of_contains_bind]

/-- The envelope is read without an exception. -/
def EnvelopeReads (common : VkCommon) (readers : ReplyReaders) (json : Json) : Prop :=
  Decoding.Succeeds (readers.readInt json "retCode" 0) ∧
    Decoding.Succeeds (common.readString json "retMsg" "") ∧
    Decoding.Succeeds (common.readInt64 json "time" 0)

theorem readReply_eq (payload : Json → Except Fault α) (json : Json) :
    readReply common readers payload json = do
      let retCode ← readers.readInt json "retCode" 0
      let retMsg ← common.readString json "retMsg" ""
      let time ← common.readInt64 json "time" 0
      let value ← payload (json.memberOrNull "result")
      return ({ retCode, retMsg, retExtInfo := json.memberOrNull "retExtInfo", time,
                result := json.memberOrNull "result" }, value) := by
  simp only [readReply, Response.fromJson_eq, bind_assoc, pure_bind]
  rfl

/-- A reply that is read. -/
theorem readReply_eq_ok {payload : Json → Except Fault α} {json : Json} {response : Response}
    {value : α} :
    readReply common readers payload json = .ok (response, value) ↔
      readers.readInt json "retCode" 0 = .ok response.retCode ∧
      common.readString json "retMsg" "" = .ok response.retMsg ∧
      common.readInt64 json "time" 0 = .ok response.time ∧
      json.memberOrNull "retExtInfo" = response.retExtInfo ∧
      json.memberOrNull "result" = response.result ∧
      payload (json.memberOrNull "result") = .ok value := by
  obtain ⟨retCode, retMsg, retExtInfo, time, result⟩ := response
  rw [readReply_eq]
  cases readers.readInt json "retCode" 0 with
  | error fault => simp [bind, Except.bind]
  | ok code =>
      cases common.readString json "retMsg" "" with
      | error fault => simp [bind, Except.bind]
      | ok msg =>
          cases common.readInt64 json "time" 0 with
          | error fault => simp [bind, Except.bind]
          | ok time' =>
              cases payload (json.memberOrNull "result") with
              | error fault => simp [bind, Except.bind]
              | ok value' =>
                  simp [bind, Except.bind, pure, Except.pure, and_assoc, and_left_comm]

/-- A reply fails with its envelope, or behind it with what is read in its result. -/
theorem fails_readReply {payload : Json → Except Fault α} {json : Json}
    (hint : ∀ key, ¬ Decoding.Fails P (readers.readInt json key 0))
    (hstring : ∀ key, ¬ Decoding.Fails P (common.readString json key ""))
    (hint64 : ∀ key, ¬ Decoding.Fails P (common.readInt64 json key 0)) :
    Decoding.Fails P (readReply common readers payload json) ↔
      EnvelopeReads common readers json ∧
        Decoding.Fails P (payload (json.memberOrNull "result")) := by
  rw [readReply_eq, Decoding.fails_bind_of, or_iff_right (hint _), EnvelopeReads, and_assoc]
  intro retCode
  rw [Decoding.fails_bind_of, or_iff_right (hstring _), and_assoc]
  intro retMsg
  rw [Decoding.fails_bind_of, or_iff_right (hint64 _)]
  intro time
  rw [Decoding.fails_bind_of (Q := False), and_false, or_false]
  exact fun value => iff_of_false (Decoding.not_fails_pure _) id

/-! ### Lists -/

theorem Json.indexOrNull_of_holdsList {result : Json} (h : result.HoldsList) :
    result.indexOrNull "list" = .ok (result.memberOrNull "list") := by
  cases result with
  | null => rfl
  | object members => rfl
  | bool _ | integer _ | float _ | string _ | array _ => simp [HoldsList, isObject] at h

theorem Json.indexOrNull_of_not_holdsList {result : Json} (h : ¬ result.HoldsList) :
    result.indexOrNull "list" = .error (.json "type_error.305") ∧ result.rows = [] := by
  cases result with
  | null => simp [HoldsList] at h
  | object members => simp [HoldsList, isObject] at h
  | bool _ | integer _ | float _ | string _ | array _ => exact ⟨rfl, rfl⟩

variable {element : Json → Except Fault α}

theorem succeeds_readList (result : Json) :
    Decoding.Succeeds (readList element result) ↔
      result.HoldsList ∧ ∀ row ∈ result.rows, Decoding.Succeeds (element row) := by
  unfold readList
  by_cases hlist : result.HoldsList
  · rw [Json.indexOrNull_of_holdsList hlist, and_iff_right hlist]
    exact Decoding.succeeds_mapM _
  · rw [(Json.indexOrNull_of_not_holdsList hlist).1]
    exact iff_of_false (Decoding.not_succeeds_error _) fun h => hlist h.1

/-- A list fails with its first row that does, if the failure is none of a look-up. -/
theorem fails_readList (hP : ∀ what, ¬ P (.json what)) (result : Json) :
    Decoding.Fails P (readList element result) ↔
      Decoding.Reaches (fun row => Decoding.Succeeds (element row))
        (fun row => Decoding.Fails P (element row)) result.rows := by
  unfold readList
  by_cases hlist : result.HoldsList
  · rw [Json.indexOrNull_of_holdsList hlist]
    exact Decoding.fails_mapM _
  · obtain ⟨hindex, hrows⟩ := Json.indexOrNull_of_not_holdsList hlist
    rw [hindex, hrows, ← Decoding.fails_mapM]
    refine iff_of_false ?_ (Decoding.not_fails_pure _)
    intro h
    exact hP _ (Decoding.fails_error.mp h)

end

end BybitApi
