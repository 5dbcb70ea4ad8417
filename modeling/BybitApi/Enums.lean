import Mathlib.Tactic.Basic

/-!
# Enumerations of the exchange API

`bybit_enums.h`, as far as the modelled functions read it.  The request
parameters and the stream topics carry the enumerators' names: `enumName` is
`magic_enum::enum_name`, with the customised names of `CandleInterval`.
-/

namespace BybitApi

inductive CandleInterval where
  | _1 | _3 | _5 | _15 | _30 | _60 | _120 | _240 | _360 | _720 | _D | _M | _W
deriving DecidableEq, Repr

inductive Category where
  | spot | linear | inverse | option
deriving DecidableEq, Repr

inductive ResponseType where
  | snapshot | delta
deriving DecidableEq, Repr

inductive Side where
  | Buy | Sell | None
deriving DecidableEq, Repr

inductive OrderType where
  | Limit | Market
deriving DecidableEq, Repr

inductive ContractType where
  | InversePerpetual | LinearPerpetual | LinearFutures | InverseFutures
deriving DecidableEq, Repr

inductive ContractStatus where
  | PreLaunch | Trading | Settling | Delivering | Closed
deriving DecidableEq, Repr

inductive TriggerPriceType where
  | LastPrice | IndexPrice | MarkPrice | UNKNOWN
deriving DecidableEq, Repr

inductive TimeInForce where
  | GTC | IOC | FOK | PostOnly
deriving DecidableEq, Repr

inductive TpSlMode where
  | Full | Partial
deriving DecidableEq, Repr

inductive OrderStatus where
  | Created | New | Rejected | PartiallyFilled | Filled | PendingCancel | Cancelled | Untriggered
  | Deactivated | Triggered | Active
deriving DecidableEq, Repr

inductive AccountType where
  | CONTRACT | UNIFIED | FUND | SPOT | OPTION
deriving DecidableEq, Repr

/-- `Liq` is in the liquidation progress, `Adl` in the auto-deleverage progress. -/
inductive PositionStatus where
  | Normal | Liq | Adl
deriving DecidableEq, Repr

def Category.enumName : Category → String
  | .spot => "spot"
  | .linear => "linear"
  | .inverse => "inverse"
  | .option => "option"

def Side.enumName : Side → String
  | .Buy => "Buy"
  | .Sell => "Sell"
  | .None => "None"

def OrderType.enumName : OrderType → String
  | .Limit => "Limit"
  | .Market => "Market"

def TriggerPriceType.enumName : TriggerPriceType → String
  | .LastPrice => "LastPrice"
  | .IndexPrice => "IndexPrice"
  | .MarkPrice => "MarkPrice"
  | .UNKNOWN => "UNKNOWN"

def TimeInForce.enumName : TimeInForce → String
  | .GTC => "GTC"
  | .IOC => "IOC"
  | .FOK => "FOK"
  | .PostOnly => "PostOnly"

/-- The names under which the exchange knows the candle intervals. -/
def CandleInterval.enumName : CandleInterval → String
  | ._1 => "1"
  | ._3 => "3"
  | ._5 => "5"
  | ._15 => "15"
  | ._30 => "30"
  | ._60 => "60"
  | ._120 => "120"
  | ._240 => "240"
  | ._360 => "360"
  | ._720 => "720"
  | ._D => "D"
  | ._M => "M"
  | ._W => "W"

/-- `magic_enum::enum_cast<CandleInterval>`. -/
def CandleInterval.enumCast? (name : String) : Option CandleInterval :=
  [_1, _3, _5, _15, _30, _60, _120, _240, _360, _720, _D, _M, _W].find?
    fun interval => interval.enumName == name

theorem CandleInterval.enumCast?_enumName (interval : CandleInterval) :
    enumCast? interval.enumName = some interval := by
  cases interval <;> decide

def Category.enumCast? (name : String) : Option Category :=
  [spot, linear, inverse, option].find? fun category => category.enumName == name

def Side.enumCast? (name : String) : Option Side :=
  [Buy, Sell, None].find? fun side => side.enumName == name

def OrderType.enumCast? (name : String) : Option OrderType :=
  [Limit, Market].find? fun orderType => orderType.enumName == name

def ContractType.enumName : ContractType → String
  | .InversePerpetual => "InversePerpetual"
  | .LinearPerpetual => "LinearPerpetual"
  | .LinearFutures => "LinearFutures"
  | .InverseFutures => "InverseFutures"

def ContractStatus.enumName : ContractStatus → String
  | .PreLaunch => "PreLaunch"
  | .Trading => "Trading"
  | .Settling => "Settling"
  | .Delivering => "Delivering"
  | .Closed => "Closed"

def ContractType.enumCast? (name : String) : Option ContractType :=
  [InversePerpetual, LinearPerpetual, LinearFutures, InverseFutures].find?
    fun contractType => contractType.enumName == name

def ContractStatus.enumCast? (name : String) : Option ContractStatus :=
  [PreLaunch, Trading, Settling, Delivering, Closed].find?
    fun contractStatus => contractStatus.enumName == name

def TriggerPriceType.enumCast? (name : String) : Option TriggerPriceType :=
  [LastPrice, IndexPrice, MarkPrice, UNKNOWN].find?
    fun triggerPriceType => triggerPriceType.enumName == name

def TimeInForce.enumCast? (name : String) : Option TimeInForce :=
  [GTC, IOC, FOK, PostOnly].find? fun timeInForce => timeInForce.enumName == name

def TpSlMode.enumName : TpSlMode → String
  | .Full => "Full"
  | .Partial => "Partial"

def TpSlMode.enumCast? (name : String) : Option TpSlMode :=
  [Full, Partial].find? fun tpSlMode => tpSlMode.enumName == name

def OrderStatus.enumName : OrderStatus → String
  | .Created => "Created"
  | .New => "New"
  | .Rejected => "Rejected"
  | .PartiallyFilled => "PartiallyFilled"
  | .Filled => "Filled"
  | .PendingCancel => "PendingCancel"
  | .Cancelled => "Cancelled"
  | .Untriggered => "Untriggered"
  | .Deactivated => "Deactivated"
  | .Triggered => "Triggered"
  | .Active => "Active"

def OrderStatus.enumCast? (name : String) : Option OrderStatus :=
  [Created, New, Rejected, PartiallyFilled, Filled, PendingCancel, Cancelled, Untriggered,
    Deactivated, Triggered, Active].find? fun orderStatus => orderStatus.enumName == name

def AccountType.enumName : AccountType → String
  | .CONTRACT => "CONTRACT"
  | .UNIFIED => "UNIFIED"
  | .FUND => "FUND"
  | .SPOT => "SPOT"
  | .OPTION => "OPTION"

def AccountType.enumCast? (name : String) : Option AccountType :=
  [CONTRACT, UNIFIED, FUND, SPOT, OPTION].find? fun accountType => accountType.enumName == name

def PositionStatus.enumName : PositionStatus → String
  | .Normal => "Normal"
  | .Liq => "Liq"
  | .Adl => "Adl"

def PositionStatus.enumCast? (name : String) : Option PositionStatus :=
  [Normal, Liq, Adl].find? fun positionStatus => positionStatus.enumName == name

@[simp] theorem Category.enumCast?_enumName (category : Category) :
    enumCast? category.enumName = some category := by
  cases category <;> decide

@[simp] theorem Side.enumCast?_enumName (side : Side) :
    enumCast? side.enumName = some side := by
  cases side <;> decide

@[simp] theorem OrderType.enumCast?_enumName (orderType : OrderType) :
    enumCast? orderType.enumName = some orderType := by
  cases orderType <;> decide

@[simp] theorem TriggerPriceType.enumCast?_enumName (triggerPriceType : TriggerPriceType) :
    enumCast? triggerPriceType.enumName = some triggerPriceType := by
  cases triggerPriceType <;> decide

@[simp] theorem TimeInForce.enumCast?_enumName (timeInForce : TimeInForce) :
    enumCast? timeInForce.enumName = some timeInForce := by
  cases timeInForce <;> decide

@[simp] theorem OrderStatus.enumCast?_enumName (orderStatus : OrderStatus) :
    enumCast? orderStatus.enumName = some orderStatus := by
  cases orderStatus <;> decide

/-- `Bybit::numberOfMsForCandleInterval`; a month counts as thirty days. -/
def numberOfMsForCandleInterval : CandleInterval → Int
  | ._1 => 60000
  | ._3 => 60000 * 3
  | ._5 => 60000 * 5
  | ._15 => 60000 * 15
  | ._30 => 60000 * 30
  | ._60 => 60000 * 60
  | ._120 => 60000 * 120
  | ._240 => 60000 * 240
  | ._360 => 60000 * 360
  | ._720 => 60000 * 720
  | ._D => 86400000
  | ._W => 86400000 * 7
  | ._M => 86400000 * 30

theorem numberOfMsForCandleInterval_pos (interval : CandleInterval) :
    0 < numberOfMsForCandleInterval interval := by
  cases interval <;> decide

end BybitApi
