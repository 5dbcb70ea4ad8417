import BybitApi.Loop
import BybitApi.Wire

/-!
# Instruments

`RESTClient::getInstrumentsInfo` downloads an instrument table page by page, each
page naming the cursor of the next, and keeps the last table downloaded.  Orders
take their price and quantity steps from there.
-/

namespace BybitApi

structure PriceFilter where
  minPrice : Double
  maxPrice : Double
  tickSize : Double
deriving DecidableEq, Repr

structure LotSizeFilter where
  maxOrderQty : Double
  minOrderQty : Double
  qtyStep : Double
  postOnlyMaxTradingQty : Double
deriving DecidableEq, Repr

structure Instrument where
  symbol : String
  priceFilter : PriceFilter
  lotSizeFilter : LotSizeFilter
deriving DecidableEq, Repr

/-- A page of an instrument table. -/
structure Instruments where
  instruments : List Instrument
  nextPageCursor : String
deriving DecidableEq, Repr

/-- The query parameters that `P::getInstrumentsInfo` sends to
    `/v5/market/instruments-info`. -/
def instrumentsParameters (category : Category) (symbol cursor : String) : Parameters :=
  let parameters := (∅ : Parameters).insert "category" category.enumName
  let parameters := if symbol ≠ "" then parameters.insert "symbol" symbol else parameters
  if cursor ≠ "" then parameters.insert "cursor" cursor else parameters

/-- The state of the download loop: the cursor to send next, what has been
    collected, and the cursors sent so far. -/
structure InstrumentsDownload where
  cursor : String
  temp : List Instrument
  sent : List String
deriving DecidableEq, Repr

section Source

variable (endpoint : Endpoint Instruments) (category : Category) (symbol : String)

/-- One pass of the `do`-`while` loop. -/
def instrumentsPass (s : InstrumentsDownload) :
    Loop.Pass InstrumentsDownload (Except ApiError InstrumentsDownload) :=
  match endpoint s.sent.length (instrumentsParameters category symbol s.cursor) with
  | .error e => .exit (.error e)
  | .ok instr =>
      let next : InstrumentsDownload :=
        { cursor := instr.nextPageCursor
          temp := s.temp ++ instr.instruments
          sent := s.sent ++ [s.cursor] }
      if instr.nextPageCursor ≠ "" then .again next else .exit (.ok next)

def downloadInstruments (fuel : Nat) : Option (Except ApiError InstrumentsDownload) :=
  Loop.run (instrumentsPass endpoint category symbol) fuel
    { cursor := "", temp := [], sent := [] }

end Source

/-- What a client keeps between calls: `m_instruments`. -/
structure RestClient where
  instruments : List Instrument := []
deriving DecidableEq, Repr

/-- `RESTClient::getInstrumentsInfo`, with the client it leaves behind. -/
def getInstrumentsInfo (endpoint : Endpoint Instruments) (fuel : Nat) (client : RestClient)
    (category : Category) (symbol : String) (force : Bool) :
    Option (Except ApiError (List Instrument) × RestClient) :=
  if client.instruments.isEmpty || force then
    match downloadInstruments endpoint category symbol fuel with
    | none => none
    | some (.error e) => some (.error e, client)
    | some (.ok d) => some (.ok d.temp, { client with instruments := d.temp })
  else some (.ok client.instruments, client)

/-- The loop of `P::findPricePrecisionsForInstrument`: the price and quantity steps
    of the symbol, or those passed if it is not listed. -/
def findPriceSteps (symbols : List Instrument) (symbol : String) (priceStep qtyStep : Double) :
    Double × Double :=
  match symbols.find? fun symbolEl => symbolEl.symbol == symbol with
  | some symbolEl => (symbolEl.priceFilter.tickSize, symbolEl.lotSizeFilter.qtyStep)
  | none => (priceStep, qtyStep)

/-- The steps that `placeOrder` gives to an order, with the client it leaves behind. -/
def placeOrderSteps (endpoint : Endpoint Instruments) (fuel : Nat) (client : RestClient)
    (category : Category) (symbol : String) :
    Option (Except ApiError (Double × Double) × RestClient) :=
  match getInstrumentsInfo endpoint fuel client category "" false with
  | none => none
  | some (.error e, client) => some (.error e, client)
  | some (.ok symbols, client) =>
      some (.ok (findPriceSteps symbols symbol (1 / 100) (1 / 100)), client)

end BybitApi
