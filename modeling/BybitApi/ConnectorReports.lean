import BybitApi.Connectors
import BybitApi.ReplyContents

/-!
# What the connectors report

Both connectors take prices from the tickers of the linear category, also the one for the
spot market; the one for futures takes the funding rates from there.  A listing of tickers
reaches the caller as it is (`connectors_quote_listing`): symbol by symbol, or, for the
rates, with all symbols in one request, which comes to the same.  A symbol that is not
listed is the error of its reply, and not a price of zero.
-/

namespace BybitApi

open Decoding

namespace Vk

structure TickerPrice where
  askPrice : Double
  bidPrice : Double
  askQty : Double
  bidQty : Double
  time : Int
deriving DecidableEq, Repr

end Vk

section Source

variable (text : JsonText) (common : VkCommon) (readers : ReplyReaders)

-- `get` answers the requests by path and query.
variable (get : String → Parameters → Except String HttpResponse)

namespace RESTClient

/-- The query of `RESTClient::getTickers` to `/v5/market/tickers`. -/
def tickersParameters (category : Category) (symbol : String) : Parameters :=
  ((∅ : Parameters).insert "category" category.enumName).insert "symbol" symbol

def getTickers (category : Category) (symbol : String) : Except ApiError (Response × Tickers) :=
  replyWithEnvelope text common readers .Tickers
    (get "/v5/market/tickers" (tickersParameters category symbol))

end RESTClient

/-- The assignments in the loop of `getTickerPrice`. -/
def Vk.TickerPrice.ofBybit (time : Int) (ticker : Ticker) : Vk.TickerPrice where
  askPrice := ticker.ask1Price
  bidPrice := ticker.bid1Price
  askQty := ticker.ask1Size
  bidQty := ticker.bid1Size
  time := time

def Vk.FundingRate.ofTicker (ticker : Ticker) : Vk.FundingRate where
  symbol := ticker.symbol
  fundingRate := ticker.fundingRate
  fundingTime := ticker.nextFundingTime

/-- The loop of `getTickerPrice`, which goes on after a match. -/
def quoteLoop (symbol : String) (time : Int) (retVal : Vk.TickerPrice) (tickers : List Ticker) :
    Vk.TickerPrice :=
  tickers.foldl (fun retVal ticker =>
    if ticker.symbol = symbol then .ofBybit time ticker else retVal) retVal

-- What a new `TickerPrice` and a new `FundingRate` hold.
variable (newPrice : Vk.TickerPrice) (newRate : Vk.FundingRate)

namespace BybitFuturesExchangeConnector

def getTickerPrice (symbol : String) : Except ApiError Vk.TickerPrice := do
  let (envelope, tickerResponse) ← RESTClient.getTickers text common readers get .linear symbol
  return quoteLoop symbol envelope.time newPrice tickerResponse.tickers

def getFundingRate (symbol : String) : Except ApiError Vk.FundingRate := do
  let (_, tickerList) ← RESTClient.getTickers text common readers get .linear symbol
  match tickerList.tickers with
  | ticker :: _ => return .ofTicker ticker
  | [] => return newRate

def getFundingRates : Except ApiError (List Vk.FundingRate) := do
  let (_, tickerList) ← RESTClient.getTickers text common readers get .linear ""
  return tickerList.tickers.map .ofTicker

end BybitFuturesExchangeConnector

namespace BybitSpotExchangeConnector

/-- The category is the linear one here as well. -/
def getTickerPrice (symbol : String) : Except ApiError Vk.TickerPrice := do
  let (envelope, tickerResponse) ← RESTClient.getTickers text common readers get .linear symbol
  return quoteLoop symbol envelope.time newPrice tickerResponse.tickers

end BybitSpotExchangeConnector

/-! ### An exchange that lists tickers -/

/-- The exchange answers with all tickers, with the one that is asked for, or with an error
    if it is not listed. -/
structure ListsTickers (listing : List Ticker) (time : String → Int) : Prop where
  all : ∃ envelope, envelope.retCode = 0 ∧
    ReplySays text common readers .Tickers
      (get "/v5/market/tickers" (RESTClient.tickersParameters .linear "")) envelope
      ({ category := .linear, tickers := listing } : Tickers)
  one : ∀ ticker ∈ listing, ∃ envelope, envelope.retCode = 0 ∧
    envelope.time = time ticker.symbol ∧
      ReplySays text common readers .Tickers
        (get "/v5/market/tickers" (RESTClient.tickersParameters .linear ticker.symbol)) envelope
        ({ category := .linear, tickers := [ticker] } : Tickers)
  unlisted : ∀ symbol, symbol ≠ "" → symbol ∉ listing.map Ticker.symbol →
    ∃ envelope, envelope.retCode ≠ 0 ∧
      ReplySays text common readers .Tickers
        (get "/v5/market/tickers" (RESTClient.tickersParameters .linear symbol)) envelope
        ({ category := .linear, tickers := [] } : Tickers)

end Source

variable {text : JsonText} {common : VkCommon} {readers : ReplyReaders}
  {get : String → Parameters → Except String HttpResponse}

section Quotes

variable {listing : List Ticker} {time : String → Int}

theorem getTickers_all (hreads : ReadsReplies common readers)
    (hlists : ListsTickers text common readers get listing time) :
    ∃ envelope, RESTClient.getTickers text common readers get .linear "" =
      .ok (envelope, ({ category := .linear, tickers := listing } : Tickers)) := by
  obtain ⟨envelope, hsuccess, hsaid⟩ := hlists.all
  refine ⟨envelope, ?_⟩
  rw [RESTClient.getTickers, replyWithEnvelope_of_said hreads hsaid, if_pos hsuccess]
  rfl

theorem getTickers_one (hreads : ReadsReplies common readers)
    (hlists : ListsTickers text common readers get listing time) {ticker : Ticker}
    (hlisted : ticker ∈ listing) :
    ∃ envelope : Response, envelope.time = time ticker.symbol ∧
      RESTClient.getTickers text common readers get .linear ticker.symbol =
        .ok (envelope, ({ category := .linear, tickers := [ticker] } : Tickers)) := by
  obtain ⟨envelope, hsuccess, htime, hsaid⟩ := hlists.one ticker hlisted
  refine ⟨envelope, htime, ?_⟩
  rw [RESTClient.getTickers, replyWithEnvelope_of_said hreads hsaid, if_pos hsuccess]
  rfl

theorem getTickers_unlisted (hreads : ReadsReplies common readers)
    (hlists : ListsTickers text common readers get listing time) {symbol : String}
    (hsymbol : symbol ≠ "") (hunlisted : symbol ∉ listing.map Ticker.symbol) :
    ∃ (envelope : Response) (tickers : Tickers), envelope.retCode ≠ 0 ∧
      ReplySays text common readers .Tickers
        (get "/v5/market/tickers" (RESTClient.tickersParameters .linear symbol)) envelope tickers ∧
      RESTClient.getTickers text common readers get .linear symbol =
        .error (.api envelope.retCode envelope.retMsg) := by
  obtain ⟨envelope, hfailure, hsaid⟩ := hlists.unlisted symbol hsymbol hunlisted
  refine ⟨envelope, _, hfailure, hsaid, ?_⟩
  rw [RESTClient.getTickers, replyWithEnvelope_of_said hreads hsaid, if_neg hfailure]
  rfl

/-- A ticker that is listed is quoted by both connectors, at the time of its reply, and so is
    its rate. -/
def QuotesListed (text : JsonText) (common : VkCommon) (readers : ReplyReaders)
    (get : String → Parameters → Except String HttpResponse) (newPrice : Vk.TickerPrice)
    (newRate : Vk.FundingRate) (time : String → Int) (ticker : Ticker) : Prop :=
  BybitFuturesExchangeConnector.getTickerPrice text common readers get newPrice ticker.symbol =
      .ok (.ofBybit (time ticker.symbol) ticker) ∧
    BybitSpotExchangeConnector.getTickerPrice text common readers get newPrice ticker.symbol =
      .ok (.ofBybit (time ticker.symbol) ticker) ∧
    BybitFuturesExchangeConnector.getFundingRate text common readers get newRate ticker.symbol =
      .ok (.ofTicker ticker)

/-- For a symbol that is not listed all of them throw the error of its reply. -/
def RejectsUnlisted (text : JsonText) (common : VkCommon) (readers : ReplyReaders)
    (get : String → Parameters → Except String HttpResponse) (newPrice : Vk.TickerPrice)
    (newRate : Vk.FundingRate) (symbol : String) : Prop :=
  ∃ (envelope : Response) (tickers : Tickers), envelope.retCode ≠ 0 ∧
    ReplySays text common readers .Tickers
      (get "/v5/market/tickers" (RESTClient.tickersParameters .linear symbol)) envelope tickers ∧
    BybitFuturesExchangeConnector.getTickerPrice text common readers get newPrice symbol =
      .error (.api envelope.retCode envelope.retMsg) ∧
    BybitSpotExchangeConnector.getTickerPrice text common readers get newPrice symbol =
      .error (.api envelope.retCode envelope.retMsg) ∧
    BybitFuturesExchangeConnector.getFundingRate text common readers get newRate symbol =
      .error (.api envelope.retCode envelope.retMsg)

theorem quoteLoop_single (time : Int) (retVal : Vk.TickerPrice) (ticker : Ticker) :
    quoteLoop ticker.symbol time retVal [ticker] = .ofBybit time ticker := by
  simp only [quoteLoop, List.foldl_cons, List.foldl_nil, if_true]

theorem quotes_listed (hreads : ReadsReplies common readers)
    (hlists : ListsTickers text common readers get listing time) (newPrice : Vk.TickerPrice)
    (newRate : Vk.FundingRate) {ticker : Ticker} (hlisted : ticker ∈ listing) :
    QuotesListed text common readers get newPrice newRate time ticker := by
  obtain ⟨envelope, htime, hone⟩ := getTickers_one hreads hlists hlisted
  have hquote : quoteLoop ticker.symbol envelope.time newPrice [ticker] =
      .ofBybit (time ticker.symbol) ticker := by rw [quoteLoop_single, htime]
  refine ⟨?_, ?_, ?_⟩
  · simp only [BybitFuturesExchangeConnector.getTickerPrice, hone]
    exact congrArg Except.ok hquote
  · simp only [BybitSpotExchangeConnector.getTickerPrice, hone]
    exact congrArg Except.ok hquote
  · simp only [BybitFuturesExchangeConnector.getFundingRate, hone]
    rfl

theorem rejects_unlisted (hreads : ReadsReplies common readers)
    (hlists : ListsTickers text common readers get listing time) (newPrice : Vk.TickerPrice)
    (newRate : Vk.FundingRate) {symbol : String} (hsymbol : symbol ≠ "")
    (hunlisted : symbol ∉ listing.map Ticker.symbol) :
    RejectsUnlisted text common readers get newPrice newRate symbol := by
  obtain ⟨envelope, tickers, hfailure, hsaid, hnone⟩ :=
    getTickers_unlisted hreads hlists hsymbol hunlisted
  refine ⟨envelope, tickers, hfailure, hsaid, ?_, ?_, ?_⟩
  · simp only [BybitFuturesExchangeConnector.getTickerPrice, hnone]
    rfl
  · simp only [BybitSpotExchangeConnector.getTickerPrice, hnone]
    rfl
  · simp only [BybitFuturesExchangeConnector.getFundingRate, hnone]
    rfl

/-- **Quotes come from the listing.**  Against an exchange that lists its tickers, both
    connectors quote every ticker that is listed as it is listed, and throw the error of its
    reply for every other symbol that is not empty; and the rates of all symbols, which take
    one request, are those that the symbols give one by one. -/
theorem connectors_quote_listing (hreads : ReadsReplies common readers)
    (hlists : ListsTickers text common readers get listing time) (newPrice : Vk.TickerPrice)
    (newRate : Vk.FundingRate) :
    (∀ ticker ∈ listing, QuotesListed text common readers get newPrice newRate time ticker) ∧
    (∀ symbol, symbol ≠ "" → symbol ∉ listing.map Ticker.symbol →
      RejectsUnlisted text common readers get newPrice newRate symbol) ∧
    BybitFuturesExchangeConnector.getFundingRates text common readers get =
      .ok (listing.map .ofTicker) ∧
    (listing.map Ticker.symbol).mapM
        (BybitFuturesExchangeConnector.getFundingRate text common readers get newRate) =
      BybitFuturesExchangeConnector.getFundingRates text common readers get := by
  obtain ⟨envelope, hall⟩ := getTickers_all hreads hlists
  have hrates : BybitFuturesExchangeConnector.getFundingRates text common readers get =
      .ok (listing.map .ofTicker) := by
    simp only [BybitFuturesExchangeConnector.getFundingRates, hall]
    rfl
  refine ⟨fun _ hlisted => quotes_listed hreads hlists newPrice newRate hlisted,
    fun _ hsymbol hunlisted => rejects_unlisted hreads hlists newPrice newRate hsymbol hunlisted,
    hrates, ?_⟩
  rw [hrates]
  exact mapM_map_eq_ok fun ticker hlisted =>
    (quotes_listed hreads hlists newPrice newRate hlisted).2.2

end Quotes

/-! ### An exchange with one ticker -/

/-- All tickers, and that of `BTCUSDT`, are the same. -/
def listsBtc : String → Parameters → Except String HttpResponse :=
  fun _ parameters =>
    if parameters["symbol"]? = some "" ∨ parameters["symbol"]? = some "BTCUSDT" then
      .ok (answer (tickersBody 0 "OK" tickerText))
    else .ok (answer (tickersBody 10001 "params error" ""))

theorem symbol_tickersParameters (symbol : String) :
    (RESTClient.tickersParameters .linear symbol)["symbol"]? = some symbol := by
  rw [RESTClient.tickersParameters, getElem?_insert_text, if_pos rfl]

theorem listsBtc_said {symbol : String} (h : symbol = "" ∨ symbol = "BTCUSDT") :
    ReplySays tickersText (.documented sizeNumber) (.documented sizeNumber) .Tickers
      (listsBtc "/v5/market/tickers" (RESTClient.tickersParameters .linear symbol))
      (tickersEnvelope 0 "OK" [tickerJson])
      ({ category := .linear, tickers := [btcTicker] } : Tickers) := by
  have hanswer : listsBtc "/v5/market/tickers" (RESTClient.tickersParameters .linear symbol) =
      .ok (answer (tickersBody 0 "OK" tickerText)) := by
    simp only [listsBtc, symbol_tickersParameters, Option.some_inj, if_pos h]
  rw [hanswer]
  exact btcReply_said

theorem listsBtc_unlisted {symbol : String} (h : ¬ (symbol = "" ∨ symbol = "BTCUSDT")) :
    ReplySays tickersText (.documented sizeNumber) (.documented sizeNumber) .Tickers
      (listsBtc "/v5/market/tickers" (RESTClient.tickersParameters .linear symbol))
      (tickersEnvelope 10001 "params error" [])
      ({ category := .linear, tickers := [] } : Tickers) := by
  have hanswer : listsBtc "/v5/market/tickers" (RESTClient.tickersParameters .linear symbol) =
      .ok (answer (tickersBody 10001 "params error" "")) := by
    simp only [listsBtc, symbol_tickersParameters, Option.some_inj, if_neg h]
  rw [hanswer]
  exact tickersReply_said (List.mem_cons_of_mem _ List.mem_cons_self) (by decide) .nil

theorem listsBtc_lists :
    ListsTickers tickersText (.documented sizeNumber) (.documented sizeNumber) listsBtc
      [btcTicker] (fun _ => 5) where
  all := ⟨_, rfl, listsBtc_said (.inl rfl)⟩
  one := by
    intro ticker hticker
    obtain rfl := List.mem_singleton.mp hticker
    exact ⟨_, rfl, rfl, listsBtc_said (.inr rfl)⟩
  unlisted := by
    intro symbol hsymbol hunlisted
    have hother : symbol ≠ "BTCUSDT" := by
      rintro rfl
      exact hunlisted (by simp [btcTicker])
    exact ⟨_, by decide, listsBtc_unlisted (not_or.mpr ⟨hsymbol, hother⟩)⟩

/-- The price of the pair on the spot connector, and all rates of the futures connector. -/
theorem connectors_quote_listing_btc :
    BybitSpotExchangeConnector.getTickerPrice tickersText (.documented sizeNumber)
        (.documented sizeNumber) listsBtc
        { askPrice := 0, bidPrice := 0, askQty := 0, bidQty := 0, time := 0 } "BTCUSDT" =
      .ok { askPrice := 8, bidPrice := 15 / 2, askQty := 0, bidQty := 0, time := 5 } ∧
    BybitFuturesExchangeConnector.getFundingRates tickersText (.documented sizeNumber)
        (.documented sizeNumber) listsBtc =
      .ok [{ symbol := "BTCUSDT", fundingRate := 1 / 100, fundingTime := 28800000 }] := by
  obtain ⟨hlisted, -, hrates, -⟩ := connectors_quote_listing documented_readsReplies
    listsBtc_lists { askPrice := 0, bidPrice := 0, askQty := 0, bidQty := 0, time := 0 }
    { symbol := "", fundingRate := 0, fundingTime := 0 }
  exact ⟨(hlisted btcTicker List.mem_cons_self).2.1, hrates⟩

end BybitApi
