import BybitApi.FundingSplit
import BybitApi.MarketReplies
import BybitApi.StaticMarket

/-!
# The exchange connectors

`BybitFuturesExchangeConnector` gives the interface `vk::IExchangeConnector` to the REST
client: it translates the interval, downloads, and renames the fields; funding rates are
sorted on top of that, although the client has put them in order already.  Down to the
replies of the exchange, what a connector returns is what the exchange had
(`historicalCandles_exact`, `historicalFundingRates_exact`).

The structures of `vk_cpp_common` appear with the fields that the connectors assign.
-/

namespace BybitApi

namespace Vk

/-- The intervals that the connectors know; `other` stands for any other one. -/
inductive CandleInterval where
  | _1m | _3m | _5m | _15m | _30m | _1h | _2h | _4h | _6h | _12h | _1d | _1w | _1M | other
deriving DecidableEq, Repr

structure Candle where
  openTime : Int
  open_ : Double
  high : Double
  low : Double
  close : Double
  volume : Double
deriving DecidableEq, Repr

structure FundingRate where
  symbol : String
  fundingRate : Double
  fundingTime : Int
deriving DecidableEq, Repr

end Vk

def toBybitInterval : Vk.CandleInterval → CandleInterval
  | ._1m => ._1
  | ._3m => ._3
  | ._5m => ._5
  | ._15m => ._15
  | ._30m => ._30
  | ._1h => ._60
  | ._2h => ._120
  | ._4h => ._240
  | ._6h => ._360
  | ._12h => ._720
  | ._1d => ._D
  | ._1w => ._W
  | ._1M => ._M
  | .other => ._60

/-- The loop body of `getHistoricalCandles`. -/
def Vk.Candle.ofBybit (bybitCandle : BybitApi.Candle) : Vk.Candle :=
  { openTime := bybitCandle.startTime
    open_ := bybitCandle.open_
    high := bybitCandle.high
    low := bybitCandle.low
    close := bybitCandle.close
    volume := bybitCandle.volume }

/-- The loop body of `getHistoricalFundingRates`. -/
def Vk.FundingRate.ofBybit (bybitFr : BybitApi.FundingRate) : Vk.FundingRate :=
  { symbol := bybitFr.symbol
    fundingRate := bybitFr.fundingRate
    fundingTime := bybitFr.fundingRateTimestamp }

/-- What `std::ranges::sort` does by the time of funding; rates of one time may come in
    any order. -/
structure SortsByTime (sort : List Vk.FundingRate → List Vk.FundingRate) : Prop where
  perm : ∀ rates, (sort rates).Perm rates
  ordered : ∀ rates, (sort rates).Pairwise fun a b => a.fundingTime ≤ b.fundingTime

namespace BybitFuturesExchangeConnector

section Source

variable (text : JsonText) (common : VkCommon) (readers : ReplyReaders)
  (get : Nat → String → Parameters → Except String HttpResponse)

/-- `getHistoricalCandles`; the client is called with its default limit. -/
def getHistoricalCandles (fuel : Nat) (symbol : String) (interval : Vk.CandleInterval)
    (startTime endTime : Int) : Option (Except ApiError (List Vk.Candle)) :=
  (getHistoricalPrices (klineEndpoint text common readers get) .linear symbol
    (toBybitInterval interval) endTime 200 fuel startTime).map fun download =>
      download.map fun d => d.retVal.map Vk.Candle.ofBybit

/-- `getHistoricalFundingRates`, with the default limit as well. -/
def getHistoricalFundingRates (sort : List Vk.FundingRate → List Vk.FundingRate) (fuel : Nat)
    (symbol : String) (startTime endTime : Int) : Option (Except ApiError (List Vk.FundingRate)) :=
  (getFundingRates (fundingEndpoint text common readers get) .linear symbol startTime 200 fuel
    endTime).map fun download =>
      download.map fun rates => sort (rates.map Vk.FundingRate.ofBybit)

end Source

end BybitFuturesExchangeConnector

/-- Rates that are in order stay as they are. -/
theorem SortsByTime.eq_self {sort : List Vk.FundingRate → List Vk.FundingRate}
    (hsort : SortsByTime sort) {rates : List Vk.FundingRate}
    (h : rates.Pairwise fun a b => a.fundingTime < b.fundingTime) : sort rates = rates := by
  have hunique : ∀ a b, a ∈ sort rates → b ∈ rates → a.fundingTime ≤ b.fundingTime →
      b.fundingTime ≤ a.fundingTime → a = b := by
    intro a b ha hb hab hba
    have hdiffer : rates.Pairwise fun a b => a.fundingTime ≠ b.fundingTime := h.imp ne_of_lt
    have hsymm : Std.Symm fun a b : Vk.FundingRate => a.fundingTime ≠ b.fundingTime :=
      { symm := fun _ _ hne => hne.symm }
    by_contra hne
    exact hdiffer.forall ((hsort.perm rates).subset ha) hb hne (le_antisymm hab hba)
  exact List.Perm.eq_of_pairwise hunique (hsort.ordered rates) (h.imp le_of_lt) (hsort.perm rates)

variable {text : JsonText} {common : VkCommon} {readers : ReplyReaders}
  {get : Nat → String → Parameters → Except String HttpResponse} {p : Nat}

/-- The download of funding rates returns what lay in the range at the first request; an
    empty range and one of a single instant are not asked for. -/
theorem getFundingRates_returns (history : FundingHistory)
    {funding : Endpoint (List FundingRate)} {category : Category} {symbol : String} {limit : Int}
    (hserve : ServesFunding funding history.records category symbol) (hlimit : 1 ≤ limit)
    (startTime endTime : Int) :
    ∃ enough, ∀ fuel, enough ≤ fuel →
      getFundingRates funding category symbol startTime limit fuel endTime = some (.ok
        (if startTime < endTime then
          Timeline.between FundingRate.fundingRateTimestamp startTime endTime (history.records 0)
        else [])) := by
  by_cases hrange : startTime < endTime
  · have hfirst : requestFunding funding category symbol startTime limit endTime [] 0 =
        .ok { endTime := endTime
              fr := fundingPage (history.records 0) startTime endTime limit
              retVal := []
              requests := 1 } := by
      simp only [requestFunding, if_pos hrange, hserve 0]
    have hstart : FundingInv history startTime endTime limit
        { endTime := endTime, fr := fundingPage (history.records 0) startTime endTime limit,
          retVal := [], requests := 1 } :=
      { whole := List.nil_append _, page := rfl }
    obtain ⟨r, hreturns, rfl⟩ :=
      Loop.total_correctness (fundingVariant startTime)
        (fundingPass_progress hserve hlimit) _ hstart
    obtain ⟨enough, hrun⟩ := hreturns.eventually
    refine ⟨enough, ?_⟩
    intro fuel hfuel
    rw [getFundingRates, hfirst, if_pos hrange]
    exact hrun fuel hfuel
  · refine ⟨1, ?_⟩
    intro fuel hfuel
    obtain ⟨fuel, rfl⟩ := Nat.exists_eq_add_of_le' hfuel
    simp only [getFundingRates, requestFunding, if_neg hrange, Loop.run, fundingPass,
      List.getLast?_nil, List.reverse_nil]

/-- **Historical funding rates, from the replies on.**  On an exchange that sends its
    history as it is at each request, the connector returns in order of time what lay from
    `startTime` to `endTime` at the first request; sorting changes nothing. -/
theorem historicalFundingRates_exact (hreads : ReadsMarket common readers)
    (history : FundingHistory) (hrates : ∀ k, ∀ rate ∈ history.records k, rate.Sendable p)
    (symbol : String) (hsends : SendsFunding text get p history.records .linear symbol)
    (sort : List Vk.FundingRate → List Vk.FundingRate) (hsort : SortsByTime sort)
    (startTime endTime : Int) :
    ∃ rates enough, (∀ fuel, enough ≤ fuel →
        BybitFuturesExchangeConnector.getHistoricalFundingRates text common readers get sort fuel
          symbol startTime endTime = some (.ok rates)) ∧
      rates = (if startTime < endTime then (history.records 0).filter fun rate =>
          decide (startTime ≤ rate.fundingRateTimestamp ∧ rate.fundingRateTimestamp ≤ endTime)
        else []).map Vk.FundingRate.ofBybit ∧
      rates.Pairwise fun a b => a.fundingTime < b.fundingTime := by
  have hserves := servesFunding_of_replies hreads hrates hsends
  have hlimit : (1 : Int) ≤ 200 := by decide
  obtain ⟨enough, hreturns⟩ := getFundingRates_returns history hserves hlimit startTime endTime
  have hordered : ((if startTime < endTime then Timeline.between FundingRate.fundingRateTimestamp
      startTime endTime (history.records 0) else []).map Vk.FundingRate.ofBybit).Pairwise
        fun a b => a.fundingTime < b.fundingTime := by
    rw [List.pairwise_map]
    split
    · exact Timeline.ordered_between (history.ordered 0)
    · exact List.Pairwise.nil
  refine ⟨_, enough, ?_, rfl, hordered⟩
  intro fuel hfuel
  rw [BybitFuturesExchangeConnector.getHistoricalFundingRates, hreturns fuel hfuel,
    Option.map_some, Except.map, hsort.eq_self hordered]
  rfl

/-! ### Two candles and two rates -/

def commaSeparated (parts : List String) : String := String.intercalate "," parts

/-- The text of a reply with a list. -/
def replyBody (head : String) (rows : List String) : String :=
  "\x7b\"retCode\":0,\"retMsg\":\"OK\",\"result\":\x7b" ++ head ++ "\"list\":[" ++
    commaSeparated rows ++ "]\x7d,\"retExtInfo\":\x7b\x7d,\"time\":0\x7d"

def candleText (candle : Candle) : String :=
  "[" ++ commaSeparated ((toString candle.startTime :: candle.amounts.map (Decimal.printed 2)).map
    fun value => "\"" ++ value ++ "\"") ++ "]"

def klineBody (candles : List Candle) : String :=
  replyBody "\"symbol\":\"BTCUSDT\",\"category\":\"linear\"," (candles.map candleText)

def fundingText (rate : FundingRate) : String :=
  "\x7b\"symbol\":\"" ++ rate.symbol ++ "\",\"fundingRate\":\"" ++
    Decimal.printed 2 rate.fundingRate ++ "\",\"fundingRateTimestamp\":\"" ++
      toString rate.fundingRateTimestamp ++ "\"\x7d"

def fundingBody (rates : List FundingRate) : String :=
  replyBody "\"category\":\"linear\"," (rates.map fundingText)

def twoCandles : List Candle := [flatCandle 0 (15 / 2), flatCandle 60000 8]

example : candleText (flatCandle 60000 (15 / 2)) =
    "[\"60000\",\"7.50\",\"7.50\",\"7.50\",\"7.50\",\"0.00\",\"0.00\"]" := by decide +kernel

/-- The pages of a market: newest first, and nothing but its candles. -/
theorem klinePage_mem_sublists (candles : List Candle) (start limit : Int) :
    klinePage candles start limit ∈ candles.reverse.sublists := by
  rw [List.mem_sublists, klinePage]
  exact ((List.take_sublist _ _).trans List.filter_sublist).reverse

theorem fundingPage_mem_sublists (records : List FundingRate) (startTime endTime limit : Int) :
    fundingPage records startTime endTime limit ∈ records.reverse.sublists := by
  rw [List.mem_sublists, fundingPage]
  exact (List.take_sublist _ _).trans List.filter_sublist.reverse

/-- The bodies of all pages, and what they stand for. -/
def klineText : JsonText :=
  documentsText (twoCandles.reverse.sublists.map fun page =>
    (klineBody page, klineReply 2 .linear "BTCUSDT" page 0))

def fundingRatesText : JsonText :=
  documentsText (twoFunding.reverse.sublists.map fun page =>
    (fundingBody page, fundingReply 2 .linear page 0))

/-- An exchange with two candles. -/
def sendsTwoCandles : Nat → String → Parameters → Except String HttpResponse :=
  fun k _ parameters =>
    match klineServer (fun _ => twoCandles) k parameters with
    | .ok page => .ok (answer (klineBody page))
    | .error _ => .error "no answer"

def sendsTwoFunding : Nat → String → Parameters → Except String HttpResponse :=
  fun k _ parameters =>
    match fundingServer (fun _ => twoFunding) k parameters with
    | .ok page => .ok (answer (fundingBody page))
    | .error _ => .error "no answer"

theorem twoCandles_sent :
    SendsKline klineText sendsTwoCandles 2 (fun _ => twoCandles) .linear "BTCUSDT" ._1 := by
  intro k start limit
  have hserves := klineServer_serves (fun _ => twoCandles) .linear "BTCUSDT" ._1 k start limit
  have hnodup : (twoCandles.reverse.sublists.map klineBody).Nodup := by decide +kernel
  refine ⟨0, by decide, answer (klineBody (klinePage twoCandles start limit)), ?_, rfl, ?_⟩
  · rw [sendsTwoCandles, hserves]
  · exact parse_documentsText klineBody (fun page => klineReply 2 .linear "BTCUSDT" page 0) hnodup
      (klinePage_mem_sublists twoCandles start limit)

theorem twoFunding_sent :
    SendsFunding fundingRatesText sendsTwoFunding 2 (fun _ => twoFunding) .linear "BTCUSDT" := by
  intro k startTime endTime limit
  have hserves := fundingServer_serves (fun _ => twoFunding) .linear "BTCUSDT" k startTime endTime
    limit
  have hnodup : (twoFunding.reverse.sublists.map fundingBody).Nodup := by decide +kernel
  refine ⟨0, by decide, answer (fundingBody (fundingPage twoFunding startTime endTime limit)), ?_,
    rfl, ?_⟩
  · rw [sendsTwoFunding, hserves]
  · exact parse_documentsText fundingBody (fun page => fundingReply 2 .linear page 0) hnodup
      (fundingPage_mem_sublists twoFunding startTime endTime limit)

theorem twoCandles_sendable : ∀ candle ∈ twoCandles, candle.Sendable 2 := by decide +kernel

theorem twoFunding_sendable : ∀ rate ∈ twoFunding, rate.Sendable 2 := by decide +kernel

theorem twoCandles_spaced : twoCandles.Pairwise fun c d =>
    c.startTime + numberOfMsForCandleInterval (toBybitInterval ._1m) ≤ d.startTime := by
  decide

/-- A history at rest. -/
def restingFunding : FundingHistory where
  records _ := twoFunding
  spaced _ := by
    show twoFunding.Pairwise _
    decide
  grows _ := List.prefix_refl _

theorem mergeSort_sortsByTime :
    SortsByTime fun rates => rates.mergeSort fun a b => decide (a.fundingTime ≤ b.fundingTime) where
  perm rates := List.mergeSort_perm rates _
  ordered rates := by
    have hsorted := @List.pairwise_mergeSort Vk.FundingRate
      (fun a b => decide (a.fundingTime ≤ b.fundingTime))
      (by simp only [decide_eq_true_eq]; omega)
      (by simp only [Bool.or_eq_true, decide_eq_true_eq]; omega) rates
    simpa only [decide_eq_true_eq] using hsorted

theorem historicalFundingRates_exact_resting :
    ∃ enough, ∀ fuel, enough ≤ fuel →
      BybitFuturesExchangeConnector.getHistoricalFundingRates fundingRatesText
          (.documented sizeNumber) (.documented sizeNumber) sendsTwoFunding
          (fun rates => rates.mergeSort fun a b => decide (a.fundingTime ≤ b.fundingTime)) fuel
          "BTCUSDT" 10 15 =
        some (.ok [{ symbol := "BTCUSDT", fundingRate := 1, fundingTime := 10 }]) := by
  obtain ⟨rates, enough, hreturns, hrates, -⟩ := historicalFundingRates_exact
    documented_readsMarket restingFunding (p := 2)
    (fun _ => twoFunding_sendable) "BTCUSDT" twoFunding_sent _
    mergeSort_sortsByTime 10 15
  refine ⟨enough, fun fuel hfuel => ?_⟩
  rw [hreturns fuel hfuel, hrates]
  rfl

end BybitApi
