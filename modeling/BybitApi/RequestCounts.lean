import Mathlib.Algebra.Order.Floor.Div
import BybitApi.StaticMarket
import BybitApi.FundingSplit

/-!
# The number of requests of a download

Each page costs a request, and requests are what the exchange rations.

The download of candles begins each page with the newest candle of the page before,
so a full page brings `limit - 1` new ones.  It spares a request when it sees a candle
that starts an interval after `to` (`getHistoricalPrices_requests`).

The download of funding rates goes on until a page is empty.  It spares the request
for that page when its last record lies within a millisecond of `startTime`
(`getFundingRates_requests`).
-/

namespace BybitApi

/-! ### Candles -/

/-- The requests after the first, when `n` candles are in reach. -/
def furtherPages (n limit : Nat) (ends : Prop) [Decidable ends] : Nat :=
  if ends then (n - 1) ⌈/⌉ (limit - 1) else (n - 1) / (limit - 1)

section FurtherPages

variable {n limit : Nat} {ends : Prop} [Decidable ends]

theorem furtherPages_le_one (hn : n ≤ 1) : furtherPages n limit ends = 0 := by
  have hzero : n - 1 = 0 := by omega
  simp [furtherPages, hzero]

/-- A full page brings all its candles but the newest. -/
theorem furtherPages_full (hlimit : 2 ≤ limit) (hn : 1 ≤ n) :
    furtherPages (limit - 1 + n) limit ends = furtherPages n limit ends + 1 := by
  obtain ⟨d, hd⟩ : ∃ d, limit = d + 2 := ⟨limit - 2, by omega⟩
  subst hd
  have hpred : d + 2 - 1 + n - 1 = (n - 1) + (d + 1) := by omega
  have hstep : (n - 1) + (d + 1) + (d + 1) - 1 = (n - 1) + (d + 1) - 1 + (d + 1) := by omega
  rw [furtherPages, furtherPages, hpred, show d + 2 - 1 = d + 1 from rfl]
  split
  · rw [Nat.ceilDiv_eq_add_pred_div, Nat.ceilDiv_eq_add_pred_div, hstep,
      Nat.add_div_right _ (Nat.succ_pos d)]
  · exact Nat.add_div_right _ (Nat.succ_pos d)

/-- A page that is not full is the last to bring anything. -/
theorem furtherPages_short (hends : ends) (htwo : 2 ≤ n) (hn : n ≤ limit) :
    furtherPages n limit ends = 1 := by
  rw [furtherPages, if_pos hends, Nat.ceilDiv_eq_add_pred_div]
  exact Nat.div_eq_of_lt_le (by omega) (by omega)

theorem furtherPages_beyond (hends : ¬ ends) (hn : n < limit) (hlimit : 2 ≤ limit) :
    furtherPages n limit ends = 0 := by
  rw [furtherPages, if_neg hends]
  exact Nat.div_eq_of_lt (by omega)

end FurtherPages

/-- What is kept of a page and ends by `to` is the page without its newest candle. -/
theorem popNewest_within {interval : CandleInterval} {to_ : Int} {page front : List Candle}
    {last : Candle} (hkept : popNewest interval to_ page = front ++ [last])
    (hto : last.startTime ≤ to_) :
    ∃ newest, page = front ++ [last] ++ [newest] ∧
      newest.startTime < to_ + numberOfMsForCandleInterval interval := by
  have hms := numberOfMsForCandleInterval_pos interval
  rcases List.eq_nil_or_concat' page with rfl | ⟨older, newest, rfl⟩
  · simp [popNewest] at hkept
  · rw [popNewest_concat] at hkept
    split at hkept
    · exact ⟨newest, by rw [hkept], by omega⟩
    · obtain ⟨-, hlast⟩ := List.append_inj' hkept rfl
      have heq : newest = last := by simpa using hlast
      subst heq
      omega

/-- What is kept of a page and reaches beyond `to` is the page, and it ends an interval
    after `to` or later. -/
theorem popNewest_beyond {interval : CandleInterval} {to_ : Int} {page front : List Candle}
    {last : Candle}
    (hspaced : page.Pairwise fun c d =>
      c.startTime + numberOfMsForCandleInterval interval ≤ d.startTime)
    (hkept : popNewest interval to_ page = front ++ [last]) (hto : to_ < last.startTime) :
    page = front ++ [last] ∧ to_ + numberOfMsForCandleInterval interval ≤ last.startTime := by
  rcases List.eq_nil_or_concat' page with rfl | ⟨older, newest, rfl⟩
  · simp [popNewest] at hkept
  · rw [popNewest_concat] at hkept
    split at hkept
    · -- the candle before the newest one would start after `to`, too
      subst hkept
      have hgap := (List.pairwise_append.mp hspaced).2.2 last (by simp) newest (by simp)
      omega
    · obtain ⟨-, hlast⟩ := List.append_inj' hkept rfl
      have heq : newest = last := by simpa using hlast
      subst heq
      exact ⟨hkept, by omega⟩

theorem length_le_one_of_popNewest {interval : CandleInterval} {to_ : Int} {page : List Candle}
    (hkept : popNewest interval to_ page = []) : page.length ≤ 1 := by
  rcases List.eq_nil_or_concat' page with rfl | ⟨older, newest, rfl⟩
  · simp
  · rw [popNewest_concat] at hkept
    split at hkept
    · simp [hkept]
    · simp at hkept

section Candles

variable {kline : Endpoint (List Candle)} {category : Category} {symbol : String}
  {interval : CandleInterval} {candles : List Candle} {from₀ to_ limit : Int}

theorem requests_of_again {s next : CandleDownload}
    (h : historicalPass kline category symbol interval to_ limit s = .again next) :
    next.requests = s.requests + 1 := by
  obtain ⟨front, last, hkept, hto, -⟩ := historicalPass_again h
  rw [historicalPass_of_within hkept hto] at h
  split at h
  · cases h
  · injection h with hnext
    subst hnext
    rfl

theorem requests_of_exit {s d : CandleDownload}
    (h : historicalPass kline category symbol interval to_ limit s = .exit (.ok d)) :
    d.requests = s.requests := by
  rcases historicalPass_exit h with ⟨hkept, -⟩ | ⟨front, last, hkept, hto, -⟩
  · rw [historicalPass_of_nil hkept] at h
    injection h with h
    injection h with hd
    subst hd
    rfl
  · rw [historicalPass_of_beyond hkept hto] at h
    injection h with h
    injection h with hd
    subst hd
    rfl

variable (interval candles to_) in
/-- The candles in reach of a download that has come to `start`. -/
def inReach (start : Int) : List Candle :=
  Timeline.slice Candle.startTime start (to_ + numberOfMsForCandleInterval interval) candles

instance : Decidable (EndsBy interval candles from₀ to_) :=
  inferInstanceAs (Decidable (∀ c ∈ candles, from₀ ≤ c.startTime →
    c.startTime < to_ + numberOfMsForCandleInterval interval))

variable (interval candles from₀ to_ limit) in
/-- The requests after the page at hand. -/
def requestsLeft (s : CandleDownload) : Nat :=
  furtherPages (inReach interval candles to_ s.from_).length limit.toNat
    (EndsBy interval candles from₀ to_)

variable {hspaced : candles.Pairwise fun c d =>
  c.startTime + numberOfMsForCandleInterval interval ≤ d.startTime}

/-- What is in reach at the loop head is what is kept of the page, and what is in reach
    at the next. -/
theorem inReach_append {s : CandleDownload} {front : List Candle} {last newest : Candle}
    {k : Nat} (hinv : DownloadInv (staticMarket candles hspaced) from₀ to_ limit k s)
    (hpage : s.candles.reverse = front ++ [last] ++ [newest]) (hto : last.startTime ≤ to_) :
    inReach interval candles to_ s.from_ = front ++ [last] ++
        inReach interval candles to_ (last.startTime + numberOfMsForCandleInterval interval) ∧
      last.startTime + numberOfMsForCandleInterval interval ≤ newest.startTime := by
  have hms := numberOfMsForCandleInterval_pos interval
  have hord : Timeline.Ordered Candle.startTime candles := hspaced.imp fun h => by omega
  obtain ⟨later, hsince⟩ := hinv.since_eq
  rw [hpage, List.append_assoc] at hsince
  replace hsince : Timeline.since Candle.startTime s.from_ candles =
    front ++ [last] ++ ([newest] ++ later) := hsince
  have hpairs : (Timeline.since Candle.startTime s.from_ candles).Pairwise
      (fun c d => c.startTime + numberOfMsForCandleInterval interval ≤ d.startTime) :=
    List.Pairwise.filter _ hspaced
  have hsorted := Timeline.ordered_since (a := s.from_) hord
  rw [hsince] at hpairs hsorted
  have hgap := (List.pairwise_append.mp hpairs).2.2 last (by simp)
  have hstart : s.from_ ≤ last.startTime := by
    have hlast : last ∈ Timeline.since Candle.startTime s.from_ candles := by
      rw [hsince]
      simp
    exact (Timeline.mem_since.mp hlast).2
  have hkept : Timeline.slice Candle.startTime s.from_
      (last.startTime + numberOfMsForCandleInterval interval) candles = front ++ [last] := by
    apply Timeline.slice_of_since hsince _ hgap
    intro c hc
    have hle := Timeline.Ordered.le_last (List.pairwise_append.mp hsorted).1 hc
    omega
  refine ⟨?_, hgap newest (by simp)⟩
  rw [← hkept]
  exact (Timeline.slice_append_slice hord (by omega) (by omega)).symm

/-- Nothing is in reach that is not on a page with fewer candles than it may have. -/
theorem length_inReach_of_short {s : CandleDownload} {k : Nat}
    (hinv : DownloadInv (staticMarket candles hspaced) from₀ to_ limit k s)
    (hshort : s.candles.length < limit.toNat) :
    (inReach interval candles to_ s.from_).length ≤ s.candles.length := by
  have hsince : Timeline.since Candle.startTime s.from_ candles = s.candles.reverse :=
    hinv.since_of_short hshort
  rw [inReach, Timeline.slice_eq_filter_since, hsince]
  exact (List.length_filter_le _ _).trans_eq List.length_reverse

/-- A page that ends an interval after `to` has what is in reach before its last candle. -/
theorem length_inReach_of_beyond {s : CandleDownload} {front : List Candle} {last : Candle}
    {k : Nat} (hinv : DownloadInv (staticMarket candles hspaced) from₀ to_ limit k s)
    (hpage : s.candles.reverse = front ++ [last])
    (hlast : to_ + numberOfMsForCandleInterval interval ≤ last.startTime) :
    (inReach interval candles to_ s.from_).length < s.candles.length := by
  have hms := numberOfMsForCandleInterval_pos interval
  have hord : Timeline.Ordered Candle.startTime candles := hspaced.imp fun h => by omega
  obtain ⟨later, hsince⟩ := hinv.since_eq
  rw [hpage, List.append_assoc] at hsince
  replace hsince : Timeline.since Candle.startTime s.from_ candles =
    front ++ ([last] ++ later) := hsince
  have hsorted := Timeline.ordered_since (a := s.from_) hord
  rw [hsince] at hsorted
  have hnone : ([last] ++ later).filter (fun c => decide
      (c.startTime < to_ + numberOfMsForCandleInterval interval)) = [] := by
    rw [List.filter_eq_nil_iff]
    intro c hc
    simp only [decide_eq_true_eq, not_lt]
    rcases List.mem_cons.mp hc with rfl | hlater
    · exact hlast
    · have hafter := (List.pairwise_cons.mp (List.pairwise_append.mp hsorted).2.1).1 c hlater
      omega
  have hlength : s.candles.length = front.length + 1 := by
    rw [← List.length_reverse, hpage, List.length_append, List.length_singleton]
  rw [inReach, Timeline.slice_eq_filter_since, hsince, List.filter_append, hnone,
    List.append_nil, hlength, Nat.lt_succ_iff]
  exact List.length_filter_le _ _

theorem length_page {s : CandleDownload} {k : Nat}
    (hinv : DownloadInv (staticMarket candles hspaced) from₀ to_ limit k s) :
    s.candles.length ≤ limit.toNat := by
  rw [hinv.page, klinePage, List.length_reverse]
  exact List.length_take_le _ _

/-- A pass that goes round again makes one of the requests that were left. -/
theorem requestsLeft_of_again {s next : CandleDownload}
    (hinv : BatchInv from₀ to_ limit hspaced s)
    (h : historicalPass kline category symbol interval to_ limit s = .again next) :
    requestsLeft interval candles from₀ to_ limit s =
      requestsLeft interval candles from₀ to_ limit next + 1 := by
  obtain ⟨k, hdownload⟩ := hinv.download
  obtain ⟨front, last, hkept, hto, hfrom, -⟩ := historicalPass_again h
  obtain ⟨newest, hpage, hnewest⟩ := popNewest_within hkept hto
  obtain ⟨happend, hgap⟩ := inReach_append hdownload hpage hto
  have hlength : s.candles.length = front.length + 2 := by
    rw [← List.length_reverse, hpage]
    simp
  have hreach := congrArg List.length happend
  rw [List.length_append, List.length_append, List.length_singleton] at hreach
  -- the newest candle of the page is the first of the next one
  have hpos : 1 ≤ (inReach interval candles to_
      (last.startTime + numberOfMsForCandleInterval interval)).length := by
    obtain ⟨hmem, -⟩ := Timeline.mem_since.mp
      (hdownload.mem_since_of_page (c := newest) (by simp [hpage]))
    exact List.length_pos_of_mem (Timeline.mem_slice.mpr ⟨hmem, hgap, hnewest⟩)
  rw [requestsLeft, requestsLeft, hfrom]
  have hle := length_page hdownload
  rcases lt_or_eq_of_le hle with hshort | hfull
  · have hreached := length_inReach_of_short hdownload hshort
    have hends : EndsBy interval candles from₀ to_ := by
      rw [hinv.endsBy_iff]
      intro c hc
      have hsince : Timeline.since Candle.startTime s.from_ candles = s.candles.reverse :=
        hdownload.since_of_short hshort
      have hms := numberOfMsForCandleInterval_pos interval
      have hsorted : Timeline.Ordered Candle.startTime (front ++ [last] ++ [newest]) :=
        hpage ▸ hdownload.page_spaced.imp fun hpair => by omega
      rw [hsince, hpage] at hc
      exact (hsorted.le_last hc).trans_lt hnewest
    rw [furtherPages_short hends (by omega) (by omega), furtherPages_le_one (by omega)]
  · have hpages : (inReach interval candles to_ s.from_).length = limit.toNat - 1 +
        (inReach interval candles to_
          (last.startTime + numberOfMsForCandleInterval interval)).length := by
      omega
    rw [hpages, furtherPages_full (by omega) hpos]

theorem requestsLeft_of_exit (hlimit : 2 ≤ limit) {s d : CandleDownload}
    (hinv : BatchInv from₀ to_ limit hspaced s)
    (h : historicalPass kline category symbol interval to_ limit s = .exit (.ok d)) :
    requestsLeft interval candles from₀ to_ limit s = 0 := by
  obtain ⟨k, hdownload⟩ := hinv.download
  have hle := length_page hdownload
  rcases historicalPass_exit h with ⟨hkept, -⟩ | ⟨front, last, hkept, hto, -⟩
  · have hone := length_le_one_of_popNewest hkept
    rw [List.length_reverse] at hone
    have hreached := length_inReach_of_short hdownload (by omega)
    exact furtherPages_le_one (by omega)
  · obtain ⟨hpage, hlate⟩ := popNewest_beyond hdownload.page_spaced hkept hto
    have hreached := length_inReach_of_beyond hdownload hpage hlate
    exact furtherPages_beyond (hinv.not_endsBy_of_beyond hkept hto) (by omega) (by omega)

/-- A pass keeps the sum of the requests made and those left. -/
theorem historicalPass_requests
    (hserve : ServesKline kline (fun _ => candles) category symbol interval) (hlimit : 2 ≤ limit)
    {total : Nat} (s : CandleDownload)
    (hs : BatchInv from₀ to_ limit hspaced s ∧
      s.requests + requestsLeft interval candles from₀ to_ limit s = total) :
    (∃ next, historicalPass kline category symbol interval to_ limit s = .again next ∧
      (BatchInv from₀ to_ limit hspaced next ∧
        next.requests + requestsLeft interval candles from₀ to_ limit next = total) ∧
      downloadVariant interval to_ next < downloadVariant interval to_ s) ∨
    (∃ r, historicalPass kline category symbol interval to_ limit s = .exit r ∧
      ∃ d, r = .ok d ∧ d.requests = total) := by
  obtain ⟨hinv, htotal⟩ := hs
  rcases historicalPass_batches hserve hlimit s hinv with
    ⟨next, hpass, hnext, hlt⟩ | ⟨_, hpass, d, rfl, -⟩
  · refine Or.inl ⟨next, hpass, ⟨hnext, ?_⟩, hlt⟩
    have hmade := requests_of_again hpass
    have hleft := requestsLeft_of_again hinv hpass
    omega
  · refine Or.inr ⟨_, hpass, d, rfl, ?_⟩
    have hleft := requestsLeft_of_exit hlimit hinv hpass
    rw [requests_of_exit hpass]
    omega

end Candles

/-- **The requests of a download of candles.**  Of a market at rest, with `n` candles
    from `from` on that start less than an interval after `to`, the download costs a
    request for its first page and then one for each `limit - 1` candles: also for
    the last few, unless the market goes on. -/
theorem getHistoricalPrices_requests (kline : Endpoint (List Candle)) (candles : List Candle)
    (category : Category) (symbol : String) (interval : CandleInterval)
    (from_ to_ limit : Int)
    (hspaced : candles.Pairwise fun c d =>
      c.startTime + numberOfMsForCandleInterval interval ≤ d.startTime)
    (hserve : ServesKline kline (fun _ => candles) category symbol interval)
    (hlimit : 2 ≤ limit) :
    ∃ d, (∃ enough, ∀ fuel, enough ≤ fuel →
        getHistoricalPrices kline category symbol interval to_ limit fuel from_ =
          some (.ok d)) ∧
      d.requests = 1 + furtherPages
        (candles.filter fun c => decide (from_ ≤ c.startTime ∧
          c.startTime < to_ + numberOfMsForCandleInterval interval)).length
        limit.toNat
        (∀ c ∈ candles, from_ ≤ c.startTime →
          c.startTime < to_ + numberOfMsForCandleInterval interval) := by
  have hinv : BatchInv from_ to_ limit hspaced
      { from_ := from_, candles := klinePage candles from_ limit, retVal := [],
        written := [], requests := 1 } :=
    { download := ⟨0,
        { requests := rfl
          page := rfl
          kept := (List.filter_eq_nil_iff.mpr (fun c _ => by simp)).symm
          start_le := le_refl _
          kept_le := by simp }⟩
      written := rfl
      start := Or.inl rfl }
  obtain ⟨r, hreturns, d, rfl, hrequests⟩ :=
    Loop.total_correctness (downloadVariant interval to_)
      (historicalPass_requests hserve hlimit) _ ⟨hinv, rfl⟩
  obtain ⟨enough, hrun⟩ := hreturns.eventually
  refine ⟨d, ⟨enough, ?_⟩, hrequests⟩
  intro fuel hle
  rw [getHistoricalPrices, hserve 0 from_ limit]
  exact hrun fuel hle

theorem getHistoricalPrices_requests_threeMinutes :
    ∃ d, (∃ enough, ∀ fuel, enough ≤ fuel →
        getHistoricalPrices (klineServer fun _ => threeMinutes) .linear "BTCUSDT" ._1
          150000 2 fuel 0 = some (.ok d)) ∧
      d.requests = 4 :=
  getHistoricalPrices_requests (klineServer fun _ => threeMinutes) threeMinutes .linear "BTCUSDT"
    ._1 0 150000 2 threeMinutes_spaced (klineServer_serves _ _ _ _) (by decide)

/-! ### Funding rates -/

/-- The requests after the first, when `n` records are in the range, and `last` of them
    for the page that is empty. -/
def fundingPagesLeft (n limit last : Nat) : Nat :=
  if n = 0 then 0 else (n - 1) / limit + last

section FundingPages

variable {n limit last : Nat}

theorem fundingPagesLeft_one (hpos : 1 ≤ n) (hn : n ≤ limit) :
    fundingPagesLeft n limit last = last := by
  rw [fundingPagesLeft, if_neg (by omega), Nat.div_eq_of_lt (by omega), Nat.zero_add]

theorem fundingPagesLeft_full (hlimit : 1 ≤ limit) (hpos : 1 ≤ n) :
    fundingPagesLeft (limit + n) limit last = fundingPagesLeft n limit last + 1 := by
  have hpred : limit + n - 1 = (n - 1) + limit := by omega
  rw [fundingPagesLeft, fundingPagesLeft, if_neg (by omega), if_neg (by omega), hpred,
    Nat.add_div_right _ hlimit]
  omega

/-- With the first request: one for each page that is not empty, and `last`. -/
theorem fundingPagesLeft_add_one (hlimit : 1 ≤ limit) (hlast : n = 0 → last = 1) :
    1 + fundingPagesLeft n limit last = n ⌈/⌉ limit + last := by
  rw [Nat.ceilDiv_eq_add_pred_div]
  rcases Nat.eq_zero_or_pos n with rfl | hpos
  · rw [hlast rfl, fundingPagesLeft, if_pos rfl, Nat.div_eq_of_lt (by omega)]
  · have hpred : n + limit - 1 = (n - 1) + limit := by omega
    rw [fundingPagesLeft, if_neg (by omega), hpred, Nat.add_div_right _ hlimit]
    omega

end FundingPages

/-- A record so close to `startTime` that nothing is asked for below it. -/
def EndsAtStart (records : List FundingRate) (startTime : Int) : Prop :=
  ∃ r ∈ records, startTime ≤ r.fundingRateTimestamp ∧ r.fundingRateTimestamp ≤ startTime + 1

instance (records : List FundingRate) (startTime : Int) :
    Decidable (EndsAtStart records startTime) :=
  inferInstanceAs (Decidable (∃ r ∈ records, startTime ≤ r.fundingRateTimestamp ∧
    r.fundingRateTimestamp ≤ startTime + 1))

/-- The number of requests that `getFundingRates` has made when it is at the head of
    its loop for the last time. -/
def fundingRequests (funding : Endpoint (List FundingRate)) (category : Category)
    (symbol : String) (startTime limit : Int) (fuel : Nat) (endTime : Int) : Option Nat :=
  match requestFunding funding category symbol startTime limit endTime [] 0 with
  | .error _ => none
  | .ok s =>
      (Loop.heads (fundingPass funding category symbol startTime limit) fuel s).getLast?.map
        FundingDownload.requests

section FundingRates

variable {history : FundingHistory} {funding : Endpoint (List FundingRate)}
  {category : Category} {symbol : String} {startTime endTime₀ limit : Int}

theorem requestFunding_ok {endTime : Int} {retVal : List FundingRate} {requests : Nat}
    {s : FundingDownload}
    (h : requestFunding funding category symbol startTime limit endTime retVal requests =
      .ok s) :
    s.endTime = endTime ∧
      s.requests = if startTime < endTime then requests + 1 else requests := by
  rw [requestFunding] at h
  by_cases hlt : startTime < endTime
  · rw [if_pos hlt] at h ⊢
    split at h
    · cases h
    · cases h
      exact ⟨rfl, rfl⟩
  · rw [if_neg hlt] at h ⊢
    cases h
    exact ⟨rfl, rfl⟩

theorem fundingPass_again {s next : FundingDownload}
    (h : fundingPass funding category symbol startTime limit s = .again next) :
    ∃ oldest, s.fr.getLast? = some oldest ∧
      next.endTime = oldest.fundingRateTimestamp - 1 ∧
      next.requests =
        if startTime < oldest.fundingRateTimestamp - 1 then s.requests + 1 else s.requests := by
  rw [fundingPass] at h
  split at h
  · cases h
  · next oldest hback =>
      split at h
      · cases h
      · next reply hreply =>
          injection h with hnext
          subst hnext
          exact ⟨oldest, hback, requestFunding_ok hreply⟩

theorem fundingPass_exit {s : FundingDownload} {retVal : List FundingRate}
    (h : fundingPass funding category symbol startTime limit s = .exit (.ok retVal)) :
    s.fr = [] := by
  rw [fundingPass] at h
  split at h
  · next hback => exact List.getLast?_eq_none_iff.mp hback
  · split at h
    · injection h with h
      cases h
    · cases h

variable (history startTime limit) in
/-- The requests after the page at hand. -/
def fundingRequestsLeft (s : FundingDownload) : Nat :=
  fundingPagesLeft (Timeline.between FundingRate.fundingRateTimestamp startTime s.endTime
      (history.records 0)).length limit.toNat
    (if EndsAtStart (history.records 0) startTime then 0 else 1)

/-- Nothing is asked for below the oldest record in the range, exactly if it is close to
    `startTime`. -/
theorem endsAtStart_iff {oldest : FundingRate}
    (hrecord : oldest ∈ history.records 0)
    (hstart : startTime ≤ oldest.fundingRateTimestamp)
    (hnone : Timeline.between FundingRate.fundingRateTimestamp startTime
      (oldest.fundingRateTimestamp - 1) (history.records 0) = []) :
    EndsAtStart (history.records 0) startTime ↔ ¬ startTime < oldest.fundingRateTimestamp - 1 := by
  constructor
  · rintro ⟨r, hr, hfrom, hto⟩ hlt
    have hmem : r ∈ Timeline.between FundingRate.fundingRateTimestamp startTime
        (oldest.fundingRateTimestamp - 1) (history.records 0) :=
      Timeline.mem_between.mpr ⟨hr, hfrom, by omega⟩
    rw [hnone] at hmem
    cases hmem
  · intro hge
    exact ⟨oldest, hrecord, hstart, by omega⟩

/-- What is made of the requests that were left. -/
theorem fundingRequestsLeft_of_again {s next : FundingDownload}
    (hinv : FundingInv history startTime endTime₀ limit s)
    (h : fundingPass funding category symbol startTime limit s = .again next) :
    s.requests + fundingRequestsLeft history startTime limit s =
      next.requests + fundingRequestsLeft history startTime limit next := by
  obtain ⟨oldest, hback, hend, hrequests⟩ := fundingPass_again h
  obtain ⟨hrecord, hstart, hle, hsplit⟩ := hinv.split hback
  have hpage := hinv.page
  have hfull := length_fundingPage (hpage ▸ hsplit)
  rw [← hpage] at hfull
  have hpos : 1 ≤ s.fr.length := by
    obtain ⟨newer, hfr⟩ := List.getLast?_eq_some_iff.mp hback
    simp [hfr]
  have hlength := congrArg List.length hsplit
  rw [List.length_reverse, List.length_append, List.length_reverse] at hlength
  rw [fundingRequestsLeft, fundingRequestsLeft, hend]
  rcases List.eq_nil_or_concat' (Timeline.between FundingRate.fundingRateTimestamp startTime
    (oldest.fundingRateTimestamp - 1) (history.records 0)) with hnone | ⟨front, older, hrest⟩
  · rw [hnone, List.length_nil] at hlength
    rw [hnone, List.length_nil, fundingPagesLeft_one (by omega) (by omega)]
    have hends := endsAtStart_iff hrecord hstart hnone
    by_cases hlt : startTime < oldest.fundingRateTimestamp - 1
    · rw [if_pos hlt] at hrequests
      rw [if_neg (fun h => hends.mp h hlt), hrequests]
      rfl
    · rw [if_neg hlt] at hrequests
      rw [if_pos (hends.mpr hlt), hrequests]
      rfl
  · -- an older record is 2 ms older at least, so the request for it is made
    have hmem : older ∈ Timeline.between FundingRate.fundingRateTimestamp startTime
        (oldest.fundingRateTimestamp - 1) (history.records 0) := by
      rw [hrest]
      simp
    obtain ⟨holder, hfrom, hto⟩ := Timeline.mem_between.mp hmem
    have hgap := history.gap holder hrecord (by omega)
    have hrestPos := List.length_pos_of_mem hmem
    have hlt : startTime < oldest.fundingRateTimestamp - 1 := by omega
    have hwhole := hfull.2 (by simp [hrest])
    rw [if_pos hlt] at hrequests
    rw [hlength, hwhole, fundingPagesLeft_full (by omega) hrestPos, hrequests]
    omega

theorem fundingRequestsLeft_of_exit (hlimit : 1 ≤ limit) {s : FundingDownload}
    {retVal : List FundingRate} (hinv : FundingInv history startTime endTime₀ limit s)
    (h : fundingPass funding category symbol startTime limit s = .exit (.ok retVal)) :
    fundingRequestsLeft history startTime limit s = 0 := by
  have hpage := hinv.page
  rw [fundingPass_exit h, fundingPage, eq_comm, List.take_eq_nil_iff] at hpage
  have hnone := List.reverse_eq_nil_iff.mp (hpage.resolve_left (by omega))
  rw [fundingRequestsLeft, hnone]
  rfl

/-- A pass keeps the sum of the requests made and those left. -/
theorem fundingPass_requests
    (hserve : ServesFunding funding history.records category symbol) (hlimit : 1 ≤ limit)
    {total : Nat} (s : FundingDownload)
    (hs : FundingInv history startTime endTime₀ limit s ∧
      s.requests + fundingRequestsLeft history startTime limit s = total) :
    (∃ next, fundingPass funding category symbol startTime limit s = .again next ∧
      (FundingInv history startTime endTime₀ limit next ∧
        next.requests + fundingRequestsLeft history startTime limit next = total) ∧
      fundingVariant startTime next < fundingVariant startTime s ∧
      ∀ visited (r : Except ApiError (List FundingRate)),
        (visited.getLast?.map FundingDownload.requests = some total ∧ ∃ retVal, r = .ok retVal) →
        (s :: visited).getLast?.map FundingDownload.requests = some total ∧
          ∃ retVal, r = .ok retVal) ∨
    (∃ r, fundingPass funding category symbol startTime limit s = .exit r ∧
      [s].getLast?.map FundingDownload.requests = some total ∧ ∃ retVal, r = .ok retVal) := by
  obtain ⟨hinv, htotal⟩ := hs
  rcases fundingPass_progress hserve hlimit s hinv with
    ⟨next, hpass, hnext, hlt⟩ | ⟨_, hpass, rfl⟩
  · have hsum := fundingRequestsLeft_of_again hinv hpass
    refine Or.inl ⟨next, hpass, ⟨hnext, hsum ▸ htotal⟩, hlt, ?_⟩
    rintro visited r ⟨hlast, hr⟩
    obtain ⟨d, hd, hmade⟩ := Option.map_eq_some_iff.mp hlast
    exact ⟨by rw [List.getLast?_cons, hd]; exact congrArg some hmade, hr⟩
  · have hleft := fundingRequestsLeft_of_exit hlimit hinv hpass
    refine Or.inr ⟨_, hpass, ?_, _, rfl⟩
    rw [hleft] at htotal
    exact congrArg some htotal

end FundingRates

/-- **The requests of a download of funding rates.**  The download of a range with `n`
    records costs a request for each page of `limit` of them, and one more that finds
    nothing, unless there is a record at `startTime` or a millisecond after it. -/
theorem getFundingRates_requests (history : FundingHistory)
    (funding : Endpoint (List FundingRate)) (category : Category) (symbol : String)
    (startTime endTime limit : Int)
    (hserve : ServesFunding funding history.records category symbol)
    (hrange : startTime < endTime) (hlimit : 1 ≤ limit) :
    ∃ retVal enough, ∀ fuel, enough ≤ fuel →
      getFundingRates funding category symbol startTime limit fuel endTime =
        some (.ok retVal) ∧
      fundingRequests funding category symbol startTime limit fuel endTime =
        some (((history.records 0).filter fun r => decide (startTime ≤ r.fundingRateTimestamp ∧
            r.fundingRateTimestamp ≤ endTime)).length ⌈/⌉ limit.toNat +
          if EndsAtStart (history.records 0) startTime then 0 else 1) := by
  have hfirst : requestFunding funding category symbol startTime limit endTime [] 0 =
      .ok { endTime := endTime
            fr := fundingPage (history.records 0) startTime endTime limit
            retVal := []
            requests := 1 } := by
    simp only [requestFunding, if_pos hrange, hserve 0]
  have hstart : FundingInv history startTime endTime limit
      { endTime := endTime, fr := fundingPage (history.records 0) startTime endTime limit,
        retVal := [], requests := 1 } :=
    { whole := List.nil_append _, page := rfl }
  obtain ⟨visited, r, hreturns, hrequests, retVal, rfl⟩ :=
    Loop.total_correctness_via (fundingVariant startTime)
      (fundingPass_requests hserve hlimit) _ ⟨hstart, rfl⟩
  obtain ⟨enough, hrun⟩ := hreturns.eventually
  refine ⟨retVal, enough, ?_⟩
  intro fuel hle
  obtain ⟨hresult, hheads⟩ := hrun fuel hle
  refine ⟨by rw [getFundingRates, hfirst]; exact hresult, ?_⟩
  -- a range without records has none close to its start
  have hempty : (Timeline.between FundingRate.fundingRateTimestamp startTime endTime
      (history.records 0)).length = 0 →
        (if EndsAtStart (history.records 0) startTime then 0 else 1) = 1 := by
    intro hnone
    rw [if_neg]
    rintro ⟨record, hrecord, hfrom, hto⟩
    have hmem := List.length_pos_of_mem
      (Timeline.mem_between.mpr ⟨hrecord, hfrom, show record.fundingRateTimestamp ≤ endTime by
        omega⟩)
    omega
  rw [fundingRequests, hfirst]
  simp only [hheads, hrequests, fundingRequestsLeft]
  exact congrArg some (fundingPagesLeft_add_one (by omega) hempty)

theorem getFundingRates_requests_growing :
    ∃ retVal enough, ∀ fuel, enough ≤ fuel →
      getFundingRates (fundingServer growingFunding.records) .linear "BTCUSDT" 10 2 fuel 20 =
        some (.ok retVal) ∧
      fundingRequests (fundingServer growingFunding.records) .linear "BTCUSDT" 10 2 fuel 20 =
        some 2 :=
  getFundingRates_requests growingFunding (fundingServer growingFunding.records) .linear
    "BTCUSDT" 10 20 2 (fundingServer_serves _ _ _) (by decide) (by decide)

end BybitApi
