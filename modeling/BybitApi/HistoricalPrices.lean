import BybitApi.Loop
import BybitApi.Timeline
import BybitApi.Wire

/-!
# Download of historical candles

`RESTClient::getHistoricalPrices` walks forward through the kline endpoint.
Each page arrives newest first and is reversed; its newest candle is dropped
when it starts less than an interval after `to`, and the next page is requested
from one interval after the last candle kept.

The market is live: between two requests the exchange appends candles and
revises the one that is still forming.  `getHistoricalPrices_exact` says that
the download nevertheless ends with exactly the closed candles of the requested
range, as of the last request.
-/

namespace BybitApi

structure Candle where
  startTime : Int
  open_ : Double
  high : Double
  low : Double
  close : Double
  volume : Double
  turnover : Double
deriving DecidableEq, Repr

/-! ### The source -/

/-- The query parameters that `P::getHistoricalPrices` sends to
    `/v5/market/kline`. -/
def klineParameters (category : Category) (symbol : String) (interval : CandleInterval)
    (startTime limit : Int) : Parameters :=
  insertLimit
    ((((∅ : Parameters).insert "category" category.enumName).insert "symbol" symbol
      |>.insert "interval" interval.enumName).insert "start" (toString startTime)) limit

/-- The state of the download loop: the variables of the source, the batches
    handed to `writer`, and the number of requests made. -/
structure CandleDownload where
  from_ : Int
  candles : List Candle
  retVal : List Candle
  written : List (List Candle)
  requests : Nat
deriving DecidableEq, Repr

/-- The newest candle of a page (oldest first) is dropped when it starts less
    than an interval after `to`. -/
def popNewest (interval : CandleInterval) (to_ : Int) (candles : List Candle) : List Candle :=
  match candles.getLast? with
  | some back =>
      if back.startTime - to_ < numberOfMsForCandleInterval interval then candles.dropLast
      else candles
  | none => candles

section Source

variable (kline : Endpoint (List Candle)) (category : Category) (symbol : String)
  (interval : CandleInterval) (to_ limit : Int)

/-- One pass of the `while` loop of `getHistoricalPrices`. -/
def historicalPass (s : CandleDownload) :
    Loop.Pass CandleDownload (Except ApiError CandleDownload) :=
  if s.candles.isEmpty then .exit (.ok s)
  else
    let candles := popNewest interval to_ s.candles.reverse
    match candles.getLast? with
    | none => .exit (.ok { s with candles := [] })
    | some last =>
        if to_ < last.startTime then
          .exit (.ok { s with
            candles := candles
            retVal := s.retVal ++ candles.filter (fun candle => decide (candle.startTime ≤ to_))
            written := s.written ++ [candles] })
        else
          let from_ := last.startTime + numberOfMsForCandleInterval interval
          match kline s.requests (klineParameters category symbol interval from_ limit) with
          | .error e => .exit (.error e)
          | .ok page =>
              .again
                { from_ := from_
                  candles := page
                  retVal := s.retVal ++ candles
                  written := s.written ++ [candles]
                  requests := s.requests + 1 }

/-- `RESTClient::getHistoricalPrices`, for at most `fuel` passes of its loop. -/
def getHistoricalPrices (fuel : Nat) (from_ : Int) : Option (Except ApiError CandleDownload) :=
  match kline 0 (klineParameters category symbol interval from_ limit) with
  | .error e => some (.error e)
  | .ok page =>
      Loop.run (historicalPass kline category symbol interval to_ limit) fuel
        { from_ := from_, candles := page, retVal := [], written := [], requests := 1 }

end Source

/-! ### The exchange -/

/-- A market whose candles start at least `gap` ms apart, seen at each request:
    between two requests it gains candles at its end, and only the candle that
    was last changes its values. -/
structure LiveMarket (gap : Int) where
  candles : Nat → List Candle
  spaced : ∀ k, (candles k).Pairwise fun c d => c.startTime + gap ≤ d.startTime
  evolves : ∀ k, Timeline.Evolves Candle.startTime (candles k) (candles (k + 1))

/-- The first `limit` candles from `start` on, newest first. -/
def klinePage (candles : List Candle) (start limit : Int) : List Candle :=
  ((Timeline.since Candle.startTime start candles).take limit.toNat).reverse

/-- The endpoint answers every request from the market as it is at that moment. -/
def ServesKline (kline : Endpoint (List Candle)) (candles : Nat → List Candle)
    (category : Category) (symbol : String) (interval : CandleInterval) : Prop :=
  ∀ k start limit, kline k (klineParameters category symbol interval start limit) =
    .ok (klinePage (candles k) start limit)

theorem LiveMarket.ordered {gap : Int} (market : LiveMarket gap) (hgap : 0 < gap) (k : Nat) :
    Timeline.Ordered Candle.startTime (market.candles k) :=
  (market.spaced k).imp fun h => by omega

/-! ### One pass -/

theorem popNewest_concat (interval : CandleInterval) (to_ : Int) (older : List Candle)
    (newest : Candle) :
    popNewest interval to_ (older ++ [newest]) =
      if newest.startTime - to_ < numberOfMsForCandleInterval interval then older
      else older ++ [newest] := by
  simp [popNewest]

section Download

variable {interval : CandleInterval}
  (market : LiveMarket (numberOfMsForCandleInterval interval))
  {kline : Endpoint (List Candle)} {category : Category} {symbol : String}
  (from₀ to_ limit : Int)

/-- At the loop head, `k` being the number of the last request: its page is at
    hand, and what has been returned so far are the closed candles of the market
    before the page, none of them after `to`. -/
structure DownloadInv (k : Nat) (s : CandleDownload) : Prop where
  requests : s.requests = k + 1
  page : s.candles = klinePage (market.candles k) s.from_ limit
  kept : s.retVal = Timeline.slice Candle.startTime from₀ s.from_ (market.candles k).dropLast
  start_le : from₀ ≤ s.from_
  kept_le : ∀ c ∈ s.retVal, c.startTime ≤ to_

/-- What the download returns, in terms of the market its last request saw. -/
def Complete (r : Except ApiError CandleDownload) : Prop :=
  ∃ k d, r = .ok d ∧ d.requests = k + 1 ∧
    d.retVal = Timeline.slice Candle.startTime from₀ (to_ + 1) (market.candles k).dropLast

variable {market from₀ to_ limit}

/-- When every closed candle up to `to` has been read, the download is complete. -/
theorem DownloadInv.kept_of_exhausted {k : Nat} {s : CandleDownload}
    (hinv : DownloadInv market from₀ to_ limit k s)
    (hclosed : ∀ c ∈ (market.candles k).dropLast, c.startTime ≤ to_ → c.startTime < s.from_) :
    s.retVal =
      Timeline.slice Candle.startTime from₀ (to_ + 1) (market.candles k).dropLast := by
  rw [hinv.kept]
  apply List.filter_congr
  intro c hc
  rw [decide_eq_decide]
  constructor
  · intro h
    have hkept : c ∈ s.retVal := by
      rw [hinv.kept]
      exact Timeline.mem_slice.mpr ⟨hc, h⟩
    exact ⟨h.1, Int.lt_add_one_of_le (hinv.kept_le c hkept)⟩
  · intro h
    exact ⟨h.1, hclosed c hc (Int.le_of_lt_add_one h.2)⟩

/-- At most one candle from `from` on: then it is the forming one. -/
theorem closed_lt_of_since_le_one {history : List Candle} {start : Int} {newest : Candle}
    (hord : Timeline.Ordered Candle.startTime history)
    (hsince : ∀ c ∈ Timeline.since Candle.startTime start history, c = newest) :
    ∀ c ∈ history.dropLast, c.startTime < start := by
  intro c hc
  rcases List.eq_nil_or_concat' history with rfl | ⟨closed, last, rfl⟩
  · cases hc
  · rw [List.dropLast_concat] at hc
    by_contra hge
    have hlt : c.startTime < last.startTime :=
      (List.pairwise_append.mp hord).2.2 c hc last (List.mem_singleton.mpr rfl)
    have hcn : c = newest := hsince c (by
      rw [Timeline.mem_since]
      exact ⟨List.mem_append_left _ hc, by omega⟩)
    have hln : last = newest := hsince last (by
      rw [Timeline.mem_since]
      exact ⟨by simp, by omega⟩)
    rw [hcn, hln] at hlt
    omega

theorem DownloadInv.since_eq {k : Nat} {s : CandleDownload}
    (hinv : DownloadInv market from₀ to_ limit k s) :
    ∃ later, Timeline.since Candle.startTime s.from_ (market.candles k) =
      s.candles.reverse ++ later :=
  ⟨(Timeline.since Candle.startTime s.from_ (market.candles k)).drop limit.toNat, by
    rw [hinv.page, klinePage, List.reverse_reverse, List.take_append_drop]⟩

theorem DownloadInv.since_of_short {k : Nat} {s : CandleDownload}
    (hinv : DownloadInv market from₀ to_ limit k s) (hshort : s.candles.length < limit.toNat) :
    Timeline.since Candle.startTime s.from_ (market.candles k) = s.candles.reverse := by
  have hlen : s.candles.length =
      min limit.toNat (Timeline.since Candle.startTime s.from_ (market.candles k)).length := by
    rw [hinv.page, klinePage, List.length_reverse, List.length_take]
  rw [hinv.page, klinePage, List.reverse_reverse, List.take_of_length_le]
  omega

theorem DownloadInv.page_spaced {k : Nat} {s : CandleDownload}
    (hinv : DownloadInv market from₀ to_ limit k s) :
    s.candles.reverse.Pairwise fun c d =>
      c.startTime + numberOfMsForCandleInterval interval ≤ d.startTime := by
  obtain ⟨later, hsince⟩ := hinv.since_eq
  have hspaced : (Timeline.since Candle.startTime s.from_ (market.candles k)).Pairwise
      (fun c d => c.startTime + numberOfMsForCandleInterval interval ≤ d.startTime) :=
    List.Pairwise.filter _ (market.spaced k)
  rw [hsince] at hspaced
  exact (List.pairwise_append.mp hspaced).1

theorem DownloadInv.mem_since_of_page {k : Nat} {s : CandleDownload}
    (hinv : DownloadInv market from₀ to_ limit k s) {c : Candle} (hc : c ∈ s.candles.reverse) :
    c ∈ Timeline.since Candle.startTime s.from_ (market.candles k) := by
  obtain ⟨later, hsince⟩ := hinv.since_eq
  rw [hsince]
  exact List.mem_append_left later hc

/-- The page ends after `to`: its candles up to `to` complete the download. -/
theorem DownloadInv.complete_at_end {k : Nat} {s : CandleDownload} {older : List Candle}
    {newest : Candle} (hinv : DownloadInv market from₀ to_ limit k s)
    (hpage : s.candles.reverse = older ++ [newest]) (hto : to_ < newest.startTime) :
    s.retVal ++ (older ++ [newest]).filter (fun c => decide (c.startTime ≤ to_)) =
      Timeline.slice Candle.startTime from₀ (to_ + 1) (market.candles k).dropLast := by
  have hms := numberOfMsForCandleInterval_pos interval
  have hord := market.ordered hms k
  obtain ⟨later, hsince⟩ := hinv.since_eq
  rw [hpage] at hsince
  have hnewest : newest ∈ Timeline.since Candle.startTime s.from_ (market.candles k) := by
    rw [hsince]
    simp
  obtain ⟨hmem, hfrom⟩ := Timeline.mem_since.mp hnewest
  have hsorted := Timeline.ordered_since (a := s.from_) hord
  rw [hsince] at hsorted
  have hlater : ∀ c ∈ later, to_ + 1 ≤ c.startTime := by
    intro c hc
    have hlt := (List.pairwise_append.mp hsorted).2.2 newest (by simp) c hc
    omega
  -- the candles of the page up to `to` are the part of the market from `from` to `to`
  have hpart : Timeline.slice Candle.startTime s.from_ (to_ + 1) (market.candles k) =
      (older ++ [newest]).filter (fun c => decide (c.startTime ≤ to_)) := by
    have hnone : later.filter (fun c => decide (c.startTime < to_ + 1)) = [] :=
      List.filter_eq_nil_iff.mpr (fun c hc => by simpa using hlater c hc)
    rw [Timeline.slice_eq_filter_since, hsince, List.filter_append, hnone, List.append_nil]
    apply List.filter_congr
    intro c _
    rw [decide_eq_decide]
    omega
  rcases le_or_gt s.from_ (to_ + 1) with hle | hgt
  · have hclosed := Timeline.dropLast_slice (a := s.from_) hord hmem
      (b := to_ + 1) (by omega)
    rw [← hpart, ← hclosed, hinv.kept]
    exact Timeline.slice_append_slice (List.Pairwise.sublist (List.dropLast_sublist _) hord)
      hinv.start_le hle
  · -- `from` lies after `to`: the page adds nothing and nothing was missing
    have hnone : Timeline.slice Candle.startTime s.from_ (to_ + 1) (market.candles k) = [] := by
      rw [Timeline.slice, List.filter_eq_nil_iff]
      intro c _
      simp only [decide_eq_true_eq, not_and]
      omega
    rw [← hpart, hnone, List.append_nil]
    apply hinv.kept_of_exhausted
    intro c _ hle
    omega

/-- The page is kept but for its newest candle, and the next one is requested
    from an interval after the last candle kept. -/
theorem DownloadInv.next {k : Nat} {s : CandleDownload} {older : List Candle}
    {last newest : Candle} {page : List Candle} {written : List (List Candle)}
    (hinv : DownloadInv market from₀ to_ limit k s)
    (hpage : s.candles.reverse = older ++ [last] ++ [newest])
    (hnext : page = klinePage (market.candles (k + 1))
      (last.startTime + numberOfMsForCandleInterval interval) limit)
    (hto : last.startTime ≤ to_) :
    DownloadInv market from₀ to_ limit (k + 1)
      { from_ := last.startTime + numberOfMsForCandleInterval interval
        candles := page
        retVal := s.retVal ++ (older ++ [last])
        written := written
        requests := s.requests + 1 } := by
  have hms := numberOfMsForCandleInterval_pos interval
  have hord := market.ordered hms k
  obtain ⟨later, hsince⟩ := hinv.since_eq
  rw [hpage] at hsince
  have hsorted := Timeline.ordered_since (a := s.from_) hord
  have hspaced : (Timeline.since Candle.startTime s.from_ (market.candles k)).Pairwise
      (fun c d => c.startTime + numberOfMsForCandleInterval interval ≤ d.startTime) :=
    List.Pairwise.filter _ (market.spaced k)
  rw [hsince, List.append_assoc] at hspaced hsorted
  have hgap : ∀ d ∈ newest :: later,
      last.startTime + numberOfMsForCandleInterval interval ≤ d.startTime := fun d hd =>
    (List.pairwise_append.mp hspaced).2.2 last (by simp) d hd
  have holder : ∀ c ∈ older ++ [last], c.startTime ≤ last.startTime := by
    intro c hc
    exact Timeline.Ordered.le_last (List.pairwise_append.mp hsorted).1 hc
  have hnewest : newest ∈ Timeline.since Candle.startTime s.from_ (market.candles k) := by
    rw [hsince]
    simp
  have hlast : last ∈ Timeline.since Candle.startTime s.from_ (market.candles k) := by
    rw [hsince]
    simp
  obtain ⟨hmem, hfrom⟩ := Timeline.mem_since.mp hnewest
  have hfromLast : s.from_ ≤ last.startTime := (Timeline.mem_since.mp hlast).2
  have hgapNewest := hgap newest (by simp)
  have hstart : from₀ ≤ last.startTime + numberOfMsForCandleInterval interval := by
    have hle := hinv.start_le
    omega
  refine
    { requests := by simp [hinv.requests]
      page := hnext
      kept := ?_
      start_le := hstart
      kept_le := ?_ }
  · have hkept : s.retVal =
        Timeline.slice Candle.startTime from₀ s.from_ (market.candles k) := by
      rw [hinv.kept]
      exact Timeline.dropLast_slice hord hmem (by omega)
    have hpart : Timeline.slice Candle.startTime s.from_
        (last.startTime + numberOfMsForCandleInterval interval) (market.candles k) =
          older ++ [last] := by
      apply Timeline.slice_of_since (hsince.trans (by simp)) _ hgap
      · intro c hc
        have hle := holder c hc
        omega
    have hclosed := (market.evolves k).slice_closed (a := from₀) hord
      (market.ordered hms (k + 1)) hmem hgapNewest
    rw [hclosed, hkept, ← hpart]
    exact Timeline.slice_append_slice hord hinv.start_le (by omega)
  · intro c hc
    rcases List.mem_append.mp hc with hc | hc
    · exact hinv.kept_le c hc
    · have hle := holder c hc
      omega

theorem historicalPass_of_nil {s : CandleDownload}
    (hkept : popNewest interval to_ s.candles.reverse = []) :
    historicalPass kline category symbol interval to_ limit s =
      .exit (.ok { s with candles := [] }) := by
  by_cases hempty : s.candles = []
  · rcases s with ⟨from_, candles, retVal, written, requests⟩
    simp only at hempty
    subst hempty
    rfl
  · simp [historicalPass, hempty, hkept]

theorem candles_ne_nil {s : CandleDownload} {front : List Candle} {last : Candle}
    (hkept : popNewest interval to_ s.candles.reverse = front ++ [last]) : s.candles ≠ [] := by
  intro hempty
  simp [hempty, popNewest] at hkept

/-- What is kept of the page reaches beyond `to`. -/
theorem historicalPass_of_beyond {s : CandleDownload} {front : List Candle} {last : Candle}
    (hkept : popNewest interval to_ s.candles.reverse = front ++ [last])
    (hto : to_ < last.startTime) :
    historicalPass kline category symbol interval to_ limit s =
      .exit (.ok { s with
        candles := front ++ [last]
        retVal := s.retVal ++ (front ++ [last]).filter (fun c => decide (c.startTime ≤ to_))
        written := s.written ++ [front ++ [last]] }) := by
  have hne := candles_ne_nil hkept
  simp [historicalPass, hne, hkept, hto]

/-- It does not, and the next page is requested. -/
theorem historicalPass_of_within {s : CandleDownload} {front : List Candle} {last : Candle}
    (hkept : popNewest interval to_ s.candles.reverse = front ++ [last])
    (hto : last.startTime ≤ to_) :
    historicalPass kline category symbol interval to_ limit s =
      match kline s.requests (klineParameters category symbol interval
          (last.startTime + numberOfMsForCandleInterval interval) limit) with
      | .error e => .exit (.error e)
      | .ok page => .again
          { from_ := last.startTime + numberOfMsForCandleInterval interval
            candles := page
            retVal := s.retVal ++ (front ++ [last])
            written := s.written ++ [front ++ [last]]
            requests := s.requests + 1 } := by
  have hne := candles_ne_nil hkept
  simp [historicalPass, hne, hkept, hto]

/-- A pass that goes round again has kept a part of its page that ends by `to`. -/
theorem historicalPass_again {s next : CandleDownload}
    (h : historicalPass kline category symbol interval to_ limit s = .again next) :
    ∃ front last, popNewest interval to_ s.candles.reverse = front ++ [last] ∧
      last.startTime ≤ to_ ∧
      next.from_ = last.startTime + numberOfMsForCandleInterval interval ∧
      next.retVal = s.retVal ++ (front ++ [last]) ∧
      next.written = s.written ++ [front ++ [last]] := by
  rcases List.eq_nil_or_concat' (popNewest interval to_ s.candles.reverse)
    with hkept | ⟨front, last, hkept⟩
  · rw [historicalPass_of_nil hkept] at h
    cases h
  · rcases lt_or_ge to_ last.startTime with hbeyond | hto
    · rw [historicalPass_of_beyond hkept hbeyond] at h
      cases h
    · refine ⟨front, last, hkept, hto, ?_⟩
      rw [historicalPass_of_within hkept hto] at h
      split at h
      · cases h
      · injection h with hnext
        subst hnext
        exact ⟨rfl, rfl, rfl⟩

/-- A pass that ends the download has kept nothing of its page, or a part that reaches
    beyond `to`. -/
theorem historicalPass_exit {s d : CandleDownload}
    (h : historicalPass kline category symbol interval to_ limit s = .exit (.ok d)) :
    (popNewest interval to_ s.candles.reverse = [] ∧ d.retVal = s.retVal ∧
      d.written = s.written) ∨
    ∃ front last, popNewest interval to_ s.candles.reverse = front ++ [last] ∧
      to_ < last.startTime ∧
      d.retVal = s.retVal ++ (front ++ [last]).filter (fun c => decide (c.startTime ≤ to_)) ∧
      d.written = s.written ++ [front ++ [last]] := by
  rcases List.eq_nil_or_concat' (popNewest interval to_ s.candles.reverse)
    with hkept | ⟨front, last, hkept⟩
  · rw [historicalPass_of_nil hkept] at h
    injection h with h
    injection h with hd
    subst hd
    exact Or.inl ⟨hkept, rfl, rfl⟩
  · rcases lt_or_ge to_ last.startTime with hbeyond | hto
    · rw [historicalPass_of_beyond hkept hbeyond] at h
      injection h with h
      injection h with hd
      subst hd
      exact Or.inr ⟨front, last, hkept, hbeyond, rfl, rfl⟩
    · rw [historicalPass_of_within hkept hto] at h
      split at h
      · injection h with h
        cases h
      · cases h

theorem historicalPass_empty {s : CandleDownload} (h : s.candles = []) :
    historicalPass kline category symbol interval to_ limit s = .exit (.ok s) := by
  simp [historicalPass, h]

theorem historicalPass_single {s : CandleDownload} {newest : Candle}
    (hpage : s.candles.reverse = [newest])
    (hpop : newest.startTime - to_ < numberOfMsForCandleInterval interval) :
    historicalPass kline category symbol interval to_ limit s =
      .exit (.ok { s with candles := [] }) := by
  apply historicalPass_of_nil
  rw [hpage, ← List.nil_append [newest], popNewest_concat, if_pos hpop]

theorem historicalPass_end {s : CandleDownload} {older : List Candle} {newest : Candle}
    (hpage : s.candles.reverse = older ++ [newest])
    (hpop : ¬ newest.startTime - to_ < numberOfMsForCandleInterval interval)
    (hto : to_ < newest.startTime) :
    ∃ d, historicalPass kline category symbol interval to_ limit s = .exit (.ok d) ∧
      d.requests = s.requests ∧ d.retVal = s.retVal ++
        (older ++ [newest]).filter (fun c => decide (c.startTime ≤ to_)) := by
  have hkept : popNewest interval to_ s.candles.reverse = older ++ [newest] := by
    rw [hpage, popNewest_concat, if_neg hpop]
  exact ⟨_, historicalPass_of_beyond hkept hto, rfl, rfl⟩

theorem historicalPass_more {s : CandleDownload} {older page : List Candle}
    {last newest : Candle} (hpage : s.candles.reverse = older ++ [last] ++ [newest])
    (hpop : newest.startTime - to_ < numberOfMsForCandleInterval interval)
    (hto : last.startTime ≤ to_)
    (hreply : kline s.requests (klineParameters category symbol interval
      (last.startTime + numberOfMsForCandleInterval interval) limit) = .ok page) :
    historicalPass kline category symbol interval to_ limit s = .again
      { from_ := last.startTime + numberOfMsForCandleInterval interval
        candles := page
        retVal := s.retVal ++ (older ++ [last])
        written := s.written ++ [older ++ [last]]
        requests := s.requests + 1 } := by
  have hkept : popNewest interval to_ s.candles.reverse = older ++ [last] := by
    rw [hpage, popNewest_concat, if_pos hpop]
  rw [historicalPass_of_within hkept hto, hreply]

/-! ### The whole download -/

/-- The pages start later and later, and never more than an interval after
    `to`. -/
def downloadVariant (interval : CandleInterval) (to_ : Int) (s : CandleDownload) : Nat :=
  (to_ + numberOfMsForCandleInterval interval + 1 - s.from_).toNat

theorem historicalPass_progress
    (hserve : ServesKline kline market.candles category symbol interval) (hlimit : 2 ≤ limit)
    (s : CandleDownload) (hs : ∃ k, DownloadInv market from₀ to_ limit k s) :
    (∃ next, historicalPass kline category symbol interval to_ limit s = .again next ∧
      (∃ k, DownloadInv market from₀ to_ limit k next) ∧
      downloadVariant interval to_ next < downloadVariant interval to_ s) ∨
    (∃ r, historicalPass kline category symbol interval to_ limit s = .exit r ∧
      Complete market from₀ to_ r) := by
  rcases hs with ⟨k, hinv⟩
  have hms := numberOfMsForCandleInterval_pos interval
  have hord := market.ordered hms k
  rcases List.eq_nil_or_concat' s.candles.reverse with hpage | ⟨older, newest, hpage⟩
  · -- the page is empty: no candle from `from` on
    have hnil : s.candles = [] := by simpa using hpage
    have hsince := hinv.since_of_short (by simp [hnil]; omega)
    refine Or.inr ⟨_, historicalPass_empty hnil, k, s, rfl, hinv.requests, ?_⟩
    apply hinv.kept_of_exhausted
    intro c hc _
    by_contra hge
    have hmem : c ∈ Timeline.since Candle.startTime s.from_ (market.candles k) :=
      Timeline.mem_since.mpr ⟨List.mem_of_mem_dropLast hc, by omega⟩
    rw [hsince, hpage] at hmem
    cases hmem
  · by_cases hpop : newest.startTime - to_ < numberOfMsForCandleInterval interval
    · rcases List.eq_nil_or_concat' older with rfl | ⟨older, last, rfl⟩
      · -- one candle only: it is the forming one and is dropped
        have hlen : s.candles.length = 1 := by
          rw [← List.length_reverse, hpage]
          rfl
        have hsingle := hinv.since_of_short (by omega)
        refine Or.inr ⟨_, historicalPass_single hpage hpop, k, _, rfl, hinv.requests, ?_⟩
        have honly : ∀ c ∈ Timeline.since Candle.startTime s.from_ (market.candles k),
            c = newest := by
          intro c hc
          rw [hsingle, hpage] at hc
          simpa using hc
        apply hinv.kept_of_exhausted
        intro c hc _
        exact closed_lt_of_since_le_one hord honly c hc
      · -- the newest candle is dropped and fetched again with the next page
        have hlast := hinv.mem_since_of_page (c := last) (by simp [hpage])
        have hfrom : s.from_ ≤ last.startTime := (Timeline.mem_since.mp hlast).2
        have hspaced := hinv.page_spaced
        rw [hpage] at hspaced
        have hgap : last.startTime + numberOfMsForCandleInterval interval ≤ newest.startTime :=
          (List.pairwise_append.mp hspaced).2.2 last (by simp) newest (by simp)
        have hto : last.startTime ≤ to_ := by omega
        have hreply := hserve s.requests
          (last.startTime + numberOfMsForCandleInterval interval) limit
        refine Or.inl ⟨_, historicalPass_more hpage hpop hto hreply, ⟨k + 1, ?_⟩, ?_⟩
        · exact hinv.next hpage (by rw [hinv.requests]) hto
        · simp only [downloadVariant]
          omega
    · -- the page reaches beyond `to`
      have hto : to_ < newest.startTime := by omega
      obtain ⟨d, hexit, hrequests, hretVal⟩ :
          ∃ d, historicalPass kline category symbol interval to_ limit s = .exit (.ok d) ∧ _ :=
        historicalPass_end hpage hpop hto
      refine Or.inr ⟨_, hexit, k, d, rfl, hrequests.trans hinv.requests, ?_⟩
      rw [hretVal]
      exact hinv.complete_at_end hpage hto

end Download

/-- The download ends, complete in terms of the market its last request saw. -/
theorem getHistoricalPrices_complete {interval : CandleInterval}
    (market : LiveMarket (numberOfMsForCandleInterval interval))
    {kline : Endpoint (List Candle)} {category : Category} {symbol : String}
    (from_ to_ : Int) {limit : Int}
    (hserve : ServesKline kline market.candles category symbol interval)
    (hlimit : 2 ≤ limit) :
    ∃ k d, d.requests = k + 1 ∧
      (∃ enough, ∀ fuel, enough ≤ fuel →
        getHistoricalPrices kline category symbol interval to_ limit fuel from_ =
          some (.ok d)) ∧
      d.retVal = (market.candles k).dropLast.filter
        (fun c => decide (from_ ≤ c.startTime ∧ c.startTime ≤ to_)) := by
  have hstart : DownloadInv market from_ to_ limit 0
      { from_ := from_, candles := klinePage (market.candles 0) from_ limit, retVal := [],
        written := [], requests := 1 } :=
    { requests := rfl
      page := rfl
      kept := (List.filter_eq_nil_iff.mpr (fun c _ => by simp)).symm
      start_le := le_refl _
      kept_le := by simp }
  obtain ⟨r, hreturns, k, d, rfl, hrequests, hretVal⟩ :=
    Loop.total_correctness (downloadVariant interval to_)
      (historicalPass_progress hserve hlimit)
      _ ⟨0, hstart⟩
  refine ⟨k, d, hrequests, ?_, ?_⟩
  · obtain ⟨enough, hrun⟩ := hreturns.eventually
    refine ⟨enough, ?_⟩
    intro fuel hle
    rw [getHistoricalPrices, hserve 0 from_ limit]
    exact hrun fuel hle
  · rw [hretVal]
    apply List.filter_congr
    intro c _
    rw [decide_eq_decide]
    omega

/-- **Exact download from a live market.**  The download terminates, and returns
    in increasing order the candles from `from` to `to`, bounds included, of the
    market its last request saw, but for the one still forming. -/
theorem getHistoricalPrices_exact {interval : CandleInterval}
    (market : LiveMarket (numberOfMsForCandleInterval interval))
    (kline : Endpoint (List Candle)) (category : Category) (symbol : String)
    (from_ to_ limit : Int)
    (hserve : ServesKline kline market.candles category symbol interval)
    (hlimit : 2 ≤ limit) :
    ∃ k d, d.requests = k + 1 ∧
      (∃ enough, ∀ fuel, enough ≤ fuel →
        getHistoricalPrices kline category symbol interval to_ limit fuel from_ =
          some (.ok d)) ∧
      d.retVal = (market.candles k).dropLast.filter
        (fun c => decide (from_ ≤ c.startTime ∧ c.startTime ≤ to_)) ∧
      d.retVal.Pairwise (fun c c' => c.startTime < c'.startTime) := by
  obtain ⟨k, d, hrequests, hreturns, hretVal⟩ :=
    getHistoricalPrices_complete market from_ to_ hserve hlimit
  refine ⟨k, d, hrequests, hreturns, hretVal, ?_⟩
  have hord := market.ordered (numberOfMsForCandleInterval_pos interval) k
  rw [hretVal]
  exact List.Pairwise.filter _ (List.Pairwise.sublist (List.dropLast_sublist _) hord)

/-- An exchange that reads `start` and `limit` off the query, 200 being the
    limit of a query that names none. -/
def klineServer (candles : Nat → List Candle) : Endpoint (List Candle) := fun k parameters =>
  .ok (klinePage (candles k) (integerParameter parameters "start" 0)
    (integerParameter parameters "limit" 200))

theorem integerParameter_start (category : Category) (symbol : String)
    (interval : CandleInterval) (start limit : Int) :
    integerParameter (klineParameters category symbol interval start limit) "start" 0 = start := by
  rw [klineParameters, integerParameter_insertLimit _ _ _ (by decide),
    integerParameter_insert_self]

theorem klineServer_serves (candles : Nat → List Candle) (category : Category)
    (symbol : String) (interval : CandleInterval) :
    ServesKline (klineServer candles) candles category symbol interval := by
  intro k start limit
  have hlimit : integerParameter (klineParameters category symbol interval start limit)
      "limit" 200 = limit :=
    integerParameter_limit _ limit (by simp)
  rw [klineServer, integerParameter_start, hlimit]

/-- A candle that has traded at one price only. -/
def flatCandle (startTime : Int) (price : Double) : Candle :=
  { startTime := startTime, open_ := price, high := price, low := price, close := price,
    volume := 0, turnover := 0 }

/-- A one-minute market that gains a candle after the first request, while the
    candle that was forming changes its price. -/
def growingMarket : LiveMarket (numberOfMsForCandleInterval ._1) where
  candles k := if k = 0 then [flatCandle 0 7, flatCandle 60000 8, flatCandle 180000 9]
    else [flatCandle 0 7, flatCandle 60000 8, flatCandle 180000 10, flatCandle 240000 11]
  spaced k := by
    by_cases h : k = 0 <;> simp [h, flatCandle, numberOfMsForCandleInterval]
  evolves k := by
    by_cases h : k = 0
    · simp only [h, if_true]
      exact .extend [flatCandle 0 7, flatCandle 60000 8] (flatCandle 180000 9)
        (flatCandle 180000 10) [flatCandle 240000 11] rfl
    · simp only [h, if_false]
      exact .extend [flatCandle 0 7, flatCandle 60000 8, flatCandle 180000 10]
        (flatCandle 240000 11) (flatCandle 240000 11) [] rfl

theorem getHistoricalPrices_exact_growing :
    ∃ k d, d.requests = k + 1 ∧
      (∃ enough, ∀ fuel, enough ≤ fuel →
        getHistoricalPrices (klineServer growingMarket.candles) .linear "BTCUSDT" ._1
          200000 3 fuel 0 = some (.ok d)) ∧
      d.retVal = (growingMarket.candles k).dropLast.filter
        (fun c => decide (0 ≤ c.startTime ∧ c.startTime ≤ 200000)) ∧
      d.retVal.Pairwise (fun c c' => c.startTime < c'.startTime) :=
  getHistoricalPrices_exact growingMarket (klineServer growingMarket.candles) .linear "BTCUSDT"
    0 200000 3 (klineServer_serves _ _ _ _) (by decide)

end BybitApi
