import BybitApi.HistoricalPrices

/-!
# Progress of the candle download

Nothing bounds the loop of `getHistoricalPrices` but the candles that the exchange
sends.  It ends nevertheless on every exchange that answers in order and not with
candles from before the start asked for, whether its pages are complete or not
and whatever it answered before: a page that is followed by another request moves
the start by an interval at least (`getHistoricalPrices_progress`).
-/

namespace BybitApi

section Source

variable (kline : Endpoint (List Candle)) (category : Category) (symbol : String)
  (interval : CandleInterval) (to_ limit : Int)

/-- The start from which a pass requests the next page, if it requests one. -/
def nextStart (s : CandleDownload) : Option Int :=
  match (popNewest interval to_ s.candles.reverse).getLast? with
  | none => none
  | some last =>
      if to_ < last.startTime then none
      else some (last.startTime + numberOfMsForCandleInterval interval)

/-- The starts from which `getHistoricalPrices` requests pages, in order. -/
def requestedStarts (fuel : Nat) (from_ : Int) : List Int :=
  from_ :: match kline 0 (klineParameters category symbol interval from_ limit) with
    | .error _ => []
    | .ok page =>
        (Loop.heads (historicalPass kline category symbol interval to_ limit) fuel
          { from_ := from_, candles := page, retVal := [], written := [],
            requests := 1 }).filterMap (nextStart interval to_)

end Source

/-! ### The exchange -/

/-- A page in strictly decreasing order, without a candle from before `start`. -/
structure ForwardPage (start : Int) (page : List Candle) : Prop where
  decreasing : page.Pairwise fun c d => d.startTime < c.startTime
  start_le : ∀ c ∈ page, start ≤ c.startTime

/-- What the endpoint answers is such a page, if it is a page. -/
def ForwardOnly (kline : Endpoint (List Candle)) (category : Category) (symbol : String)
    (interval : CandleInterval) (limit : Int) : Prop :=
  ∀ k start page, kline k (klineParameters category symbol interval start limit) = .ok page →
    ForwardPage start page

/-! ### One pass -/

theorem popNewest_prefix (interval : CandleInterval) (to_ : Int) (candles : List Candle) :
    popNewest interval to_ candles <+: candles := by
  unfold popNewest
  split
  · split
    · exact List.dropLast_prefix candles
    · exact List.prefix_refl candles
  · exact List.prefix_refl candles

section Progress

variable {kline : Endpoint (List Candle)} {category : Category} {symbol : String}
  {interval : CandleInterval} {from₀ to_ limit : Int}

variable (interval from₀ to_) in
/-- At the loop head: the page at hand begins at `from` or later, what has been kept
    lies before it, and `from` is an interval after `to` at the most. -/
structure ProgressInv (s : CandleDownload) : Prop where
  page : ForwardPage s.from_ s.candles
  ordered : s.retVal.Pairwise fun c d => c.startTime < d.startTime
  before : ∀ c ∈ s.retVal, c.startTime < s.from_
  inRange : ∀ c ∈ s.retVal, from₀ ≤ c.startTime ∧ c.startTime ≤ to_
  start_le : from₀ ≤ s.from_
  start_bound : s.from_ ≤ to_ + numberOfMsForCandleInterval interval

variable (kline category symbol interval from₀ to_ limit) in
/-- What holds of a run from a state on: it requests later and later, once for each
    interval up to `to` and once more at the most, and what it returns is in order
    and in range. -/
structure ProgressPost (s : CandleDownload) (visited : List CandleDownload)
    (r : Except ApiError CandleDownload) : Prop where
  increasing : (s.from_ :: visited.filterMap (nextStart interval to_)).Pairwise (· < ·)
  bounded : ((visited.filterMap (nextStart interval to_)).length : Int) ≤
    (to_ - s.from_) / numberOfMsForCandleInterval interval + 1
  failed : ∀ e, r = .error e → ∃ k start,
    kline k (klineParameters category symbol interval start limit) = .error e
  requests : ∀ d, r = .ok d →
    d.requests = s.requests + (visited.filterMap (nextStart interval to_)).length
  ordered : ∀ d, r = .ok d → d.retVal.Pairwise fun c d => c.startTime < d.startTime
  inRange : ∀ d, r = .ok d → ∀ c ∈ d.retVal, from₀ ≤ c.startTime ∧ c.startTime ≤ to_

/-- The candles that a pass keeps of its page, oldest first. -/
theorem ProgressInv.kept {s : CandleDownload} (hinv : ProgressInv interval from₀ to_ s)
    {kept : List Candle} (hkept : popNewest interval to_ s.candles.reverse = kept) :
    kept.Pairwise (fun c d => c.startTime < d.startTime) ∧ ∀ c ∈ kept, s.from_ ≤ c.startTime := by
  have hleft := popNewest_prefix interval to_ s.candles.reverse
  rw [hkept] at hleft
  constructor
  · exact (List.pairwise_reverse.mpr hinv.page.decreasing).sublist hleft.sublist
  · intro c hc
    exact hinv.page.start_le c (List.mem_reverse.mp (hleft.subset hc))

/-- What was kept before and a part of what is kept of the page join in order. -/
theorem ProgressInv.append {s : CandleDownload} (hinv : ProgressInv interval from₀ to_ s)
    {kept : List Candle} (hordered : kept.Pairwise fun c d => c.startTime < d.startTime)
    (hfrom : ∀ c ∈ kept, s.from_ ≤ c.startTime) (hto : ∀ c ∈ kept, c.startTime ≤ to_) :
    (s.retVal ++ kept).Pairwise (fun c d => c.startTime < d.startTime) ∧
      ∀ c ∈ s.retVal ++ kept, from₀ ≤ c.startTime ∧ c.startTime ≤ to_ := by
  constructor
  · rw [List.pairwise_append]
    refine ⟨hinv.ordered, hordered, ?_⟩
    intro c hc d hd
    exact lt_of_lt_of_le (hinv.before c hc) (hfrom d hd)
  · intro c hc
    rcases List.mem_append.mp hc with hold | hnew
    · exact hinv.inRange c hold
    · exact ⟨hinv.start_le.trans (hfrom c hnew), hto c hnew⟩

/-- A run that ends with this pass, without a request. -/
theorem ProgressInv.post_of_exit {s d : CandleDownload} (hinv : ProgressInv interval from₀ to_ s)
    (hnone : nextStart interval to_ s = none) (hrequests : d.requests = s.requests)
    (hordered : d.retVal.Pairwise fun c d => c.startTime < d.startTime)
    (hrange : ∀ c ∈ d.retVal, from₀ ≤ c.startTime ∧ c.startTime ≤ to_) :
    ProgressPost kline category symbol interval from₀ to_ limit s [s] (.ok d) := by
  have hms := numberOfMsForCandleInterval_pos interval
  have hstarts : [s].filterMap (nextStart interval to_) = [] := by simp [hnone]
  have hbound : -1 ≤ (to_ - s.from_) / numberOfMsForCandleInterval interval := by
    have hle := hinv.start_bound
    rw [Int.le_ediv_iff_mul_le hms]
    omega
  refine
    { increasing := by simp [hstarts]
      bounded := ?_
      failed := fun e he => by cases he
      requests := ?_
      ordered := ?_
      inRange := ?_ }
  · rw [hstarts]
    simp only [List.length_nil, Nat.cast_zero]
    omega
  · rintro d' ⟨⟩
    simp [hstarts, hrequests]
  · rintro d' ⟨⟩
    exact hordered
  · rintro d' ⟨⟩
    exact hrange

theorem nextStart_of_within {s : CandleDownload} {front : List Candle} {last : Candle}
    (hkept : popNewest interval to_ s.candles.reverse = front ++ [last])
    (hto : last.startTime ≤ to_) :
    nextStart interval to_ s = some (last.startTime + numberOfMsForCandleInterval interval) := by
  simp [nextStart, hkept, hto]

/-- The request of this pass fails. -/
theorem ProgressInv.post_of_failure {s : CandleDownload} {last : Candle} {e : ApiError}
    (hstart : nextStart interval to_ s =
      some (last.startTime + numberOfMsForCandleInterval interval))
    (hfrom : s.from_ ≤ last.startTime) (hto : last.startTime ≤ to_)
    (hreply : kline s.requests (klineParameters category symbol interval
      (last.startTime + numberOfMsForCandleInterval interval) limit) = .error e) :
    ProgressPost kline category symbol interval from₀ to_ limit s [s] (.error e) := by
  have hms := numberOfMsForCandleInterval_pos interval
  have hstarts : [s].filterMap (nextStart interval to_) =
      [last.startTime + numberOfMsForCandleInterval interval] := by simp [hstart]
  have hbound : 0 ≤ (to_ - s.from_) / numberOfMsForCandleInterval interval := by
    apply Int.ediv_nonneg <;> omega
  refine
    { increasing := ?_
      bounded := ?_
      failed := ?_
      requests := fun d hd => by cases hd
      ordered := fun d hd => by cases hd
      inRange := fun d hd => by cases hd }
  · rw [hstarts, List.pairwise_cons]
    refine ⟨?_, List.pairwise_singleton _ _⟩
    intro start hmem
    rw [List.mem_singleton.mp hmem]
    omega
  · rw [hstarts]
    simp only [List.length_singleton, Nat.cast_one]
    omega
  · rintro e' ⟨⟩
    exact ⟨s.requests, _, hreply⟩

/-- A run that goes on moves its start by an interval at least. -/
theorem ProgressPost.of_again {s next : CandleDownload} {visited : List CandleDownload}
    {r : Except ApiError CandleDownload}
    (hstart : nextStart interval to_ s = some next.from_)
    (hfrom : s.from_ + numberOfMsForCandleInterval interval ≤ next.from_)
    (hrequests : next.requests = s.requests + 1)
    (hnext : ProgressPost kline category symbol interval from₀ to_ limit next visited r) :
    ProgressPost kline category symbol interval from₀ to_ limit s (s :: visited) r := by
  have hms := numberOfMsForCandleInterval_pos interval
  have hstarts : (s :: visited).filterMap (nextStart interval to_) =
      next.from_ :: visited.filterMap (nextStart interval to_) :=
    List.filterMap_cons_some hstart
  refine
    { increasing := ?_
      bounded := ?_
      failed := hnext.failed
      requests := ?_
      ordered := hnext.ordered
      inRange := hnext.inRange }
  · rw [hstarts, List.pairwise_cons]
    refine ⟨?_, hnext.increasing⟩
    intro start hmem
    rcases List.mem_cons.mp hmem with rfl | hlater
    · omega
    · have hlt := (List.pairwise_cons.mp hnext.increasing).1 start hlater
      omega
  · have hquotient : (to_ - next.from_) / numberOfMsForCandleInterval interval + 1 ≤
        (to_ - s.from_) / numberOfMsForCandleInterval interval := by
      rw [Int.le_ediv_iff_mul_le hms, Int.add_mul, one_mul]
      have hmul := Int.ediv_mul_le (to_ - next.from_) (ne_of_gt hms)
      omega
    have hrest := hnext.bounded
    rw [hstarts, List.length_cons]
    push_cast
    omega
  · intro d hd
    rw [hstarts, List.length_cons, hnext.requests d hd, hrequests]
    omega

theorem historicalPass_forward (hserve : ForwardOnly kline category symbol interval limit)
    (s : CandleDownload) (hinv : ProgressInv interval from₀ to_ s) :
    (∃ next, historicalPass kline category symbol interval to_ limit s = .again next ∧
      ProgressInv interval from₀ to_ next ∧
      downloadVariant interval to_ next < downloadVariant interval to_ s ∧
      ∀ visited r, ProgressPost kline category symbol interval from₀ to_ limit next visited r →
        ProgressPost kline category symbol interval from₀ to_ limit s (s :: visited) r) ∨
    (∃ r, historicalPass kline category symbol interval to_ limit s = .exit r ∧
      ProgressPost kline category symbol interval from₀ to_ limit s [s] r) := by
  have hms := numberOfMsForCandleInterval_pos interval
  rcases List.eq_nil_or_concat' (popNewest interval to_ s.candles.reverse)
    with hkept | ⟨front, last, hkept⟩
  · -- nothing is kept of the page
    have hnone : nextStart interval to_ s = none := by simp [nextStart, hkept]
    exact Or.inr ⟨_, historicalPass_of_nil hkept,
      hinv.post_of_exit hnone rfl hinv.ordered hinv.inRange⟩
  · obtain ⟨hordered, hfrom⟩ := hinv.kept hkept
    have hlast : s.from_ ≤ last.startTime := hfrom last (by simp)
    rcases lt_or_ge to_ last.startTime with hbeyond | hto
    · -- the page reaches beyond `to`: its candles up to `to` are returned
      have hnone : nextStart interval to_ s = none := by simp [nextStart, hkept, hbeyond]
      have hupTo : ∀ c ∈ (front ++ [last]).filter (fun c => decide (c.startTime ≤ to_)),
          c.startTime ≤ to_ := fun c hc => by simpa using (List.mem_filter.mp hc).2
      obtain ⟨hordered', hrange'⟩ := hinv.append (hordered.filter _)
        (fun c hc => hfrom c (List.mem_of_mem_filter hc)) hupTo
      exact Or.inr ⟨_, historicalPass_of_beyond hkept hbeyond,
        hinv.post_of_exit hnone rfl hordered' hrange'⟩
    · have hstart := nextStart_of_within hkept hto
      have hpass : historicalPass kline category symbol interval to_ limit s = _ :=
        historicalPass_of_within hkept hto
      cases hreply : kline s.requests (klineParameters category symbol interval
          (last.startTime + numberOfMsForCandleInterval interval) limit) with
      | error e =>
          rw [hreply] at hpass
          exact Or.inr ⟨_, hpass, ProgressInv.post_of_failure hstart hlast hto hreply⟩
      | ok page =>
          rw [hreply] at hpass
          have hle : ∀ c ∈ front ++ [last], c.startTime ≤ last.startTime :=
            fun c hc => Timeline.Ordered.le_last hordered hc
          obtain ⟨hordered', hrange'⟩ := hinv.append hordered hfrom
            (fun c hc => (hle c hc).trans hto)
          refine Or.inl ⟨_, hpass, ?_, ?_, ?_⟩
          · have hstartLe := hinv.start_le
            refine
              { page := hserve _ _ _ hreply
                ordered := hordered'
                before := ?_
                inRange := hrange'
                start_le := by simp only; omega
                start_bound := by simp only; omega }
            intro c hc
            rcases List.mem_append.mp hc with hold | hnew
            · have hlt := hinv.before c hold
              simp only
              omega
            · have hlt := hle c hnew
              simp only
              omega
          · simp only [downloadVariant]
            omega
          · intro visited r hpost
            exact ProgressPost.of_again hstart (by simp only; omega) rfl hpost

end Progress

/-- **The download makes progress.**  On every exchange that answers forward, the
    download stops after at most one request for each interval from `from` to `to`
    and two more; it requests later and later, and returns candles in increasing
    order, all of them in range.  It throws only what a request threw. -/
theorem getHistoricalPrices_progress (kline : Endpoint (List Candle)) (category : Category)
    (symbol : String) (interval : CandleInterval) (from_ to_ limit : Int)
    (hserve : ForwardOnly kline category symbol interval limit) (hrange : from_ ≤ to_) :
    ∃ r starts,
      (∃ enough, ∀ fuel, enough ≤ fuel →
        getHistoricalPrices kline category symbol interval to_ limit fuel from_ = some r ∧
        requestedStarts kline category symbol interval to_ limit fuel from_ = starts) ∧
      (starts.length : Int) ≤ (to_ - from_) / numberOfMsForCandleInterval interval + 2 ∧
      starts.Pairwise (· < ·) ∧
      (∀ e, r = .error e → ∃ k start,
        kline k (klineParameters category symbol interval start limit) = .error e) ∧
      ∀ d, r = .ok d → d.requests = starts.length ∧
        d.retVal.Pairwise (fun c c' => c.startTime < c'.startTime) ∧
        ∀ c ∈ d.retVal, from_ ≤ c.startTime ∧ c.startTime ≤ to_ := by
  have hms := numberOfMsForCandleInterval_pos interval
  cases hfirst : kline 0 (klineParameters category symbol interval from_ limit) with
  | error e =>
      have hquotient : 0 ≤ (to_ - from_) / numberOfMsForCandleInterval interval := by
        apply Int.ediv_nonneg <;> omega
      refine ⟨.error e, [from_], ⟨0, ?_⟩, ?_, List.pairwise_singleton _ _, ?_, ?_⟩
      · intro fuel _
        simp only [getHistoricalPrices, requestedStarts, hfirst, and_self]
      · simp only [List.length_singleton, Nat.cast_one]
        omega
      · rintro e' ⟨⟩
        exact ⟨0, from_, hfirst⟩
      · intro d hd
        cases hd
  | ok page =>
      have hinv : ProgressInv interval from_ to_
          { from_ := from_, candles := page, retVal := [], written := [], requests := 1 } :=
        { page := hserve 0 from_ page hfirst
          ordered := List.Pairwise.nil
          before := by simp
          inRange := by simp
          start_le := le_refl _
          start_bound := by simp only; omega }
      obtain ⟨visited, r, hreturns, hpost⟩ :=
        Loop.total_correctness_via (downloadVariant interval to_)
          (historicalPass_forward hserve) _ hinv
      obtain ⟨enough, hrun⟩ := hreturns.eventually
      refine ⟨r, from_ :: visited.filterMap (nextStart interval to_), ⟨enough, ?_⟩, ?_,
        hpost.increasing, hpost.failed, ?_⟩
      · intro fuel hle
        obtain ⟨hresult, hheads⟩ := hrun fuel hle
        simp only [getHistoricalPrices, requestedStarts, hfirst, hresult, hheads, and_self]
      · have hbounded := hpost.bounded
        rw [List.length_cons]
        push_cast
        simp only at hbounded
        omega
      · intro d hd
        refine ⟨?_, hpost.ordered d hd, hpost.inRange d hd⟩
        rw [hpost.requests d hd, List.length_cons]
        simp only
        omega

/-- An exchange that leaves candles out, and answers the same query differently. -/
def patchyServer : Endpoint (List Candle) := fun k parameters =>
  let start := integerParameter parameters "start" 0
  .ok (if k % 2 = 0 then [flatCandle (start + 60000) 8, flatCandle start 7]
    else [flatCandle (start + 300000) 9, flatCandle (start + 30000) 7])

theorem patchyServer_forwardOnly (category : Category) (symbol : String)
    (interval : CandleInterval) (limit : Int) :
    ForwardOnly patchyServer category symbol interval limit := by
  intro k start page hreply
  simp only [patchyServer, integerParameter_start, Except.ok.injEq] at hreply
  subst hreply
  by_cases heven : k % 2 = 0
  · rw [if_pos heven]
    exact ⟨by simp [flatCandle], by simp [flatCandle]⟩
  · rw [if_neg heven]
    exact ⟨by simp [flatCandle], by simp [flatCandle]⟩

theorem getHistoricalPrices_progress_patchy :
    ∃ r starts,
      (∃ enough, ∀ fuel, enough ≤ fuel →
        getHistoricalPrices patchyServer .linear "BTCUSDT" ._1 200000 2 fuel 0 = some r ∧
        requestedStarts patchyServer .linear "BTCUSDT" ._1 200000 2 fuel 0 = starts) ∧
      (starts.length : Int) ≤ (200000 - 0) / numberOfMsForCandleInterval ._1 + 2 ∧
      starts.Pairwise (· < ·) ∧
      (∀ e, r = .error e → ∃ k start,
        patchyServer k (klineParameters .linear "BTCUSDT" ._1 start 2) = .error e) ∧
      ∀ d, r = .ok d → d.requests = starts.length ∧
        d.retVal.Pairwise (fun c c' => c.startTime < c'.startTime) ∧
        ∀ c ∈ d.retVal, 0 ≤ c.startTime ∧ c.startTime ≤ 200000 :=
  getHistoricalPrices_progress patchyServer .linear "BTCUSDT" ._1 0 200000 2
    (patchyServer_forwardOnly _ _ _ _) (by decide)

end BybitApi
