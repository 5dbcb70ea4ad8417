import BybitApi.HistoricalPrices

/-!
# Batches and page sizes

A market that does not change while it is downloaded.  Two things that a caller may
take for granted do not hold of the download.

The batches handed to `writer` are the pages as they were kept, so the last one
has candles from after `to` in it, which are not returned.  There is such a batch
exactly when the market has a candle an interval or more after `to`
(`written_eq_returned_iff`).

A page of one candle loses this candle, as the newest of its page, and the download
ends with nothing; every other limit gives the same candles (`same_for_limits_iff`).
-/

namespace BybitApi

/-- A market at rest. -/
def staticMarket {gap : Int} (candles : List Candle)
    (hspaced : candles.Pairwise fun c d => c.startTime + gap ≤ d.startTime) : LiveMarket gap where
  candles _ := candles
  spaced _ := hspaced
  evolves _ := Timeline.Evolves.refl candles

/-! ### Batches -/

section Batches

variable {kline : Endpoint (List Candle)} {category : Category} {symbol : String}
  {interval : CandleInterval} {candles : List Candle} {from₀ to_ limit : Int}
  (hspaced : candles.Pairwise fun c d =>
    c.startTime + numberOfMsForCandleInterval interval ≤ d.startTime)

variable (interval candles from₀ to_) in
/-- No candle from `from` on starts an interval after `to` or later. -/
def EndsBy : Prop :=
  ∀ c ∈ candles, from₀ ≤ c.startTime → c.startTime < to_ + numberOfMsForCandleInterval interval

variable (from₀ to_ limit) in
/-- At the loop head: the batches are what has been kept, and no page but the first
    begins more than an interval after `to`. -/
structure BatchInv (s : CandleDownload) : Prop where
  download : ∃ k, DownloadInv (staticMarket candles hspaced) from₀ to_ limit k s
  written : s.written.flatten = s.retVal
  start : s.from_ = from₀ ∨ s.from_ ≤ to_ + numberOfMsForCandleInterval interval

variable (interval candles from₀ to_) in
def BatchesAgreeIff (r : Except ApiError CandleDownload) : Prop :=
  ∃ d, r = .ok d ∧ (d.written.flatten = d.retVal ↔ EndsBy interval candles from₀ to_)

variable {hspaced}

/-- Only the candles from the page at hand on can start that late. -/
theorem BatchInv.endsBy_iff {s : CandleDownload}
    (hinv : BatchInv from₀ to_ limit hspaced s) :
    EndsBy interval candles from₀ to_ ↔
      ∀ c ∈ Timeline.since Candle.startTime s.from_ candles,
        c.startTime < to_ + numberOfMsForCandleInterval interval := by
  obtain ⟨k, hdownload⟩ := hinv.download
  have hstart := hdownload.start_le
  constructor
  · intro h c hc
    obtain ⟨hmem, hfrom⟩ := Timeline.mem_since.mp hc
    exact h c hmem (hstart.trans hfrom)
  · intro h c hc hfrom
    rcases lt_or_ge c.startTime s.from_ with hbefore | hafter
    · rcases hinv.start with heq | hle
      · omega
      · omega
    · exact h c (Timeline.mem_since.mpr ⟨hc, hafter⟩)

/-- A page of which nothing is kept has one candle at the most, and it starts less than
    an interval after `to`. -/
theorem BatchInv.endsBy_of_nil (hlimit : 2 ≤ limit) {s : CandleDownload}
    (hinv : BatchInv from₀ to_ limit hspaced s)
    (hkept : popNewest interval to_ s.candles.reverse = []) :
    EndsBy interval candles from₀ to_ := by
  rw [hinv.endsBy_iff]
  obtain ⟨k, hdownload⟩ := hinv.download
  rcases List.eq_nil_or_concat' s.candles.reverse with hpage | ⟨older, newest, hpage⟩
  · have hnil : s.candles = [] := by simpa using hpage
    have hsince := hdownload.since_of_short (by simp [hnil]; omega)
    intro c hc
    rw [show Timeline.since Candle.startTime s.from_ candles = _ from hsince, hpage] at hc
    cases hc
  · rw [hpage, popNewest_concat] at hkept
    split at hkept
    · next hpop =>
        subst hkept
        have hlength : s.candles.length = 1 := by
          rw [← List.length_reverse, hpage]
          rfl
        have hsince := hdownload.since_of_short (by omega)
        intro c hc
        rw [show Timeline.since Candle.startTime s.from_ candles = _ from hsince, hpage,
          List.nil_append, List.mem_singleton] at hc
        subst hc
        omega
    · simp at hkept

/-- What is kept of a page that reaches beyond `to` is the whole page, and its newest
    candle starts an interval after `to` or later. -/
theorem BatchInv.not_endsBy_of_beyond {s : CandleDownload} {front : List Candle} {last : Candle}
    (hinv : BatchInv from₀ to_ limit hspaced s)
    (hkept : popNewest interval to_ s.candles.reverse = front ++ [last])
    (hto : to_ < last.startTime) : ¬ EndsBy interval candles from₀ to_ := by
  rw [hinv.endsBy_iff]
  obtain ⟨k, hdownload⟩ := hinv.download
  rcases List.eq_nil_or_concat' s.candles.reverse with hpage | ⟨older, newest, hpage⟩
  · simp [hpage, popNewest] at hkept
  · have hlate : to_ + numberOfMsForCandleInterval interval ≤ newest.startTime := by
      rw [hpage, popNewest_concat] at hkept
      split at hkept
      · next hpop =>
          -- the candle before the newest one would start after `to`, too
          subst hkept
          have hpairs := hdownload.page_spaced
          rw [hpage] at hpairs
          have hgap := (List.pairwise_append.mp hpairs).2.2 last (by simp) newest (by simp)
          omega
      · next hpop => omega
    intro hends
    have hlt := hends newest (hdownload.mem_since_of_page (by simp [hpage]))
    omega

theorem historicalPass_batches
    (hserve : ServesKline kline (fun _ => candles) category symbol interval) (hlimit : 2 ≤ limit)
    (s : CandleDownload)
    (hinv : BatchInv from₀ to_ limit hspaced s) :
    (∃ next, historicalPass kline category symbol interval to_ limit s = .again next ∧
      BatchInv from₀ to_ limit hspaced next ∧
      downloadVariant interval to_ next < downloadVariant interval to_ s) ∨
    (∃ r, historicalPass kline category symbol interval to_ limit s = .exit r ∧
      BatchesAgreeIff interval candles from₀ to_ r) := by
  have hmarket : ServesKline kline (staticMarket candles hspaced).candles category symbol
      interval := hserve
  rcases historicalPass_progress hmarket hlimit s hinv.download with
    ⟨next, hpass, hdownload, hlt⟩ | ⟨r, hpass, k, d, rfl, -⟩
  · refine Or.inl ⟨next, hpass, ?_, hlt⟩
    obtain ⟨front, last, -, hto, hfrom, hretVal, hwritten⟩ := historicalPass_again hpass
    refine { download := hdownload, written := ?_, start := Or.inr (by omega) }
    rw [hwritten, hretVal, List.flatten_append, hinv.written, List.flatten_singleton]
  · refine Or.inr ⟨_, hpass, d, rfl, ?_⟩
    rcases historicalPass_exit hpass with ⟨hkept, hretVal, hwritten⟩ |
      ⟨front, last, hkept, hto, hretVal, hwritten⟩
    · refine iff_of_true ?_ (hinv.endsBy_of_nil hlimit hkept)
      rw [hwritten, hretVal, hinv.written]
    · refine iff_of_false ?_ (hinv.not_endsBy_of_beyond hkept hto)
      rw [hwritten, hretVal, List.flatten_append, hinv.written, List.flatten_singleton,
        List.append_cancel_left_eq]
      intro heq
      have hall := List.filter_eq_self.mp heq.symm last (by simp)
      simp only [decide_eq_true_eq] at hall
      omega

theorem batches_agree_iff (from₀ to_ : Int) {limit : Int}
    (hspaced : candles.Pairwise fun c d =>
      c.startTime + numberOfMsForCandleInterval interval ≤ d.startTime)
    (hserve : ServesKline kline (fun _ => candles) category symbol interval)
    (hlimit : 2 ≤ limit) :
    ∃ d, (∃ enough, ∀ fuel, enough ≤ fuel →
        getHistoricalPrices kline category symbol interval to_ limit fuel from₀ =
          some (.ok d)) ∧
      (d.written.flatten = d.retVal ↔ EndsBy interval candles from₀ to_) := by
  have hinv : BatchInv from₀ to_ limit hspaced
      { from_ := from₀, candles := klinePage candles from₀ limit, retVal := [],
        written := [], requests := 1 } :=
    { download := ⟨0,
        { requests := rfl
          page := rfl
          kept := (List.filter_eq_nil_iff.mpr (fun c _ => by simp)).symm
          start_le := le_refl _
          kept_le := by simp }⟩
      written := rfl
      start := Or.inl rfl }
  obtain ⟨r, hreturns, d, rfl, hiff⟩ :=
    Loop.total_correctness (downloadVariant interval to_)
      (historicalPass_batches hserve hlimit) _ hinv
  obtain ⟨enough, hrun⟩ := hreturns.eventually
  refine ⟨d, ⟨enough, ?_⟩, hiff⟩
  intro fuel hle
  rw [getHistoricalPrices, hserve 0 from₀ limit]
  exact hrun fuel hle

end Batches

/-- **Exactly when the batches are what is returned.**  The batches handed to `writer`
    in a download from a market at rest join to the candles returned, if and only if
    no candle from `from` on starts an interval after `to` or later. -/
theorem written_eq_returned_iff (kline : Endpoint (List Candle)) (candles : List Candle)
    (category : Category) (symbol : String) (interval : CandleInterval)
    (from_ to_ limit : Int)
    (hspaced : candles.Pairwise fun c d =>
      c.startTime + numberOfMsForCandleInterval interval ≤ d.startTime)
    (hserve : ServesKline kline (fun _ => candles) category symbol interval)
    (hlimit : 2 ≤ limit) :
    ∃ d, (∃ enough, ∀ fuel, enough ≤ fuel →
        getHistoricalPrices kline category symbol interval to_ limit fuel from_ =
          some (.ok d)) ∧
      (d.written.flatten = d.retVal ↔
        ∀ c ∈ candles, from_ ≤ c.startTime →
          c.startTime < to_ + numberOfMsForCandleInterval interval) :=
  batches_agree_iff from_ to_ hspaced hserve hlimit

/-- Three candles of a minute each, and one that has not begun in the third. -/
def threeMinutes : List Candle :=
  [flatCandle 0 7, flatCandle 60000 8, flatCandle 120000 9, flatCandle 180000 10]

theorem threeMinutes_spaced : threeMinutes.Pairwise fun c d =>
    c.startTime + numberOfMsForCandleInterval ._1 ≤ d.startTime := by
  decide

theorem written_eq_returned_iff_threeMinutes :
    ∃ d, (∃ enough, ∀ fuel, enough ≤ fuel →
        getHistoricalPrices (klineServer fun _ => threeMinutes) .linear "BTCUSDT" ._1
          150000 2 fuel 0 = some (.ok d)) ∧
      (d.written.flatten = d.retVal ↔
        ∀ c ∈ threeMinutes, 0 ≤ c.startTime →
          c.startTime < 150000 + numberOfMsForCandleInterval ._1) :=
  written_eq_returned_iff (klineServer fun _ => threeMinutes) threeMinutes .linear "BTCUSDT" ._1
    0 150000 2 threeMinutes_spaced (klineServer_serves _ _ _ _) (by decide)

/-- **The last batch has more than is returned.**  The candles of the first two minutes
    are asked for; the writer is given all four. -/
theorem batch_beyond_to :
    ¬ ∀ (kline : Endpoint (List Candle)) (candles : List Candle) (category : Category)
        (symbol : String) (interval : CandleInterval) (from_ to_ limit : Int),
      interval ≠ ._M →
      (candles.Pairwise fun c d =>
        c.startTime + numberOfMsForCandleInterval interval ≤ d.startTime) →
      ServesKline kline (fun _ => candles) category symbol interval → 2 ≤ limit →
      ∀ d fuel, getHistoricalPrices kline category symbol interval to_ limit fuel from_ =
          some (.ok d) → d.written.flatten = d.retVal := by
  intro h
  have hserve := klineServer_serves (fun _ => threeMinutes) .linear "BTCUSDT" ._1
  obtain ⟨d, ⟨enough, hrun⟩, hiff⟩ :=
    batches_agree_iff 0 60000 threeMinutes_spaced hserve (show (2 : Int) ≤ 200 by decide)
  have hagree := h _ threeMinutes .linear "BTCUSDT" ._1 0 60000 200 (by decide)
    threeMinutes_spaced hserve (by decide) d enough (hrun enough (le_refl _))
  have hends := hiff.mp hagree
  exact absurd (hends (flatCandle 180000 10) (by simp [threeMinutes]) (by decide)) (by decide)

/-! ### Page sizes -/

section Limits

variable {kline : Endpoint (List Candle)} {category : Category} {symbol : String}
  {interval : CandleInterval} {candles : List Candle}

/-- **A page of one candle.**  Nothing is kept of it, or nothing of it is asked for, so
    the download ends with nothing. -/
theorem returned_of_limit_one (from_ to_ : Int)
    (hserve : ServesKline kline (fun _ => candles) category symbol interval) :
    ∃ d, (∃ enough, ∀ fuel, enough ≤ fuel →
        getHistoricalPrices kline category symbol interval to_ 1 fuel from_ = some (.ok d)) ∧
      d.retVal = [] := by
  have hms := numberOfMsForCandleInterval_pos interval
  have hpage : (klinePage candles from_ 1).reverse =
      (Timeline.since Candle.startTime from_ candles).take 1 := by
    rw [klinePage, List.reverse_reverse]
    rfl
  have hexit : ∃ d, historicalPass kline category symbol interval to_ 1
      { from_ := from_, candles := klinePage candles from_ 1, retVal := [], written := [],
        requests := 1 } = .exit (.ok d) ∧ d.retVal = [] := by
    cases hsince : Timeline.since Candle.startTime from_ candles with
    | nil =>
        have hkept : popNewest interval to_ (klinePage candles from_ 1).reverse = [] := by
          simp [hpage, hsince, popNewest]
        exact ⟨_, historicalPass_of_nil hkept, rfl⟩
    | cons newest later =>
        rw [hsince, List.take_succ_cons, List.take_zero] at hpage
        have hkept := popNewest_concat interval to_ [] newest
        rw [List.nil_append, ← hpage] at hkept
        split at hkept
        · exact ⟨_, historicalPass_of_nil hkept, rfl⟩
        · next hlate =>
            have hbeyond : to_ < newest.startTime := by omega
            rw [hpage] at hkept
            have hkept' : popNewest interval to_ (klinePage candles from_ 1).reverse =
                [] ++ [newest] := by
              rw [hpage, hkept]
              rfl
            exact ⟨_, historicalPass_of_beyond hkept' hbeyond, by simp [not_le.mpr hbeyond]⟩
  obtain ⟨d, hexit, hretVal⟩ := hexit
  obtain ⟨enough, hrun⟩ := (Loop.returns_of_exit hexit).eventually
  refine ⟨d, ⟨enough, ?_⟩, hretVal⟩
  intro fuel hle
  rw [getHistoricalPrices, hserve 0 from_ 1]
  exact hrun fuel hle

/-- What is returned for a limit: the closed candles asked for, but nothing for a limit
    of one. -/
theorem returned_of_limit (from_ to_ : Int) {limit : Int}
    (hspaced : candles.Pairwise fun c d =>
      c.startTime + numberOfMsForCandleInterval interval ≤ d.startTime)
    (hserve : ServesKline kline (fun _ => candles) category symbol interval)
    (hlimit : 1 ≤ limit) :
    ∃ d, (∃ enough, ∀ fuel, enough ≤ fuel →
        getHistoricalPrices kline category symbol interval to_ limit fuel from_ =
          some (.ok d)) ∧
      d.retVal = if limit = 1 then [] else candles.dropLast.filter
        (fun c => decide (from_ ≤ c.startTime ∧ c.startTime ≤ to_)) := by
  by_cases hone : limit = 1
  · subst hone
    exact returned_of_limit_one from_ to_ hserve
  · obtain ⟨k, d, -, hreturns, hretVal⟩ :=
      getHistoricalPrices_complete (staticMarket candles hspaced) from_ to_ hserve
        (show 2 ≤ limit by omega)
    refine ⟨d, hreturns, ?_⟩
    rw [if_neg hone]
    exact hretVal

/-- **Exactly when the page size does not matter.**  Two limits give the same candles of
    a market at rest, if and only if both or neither of them is one, or no candle but
    the newest of the market is asked for. -/
theorem same_for_limits_iff (kline : Endpoint (List Candle)) (candles : List Candle)
    (category : Category) (symbol : String) (interval : CandleInterval)
    (from_ to_ limit₁ limit₂ : Int)
    (hspaced : candles.Pairwise fun c d =>
      c.startTime + numberOfMsForCandleInterval interval ≤ d.startTime)
    (hserve : ServesKline kline (fun _ => candles) category symbol interval)
    (hlimit₁ : 1 ≤ limit₁) (hlimit₂ : 1 ≤ limit₂) :
    ∃ d₁ d₂, (∃ enough, ∀ fuel, enough ≤ fuel →
        getHistoricalPrices kline category symbol interval to_ limit₁ fuel from_ =
          some (.ok d₁) ∧
        getHistoricalPrices kline category symbol interval to_ limit₂ fuel from_ =
          some (.ok d₂)) ∧
      (d₁.retVal = d₂.retVal ↔ (limit₁ = 1 ↔ limit₂ = 1) ∨
        ∀ c ∈ candles.dropLast, ¬ (from_ ≤ c.startTime ∧ c.startTime ≤ to_)) := by
  obtain ⟨d₁, ⟨enough₁, hrun₁⟩, hretVal₁⟩ := returned_of_limit from_ to_ hspaced hserve hlimit₁
  obtain ⟨d₂, ⟨enough₂, hrun₂⟩, hretVal₂⟩ := returned_of_limit from_ to_ hspaced hserve hlimit₂
  refine ⟨d₁, d₂, ⟨max enough₁ enough₂, ?_⟩, ?_⟩
  · intro fuel hle
    rcases max_le_iff.mp hle with ⟨hle₁, hle₂⟩
    exact ⟨hrun₁ fuel hle₁, hrun₂ fuel hle₂⟩
  · have hnone : candles.dropLast.filter
          (fun c => decide (from_ ≤ c.startTime ∧ c.startTime ≤ to_)) = [] ↔
        ∀ c ∈ candles.dropLast, ¬ (from_ ≤ c.startTime ∧ c.startTime ≤ to_) := by
      rw [List.filter_eq_nil_iff]
      simp only [decide_eq_true_eq]
    rw [hretVal₁, hretVal₂, ← hnone]
    by_cases hone₁ : limit₁ = 1
    · by_cases hone₂ : limit₂ = 1
      · simp [hone₁, hone₂]
      · rw [if_pos hone₁, if_neg hone₂, eq_comm]
        simp only [hone₁, hone₂, iff_false, not_true_eq_false, false_or]
    · by_cases hone₂ : limit₂ = 1
      · simp [hone₁, hone₂]
      · simp [hone₁, hone₂]

end Limits

theorem same_for_limits_iff_threeMinutes :
    ∃ d₁ d₂, (∃ enough, ∀ fuel, enough ≤ fuel →
        getHistoricalPrices (klineServer fun _ => threeMinutes) .linear "BTCUSDT" ._1
          150000 2 fuel 0 = some (.ok d₁) ∧
        getHistoricalPrices (klineServer fun _ => threeMinutes) .linear "BTCUSDT" ._1
          150000 200 fuel 0 = some (.ok d₂)) ∧
      (d₁.retVal = d₂.retVal ↔ ((2 : Int) = 1 ↔ (200 : Int) = 1) ∨
        ∀ c ∈ threeMinutes.dropLast, ¬ (0 ≤ c.startTime ∧ c.startTime ≤ 150000)) :=
  same_for_limits_iff (klineServer fun _ => threeMinutes) threeMinutes .linear "BTCUSDT" ._1
    0 150000 2 200 threeMinutes_spaced (klineServer_serves _ _ _ _) (by decide) (by decide)

/-- **A limit of one returns nothing.** -/
theorem limit_one_returns_nothing :
    ¬ ∀ (kline : Endpoint (List Candle)) (candles : List Candle) (category : Category)
        (symbol : String) (interval : CandleInterval) (from_ to_ limit₁ limit₂ : Int),
      interval ≠ ._M →
      (candles.Pairwise fun c d =>
        c.startTime + numberOfMsForCandleInterval interval ≤ d.startTime) →
      ServesKline kline (fun _ => candles) category symbol interval →
      1 ≤ limit₁ → 1 ≤ limit₂ →
      ∀ d₁ d₂ fuel,
        getHistoricalPrices kline category symbol interval to_ limit₁ fuel from_ =
          some (.ok d₁) →
        getHistoricalPrices kline category symbol interval to_ limit₂ fuel from_ =
          some (.ok d₂) → d₁.retVal = d₂.retVal := by
  intro h
  have hserve := klineServer_serves (fun _ => threeMinutes) .linear "BTCUSDT" ._1
  obtain ⟨d₁, ⟨enough₁, hrun₁⟩, hretVal₁⟩ :=
    returned_of_limit 0 150000 threeMinutes_spaced hserve (show (1 : Int) ≤ 1 by decide)
  obtain ⟨d₂, ⟨enough₂, hrun₂⟩, hretVal₂⟩ :=
    returned_of_limit 0 150000 threeMinutes_spaced hserve (show (1 : Int) ≤ 200 by decide)
  have heq := h _ threeMinutes .linear "BTCUSDT" ._1 0 150000 1 200 (by decide)
    threeMinutes_spaced hserve (by decide) (by decide) d₁ d₂ (max enough₁ enough₂)
    (hrun₁ _ (le_max_left _ _)) (hrun₂ _ (le_max_right _ _))
  rw [hretVal₁, hretVal₂] at heq
  exact absurd heq (by decide)

end BybitApi
