import BybitApi.HistoricalPrices
import Mathlib.Data.List.Chain

/-!
# Months and page boundaries

The newest candle of a page is dropped, and the next page is requested from one
interval after the last candle kept.  `numberOfMsForCandleInterval` makes a month
thirty days, so a candle that was dropped and starts 28 or 29 days after the one
before it lies before the next page, and is never fetched again.

`historicalPrices_complete_iff` says which candles meet that fate: those at a
multiple of `limit - 1` in the requested range.  With a limit of three the candle of
March 2023 is one of them (`march_skipped`).
-/

namespace BybitApi

def msPerDay : Int := 86400000

/-- One candle for each calendar month. -/
def Monthly (candles : List Candle) : Prop :=
  candles.IsChain fun c d =>
    c.startTime + 28 * msPerDay ≤ d.startTime ∧ d.startTime ≤ c.startTime + 31 * msPerDay

instance (candles : List Candle) : Decidable (Monthly candles) :=
  inferInstanceAs (Decidable (candles.IsChain _))

/-- The candle at the `k`-th page boundary, if there is a later one and it is asked
    for, starts an interval after its predecessor or later. -/
def BoundaryKept (interval : CandleInterval) (to_ : Int) (size : Nat) (range : List Candle)
    (k : Nat) : Prop :=
  ∀ last boundary, range[(k + 1) * size - 1]? = some last →
    range[(k + 1) * size]? = some boundary → (k + 1) * size + 1 < range.length →
      boundary.startTime ≤ to_ →
        last.startTime + numberOfMsForCandleInterval interval ≤ boundary.startTime

/-- So it is at every page boundary of the candles from `from` on; a page keeps one
    candle less than its limit. -/
def BoundariesKept (interval : CandleInterval) (from_ to_ limit : Int) (candles : List Candle) :
    Prop :=
  ∀ k, BoundaryKept interval to_ (limit.toNat - 1)
    (Timeline.since Candle.startTime from_ candles) k

/-! ### One pass -/

section Pass

variable {kline : Endpoint (List Candle)} {category : Category} {symbol : String}
  {interval : CandleInterval} {candles : List Candle} {from₀ to_ limit : Int}

theorem historicalPass_beyond {s : CandleDownload} {front : List Candle} {last newest : Candle}
    (hpage : s.candles.reverse = front ++ [last] ++ [newest])
    (hpop : newest.startTime - to_ < numberOfMsForCandleInterval interval)
    (hto : to_ < last.startTime) :
    ∃ d, historicalPass kline category symbol interval to_ limit s = .exit (.ok d) ∧
      d.retVal = s.retVal ++
        (front ++ [last]).filter (fun c => decide (c.startTime ≤ to_)) := by
  have hkept : popNewest interval to_ s.candles.reverse = front ++ [last] := by
    rw [hpage, popNewest_concat, if_pos hpop]
  exact ⟨_, historicalPass_of_beyond hkept hto, rfl⟩

/-- **What a pass does with a page.**  It ends the download with the candles of the
    page up to `to` but for the newest, drops the only candle of the page, or keeps
    all but the newest and goes on an interval after the last one kept. -/
theorem historicalPass_cases
    (hserve : ServesKline kline (fun _ => candles) category symbol interval) {s : CandleDownload}
    {older : List Candle} {newest : Candle} (hpage : s.candles.reverse = older ++ [newest])
    (hord : Timeline.Ordered Candle.startTime s.candles.reverse) :
    (to_ < newest.startTime ∧
      ∃ d, historicalPass kline category symbol interval to_ limit s = .exit (.ok d) ∧
        d.retVal = s.retVal ++ older.filter (fun c => decide (c.startTime ≤ to_))) ∨
    (older = [] ∧
      ∃ d, historicalPass kline category symbol interval to_ limit s = .exit (.ok d) ∧
        d.retVal = s.retVal) ∨
    ∃ front last written, older = front ++ [last] ∧ last.startTime ≤ to_ ∧
      historicalPass kline category symbol interval to_ limit s = .again
        { from_ := last.startTime + numberOfMsForCandleInterval interval
          candles := klinePage candles
            (last.startTime + numberOfMsForCandleInterval interval) limit
          retVal := s.retVal ++ older
          written := written
          requests := s.requests + 1 } := by
  have hms := numberOfMsForCandleInterval_pos interval
  by_cases hpop : newest.startTime - to_ < numberOfMsForCandleInterval interval
  · rcases List.eq_nil_or_concat' older with rfl | ⟨front, last, rfl⟩
    · exact Or.inr (Or.inl ⟨rfl, _, historicalPass_single hpage hpop, rfl⟩)
    · rcases lt_or_ge to_ last.startTime with hto | hto
      · have hlt : last.startTime < newest.startTime := by
          rw [hpage] at hord
          exact (List.pairwise_append.mp hord).2.2 last (by simp) newest (by simp)
        exact Or.inl ⟨hto.trans hlt, historicalPass_beyond hpage hpop hto⟩
      · have hreply := hserve s.requests
          (last.startTime + numberOfMsForCandleInterval interval) limit
        exact Or.inr (Or.inr ⟨front, last, _, rfl, hto, historicalPass_more hpage hpop hto hreply⟩)
  · have hto : to_ < newest.startTime := by omega
    obtain ⟨d, hexit, -, hretVal⟩ :
        ∃ d, historicalPass kline category symbol interval to_ limit s = .exit (.ok d) ∧ _ :=
      historicalPass_end hpage hpop hto
    refine Or.inl ⟨hto, d, hexit, ?_⟩
    rw [hretVal, List.filter_append, List.filter_singleton]
    simp [not_le.mpr hto]

/-! ### Where a download stands -/

variable (interval candles from₀ to_ limit)

/-- The candles asked for, as the download should return them. -/
def requested : List Candle :=
  candles.dropLast.filter fun c => decide (from₀ ≤ c.startTime ∧ c.startTime ≤ to_)

/-- The download has kept `k` full pages, and nothing was lost. -/
structure OnTrack (k : Nat) (s : CandleDownload) : Prop where
  range : Timeline.since Candle.startTime from₀ candles =
    s.retVal ++ Timeline.since Candle.startTime s.from_ candles
  full : s.retVal.length = k * (limit.toNat - 1)
  kept_le : ∀ c ∈ s.retVal, c.startTime ≤ to_
  rest : s.retVal = [] ∨ Timeline.since Candle.startTime s.from_ candles ≠ []
  boundaries : ∀ j < k, BoundaryKept interval to_ (limit.toNat - 1)
    (Timeline.since Candle.startTime from₀ candles) j

/-- The download has all that was asked for, and the page at hand adds nothing. -/
structure Finished (s : CandleDownload) : Prop where
  complete : s.retVal = requested candles from₀ to_
  rest : s.candles.length ≤ 1 ∨ ∀ c ∈ s.candles, to_ < c.startTime
  boundaries : BoundariesKept interval from₀ to_ limit candles

/-- A candle asked for lies before the page at hand and was not kept. -/
structure Skipped (s : CandleDownload) : Prop where
  lost : ∃ c ∈ requested candles from₀ to_, c ∉ s.retVal ∧ c.startTime < s.from_
  boundary : ¬ BoundariesKept interval from₀ to_ limit candles

def MonthlyInv (s : CandleDownload) : Prop :=
  s.candles = klinePage candles s.from_ limit ∧
    ((∃ k, OnTrack interval candles from₀ to_ limit k s) ∨
      Finished interval candles from₀ to_ limit s ∨ Skipped interval candles from₀ to_ limit s)

/-- The download is complete if every boundary was kept, and has lost a candle if
    not. -/
def CompleteIffKept (r : Except ApiError CandleDownload) : Prop :=
  ∃ d, r = .ok d ∧
    (d.retVal = requested candles from₀ to_ ↔
      BoundariesKept interval from₀ to_ limit candles) ∧
    (¬ BoundariesKept interval from₀ to_ limit candles →
      ∃ c ∈ requested candles from₀ to_, c ∉ d.retVal)

variable {interval candles from₀ to_ limit}

theorem requested_eq (hord : Timeline.Ordered Candle.startTime candles) :
    requested candles from₀ to_ =
      (Timeline.since Candle.startTime from₀ candles).dropLast.filter
        fun c => decide (c.startTime ≤ to_) := by
  rw [Timeline.dropLast_since hord, requested, Timeline.since, List.filter_filter]
  apply List.filter_congr
  intro c _
  rw [Bool.decide_and, Bool.and_comm]

/-- What lies behind a page: nothing, unless the page is full. -/
theorem page_split {s : CandleDownload} {older : List Candle} {newest : Candle}
    (hcandles : s.candles = klinePage candles s.from_ limit)
    (hpage : s.candles.reverse = older ++ [newest]) :
    ∃ later, Timeline.since Candle.startTime s.from_ candles = older ++ newest :: later ∧
      older.length + 1 ≤ limit.toNat ∧ (later = [] ∨ older.length + 1 = limit.toNat) := by
  have htake : (Timeline.since Candle.startTime s.from_ candles).take limit.toNat =
      older ++ [newest] := by
    rw [← hpage, hcandles, klinePage, List.reverse_reverse]
  have hlength := congrArg List.length htake
  rw [List.length_take, List.length_append, List.length_singleton] at hlength
  refine ⟨(Timeline.since Candle.startTime s.from_ candles).drop limit.toNat, ?_, by omega, ?_⟩
  · have hsplit := (List.take_append_drop limit.toNat
      (Timeline.since Candle.startTime s.from_ candles)).symm
    rw [htake, List.append_assoc] at hsplit
    exact hsplit
  · rw [List.drop_eq_nil_iff]
    omega

theorem newest_le (hord : Timeline.Ordered Candle.startTime candles) {start : Int}
    {older later : List Candle} {newest c : Candle}
    (hsince : Timeline.since Candle.startTime start candles = older ++ newest :: later)
    (hc : c ∈ newest :: later) : newest.startTime ≤ c.startTime := by
  have hsorted := Timeline.ordered_since (a := start) hord
  rw [hsince] at hsorted
  rcases List.mem_cons.mp hc with rfl | hlater
  · exact le_refl _
  · have htail := (List.pairwise_append.mp hsorted).2.1
    exact le_of_lt ((List.pairwise_cons.mp htail).1 c hlater)

/-- A page that reaches beyond `to`, or to the last candle, holds all that is left to
    keep. -/
theorem OnTrack.requested_of_end {k : Nat} {s : CandleDownload} {older later : List Candle}
    {newest : Candle} (hord : Timeline.Ordered Candle.startTime candles)
    (hs : OnTrack interval candles from₀ to_ limit k s)
    (hsince : Timeline.since Candle.startTime s.from_ candles = older ++ newest :: later)
    (hend : to_ < newest.startTime ∨ later = []) :
    requested candles from₀ to_ =
      s.retVal ++ older.filter (fun c => decide (c.startTime ≤ to_)) := by
  have hnone : ((newest :: later).dropLast).filter (fun c => decide (c.startTime ≤ to_)) = [] := by
    rw [List.filter_eq_nil_iff]
    intro c hc
    rcases hend with hto | rfl
    · have hle := newest_le hord hsince (List.mem_of_mem_dropLast hc)
      simp [hto.trans_le hle]
    · cases hc
  have hkept : s.retVal.filter (fun c => decide (c.startTime ≤ to_)) = s.retVal :=
    List.filter_eq_self.mpr fun c hc => by simpa using hs.kept_le c hc
  rw [requested_eq hord, hs.range, hsince, ← List.append_assoc,
    List.dropLast_append_of_ne_nil (List.cons_ne_nil _ _), List.filter_append,
    List.filter_append, hnone, hkept, List.append_nil]

/-- No boundary behind such a page matters. -/
theorem OnTrack.boundaries_of_end {k : Nat} {s : CandleDownload} {older later : List Candle}
    {newest : Candle} (hord : Timeline.Ordered Candle.startTime candles)
    (hs : OnTrack interval candles from₀ to_ limit k s)
    (hsince : Timeline.since Candle.startTime s.from_ candles = older ++ newest :: later)
    (hlimit : older.length + 1 ≤ limit.toNat) (hend : to_ < newest.startTime ∨ later = []) :
    BoundariesKept interval from₀ to_ limit candles := by
  intro j
  rcases lt_or_ge j k with hlt | hge
  · exact hs.boundaries j hlt
  · intro last boundary _ hboundary hlater hto
    have hindex : s.retVal.length + older.length ≤ (j + 1) * (limit.toNat - 1) := by
      have hmul := Nat.mul_le_mul_right (limit.toNat - 1) (Nat.succ_le_succ hge)
      rw [Nat.succ_mul, Nat.succ_mul] at hmul
      rw [Nat.succ_mul, hs.full]
      omega
    rw [hs.range, hsince] at hboundary hlater
    rcases hend with hbeyond | rfl
    · rw [← List.append_assoc, List.getElem?_append_right (by simpa using hindex)] at hboundary
      have hle := newest_le hord hsince (List.mem_of_getElem? hboundary)
      omega
    · simp only [List.length_append, List.length_cons, List.length_nil] at hlater
      omega

/-- At a boundary that matters the next page either goes on with the candle dropped,
    or begins behind it. -/
theorem OnTrack.boundary_iff {k : Nat} {s : CandleDownload} {front later : List Candle}
    {last newest : Candle} (hs : OnTrack interval candles from₀ to_ limit k s)
    (hsince : Timeline.since Candle.startTime s.from_ candles =
      front ++ [last] ++ newest :: later)
    (hfull : (front ++ [last]).length + 1 = limit.toNat) (hto : newest.startTime ≤ to_)
    (hlater : later ≠ []) :
    BoundaryKept interval to_ (limit.toNat - 1)
        (Timeline.since Candle.startTime from₀ candles) k ↔
      last.startTime + numberOfMsForCandleInterval interval ≤ newest.startTime := by
  have hindex : (k + 1) * (limit.toNat - 1) = s.retVal.length + (front ++ [last]).length := by
    rw [Nat.succ_mul, hs.full]
    omega
  have hlength := List.length_pos_iff.mpr hlater
  have hrange : Timeline.since Candle.startTime from₀ candles =
      (s.retVal ++ front) ++ last :: newest :: later := by
    rw [hs.range, hsince]
    simp
  have hlast : (Timeline.since Candle.startTime from₀ candles)[(k + 1) * (limit.toNat - 1) - 1]? =
      some last := by
    rw [hrange, hindex, List.getElem?_append_right (by simp)]
    simp
  have hboundary : (Timeline.since Candle.startTime from₀ candles)[(k + 1) * (limit.toNat - 1)]? =
      some newest := by
    rw [hrange, hindex, List.append_cons, List.getElem?_append_right (by simp)]
    simp
  have hbehind : (k + 1) * (limit.toNat - 1) + 1 <
      (Timeline.since Candle.startTime from₀ candles).length := by
    rw [hrange, hindex]
    simp only [List.length_append, List.length_cons, List.length_nil]
    omega
  constructor
  · exact fun h => h last newest hlast hboundary hbehind hto
  · intro h last' boundary hlast' hboundary' _ _
    obtain rfl := Option.some.inj (hlast.symm.trans hlast')
    obtain rfl := Option.some.inj (hboundary.symm.trans hboundary')
    exact h

/-! ### The three stages -/

theorem le_of_mem_page {s : CandleDownload} (hcandles : s.candles = klinePage candles s.from_ limit)
    {c : Candle} (hc : c ∈ s.candles) : s.from_ ≤ c.startTime := by
  rw [hcandles, klinePage, List.mem_reverse] at hc
  exact (Timeline.mem_since.mp (List.mem_of_mem_take hc)).2

theorem completeIffKept_of_kept {d : CandleDownload} (hd : d.retVal = requested candles from₀ to_)
    (hkept : BoundariesKept interval from₀ to_ limit candles) :
    CompleteIffKept interval candles from₀ to_ limit (.ok d) :=
  ⟨d, rfl, iff_of_true hd hkept, absurd hkept⟩

/-- A candle that lies before the page is not in it, either. -/
theorem Skipped.not_mem_append {s : CandleDownload}
    (hs : Skipped interval candles from₀ to_ limit s)
    (hcandles : s.candles = klinePage candles s.from_ limit) {kept : List Candle}
    (hkept : ∀ c ∈ kept, c ∈ s.candles) :
    ∃ c ∈ requested candles from₀ to_, c ∉ s.retVal ++ kept ∧ c.startTime < s.from_ := by
  obtain ⟨c, hc, hlost, hbefore⟩ := hs.lost
  refine ⟨c, hc, ?_, hbefore⟩
  rw [List.mem_append, not_or]
  refine ⟨hlost, ?_⟩
  intro hmem
  have hle := le_of_mem_page hcandles (hkept c hmem)
  omega

theorem Skipped.completeIffKept {s d : CandleDownload}
    (hs : Skipped interval candles from₀ to_ limit s)
    (hcandles : s.candles = klinePage candles s.from_ limit) {kept : List Candle}
    (hkept : ∀ c ∈ kept, c ∈ s.candles) (hd : d.retVal = s.retVal ++ kept) :
    CompleteIffKept interval candles from₀ to_ limit (.ok d) := by
  obtain ⟨c, hc, hlost, -⟩ := hs.not_mem_append hcandles hkept
  rw [← hd] at hlost
  refine ⟨d, rfl, iff_of_false (fun h => hlost ?_) hs.boundary, fun _ => ⟨c, hc, hlost⟩⟩
  rw [h]
  exact hc

/-- The next page is from the candles behind the last one kept. -/
theorem since_next (hord : Timeline.Ordered Candle.startTime candles) {start : Int}
    {front later : List Candle} {last newest : Candle}
    (hsince : Timeline.since Candle.startTime start candles =
      front ++ [last] ++ newest :: later) :
    Timeline.since Candle.startTime (last.startTime + numberOfMsForCandleInterval interval)
        candles =
      Timeline.since Candle.startTime (last.startTime + numberOfMsForCandleInterval interval)
        (newest :: later) := by
  have hms := numberOfMsForCandleInterval_pos interval
  have hlast : last ∈ Timeline.since Candle.startTime start candles := by
    rw [hsince]
    simp
  have hstart := (Timeline.mem_since.mp hlast).2
  have hsorted := Timeline.ordered_since (a := start) hord
  have hnone : Timeline.since Candle.startTime
      (last.startTime + numberOfMsForCandleInterval interval) (front ++ [last]) = [] := by
    rw [Timeline.since, List.filter_eq_nil_iff]
    intro c hc
    rw [hsince] at hsorted
    have hle := Timeline.Ordered.le_last (List.pairwise_append.mp hsorted).1 hc
    simp only [decide_eq_true_eq, not_le]
    omega
  rw [← Timeline.since_since (a := start) (by omega), hsince, Timeline.since, List.filter_append,
    ← Timeline.since, ← Timeline.since, hnone, List.nil_append]

/-! ### From a page to the next -/

/-- The download behind a page that was kept up to `last`. -/
def CandleDownload.behind (s : CandleDownload) (interval : CandleInterval)
    (candles : List Candle) (limit : Int) (kept : List Candle) (last : Candle)
    (written : List (List Candle)) : CandleDownload where
  from_ := last.startTime + numberOfMsForCandleInterval interval
  candles := klinePage candles (last.startTime + numberOfMsForCandleInterval interval) limit
  retVal := s.retVal ++ kept
  written := written
  requests := s.requests + 1

section Behind

variable {k : Nat} {s : CandleDownload} {front later : List Candle} {last newest : Candle}
  {written : List (List Candle)}

theorem kept_le_last (hord : Timeline.Ordered Candle.startTime candles)
    (hsince : Timeline.since Candle.startTime s.from_ candles = front ++ [last] ++ newest :: later)
    (hto : last.startTime ≤ to_) : ∀ c ∈ front ++ [last], c.startTime ≤ to_ := by
  intro c hc
  have hsorted := Timeline.ordered_since (a := s.from_) hord
  rw [hsince] at hsorted
  exact (Timeline.Ordered.le_last (List.pairwise_append.mp hsorted).1 hc).trans hto

theorem OnTrack.range_behind (hs : OnTrack interval candles from₀ to_ limit k s)
    (hsince :
      Timeline.since Candle.startTime s.from_ candles = front ++ [last] ++ newest :: later) :
    Timeline.since Candle.startTime from₀ candles =
      (s.retVal ++ (front ++ [last])) ++ newest :: later := by
  rw [hs.range, hsince]
  exact (List.append_assoc _ _ _).symm

/-- Behind the end only the candle dropped may come back. -/
theorem OnTrack.finished_behind (hord : Timeline.Ordered Candle.startTime candles)
    (hs : OnTrack interval candles from₀ to_ limit k s)
    (hsince : Timeline.since Candle.startTime s.from_ candles = front ++ [last] ++ newest :: later)
    (hlimit : (front ++ [last]).length + 1 ≤ limit.toNat) (hto : last.startTime ≤ to_)
    (hend : to_ < newest.startTime ∨ later = []) :
    Finished interval candles from₀ to_ limit
      (s.behind interval candles limit (front ++ [last]) last written) := by
  have hnext : Timeline.since Candle.startTime
      (last.startTime + numberOfMsForCandleInterval interval) candles = _ :=
    since_next hord hsince
  refine ⟨?_, ?_, hs.boundaries_of_end hord hsince hlimit hend⟩
  · rw [hs.requested_of_end hord hsince hend, List.filter_eq_self.mpr]
    · rfl
    · intro c hc
      simpa using kept_le_last hord hsince hto c hc
  · have hpage : ∀ c ∈ klinePage candles
        (last.startTime + numberOfMsForCandleInterval interval) limit, c ∈ newest :: later := by
      intro c hc
      rw [klinePage, hnext, List.mem_reverse] at hc
      exact (Timeline.mem_since.mp (List.mem_of_mem_take hc)).1
    rcases hend with hbeyond | rfl
    · right
      intro c hc
      exact hbeyond.trans_le (newest_le hord hsince (hpage c hc))
    · left
      rw [CandleDownload.behind, klinePage, hnext, List.length_reverse]
      exact (List.length_take_le' _ _).trans (List.length_filter_le _ _)

/-- The candle dropped is fetched again. -/
theorem OnTrack.onTrack_behind (hord : Timeline.Ordered Candle.startTime candles)
    (hs : OnTrack interval candles from₀ to_ limit k s)
    (hsince : Timeline.since Candle.startTime s.from_ candles = front ++ [last] ++ newest :: later)
    (hfull : (front ++ [last]).length + 1 = limit.toNat) (hto : last.startTime ≤ to_)
    (hnewest : newest.startTime ≤ to_) (hlater : later ≠ [])
    (hstart : last.startTime + numberOfMsForCandleInterval interval ≤ newest.startTime) :
    OnTrack interval candles from₀ to_ limit (k + 1)
      (s.behind interval candles limit (front ++ [last]) last written) := by
  have hrest : Timeline.since Candle.startTime
      (last.startTime + numberOfMsForCandleInterval interval) candles = newest :: later := by
    rw [since_next hord hsince, Timeline.since, List.filter_eq_self]
    intro c hc
    have hle := newest_le hord hsince hc
    simp only [decide_eq_true_eq]
    omega
  constructor
  · rw [hs.range_behind hsince, CandleDownload.behind, hrest]
  · rw [CandleDownload.behind, List.length_append, hs.full, Nat.succ_mul]
    omega
  · intro c hc
    rcases List.mem_append.mp hc with hbefore | hpage
    · exact hs.kept_le c hbefore
    · exact kept_le_last hord hsince hto c hpage
  · right
    rw [CandleDownload.behind, hrest]
    exact List.cons_ne_nil _ _
  · intro j hj
    rcases Nat.lt_succ_iff_lt_or_eq.mp hj with hlt | rfl
    · exact hs.boundaries j hlt
    · exact (hs.boundary_iff hsince hfull hnewest hlater).mpr hstart

/-- The candle dropped lies before the next page. -/
theorem OnTrack.skipped_behind (hord : Timeline.Ordered Candle.startTime candles)
    (hs : OnTrack interval candles from₀ to_ limit k s)
    (hsince : Timeline.since Candle.startTime s.from_ candles = front ++ [last] ++ newest :: later)
    (hfull : (front ++ [last]).length + 1 = limit.toNat) (hnewest : newest.startTime ≤ to_)
    (hlater : later ≠ [])
    (hstart : newest.startTime < last.startTime + numberOfMsForCandleInterval interval) :
    Skipped interval candles from₀ to_ limit
      (s.behind interval candles limit (front ++ [last]) last written) := by
  have hrange := hs.range_behind hsince
  constructor
  · refine ⟨newest, ?_, ?_, hstart⟩
    · rw [requested_eq hord, hrange, List.dropLast_append_of_ne_nil (List.cons_ne_nil _ _),
        List.dropLast_cons_of_ne_nil hlater]
      simp [hnewest]
    · intro hmem
      have hsorted := Timeline.ordered_since (a := from₀) hord
      rw [hrange] at hsorted
      exact lt_irrefl _ ((List.pairwise_append.mp hsorted).2.2 newest hmem newest (by simp))
  · intro hall
    have hkept := (hs.boundary_iff hsince hfull hnewest hlater).mp (hall k)
    exact absurd hstart (not_lt.mpr hkept)

end Behind

/-- The download goes on from a page that is kept but for its newest candle. -/
theorem OnTrack.next {k : Nat} {s : CandleDownload} {front : List Candle} {last newest : Candle}
    {written : List (List Candle)} (hord : Timeline.Ordered Candle.startTime candles)
    (hcandles : s.candles = klinePage candles s.from_ limit)
    (hpage : s.candles.reverse = front ++ [last] ++ [newest]) (hto : last.startTime ≤ to_)
    (hs : OnTrack interval candles from₀ to_ limit k s) :
    MonthlyInv interval candles from₀ to_ limit
      (s.behind interval candles limit (front ++ [last]) last written) := by
  obtain ⟨later, hsince, hlimit, hfull⟩ := page_split hcandles hpage
  refine ⟨rfl, ?_⟩
  by_cases hend : to_ < newest.startTime ∨ later = []
  · exact Or.inr (Or.inl (hs.finished_behind hord hsince hlimit hto hend))
  · rw [not_or, not_lt] at hend
    rcases hend with ⟨hnewest, hlater⟩
    have hfull := hfull.resolve_left hlater
    rcases le_or_gt (last.startTime + numberOfMsForCandleInterval interval) newest.startTime
      with hstart | hstart
    · exact Or.inl ⟨k + 1, hs.onTrack_behind hord hsince hfull hto hnewest hlater hstart⟩
    · exact Or.inr (Or.inr (hs.skipped_behind hord hsince hfull hnewest hlater hstart))

/-! ### What a pass does to the download -/

section Exits

variable {s d : CandleDownload} {older later : List Candle} {newest : Candle}

/-- The page is empty. -/
theorem MonthlyInv.completeIffKept_of_empty (hord : Timeline.Ordered Candle.startTime candles)
    (hlimit : 2 ≤ limit) (hs : MonthlyInv interval candles from₀ to_ limit s)
    (hpage : s.candles = []) : CompleteIffKept interval candles from₀ to_ limit (.ok s) := by
  rcases hs with ⟨hcandles, ⟨k, hs⟩ | hs | hs⟩
  · have hnone : Timeline.since Candle.startTime s.from_ candles = [] := by
      rw [hpage, klinePage, eq_comm, List.reverse_eq_nil_iff, List.take_eq_nil_iff] at hcandles
      exact hcandles.resolve_left (by omega)
    have hkept : s.retVal = [] := hs.rest.resolve_right (not_not_intro hnone)
    have hrange := hs.range
    rw [hnone, hkept, List.append_nil] at hrange
    apply completeIffKept_of_kept
    · rw [requested_eq hord, hrange, hkept]
      rfl
    · intro j last boundary hlast
      rw [hrange] at hlast
      cases hlast
  · exact completeIffKept_of_kept hs.complete hs.boundaries
  · exact hs.completeIffKept hcandles (by simp) (List.append_nil _).symm

/-- The page reaches beyond `to`. -/
theorem MonthlyInv.completeIffKept_of_beyond (hord : Timeline.Ordered Candle.startTime candles)
    (hs : MonthlyInv interval candles from₀ to_ limit s)
    (hpage : s.candles.reverse = older ++ [newest]) (hto : to_ < newest.startTime)
    (hd : d.retVal = s.retVal ++ older.filter fun c => decide (c.startTime ≤ to_)) :
    CompleteIffKept interval candles from₀ to_ limit (.ok d) := by
  have holder : ∀ c ∈ older, c ∈ s.candles := by
    intro c hc
    rw [← List.mem_reverse, hpage]
    exact List.mem_append_left _ hc
  rcases hs with ⟨hcandles, ⟨k, hs⟩ | hs | hs⟩
  · obtain ⟨later, hsince, hle, -⟩ := page_split hcandles hpage
    apply completeIffKept_of_kept
    · rw [hd, hs.requested_of_end hord hsince (Or.inl hto)]
    · exact hs.boundaries_of_end hord hsince hle (Or.inl hto)
  · refine completeIffKept_of_kept (hd.trans ?_) hs.boundaries
    rw [hs.complete, List.append_right_eq_self, List.filter_eq_nil_iff]
    intro c hc
    rcases hs.rest with hlength | hbeyond
    · rw [← List.length_reverse, hpage, List.length_append] at hlength
      have hpos := List.length_pos_of_mem hc
      simp only [List.length_singleton] at hlength
      omega
    · simpa using hbeyond c (holder c hc)
  · apply hs.completeIffKept hcandles _ hd
    intro c hc
    exact holder c (List.mem_of_mem_filter hc)

/-- The only candle of the page is dropped. -/
theorem MonthlyInv.completeIffKept_of_single (hord : Timeline.Ordered Candle.startTime candles)
    (hlimit : 2 ≤ limit) (hs : MonthlyInv interval candles from₀ to_ limit s)
    (hpage : s.candles.reverse = [] ++ [newest]) (hd : d.retVal = s.retVal) :
    CompleteIffKept interval candles from₀ to_ limit (.ok d) := by
  rcases hs with ⟨hcandles, ⟨k, hs⟩ | hs | hs⟩
  · obtain ⟨later, hsince, hle, hfull⟩ := page_split hcandles hpage
    have hlast : later = [] := by
      apply hfull.resolve_right
      rw [List.length_nil]
      omega
    apply completeIffKept_of_kept
    · rw [hd, hs.requested_of_end hord hsince (Or.inr hlast)]
      simp
    · exact hs.boundaries_of_end hord hsince hle (Or.inr hlast)
  · exact completeIffKept_of_kept (hd.trans hs.complete) hs.boundaries
  · exact hs.completeIffKept hcandles (by simp) (hd.trans (List.append_nil _).symm)

end Exits

/-- The next page is requested. -/
theorem MonthlyInv.next {s : CandleDownload} {front : List Candle} {last newest : Candle}
    {written : List (List Candle)} (hord : Timeline.Ordered Candle.startTime candles)
    (hs : MonthlyInv interval candles from₀ to_ limit s)
    (hpage : s.candles.reverse = front ++ [last] ++ [newest]) (hto : last.startTime ≤ to_) :
    MonthlyInv interval candles from₀ to_ limit
      (s.behind interval candles limit (front ++ [last]) last written) := by
  have hms := numberOfMsForCandleInterval_pos interval
  have hkept : ∀ c ∈ front ++ [last], c ∈ s.candles := by
    intro c hc
    rw [← List.mem_reverse, hpage]
    exact List.mem_append_left _ hc
  rcases hs with ⟨hcandles, ⟨k, hs⟩ | hs | hs⟩
  · exact hs.next hord hcandles hpage hto
  · rcases hs.rest with hlength | hbeyond
    · rw [← List.length_reverse, hpage] at hlength
      simp only [List.length_append, List.length_singleton] at hlength
      omega
    · exact absurd hto (not_le.mpr (hbeyond last (hkept last (by simp))))
  · obtain ⟨c, hc, hlost, hbefore⟩ := hs.not_mem_append hcandles hkept
    have hfrom := le_of_mem_page hcandles (hkept last (by simp))
    refine ⟨rfl, Or.inr (Or.inr ⟨⟨c, hc, hlost, ?_⟩, hs.boundary⟩)⟩
    dsimp only [CandleDownload.behind]
    omega

/-- **What a pass does to the download.** -/
theorem monthly_progress (hord : Timeline.Ordered Candle.startTime candles)
    (hserve : ServesKline kline (fun _ => candles) category symbol interval) (hlimit : 2 ≤ limit)
    (s : CandleDownload) (hs : MonthlyInv interval candles from₀ to_ limit s) :
    (∃ next, historicalPass kline category symbol interval to_ limit s = .again next ∧
      MonthlyInv interval candles from₀ to_ limit next ∧
      downloadVariant interval to_ next < downloadVariant interval to_ s) ∨
    (∃ r, historicalPass kline category symbol interval to_ limit s = .exit r ∧
      CompleteIffKept interval candles from₀ to_ limit r) := by
  have hms := numberOfMsForCandleInterval_pos interval
  have hsorted : Timeline.Ordered Candle.startTime s.candles.reverse := by
    rw [hs.1, klinePage, List.reverse_reverse]
    exact (Timeline.ordered_since hord).sublist (List.take_sublist _ _)
  rcases List.eq_nil_or_concat' s.candles.reverse with hpage | ⟨older, newest, hpage⟩
  · right
    have hnil : s.candles = [] := by simpa using hpage
    exact ⟨_, historicalPass_empty hnil, hs.completeIffKept_of_empty hord hlimit hnil⟩
  · rcases historicalPass_cases hserve hpage hsorted with
      ⟨hto, d, hexit, hd⟩ | ⟨rfl, d, hexit, hd⟩ | ⟨front, last, written, rfl, hto, hagain⟩
    · exact Or.inr ⟨_, hexit, hs.completeIffKept_of_beyond hord hpage hto hd⟩
    · exact Or.inr ⟨_, hexit, hs.completeIffKept_of_single hord hlimit hpage hd⟩
    · refine Or.inl ⟨_, hagain, hs.next hord hpage hto, ?_⟩
      have hmem : last ∈ s.candles := by
        rw [← List.mem_reverse, hpage]
        simp
      have hfrom := le_of_mem_page hs.1 hmem
      simp only [downloadVariant]
      omega

end Pass

/-- **Exactly when a download is complete.**  From an exchange whose candles do not
    change, a download returns in increasing order the candles from `from` to `to`
    but for the exchange's last one if and only if every page boundary is kept. -/
theorem historicalPrices_complete_iff {interval : CandleInterval} {candles : List Candle}
    (hord : Timeline.Ordered Candle.startTime candles) {kline : Endpoint (List Candle)}
    {category : Category} {symbol : String}
    (hserve : ServesKline kline (fun _ => candles) category symbol interval)
    (from_ to_ : Int) {limit : Int} (hlimit : 2 ≤ limit) :
    ∃ d, (∃ enough, ∀ fuel, enough ≤ fuel →
        getHistoricalPrices kline category symbol interval to_ limit fuel from_ = some (.ok d)) ∧
      (d.retVal = requested candles from_ to_ ↔
        BoundariesKept interval from_ to_ limit candles) ∧
      (¬ BoundariesKept interval from_ to_ limit candles →
        ∃ c ∈ requested candles from_ to_, c ∉ d.retVal) := by
  have hstart : MonthlyInv interval candles from_ to_ limit
      { from_ := from_, candles := klinePage candles from_ limit, retVal := [],
        written := [], requests := 1 } :=
    ⟨rfl, Or.inl ⟨0,
      { range := rfl
        full := (Nat.zero_mul _).symm
        kept_le := by simp
        rest := Or.inl rfl
        boundaries := by simp }⟩⟩
  obtain ⟨r, hreturns, d, rfl, hiff, hlost⟩ :=
    Loop.total_correctness (downloadVariant interval to_)
      (monthly_progress hord hserve hlimit) _ hstart
  obtain ⟨enough, hrun⟩ := hreturns.eventually
  refine ⟨d, ⟨enough, ?_⟩, hiff, hlost⟩
  intro fuel hle
  rw [getHistoricalPrices, hserve 0 from_ limit]
  exact hrun fuel hle

/-- Candles that start at least an interval apart lose nothing. -/
theorem boundariesKept_of_spaced {interval : CandleInterval} {candles : List Candle}
    {limit : Int} (hlimit : 2 ≤ limit)
    (hspaced : candles.Pairwise fun c d =>
      c.startTime + numberOfMsForCandleInterval interval ≤ d.startTime) (from_ to_ : Int) :
    BoundariesKept interval from_ to_ limit candles := by
  intro k last boundary hlast hboundary _ _
  obtain ⟨hindex, rfl⟩ := List.getElem?_eq_some_iff.mp hlast
  obtain ⟨hindex', rfl⟩ := List.getElem?_eq_some_iff.mp hboundary
  have hrange : (Timeline.since Candle.startTime from_ candles).Pairwise fun c d =>
      c.startTime + numberOfMsForCandleInterval interval ≤ d.startTime :=
    List.Pairwise.filter _ hspaced
  have hpos : 0 < (k + 1) * (limit.toNat - 1) := Nat.mul_pos (Nat.succ_pos k) (by omega)
  exact List.pairwise_iff_getElem.mp hrange _ _ hindex hindex' (Nat.sub_lt hpos Nat.one_pos)

/-! ### Months -/

theorem Monthly.ordered {candles : List Candle} (h : Monthly candles) :
    Timeline.Ordered Candle.startTime candles := by
  have hchain : candles.IsChain fun c d => c.startTime < d.startTime := by
    apply h.imp
    intro c d hgap
    unfold msPerDay at hgap
    omega
  have htrans : Trans (fun c d : Candle => c.startTime < d.startTime)
      (fun c d : Candle => c.startTime < d.startTime)
      (fun c d : Candle => c.startTime < d.startTime) :=
    ⟨fun hcd hde => lt_trans hcd hde⟩
  exact hchain.pairwise

/-- **Exactly when no month is skipped.** -/
theorem monthly_complete_iff {candles : List Candle} (hmonthly : Monthly candles)
    {kline : Endpoint (List Candle)} {category : Category} {symbol : String}
    (hserve : ServesKline kline (fun _ => candles) category symbol ._M) (from_ to_ : Int)
    {limit : Int} (hlimit : 2 ≤ limit) :
    ∃ d, (∃ enough, ∀ fuel, enough ≤ fuel →
        getHistoricalPrices kline category symbol ._M to_ limit fuel from_ = some (.ok d)) ∧
      (d.retVal = requested candles from_ to_ ↔ BoundariesKept ._M from_ to_ limit candles) := by
  obtain ⟨d, hreturns, hiff, -⟩ :=
    historicalPrices_complete_iff hmonthly.ordered hserve from_ to_ hlimit
  exact ⟨d, hreturns, hiff⟩

/-- The months from March to July 2023. -/
def fromMarch : List Candle :=
  [flatCandle 1677628800000 1, flatCandle 1680307200000 2, flatCandle 1682899200000 3,
    flatCandle 1685577600000 4, flatCandle 1688169600000 5]

theorem monthly_complete_iff_fromMarch :
    ∃ d, (∃ enough, ∀ fuel, enough ≤ fuel →
        getHistoricalPrices (klineServer fun _ => fromMarch) .linear "BTCUSDT" ._M
          1690000000000 3 fuel 1677628800000 = some (.ok d)) ∧
      d.retVal = requested fromMarch 1677628800000 1690000000000 := by
  obtain ⟨d, hreturns, hiff⟩ := monthly_complete_iff (by decide : Monthly fromMarch)
    (klineServer_serves (fun _ => fromMarch) .linear "BTCUSDT" ._M) 1677628800000 1690000000000
    (by decide : (2 : Int) ≤ 3)
  exact ⟨d, hreturns, hiff.mpr (boundariesKept_of_spaced (by decide) (by decide) _ _)⟩

/-- The months from January to May 2023. -/
def fromJanuary : List Candle :=
  [flatCandle 1672531200000 1, flatCandle 1675209600000 2, flatCandle 1677628800000 3,
    flatCandle 1680307200000 4, flatCandle 1682899200000 5]

/-- A page of three months from January 2023 on drops March, and the next one begins
    on the third of March. -/
theorem march_skipped :
    Monthly fromJanuary ∧
      ∃ d, (∃ enough, ∀ fuel, enough ≤ fuel →
          getHistoricalPrices (klineServer fun _ => fromJanuary) .linear "BTCUSDT" ._M
            1682000000000 3 fuel 1672531200000 = some (.ok d)) ∧
        ∃ c ∈ requested fromJanuary 1672531200000 1682000000000, c ∉ d.retVal := by
  have hmonthly : Monthly fromJanuary := by decide
  obtain ⟨d, hreturns, -, hlost⟩ := historicalPrices_complete_iff hmonthly.ordered
    (klineServer_serves (fun _ => fromJanuary) .linear "BTCUSDT" ._M) 1672531200000 1682000000000
    (by decide : (2 : Int) ≤ 3)
  refine ⟨hmonthly, d, hreturns, hlost ?_⟩
  intro hkept
  exact absurd (hkept 0 _ _ rfl rfl (by decide) (by decide)) (by decide)

end BybitApi
