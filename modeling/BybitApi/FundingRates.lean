import BybitApi.Loop
import BybitApi.Timeline
import BybitApi.Wire

/-!
# Download of funding rates

`RESTClient::getFundingRates` walks backward through the funding history: each
page holds the newest records up to `endTime`, which is then set to just before
the oldest record of the page.  The exchange may append records meanwhile.
-/

namespace BybitApi

structure FundingRate where
  symbol : String
  fundingRate : Double
  fundingRateTimestamp : Int
deriving DecidableEq, Repr

/-! ### The source -/

/-- The query parameters that `P::getFundingRates` sends to
    `/v5/market/funding/history`. -/
def fundingParameters (category : Category) (symbol : String)
    (startTime endTime limit : Int) : Parameters :=
  insertLimit
    ((((∅ : Parameters).insert "category" category.enumName).insert "symbol" symbol
      |>.insert "startTime" (toString startTime)).insert "endTime" (toString endTime)) limit

structure FundingDownload where
  endTime : Int
  fr : List FundingRate
  retVal : List FundingRate
  requests : Nat
deriving DecidableEq, Repr

section Source

variable (funding : Endpoint (List FundingRate)) (category : Category) (symbol : String)
  (startTime limit : Int)

/-- The guarded request of `getFundingRates`: nothing is asked for when
    `startTime < endTime` fails. -/
def requestFunding (endTime : Int) (retVal : List FundingRate) (requests : Nat) :
    Except ApiError FundingDownload :=
  if startTime < endTime then
    match funding requests (fundingParameters category symbol startTime endTime limit) with
    | .error e => .error e
    | .ok fr => .ok { endTime := endTime, fr := fr, retVal := retVal, requests := requests + 1 }
  else .ok { endTime := endTime, fr := [], retVal := retVal, requests := requests }

/-- One pass of the `while` loop; the list is reversed once the loop is left. -/
def fundingPass (s : FundingDownload) :
    Loop.Pass FundingDownload (Except ApiError (List FundingRate)) :=
  match s.fr.getLast? with
  | none => .exit (.ok s.retVal.reverse)
  | some back =>
      match requestFunding funding category symbol startTime limit
          (back.fundingRateTimestamp - 1) (s.retVal ++ s.fr) s.requests with
      | .error e => .exit (.error e)
      | .ok next => .again next

/-- `RESTClient::getFundingRates`, for at most `fuel` passes of its loop. -/
def getFundingRates (fuel : Nat) (endTime : Int) : Option (Except ApiError (List FundingRate)) :=
  match requestFunding funding category symbol startTime limit endTime [] 0 with
  | .error e => some (.error e)
  | .ok s => Loop.run (fundingPass funding category symbol startTime limit) fuel s

end Source

/-! ### The exchange -/

/-- A funding history seen at each request: records at least 2 ms apart, newer
    ones being appended between two requests. -/
structure FundingHistory where
  records : Nat → List FundingRate
  spaced : ∀ k, (records k).Pairwise fun r r' =>
    r.fundingRateTimestamp + 2 ≤ r'.fundingRateTimestamp
  grows : ∀ k, records k <+: records (k + 1)

/-- The `limit` newest records from `startTime` to `endTime`, newest first. -/
def fundingPage (records : List FundingRate) (startTime endTime limit : Int) :
    List FundingRate :=
  (Timeline.between FundingRate.fundingRateTimestamp startTime endTime records).reverse.take
    limit.toNat

def ServesFunding (funding : Endpoint (List FundingRate)) (records : Nat → List FundingRate)
    (category : Category) (symbol : String) : Prop :=
  ∀ k startTime endTime limit,
    funding k (fundingParameters category symbol startTime endTime limit) =
      .ok (fundingPage (records k) startTime endTime limit)

theorem FundingHistory.ordered (history : FundingHistory) (k : Nat) :
    Timeline.Ordered FundingRate.fundingRateTimestamp (history.records k) :=
  (history.spaced k).imp fun h => by omega

theorem FundingHistory.gap (history : FundingHistory) {k : Nat} {older newer : FundingRate}
    (holder : older ∈ history.records k) (hnewer : newer ∈ history.records k)
    (hlt : older.fundingRateTimestamp < newer.fundingRateTimestamp) :
    older.fundingRateTimestamp + 2 ≤ newer.fundingRateTimestamp := by
  obtain ⟨left, right, hsplit⟩ := List.append_of_mem hnewer
  have hspaced := history.spaced k
  rw [hsplit] at hspaced holder
  obtain ⟨_, hright, hleft⟩ := List.pairwise_append.mp hspaced
  rcases List.mem_append.mp holder with hmem | hmem
  · exact hleft older hmem newer (by simp)
  · rcases List.mem_cons.mp hmem with rfl | hmem
    · omega
    · have hge := (List.pairwise_cons.mp hright).1 older hmem
      omega

theorem FundingHistory.prefix_first (history : FundingHistory) (k : Nat) :
    history.records 0 <+: history.records k := by
  induction k with
  | zero => exact List.prefix_refl _
  | succ k ih => exact ih.trans (history.grows k)

/-- The oldest record of a page that is not empty splits what was asked for into the
    part still to fetch and the page. -/
theorem fundingPage_split {records : List FundingRate} {startTime endTime limit : Int}
    {oldest : FundingRate} (hord : Timeline.Ordered FundingRate.fundingRateTimestamp records)
    (holdest : (fundingPage records startTime endTime limit).getLast? = some oldest) :
    oldest ∈ records ∧ startTime ≤ oldest.fundingRateTimestamp ∧
      oldest.fundingRateTimestamp ≤ endTime ∧
      (Timeline.between FundingRate.fundingRateTimestamp startTime endTime records).reverse =
      fundingPage records startTime endTime limit ++
        (Timeline.between FundingRate.fundingRateTimestamp startTime
          (oldest.fundingRateTimestamp - 1) records).reverse := by
  have hsplit := List.take_append_drop limit.toNat
    (Timeline.between FundingRate.fundingRateTimestamp startTime endTime records).reverse
  rw [← fundingPage] at hsplit
  obtain ⟨newer, hfr⟩ := List.getLast?_eq_some_iff.mp holdest
  have hmem : oldest ∈ Timeline.between FundingRate.fundingRateTimestamp startTime endTime
      records := by
    rw [← List.mem_reverse, ← hsplit, hfr]
    simp
  obtain ⟨hrecord, hstart, hend⟩ := Timeline.mem_between.mp hmem
  refine ⟨hrecord, hstart, hend, ?_⟩
  generalize hrest : List.drop limit.toNat (Timeline.between FundingRate.fundingRateTimestamp
    startTime endTime records).reverse = rest at hsplit
  have hforward : Timeline.between FundingRate.fundingRateTimestamp startTime endTime records =
      rest.reverse ++ (oldest :: newer.reverse) := by
    rw [← List.reverse_reverse (Timeline.between _ _ _ _), ← hsplit, hfr]
    simp
  have hsorted := Timeline.ordered_between (a := startTime) (b := endTime) hord
  rw [hforward] at hsorted
  obtain ⟨_, htail, hhead⟩ := List.pairwise_append.mp hsorted
  have hfront : ∀ r ∈ rest.reverse, r.fundingRateTimestamp ≤ oldest.fundingRateTimestamp - 1 := by
    intro r hr
    exact Int.le_sub_one_of_lt (hhead r hr oldest (by simp))
  have hback : ∀ r ∈ oldest :: newer.reverse,
      oldest.fundingRateTimestamp - 1 < r.fundingRateTimestamp := by
    intro r hr
    rcases List.mem_cons.mp hr with rfl | hr
    · exact Int.sub_one_lt_of_le le_rfl
    · have hlt := (List.pairwise_cons.mp htail).1 r hr
      omega
  have hbelow := Timeline.between_of_between hforward (by omega) hfront hback
  rw [hbelow, List.reverse_reverse, hsplit]

/-! ### The download -/

section Download

variable (history : FundingHistory) {funding : Endpoint (List FundingRate)}
  {category : Category} {symbol : String} (startTime endTime₀ limit : Int)

/-- At the loop head: what has been fetched, followed by what the first request
    could see up to `endTime`, is the answer newest first; and `fr` is the first
    page of that remainder. -/
structure FundingInv (s : FundingDownload) : Prop where
  whole : s.retVal ++ (Timeline.between FundingRate.fundingRateTimestamp startTime s.endTime
      (history.records 0)).reverse =
    (Timeline.between FundingRate.fundingRateTimestamp startTime endTime₀
      (history.records 0)).reverse
  page : s.fr = fundingPage (history.records 0) startTime s.endTime limit

variable {history startTime endTime₀ limit}

/-- A request below a record of the first history is answered from the first
    history; one that is not made has nothing to fetch. -/
theorem requestFunding_below
    (hserve : ServesFunding funding history.records category symbol)
    {oldest : FundingRate} (holdest : oldest ∈ history.records 0)
    (retVal : List FundingRate) (requests : Nat) :
    ∃ s, requestFunding funding category symbol startTime limit
        (oldest.fundingRateTimestamp - 1) retVal requests = .ok s ∧
      s.endTime = oldest.fundingRateTimestamp - 1 ∧ s.retVal = retVal ∧
      s.fr = fundingPage (history.records 0) startTime
        (oldest.fundingRateTimestamp - 1) limit := by
  by_cases hlt : startTime < oldest.fundingRateTimestamp - 1
  · have hsame := Timeline.between_of_prefix (a := startTime)
      (b := oldest.fundingRateTimestamp - 1) (history.prefix_first requests)
      (history.ordered requests) holdest (by omega)
    refine ⟨{ endTime := oldest.fundingRateTimestamp - 1
              fr := fundingPage (history.records requests) startTime
                (oldest.fundingRateTimestamp - 1) limit
              retVal := retVal
              requests := requests + 1 }, ?_, rfl, rfl, ?_⟩
    · simp only [requestFunding, if_pos hlt, hserve requests]
    · simp only [fundingPage, hsame]
  · -- a record left over would be a millisecond older than `oldest`
    have hnone : Timeline.between FundingRate.fundingRateTimestamp startTime
        (oldest.fundingRateTimestamp - 1) (history.records 0) = [] := by
      rw [Timeline.between, List.filter_eq_nil_iff]
      intro r hr
      simp only [decide_eq_true_eq, not_and]
      intro hstart hend
      have hgap := history.gap hr holdest (by omega)
      omega
    refine ⟨{ endTime := oldest.fundingRateTimestamp - 1, fr := [], retVal := retVal,
              requests := requests }, ?_, rfl, rfl, ?_⟩
    · simp only [requestFunding, if_neg hlt]
    · simp [fundingPage, hnone]

/-- The oldest record of a page that is not empty splits the remainder into the
    part still to fetch and the page. -/
theorem FundingInv.split {s : FundingDownload} {oldest : FundingRate}
    (hinv : FundingInv history startTime endTime₀ limit s)
    (holdest : s.fr.getLast? = some oldest) :
    oldest ∈ history.records 0 ∧ startTime ≤ oldest.fundingRateTimestamp ∧
      oldest.fundingRateTimestamp ≤ s.endTime ∧
      (Timeline.between FundingRate.fundingRateTimestamp startTime s.endTime
        (history.records 0)).reverse =
      s.fr ++ (Timeline.between FundingRate.fundingRateTimestamp startTime
        (oldest.fundingRateTimestamp - 1) (history.records 0)).reverse := by
  have hpage := hinv.page
  rw [hpage] at holdest ⊢
  exact fundingPage_split (history.ordered 0) holdest

theorem FundingInv.next {s next : FundingDownload} {oldest : FundingRate}
    (hinv : FundingInv history startTime endTime₀ limit s)
    (holdest : s.fr.getLast? = some oldest)
    (hend : next.endTime = oldest.fundingRateTimestamp - 1)
    (hretVal : next.retVal = s.retVal ++ s.fr)
    (hfr : next.fr = fundingPage (history.records 0) startTime
      (oldest.fundingRateTimestamp - 1) limit) :
    FundingInv history startTime endTime₀ limit next := by
  constructor
  · rw [hretVal, hend, ← hinv.whole, (hinv.split holdest).2.2.2, List.append_assoc]
  · rw [hfr, hend]

/-- Each page ends before the one before it, and not before `startTime`. -/
def fundingVariant (startTime : Int) (s : FundingDownload) : Nat :=
  (s.endTime + 1 - startTime).toNat

theorem fundingPass_progress
    (hserve : ServesFunding funding history.records category symbol) (hlimit : 1 ≤ limit)
    (s : FundingDownload) (hinv : FundingInv history startTime endTime₀ limit s) :
    (∃ next, fundingPass funding category symbol startTime limit s = .again next ∧
      FundingInv history startTime endTime₀ limit next ∧
      fundingVariant startTime next < fundingVariant startTime s) ∨
    (∃ r, fundingPass funding category symbol startTime limit s = .exit r ∧
      r = .ok (Timeline.between FundingRate.fundingRateTimestamp startTime endTime₀
        (history.records 0))) := by
  cases hback : s.fr.getLast? with
  | none =>
      -- an empty page: `limit` is positive, so nothing is left to fetch
      have hnil : s.fr = [] := List.getLast?_eq_none_iff.mp hback
      have hrest : (Timeline.between FundingRate.fundingRateTimestamp startTime s.endTime
          (history.records 0)).reverse = [] := by
        have hpage := hinv.page
        rw [hnil, fundingPage, eq_comm, List.take_eq_nil_iff] at hpage
        exact hpage.resolve_left (by omega)
      have hwhole := hinv.whole
      rw [hrest, List.append_nil] at hwhole
      refine Or.inr ⟨.ok s.retVal.reverse, ?_, ?_⟩
      · simp only [fundingPass, hback]
      · rw [hwhole, List.reverse_reverse]
  | some oldest =>
      obtain ⟨hrecord, hstart, hend, _⟩ := hinv.split hback
      obtain ⟨next, hreply, hnextEnd, hretVal, hfr⟩ :=
        requestFunding_below hserve hrecord
          (s.retVal ++ s.fr) s.requests
      refine Or.inl ⟨next, ?_, hinv.next hback hnextEnd hretVal hfr, ?_⟩
      · simp only [fundingPass, hback, hreply]
      · simp only [fundingVariant, hnextEnd]
        omega

end Download

/-- **Exact download of the funding history.**  The download terminates and
    returns, in increasing order, the records from `startTime` to `endTime`,
    bounds included, that the exchange held at the first request. -/
theorem getFundingRates_exact (history : FundingHistory)
    (funding : Endpoint (List FundingRate)) (category : Category) (symbol : String)
    (startTime endTime limit : Int)
    (hserve : ServesFunding funding history.records category symbol)
    (hrange : startTime < endTime) (hlimit : 1 ≤ limit) :
    ∃ retVal,
      (∃ enough, ∀ fuel, enough ≤ fuel →
        getFundingRates funding category symbol startTime limit fuel endTime =
          some (.ok retVal)) ∧
      retVal = (history.records 0).filter (fun r =>
        decide (startTime ≤ r.fundingRateTimestamp ∧ r.fundingRateTimestamp ≤ endTime)) ∧
      retVal.Pairwise (fun r r' => r.fundingRateTimestamp < r'.fundingRateTimestamp) := by
  have hfirst : requestFunding funding category symbol startTime limit endTime [] 0 =
      .ok { endTime := endTime
            fr := fundingPage (history.records 0) startTime endTime limit
            retVal := []
            requests := 1 } := by
    simp only [requestFunding, if_pos hrange, hserve 0]
  have hstart : FundingInv history startTime endTime limit
      { endTime := endTime, fr := fundingPage (history.records 0) startTime endTime limit,
        retVal := [], requests := 1 } :=
    { whole := List.nil_append _, page := rfl }
  obtain ⟨r, hreturns, hr⟩ :=
    Loop.total_correctness (fundingVariant startTime)
      (fundingPass_progress hserve hlimit) _ hstart
  subst hr
  refine ⟨_, ?_, rfl, Timeline.ordered_between (history.ordered 0)⟩
  obtain ⟨enough, hrun⟩ := hreturns.eventually
  refine ⟨enough, ?_⟩
  intro fuel hle
  rw [getFundingRates, hfirst]
  exact hrun fuel hle

/-- An exchange that reads the range and the limit off the query. -/
def fundingServer (records : Nat → List FundingRate) : Endpoint (List FundingRate) :=
  fun k parameters =>
    .ok (fundingPage (records k) (integerParameter parameters "startTime" 0)
      (integerParameter parameters "endTime" 0) (integerParameter parameters "limit" 200))

theorem fundingServer_serves (records : Nat → List FundingRate) (category : Category)
    (symbol : String) : ServesFunding (fundingServer records) records category symbol := by
  intro k startTime endTime limit
  have hstart : integerParameter (fundingParameters category symbol startTime endTime limit)
      "startTime" 0 = startTime := by
    rw [fundingParameters, integerParameter_insertLimit _ _ _ (by decide),
      integerParameter_insert_of_ne _ _ _ (by decide), integerParameter_insert_self]
  have hend : integerParameter (fundingParameters category symbol startTime endTime limit)
      "endTime" 0 = endTime := by
    rw [fundingParameters, integerParameter_insertLimit _ _ _ (by decide),
      integerParameter_insert_self]
  have hlimit : integerParameter (fundingParameters category symbol startTime endTime limit)
      "limit" 200 = limit :=
    integerParameter_limit _ limit (by simp)
  rw [fundingServer, hstart, hend, hlimit]

/-- Three records on the bounds and inside of a range, and one that comes in
    after the first request. -/
def growingFunding : FundingHistory where
  records k :=
    if k = 0 then [⟨"BTCUSDT", 1, 10⟩, ⟨"BTCUSDT", 2, 12⟩, ⟨"BTCUSDT", 3, 20⟩]
    else [⟨"BTCUSDT", 1, 10⟩, ⟨"BTCUSDT", 2, 12⟩, ⟨"BTCUSDT", 3, 20⟩, ⟨"BTCUSDT", 4, 30⟩]
  spaced k := by
    by_cases h : k = 0 <;> simp [h]
  grows k := by
    by_cases h : k = 0 <;> simp [h]

theorem getFundingRates_exact_growing :
    ∃ retVal,
      (∃ enough, ∀ fuel, enough ≤ fuel →
        getFundingRates (fundingServer growingFunding.records) .linear "BTCUSDT" 10 1 fuel 20 =
          some (.ok retVal)) ∧
      retVal = (growingFunding.records 0).filter (fun r =>
        decide (10 ≤ r.fundingRateTimestamp ∧ r.fundingRateTimestamp ≤ 20)) ∧
      retVal.Pairwise (fun r r' => r.fundingRateTimestamp < r'.fundingRateTimestamp) :=
  getFundingRates_exact growingFunding (fundingServer growingFunding.records) .linear "BTCUSDT"
    10 20 1 (fundingServer_serves _ _ _) (by decide) (by decide)

end BybitApi
