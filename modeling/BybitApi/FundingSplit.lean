import BybitApi.FundingRates

/-!
# Funding rates of adjacent ranges

`getFundingRates` asks for nothing when its range has shrunk to one instant, so the
record at `startTime` is lost when nothing else was asked for, or when a page ends
with a record one millisecond later (`LosesFirst`); nothing else ever is
(`getFundingRates_returned`).

Whoever downloads a range in two parts gets what one download would give exactly
when the lower part loses its first record as the whole does, and the upper part
does not (`split_iff`).
-/

namespace BybitApi

/-- A download from `startTime` to `endTime` loses the record at `startTime`: there is
    one, and the range has no other instant, or the next instant has a record, too,
    and the records after `startTime` fill whole pages. -/
def LosesFirst (records : List FundingRate) (limit startTime endTime : Int) : Prop :=
  (∃ r ∈ records, r.fundingRateTimestamp = startTime) ∧
    (startTime = endTime ∨
      (∃ r ∈ records, r.fundingRateTimestamp = startTime + 1) ∧
        limit.toNat ∣ (Timeline.between FundingRate.fundingRateTimestamp (startTime + 1) endTime
          records).length)

instance (records : List FundingRate) (limit startTime endTime : Int) :
    Decidable (LosesFirst records limit startTime endTime) :=
  inferInstanceAs (Decidable (_ ∧ (_ ∨ _ ∧ _)))

/-- The records that a download returns. -/
def returnedFunding (records : List FundingRate) (limit startTime endTime : Int) :
    List FundingRate :=
  if LosesFirst records limit startTime endTime then
    Timeline.between FundingRate.fundingRateTimestamp (startTime + 1) endTime records
  else Timeline.between FundingRate.fundingRateTimestamp startTime endTime records

/-- The record at the start of a range, and those after it. -/
theorem first_append_later {records : List FundingRate} {startTime endTime : Int}
    (hord : Timeline.Ordered FundingRate.fundingRateTimestamp records)
    (hrange : startTime ≤ endTime) :
    Timeline.between FundingRate.fundingRateTimestamp startTime startTime records ++
        Timeline.between FundingRate.fundingRateTimestamp (startTime + 1) endTime records =
      Timeline.between FundingRate.fundingRateTimestamp startTime endTime records :=
  Timeline.between_append_between hord (Int.le_add_one (le_refl startTime)) hrange

/-! ### One download -/

section Download

/-- A page behind which there is more is full. -/
theorem length_fundingPage {records : List FundingRate} {startTime endTime limit : Int}
    {rest : List FundingRate}
    (hsplit : (Timeline.between FundingRate.fundingRateTimestamp startTime endTime
      records).reverse = fundingPage records startTime endTime limit ++ rest) :
    (fundingPage records startTime endTime limit).length ≤ limit.toNat ∧
      (rest ≠ [] → (fundingPage records startTime endTime limit).length = limit.toNat) := by
  have hlength := congrArg List.length hsplit
  rw [List.length_append] at hlength
  have htake : (fundingPage records startTime endTime limit).length =
      min limit.toNat (Timeline.between FundingRate.fundingRateTimestamp startTime endTime
        records).reverse.length := List.length_take
  constructor
  · omega
  · intro hrest
    have hpos := List.length_pos_iff.mpr hrest
    omega

variable {records : List FundingRate} {funding : Endpoint (List FundingRate)}
  {category : Category} {symbol : String} {startTime endTime₀ limit : Int}

variable (records startTime endTime₀ limit) in
/-- At the loop head: what has been fetched and what is left make up the range, in
    pages that are full while something is left.  The range has shrunk to a record
    one millisecond below the one fetched last, or is as it was; and when nothing
    is left of it, the first record has been fetched. -/
structure RangeInv (s : FundingDownload) : Prop where
  whole : s.retVal ++ (Timeline.between FundingRate.fundingRateTimestamp startTime s.endTime
      records).reverse =
    (Timeline.between FundingRate.fundingRateTimestamp startTime endTime₀ records).reverse
  page : s.fr = if startTime < s.endTime then fundingPage records startTime s.endTime limit
    else []
  full : limit.toNat ∣ s.retVal.length ∨
    Timeline.between FundingRate.fundingRateTimestamp startTime s.endTime records = []
  reached : s.endTime = endTime₀ ∨ ∃ r ∈ records, r.fundingRateTimestamp = s.endTime + 1
  end_le : s.endTime ≤ endTime₀
  passed : s.endTime < startTime → ¬ LosesFirst records limit startTime endTime₀

variable (startTime limit) in
/-- A request that is made is answered with a page, and no other one is made. -/
theorem requestFunding_eq
    (hserve : ServesFunding funding (fun _ => records) category symbol) (endTime : Int)
    (retVal : List FundingRate) (requests : Nat) :
    ∃ s, requestFunding funding category symbol startTime limit endTime retVal requests = .ok s ∧
      s.endTime = endTime ∧ s.retVal = retVal ∧
      s.fr = if startTime < endTime then fundingPage records startTime endTime limit else [] := by
  by_cases hlt : startTime < endTime
  · refine ⟨{ endTime := endTime, fr := fundingPage records startTime endTime limit,
              retVal := retVal, requests := requests + 1 }, ?_, rfl, rfl, ?_⟩
    · simp only [requestFunding, if_pos hlt, hserve requests]
    · rw [if_pos hlt]
  · refine ⟨{ endTime := endTime, fr := [], retVal := retVal, requests := requests },
      ?_, rfl, rfl, ?_⟩
    · simp only [requestFunding, if_neg hlt]
    · rw [if_neg hlt]

/-- The download ends with what is to be returned. -/
theorem RangeInv.returned_of_nil (hord : Timeline.Ordered FundingRate.fundingRateTimestamp records)
    (hlimit : 1 ≤ limit) {s : FundingDownload}
    (hinv : RangeInv records startTime endTime₀ limit s) (hnil : s.fr = []) :
    s.retVal.reverse = returnedFunding records limit startTime endTime₀ := by
  have hcomplete : Timeline.between FundingRate.fundingRateTimestamp startTime s.endTime records =
      [] → s.retVal.reverse =
        Timeline.between FundingRate.fundingRateTimestamp startTime endTime₀ records := by
    intro hrest
    have hwhole := hinv.whole
    rw [hrest, List.reverse_nil, List.append_nil] at hwhole
    rw [hwhole, List.reverse_reverse]
  rw [returnedFunding]
  rcases lt_trichotomy startTime s.endTime with hlt | heq | hgt
  · -- the page asked for is empty, so nothing is left
    have hpage := hinv.page
    rw [if_pos hlt, hnil, fundingPage, eq_comm, List.take_eq_nil_iff] at hpage
    have hrest := List.reverse_eq_nil_iff.mp (hpage.resolve_left (by omega))
    rw [if_neg ?_, hcomplete hrest]
    rintro ⟨⟨r, hr, hfirst⟩, -⟩
    have hmem : r ∈ Timeline.between FundingRate.fundingRateTimestamp startTime s.endTime
        records := Timeline.mem_between.mpr ⟨hr, hfirst.ge, hfirst.trans_le hlt.le⟩
    rw [hrest] at hmem
    cases hmem
  · -- the range has shrunk to one instant, and its record is lost if there is one
    by_cases hfirst : ∃ r ∈ records, r.fundingRateTimestamp = startTime
    · have hnext : Timeline.between FundingRate.fundingRateTimestamp startTime startTime
          records ≠ [] := fun h => Timeline.between_self_eq_nil_iff.mp h hfirst
      have hsplit := first_append_later hord (heq ▸ hinv.end_le : startTime ≤ endTime₀)
      have hretVal : s.retVal =
          (Timeline.between FundingRate.fundingRateTimestamp (startTime + 1) endTime₀
            records).reverse := by
        have hwhole := hinv.whole
        rw [← heq, ← hsplit, List.reverse_append, List.append_left_inj] at hwhole
        exact hwhole
      have hloses : LosesFirst records limit startTime endTime₀ := by
        refine ⟨hfirst, ?_⟩
        rcases hinv.reached with hend | holdest
        · exact Or.inl (heq.trans hend)
        · rw [← heq] at holdest
          refine Or.inr ⟨holdest, ?_⟩
          rcases hinv.full with hfull | hrest
          · rwa [hretVal, List.length_reverse] at hfull
          · rw [← heq] at hrest
            exact absurd hrest hnext
      rw [if_pos hloses, hretVal, List.reverse_reverse]
    · rw [if_neg (fun h => hfirst h.1)]
      apply hcomplete
      rw [← heq]
      exact Timeline.between_self_eq_nil_iff.mpr hfirst
  · rw [if_neg (hinv.passed hgt)]
    exact hcomplete (Timeline.between_eq_nil_of_lt hgt)

/-- The page that ends with the record at `startTime` has the record after it, if there
    is one, so what came after `startTime` does not fill whole pages. -/
theorem RangeInv.not_losesFirst (hord : Timeline.Ordered FundingRate.fundingRateTimestamp records)
    {s : FundingDownload} (hinv : RangeInv records startTime endTime₀ limit s)
    (hlt : startTime < s.endTime) {oldest : FundingRate}
    (holdest : (fundingPage records startTime s.endTime limit).getLast? = some oldest)
    (hfirst : oldest.fundingRateTimestamp = startTime) :
    ¬ LosesFirst records limit startTime endTime₀ := by
  obtain ⟨hrecord, -, -, hsplit⟩ := fundingPage_split hord holdest
  have hbelow : Timeline.between FundingRate.fundingRateTimestamp startTime
      (oldest.fundingRateTimestamp - 1) records = [] :=
    Timeline.between_eq_nil_of_lt (by omega)
  have hlength := (length_fundingPage hsplit).1
  have hne : Timeline.between FundingRate.fundingRateTimestamp startTime s.endTime records ≠ [] :=
    List.ne_nil_of_mem (Timeline.mem_between.mpr ⟨hrecord, by omega, by omega⟩)
  rw [hbelow, List.reverse_nil, List.append_nil] at hsplit
  rintro ⟨-, heq | ⟨⟨next, hnext, hafter⟩, hdvd⟩⟩
  · have hle := hinv.end_le
    omega
  · have hfull : limit.toNat ∣ s.retVal.length := hinv.full.resolve_right hne
    -- what came after `startTime`: whole pages, and the page but for its last record
    have hcount : s.retVal.length + (fundingPage records startTime s.endTime limit).length =
        1 + (Timeline.between FundingRate.fundingRateTimestamp (startTime + 1) endTime₀
          records).length := by
      have hwhole := congrArg List.length hinv.whole
      have hparts := congrArg List.length (first_append_later hord (hlt.le.trans hinv.end_le))
      rw [hsplit, List.length_append, List.length_reverse] at hwhole
      rw [List.length_append, Timeline.length_between_self hord hrecord hfirst] at hparts
      omega
    have htwo : 2 ≤ (fundingPage records startTime s.endTime limit).length := by
      have hparts := congrArg List.length (first_append_later hord hlt.le)
      have hmem : next ∈ Timeline.between FundingRate.fundingRateTimestamp (startTime + 1)
          s.endTime records :=
        Timeline.mem_between.mpr ⟨hnext, hafter.ge, hafter.trans_le (Int.add_one_le_of_lt hlt)⟩
      have hpos := List.length_pos_of_mem hmem
      have hpage := congrArg List.length hsplit
      rw [List.length_reverse] at hpage
      rw [List.length_append, Timeline.length_between_self hord hrecord hfirst] at hparts
      omega
    obtain ⟨j, hj⟩ := hfull
    have hrest : limit.toNat ∣ (fundingPage records startTime s.endTime limit).length - 1 := by
      have hsum : (Timeline.between FundingRate.fundingRateTimestamp (startTime + 1) endTime₀
          records).length =
            s.retVal.length + ((fundingPage records startTime s.endTime limit).length - 1) := by
        omega
      rw [hsum, Nat.dvd_add_right ⟨j, hj⟩] at hdvd
      exact hdvd
    have hle := Nat.le_of_dvd (by omega) hrest
    omega

theorem RangeInv.next (hord : Timeline.Ordered FundingRate.fundingRateTimestamp records)
    {s next : FundingDownload} (hinv : RangeInv records startTime endTime₀ limit s)
    {oldest : FundingRate} (holdest : s.fr.getLast? = some oldest)
    (hend : next.endTime = oldest.fundingRateTimestamp - 1)
    (hretVal : next.retVal = s.retVal ++ s.fr)
    (hfr : next.fr = if startTime < oldest.fundingRateTimestamp - 1 then
        fundingPage records startTime (oldest.fundingRateTimestamp - 1) limit else []) :
    RangeInv records startTime endTime₀ limit next ∧
      startTime ≤ oldest.fundingRateTimestamp ∧ oldest.fundingRateTimestamp ≤ s.endTime := by
  have hpage := hinv.page
  have hlt : startTime < s.endTime := by
    by_contra hge
    rw [if_neg hge] at hpage
    rw [hpage] at holdest
    cases holdest
  rw [if_pos hlt] at hpage
  rw [hpage] at holdest hretVal
  obtain ⟨hrecord, hstart, hle, hsplit⟩ := fundingPage_split hord holdest
  have hne : Timeline.between FundingRate.fundingRateTimestamp startTime s.endTime records ≠ [] :=
    List.ne_nil_of_mem (Timeline.mem_between.mpr ⟨hrecord, hstart, hle⟩)
  refine ⟨?_, hstart, hle⟩
  refine
    { whole := ?_
      page := by rw [hfr, hend]
      full := ?_
      reached := Or.inr ⟨oldest, hrecord, by omega⟩
      end_le := by have := hinv.end_le; omega
      passed := ?_ }
  · rw [hretVal, hend, List.append_assoc, ← hsplit, hinv.whole]
  · by_cases hrest : Timeline.between FundingRate.fundingRateTimestamp startTime
        (oldest.fundingRateTimestamp - 1) records = []
    · exact Or.inr (hend ▸ hrest)
    · left
      rw [hretVal, List.length_append, (length_fundingPage hsplit).2 (by simpa using hrest)]
      exact Nat.dvd_add (hinv.full.resolve_right hne) (dvd_refl _)
  · intro hpassed
    exact hinv.not_losesFirst hord hlt holdest (by omega)

theorem fundingPass_range (hord : Timeline.Ordered FundingRate.fundingRateTimestamp records)
    (hserve : ServesFunding funding (fun _ => records) category symbol) (hlimit : 1 ≤ limit)
    (s : FundingDownload) (hinv : RangeInv records startTime endTime₀ limit s) :
    (∃ next, fundingPass funding category symbol startTime limit s = .again next ∧
      RangeInv records startTime endTime₀ limit next ∧
      fundingVariant startTime next < fundingVariant startTime s) ∨
    (∃ r, fundingPass funding category symbol startTime limit s = .exit r ∧
      r = .ok (returnedFunding records limit startTime endTime₀)) := by
  cases hback : s.fr.getLast? with
  | none =>
      have hnil : s.fr = [] := List.getLast?_eq_none_iff.mp hback
      refine Or.inr ⟨.ok s.retVal.reverse, ?_, ?_⟩
      · simp only [fundingPass, hback]
      · rw [hinv.returned_of_nil hord hlimit hnil]
  | some oldest =>
      obtain ⟨next, hreply, hend, hretVal, hfr⟩ :=
        requestFunding_eq startTime limit hserve
          (oldest.fundingRateTimestamp - 1) (s.retVal ++ s.fr) s.requests
      obtain ⟨hnext, hstart, hle⟩ := hinv.next hord hback hend hretVal hfr
      refine Or.inl ⟨next, ?_, hnext, ?_⟩
      · simp only [fundingPass, hback, hreply]
      · simp only [fundingVariant, hend]
        omega

/-- **What a download returns.**  All records of its range, but for the first if it is
    lost. -/
theorem getFundingRates_returned
    (hord : Timeline.Ordered FundingRate.fundingRateTimestamp records)
    (hserve : ServesFunding funding (fun _ => records) category symbol) (hlimit : 1 ≤ limit)
    {endTime : Int} (hrange : startTime ≤ endTime) :
    ∃ enough, ∀ fuel, enough ≤ fuel →
      getFundingRates funding category symbol startTime limit fuel endTime =
        some (.ok (returnedFunding records limit startTime endTime)) := by
  obtain ⟨s, hfirst, hend, hretVal, hfr⟩ :=
    requestFunding_eq startTime limit hserve endTime [] 0
  have hinv : RangeInv records startTime endTime limit s :=
    { whole := by rw [hretVal, hend, List.nil_append]
      page := by rw [hfr, hend]
      full := Or.inl (by rw [hretVal]; exact dvd_zero _)
      reached := Or.inl hend
      end_le := le_of_eq hend
      passed := fun h => by omega }
  obtain ⟨r, hreturns, hr⟩ :=
    Loop.total_correctness (fundingVariant startTime)
      (fundingPass_range hord hserve hlimit) s hinv
  subst hr
  obtain ⟨enough, hrun⟩ := hreturns.eventually
  refine ⟨enough, ?_⟩
  intro fuel hle
  rw [getFundingRates, hfirst]
  exact hrun fuel hle

end Download

/-! ### Two adjacent ranges -/

section Adjacent

variable {records : List FundingRate} {limit startTime middle endTime : Int}

/-- The first record of what a download returns, if it is not lost, and the rest. -/
theorem returnedFunding_eq (hord : Timeline.Ordered FundingRate.fundingRateTimestamp records)
    (hrange : startTime ≤ endTime) :
    returnedFunding records limit startTime endTime =
      (if LosesFirst records limit startTime endTime then []
        else Timeline.between FundingRate.fundingRateTimestamp startTime startTime records) ++
      Timeline.between FundingRate.fundingRateTimestamp (startTime + 1) endTime records := by
  unfold returnedFunding
  split
  · rfl
  · exact (first_append_later hord hrange).symm

theorem le_of_mem_returnedFunding {r : FundingRate}
    (hr : r ∈ returnedFunding records limit startTime endTime) :
    startTime ≤ r.fundingRateTimestamp := by
  unfold returnedFunding at hr
  split at hr
  · exact (Timeline.lt_of_mem_between_succ hr).le
  · exact (Timeline.mem_between.mp hr).2.1

/-- A first record that both sides have or both sides lack, in front of later ones. -/
theorem first_eq_iff {P Q : Prop} [Decidable P] [Decidable Q] {left right : List FundingRate}
    (hP : P → ∃ r ∈ records, r.fundingRateTimestamp = startTime)
    (hQ : Q → ∃ r ∈ records, r.fundingRateTimestamp = startTime)
    (hleft : ∀ r ∈ left, startTime < r.fundingRateTimestamp)
    (hright : ∀ r ∈ right, startTime < r.fundingRateTimestamp) :
    (if P then [] else Timeline.between FundingRate.fundingRateTimestamp startTime startTime
        records) ++ left =
      (if Q then [] else Timeline.between FundingRate.fundingRateTimestamp startTime startTime
        records) ++ right ↔ (P ↔ Q) ∧ left = right := by
  have hfirst : ∀ {r}, r ∈ records → r.fundingRateTimestamp = startTime →
      r ∈ Timeline.between FundingRate.fundingRateTimestamp startTime startTime records :=
    fun hr heq => Timeline.mem_between_self.mpr ⟨hr, heq⟩
  by_cases hp : P <;> by_cases hq : Q
  · simp [hp, hq]
  · simp only [hp, hq, if_true, if_false, List.nil_append, iff_false, not_true_eq_false,
      false_and]
    intro heq
    obtain ⟨r, hr, htime⟩ := hP hp
    have hlt := hleft r (by rw [heq]; exact List.mem_append_left _ (hfirst hr htime))
    exact absurd htime (ne_of_gt hlt)
  · simp only [hp, hq, if_true, if_false, List.nil_append, false_iff, not_true_eq_false,
      false_and, iff_false]
    intro heq
    obtain ⟨r, hr, htime⟩ := hQ hq
    have hlt := hright r (by rw [← heq]; exact List.mem_append_left _ (hfirst hr htime))
    exact absurd htime (ne_of_gt hlt)
  · simp [hp, hq]

theorem split_iff (hord : Timeline.Ordered FundingRate.fundingRateTimestamp records)
    (hstart : startTime ≤ middle) (hend : middle < endTime) :
    returnedFunding records limit startTime endTime =
        returnedFunding records limit startTime middle ++
          returnedFunding records limit (middle + 1) endTime ↔
      (LosesFirst records limit startTime endTime ↔
        LosesFirst records limit startTime middle) ∧
      ¬ LosesFirst records limit (middle + 1) endTime := by
  have hupper : middle + 1 ≤ endTime := Int.add_one_le_of_lt hend
  have hlater : Timeline.between FundingRate.fundingRateTimestamp (startTime + 1) endTime
      records = Timeline.between FundingRate.fundingRateTimestamp (startTime + 1) middle records ++
        ((if False then [] else Timeline.between FundingRate.fundingRateTimestamp (middle + 1)
          (middle + 1) records) ++
        Timeline.between FundingRate.fundingRateTimestamp (middle + 1 + 1) endTime records) := by
    rw [if_neg not_false, first_append_later hord hupper,
      Timeline.between_append_between hord (Int.add_le_add_right hstart 1) hend.le]
  rw [returnedFunding_eq hord (hstart.trans hend.le), returnedFunding_eq hord hstart,
    List.append_assoc, first_eq_iff (fun h => h.1) (fun h => h.1), hlater, List.append_right_inj,
    returnedFunding_eq hord hupper, first_eq_iff (fun h => h.elim) (fun h => h.1)]
  · simp
  · exact fun r => Timeline.lt_of_mem_between_succ
  · exact fun r => Timeline.lt_of_mem_between_succ
  · exact fun r => Timeline.lt_of_mem_between_succ
  · intro r hr
    rcases List.mem_append.mp hr with hlow | hhigh
    · exact Timeline.lt_of_mem_between_succ hlow
    · exact hstart.trans_lt (Int.lt_of_add_one_le (le_of_mem_returnedFunding hhigh))

end Adjacent

/-- **Exactly when a download splits.**  Over a history at rest, the records of a range
    are those of its lower part followed by those of its upper part, if and only if
    the download of the whole and that of the lower part both lose their first record
    or both keep it, and that of the upper part keeps it. -/
theorem getFundingRates_split_iff (records : List FundingRate)
    (funding : Endpoint (List FundingRate)) (category : Category) (symbol : String)
    (limit startTime middle endTime : Int)
    (hord : records.Pairwise fun r r' => r.fundingRateTimestamp < r'.fundingRateTimestamp)
    (hserve : ServesFunding funding (fun _ => records) category symbol) (hlimit : 1 ≤ limit)
    (hstart : startTime ≤ middle) (hend : middle < endTime) :
    ∃ whole lower upper, (∃ enough, ∀ fuel, enough ≤ fuel →
        getFundingRates funding category symbol startTime limit fuel endTime =
          some (.ok whole) ∧
        getFundingRates funding category symbol startTime limit fuel middle =
          some (.ok lower) ∧
        getFundingRates funding category symbol (middle + 1) limit fuel endTime =
          some (.ok upper)) ∧
      (whole = lower ++ upper ↔
        (LosesFirst records limit startTime endTime ↔
          LosesFirst records limit startTime middle) ∧
        ¬ LosesFirst records limit (middle + 1) endTime) := by
  obtain ⟨enough, hwhole⟩ := getFundingRates_returned hord hserve hlimit
    (show startTime ≤ endTime by omega)
  obtain ⟨enough₁, hlower⟩ := getFundingRates_returned hord hserve hlimit hstart
  obtain ⟨enough₂, hupper⟩ := getFundingRates_returned hord hserve hlimit
    (show middle + 1 ≤ endTime by omega)
  refine ⟨_, _, _, ⟨max enough (max enough₁ enough₂), ?_⟩, split_iff hord hstart hend⟩
  intro fuel hle
  exact ⟨hwhole fuel (by omega), hlower fuel (by omega), hupper fuel (by omega)⟩

/-- Two records, ten milliseconds apart. -/
def twoFunding : List FundingRate := [⟨"BTCUSDT", 1, 10⟩, ⟨"BTCUSDT", 2, 20⟩]

theorem twoFunding_ordered : twoFunding.Pairwise fun r r' =>
    r.fundingRateTimestamp < r'.fundingRateTimestamp := by
  decide

theorem getFundingRates_split_iff_twoFunding :
    ∃ whole lower upper, (∃ enough, ∀ fuel, enough ≤ fuel →
        getFundingRates (fundingServer fun _ => twoFunding) .linear "BTCUSDT" 10 1 fuel 20 =
          some (.ok whole) ∧
        getFundingRates (fundingServer fun _ => twoFunding) .linear "BTCUSDT" 10 1 fuel 15 =
          some (.ok lower) ∧
        getFundingRates (fundingServer fun _ => twoFunding) .linear "BTCUSDT" (15 + 1) 1 fuel 20 =
          some (.ok upper)) ∧
      (whole = lower ++ upper ↔
        (LosesFirst twoFunding 1 10 20 ↔ LosesFirst twoFunding 1 10 15) ∧
        ¬ LosesFirst twoFunding 1 (15 + 1) 20) :=
  getFundingRates_split_iff twoFunding (fundingServer fun _ => twoFunding) .linear "BTCUSDT"
    1 10 15 20 twoFunding_ordered (fundingServer_serves _ _ _) (by decide) (by decide) (by decide)

/-- **A range of one instant is never asked for.**  The record at its instant is in the
    download of the whole range, and in neither of its parts. -/
theorem funding_lost_at_split :
    ¬ ∀ (records : List FundingRate) (funding : Endpoint (List FundingRate))
        (category : Category) (symbol : String) (limit startTime middle endTime : Int),
      (records.Pairwise fun r r' => r.fundingRateTimestamp < r'.fundingRateTimestamp) →
      ServesFunding funding (fun _ => records) category symbol → 1 ≤ limit →
      startTime ≤ middle → middle < endTime → ∀ whole lower upper fuel,
        getFundingRates funding category symbol startTime limit fuel endTime =
          some (.ok whole) →
        getFundingRates funding category symbol startTime limit fuel middle =
          some (.ok lower) →
        getFundingRates funding category symbol (middle + 1) limit fuel endTime =
          some (.ok upper) → whole = lower ++ upper := by
  intro h
  have hserve := fundingServer_serves (fun _ => twoFunding) .linear "BTCUSDT"
  have hsplit := h twoFunding _ .linear "BTCUSDT" 200 10 10 20 twoFunding_ordered hserve
    (by decide) (by decide) (by decide)
  obtain ⟨enough, hwhole⟩ := getFundingRates_returned twoFunding_ordered hserve
    (show (1 : Int) ≤ 200 by decide) (show (10 : Int) ≤ 20 by decide)
  obtain ⟨enough₁, hlower⟩ := getFundingRates_returned twoFunding_ordered hserve
    (show (1 : Int) ≤ 200 by decide) (show (10 : Int) ≤ 10 by decide)
  obtain ⟨enough₂, hupper⟩ := getFundingRates_returned twoFunding_ordered hserve
    (show (1 : Int) ≤ 200 by decide) (show (10 : Int) + 1 ≤ 20 by decide)
  have heq := hsplit _ _ _ (max enough (max enough₁ enough₂)) (hwhole _ (by omega))
    (hlower _ (by omega)) (hupper _ (by omega))
  exact absurd heq (by decide)

end BybitApi
