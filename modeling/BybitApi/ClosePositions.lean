import BybitApi.OrderQuantisation
import BybitApi.Positions

/-!
# Closing all positions

Of a position, an order of `closeAllPositions` takes the symbol, the opposite of the
side and the size.  Its category and its position index stay those of a new order,
linear and zero, and its size is read as a `double` and written with the decimals of a
step.  So the positions are closed exactly when all that are open are linear ones of
one-way mode whose sizes survive the two roundings (`closes_all_iff`).
-/

namespace BybitApi

/-! ### Positions of an exchange -/

/-- A position as the exchange reports it. -/
structure ReportedPosition where
  symbol : String
  positionIdx : Int
  side : Side
  size : Rat
deriving DecidableEq, Repr

/-- The JSON of a reported position; an open one has been bought or sold. -/
structure Reports (json : Json) (position : ReportedPosition) : Prop where
  symbol : json.find? "symbol" = some (.string position.symbol)
  positionIdx : json.find? "positionIdx" = some (.integer position.positionIdx)
  index : IsInt32 position.positionIdx
  side : json.find? "side" = some (.string position.side.enumName)
  size : ∃ text, json.find? "size" = some (.string text) ∧
    Decimal.value? text = some position.size
  bought_or_sold : position.size ≠ 0 → position.side ≠ .None

/-- What is held of a symbol in a category, under a position index; negative if it was
    sold. -/
abbrev Holdings := Category × String × Int → Rat

def signed : Side → Rat → Rat
  | .Buy, qty => qty
  | .Sell, qty => -qty
  | .None, _ => 0

/-- An order is applied to the position of its category, symbol and index. -/
def applyOrder (holdings : Holdings) (request : OrderRequest) : Holdings := fun key =>
  if key = (request.category, request.symbol, request.positionIdx) then
    holdings key + signed request.side request.qty
  else holdings key

/-- The holdings of a category are those reported. -/
def Holds (holdings : Holdings) (category : Category) (positions : List ReportedPosition) :
    Prop :=
  ∀ symbol positionIdx, holdings (category, symbol, positionIdx) =
    (positions.map fun position =>
      if position.symbol = symbol ∧ position.positionIdx = positionIdx then
        signed position.side position.size
      else 0).sum

def Side.opposite : Side → Side
  | .Buy => .Sell
  | .Sell => .Buy
  | .None => .None

/-- The order that closes a position. -/
def closingRequest (category : Category) (position : ReportedPosition) : OrderRequest where
  category := category
  symbol := position.symbol
  side := position.side.opposite
  orderType := .Market
  qty := position.size
  price := none
  positionIdx := position.positionIdx
  orderLinkId := ""

theorem signed_opposite (side : Side) (qty : Rat) :
    signed side.opposite qty = -signed side qty := by
  cases side with
  | Buy => rfl
  | Sell => exact (neg_neg qty).symm
  | None => exact neg_zero.symm

theorem foldl_applyOrder (requests : List OrderRequest) (holdings : Holdings)
    (key : Category × String × Int) :
    requests.foldl applyOrder holdings key = holdings key +
      (requests.map fun request =>
        if key = (request.category, request.symbol, request.positionIdx) then
          signed request.side request.qty
        else 0).sum := by
  induction requests generalizing holdings with
  | nil => simp
  | cons request requests ih =>
      rw [List.foldl_cons, ih, List.map_cons, List.sum_cons, applyOrder]
      split
      · rw [add_assoc]
      · rw [zero_add]

/-- Applied to the positions reported, the closing orders leave nothing. -/
theorem sum_closingRequest (category : Category) (symbol : String) (positionIdx : Int)
    (positions : List ReportedPosition) :
    (((positions.filter fun position => position.size ≠ 0).map (closingRequest category)).map
        fun request =>
          if (category, symbol, positionIdx) =
            (request.category, request.symbol, request.positionIdx) then
              signed request.side request.qty
          else 0).sum =
      -(positions.map fun position =>
        if position.symbol = symbol ∧ position.positionIdx = positionIdx then
          signed position.side position.size
        else 0).sum := by
  induction positions with
  | nil => simp
  | cons position positions ih =>
      have hkey : (category, symbol, positionIdx) =
          ((closingRequest category position).category, (closingRequest category position).symbol,
            (closingRequest category position).positionIdx) ↔
          position.symbol = symbol ∧ position.positionIdx = positionIdx := by
        simp [closingRequest, eq_comm]
      have hsigned : signed (closingRequest category position).side
          (closingRequest category position).qty = -signed position.side position.size :=
        signed_opposite _ _
      rw [List.map_cons, List.sum_cons, neg_add, ← ih]
      by_cases hopen : position.size ≠ 0
      · rw [List.filter_cons_of_pos (by simpa using hopen), List.map_cons, List.map_cons,
          List.sum_cons]
        simp only [hkey, hsigned]
        split
        · rfl
        · rw [neg_zero]
      · rw [List.filter_cons_of_neg (by simpa using hopen), not_not.mp hopen]
        have hzero : signed position.side 0 = 0 := by
          cases position.side <;> simp [signed]
        rw [hzero, ite_self, neg_zero, zero_add]

/-- The closing orders flatten the category and leave the others alone. -/
theorem flattens {holdings : Holdings} {category : Category} {positions : List ReportedPosition}
    (h : Holds holdings category positions) (key : Category × String × Int) :
    ((positions.filter fun position => position.size ≠ 0).map (closingRequest category)).foldl
        applyOrder holdings key = if key.1 = category then 0 else holdings key := by
  rw [foldl_applyOrder]
  rcases key with ⟨other, symbol, positionIdx⟩
  by_cases hcategory : other = category
  · rw [if_pos hcategory, hcategory, sum_closingRequest, h]
    exact add_neg_cancel _
  · have hother : ∀ position, other ≠ (closingRequest category position).category := by
      intro position
      exact hcategory
    rw [if_neg hcategory, List.map_map]
    simp [Function.comp_def, hother]

/-! ### The positions read -/

/-- The position that is read where one is reported; `round` is the rounding of
    `std::stod`. -/
def ReportedPosition.parsed (round : Rat → Double) (position : ReportedPosition) : Position where
  positionIdx := position.positionIdx
  symbol := position.symbol
  side := position.side
  size := round position.size
  zeroSize := position.size = 0

/-- A size is read as the `double` that its decimal is rounded to. -/
def roundedSize (round : Rat → Double) (json : Json) : Option Double :=
  (sizeNumber json).map round

section Reading

variable {common : VkCommon} {readers : PositionReaders} {round : Rat → Double}

theorem fromJson_of_reports (hstrings : common.ReadsStrings)
    (hnumbers : common.ReadsNumbers (roundedSize round)) (hreads : readers.Reads) {json : Json}
    {position : ReportedPosition} (h : Reports json position) :
    Position.fromJson common readers json = .ok (position.parsed round) := by
  obtain ⟨text, htext, hvalue⟩ := h.size
  have hne : text ≠ "" := by
    rintro rfl
    rw [show Decimal.value? "" = none by decide +kernel] at hvalue
    cases hvalue
  obtain ⟨assigned, hassigned, hzero⟩ := hreads.decimal hvalue
  have hdecimal : readDecimalValue readers json "size" 0 = .ok assigned := by
    simp only [readDecimalValue, htext, hne, ne_eq, not_false_eq_true, if_true, hassigned]
  have hread : roundedSize round (.string text) = some (round position.size) := by
    rw [roundedSize, sizeNumber, hvalue, Option.map_some]
  have hsize : common.readStringAsDouble json "size" 0 = .ok (round position.size) :=
    hnumbers.present 0 htext hread
  simp only [Position.fromJson, hreads.int _ h.positionIdx h.index, hstrings.present _ h.symbol,
    hreads.side _ h.side, hdecimal, hsize, bind, Except.bind]
  by_cases hsizeZero : position.size = 0
  · simp [ReportedPosition.parsed, hzero, hsizeZero, pure, Except.pure]
  · simp [ReportedPosition.parsed, hzero, hsizeZero, pure, Except.pure]

theorem mapM_fromJson (hstrings : common.ReadsStrings)
    (hnumbers : common.ReadsNumbers (roundedSize round)) (hreads : readers.Reads)
    {reported : List Json} {positions : List ReportedPosition}
    (h : List.Forall₂ Reports reported positions) :
    reported.mapM (Position.fromJson common readers) =
      .ok (positions.map (ReportedPosition.parsed round)) := by
  induction h with
  | nil => rfl
  | cons hreports _ ih =>
      rw [List.mapM_cons, fromJson_of_reports hstrings hnumbers hreads hreports, ih]
      rfl

theorem getPositionInfo_of_reports (hstrings : common.ReadsStrings)
    (hnumbers : common.ReadsNumbers (roundedSize round)) (hreads : readers.Reads)
    {list : Parameters → Except ApiError (List Json)} {category : Category} {symbol : String}
    {reported : List Json} {positions : List ReportedPosition}
    (hlist : list (positionParameters category symbol) = .ok reported)
    (hreported : List.Forall₂ Reports reported positions) :
    getPositionInfo common readers list category symbol =
      .ok (positions.map (ReportedPosition.parsed round)) := by
  simp only [getPositionInfo, hlist, bind, Except.bind,
    mapM_fromJson hstrings hnumbers hreads hreported]
  rfl

/-- The flag tells the open positions. -/
theorem filter_parsed (positions : List ReportedPosition) :
    (positions.map (ReportedPosition.parsed round)).filter (fun pos => !pos.zeroSize) =
      (positions.filter fun position => position.size ≠ 0).map (ReportedPosition.parsed round) := by
  rw [List.filter_map]
  refine congrArg _ (List.filter_congr ?_)
  intro position _
  simp [ReportedPosition.parsed]

theorem bought_or_sold_of_reports {reported : List Json} {positions : List ReportedPosition}
    (h : List.Forall₂ Reports reported positions) :
    ∀ position ∈ positions, position.size ≠ 0 → position.side ≠ .None := by
  induction h with
  | nil => exact fun _ h => absurd h List.not_mem_nil
  | cons hreports _ ih =>
      rw [List.forall_mem_cons]
      exact ⟨hreports.bought_or_sold, ih⟩

end Reading

/-! ### The orders posted -/

section Posting

variable {common : VkCommon} {format : OrderFormat} {endpoint : Endpoint Instruments}
  {create : Nat → Json → Except ApiError OrderId}

/-- The instrument table that a client has, or else downloads. -/
def instrumentTable (endpoint : Endpoint Instruments) (fuel : Nat) (client : RestClient)
    (category : Category) : List Instrument :=
  match getInstrumentsInfo endpoint fuel client category "" false with
  | some (.ok symbols, _) => symbols
  | _ => []

/-- After a table was got it is got again. -/
theorem getInstrumentsInfo_again {fuel : Nat} {client client' : RestClient} {category : Category}
    {symbols : List Instrument}
    (h : getInstrumentsInfo endpoint fuel client category "" false = some (.ok symbols, client')) :
    getInstrumentsInfo endpoint fuel client' category "" false = some (.ok symbols, client') := by
  unfold getInstrumentsInfo at h ⊢
  rw [Bool.or_false] at h ⊢
  split at h
  · cases hdownload : downloadInstruments endpoint category "" fuel with
    | none => simp [hdownload] at h
    | some result =>
        cases result with
        | error e => simp [hdownload] at h
        | ok d =>
            simp only [hdownload, Option.some.injEq, Prod.mk.injEq, Except.ok.injEq] at h
            obtain ⟨rfl, rfl⟩ := h
            split <;> rfl
  · next hkept =>
      simp only [Option.some.injEq, Prod.mk.injEq, Except.ok.injEq] at h
      obtain ⟨rfl, rfl⟩ := h
      rw [if_neg hkept]

/-- An order goes out unless the look-up throws. -/
theorem placeOrder_cases {fuel : Nat} {s s' : OrderClient} {order : Order}
    {result : Except ApiError OrderId}
    (h : placeOrder common format endpoint create fuel s order = some (result, s')) :
    ((∃ e, result = .error e) ∧ s'.posted = s.posted) ∨
      ∃ symbols json, getInstrumentsInfo endpoint fuel s.client order.category "" false =
          some (.ok symbols, s'.client) ∧
        s'.posted = s.posted ++
          [(order.withSteps (findPriceSteps symbols order.symbol (1 / 100) (1 / 100)),
            (order.withSteps (findPriceSteps symbols order.symbol (1 / 100) (1 / 100))).toJson
              common format)] ∧
        result = create s.posted.length json := by
  unfold placeOrder placeOrderSteps at h
  cases hinfo : getInstrumentsInfo endpoint fuel s.client order.category "" false with
  | none =>
      rw [hinfo] at h
      cases h
  | some answer =>
      rcases answer with ⟨e | symbols, client⟩
      · rw [hinfo] at h
        cases h
        exact .inl ⟨⟨_, rfl⟩, rfl⟩
      · rw [hinfo] at h
        cases h
        exact .inr ⟨symbols, _, rfl, rfl, rfl⟩

/-- The order placed for a position, with its steps. -/
def placedOrder (symbols : List Instrument) (pos : Position) : Order :=
  (closingOrder pos).withSteps (findPriceSteps symbols pos.symbol (1 / 100) (1 / 100))

/-- The order that is posted for a position, with its JSON. -/
def postedOrder (common : VkCommon) (format : OrderFormat) (symbols : List Instrument)
    (pos : Position) : Order × Json :=
  (placedOrder symbols pos, (placedOrder symbols pos).toJson common format)

/-- When the steps are found, the order for a position goes out. -/
theorem placeOrder_of_lookup {fuel : Nat} {s : OrderClient} {symbols : List Instrument}
    {client : RestClient} (hsymbols : getInstrumentsInfo endpoint fuel s.client .linear "" false =
      some (.ok symbols, client)) (pos : Position) :
    placeOrder common format endpoint create fuel s (closingOrder pos) =
      some (create s.posted.length (postedOrder common format symbols pos).2,
        { client := client, posted := s.posted ++ [postedOrder common format symbols pos] }) := by
  have hsteps : placeOrderSteps endpoint fuel s.client (closingOrder pos).category
      (closingOrder pos).symbol =
        some (.ok (findPriceSteps symbols pos.symbol (1 / 100) (1 / 100)), client) := by
    rw [placeOrderSteps, show getInstrumentsInfo endpoint fuel s.client
      (closingOrder pos).category "" false = _ from hsymbols]
    rfl
  rw [placeOrder, hsteps]
  rfl

/-- **Closing up to an error.**  The orders posted are those for a first part of the
    positions that are not zero; if the call returns they are all of them, and each has
    been answered. -/
theorem closePositions_prefix {fuel : Nat} {s s' : OrderClient} {positionList : List Position}
    {result : Except ApiError Unit}
    (h : closePositions common format endpoint create fuel s positionList = some (result, s')) :
    ∃ sent, sent <+: positionList.filter (fun pos => !pos.zeroSize) ∧
      s'.posted = s.posted ++
        sent.map (postedOrder common format (instrumentTable endpoint fuel s.client .linear)) ∧
      (result = .ok () → sent = positionList.filter (fun pos => !pos.zeroSize) ∧
        ∀ k, s.posted.length ≤ k → k < s'.posted.length → ∃ json id, create k json = .ok id) := by
  induction positionList generalizing s with
  | nil =>
      cases h
      refine ⟨[], List.prefix_rfl, (List.append_nil _).symm, ?_⟩
      intro _
      refine ⟨rfl, ?_⟩
      intro k hle hlt
      omega
  | cons pos positionList ih =>
      rw [closePositions] at h
      by_cases hopen : (!pos.zeroSize) = true
      · rw [if_pos hopen] at h
        rw [List.filter_cons_of_pos (p := fun pos : Position => !pos.zeroSize) hopen]
        cases hplaced : placeOrder common format endpoint create fuel s (closingOrder pos) with
        | none =>
            rw [hplaced] at h
            cases h
        | some placed =>
            rcases placed with ⟨answer, s₁⟩
            rcases placeOrder_cases hplaced with ⟨⟨e, rfl⟩, hposted⟩ | ⟨symbols, json, hsymbols,
              hposted, hanswer⟩
            · -- the steps are not found, and nothing goes out
              rw [hplaced] at h
              cases h
              exact ⟨[], List.nil_prefix, by rw [hposted, List.map_nil, List.append_nil],
                fun hok => by cases hok⟩
            · have hlinear : getInstrumentsInfo endpoint fuel s.client .linear "" false =
                  some (.ok symbols, s₁.client) := hsymbols
              have htable : instrumentTable endpoint fuel s.client .linear = symbols := by
                rw [instrumentTable, hlinear]
              rw [hplaced] at h
              cases answer with
              | error e =>
                  cases h
                  refine ⟨[pos], ?_, ?_, fun hok => by cases hok⟩
                  · exact List.cons_prefix_cons.mpr ⟨rfl, List.nil_prefix⟩
                  · rw [hposted, htable]
                    rfl
              | ok id =>
                  have htable' : instrumentTable endpoint fuel s₁.client .linear = symbols := by
                    rw [instrumentTable, getInstrumentsInfo_again hlinear]
                  obtain ⟨sent, hwritten, hsent, hdone⟩ := ih h
                  refine ⟨pos :: sent, List.cons_prefix_cons.mpr ⟨rfl, hwritten⟩, ?_, ?_⟩
                  · rw [hsent, hposted, htable, htable', List.append_assoc]
                    rfl
                  · intro hok
                    obtain ⟨hall, hanswers⟩ := hdone hok
                    refine ⟨by rw [hall], ?_⟩
                    intro k hle hlt
                    rcases Nat.eq_or_lt_of_le hle with rfl | hless
                    · exact ⟨json, id, hanswer.symm⟩
                    · apply hanswers k _ hlt
                      rw [hposted, List.length_append, List.length_singleton]
                      exact hless
      · rw [if_neg hopen] at h
        rw [List.filter_cons_of_neg (p := fun pos : Position => !pos.zeroSize) hopen]
        exact ih h

/-- If all placements succeed, an order is posted for each position that is not zero. -/
theorem closePositions_posted {fuel : Nat} {s s' : OrderClient} {positionList : List Position}
    (h : closePositions common format endpoint create fuel s positionList = some (.ok (), s')) :
    s'.posted = s.posted ++ (positionList.filter fun pos => !pos.zeroSize).map
      (postedOrder common format (instrumentTable endpoint fuel s.client .linear)) := by
  obtain ⟨sent, -, hposted, hdone⟩ := closePositions_prefix h
  rw [hposted, (hdone rfl).1]

/-- None of the orders but the last one is refused, posted from number `n` on. -/
def OnlyLastRefused (create : Nat → Json → Except ApiError OrderId) : Nat → List Json → Prop
  | n, order :: next :: orders =>
      (∃ id, create n order = .ok id) ∧ OnlyLastRefused create (n + 1) (next :: orders)
  | _, _ => True

/-- The steps are found, if there is a position at all, and the exchange does not refuse the
    order for a position that others come behind. -/
def AllAttempted (common : VkCommon) (format : OrderFormat) (endpoint : Endpoint Instruments)
    (create : Nat → Json → Except ApiError OrderId) (fuel : Nat) (client : RestClient) (n : Nat)
    (positions : List Position) : Prop :=
  positions = [] ∨
    ∃ symbols after, getInstrumentsInfo endpoint fuel client .linear "" false =
        some (.ok symbols, after) ∧
      OnlyLastRefused create n
        (positions.map fun pos => (postedOrder common format symbols pos).2)

/-- The loop goes on as long as the orders are not refused. -/
theorem closePositions_attempts_of_lookup {fuel : Nat} {s : OrderClient}
    {symbols : List Instrument} {client : RestClient}
    (hsymbols : getInstrumentsInfo endpoint fuel s.client .linear "" false =
      some (.ok symbols, client)) (positionList : List Position) :
    (∃ result s', closePositions common format endpoint create fuel s positionList =
        some (result, s') ∧
      s'.posted = s.posted ++ (positionList.filter fun pos => !pos.zeroSize).map
        (postedOrder common format symbols)) ↔
      OnlyLastRefused create s.posted.length
        ((positionList.filter fun pos => !pos.zeroSize).map fun pos =>
          (postedOrder common format symbols pos).2) := by
  induction positionList generalizing s client with
  | nil => exact iff_of_true ⟨.ok (), s, rfl, (List.append_nil _).symm⟩ trivial
  | cons pos positionList ih =>
      rw [closePositions]
      by_cases hopen : (!pos.zeroSize) = true
      · rw [if_pos hopen, placeOrder_of_lookup hsymbols pos,
          List.filter_cons_of_pos (p := fun pos : Position => !pos.zeroSize) hopen, List.map_cons,
          List.map_cons]
        cases hanswer : create s.posted.length (postedOrder common format symbols pos).2 with
        | error e =>
            -- the call throws, and the other positions are left
            cases hrest : positionList.filter (fun pos => !pos.zeroSize) with
            | nil => exact iff_of_true ⟨_, _, rfl, rfl⟩ trivial
            | cons next others =>
                refine iff_of_false ?_ ?_
                · rintro ⟨result, s', hrun, hposted⟩
                  cases hrun
                  have hlength := congrArg List.length hposted
                  simp at hlength
                · rintro ⟨⟨id, hid⟩, -⟩
                  rw [hanswer] at hid
                  cases hid
        | ok id =>
            have hnext := @ih { client := client, posted := s.posted ++
              [postedOrder common format symbols pos] } client (getInstrumentsInfo_again hsymbols)
            simp only [List.append_assoc, List.singleton_append, List.length_append,
              List.length_singleton] at hnext
            rw [hnext]
            cases hrest : positionList.filter (fun pos => !pos.zeroSize) with
            | nil => exact Iff.rfl
            | cons next others => exact (and_iff_right ⟨id, hanswer⟩).symm
      · rw [if_neg hopen, List.filter_cons_of_neg (p := fun pos : Position => !pos.zeroSize) hopen]
        exact ih hsymbols

/-- Without the steps no order goes out, so there must not be an open position. -/
theorem closePositions_attempts_of_no_lookup {fuel : Nat} {s : OrderClient}
    (hlookup : ¬ ∃ symbols after,
      getInstrumentsInfo endpoint fuel s.client .linear "" false = some (.ok symbols, after))
    (order : Position → Order × Json) (positionList : List Position) :
    (∃ result s', closePositions common format endpoint create fuel s positionList =
        some (result, s') ∧
      s'.posted = s.posted ++ (positionList.filter fun pos => !pos.zeroSize).map order) ↔
      positionList.filter (fun pos => !pos.zeroSize) = [] := by
  induction positionList with
  | nil => exact iff_of_true ⟨.ok (), s, rfl, (List.append_nil _).symm⟩ rfl
  | cons pos positionList ih =>
      rw [closePositions]
      by_cases hopen : (!pos.zeroSize) = true
      · rw [if_pos hopen,
          List.filter_cons_of_pos (p := fun pos : Position => !pos.zeroSize) hopen]
        refine iff_of_false ?_ (List.cons_ne_nil _ _)
        rintro ⟨result, s', hrun, hposted⟩
        cases hplaced : placeOrder common format endpoint create fuel s (closingOrder pos) with
        | none =>
            rw [hplaced] at hrun
            cases hrun
        | some placed =>
            rcases placed with ⟨answer, s₁⟩
            rcases placeOrder_cases hplaced with ⟨⟨e, rfl⟩, hsame⟩ | ⟨symbols, -, hsymbols, -⟩
            · rw [hplaced] at hrun
              cases hrun
              have hlength := congrArg List.length (hsame.symm.trans hposted)
              simp at hlength
            · exact hlookup ⟨symbols, _, hsymbols⟩
      · rw [if_neg hopen,
          List.filter_cons_of_neg (p := fun pos : Position => !pos.zeroSize) hopen]
        exact ih

/-- **When an order goes out for every open position**, whatever becomes of the call. -/
theorem closePositions_attempts_iff {fuel : Nat} {s : OrderClient}
    (positionList : List Position) :
    (∃ result s', closePositions common format endpoint create fuel s positionList =
        some (result, s') ∧
      s'.posted = s.posted ++ (positionList.filter fun pos => !pos.zeroSize).map
        (postedOrder common format (instrumentTable endpoint fuel s.client .linear))) ↔
      AllAttempted common format endpoint create fuel s.client s.posted.length
        (positionList.filter fun pos => !pos.zeroSize) := by
  by_cases hlookup : ∃ symbols after,
      getInstrumentsInfo endpoint fuel s.client .linear "" false = some (.ok symbols, after)
  · obtain ⟨symbols, after, hsymbols⟩ := hlookup
    have htable : instrumentTable endpoint fuel s.client .linear = symbols := by
      rw [instrumentTable, hsymbols]
    rw [htable, closePositions_attempts_of_lookup hsymbols]
    constructor
    · exact fun h => .inr ⟨symbols, after, hsymbols, h⟩
    · rintro (hnone | ⟨symbols', after', hsymbols', hrefused⟩)
      · rw [hnone]
        trivial
      · rw [hsymbols] at hsymbols'
        cases hsymbols'
        exact hrefused
  · rw [closePositions_attempts_of_no_lookup hlookup]
    refine (or_iff_left ?_).symm
    rintro ⟨symbols, after, hsymbols, -⟩
    exact hlookup ⟨symbols, after, hsymbols⟩

/-- If the look-up and every order succeed, the call returns. -/
theorem closePositions_returns {fuel : Nat}
    (hcreate : ∀ k json, ∃ answer, create k json = .ok answer)
    {s : OrderClient} {symbols : List Instrument} {client : RestClient}
    (hsymbols : getInstrumentsInfo endpoint fuel s.client .linear "" false =
      some (.ok symbols, client)) (positionList : List Position) :
    ∃ s', closePositions common format endpoint create fuel s positionList =
      some (.ok (), s') := by
  induction positionList generalizing s client with
  | nil => exact ⟨s, rfl⟩
  | cons pos positionList ih =>
      rw [closePositions]
      split
      · obtain ⟨answer, hanswer⟩ :=
          hcreate s.posted.length (postedOrder common format symbols pos).2
        rw [placeOrder_of_lookup hsymbols pos, hanswer]
        exact ih (getInstrumentsInfo_again hsymbols)
      · exact ih hsymbols

end Posting

/-! ### Which positions are closed -/

section Closing

variable {common : VkCommon} {readers : PositionReaders} {format : OrderFormat}
  {endpoint : Endpoint Instruments} {create : Nat → Json → Except ApiError OrderId}

/-- The decimals that are counted in the quantity step found for a position. -/
def stepDecimals (common : VkCommon) (format : OrderFormat) (symbols : List Instrument)
    (position : ReportedPosition) : Nat :=
  Order.precision common format (findPriceSteps symbols position.symbol (1 / 100) (1 / 100)).2

/-- A position is a linear one of one-way mode, and its size comes through: rounded to a
    `double` by `round`, and then by `rule` to the decimals of the quantity step that is
    found for it, it is what it was. -/
def Closable (common : VkCommon) (format : OrderFormat) (round : Rat → Double) (rule : Rat → Int)
    (symbols : List Instrument) (category : Category) (position : ReportedPosition) : Prop :=
  category = .linear ∧ position.positionIdx = 0 ∧
    (rule (round position.size * 10 ^ stepDecimals common format symbols position) : Rat) =
      position.size * 10 ^ stepDecimals common format symbols position

/-- Sizes of up to fifteen digits come through if their decimals are those of the step. -/
theorem closable_of_digits {round : Rat → Double} {rule : Rat → Int}
    (hnear : ∀ x, |round x - x| * 2 ^ 53 ≤ |x|) (hrule : ∀ x, Decimal.IsRounding (rule x) x)
    {symbols : List Instrument} {position : ReportedPosition} (hidx : position.positionIdx = 0)
    (hscales : Decimal.Scales (stepDecimals common format symbols position) position.size)
    (hdigits : |position.size| * 10 ^ stepDecimals common format symbols position < 10 ^ 15) :
    Closable common format round rule symbols .linear position := by
  refine ⟨rfl, hidx, ?_⟩
  have hdigits : |position.size| * 10 ^ stepDecimals common format symbols position < 2 ^ 52 :=
    hdigits.trans (by norm_num)
  exact Decimal.nearest_eq_of_near hscales hdigits (hnear _) (hrule _)

/-- Decimals that the step does not have are lost. -/
theorem Closable.scales {round : Rat → Double} {rule : Rat → Int} {symbols : List Instrument}
    {category : Category} {position : ReportedPosition}
    (h : Closable common format round rule symbols category position) :
    Decimal.Scales (stepDecimals common format symbols position) position.size :=
  ⟨_, h.2.2.symm⟩

theorem side_closingOrder {pos : Position} (h : pos.side ≠ .None) :
    (closingOrder pos).side = pos.side.opposite := by
  rcases pos with ⟨positionIdx, symbol, side, size, zeroSize⟩
  cases side with
  | Buy => rfl
  | Sell => rfl
  | None => exact absurd rfl h

/-- The size that the exchange reads is the one it has reported. -/
theorem sentAmount_parsed_iff {round : Rat → Double} {rule : Rat → Int}
    (hrounds : format.RoundsBy rule) (symbols : List Instrument) (position : ReportedPosition) :
    Order.sentAmount common format
        (findPriceSteps symbols position.symbol (1 / 100) (1 / 100)).2 (round position.size) =
          some position.size ↔
      (rule (round position.size * 10 ^ stepDecimals common format symbols position) : Rat) =
        position.size * 10 ^ stepDecimals common format symbols position := by
  rw [Order.sentAmount, hrounds.prints, Option.some.injEq, div_eq_iff (by positivity)]
  rfl

variable (common) in
theorem readOrder_placedOrder_iff (hnames : format.NamesEnums) {round : Rat → Double}
    {rule : Rat → Int} (hrounds : format.RoundsBy rule) (symbols : List Instrument)
    (category : Category) {position : ReportedPosition} (hside : position.side ≠ .None) :
    readOrder ((placedOrder symbols (position.parsed round)).toJson common format) =
        some (closingRequest category position) ↔
      Closable common format round rule symbols category position := by
  let steps := findPriceSteps symbols position.symbol (1 / 100) (1 / 100)
  obtain ⟨qty, hqty, hread⟩ := Order.readOrder_toJson common hnames hrounds.rounds
    (placedOrder symbols (position.parsed round))
  have hsent : Order.sentAmount common format steps.2 (round position.size) = some qty := hqty
  have hexact : qty = position.size ↔
      (rule (round position.size * 10 ^ stepDecimals common format symbols position) : Rat) =
        position.size * 10 ^ stepDecimals common format symbols position := by
    rw [← sentAmount_parsed_iff hrounds, hsent, Option.some.injEq]
  have hopposite : (placedOrder symbols (position.parsed round)).side = position.side.opposite :=
    side_closingOrder hside
  rw [hread, hopposite, Closable, ← hexact, Option.some.injEq, closingRequest,
    OrderRequest.mk.injEq]
  constructor
  · rintro ⟨hcategory, -, -, -, hqty, -, hidx, -⟩
    exact ⟨hcategory.symm, hidx.symm, hqty⟩
  · rintro ⟨hcategory, hidx, hqty⟩
    exact ⟨hcategory.symm, rfl, rfl, rfl, hqty, rfl, hidx.symm, rfl⟩

theorem filterMap_of_map_eq {α β : Type} {f : α → Option β} {items : List α} {values : List β}
    (h : items.map f = values.map some) : items.filterMap f = values := by
  have hid : items.filterMap f = (items.map f).filterMap id := by
    rw [List.filterMap_map]
    rfl
  rw [hid, h, List.filterMap_map]
  exact List.filterMap_some

section Reported

variable {list : Parameters → Except ApiError (List Json)} {category : Category}
  {reported : List Json} {positions : List ReportedPosition} {fuel : Nat} {client : RestClient}
  {round : Rat → Double} {rule : Rat → Int}

/-- The orders posted for the positions reported. -/
theorem closeAllPositions_posted (hstrings : common.ReadsStrings)
    (hnumbers : common.ReadsNumbers (roundedSize round)) (hreads : readers.Reads)
    (hlist : list (positionParameters category "") = .ok reported)
    (hreported : List.Forall₂ Reports reported positions) {s : OrderClient}
    (hrun : closeAllPositions common readers format endpoint create list fuel client category =
      some (.ok (), s)) :
    s.posted = (positions.filter fun position => position.size ≠ 0).map fun position =>
      postedOrder common format (instrumentTable endpoint fuel client .linear)
        (position.parsed round) := by
  rw [closeAllPositions,
    getPositionInfo_of_reports hstrings hnumbers hreads hlist hreported] at hrun
  rw [closePositions_posted hrun, filter_parsed, List.map_map]
  rfl

theorem closeAllPositions_returns (hstrings : common.ReadsStrings)
    (hnumbers : common.ReadsNumbers (roundedSize round)) (hreads : readers.Reads)
    (hlist : list (positionParameters category "") = .ok reported)
    (hreported : List.Forall₂ Reports reported positions)
    (hcreate : ∀ k json, ∃ answer, create k json = .ok answer)
    {symbols : List Instrument} {client' : RestClient}
    (hsymbols : getInstrumentsInfo endpoint fuel client .linear "" false =
      some (.ok symbols, client')) :
    ∃ s, closeAllPositions common readers format endpoint create list fuel client category =
      some (.ok (), s) := by
  rw [closeAllPositions, getPositionInfo_of_reports hstrings hnumbers hreads hlist hreported]
  exact closePositions_returns hcreate hsymbols _

/-- The orders posted are read as those that close the positions, if all that are open
    can be closed, and only then. -/
theorem posted_iff (hnames : format.NamesEnums) (hrounds : format.RoundsBy rule)
    (hstrings : common.ReadsStrings) (hnumbers : common.ReadsNumbers (roundedSize round))
    (hreads : readers.Reads) (hlist : list (positionParameters category "") = .ok reported)
    (hreported : List.Forall₂ Reports reported positions) {s : OrderClient}
    (hrun : closeAllPositions common readers format endpoint create list fuel client category =
      some (.ok (), s)) :
    s.posted.map (fun order => readOrder order.2) =
        ((positions.filter fun position => position.size ≠ 0).map
          (closingRequest category)).map some ↔
      ∀ position ∈ positions, position.size ≠ 0 →
        Closable common format round rule (instrumentTable endpoint fuel client .linear) category
          position := by
  have hside := bought_or_sold_of_reports hreported
  rw [closeAllPositions_posted hstrings hnumbers hreads hlist hreported hrun, List.map_map,
    List.map_map, List.map_inj_left]
  constructor
  · intro h position hposition hsize
    have hmem : position ∈ positions.filter fun position => position.size ≠ 0 :=
      List.mem_filter.mpr ⟨hposition, by simpa using hsize⟩
    apply (readOrder_placedOrder_iff common hnames hrounds _ category (hside _ hposition hsize)).mp
    exact h position hmem
  · intro h position hmem
    obtain ⟨hposition, hopen⟩ := List.mem_filter.mp hmem
    have hsize : position.size ≠ 0 := by simpa using hopen
    apply (readOrder_placedOrder_iff common hnames hrounds _ category (hside _ hposition hsize)).mpr
    exact h position hposition hsize

/-- **Exactly when all positions are closed.**  If every placement succeeds, the orders
    sent are the market orders that close the open positions, in their order, and
    leave the category flat and the others alone, if and only if every open position is a
    linear one of one-way mode whose size comes through the two roundings. -/
theorem closes_all_iff (hnames : format.NamesEnums) (hrounds : format.RoundsBy rule)
    (hstrings : common.ReadsStrings) (hnumbers : common.ReadsNumbers (roundedSize round))
    (hreads : readers.Reads) (hlist : list (positionParameters category "") = .ok reported)
    (hreported : List.Forall₂ Reports reported positions) {s : OrderClient}
    (hrun : closeAllPositions common readers format endpoint create list fuel client category =
      some (.ok (), s))
    {holdings : Holdings} (hholds : Holds holdings category positions) :
    (s.posted.map (fun order => readOrder order.2) =
        ((positions.filter fun position => position.size ≠ 0).map
          (closingRequest category)).map some ∧
      ∀ key, (s.posted.filterMap fun order => readOrder order.2).foldl applyOrder holdings key =
        if key.1 = category then 0 else holdings key) ↔
      ∀ position ∈ positions, position.size ≠ 0 →
        Closable common format round rule (instrumentTable endpoint fuel client .linear) category
          position := by
  have hposted := posted_iff hnames hrounds hstrings hnumbers hreads hlist hreported hrun
  constructor
  · rintro ⟨hsent, -⟩
    exact hposted.mp hsent
  · intro hclosable
    have hsent := hposted.mpr hclosable
    refine ⟨hsent, ?_⟩
    intro key
    rw [filterMap_of_map_eq hsent]
    exact flattens hholds key

end Reported

end Closing

/-! ### Two runs -/

def btcInstrument : Instrument where
  symbol := "BTCUSDT"
  priceFilter := { minPrice := 1 / 10, maxPrice := 200000, tickSize := 1 / 10 }
  lotSizeFilter :=
    { maxOrderQty := 100, minOrderQty := 1 / 1000, qtyStep := 1 / 1000,
      postOnlyMaxTradingQty := 1000 }

/-- A position of which 0.5 was bought. -/
def halfLong (positionIdx : Int) : ReportedPosition where
  symbol := "BTCUSDT"
  positionIdx := positionIdx
  side := .Buy
  size := 1 / 2

def halfLongJson (positionIdx : Int) : Json :=
  .object [("positionIdx", .integer positionIdx), ("side", .string "Buy"),
    ("size", .string "0.5"), ("symbol", .string "BTCUSDT")]

theorem halfLong_reports {positionIdx : Int} (hindex : IsInt32 positionIdx) :
    List.Forall₂ Reports [halfLongJson positionIdx] [halfLong positionIdx] := by
  have hsize : Decimal.value? "0.5" = some (1 / 2) := by decide +kernel
  refine .cons ⟨rfl, rfl, hindex, rfl, ⟨"0.5", rfl, hsize⟩, ?_⟩ .nil
  intro _ hnone
  cases hnone

/-- What is held where `halfLong` is the only position. -/
def halfLongHeld (category : Category) (positionIdx : Int) : Holdings := fun key =>
  if key = (category, "BTCUSDT", positionIdx) then 1 / 2 else 0

theorem halfLong_holds (category : Category) (positionIdx : Int) :
    Holds (halfLongHeld category positionIdx) category [halfLong positionIdx] := by
  intro symbol other
  simp [halfLongHeld, halfLong, signed, eq_comm]

/-- Readers that round a size to 53 binary digits. -/
def halfLongReaders : VkCommon := .documented (roundedSize Decimal.toBinary)

/-- Closing all positions where `halfLong` is the only one. -/
def closeHalfLong (positionIdx : Int) (category : Category) :
    Option (Except ApiError Unit × OrderClient) :=
  closeAllPositions halfLongReaders .documented .documented
    (fun _ _ => .error (.transport "not asked"))
    (fun _ _ => .ok { orderId := "1", orderLinkId := "" })
    (fun _ => .ok [halfLongJson positionIdx]) 0 { instruments := [btcInstrument] } category

theorem closeHalfLong_returns {positionIdx : Int} (hindex : IsInt32 positionIdx)
    (category : Category) :
    ∃ s, closeHalfLong positionIdx category = some (.ok (), s) :=
  closeAllPositions_returns (VkCommon.documented_readsStrings _)
    (VkCommon.documented_readsNumbers _) PositionReaders.documented_reads rfl
    (halfLong_reports hindex) (fun _ _ => ⟨_, rfl⟩) rfl

theorem halfLong_open (positionIdx : Int) :
    ([halfLong positionIdx].filter fun position => position.size ≠ 0) = [halfLong positionIdx] := by
  apply List.filter_cons_of_pos
  show decide ((1 / 2 : Rat) ≠ 0) = true
  decide +kernel

/-- Three decimals suffice for the half. -/
theorem closable_halfLong :
    Closable halfLongReaders .documented Decimal.toBinary Decimal.nearestSigned [btcInstrument]
      .linear (halfLong 0) := by
  have hdecimals : stepDecimals halfLongReaders .documented [btcInstrument] (halfLong 0) = 3 := by
    decide +kernel
  apply closable_of_digits Decimal.abs_toBinary_sub_le Decimal.isRounding_nearestSigned rfl
  · rw [hdecimals]
    exact ⟨500, by norm_num [halfLong]⟩
  · rw [hdecimals]
    norm_num [halfLong, abs_of_pos]

theorem closes_all_iff_halfLong :
    ∃ s, closeHalfLong 0 .linear = some (.ok (), s) ∧
      s.posted.map (fun order => readOrder order.2) = [some (closingRequest .linear (halfLong 0))] ∧
      ∀ key, (s.posted.filterMap fun order => readOrder order.2).foldl applyOrder
        (halfLongHeld .linear 0) key =
          if key.1 = .linear then 0 else halfLongHeld .linear 0 key := by
  have hindex : IsInt32 0 := by decide
  obtain ⟨s, hrun⟩ := closeHalfLong_returns hindex .linear
  have hclosed := (closes_all_iff OrderFormat.documented_namesEnums
    OrderFormat.documented_roundsBy (VkCommon.documented_readsStrings _)
    (VkCommon.documented_readsNumbers (roundedSize Decimal.toBinary))
    PositionReaders.documented_reads rfl (halfLong_reports hindex) hrun
    (halfLong_holds .linear 0)).mpr
    (by
      rintro position hposition -
      obtain rfl := List.mem_singleton.mp hposition
      exact closable_halfLong)
  rw [halfLong_open] at hclosed
  exact ⟨s, hrun, hclosed⟩

/-- Whatever its category and index, an order goes out for a linear position of one-way
    mode. -/
theorem closeHalfLong_posted {positionIdx : Int} (hindex : IsInt32 positionIdx)
    {category : Category} {s : OrderClient}
    (hrun : closeHalfLong positionIdx category = some (.ok (), s)) :
    s.posted.map (fun order => readOrder order.2) =
      [some (closingRequest .linear (halfLong 0))] := by
  have hposted := closeAllPositions_posted (VkCommon.documented_readsStrings _)
    (VkCommon.documented_readsNumbers (roundedSize Decimal.toBinary))
    PositionReaders.documented_reads rfl (halfLong_reports hindex) hrun
  have hside : (halfLong 0).side ≠ .None := fun hnone => by cases hnone
  have hread := (readOrder_placedOrder_iff _ OrderFormat.documented_namesEnums
    OrderFormat.documented_roundsBy [btcInstrument] .linear hside).mpr closable_halfLong
  rw [hposted, halfLong_open]
  exact congrArg (fun request => [request]) hread

/-- The position of an inverse contract, or of hedge mode, stays open, and a new one is
    opened beside it. -/
theorem position_left_open :
    (∃ s, closeHalfLong 0 .inverse = some (.ok (), s) ∧
      let held := (s.posted.filterMap fun order => readOrder order.2).foldl applyOrder
        (halfLongHeld .inverse 0)
      held (.inverse, "BTCUSDT", 0) = 1 / 2 ∧ held (.linear, "BTCUSDT", 0) = -(1 / 2)) ∧
    ∃ s, closeHalfLong 1 .linear = some (.ok (), s) ∧
      let held := (s.posted.filterMap fun order => readOrder order.2).foldl applyOrder
        (halfLongHeld .linear 1)
      held (.linear, "BTCUSDT", 1) = 1 / 2 ∧ held (.linear, "BTCUSDT", 0) = -(1 / 2) := by
  constructor
  · have hindex : IsInt32 0 := by decide
    obtain ⟨s, hrun⟩ := closeHalfLong_returns hindex .inverse
    refine ⟨s, hrun, ?_⟩
    have hrequests : s.posted.map (fun order => readOrder order.2) =
        [closingRequest .linear (halfLong 0)].map some := closeHalfLong_posted hindex hrun
    rw [filterMap_of_map_eq hrequests]
    decide +kernel
  · have hindex : IsInt32 1 := by decide
    obtain ⟨s, hrun⟩ := closeHalfLong_returns hindex .linear
    refine ⟨s, hrun, ?_⟩
    have hrequests : s.posted.map (fun order => readOrder order.2) =
        [closingRequest .linear (halfLong 0)].map some := closeHalfLong_posted hindex hrun
    rw [filterMap_of_map_eq hrequests]
    decide +kernel

end BybitApi
