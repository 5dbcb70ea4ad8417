import BybitApi.OrderEncoding
import BybitApi.PagedLists

/-!
# Market data on the wire

The kline endpoint sends a candle as a row of texts, and the funding endpoint sends a
rate as an object whose numbers are texts; both list the newest first.  Amounts are sent
with a fixed number of decimals.  What has no more decimals than that is read back as it
was (`candle_roundtrip`, `fundingRate_roundtrip`), so that the downloads on endpoints of
candles and rates are downloads from replies (`servesKline_of_replies`,
`servesFunding_of_replies`).
-/

namespace BybitApi

open Decoding

/-! ### Printed integers -/

theorem isSpace_of_isDigit {c : Char} (h : c.isDigit = true) : isSpace c = false := by
  simp only [isSpace, Bool.or_eq_false_iff, beq_eq_false_iff_ne]
  refine ⟨⟨⟨⟨⟨?_, ?_⟩, ?_⟩, ?_⟩, ?_⟩, ?_⟩ <;> rintro rfl <;> exact absurd h (by decide)

/-- The digits of a natural number. -/
theorem exists_digits (n : Nat) :
    ∃ c chars, n.repr.toList = c :: chars ∧ c.isDigit = true ∧
      (c :: chars).takeWhile Char.isDigit = c :: chars ∧ digitsValue (c :: chars) = n := by
  obtain ⟨c, chars, h⟩ := List.exists_cons_of_ne_nil (Nat.toDigits_ne_nil (b := 10) (n := n))
  have hdigits : ∀ d ∈ c :: chars, d.isDigit = true := by
    intro d hd
    exact Nat.isDigit_of_mem_toDigits (by decide) (by decide) (h ▸ hd)
  refine ⟨c, chars, ?_, hdigits c List.mem_cons_self, ?_, ?_⟩
  · rw [Nat.repr_eq_ofList_toDigits, String.toList_ofList, h]
  · exact List.takeWhile_eq_self_iff.mpr hdigits
  · rw [← h]
    exact Nat.ofDigitChars_ten_toDigits

/-- A printed integer is read as it is. -/
theorem leadingInteger_toString (n : Int) : leadingInteger (toString n) = some n := by
  rw [Int.toString_eq_repr, Int.repr_eq_if]
  split
  · next hpos =>
      obtain ⟨c, chars, hlist, hc, htake, hvalue⟩ := exists_digits n.toNat
      have hdrop : n.toNat.repr.toList.dropWhile isSpace = c :: chars := by
        rw [hlist, List.dropWhile_cons_of_neg (by simp [isSpace_of_isDigit hc])]
      simp only [leadingInteger, hdrop]
      split
      · next h =>
          obtain ⟨rfl, -⟩ := List.cons.inj h
          exact absurd hc (by decide)
      · next h =>
          obtain ⟨rfl, -⟩ := List.cons.inj h
          exact absurd hc (by decide)
      · simp only [htake, hvalue, Int.toNat_of_nonneg hpos]
  · next hneg =>
      obtain ⟨c, chars, hlist, -, htake, hvalue⟩ := exists_digits (-n).toNat
      have hdrop : ("-" ++ (-n).toNat.repr).toList.dropWhile isSpace = '-' :: c :: chars := by
        rw [String.toList_append, hlist]
        rfl
      have hback : -((-n).toNat : Int) = n := by omega
      simp only [leadingInteger, hdrop, htake, hvalue, Option.map_some, hback]

theorem stoll_toString {n : Int} (h : IsInt64 n) : stoll (toString n) = .ok n := by
  simp only [stoll, stringToInteger, leadingInteger_toString]
  exact if_pos h

/-- An amount that the decimals are enough for is printed exactly. -/
theorem value?_printed_of_scales {p : Nat} {x : Rat} (h : Decimal.Scales p x) :
    Decimal.value? (Decimal.printed p x) = some x := by
  rw [Decimal.value?_printed, (Decimal.isRounding_nearestSigned _).div_eq_iff.mpr h]

/-! ### What the exchange sends -/

def Candle.amounts (candle : Candle) : List Double :=
  [candle.open_, candle.high, candle.low, candle.close, candle.volume, candle.turnover]

/-- The row of a candle, with `p` decimals. -/
def candleRow (p : Nat) (candle : Candle) : Json :=
  .array (.string (toString candle.startTime) ::
    candle.amounts.map fun amount => .string (Decimal.printed p amount))

def fundingRow (p : Nat) (rate : FundingRate) : Json :=
  .object
    [("symbol", .string rate.symbol),
     ("fundingRate", .string (Decimal.printed p rate.fundingRate)),
     ("fundingRateTimestamp", .string (toString rate.fundingRateTimestamp))]

/-- A reply without an error. -/
def successReply (result : Json) (time : Int) : Json :=
  .object
    [("retCode", .integer 0), ("retMsg", .string "OK"), ("result", result),
     ("retExtInfo", .object []), ("time", .integer time)]

def klineReply (p : Nat) (category : Category) (symbol : String) (candles : List Candle) :
    Int → Json :=
  successReply (.object
    [("symbol", .string symbol), ("category", .string category.enumName),
     ("list", .array (candles.map (candleRow p)))])

def fundingReply (p : Nat) (category : Category) (rates : List FundingRate) : Int → Json :=
  successReply (.object
    [("category", .string category.enumName), ("list", .array (rates.map (fundingRow p)))])

/-- The decimals are enough, and the time is one of 64 bits. -/
def Candle.Sendable (p : Nat) (candle : Candle) : Prop :=
  IsInt64 candle.startTime ∧ ∀ amount ∈ candle.amounts, Decimal.Scales p amount

def FundingRate.Sendable (p : Nat) (rate : FundingRate) : Prop :=
  IsInt64 rate.fundingRateTimestamp ∧ Decimal.Scales p rate.fundingRate

instance (p : Nat) (candle : Candle) : Decidable (candle.Sendable p) :=
  inferInstanceAs (Decidable (_ ∧ _))

instance (p : Nat) (rate : FundingRate) : Decidable (rate.Sendable p) :=
  inferInstanceAs (Decidable (_ ∧ _))

/-- The readers read what is documented of them in these replies. -/
structure ReadsMarket (common : VkCommon) (readers : ReplyReaders) : Prop where
  strings : common.ReadsStrings
  integers : common.ReadsIntegers
  numbers : common.ReadsNumbers sizeNumber
  ints : readers.ReadsInt
  enums : readers.ReadsEnums
  stod : ∀ {digits value}, Decimal.value? digits = some value → readers.stod digits = .ok value
  textIntegers : ∀ {json key n} (default : Option Int),
    json.find? key = some (.string (toString (n : Int))) → IsInt64 n →
      readers.readStringAsInt64 json key default = .ok n

theorem documented_readsMarket :
    ReadsMarket (.documented sizeNumber) (.documented sizeNumber) where
  strings := VkCommon.documented_readsStrings _
  integers := VkCommon.documented_readsIntegers _
  numbers := VkCommon.documented_readsNumbers _
  ints := by
    intro json key value current h _ _
    simp [ReplyReaders.documented, InstrumentReaders.documented, h]
  enums := ReplyReaders.documented_readsEnums _
  stod h := by simp [ReplyReaders.documented, sizeNumber, h]
  textIntegers default h _ := by
    simp [ReplyReaders.documented, readStringAsInteger, h]

variable {text : JsonText} {common : VkCommon} {readers : ReplyReaders} {p : Nat}

/-! ### What is read of it -/

theorem candle_roundtrip (hreads : ReadsMarket common readers) {candle : Candle}
    (h : candle.Sendable p) : Candle.fromJson readers (candleRow p candle) = .ok candle := by
  obtain ⟨htime, hamounts⟩ := h
  have hstod : ∀ amount ∈ candle.amounts,
      readers.stod (Decimal.printed p amount) = .ok amount := by
    intro amount hamount
    exact hreads.stod (value?_printed_of_scales (hamounts amount hamount))
  simp only [Candle.amounts, List.forall_mem_cons] at hstod
  obtain ⟨hopen, hhigh, hlow, hclose, hvolume, hturnover, -⟩ := hstod
  have hstart : stollOrThrow (toString candle.startTime) = .ok candle.startTime := by
    rw [stollOrThrow, stoll_toString htime]
  simp only [Candle.fromJson, bind_eq_ok]
  exact ⟨_, hstart, _, hopen, _, hhigh, _, hlow, _, hclose, _, hvolume, _, hturnover, rfl⟩

theorem fundingRate_roundtrip (hreads : ReadsMarket common readers) {rate : FundingRate}
    (h : rate.Sendable p) :
    FundingRate.fromJson common readers (fundingRow p rate) = .ok rate := by
  have hsymbol : common.readString (fundingRow p rate) "symbol" "" = .ok rate.symbol :=
    hreads.strings.present "" rfl
  have hrate : common.readStringAsDouble (fundingRow p rate) "fundingRate" 0 =
      .ok rate.fundingRate :=
    hreads.numbers.present 0 rfl (value?_printed_of_scales h.2)
  have htime : readers.readStringAsInt64 (fundingRow p rate) "fundingRateTimestamp" (some 0) =
      .ok rate.fundingRateTimestamp :=
    hreads.textIntegers (some 0) rfl h.1
  simp only [FundingRate.fromJson, bind_eq_ok]
  exact ⟨_, hsymbol, _, hrate, _, htime, rfl⟩

/-- Rows that are read one by one are read as a list. -/
theorem mapM_map_eq_ok {ε α β γ : Type} {row : α → β} {element : β → Except ε γ}
    {value : α → γ} {entries : List α} (h : ∀ x ∈ entries, element (row x) = .ok (value x)) :
    (entries.map row).mapM element = .ok (entries.map value) := by
  induction entries with
  | nil => rfl
  | cons x rest ih =>
      obtain ⟨hx, hrest⟩ := List.forall_mem_cons.mp h
      rw [List.map_cons, mapM_cons_eq, hx, ih hrest]
      rfl

/-- The response is there, with this JSON in its body. -/
def Carries (text : JsonText) (reply : Except String HttpResponse) (json : Json) : Prop :=
  ∃ response, reply = .ok response ∧ response.result = 200 ∧ text.parse response.body = .ok json

/-- A successful reply is what is read of its result. -/
theorem replyAs_of_carries (hreads : ReadsMarket common readers) (type : ReplyType)
    {reply : Except String HttpResponse} {result : Json} {time : Int} {value : type.Payload}
    (htime : IsInt64 time) (hcarries : Carries text reply (successReply result time))
    (hresult : type.ofResult common readers result = .ok value) :
    replyAs text common readers type reply = .ok value := by
  obtain ⟨response, rfl, hstatus, hparse⟩ := hcarries
  have hcode : readers.readInt (successReply result time) "retCode" 0 = .ok 0 :=
    hreads.ints 0 rfl (by decide) (by decide)
  have hmsg : common.readString (successReply result time) "retMsg" "" = .ok "OK" :=
    hreads.strings.present "" rfl
  have htime : common.readInt64 (successReply result time) "time" 0 = .ok time :=
    hreads.integers 0 rfl htime
  have hdecodes : type.fromJson common readers (successReply result time) =
      .ok ({ retCode := 0, retMsg := "OK", retExtInfo := .object [], time := time,
             result := result }, value) :=
    readReply_eq_ok.mpr ⟨hcode, hmsg, htime, rfl, rfl, hresult⟩
  have hchecked : checkResponse response = .ok response := if_neg (not_not_intro hstatus)
  simp only [replyAs, hchecked]
  exact (handleBybitResponse_eq_ok_iff hparse).mpr ⟨_, hdecodes, rfl⟩

theorem candles_ofResult (hreads : ReadsMarket common readers) (category : Category)
    (symbol : String) {candles : List Candle} (h : ∀ candle ∈ candles, candle.Sendable p) :
    Candles.ofResult common readers (.object
        [("symbol", .string symbol), ("category", .string category.enumName),
         ("list", .array (candles.map (candleRow p)))]) = .ok { category, symbol, candles } := by
  have hrows : (candles.map (candleRow p)).mapM (Candle.fromJson readers) = .ok (candles.map id) :=
    mapM_map_eq_ok fun candle hcandle => candle_roundtrip hreads (h candle hcandle)
  simp only [Candles.ofResult, bind_eq_ok]
  refine ⟨symbol, hreads.strings.present "" rfl, category,
    hreads.enums _ _ rfl (Category.enumCast?_enumName category), candles, ?_, rfl⟩
  rw [List.map_id] at hrows
  exact hrows

theorem fundingRates_ofResult (hreads : ReadsMarket common readers) (category : Category)
    {rates : List FundingRate} (h : ∀ rate ∈ rates, rate.Sendable p) :
    FundingRates.ofResult common readers (.object
        [("category", .string category.enumName), ("list", .array (rates.map (fundingRow p)))]) =
      .ok { category, fundingRates := rates } := by
  have hrows : (rates.map (fundingRow p)).mapM (FundingRate.fromJson common readers) =
      .ok (rates.map id) :=
    mapM_map_eq_ok fun rate hrate => fundingRate_roundtrip hreads (h rate hrate)
  simp only [FundingRates.ofResult, bind_eq_ok]
  refine ⟨category, hreads.enums _ _ rfl (Category.enumCast?_enumName category), rates, ?_, rfl⟩
  rw [List.map_id] at hrows
  exact hrows

/-! ### The endpoints -/

section Source

variable (text : JsonText) (common : VkCommon) (readers : ReplyReaders)

-- `get` answers a client's requests by their number, path and query.
variable (get : Nat → String → Parameters → Except String HttpResponse)

/-- `P::getHistoricalPrices`, from the reply on. -/
def klineEndpoint : Endpoint (List Candle) := fun k parameters => do
  let candles : Candles ←
    replyAs text common readers .Candles (get k "/v5/market/kline" parameters)
  return candles.candles

/-- `P::getFundingRates`, from the reply on. -/
def fundingEndpoint : Endpoint (List FundingRate) := fun k parameters => do
  let fundingRates : FundingRates ←
    replyAs text common readers .FundingRates (get k "/v5/market/funding/history" parameters)
  return fundingRates.fundingRates

end Source

section Exchange

variable (text : JsonText) (get : Nat → String → Parameters → Except String HttpResponse) (p : Nat)

/-- Every kline request is answered with a page of the market as it is at that moment. -/
def SendsKline (candles : Nat → List Candle) (category : Category) (symbol : String)
    (interval : CandleInterval) : Prop :=
  ∀ k start limit, ∃ time, IsInt64 time ∧
    Carries text (get k "/v5/market/kline" (klineParameters category symbol interval start limit))
      (klineReply p category symbol (klinePage (candles k) start limit) time)

/-- Every funding request is answered with a page of the history as it is then. -/
def SendsFunding (records : Nat → List FundingRate) (category : Category) (symbol : String) :
    Prop :=
  ∀ k startTime endTime limit, ∃ time, IsInt64 time ∧
    Carries text (get k "/v5/market/funding/history"
        (fundingParameters category symbol startTime endTime limit))
      (fundingReply p category (fundingPage (records k) startTime endTime limit) time)

end Exchange

variable {get : Nat → String → Parameters → Except String HttpResponse} {category : Category}
  {symbol : String}

theorem mem_of_mem_klinePage {candles : List Candle} {start limit : Int} {candle : Candle}
    (h : candle ∈ klinePage candles start limit) : candle ∈ candles := by
  rw [klinePage, List.mem_reverse] at h
  exact (Timeline.mem_since.mp (List.mem_of_mem_take h)).1

theorem mem_of_mem_fundingPage {records : List FundingRate} {startTime endTime limit : Int}
    {rate : FundingRate} (h : rate ∈ fundingPage records startTime endTime limit) :
    rate ∈ records := by
  have hmem := List.mem_reverse.mp (List.mem_of_mem_take h)
  exact (Timeline.mem_between.mp hmem).1

/-- An exchange that sends its candles serves them. -/
theorem servesKline_of_replies (hreads : ReadsMarket common readers) {candles : Nat → List Candle}
    {interval : CandleInterval} (hcandles : ∀ k, ∀ candle ∈ candles k, candle.Sendable p)
    (hsends : SendsKline text get p candles category symbol interval) :
    ServesKline (klineEndpoint text common readers get) candles category symbol interval := by
  intro k start limit
  obtain ⟨time, htime, hcarries⟩ := hsends k start limit
  have hpage : ∀ candle ∈ klinePage (candles k) start limit, candle.Sendable p := by
    intro candle hcandle
    exact hcandles k candle (mem_of_mem_klinePage hcandle)
  have hresult := candles_ofResult hreads category symbol hpage
  have hreply := replyAs_of_carries hreads .Candles htime hcarries hresult
  rw [klineEndpoint, hreply]
  rfl

theorem servesFunding_of_replies (hreads : ReadsMarket common readers)
    {records : Nat → List FundingRate} (hrates : ∀ k, ∀ rate ∈ records k, rate.Sendable p)
    (hsends : SendsFunding text get p records category symbol) :
    ServesFunding (fundingEndpoint text common readers get) records category symbol := by
  intro k startTime endTime limit
  obtain ⟨time, htime, hcarries⟩ := hsends k startTime endTime limit
  have hpage : ∀ rate ∈ fundingPage (records k) startTime endTime limit, rate.Sendable p := by
    intro rate hrate
    exact hrates k rate (mem_of_mem_fundingPage hrate)
  have hresult := fundingRates_ofResult hreads category hpage
  have hreply := replyAs_of_carries hreads .FundingRates htime hcarries hresult
  rw [fundingEndpoint, hreply]
  rfl

/-! ### Documents -/

/-- The parser on a number of documents. -/
def documentsText (documents : List (String × Json)) : JsonText where
  parse body :=
    match documents.lookup body with
    | some json => .ok json
    | none => .error (.json "parse_error.101")
  dump _ := ""

theorem parse_documentsText {α : Type} (body : α → String) (json : α → Json) {entries : List α}
    (hnodup : (entries.map body).Nodup) {x : α} (hx : x ∈ entries) :
    (documentsText (entries.map fun x => (body x, json x))).parse (body x) = .ok (json x) := by
  have hlookup : (entries.map fun x => (body x, json x)).lookup (body x) = some (json x) := by
    induction entries with
    | nil => cases hx
    | cons first rest ih =>
        rw [List.map_cons, List.nodup_cons] at hnodup
        rw [List.map_cons, List.lookup_cons]
        rcases List.mem_cons.mp hx with rfl | hrest
        · rw [beq_self_eq_true]
        · have hne : (body x == body first) = false := by
            rw [beq_eq_false_iff_ne]
            intro heq
            exact hnodup.1 (heq ▸ List.mem_map_of_mem hrest)
          rw [hne]
          exact ih hnodup.2 hrest
  simp only [documentsText, hlookup]

end BybitApi
