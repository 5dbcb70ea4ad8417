import BybitApi.Orders

/-!
# Quantised amounts

The decimals of a step are counted on the text that `std::to_string` prints, which
has six of them.  A step that needs more is rounded on the way, and an amount that
needs more decimals than the rounded step is sent as another one
(`amounts_exact_iff`).  Steps of at most six decimals are handled right.

Steps and amounts are the decimals themselves here, not the `double`s next to them.
-/

namespace BybitApi

/-- A step rounded to six decimals. -/
def sixDecimals (step : Double) : Rat := Decimal.nearest (step * 10 ^ 6) / 10 ^ 6

/-- Wherever some decimals suffice for the rounded step, they do for the amount. -/
def FitsStep (step amount : Double) : Prop :=
  ∀ p, Decimal.Scales p (sixDecimals step) → Decimal.Scales p amount

/-- A text under a key denotes a number. -/
def Denotes (json : Json) (key : String) (amount : Rat) : Prop :=
  ∃ text, json.text? key = some text ∧ Decimal.value? text = some amount

theorem denotes_iff {json : Json} {key text : String} (htext : json.text? key = some text)
    (amount : Rat) : Denotes json key amount ↔ Decimal.value? text = some amount := by
  constructor
  · rintro ⟨text', htext', hvalue⟩
    rw [htext, Option.some.injEq] at htext'
    rw [htext']
    exact hvalue
  · intro hvalue
    exact ⟨text, htext, hvalue⟩

/-! ### The decimals of a step -/

section Precision

variable {common : VkCommon} {format : OrderFormat}

theorem splitString_plain (hsplits : common.Splits) (p n : Nat) :
    common.splitString (Decimal.plain p n) '.' =
      Decimal.parts (Decimal.reduce p n).1 (Decimal.reduce p n).2 := by
  apply hsplits '.' _ (Decimal.parts_ne_nil _ _)
  intro part hpart
  exact ⟨Decimal.ne_empty_of_mem_parts hpart, Decimal.notMem_parts hpart rfl⟩

theorem precision_eq (hplain : format.PrintsPlain) (hsplits : common.Splits) {step : Double}
    (hstep : 0 < step) :
    Order.precision common format step =
      (Decimal.reduce 6 (Decimal.nearest (step * 10 ^ 6)).toNat).1 := by
  have htext : toStringDouble step = Decimal.fixed 6 (Decimal.nearest (step * 10 ^ 6)).toNat := by
    rw [toStringDouble, Decimal.printed, if_neg (not_lt.mpr hstep.le), String.empty_append,
      abs_of_pos hstep]
  rw [Order.precision, htext, hplain, splitString_plain hsplits, Decimal.parts]
  generalize Decimal.reduce 6 (Decimal.nearest (step * 10 ^ 6)).toNat = reduced
  by_cases hp : reduced.1 = 0
  · rw [if_pos hp, hp]
  · rw [if_neg hp]
    have hdigits : ∀ c ∈ Decimal.lastDigits reduced.1 reduced.2, c.isDigit = true := by
      intro c hc
      exact Decimal.isDigit_of_mem_lastDigits hc
    exact (Decimal.utf8ByteSize_of_digits hdigits).trans (Decimal.length_lastDigits _ _)

/-- The fewest decimals that suffice for the rounded step. -/
theorem scales_sixDecimals_iff (hplain : format.PrintsPlain) (hsplits : common.Splits)
    {step : Double} (hstep : 0 < step) (p : Nat) :
    Decimal.Scales p (sixDecimals step) ↔ Order.precision common format step ≤ p := by
  have hnonneg : 0 ≤ Decimal.nearest (step * 10 ^ 6) :=
    (Decimal.isRounding_nearest _).nonneg (by positivity)
  have hcast : ((Decimal.nearest (step * 10 ^ 6)).toNat : Rat) =
      Decimal.nearest (step * 10 ^ 6) := by
    exact_mod_cast Int.toNat_of_nonneg hnonneg
  rw [precision_eq hplain hsplits hstep, ← Decimal.scales_reduce_iff, hcast, sixDecimals]

theorem scales_precision_iff (hplain : format.PrintsPlain) (hsplits : common.Splits)
    {step : Double} (hstep : 0 < step) (amount : Double) :
    Decimal.Scales (Order.precision common format step) amount ↔ FitsStep step amount := by
  constructor
  · intro h p hp
    exact h.mono ((scales_sixDecimals_iff hplain hsplits hstep p).mp hp)
  · intro h
    exact h _ ((scales_sixDecimals_iff hplain hsplits hstep _).mpr le_rfl)

/-- Exactly the amounts that the decimals suffice for are sent unchanged. -/
theorem sentAmount_eq_iff (hrounds : format.Rounds) (step amount : Double) :
    Order.sentAmount common format step amount = some amount ↔
      Decimal.Scales (Order.precision common format step) amount := by
  obtain ⟨n, hround, hvalue⟩ := hrounds (Order.precision common format step) amount
  rw [Order.sentAmount, hvalue, Option.some.injEq]
  exact hround.div_eq_iff

end Precision

/-! ### Steps of at most six decimals -/

theorem sixDecimals_of_scales {step : Double} (h : Decimal.Scales 6 step) :
    sixDecimals step = step := (Decimal.isRounding_nearest _).div_eq_iff.mpr h

theorem fitsStep_of_multiple {step amount : Double} (hstep : Decimal.Scales 6 step)
    (hmultiple : ∃ k : Int, amount = k * step) : FitsStep step amount := by
  intro p hp
  obtain ⟨k, rfl⟩ := hmultiple
  rw [sixDecimals_of_scales hstep] at hp
  exact hp.mul_int k

/-- The step itself fits only if it has at most six decimals. -/
theorem scales_of_fitsStep {step : Double} (h : FitsStep step step) : Decimal.Scales 6 step :=
  h 6 ⟨_, div_mul_cancel₀ _ (by norm_num)⟩

/-! ### Orders -/

section Orders

variable {common : VkCommon} {format : OrderFormat}

/-- The order is sent with its quantity and, a limit order, with its price. -/
def SendsAmounts (common : VkCommon) (format : OrderFormat) (order : Order) : Prop :=
  Denotes (order.toJson common format) "qty" order.qty ∧
    (order.orderType = .Limit → Denotes (order.toJson common format) "price" order.price)

/-- The amounts need no more decimals than the rounded steps. -/
def Order.Fits (order : Order) : Prop :=
  FitsStep order.qtyStep order.qty ∧
    (order.orderType = .Limit → FitsStep order.priceStep order.price)

/-- The amounts are integer multiples of the steps. -/
def Order.Multiple (order : Order) : Prop :=
  (∃ k : Int, order.qty = k * order.qtyStep) ∧
    (order.orderType = .Limit → ∃ k : Int, order.price = k * order.priceStep)

theorem sendsAmounts_iff (hplain : format.PrintsPlain) (hrounds : format.Rounds)
    (hsplits : common.Splits) {order : Order} (hqtyStep : 0 < order.qtyStep)
    (hpriceStep : 0 < order.priceStep) :
    SendsAmounts common format order ↔ order.Fits := by
  obtain ⟨hqty, hprice⟩ := Order.amounts_toJson common format order
  have hexact : ∀ {step : Double}, 0 < step → ∀ amount,
      Decimal.value? (format.formatDouble (Order.precision common format step) amount) =
        some amount ↔ FitsStep step amount := by
    intro step hstep amount
    rw [← scales_precision_iff hplain hsplits hstep]
    exact sentAmount_eq_iff hrounds step amount
  unfold SendsAmounts Order.Fits
  rw [denotes_iff hqty, hexact hqtyStep]
  apply and_congr_right
  intro _
  apply forall_congr'
  intro hlimit
  rw [if_pos hlimit] at hprice
  rw [denotes_iff hprice, hexact hpriceStep]

theorem Order.Multiple.fits {order : Order} (h : order.Multiple)
    (hqtyStep : Decimal.Scales 6 order.qtyStep) (hpriceStep : Decimal.Scales 6 order.priceStep) :
    order.Fits := by
  rcases h with ⟨hqty, hprice⟩
  constructor
  · exact fitsStep_of_multiple hqtyStep hqty
  · intro hlimit
    exact fitsStep_of_multiple hpriceStep (hprice hlimit)

/-- **Exactly when amounts are sent unchanged.**  An order is sent with its quantity
    and price if and only if these need no more decimals than the steps rounded to
    six; and of two steps all multiples are sent unchanged if and only if the steps
    have at most six decimals. -/
theorem amounts_exact_iff (hplain : format.PrintsPlain) (hrounds : format.Rounds)
    (hsplits : common.Splits) {qtyStep priceStep : Double} (hqtyStep : 0 < qtyStep)
    (hpriceStep : 0 < priceStep) :
    (∀ order : Order, order.qtyStep = qtyStep → order.priceStep = priceStep →
        (SendsAmounts common format order ↔ order.Fits)) ∧
      ((∀ order : Order, order.qtyStep = qtyStep → order.priceStep = priceStep →
          order.Multiple → SendsAmounts common format order) ↔
        Decimal.Scales 6 qtyStep ∧ Decimal.Scales 6 priceStep) := by
  have hexact : ∀ order : Order, order.qtyStep = qtyStep → order.priceStep = priceStep →
      (SendsAmounts common format order ↔ order.Fits) := by
    rintro order rfl rfl
    exact sendsAmounts_iff hplain hrounds hsplits hqtyStep hpriceStep
  refine ⟨hexact, ?_, ?_⟩
  · intro hall
    let order : Order :=
      { orderType := .Limit, qty := qtyStep, price := priceStep, qtyStep, priceStep }
    have hmultiple : order.Multiple := by
      constructor
      · exact ⟨1, by simp [order]⟩
      · intro _
        exact ⟨1, by simp [order]⟩
    have hsends := hall order rfl rfl hmultiple
    obtain ⟨hqty, hprice⟩ := (hexact order rfl rfl).mp hsends
    exact ⟨scales_of_fitsStep hqty, scales_of_fitsStep (hprice rfl)⟩
  · rintro ⟨hqty, hprice⟩ order rfl rfl hmultiple
    exact (hexact order rfl rfl).mpr (hmultiple.fits hqty hprice)

end Orders

/-- A limit order whose steps have three decimals and one. -/
def coarseStepped : Order where
  symbol := "BTCUSDT"
  orderType := .Limit
  qty := 15 / 1000
  price := 271505 / 10
  qtyStep := 1 / 1000
  priceStep := 1 / 10

theorem amounts_exact_iff_coarseStepped :
    SendsAmounts (.documented fun _ => none) .documented coarseStepped := by
  have hmultiple : coarseStepped.Multiple :=
    ⟨⟨15, by decide +kernel⟩, fun _ => ⟨271505, by decide +kernel⟩⟩
  have hqtyStep : (0 : Double) < 1 / 1000 := by norm_num
  have hpriceStep : (0 : Double) < 1 / 10 := by norm_num
  have hall := (amounts_exact_iff OrderFormat.documented_printsPlain OrderFormat.documented_rounds
    (VkCommon.documented_splits fun _ => none) hqtyStep hpriceStep).2
  exact hall.mpr ⟨by decide +kernel, by decide +kernel⟩ coarseStepped rfl rfl hmultiple

/-- The price steps by a ten-millionth. -/
def fineStepped : Order where
  symbol := "PEPEUSDT"
  orderType := .Limit
  qty := 300
  price := 123 / 10 ^ 7
  qtyStep := 100
  priceStep := 1 / 10 ^ 7

theorem price_fineStepped :
    (fineStepped.toJson (.documented fun _ => none) .documented).text? "price" = some "0" := by
  decide +kernel

/-- The order is sent with a price of zero. -/
theorem price_sent_as_zero :
    0 < fineStepped.qtyStep ∧ 0 < fineStepped.priceStep ∧ fineStepped.Multiple ∧
      Denotes (fineStepped.toJson (.documented fun _ => none) .documented) "price" 0 ∧
      ¬ SendsAmounts (.documented fun _ => none) .documented fineStepped := by
  have hmultiple : fineStepped.Multiple :=
    ⟨⟨3, by decide +kernel⟩, fun _ => ⟨123, by decide +kernel⟩⟩
  have hzero : Decimal.value? "0" = some 0 := by decide +kernel
  refine ⟨by decide +kernel, by decide +kernel, hmultiple, ⟨_, price_fineStepped, hzero⟩, ?_⟩
  rintro ⟨-, hprice⟩
  have hsent := (denotes_iff price_fineStepped _).mp (hprice rfl)
  rw [hzero] at hsent
  exact absurd hsent (by decide +kernel)

end BybitApi
