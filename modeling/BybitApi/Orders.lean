import BybitApi.Decimal
import BybitApi.HttpSession
import BybitApi.Instruments

/-!
# Orders

`Order::toJson` makes the JSON of an order, and `RESTClient::placeOrder` posts it
after it has looked up the steps of the order's instrument.  The quantity and the
price are written with as many decimals as the step has; these are counted on the
text of the step.
-/

namespace BybitApi

/-- What the JSON of an order takes from `vk_cpp_common` and from Boost. -/
structure OrderFormat where
  /-- The JSON of an enumerator of this name. -/
  enumJson : String → Json
  /-- The text of a `cpp_dec_float_50` made from a text. -/
  decFloatStr : String → String
  formatDouble : Nat → Double → String

namespace OrderFormat

/-- Enumerators are written under their names. -/
def NamesEnums (format : OrderFormat) : Prop := ∀ name, format.enumJson name = .string name

/-- A decimal is printed without trailing zeros. -/
def PrintsPlain (format : OrderFormat) : Prop :=
  ∀ p n, format.decFloatStr (Decimal.fixed p n) = Decimal.plain p n

/-- `formatDouble` prints a number rounded to the decimals. -/
def Rounds (format : OrderFormat) : Prop :=
  ∀ p x, ∃ n : Int, Decimal.IsRounding n (x * 10 ^ p) ∧
    Decimal.value? (format.formatDouble p x) = some (n / 10 ^ p : Rat)

/-- The same with the rule by which it takes one of two nearest. -/
structure RoundsBy (format : OrderFormat) (rule : Rat → Int) : Prop where
  nearest : ∀ x, Decimal.IsRounding (rule x) x
  prints : ∀ p x,
    Decimal.value? (format.formatDouble p x) = some (rule (x * 10 ^ p) / 10 ^ p : Rat)

theorem RoundsBy.rounds {format : OrderFormat} {rule : Rat → Int} (h : format.RoundsBy rule) :
    format.Rounds := fun p x => ⟨rule (x * 10 ^ p), h.nearest _, h.prints p x⟩

/-- A format that does what is documented. -/
def documented : OrderFormat where
  enumJson := .string
  decFloatStr := Decimal.shorten
  formatDouble := Decimal.printed

theorem documented_namesEnums : documented.NamesEnums := fun _ => rfl

theorem documented_printsPlain : documented.PrintsPlain := Decimal.shorten_fixed

theorem documented_roundsBy : documented.RoundsBy Decimal.nearestSigned where
  nearest := Decimal.isRounding_nearestSigned
  prints := Decimal.value?_printed

theorem documented_rounds : documented.Rounds := documented_roundsBy.rounds

end OrderFormat

/-- `std::to_string` of a `double`. -/
def toStringDouble (value : Double) : String := Decimal.printed 6 value

structure Order where
  category : Category := .linear
  symbol : String := ""
  side : Side := .Buy
  orderType : OrderType := .Market
  qty : Double := 0
  price : Double := 0
  timeInForce : TimeInForce := .GTC
  positionIdx : Int := 0
  orderLinkId : String := ""
  takeProfit : Double := 0
  stopLoss : Double := 0
  tpTriggerBy : TriggerPriceType := .LastPrice
  slTriggerBy : TriggerPriceType := .LastPrice
  reduceOnly : Bool := false
  closeOnTrigger : Bool := false
  /-- Not sent; it serves for formatting only. -/
  priceStep : Double := 1 / 1000
  /-- Not sent; it serves for formatting only. -/
  qtyStep : Double := 1 / 1000
deriving DecidableEq, Repr

namespace Order

section Source

variable (common : VkCommon) (format : OrderFormat)

/-- The number of decimals of a step. -/
def precision (step : Double) : Nat :=
  match common.splitString (format.decFloatStr (toStringDouble step)) '.' with
  | [_, decimals] => decimals.utf8ByteSize
  | _ => 0

/-- An assignment that is made under a condition. -/
def setWhen (condition : Bool) (key : String) (value : Json) (members : List (String × Json)) :
    List (String × Json) :=
  if condition then Json.setMember key value members else members

@[simp] theorem lookup_setWhen (condition : Bool) (key : String) (value : Json)
    (members : List (String × Json)) (key' : String) :
    (setWhen condition key value members).lookup key' =
      if condition = true ∧ key' = key then some value else members.lookup key' := by
  unfold setWhen
  cases condition <;> simp

def toJson (order : Order) : Json :=
  .object <| []
    |> Json.setMember "category" (format.enumJson order.category.enumName)
    |> Json.setMember "side" (format.enumJson order.side.enumName)
    |> Json.setMember "symbol" (.string order.symbol)
    |> Json.setMember "orderType" (format.enumJson order.orderType.enumName)
    |> Json.setMember "timeInForce" (format.enumJson order.timeInForce.enumName)
    |> Json.setMember "reduceOnly" (.bool order.reduceOnly)
    |> Json.setMember "closeOnTrigger" (.bool order.closeOnTrigger)
    |> Json.setMember "positionIdx" (.integer order.positionIdx)
    |> setWhen (order.orderLinkId ≠ "") "orderLinkId" (.string order.orderLinkId)
    |> setWhen (order.takeProfit ≠ 0) "takeProfit" (.float order.takeProfit)
    |> setWhen (order.stopLoss ≠ 0) "stopLoss" (.float order.stopLoss)
    |> setWhen (order.orderType = .Limit) "price" (.string (toStringDouble order.price))
    |> setWhen (order.tpTriggerBy = .LastPrice) "tpTriggerBy"
        (format.enumJson order.tpTriggerBy.enumName)
    |> setWhen (order.slTriggerBy = .LastPrice) "slTriggerBy"
        (format.enumJson order.slTriggerBy.enumName)
    |> Json.setMember "qty"
        (.string (format.formatDouble (precision common format order.qtyStep) order.qty))
    |> setWhen (order.orderType = .Limit) "price"
        (.string (format.formatDouble (precision common format order.priceStep) order.price))

/-- The order with the steps that `placeOrder` assigns. -/
def withSteps (order : Order) (steps : Double × Double) : Order :=
  { order with priceStep := steps.1, qtyStep := steps.2 }

end Source

end Order

/-! ### Placing orders -/

structure OrderId where
  orderId : String
  orderLinkId : String
deriving DecidableEq, Repr

/-- A client, and the orders it has posted, with their JSON. -/
structure OrderClient where
  client : RestClient := {}
  posted : List (Order × Json) := []
deriving Repr

section Source

variable (common : VkCommon) (format : OrderFormat) (endpoint : Endpoint Instruments)
  (create : Nat → Json → Except ApiError OrderId)

/-- `RESTClient::placeOrder`; `create` answers the orders posted. -/
def placeOrder (fuel : Nat) (s : OrderClient) (order : Order) :
    Option (Except ApiError OrderId × OrderClient) :=
  match placeOrderSteps endpoint fuel s.client order.category order.symbol with
  | none => none
  | some (.error e, client) => some (.error e, { s with client := client })
  | some (.ok steps, client) =>
      let order := order.withSteps steps
      let json := order.toJson common format
      some (create s.posted.length json,
        { client := client, posted := s.posted ++ [(order, json)] })

end Source

/-! ### Naming an open order -/

/-- What `RESTClient::cancelOrder` posts to `/v5/order/cancel`. -/
def cancelOrderParameters (category : Category) (symbol orderId orderLinkId : String) :
    Parameters :=
  let parameters := ((∅ : Parameters).insert "symbol" symbol).insert "category" category.enumName
  let parameters := if orderId ≠ "" then parameters.insert "orderId" orderId else parameters
  if orderLinkId ≠ "" then parameters.insert "orderLinkId" orderId else parameters

/-- The query of `RESTClient::getOpenOrder` to `/v5/order/realtime`. -/
def openOrderParameters (category : Category) (symbol orderId orderLinkId : String) :
    Parameters :=
  ((((∅ : Parameters).insert "category" category.enumName).insert "symbol" symbol).insert
    "orderId" orderId).insert "orderLinkId" orderLinkId

/-- `RESTClient::getOpenOrder`: the first of the orders listed. -/
def getOpenOrder {α : Type} (realtime : Parameters → Except ApiError (List α))
    (category : Category) (symbol orderId orderLinkId : String) : Except ApiError (Option α) := do
  let orders ← realtime (openOrderParameters category symbol orderId orderLinkId)
  return orders.head?

/-- The JSON of a map of texts. -/
def Json.ofParameters (parameters : Parameters) : Json :=
  .object (parameters.toList.map fun parameter => (parameter.1, .string parameter.2))

/-! ### What an exchange reads in an order -/

/-- An order as the exchange reads it. -/
structure OrderRequest where
  category : Category
  symbol : String
  side : Side
  orderType : OrderType
  qty : Rat
  /-- Of a limit order. -/
  price : Option Rat
  positionIdx : Int
  orderLinkId : String
deriving DecidableEq, Repr

namespace Json

def text? (json : Json) (key : String) : Option String :=
  match json.find? key with
  | some (.string text) => some text
  | _ => none

def integer? (json : Json) (key : String) : Option Int :=
  match json.find? key with
  | some (.integer value) => some value
  | _ => none

theorem lookup_eq_some_iff {members : List (String × Json)}
    (hkeys : members.Pairwise fun p q => p.1 ≠ q.1) {key : String} {value : Json} :
    members.lookup key = some value ↔ (key, value) ∈ members := by
  induction members with
  | nil => simp
  | cons member members ih =>
      rcases member with ⟨name, first⟩
      obtain ⟨hname, hrest⟩ := List.pairwise_cons.mp hkeys
      rw [List.lookup_cons, List.mem_cons, ← ih hrest]
      by_cases hkey : key = name
      · have hnone : members.lookup key = none := by
          rw [List.lookup_eq_none_iff]
          intro member hmember
          simpa [hkey] using hname member hmember
        simp [hkey, hkey ▸ hnone, eq_comm]
      · have hfalse : (key == name) = false := by simpa using hkey
        simp [hfalse, hkey]

@[simp] theorem text?_ofParameters (parameters : Parameters) (key : String) :
    (ofParameters parameters).text? key = parameters[key]? := by
  have hkeys : (parameters.toList.map fun p => (p.1, Json.string p.2)).Pairwise
      fun p q => p.1 ≠ q.1 := by
    rw [List.pairwise_map]
    apply Std.ExtTreeMap.distinct_keys_toList.imp
    intro p q h heq
    exact h (Std.LawfulEqCmp.compare_eq_iff_eq.mpr heq)
  unfold text? ofParameters find?
  cases hvalue : parameters[key]? with
  | some value =>
      have hmem : (key, Json.string value) ∈
          parameters.toList.map fun p => (p.1, Json.string p.2) :=
        List.mem_map.mpr ⟨_, Std.ExtTreeMap.mem_toList_iff_getElem?_eq_some.mpr hvalue, rfl⟩
      simp only [(lookup_eq_some_iff hkeys).mpr hmem]
  | none =>
      have hlookup : (parameters.toList.map fun p => (p.1, Json.string p.2)).lookup key = none := by
        rw [List.lookup_eq_none_iff]
        intro member hmember
        obtain ⟨⟨name, text⟩, hlisted, rfl⟩ := List.mem_map.mp hmember
        have hsome := Std.ExtTreeMap.mem_toList_iff_getElem?_eq_some.mp hlisted
        have hne : key ≠ name := by
          rintro rfl
          rw [hvalue] at hsome
          cases hsome
        simpa using hne
      simp only [hlookup]

end Json

def readOrder (json : Json) : Option OrderRequest := do
  let category ← Category.enumCast? (← json.text? "category")
  let symbol ← json.text? "symbol"
  let side ← Side.enumCast? (← json.text? "side")
  let orderType ← OrderType.enumCast? (← json.text? "orderType")
  let qty ← Decimal.value? (← json.text? "qty")
  let positionIdx ← json.integer? "positionIdx"
  return {
    category, symbol, side, orderType, qty, positionIdx
    price := (json.text? "price").bind Decimal.value?
    orderLinkId := (json.text? "orderLinkId").getD "" }

namespace Order

variable {common : VkCommon} {format : OrderFormat}

variable (common) in
/-- What the exchange finds in a JSON made by `toJson`. -/
theorem text?_toJson (hnames : format.NamesEnums) (order : Order) :
    (order.toJson common format).text? "category" = some order.category.enumName ∧
      (order.toJson common format).text? "symbol" = some order.symbol ∧
      (order.toJson common format).text? "side" = some order.side.enumName ∧
      (order.toJson common format).text? "orderType" = some order.orderType.enumName ∧
      (order.toJson common format).integer? "positionIdx" = some order.positionIdx ∧
      ((order.toJson common format).text? "orderLinkId").getD "" = order.orderLinkId := by
  have hlink : order.orderLinkId = "" ∨ order.orderLinkId ≠ "" := Classical.em _
  refine ⟨?_, ?_, ?_, ?_, ?_, ?_⟩
  · simp [toJson, Json.text?, Json.find?, hnames _]
  · simp [toJson, Json.text?, Json.find?, hnames _]
  · simp [toJson, Json.text?, Json.find?, hnames _]
  · simp [toJson, Json.text?, Json.find?, hnames _]
  · simp [toJson, Json.integer?, Json.find?]
  · rcases hlink with hnone | hsome
    · simp [toJson, Json.text?, Json.find?, hnone]
    · simp [toJson, Json.text?, Json.find?, hsome]

variable (common format) in
/-- The quantity and the price are texts that `formatDouble` makes. -/
theorem amounts_toJson (order : Order) :
    (order.toJson common format).text? "qty" =
        some (format.formatDouble (precision common format order.qtyStep) order.qty) ∧
      (order.toJson common format).text? "price" =
        if order.orderType = .Limit then
          some (format.formatDouble (precision common format order.priceStep) order.price)
        else none := by
  constructor
  · simp [toJson, Json.text?, Json.find?]
  · by_cases hlimit : order.orderType = .Limit
    · simp [toJson, Json.text?, Json.find?, hlimit]
    · simp [toJson, Json.text?, Json.find?, hlimit]

/-- The number that the exchange reads where an amount is written with the decimals
    of a step. -/
def sentAmount (common : VkCommon) (format : OrderFormat) (step amount : Double) : Option Rat :=
  Decimal.value? (format.formatDouble (precision common format step) amount)

variable (common) in
theorem readOrder_toJson (hnames : format.NamesEnums) (hrounds : format.Rounds) (order : Order) :
    ∃ qty, sentAmount common format order.qtyStep order.qty = some qty ∧
      readOrder (order.toJson common format) = some {
        category := order.category
        symbol := order.symbol
        side := order.side
        orderType := order.orderType
        qty := qty
        price := if order.orderType = .Limit then
            sentAmount common format order.priceStep order.price
          else none
        positionIdx := order.positionIdx
        orderLinkId := order.orderLinkId } := by
  obtain ⟨hcategory, hsymbol, hside, htype, hidx, hlink⟩ :=
    text?_toJson common hnames order
  obtain ⟨hqty, hprice⟩ := amounts_toJson common format order
  obtain ⟨n, -, hvalue⟩ := hrounds (precision common format order.qtyStep) order.qty
  refine ⟨_, hvalue, ?_⟩
  simp only [readOrder, hcategory, hsymbol, hside, htype, hidx, hqty, hprice, hlink, hvalue,
    Option.bind_eq_bind, Option.bind_some, Category.enumCast?_enumName, Side.enumCast?_enumName,
    OrderType.enumCast?_enumName]
  by_cases hlimit : order.orderType = .Limit
  · simp [hlimit, sentAmount]
  · simp [hlimit]

end Order

end BybitApi
