import BybitApi.ClosePositions
import BybitApi.Replies

/-!
# Orders written and read back

`OrderResponse::toJson` writes an order that the exchange has reported, and
`OrderResponse::fromJson` reads one.  Of the 24 fields, the amounts are written by
`std::to_string`, with six decimals, so `decode_toJson_iff` holds an order to be read back
as it was exactly when six decimals are enough for each of them.  The amounts are the
decimals themselves here, not the `double`s next to them.
-/

namespace BybitApi

/-- An object made by assignments to its members, in order. -/
def Json.ofAssignments (assignments : List (String × Json)) : Json :=
  .object (assignments.foldl (fun members member => Json.setMember member.1 member.2 members) [])

theorem Json.find?_ofAssignments {assignments : List (String × Json)}
    (hkeys : (assignments.map Prod.fst).Nodup) :
    ∀ member ∈ assignments, (ofAssignments assignments).find? member.1 = some member.2 := by
  induction assignments using List.reverseRecOn with
  | nil => simp
  | append_singleton assignments last ih =>
      rw [List.map_append, List.nodup_append] at hkeys
      obtain ⟨hnodup, -, hlast⟩ := hkeys
      intro member hmember
      rw [ofAssignments, List.foldl_append, List.foldl_cons, List.foldl_nil, find?,
        lookup_setMember]
      rcases List.mem_append.mp hmember with hbefore | hlastMember
      · have hne : member.1 ≠ last.1 :=
          hlast member.1 (List.mem_map_of_mem hbefore) last.1 (by simp)
        rw [if_neg hne]
        exact ih hnodup member hbefore
      · obtain rfl := List.mem_singleton.mp hlastMember
        rw [if_pos rfl]

namespace OrderResponse

/-- The assignments of `OrderResponse::toJson`, in order. -/
def assignments (format : OrderFormat) (order : OrderResponse) : List (String × Json) :=
  [("orderId", .string order.orderId),
   ("orderLinkId", .string order.orderLinkId),
   ("symbol", .string order.symbol),
   ("side", format.enumJson order.side.enumName),
   ("price", .string (toStringDouble order.price)),
   ("qty", .string (toStringDouble order.qty)),
   ("positionIdx", .integer order.positionIdx),
   ("orderStatus", format.enumJson order.orderStatus.enumName),
   ("rejectReason", .string order.rejectReason),
   ("cumExecQty", .string (toStringDouble order.cumExecQty)),
   ("cumExecValue", .string (toStringDouble order.cumExecValue)),
   ("cumExecFee", .string (toStringDouble order.cumExecFee)),
   ("avgPrice", .string (toStringDouble order.avgPrice)),
   ("timeInForce", format.enumJson order.timeInForce.enumName),
   ("orderType", format.enumJson order.orderType.enumName),
   ("reduceOnly", .bool order.reduceOnly),
   ("closeOnTrigger", .bool order.closeOnTrigger),
   ("lastPriceOnCreated", .string (toStringDouble order.lastPriceOnCreated)),
   ("createdTime", .string order.createdTime),
   ("updatedTime", .string order.updatedTime),
   ("takeProfit", .string (toStringDouble order.takeProfit)),
   ("stopLoss", .string (toStringDouble order.stopLoss)),
   ("tpTriggerBy", format.enumJson order.tpTriggerBy.enumName),
   ("slTriggerBy", format.enumJson order.slTriggerBy.enumName)]

def toJson (format : OrderFormat) (order : OrderResponse) : Json :=
  .ofAssignments (order.assignments format)

/-- The fields that are written by `std::to_string`. -/
def amounts (order : OrderResponse) : List Double :=
  [order.price, order.qty, order.avgPrice, order.cumExecQty, order.cumExecValue,
   order.cumExecFee, order.lastPriceOnCreated, order.takeProfit, order.stopLoss]

end OrderResponse

/-- `readMagicEnum` reads the name of an enumerator. -/
def ReplyReaders.ReadsEnums (readers : ReplyReaders) : Prop :=
  ∀ {α : Type} (enumCast? : String → Option α) {json key name value} (current : α),
    json.find? key = some (.string name) → enumCast? name = some value →
      readers.readMagicEnum enumCast? json key current = .ok value

theorem ReplyReaders.documented_readsEnums (number : Json → Option Double) :
    (documented number).ReadsEnums := by
  intro α enumCast? json key name value current hfind hcast
  simp [documented, BybitApi.readMagicEnum, hfind, hcast]

/-! ### Amounts -/

/-- The amount that is read where one was written by `std::to_string`. -/
def reread (amount : Double) : Double := (Decimal.value? (toStringDouble amount)).getD 0

theorem value?_toStringDouble (amount : Double) :
    Decimal.value? (toStringDouble amount) = some (reread amount) := by
  rw [reread, toStringDouble, Decimal.value?_printed, Option.getD_some]

/-- Six decimals are enough, or the amount is changed. -/
theorem reread_eq_iff (amount : Double) : reread amount = amount ↔ Decimal.Scales 6 amount := by
  rw [reread, toStringDouble, Decimal.value?_printed, Option.getD_some]
  exact (Decimal.isRounding_nearestSigned _).div_eq_iff

namespace OrderResponse

/-- The order with its amounts as they are read back. -/
def rereadAmounts (order : OrderResponse) : OrderResponse :=
  { order with
    price := reread order.price
    qty := reread order.qty
    avgPrice := reread order.avgPrice
    cumExecQty := reread order.cumExecQty
    cumExecValue := reread order.cumExecValue
    cumExecFee := reread order.cumExecFee
    lastPriceOnCreated := reread order.lastPriceOnCreated
    takeProfit := reread order.takeProfit
    stopLoss := reread order.stopLoss }

theorem rereadAmounts_eq_iff (order : OrderResponse) :
    order.rereadAmounts = order ↔ ∀ amount ∈ order.amounts, Decimal.Scales 6 amount := by
  simp only [amounts, List.forall_mem_cons, List.not_mem_nil, false_implies, implies_true, and_true,
    ← reread_eq_iff]
  obtain ⟨⟩ := order
  simp [rereadAmounts]

theorem nodup_keys (format : OrderFormat) (order : OrderResponse) :
    ((order.assignments format).map Prod.fst).Nodup := by
  show ["orderId", "orderLinkId", "symbol", "side", "price", "qty", "positionIdx", "orderStatus",
    "rejectReason", "cumExecQty", "cumExecValue", "cumExecFee", "avgPrice", "timeInForce",
    "orderType", "reduceOnly", "closeOnTrigger", "lastPriceOnCreated", "createdTime",
    "updatedTime", "takeProfit", "stopLoss", "tpTriggerBy", "slTriggerBy"].Nodup
  decide +kernel

/-- What is read back: everything but the amounts is as it was. -/
theorem fromJson_toJson {common : VkCommon} {readers : ReplyReaders} {format : OrderFormat}
    (hstrings : common.ReadsStrings) (hnumbers : common.ReadsNumbers sizeNumber)
    (hints : common.ReadsIntegers) (hbools : common.ReadsBools) (henums : readers.ReadsEnums)
    (hnames : format.NamesEnums) {order : OrderResponse} (hindex : IsInt64 order.positionIdx) :
    fromJson common readers (order.toJson format) = .ok order.rereadAmounts := by
  have hfind : ∀ member ∈ order.assignments format,
      (order.toJson format).find? member.1 = some member.2 :=
    Json.find?_ofAssignments (order.nodup_keys format)
  generalize order.toJson format = json at hfind ⊢
  simp only [assignments, hnames _, List.forall_mem_cons] at hfind
  obtain ⟨horderId, horderLinkId, hsymbol, hside, hprice, hqty, hpositionIdx, horderStatus,
    hrejectReason, hcumExecQty, hcumExecValue, hcumExecFee, havgPrice, htimeInForce, horderType,
    hreduceOnly, hcloseOnTrigger, hlastPrice, hcreatedTime, hupdatedTime, htakeProfit, hstopLoss,
    htpTriggerBy, hslTriggerBy, -⟩ := hfind
  have hamount : ∀ {json : Json} {key : String} {amount : Double},
      json.find? key = some (.string (toStringDouble amount)) →
        common.readStringAsDouble json key 0 = .ok (reread amount) := by
    intro json key amount hkey
    exact hnumbers.present 0 hkey (value?_toStringDouble amount)
  simp only [fromJson, hstrings.present _ horderId, hstrings.present _ horderLinkId,
    hstrings.present _ hsymbol, henums _ _ hside (Side.enumCast?_enumName _), hamount hprice,
    hamount hqty, hints _ hpositionIdx hindex,
    henums _ _ horderStatus (OrderStatus.enumCast?_enumName _),
    hstrings.present _ hrejectReason, hamount havgPrice, hamount hcumExecQty,
    hamount hcumExecValue, hamount hcumExecFee,
    henums _ _ htimeInForce (TimeInForce.enumCast?_enumName _),
    henums _ _ horderType (OrderType.enumCast?_enumName _), hbools _ hreduceOnly,
    hbools _ hcloseOnTrigger, hamount hlastPrice, hstrings.present _ hcreatedTime,
    hstrings.present _ hupdatedTime, hamount htakeProfit, hamount hstopLoss,
    henums _ _ htpTriggerBy (TriggerPriceType.enumCast?_enumName _),
    henums _ _ hslTriggerBy (TriggerPriceType.enumCast?_enumName _), bind, Except.bind]
  rfl

/-- **Orders that survive.**  An order is read back from its own JSON as it was, in all its
    fields, if and only if six decimals are enough for each of its amounts. -/
theorem decode_toJson_iff {common : VkCommon} {readers : ReplyReaders} {format : OrderFormat}
    (hstrings : common.ReadsStrings) (hnumbers : common.ReadsNumbers sizeNumber)
    (hints : common.ReadsIntegers) (hbools : common.ReadsBools) (henums : readers.ReadsEnums)
    (hnames : format.NamesEnums) {order : OrderResponse} (hindex : IsInt64 order.positionIdx) :
    fromJson common readers (order.toJson format) = .ok order ↔
      ∀ amount ∈ order.amounts, Decimal.Scales 6 amount := by
  rw [fromJson_toJson hstrings hnumbers hints hbools henums hnames hindex, Except.ok.injEq,
    rereadAmounts_eq_iff]

/-- An order over a quantity with six decimals. -/
def millionth : OrderResponse :=
  { orderId := "1", symbol := "SHIBUSDT", side := .Sell, orderType := .Limit, qty := 1 / 10 ^ 6 }

theorem decode_toJson_iff_millionth :
    fromJson (.documented sizeNumber) (.documented sizeNumber) (millionth.toJson .documented) =
      .ok millionth := by
  have hindex : IsInt64 millionth.positionIdx := by decide
  refine (decode_toJson_iff (VkCommon.documented_readsStrings _)
    (VkCommon.documented_readsNumbers _) (VkCommon.documented_readsIntegers _)
    (VkCommon.documented_readsBools _) (ReplyReaders.documented_readsEnums _)
    OrderFormat.documented_namesEnums hindex).mpr ?_
  have hzero : Decimal.Scales 6 0 := ⟨0, by simp⟩
  have hqty : Decimal.Scales 6 (1 / 10 ^ 6) := ⟨1, by norm_num⟩
  simp only [amounts, millionth, List.forall_mem_cons, hzero, hqty, true_and]
  simp

/-- **A lost quantity.**  An order that the exchange has reported can come back with another
    quantity. -/
theorem ten_millionth_is_lost :
    ¬ ∀ (common : VkCommon) (readers : ReplyReaders) (format : OrderFormat),
      common.ReadsStrings → common.ReadsNumbers sizeNumber → common.ReadsIntegers →
        common.ReadsBools → readers.ReadsEnums → format.NamesEnums →
          ∀ (json : Json) (order : OrderResponse), fromJson common readers json = .ok order →
            fromJson common readers (order.toJson format) = .ok order := by
  intro h
  have hvalue : Decimal.value? "0.0000001" = some (1 / 10 ^ 7) := by decide +kernel
  have hreceived : fromJson (.documented sizeNumber) (.documented sizeNumber)
      (.object [("qty", .string "0.0000001")]) = .ok { qty := 1 / 10 ^ 7 } := by
    simp [fromJson, VkCommon.documented, ReplyReaders.documented, BybitApi.readMagicEnum,
      Json.find?, List.lookup, sizeNumber, hvalue, bind, Except.bind, pure, Except.pure]
  have hreread := h (.documented sizeNumber) (.documented sizeNumber) .documented
    (VkCommon.documented_readsStrings _) (VkCommon.documented_readsNumbers _)
    (VkCommon.documented_readsIntegers _) (VkCommon.documented_readsBools _)
    (ReplyReaders.documented_readsEnums _) OrderFormat.documented_namesEnums _ _ hreceived
  rw [fromJson_toJson (VkCommon.documented_readsStrings _) (VkCommon.documented_readsNumbers _)
    (VkCommon.documented_readsIntegers _) (VkCommon.documented_readsBools _)
    (ReplyReaders.documented_readsEnums _) OrderFormat.documented_namesEnums (by decide),
    Except.ok.injEq, rereadAmounts_eq_iff] at hreread
  obtain ⟨n, hn⟩ := hreread (1 / 10 ^ 7) (by simp [amounts])
  have htenth : (1 : Rat) = (10 * n : Int) := by
    push_cast
    rw [← hn]
    norm_num
  have hint : (1 : Int) = 10 * n := by exact_mod_cast htenth
  omega

end OrderResponse

end BybitApi
