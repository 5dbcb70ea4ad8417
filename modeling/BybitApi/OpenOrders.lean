import BybitApi.Machine
import BybitApi.Orders

/-!
# Open orders

An exchange keeps a book of open orders.  It cancels the orders that have every
identifier of a request, and rejects a request without one.  `cancelOrder` puts
the order identifier where the user's own identifier belongs, so it does what it
is asked to exactly when no user's identifier is given, when the two are the same,
or when the book has no order that makes a difference (`cancels_named_iff`).
`getOpenOrder` names the same order right.
-/

namespace BybitApi

structure OpenOrder where
  category : Category
  symbol : String
  orderId : String
  orderLinkId : String
deriving DecidableEq, Repr

/-- The order that a caller names; an empty identifier is none. -/
def Named (category : Category) (symbol orderId orderLinkId : String) (order : OpenOrder) :
    Prop :=
  order.category = category ∧ order.symbol = symbol ∧
    (orderId ≠ "" → order.orderId = orderId) ∧
    (orderLinkId ≠ "" → order.orderLinkId = orderLinkId)

instance (category : Category) (symbol orderId orderLinkId : String) (order : OpenOrder) :
    Decidable (Named category symbol orderId orderLinkId order) :=
  inferInstanceAs (Decidable (_ ∧ _ ∧ (_ → _) ∧ (_ → _)))

/-! ### The exchange -/

/-- The order that the exchange opens for a JSON, under an identifier of its own. -/
def openedOrder (orderId : String) (json : Json) : Option OpenOrder := do
  let category ← Category.enumCast? (← json.text? "category")
  let symbol ← json.text? "symbol"
  return { category, symbol, orderId, orderLinkId := (json.text? "orderLinkId").getD "" }

/-- A request names an order by all identifiers in it that are not empty. -/
def requested? (json : Json) (order : OpenOrder) : Bool :=
  match (json.text? "category").bind Category.enumCast?, json.text? "symbol" with
  | some category, some symbol =>
      Named category symbol ((json.text? "orderId").getD "") ((json.text? "orderLinkId").getD "")
        order
  | _, _ => false

/-- The book after a cancel request. -/
def cancelled (book : List OpenOrder) (json : Json) : List OpenOrder :=
  if (json.text? "orderId").getD "" = "" ∧ (json.text? "orderLinkId").getD "" = "" then book
  else book.filter fun order => !requested? json order

/-- The open orders that the exchange lists for a query. -/
def listedOrders (book : List OpenOrder) (parameters : Parameters) : List OpenOrder :=
  book.filter (requested? (.ofParameters parameters))

/-! ### Calls -/

/-- A call of the client, with what the exchange makes of it: it may open the order
    placed under an identifier of its own. -/
inductive OrderCall where
  | placeOrder (order : Order) (steps : Double × Double) (orderId : Option String)
  | cancelOrder (category : Category) (symbol orderId orderLinkId : String)

namespace OrderCall

section Step

variable (common : VkCommon) (format : OrderFormat)

/-- The book after a call. -/
def step (book : List OpenOrder) : OrderCall → Option (List OpenOrder)
  | .placeOrder _ _ none => some book
  | .placeOrder order steps (some orderId) =>
      if orderId = "" ∨ orderId ∈ book.map OpenOrder.orderId then none
      else (openedOrder orderId ((order.withSteps steps).toJson common format)).map
        fun order => book ++ [order]
  | .cancelOrder category symbol orderId orderLinkId =>
      some (cancelled book
        (.ofParameters (cancelOrderParameters category symbol orderId orderLinkId)))

end Step

/-- A cancel that names an order removes this order and no other. -/
def CancelsNamed (book : List OpenOrder) : OrderCall → Prop
  | .placeOrder .. => True
  | .cancelOrder category symbol orderId orderLinkId =>
      orderId ≠ "" ∨ orderLinkId ≠ "" →
        cancelled book
            (.ofParameters (cancelOrderParameters category symbol orderId orderLinkId)) =
          book.filter fun order => !decide (Named category symbol orderId orderLinkId order)

/-- A cancel with the exchange's identifier names at most one order. -/
def NamesOne (book : List OpenOrder) : OrderCall → Prop
  | .placeOrder .. => True
  | .cancelOrder category symbol orderId orderLinkId =>
      orderId ≠ "" → ∀ order ∈ book, Named category symbol orderId orderLinkId order →
        ∀ order' ∈ book, Named category symbol orderId orderLinkId order' → order' = order

/-- A cancel gives no identifier of the user's, or the same as the exchange's, or
    meets no order to which it makes a difference. -/
def RightlyNamed (book : List OpenOrder) : OrderCall → Prop
  | .placeOrder .. => True
  | .cancelOrder category symbol orderId orderLinkId =>
      orderLinkId = "" ∨ orderLinkId = orderId ∨
        ∀ order ∈ book, Named category symbol orderId "" order →
          order.orderLinkId ≠ orderLinkId ∧ (orderId ≠ "" → order.orderLinkId ≠ orderId)

end OrderCall

/-! ### What requests say -/

section Requests

variable {category : Category} {symbol orderId orderLinkId : String}

/-- What the exchange finds in a cancel request: the user's identifier is the order
    identifier again. -/
theorem text?_cancelOrder :
    let json := Json.ofParameters (cancelOrderParameters category symbol orderId orderLinkId)
    json.text? "category" = some category.enumName ∧ json.text? "symbol" = some symbol ∧
      (json.text? "orderId").getD "" = orderId ∧
      (json.text? "orderLinkId").getD "" = if orderLinkId = "" then "" else orderId := by
  simp only [Json.text?_ofParameters, cancelOrderParameters]
  by_cases hid : orderId = "" <;> by_cases hlink : orderLinkId = "" <;>
    simp only [hid, hlink, ne_eq, not_true_eq_false, not_false_eq_true, if_true, if_false,
      getElem?_insert_text] <;> simp

theorem requested?_cancelOrder (order : OpenOrder) :
    requested? (.ofParameters (cancelOrderParameters category symbol orderId orderLinkId)) order =
      decide (Named category symbol orderId (if orderLinkId = "" then "" else orderId) order) := by
  obtain ⟨hcategory, hsymbol, hid, hlink⟩ : _ ∧ _ ∧ _ ∧ _ :=
    @text?_cancelOrder category symbol orderId orderLinkId
  simp only [requested?, hcategory, hsymbol, hid, hlink, Option.bind_some,
    Category.enumCast?_enumName]

theorem text?_openOrder :
    let json := Json.ofParameters (openOrderParameters category symbol orderId orderLinkId)
    json.text? "category" = some category.enumName ∧ json.text? "symbol" = some symbol ∧
      json.text? "orderId" = some orderId ∧ json.text? "orderLinkId" = some orderLinkId := by
  simp only [Json.text?_ofParameters, openOrderParameters, getElem?_insert_text]
  simp

/-- `getOpenOrder` finds the order that the caller names. -/
theorem getOpenOrder_named (book : List OpenOrder) (category : Category)
    (symbol orderId orderLinkId : String) :
    getOpenOrder (fun parameters => .ok (listedOrders book parameters)) category symbol orderId
        orderLinkId =
      .ok (book.find? fun order => Named category symbol orderId orderLinkId order) := by
  obtain ⟨hcategory, hsymbol, hid, hlink⟩ : _ ∧ _ ∧ _ ∧ _ :=
    @text?_openOrder category symbol orderId orderLinkId
  have hrequested : requested?
      (.ofParameters (openOrderParameters category symbol orderId orderLinkId)) =
        fun order => decide (Named category symbol orderId orderLinkId order) := by
    funext order
    simp only [requested?, hcategory, hsymbol, hid, hlink, Option.bind_some, Option.getD_some,
      Category.enumCast?_enumName]
  have hhead : (book.filter fun order => Named category symbol orderId orderLinkId order).head? =
      book.find? fun order => Named category symbol orderId orderLinkId order :=
    List.head?_filter
  simp only [getOpenOrder, listedOrders, hrequested]
  exact congrArg Except.ok hhead

end Requests

/-! ### Which cancels are right -/

theorem filter_eq_filter_iff {α : Type} {p q : α → Bool} {items : List α} :
    items.filter p = items.filter q ↔ ∀ x ∈ items, p x = q x := by
  constructor
  · intro h x hx
    have hmem : x ∈ items.filter p ↔ x ∈ items.filter q := by rw [h]
    rw [List.mem_filter, List.mem_filter, and_iff_right hx, and_iff_right hx] at hmem
    exact Bool.eq_iff_iff.mpr hmem
  · exact List.filter_congr

theorem named_iff {category : Category} {symbol orderId orderLinkId : String} {order : OpenOrder} :
    Named category symbol orderId orderLinkId order ↔
      Named category symbol orderId "" order ∧
        (orderLinkId ≠ "" → order.orderLinkId = orderLinkId) := by
  unfold Named
  simp only [ne_eq, not_true_eq_false, false_implies, and_true, and_assoc]

namespace OrderCall

section Cancel

variable {category : Category} {symbol orderId orderLinkId : String} {book : List OpenOrder}

/-- Without a user's identifier, or with the same, the request names what the caller
    does. -/
theorem cancelled_of_same (hgiven : orderId ≠ "" ∨ orderLinkId ≠ "")
    (h : orderLinkId = "" ∨ orderLinkId = orderId) :
    cancelled book (.ofParameters (cancelOrderParameters category symbol orderId orderLinkId)) =
      book.filter fun order => !decide (Named category symbol orderId orderLinkId order) := by
  obtain ⟨-, -, hid, hlink⟩ : _ ∧ _ ∧ _ ∧ _ :=
    @text?_cancelOrder category symbol orderId orderLinkId
  have hsame : (if orderLinkId = "" then "" else orderId) = orderLinkId := by
    rcases h with rfl | rfl
    · rfl
    · split
      · next hnone => exact hnone.symm
      · rfl
  have hidentified : ¬ (orderId = "" ∧ orderLinkId = "") := by
    rintro ⟨hnone, hnone'⟩
    exact hgiven.elim (fun hne => hne hnone) (fun hne => hne hnone')
  simp only [cancelled, hid, hlink, hsame, if_neg hidentified, requested?_cancelOrder]

/-- By the user's identifier alone nothing is cancelled. -/
theorem cancelled_of_linkAlone (category : Category) (symbol orderLinkId : String)
    (book : List OpenOrder) :
    cancelled book (.ofParameters (cancelOrderParameters category symbol "" orderLinkId)) =
      book := by
  obtain ⟨-, -, hid, hlink⟩ : _ ∧ _ ∧ _ ∧ _ := @text?_cancelOrder category symbol "" orderLinkId
  rw [cancelled, if_pos]
  refine ⟨hid, ?_⟩
  rw [hlink, ite_self]

theorem cancelled_of_both (hid : orderId ≠ "") (hlink : orderLinkId ≠ "") :
    cancelled book (.ofParameters (cancelOrderParameters category symbol orderId orderLinkId)) =
      book.filter fun order => !decide (Named category symbol orderId orderId order) := by
  obtain ⟨-, -, hid', -⟩ : _ ∧ _ ∧ _ ∧ _ := @text?_cancelOrder category symbol orderId orderLinkId
  have hidentified : ∀ text : String, ¬ (orderId = "" ∧ text = "") := fun _ h => hid h.1
  simp only [cancelled, hid', if_neg (hidentified _), requested?_cancelOrder, if_neg hlink]

theorem cancelsNamed_iff (call : OrderCall) : CancelsNamed book call ↔ RightlyNamed book call := by
  cases call with
  | placeOrder order steps answer => exact Iff.rfl
  | cancelOrder category symbol orderId orderLinkId =>
      simp only [CancelsNamed, RightlyNamed]
      by_cases hsame : orderLinkId = "" ∨ orderLinkId = orderId
      · constructor
        · intro _
          rcases hsame with hnone | heq
          · exact Or.inl hnone
          · exact Or.inr (Or.inl heq)
        · intro _ hgiven
          exact cancelled_of_same hgiven hsame
      · obtain ⟨hlink, hne⟩ := not_or.mp hsame
        rw [imp_iff_right (Or.inr hlink), or_iff_right hlink, or_iff_right hne]
        by_cases hid : orderId = ""
        · -- the request names nothing and is rejected
          subst hid
          rw [cancelled_of_linkAlone, eq_comm, List.filter_eq_self]
          apply forall_congr'
          intro order
          apply forall_congr'
          intro _
          rw [Bool.not_eq_true', decide_eq_false_iff_not, named_iff]
          simp [hlink]
        · -- the request asks for an order whose user's identifier is the order identifier
          rw [cancelled_of_both hid hlink, filter_eq_filter_iff]
          apply forall_congr'
          intro order
          apply forall_congr'
          intro _
          rw [Bool.not_inj_iff, decide_eq_decide, @named_iff category symbol orderId orderId,
            @named_iff category symbol orderId orderLinkId]
          simp only [hid, hlink, ne_eq, not_false_eq_true, true_implies]
          by_cases hnamed : Named category symbol orderId "" order
          · by_cases hfirst : order.orderLinkId = orderId
            · have hother : ¬ orderId = orderLinkId := fun h => hne h.symm
              simp [hnamed, hfirst, hother]
            · simp [hnamed, hfirst, eq_comm]
          · simp [hnamed]

end Cancel

/-! ### Runs -/

section Runs

variable {common : VkCommon} {format : OrderFormat}

variable (common) in
/-- An order is opened under the identifier that its user gave it. -/
theorem openedOrder_toJson (hnames : format.NamesEnums) (order : Order) (orderId : String) :
    openedOrder orderId (order.toJson common format) =
      some {
        category := order.category
        symbol := order.symbol
        orderId
        orderLinkId := order.orderLinkId } := by
  obtain ⟨hcategory, hsymbol, -, -, -, hlink⟩ :=
    Order.text?_toJson common hnames order
  simp only [openedOrder, hcategory, hsymbol, hlink, Option.bind_eq_bind, Option.bind_some,
    Category.enumCast?_enumName]
  rfl

theorem orderId_of_openedOrder {orderId : String} {json : Json} {order : OpenOrder}
    (h : openedOrder orderId json = some order) : order.orderId = orderId := by
  simp only [openedOrder, Option.bind_eq_bind, Option.bind_eq_some_iff, Option.pure_def,
    Option.some.injEq] at h
  obtain ⟨_, -, _, -, _, -, rfl⟩ := h
  rfl

/-- No two open orders have the same identifier. -/
def UniqueIds (book : List OpenOrder) : Prop := (book.map OpenOrder.orderId).Nodup

theorem UniqueIds.step {book next : List OpenOrder} {call : OrderCall} (h : UniqueIds book)
    (hstep : step common format book call = some next) : UniqueIds next := by
  have hsublist : ∀ {kept : List OpenOrder}, kept.Sublist book → UniqueIds kept := by
    intro kept hkept
    exact h.sublist (hkept.map _)
  cases call with
  | placeOrder order steps answer =>
      cases answer with
      | none =>
          obtain rfl := Option.some.inj hstep
          exact h
      | some orderId =>
          simp only [OrderCall.step, Option.ite_none_left_eq_some, Option.map_eq_some_iff] at hstep
          obtain ⟨hfresh, new, hnew, rfl⟩ := hstep
          rw [UniqueIds, List.map_append, List.map_singleton, orderId_of_openedOrder hnew]
          apply h.append (List.nodup_singleton _)
          rw [List.disjoint_singleton]
          exact (not_or.mp hfresh).2
  | cancelOrder category symbol orderId orderLinkId =>
      obtain rfl := Option.some.inj hstep
      unfold cancelled
      split
      · exact h
      · exact hsublist List.filter_sublist

theorem UniqueIds.namesOne {book : List OpenOrder} (h : UniqueIds book) (call : OrderCall) :
    NamesOne book call := by
  cases call with
  | placeOrder order steps answer => trivial
  | cancelOrder category symbol orderId orderLinkId =>
      intro hid order horder hnamed order' horder' hnamed'
      apply List.inj_on_of_nodup_map h horder' horder
      rw [hnamed.2.2.1 hid, hnamed'.2.2.1 hid]

/-- **Exactly when cancels remove what is named.**  In every run the cancels remove the
    order named, and no other, if and only if each gives no user's identifier or the
    same as the exchange's, or meets no order to which it makes a difference. -/
theorem cancels_named_iff {book : List OpenOrder} (hbook : UniqueIds book)
    (calls : List OrderCall) :
    (Machine.Along (step common format) CancelsNamed book calls ↔
        Machine.Along (step common format) RightlyNamed book calls) ∧
      Machine.Along (step common format) NamesOne book calls := by
  have hcond : CancelsNamed = RightlyNamed := by
    funext book call
    exact propext (cancelsNamed_iff call)
  have hunique : Machine.Throughout (step common format) UniqueIds book calls :=
    Machine.throughout_of_invariant (fun _ _ _ h hstep => h.step hstep) (fun _ h => h) hbook calls
  constructor
  · rw [hcond]
  · exact hunique.along fun _ call h => h.namesOne call

end Runs

/-- An order that its user calls `mine`, and how the exchange keeps it. -/
def linkedOrder : Order where
  symbol := "BTCUSDT"
  qty := 1
  orderLinkId := "mine"

def linkedOpen : OpenOrder where
  category := .linear
  symbol := "BTCUSDT"
  orderId := "1"
  orderLinkId := "mine"

theorem cancels_named_iff_byOrderId :
    Machine.Along (step (.documented fun _ => none) .documented) CancelsNamed []
      [.placeOrder linkedOrder (1, 1) (some "1"), .cancelOrder .linear "BTCUSDT" "1" ""] := by
  have hrightly : Machine.Along (step (.documented fun _ => none) .documented) RightlyNamed []
      [.placeOrder linkedOrder (1, 1) (some "1"), .cancelOrder .linear "BTCUSDT" "1" ""] :=
    ⟨trivial, fun _ _ => ⟨Or.inl rfl, fun _ _ => trivial⟩⟩
  have hempty : UniqueIds [] := List.nodup_nil
  exact (cancels_named_iff hempty _).1.mpr hrightly

/-- An order placed under a user's identifier can be looked up by it, but not
    cancelled, neither by it alone nor by both identifiers. -/
theorem cancel_by_link_fails :
    step (.documented fun _ => none) .documented [] (.placeOrder linkedOrder (1, 1) (some "1")) =
        some [linkedOpen] ∧
      getOpenOrder (fun parameters => .ok (listedOrders [linkedOpen] parameters)) .linear
        "BTCUSDT" "" "mine" = .ok (some linkedOpen) ∧
      ¬ CancelsNamed [linkedOpen] (.cancelOrder .linear "BTCUSDT" "" "mine") ∧
      ¬ CancelsNamed [linkedOpen] (.cancelOrder .linear "BTCUSDT" "1" "mine") := by
  refine ⟨?_, ?_, ?_, ?_⟩
  · have hopened := openedOrder_toJson (.documented fun _ => none)
      OrderFormat.documented_namesEnums (linkedOrder.withSteps (1, 1)) "1"
    simp only [step, hopened]
    rfl
  · rw [getOpenOrder_named]
    exact congrArg Except.ok (by decide)
  · intro hnamed
    have hremoved := hnamed (Or.inr (by decide))
    rw [cancelled_of_linkAlone] at hremoved
    exact absurd hremoved (by decide)
  · intro hnamed
    have hremoved := hnamed (Or.inl (by decide))
    rw [cancelled_of_both (by decide) (by decide)] at hremoved
    exact absurd hremoved (by decide)

end OrderCall

end BybitApi
