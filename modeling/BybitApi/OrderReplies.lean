import BybitApi.OpenOrders
import BybitApi.PositionMode
import BybitApi.ReplyContents

/-!
# Orders and their replies

The calls that place, look up and cancel orders, from their replies on; what the exchange
finds in their requests, and what the client makes of a reply that confirms, that refuses,
or that does not come.  `cancelOrder` removes no order but the one whose identifier it is
given (`cancelled_of_removed`).
-/

namespace BybitApi

open Decoding

section Source

variable (text : JsonText) (common : VkCommon) (readers : ReplyReaders)

namespace RESTClient

/-- `RESTClient::placeOrder`, from the reply on; `post` answers the requests by path and
    payload. -/
def placeOrder (post : String → Json → Except String HttpResponse) (format : OrderFormat)
    (endpoint : Endpoint Instruments) (fuel : Nat) (s : OrderClient) (order : Order) :
    Option (Except ApiError OrderId × OrderClient) :=
  BybitApi.placeOrder common format endpoint
    (fun _ json => replyAs text common readers .OrderId (post "/v5/order/create" json)) fuel s order

section Cancel

-- `post` answers in the monad of whoever is asked.
variable {m : Type → Type} [Monad m] (post : String → Json → m (Except String HttpResponse))

/-- `RESTClient::cancelOrder`, with its reply. -/
def cancelOrder (category : Category) (symbol orderId orderLinkId : String) :
    m (Except ApiError OrderId) := do
  let reply ← post "/v5/order/cancel"
    (.ofParameters (cancelOrderParameters category symbol orderId orderLinkId))
  return replyAs text common readers .OrderId reply

/-- What `RESTClient::cancelAllOrders` posts to `/v5/order/cancel-all`. -/
def cancelAllParameters (category : Category) (symbol : String) : Parameters :=
  let parameters := (∅ : Parameters).insert "category" category.enumName
  if symbol ≠ "" then parameters.insert "symbol" symbol else parameters

/-- What `RESTClient::cancelAllOrders` makes of the reply. -/
def allCancelled : Except String HttpResponse → Except ApiError (List OrderId)
  | .error what => .error (.transport what)
  | .ok response =>
      match checkResponse response with
      | .error e => .error e
      | .ok response =>
          match text.parse response.body with
          | .error fault => .error (.ofFault fault)
          | .ok json =>
              match BybitApi.cancelAllOrders common readers json with
              | .error fault => .error (.ofFault fault)
              | .ok result => result

def cancelAllOrders (category : Category) (symbol : String) :
    m (Except ApiError (List OrderId)) := do
  let reply ← post "/v5/order/cancel-all" (.ofParameters (cancelAllParameters category symbol))
  return allCancelled text common readers reply

end Cancel

/-- `RESTClient::getOpenOrder`, from the reply on, which it decodes twice; `get` answers the
    requests by path and query. -/
def getOpenOrder (get : String → Parameters → Except String HttpResponse)
    (category : Category) (symbol orderId orderLinkId : String) :
    Except ApiError (Option OrderResponse) :=
  BybitApi.getOpenOrder
    (fun parameters => do
      let response : OrdersResponse ← replyAs text common readers .OrdersResponse
        (get "/v5/order/realtime" parameters)
      return response.orders)
    category symbol orderId orderLinkId

end RESTClient

end Source

/-! ### The exchange -/

/-- The orders that are meant by a category and a symbol; an empty symbol is none. -/
def Covered (category : Category) (symbol : String) (order : OpenOrder) : Prop :=
  order.category = category ∧ (symbol ≠ "" → order.symbol = symbol)

instance (category : Category) (symbol : String) (order : OpenOrder) :
    Decidable (Covered category symbol order) :=
  inferInstanceAs (Decidable (_ ∧ (_ → _)))

/-- The exchange reads these in a request to cancel all orders. -/
def covered? (json : Json) (order : OpenOrder) : Bool :=
  match (json.text? "category").bind Category.enumCast? with
  | some category => Covered category ((json.text? "symbol").getD "") order
  | none => false

/-- The book after a request to cancel all orders. -/
def cancelledAll (book : List OpenOrder) (json : Json) : List OpenOrder :=
  book.filter fun order => !covered? json order

/-- The book after a request to cancel, by the path that it is posted to. -/
def cancelledAt (book : List OpenOrder) (path : String) (json : Json) : List OpenOrder :=
  if path = "/v5/order/cancel" then cancelled book json
  else if path = "/v5/order/cancel-all" then cancelledAll book json
  else book

/-- An exchange that a request to cancel reaches or not, with what comes back. -/
def cancelsAt (arrives : Bool) (reply : Except String HttpResponse) (path : String)
    (json : Json) : StateM (List OpenOrder) (Except String HttpResponse) := do
  if arrives then
    modify fun book => cancelledAt book path json
  return reply

section Asked

variable (text : JsonText) (common : VkCommon) (readers : ReplyReaders) (book : List OpenOrder)

/-- `cancelOrder` where the exchange has this book, with the book that is left. -/
def cancelOrderAt (category : Category) (symbol orderId orderLinkId : String) (arrives : Bool)
    (reply : Except String HttpResponse) : Except ApiError OrderId × List OpenOrder :=
  (RESTClient.cancelOrder text common readers (cancelsAt arrives reply) category symbol orderId
    orderLinkId).run book

/-- `cancelAllOrders` where the exchange has this book, with the book that is left. -/
def cancelAllAt (category : Category) (symbol : String) (arrives : Bool)
    (reply : Except String HttpResponse) : Except ApiError (List OrderId) × List OpenOrder :=
  (RESTClient.cancelAllOrders text common readers (cancelsAt arrives reply) category symbol).run
    book

theorem cancelOrderAt_eq (category : Category) (symbol orderId orderLinkId : String)
    (arrives : Bool) (reply : Except String HttpResponse) :
    cancelOrderAt text common readers book category symbol orderId orderLinkId arrives reply =
      (replyAs text common readers .OrderId reply,
        if arrives then cancelled book
          (.ofParameters (cancelOrderParameters category symbol orderId orderLinkId))
        else book) := by
  cases arrives <;> rfl

theorem cancelAllAt_eq (category : Category) (symbol : String) (arrives : Bool)
    (reply : Except String HttpResponse) :
    cancelAllAt text common readers book category symbol arrives reply =
      (RESTClient.allCancelled text common readers reply,
        if arrives then cancelledAll book
          (.ofParameters (RESTClient.cancelAllParameters category symbol))
        else book) := by
  cases arrives <;> rfl

end Asked

/-- What a change of the book has removed. -/
def removed (book left : List OpenOrder) : List OpenOrder :=
  book.filter fun order => order ∉ left

/-- The identifiers of an order, as they are returned. -/
def OpenOrder.toOrderId (order : OpenOrder) : OrderId where
  orderId := order.orderId
  orderLinkId := order.orderLinkId

/-! ### What comes back -/

section Answers

variable (text : JsonText) (common : VkCommon) (readers : ReplyReaders)

/-- A reply without an error that says this payload. -/
def Confirms (type : ReplyType) (reply : Except String HttpResponse) (payload : type.Payload) :
    Prop :=
  ∃ envelope, envelope.retCode = 0 ∧ ReplySays text common readers type reply envelope payload

/-- A reply with an error of the exchange. -/
def Refuses (type : ReplyType) (reply : Except String HttpResponse) : Prop :=
  ∃ envelope payload, envelope.retCode ≠ 0 ∧
    ReplySays text common readers type reply envelope payload

/-- No reply, one with a bad status, or one that is no JSON. -/
def Unheard (reply : Except String HttpResponse) : Prop :=
  IsLost reply ∨ ∃ response fault, reply = .ok response ∧ response.result = 200 ∧
    text.parse response.body = .error fault

/-- A row of the reply to `cancelAllOrders` names an order. -/
def NamedBy (row : Json) (order : OpenOrder) : Prop :=
  Says row [⟨.string "orderId", order.orderId⟩, ⟨.string "orderLinkId", order.orderLinkId⟩]

/-- A reply that lists these orders as cancelled. -/
def ListsCancelled (reply : Except String HttpResponse) (orders : List OpenOrder) : Prop :=
  ∃ envelope rows, envelope.retCode = 0 ∧
    ReplySays text common readers .Response reply envelope () ∧
      envelope.result.find? "list" = some (.array rows) ∧ List.Forall₂ NamedBy rows orders

end Answers

variable {text : JsonText} {common : VkCommon} {readers : ReplyReaders}

/-! ### What the client makes of a reply -/

theorem replyAs_of_confirms (hreads : ReadsReplies common readers) {type : ReplyType}
    {reply : Except String HttpResponse} {payload : type.Payload}
    (h : Confirms text common readers type reply payload) :
    replyAs text common readers type reply = .ok payload := by
  obtain ⟨envelope, hsuccess, hsaid⟩ := h
  rw [replyAs_of_said hreads hsaid, if_pos hsuccess]

theorem replyAs_of_refuses (hreads : ReadsReplies common readers) {type : ReplyType}
    {reply : Except String HttpResponse} (h : Refuses text common readers type reply) :
    ∃ retCode retMsg, replyAs text common readers type reply = .error (.api retCode retMsg) := by
  obtain ⟨envelope, payload, hfailure, hsaid⟩ := h
  exact ⟨_, _, (replyAs_of_said hreads hsaid).trans (if_neg hfailure)⟩

theorem replyAs_of_unheard (type : ReplyType) {reply : Except String HttpResponse}
    (h : Unheard text reply) :
    ∃ e, replyAs text common readers type reply = .error e ∧
      ∀ retCode retMsg, e ≠ .api retCode retMsg := by
  rcases h with (⟨what, rfl⟩ | ⟨response, rfl, hstatus⟩) | ⟨response, fault, rfl, hstatus, hparse⟩
  · exact ⟨_, rfl, by simp⟩
  · have hchecked : checkResponse response =
        .error (.badResponse response.result response.body) := if_pos hstatus
    refine ⟨.badResponse response.result response.body, ?_, by simp⟩
    simp only [replyAs, hchecked]
  · have hchecked : checkResponse response = .ok response := if_neg (not_not_intro hstatus)
    refine ⟨.ofFault fault, ?_, ofFault_ne_api fault⟩
    simp only [replyAs, hchecked, handleBybitResponse, hparse]

/-- The reply that `cancelAllOrders` decodes every identifier into is empty. -/
theorem fromJson_null (hreads : ReadsReplies common readers) :
    ∃ envelope, Response.fromJson common readers.instruments .null = .ok envelope := by
  have habsent : ∀ key, Json.null.find? key = none := fun _ => rfl
  have hcode := hreads.absentInt 0 (habsent "retCode")
  have hmsg := hreads.strings.absent "" (habsent "retMsg")
  have htime := hreads.absentInt64 0 (habsent "time")
  rw [Response.fromJson_eq]
  simp only [bind_eq_ok]
  exact ⟨_, _, hcode, _, hmsg, _, htime, rfl⟩

theorem cancelledOrderIds_of_named (hreads : ReadsReplies common readers) {result : Json}
    {rows : List Json} {orders : List OpenOrder}
    (hlist : result.find? "list" = some (.array rows)) (hrows : List.Forall₂ NamedBy rows orders) :
    cancelledOrderIds common readers result = .ok (orders.map OpenOrder.toOrderId) := by
  obtain ⟨envelope, henvelope⟩ := fromJson_null hreads
  have hindex : result.index "list" = .ok (.array rows) := Json.index_of_find? hlist
  have helements : List.Forall₂ (fun row id => (do
      let _oid ← Response.fromJson common readers.instruments .null
      OrderId.ofResult common row) = .ok id) rows (orders.map OpenOrder.toOrderId) := by
    rw [List.forall₂_map_right_iff]
    apply hrows.imp
    intro row order hnamed
    have hid : OrderId.ofResult common row = .ok order.toOrderId :=
      payload_of_said hreads .OrderId hnamed
    exact bind_eq_ok.mpr ⟨envelope, henvelope, hid⟩
  exact bind_eq_ok.mpr ⟨_, hindex, mapM_of_forall₂ helements⟩

section CancelAll

variable {reply : Except String HttpResponse}

theorem allCancelled_of_lists (hreads : ReadsReplies common readers) {orders : List OpenOrder}
    (h : ListsCancelled text common readers reply orders) :
    RESTClient.allCancelled text common readers reply =
      .ok (orders.map OpenOrder.toOrderId) := by
  obtain ⟨envelope, rows, hsuccess, ⟨response, json, rfl, hstatus, hparse, henvelope, hpayload⟩,
    hlist, hrows⟩ := h
  have hchecked : checkResponse response = .ok response := if_neg (not_not_intro hstatus)
  have hdecodes := reply_of_said hreads .Response henvelope hpayload
  have hids := cancelledOrderIds_of_named hreads hlist hrows
  simp only [RESTClient.allCancelled, hchecked, hparse, BybitApi.cancelAllOrders, hdecodes]
  simp [hsuccess, hids, bind, Except.bind, pure, Except.pure]

theorem allCancelled_of_refuses (hreads : ReadsReplies common readers)
    (h : Refuses text common readers .Response reply) :
    ∃ e, RESTClient.allCancelled text common readers reply = .error e := by
  obtain ⟨envelope, payload, hfailure, response, json, rfl, hstatus, hparse, henvelope,
    hpayload⟩ := h
  have hchecked : checkResponse response = .ok response := if_neg (not_not_intro hstatus)
  have hdecodes := reply_of_said hreads .Response henvelope hpayload
  refine ⟨.api envelope.retCode envelope.retMsg, ?_⟩
  simp only [RESTClient.allCancelled, hchecked, hparse, BybitApi.cancelAllOrders, hdecodes]
  simp [hfailure, bind, Except.bind, pure, Except.pure]

theorem allCancelled_of_unheard (h : Unheard text reply) :
    ∃ e, RESTClient.allCancelled text common readers reply = .error e := by
  rcases h with (⟨what, rfl⟩ | ⟨response, rfl, hstatus⟩) | ⟨response, fault, rfl, hstatus, hparse⟩
  · exact ⟨_, rfl⟩
  · have hchecked : checkResponse response =
        .error (.badResponse response.result response.body) := if_pos hstatus
    simp only [RESTClient.allCancelled, hchecked]
    exact ⟨_, rfl⟩
  · have hchecked : checkResponse response = .ok response := if_neg (not_not_intro hstatus)
    simp only [RESTClient.allCancelled, hchecked, hparse]
    exact ⟨_, rfl⟩

end CancelAll

/-- What `getOpenOrder` makes of the reply. -/
theorem getOpenOrder_eq (get : String → Parameters → Except String HttpResponse)
    (category : Category) (symbol orderLinkId : String) :
    RESTClient.getOpenOrder text common readers get category symbol "" orderLinkId =
      (replyAs text common readers .OrdersResponse (get "/v5/order/realtime"
        (openOrderParameters category symbol "" orderLinkId))).map
        fun page : OrdersResponse => page.orders.head? := by
  unfold RESTClient.getOpenOrder BybitApi.getOpenOrder
  cases hreply : replyAs text common readers .OrdersResponse (get "/v5/order/realtime"
      (openOrderParameters category symbol "" orderLinkId)) with
  | error e =>
      simp only [hreply]
      rfl
  | ok page =>
      simp only [hreply]
      rfl

/-! ### What the exchange makes of a request -/

section Exchange

variable {book : List OpenOrder} (category : Category) (symbol : String)

theorem covered?_cancelAll (order : OpenOrder) :
    covered? (.ofParameters (RESTClient.cancelAllParameters category symbol)) order =
      decide (Covered category symbol order) := by
  have hread : (RESTClient.cancelAllParameters category symbol)["category"]? =
        some category.enumName ∧
      ((RESTClient.cancelAllParameters category symbol)["symbol"]?).getD "" = symbol := by
    unfold RESTClient.cancelAllParameters
    by_cases hsymbol : symbol = "" <;>
      simp only [hsymbol, ne_eq, not_true_eq_false, not_false_eq_true, if_true, if_false,
        getElem?_insert_text] <;> simp
  obtain ⟨hcategory, hsymbol⟩ := hread
  simp only [covered?, Json.text?_ofParameters, hcategory, hsymbol, Option.bind_some,
    Category.enumCast?_enumName]

theorem mem_removed {left : List OpenOrder} {order : OpenOrder} :
    order ∈ removed book left ↔ order ∈ book ∧ order ∉ left := by
  simp [removed]

/-- What does not stay in a part of the book is removed. -/
theorem removed_filter (stays : OpenOrder → Bool) :
    removed book (book.filter stays) = book.filter fun order => !stays order := by
  apply List.filter_congr
  intro order horder
  simp [horder]

theorem cancelledAll_eq :
    cancelledAll book (.ofParameters (RESTClient.cancelAllParameters category symbol)) =
      book.filter fun order => ¬ Covered category symbol order := by
  simp only [cancelledAll, covered?_cancelAll, decide_not]

/-- A cancel removes orders with the identifier that is given only. -/
theorem cancelled_eq (orderId orderLinkId : String) :
    ∃ struck : OpenOrder → Bool,
      cancelled book (.ofParameters (cancelOrderParameters category symbol orderId orderLinkId)) =
        (book.filter fun order => !struck order) ∧
      ∀ order, struck order = true → order.orderId = orderId := by
  by_cases hid : orderId = ""
  · subst hid
    refine ⟨fun _ => false, ?_, fun _ h => by cases h⟩
    rw [OrderCall.cancelled_of_linkAlone]
    simp
  · obtain ⟨-, -, hnamed, -⟩ : _ ∧ _ ∧ _ ∧ _ :=
      @text?_cancelOrder category symbol orderId orderLinkId
    refine ⟨fun order => decide
      (Named category symbol orderId (if orderLinkId = "" then "" else orderId) order), ?_, ?_⟩
    · have hidentified : ∀ link : String, ¬ (orderId = "" ∧ link = "") := fun _ h => hid h.1
      simp only [cancelled, hnamed, if_neg (hidentified _), requested?_cancelOrder]
    · intro order hstruck
      exact (of_decide_eq_true hstruck).2.2.1 hid

/-- A call of `cancelOrder` only takes orders out of the book. -/
theorem sublist_cancelOrderAt (text : JsonText) (common : VkCommon) (readers : ReplyReaders)
    (orderId orderLinkId : String) (arrives : Bool) (reply : Except String HttpResponse) :
    (cancelOrderAt text common readers book category symbol orderId orderLinkId arrives
      reply).2.Sublist book := by
  rw [cancelOrderAt_eq]
  cases arrives with
  | false => exact List.Sublist.refl _
  | true =>
      obtain ⟨struck, hcancelled, -⟩ := @cancelled_eq book category symbol orderId orderLinkId
      rw [if_pos rfl, hcancelled]
      exact List.filter_sublist

theorem sublist_cancelAllAt (text : JsonText) (common : VkCommon) (readers : ReplyReaders)
    (arrives : Bool) (reply : Except String HttpResponse) :
    (cancelAllAt text common readers book category symbol arrives reply).2.Sublist book := by
  rw [cancelAllAt_eq]
  cases arrives with
  | false => exact List.Sublist.refl _
  | true => exact List.filter_sublist

/-- With identifiers that are unique, what is removed by a cancel is the order with the
    identifier that is given. -/
theorem cancelled_of_removed (hids : OrderCall.UniqueIds book) {orderId orderLinkId : String}
    {order : OpenOrder} (h : order ∈ removed book (cancelled book
      (.ofParameters (cancelOrderParameters category symbol orderId orderLinkId)))) :
    order.orderId = orderId ∧
      cancelled book (.ofParameters (cancelOrderParameters category symbol orderId orderLinkId)) =
        book.filter fun other => other.orderId ≠ orderId := by
  obtain ⟨struck, hcancelled, hstruck⟩ := @cancelled_eq book category symbol orderId orderLinkId
  rw [hcancelled, removed_filter, List.mem_filter, Bool.not_not] at h
  obtain ⟨hmem, hgone⟩ := h
  have hid := hstruck order hgone
  refine ⟨hid, ?_⟩
  rw [hcancelled]
  apply List.filter_congr
  intro other hother
  by_cases hsame : other.orderId = orderId
  · obtain rfl : other = order := List.inj_on_of_nodup_map hids hother hmem (hsame.trans hid.symm)
    simp [hgone, hid]
  · have hstays : struck other = false := by
      rw [← Bool.not_eq_true]
      exact fun hgone' => hsame (hstruck other hgone')
    simp [hstays, hsame]

theorem listedOrders_openOrder (orderLinkId : String) :
    listedOrders book (openOrderParameters category symbol "" orderLinkId) =
      book.filter fun order => Named category symbol "" orderLinkId order := by
  obtain ⟨hcategory, hsymbol, hid, hlink⟩ : _ ∧ _ ∧ _ ∧ _ :=
    @text?_openOrder category symbol "" orderLinkId
  apply List.filter_congr
  intro order _
  simp only [requested?, hcategory, hsymbol, hid, hlink, Option.bind_some, Option.getD_some,
    Category.enumCast?_enumName]

end Exchange

end BybitApi
