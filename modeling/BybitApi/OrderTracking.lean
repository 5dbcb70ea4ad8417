import BybitApi.OrderReplies
import BybitApi.RepeatedClosing

/-!
# Keeping track of orders

An order may be open although `placeOrder` has thrown, as its reply may be lost.  A caller
can note the identifiers that `placeOrder` returns, cross out those that the cancels
return, and keep aside what was placed without an answer until `getOpenOrder` tells of it.
`orders_in_sight` says that this is enough: no open order is ever out of sight, and what
is noted is open or has left the book without a word.
-/

namespace BybitApi

open Decoding

/-- What a caller can tell of an order without its identifier. -/
abbrev OrderLabel : Type := Category × String × String

def OpenOrder.label (order : OpenOrder) : OrderLabel :=
  (order.category, order.symbol, order.orderLinkId)

def Order.label (order : Order) : OrderLabel := (order.category, order.symbol, order.orderLinkId)

/-- The order as it is open under an identifier. -/
def Order.openAs (order : Order) (orderId : String) : OpenOrder where
  category := order.category
  symbol := order.symbol
  orderId := orderId
  orderLinkId := order.orderLinkId

/-- No two open orders of a symbol are given the same identifier by their user. -/
def UniqueLinks (book : List OpenOrder) : Prop :=
  ∀ order ∈ book, ∀ other ∈ book, order.orderLinkId ≠ "" → other.label = order.label →
    other = order

/-- An order that is named by its user's identifier has the label that is made of it. -/
theorem named_iff_label (category : Category) (symbol : String) {orderLinkId : String}
    (hlink : orderLinkId ≠ "") {order : OpenOrder} :
    Named category symbol "" orderLinkId order ↔ order.label = (category, symbol, orderLinkId) := by
  simp [Named, OpenOrder.label, hlink]

/-! ### A caller who keeps track -/

structure TrackedOrders where
  client : RestClient
  /-- The open orders of the exchange. -/
  book : List OpenOrder
  /-- The identifiers that the caller has noted. -/
  known : List String
  /-- What the caller has placed and has had no answer to. -/
  doubtful : List OrderLabel
  /-- The identifiers of orders that have left the book and of which the caller has not heard. -/
  vanished : List String

/-- A call with what the exchange does in it and what comes back, or an order that is filled
    or withdrawn by the exchange. -/
inductive OrderEvent where
  | placeOrder (order : Order) (endpoint : Endpoint Instruments) (fuel : Nat)
      (opened : Option String) (reply : Except String HttpResponse)
  | cancelOrder (category : Category) (symbol orderId orderLinkId : String) (arrives : Bool)
      (reply : Except String HttpResponse)
  | cancelAllOrders (category : Category) (symbol : String) (arrives : Bool)
      (reply : Except String HttpResponse)
  | getOpenOrder (category : Category) (symbol orderLinkId : String)
      (get : String → Parameters → Except String HttpResponse)
  | closed (orderId : String)

namespace TrackedOrders

/-- The book after an order that has been posted, or not. -/
def bookAfter (book : List OpenOrder) (posted : List (Order × Json)) (opened : Option String) :
    List OpenOrder :=
  match posted, opened with
  | (_, json) :: _, some orderId => book ++ (openedOrder orderId json).toList
  | _, _ => book

/-- The caller notes an identifier, and keeps the order aside when the call throws, unless
    it throws an error of the exchange. -/
def notePlaced (s : TrackedOrders) (label : OrderLabel) :
    Except ApiError OrderId → TrackedOrders
  | .ok id => { s with known := id.orderId :: s.known }
  | .error (.api _ _) => s
  | .error _ => { s with doubtful := label :: s.doubtful }

/-- The caller crosses out what a cancel returns. -/
def noteCancelled (s : TrackedOrders) (left : List OpenOrder) :
    Except ApiError (List OrderId) → TrackedOrders
  | .ok ids =>
      { s with book := left, known := s.known.filter fun id => id ∉ ids.map OrderId.orderId }
  | .error _ =>
      { s with book := left, vanished := (removed s.book left).map OpenOrder.orderId ++ s.vanished }

/-- What is found is noted, and what is looked for is kept aside no longer. -/
def noteFound (s : TrackedOrders) (label : OrderLabel) :
    Except ApiError (Option OrderResponse) → TrackedOrders
  | .ok found =>
      { s with
        known := (found.map OrderResponse.orderId).toList ++ s.known
        doubtful := s.doubtful.filter fun other => other ≠ label }
  | .error _ => s

section Step

variable (text : JsonText) (common : VkCommon) (readers : ReplyReaders) (format : OrderFormat)

def step (s : TrackedOrders) : OrderEvent → Option TrackedOrders
  | .placeOrder order endpoint fuel opened reply =>
      match RESTClient.placeOrder text common readers (fun _ _ => reply) format endpoint fuel
        { client := s.client } order with
      | none => none
      | some (result, after) =>
          some (notePlaced
            { s with client := after.client, book := bookAfter s.book after.posted opened }
            order.label result)
  | .cancelOrder category symbol orderId orderLinkId arrives reply =>
      let (result, left) := cancelOrderAt text common readers s.book category symbol orderId
        orderLinkId arrives reply
      some (noteCancelled s left (result.map fun id => [id]))
  | .cancelAllOrders category symbol arrives reply =>
      let (result, left) := cancelAllAt text common readers s.book category symbol arrives reply
      some (noteCancelled s left result)
  | .getOpenOrder category symbol orderLinkId get =>
      let result := RESTClient.getOpenOrder text common readers get category symbol "" orderLinkId
      some (noteFound s (category, symbol, orderLinkId) result)
  | .closed orderId =>
      if orderId ∈ s.book.map OpenOrder.orderId then
        some { s with
          book := s.book.filter fun order => order.orderId ≠ orderId
          vanished := orderId :: s.vanished }
      else none

end Step

end TrackedOrders

/-! ### What comes back -/

section Answers

variable (text : JsonText) (common : VkCommon) (readers : ReplyReaders)

namespace TrackedOrders

/-- The identifier is new in the book, and so is the one that the user gives. -/
def Fresh (s : TrackedOrders) (order : Order) (orderId : String) : Prop :=
  orderId ∉ s.book.map OpenOrder.orderId ∧
    (order.orderLinkId ≠ "" → order.label ∉ s.book.map OpenOrder.label)

/-- What may come back to a query, where it is read: no list, or the orders that it names. -/
def ListsOrders (book : List OpenOrder) (parameters : Parameters)
    (reply : Except String HttpResponse) : Prop :=
  Unheard text reply ∨ Refuses text common readers .OrdersResponse reply ∨
    ∃ page : OrdersResponse, Confirms text common readers .OrdersResponse reply page ∧
      page.orders.map OrderResponse.orderId =
        (listedOrders book parameters).map OpenOrder.orderId

/-- What comes back fits what the exchange does, if it comes back.  The exchange opens an
    order under identifiers that are not in use; a request to cancel that it refuses changes
    nothing; the caller looks up orders by an identifier of his own. -/
def Answered (s : TrackedOrders) : OrderEvent → Prop
  | .placeOrder order _ _ opened reply =>
      (∀ orderId, opened = some orderId → Fresh s order orderId) ∧
      (Unheard text reply ∨
        match opened with
        | some orderId => Confirms text common readers .OrderId reply
            (order.openAs orderId).toOrderId
        | none => Refuses text common readers .OrderId reply)
  | .cancelOrder category symbol orderId orderLinkId arrives reply =>
      let left := (cancelOrderAt text common readers s.book category symbol orderId orderLinkId
        arrives reply).2
      Unheard text reply ∨
        (∃ order ∈ removed s.book left,
          Confirms text common readers .OrderId reply order.toOrderId) ∨
        left = s.book ∧ Refuses text common readers .OrderId reply
  | .cancelAllOrders category symbol arrives reply =>
      let left := (cancelAllAt text common readers s.book category symbol arrives reply).2
      Unheard text reply ∨
        (arrives = true ∧ ∃ listed, listed.Perm (removed s.book left) ∧
          ListsCancelled text common readers reply listed) ∨
        left = s.book ∧ Refuses text common readers .Response reply
  | .getOpenOrder _ _ orderLinkId get =>
      orderLinkId ≠ "" ∧ ∀ parameters,
        ListsOrders text common readers s.book parameters (get "/v5/order/realtime" parameters)
  | .closed _ => True

/-- Every open order is noted or kept aside, and what is noted is open or has vanished. -/
structure InSight (s : TrackedOrders) : Prop where
  seen : ∀ order ∈ s.book, order.orderId ∈ s.known ∨ order.label ∈ s.doubtful
  noted : ∀ id ∈ s.known, id ∈ s.book.map OpenOrder.orderId ∨ id ∈ s.vanished

/-- The identifiers in the book tell its orders apart. -/
structure Tracks (s : TrackedOrders) : Prop extends InSight s where
  ids : OrderCall.UniqueIds s.book
  links : UniqueLinks s.book

/-- What a call returns is so in the book that it leaves behind. -/
def AnswerHolds (format : OrderFormat) (s next : TrackedOrders) : OrderEvent → Prop
  | .placeOrder order endpoint fuel _ reply =>
      ∀ result after, RESTClient.placeOrder text common readers (fun _ _ => reply) format endpoint
          fuel { client := s.client } order = some (result, after) →
        (∀ id, result = .ok id → next.book = s.book ++ [order.openAs id.orderId]) ∧
        ∀ retCode retMsg, result = .error (.api retCode retMsg) → next.book = s.book
  | .cancelOrder category symbol orderId orderLinkId arrives reply =>
      ∀ id, (cancelOrderAt text common readers s.book category symbol orderId orderLinkId arrives
          reply).1 = .ok id →
        id.orderId = orderId ∧ orderId ∈ s.book.map OpenOrder.orderId ∧
          next.book = s.book.filter fun order => order.orderId ≠ orderId
  | .cancelAllOrders category symbol arrives reply =>
      ∀ ids, (cancelAllAt text common readers s.book category symbol arrives reply).1 = .ok ids →
        (next.book = s.book.filter fun order => ¬ Covered category symbol order) ∧
          (ids.map OrderId.orderId).Perm
            ((s.book.filter fun order => Covered category symbol order).map OpenOrder.orderId)
  | .getOpenOrder category symbol orderLinkId get =>
      ∀ found, RESTClient.getOpenOrder text common readers get category symbol "" orderLinkId =
          .ok found →
        found.map OrderResponse.orderId =
          (s.book.find? fun order => Named category symbol "" orderLinkId order).map
            OpenOrder.orderId
  | .closed _ => True

end TrackedOrders

end Answers

variable {text : JsonText} {common : VkCommon} {readers : ReplyReaders} {format : OrderFormat}

/-! ### One event -/

namespace TrackedOrders

section Keeping

variable {s next : TrackedOrders}

/-- Orders may leave the book if the caller crosses out only what has left it, and hears of
    it or it counts as vanished. -/
theorem Tracks.leave (h : Tracks s) (hbook : next.book.Sublist s.book)
    (hdoubtful : next.doubtful = s.doubtful) (hknown : ∀ id ∈ next.known, id ∈ s.known)
    (hkept : ∀ order ∈ next.book, order.orderId ∈ s.known → order.orderId ∈ next.known)
    (hvanished : ∀ id ∈ s.vanished, id ∈ next.vanished)
    (hgone : ∀ order ∈ s.book, order ∉ next.book → order.orderId ∈ next.known →
      order.orderId ∈ next.vanished) : Tracks next where
  seen := by
    intro order horder
    rcases h.seen order (hbook.subset horder) with hnoted | haside
    · exact .inl (hkept order horder hnoted)
    · exact .inr (hdoubtful ▸ haside)
  noted := by
    intro id hid
    rcases h.noted id (hknown id hid) with hopen | hvanish
    · obtain ⟨order, horder, rfl⟩ := List.mem_map.mp hopen
      by_cases hstays : order ∈ next.book
      · exact .inl (List.mem_map_of_mem hstays)
      · exact .inr (hgone order horder hstays hid)
    · exact .inr (hvanished id hvanish)
  ids := h.ids.sublist (hbook.map _)
  links := fun order horder other hother =>
    h.links order (hbook.subset horder) other (hbook.subset hother)

/-- A cancel that returns names what it has removed. -/
theorem Tracks.noteCancelled (h : Tracks s) {left : List OpenOrder}
    (hleft : left.Sublist s.book) {result : Except ApiError (List OrderId)}
    (hresult : ∀ ids, result = .ok ids → ∀ id, id ∈ ids.map OrderId.orderId ↔
      id ∈ (removed s.book left).map OpenOrder.orderId) :
    Tracks (noteCancelled s left result) := by
  cases result with
  | ok ids =>
      have hnamed := hresult ids rfl
      refine h.leave hleft rfl ?_ ?_ ?_ ?_
      · intro id hid
        exact (List.mem_filter.mp hid).1
      · intro order horder hknown
        refine List.mem_filter.mpr ⟨hknown, ?_⟩
        rw [decide_eq_true_iff, hnamed]
        intro hgone
        obtain ⟨other, hother, hsame⟩ := List.mem_map.mp hgone
        obtain ⟨hmem, hnot⟩ := mem_removed.mp hother
        have heq : other = order :=
          List.inj_on_of_nodup_map h.ids hmem (hleft.subset horder) hsame
        exact hnot (heq ▸ horder)
      · exact fun _ hid => hid
      · intro order horder hgone hid
        have hcrossed := (List.mem_filter.mp hid).2
        rw [decide_eq_true_iff, hnamed] at hcrossed
        exact absurd (List.mem_map_of_mem (mem_removed.mpr ⟨horder, hgone⟩)) hcrossed
  | error e =>
      refine h.leave hleft rfl ?_ ?_ ?_ ?_
      · exact fun _ hid => hid
      · exact fun _ _ hid => hid
      · exact fun _ hid => List.mem_append_right _ hid
      · intro order horder hgone _
        exact List.mem_append_left _ (List.mem_map_of_mem (mem_removed.mpr ⟨horder, hgone⟩))

/-- A cancel that throws may have removed orders all the same. -/
theorem Tracks.notCancelled (h : Tracks s) {left : List OpenOrder}
    (hleft : left.Sublist s.book) (e : ApiError) :
    Tracks (TrackedOrders.noteCancelled s left (.error e)) := by
  apply h.noteCancelled hleft
  rintro ids ⟨⟩

/-- An order that is opened is noted or kept aside. -/
theorem Tracks.opened (h : Tracks s) {order : Order} {orderId : String}
    (hfresh : Fresh s order orderId) (hbook : next.book = s.book ++ [order.openAs orderId])
    (hvanished : next.vanished = s.vanished)
    (hnoted : next.known = orderId :: s.known ∧ next.doubtful = s.doubtful ∨
      next.known = s.known ∧ next.doubtful = order.label :: s.doubtful) : Tracks next := by
  obtain ⟨hnewId, hnewLink⟩ := hfresh
  refine ⟨⟨?_, ?_⟩, ?_, ?_⟩
  · intro other hother
    rw [hbook, List.mem_append, List.mem_singleton] at hother
    rcases hother with hother | rfl
    · rcases hnoted with ⟨hknown, hdoubtful⟩ | ⟨hknown, hdoubtful⟩
      · rw [hknown, hdoubtful]
        exact (h.seen other hother).imp_left (List.mem_cons_of_mem _)
      · rw [hknown, hdoubtful]
        exact (h.seen other hother).imp_right (List.mem_cons_of_mem _)
    · rcases hnoted with ⟨hknown, -⟩ | ⟨-, hdoubtful⟩
      · exact .inl (hknown ▸ List.mem_cons_self)
      · exact .inr (hdoubtful ▸ List.mem_cons_self)
  · intro id hid
    rw [hbook, hvanished, List.map_append, List.mem_append]
    rcases hnoted with ⟨hknown, -⟩ | ⟨hknown, -⟩
    · rw [hknown, List.mem_cons] at hid
      rcases hid with rfl | hid
      · exact .inl (.inr List.mem_cons_self)
      · exact (h.noted id hid).imp_left .inl
    · rw [hknown] at hid
      exact (h.noted id hid).imp_left .inl
  · rw [hbook, OrderCall.UniqueIds, List.map_append]
    apply h.ids.append (List.nodup_singleton _)
    exact List.disjoint_singleton.mpr hnewId
  · intro first hfirst other hother hlink hlabel
    rw [hbook, List.mem_append, List.mem_singleton] at hfirst hother
    rcases hfirst with hfirst | rfl <;> rcases hother with hother | rfl
    · exact h.links first hfirst other hother hlink hlabel
    · -- the new order has the label of an old one
      have hsame : order.label = first.label := hlabel
      have hused : order.orderLinkId ≠ "" := by
        intro hnone
        have : first.orderLinkId = order.orderLinkId := congrArg (fun l => l.2.2) hsame.symm
        exact hlink (this.trans hnone)
      exact absurd (hsame ▸ List.mem_map_of_mem hfirst) (hnewLink hused)
    · have hsame : other.label = order.label := hlabel
      exact absurd (hsame ▸ List.mem_map_of_mem hother) (hnewLink hlink)
    · rfl

theorem book_notePlaced (s : TrackedOrders) (label : OrderLabel)
    (result : Except ApiError OrderId) : (notePlaced s label result).book = s.book := by
  unfold notePlaced
  split <;> rfl

theorem notePlaced_of_other {label : OrderLabel} {e : ApiError}
    (hother : ∀ retCode retMsg, e ≠ .api retCode retMsg) :
    notePlaced s label (.error e) = { s with doubtful := label :: s.doubtful } := by
  cases e with
  | api retCode retMsg => exact absurd rfl (hother retCode retMsg)
  | badResponse _ _ | json _ | transport _ => rfl

/-- An order that is not opened may be kept aside all the same. -/
theorem Tracks.notOpened (h : Tracks s) {client : RestClient} {label : OrderLabel} (e : ApiError) :
    Tracks (notePlaced { s with client := client } label (.error e)) := by
  have haside : ∀ order ∈ s.book,
      order.orderId ∈ s.known ∨ order.label ∈ label :: s.doubtful := by
    intro order horder
    exact (h.seen order horder).imp_right (List.mem_cons_of_mem _)
  cases e with
  | api _ _ => exact ⟨⟨h.seen, h.noted⟩, h.ids, h.links⟩
  | badResponse _ _ | json _ | transport _ => exact ⟨⟨haside, h.noted⟩, h.ids, h.links⟩

/-- A look-up by an identifier of the user's finds the only order that has it, if there is
    one. -/
theorem Tracks.noteFound (h : Tracks s) {category : Category} {symbol orderLinkId : String}
    (hlink : orderLinkId ≠ "") {found : Option OrderResponse}
    (hfound : found.map OrderResponse.orderId =
      (s.book.find? fun order => Named category symbol "" orderLinkId order).map
        OpenOrder.orderId) :
    Tracks (noteFound s (category, symbol, orderLinkId) (.ok found)) := by
  refine ⟨⟨?_, ?_⟩, h.ids, h.links⟩
  · intro order horder
    show order.orderId ∈ (found.map OrderResponse.orderId).toList ++ s.known ∨
      order.label ∈ s.doubtful.filter fun other => other ≠ (category, symbol, orderLinkId)
    rw [hfound]
    rcases h.seen order horder with hknown | haside
    · exact .inl (List.mem_append_right _ hknown)
    · by_cases hlabel : order.label = (category, symbol, orderLinkId)
      · -- the order that is looked for: no other has its label
        have hnamed := (named_iff_label category symbol hlink).mpr hlabel
        cases hfirst : s.book.find? fun order => Named category symbol "" orderLinkId order with
        | none =>
            rw [List.find?_eq_none] at hfirst
            exact absurd (decide_eq_true hnamed) (hfirst order horder)
        | some first =>
            have hfirstNamed : Named category symbol "" orderLinkId first := by
              simpa using List.find?_some hfirst
            have hfirstLabel := (named_iff_label category symbol hlink).mp hfirstNamed
            have hused : order.orderLinkId ≠ "" := by
              rw [show order.orderLinkId = orderLinkId from congrArg (fun l => l.2.2) hlabel]
              exact hlink
            obtain rfl : first = order := h.links order horder first
              (List.mem_of_find?_eq_some hfirst) hused (hfirstLabel.trans hlabel.symm)
            exact .inl (List.mem_append_left _ List.mem_cons_self)
      · exact .inr (List.mem_filter.mpr ⟨haside, decide_eq_true hlabel⟩)
  · intro id hid
    have hknown : id ∈ (found.map OrderResponse.orderId).toList ++ s.known := hid
    rw [hfound] at hknown
    rcases List.mem_append.mp hknown with hnew | hold
    · rw [Option.mem_toList, Option.map_eq_some_iff] at hnew
      obtain ⟨first, hfirst, rfl⟩ := hnew
      exact .inl (List.mem_map_of_mem (List.mem_of_find?_eq_some hfirst))
    · exact h.noted id hold

end Keeping

section Steps

variable {s next : TrackedOrders}

/-- **Placing.**  The order is not open and the call throws; or it is open and the call returns
    its identifier, or throws no error of the exchange. -/
theorem placing_cases (hreads : ReadsReplies common readers) (hnames : format.NamesEnums)
    {order : Order} {endpoint : Endpoint Instruments} {fuel : Nat} {opened : Option String}
    {reply : Except String HttpResponse} {result : Except ApiError OrderId} {after : OrderClient}
    (hanswered : Answered text common readers s (.placeOrder order endpoint fuel opened reply))
    (hplaced : RESTClient.placeOrder text common readers (fun _ _ => reply) format endpoint fuel
      { client := s.client } order = some (result, after)) :
    ((∃ e, result = .error e) ∧ bookAfter s.book after.posted opened = s.book) ∨
      ∃ orderId, Fresh s order orderId ∧
        bookAfter s.book after.posted opened = s.book ++ [order.openAs orderId] ∧
        (result = .ok (order.openAs orderId).toOrderId ∨
          ∃ e, result = .error e ∧ ∀ retCode retMsg, e ≠ .api retCode retMsg) := by
  obtain ⟨hfresh, hreply⟩ := hanswered
  rcases placeOrder_cases hplaced with ⟨herror, hposted⟩ | ⟨symbols, json, -, hposted, hresult⟩
  · -- nothing has been posted
    have hnone : after.posted = [] := hposted
    exact .inl ⟨herror, by rw [hnone]; rfl⟩
  · cases opened with
    | none =>
        refine .inl ⟨?_, by rw [hposted]; rfl⟩
        rcases hreply with hunheard | hrefused
        · obtain ⟨e, he, -⟩ := replyAs_of_unheard .OrderId hunheard
          exact ⟨e, hresult.trans he⟩
        · obtain ⟨retCode, retMsg, he⟩ := replyAs_of_refuses hreads hrefused
          exact ⟨_, hresult.trans he⟩
    | some orderId =>
        refine .inr ⟨orderId, hfresh orderId rfl, ?_, ?_⟩
        · rw [hposted]
          show s.book ++ (openedOrder orderId _).toList = _
          rw [OrderCall.openedOrder_toJson common hnames]
          rfl
        · rcases hreply with hunheard | hconfirmed
          · obtain ⟨e, he, hother⟩ := replyAs_of_unheard .OrderId hunheard
            exact .inr ⟨e, hresult.trans he, hother⟩
          · exact .inl (hresult.trans (replyAs_of_confirms hreads hconfirmed))

theorem step_placeOrder (hreads : ReadsReplies common readers) (hnames : format.NamesEnums)
    (h : Tracks s) {order : Order} {endpoint : Endpoint Instruments} {fuel : Nat}
    {opened : Option String} {reply : Except String HttpResponse}
    (hanswered : Answered text common readers s (.placeOrder order endpoint fuel opened reply))
    (hstep : step text common readers format s (.placeOrder order endpoint fuel opened reply) =
      some next) :
    Tracks next ∧ AnswerHolds text common readers format s next
      (.placeOrder order endpoint fuel opened reply) := by
  cases hplaced : RESTClient.placeOrder text common readers (fun _ _ => reply) format endpoint fuel
      { client := s.client } order with
  | none =>
      rw [step, hplaced] at hstep
      cases hstep
  | some placed =>
      obtain ⟨result, after⟩ := placed
      rw [step, hplaced] at hstep
      obtain rfl := Option.some.inj hstep
      simp only [AnswerHolds, hplaced, Option.some.injEq, Prod.mk.injEq, and_imp]
      rcases placing_cases hreads hnames hanswered hplaced with ⟨⟨e, rfl⟩, hsame⟩ |
        ⟨orderId, hfresh, hopen, rfl | ⟨e, rfl, hother⟩⟩
      · constructor
        · rw [hsame]
          exact h.notOpened e
        · rintro _ _ rfl rfl
          refine ⟨?_, ?_⟩
          · rintro id ⟨⟩
          · intro retCode retMsg _
            rw [book_notePlaced, hsame]
      · constructor
        · exact h.opened hfresh hopen rfl (.inl ⟨rfl, rfl⟩)
        · rintro _ _ rfl rfl
          refine ⟨?_, ?_⟩
          · rintro id ⟨⟩
            exact hopen
          · rintro retCode retMsg ⟨⟩
      · constructor
        · rw [notePlaced_of_other hother]
          exact h.opened hfresh hopen rfl (.inr ⟨rfl, rfl⟩)
        · rintro _ _ rfl rfl
          refine ⟨?_, ?_⟩
          · rintro id ⟨⟩
          · intro retCode retMsg herror
            exact absurd (Except.error.inj herror) (hother retCode retMsg)

theorem step_cancelOrder (hreads : ReadsReplies common readers) (h : Tracks s)
    {category : Category} {symbol orderId orderLinkId : String} {arrives : Bool}
    {reply : Except String HttpResponse}
    (hanswered : Answered text common readers s
      (.cancelOrder category symbol orderId orderLinkId arrives reply))
    (hstep : step text common readers format s
      (.cancelOrder category symbol orderId orderLinkId arrives reply) = some next) :
    Tracks next ∧ AnswerHolds text common readers format s next
      (.cancelOrder category symbol orderId orderLinkId arrives reply) := by
  have hleft := @sublist_cancelOrderAt s.book category symbol text common readers orderId
    orderLinkId arrives reply
  simp only [step, cancelOrderAt_eq] at hstep
  obtain rfl := Option.some.inj hstep
  simp only [Answered, cancelOrderAt_eq] at hanswered
  simp only [AnswerHolds, cancelOrderAt_eq]
  rw [cancelOrderAt_eq] at hleft
  have hanswer : (∃ e, replyAs text common readers .OrderId reply = .error e) ∨
      arrives = true ∧ ∃ order ∈ removed s.book (cancelled s.book
        (.ofParameters (cancelOrderParameters category symbol orderId orderLinkId))),
          replyAs text common readers .OrderId reply = .ok order.toOrderId := by
    rcases hanswered with hunheard | ⟨order, horder, hconfirmed⟩ | ⟨-, hrefused⟩
    · obtain ⟨e, he, -⟩ := replyAs_of_unheard .OrderId hunheard
      exact .inl ⟨e, he⟩
    · cases arrives with
      | false =>
          -- nothing is removed that could be confirmed
          obtain ⟨hmem, hgone⟩ := mem_removed.mp horder
          exact absurd hmem hgone
      | true => exact .inr ⟨rfl, order, horder, replyAs_of_confirms hreads hconfirmed⟩
    · obtain ⟨retCode, retMsg, he⟩ := replyAs_of_refuses hreads hrefused
      exact .inl ⟨_, he⟩
  rcases hanswer with ⟨e, he⟩ | ⟨rfl, order, horder, hid⟩
  · rw [he]
    refine ⟨h.notCancelled hleft e, ?_⟩
    rintro id ⟨⟩
  · obtain ⟨hnamed, heq⟩ := cancelled_of_removed category symbol h.ids horder
    rw [if_pos rfl] at hleft
    rw [hid, if_pos rfl]
    constructor
    · apply h.noteCancelled hleft
      rintro ids ⟨⟩ id
      rw [List.map_singleton, List.mem_singleton]
      constructor
      · rintro rfl
        exact List.mem_map_of_mem horder
      · intro hgone
        obtain ⟨other, hother, rfl⟩ := List.mem_map.mp hgone
        exact (cancelled_of_removed category symbol h.ids hother).1.trans hnamed.symm
    · rintro id ⟨⟩
      exact ⟨hnamed, hnamed ▸ List.mem_map_of_mem (mem_removed.mp horder).1, heq⟩

theorem step_cancelAllOrders (hreads : ReadsReplies common readers) (h : Tracks s)
    {category : Category} {symbol : String} {arrives : Bool}
    {reply : Except String HttpResponse}
    (hanswered : Answered text common readers s (.cancelAllOrders category symbol arrives reply))
    (hstep : step text common readers format s (.cancelAllOrders category symbol arrives reply) =
      some next) :
    Tracks next ∧ AnswerHolds text common readers format s next
      (.cancelAllOrders category symbol arrives reply) := by
  have hleft := @sublist_cancelAllAt s.book category symbol text common readers arrives reply
  simp only [step, cancelAllAt_eq] at hstep
  obtain rfl := Option.some.inj hstep
  simp only [Answered, cancelAllAt_eq] at hanswered
  simp only [AnswerHolds, cancelAllAt_eq]
  rw [cancelAllAt_eq] at hleft
  have hanswer : (∃ e, RESTClient.allCancelled text common readers reply = .error e) ∨
      arrives = true ∧ ∃ listed : List OpenOrder, listed.Perm (removed s.book (cancelledAll s.book
        (.ofParameters (RESTClient.cancelAllParameters category symbol)))) ∧
          RESTClient.allCancelled text common readers reply =
            .ok (listed.map OpenOrder.toOrderId) := by
    rcases hanswered with hunheard | ⟨rfl, listed, hlisted, hlists⟩ | ⟨-, hrefused⟩
    · exact .inl (allCancelled_of_unheard hunheard)
    · exact .inr ⟨rfl, listed, hlisted, allCancelled_of_lists hreads hlists⟩
    · exact .inl (allCancelled_of_refuses hreads hrefused)
  rcases hanswer with ⟨e, he⟩ | ⟨rfl, listed, hlisted, hids⟩
  · rw [he]
    refine ⟨h.notCancelled hleft e, ?_⟩
    rintro ids ⟨⟩
  · have hnames : (listed.map OpenOrder.toOrderId).map OrderId.orderId =
        listed.map OpenOrder.orderId := by
      rw [List.map_map]
      rfl
    have hgone := hlisted.map OpenOrder.orderId
    rw [if_pos rfl] at hleft
    rw [hids, if_pos rfl]
    constructor
    · apply h.noteCancelled hleft
      rintro ids ⟨⟩ id
      rw [hnames]
      exact hgone.mem_iff
    · rintro ids ⟨⟩
      rw [hnames]
      refine ⟨cancelledAll_eq category symbol, ?_⟩
      rw [cancelledAll_eq, removed_filter] at hgone
      simpa using hgone

theorem step_getOpenOrder (hreads : ReadsReplies common readers) (h : Tracks s)
    {category : Category} {symbol orderLinkId : String}
    {get : String → Parameters → Except String HttpResponse}
    (hanswered : Answered text common readers s (.getOpenOrder category symbol orderLinkId get))
    (hstep : step text common readers format s (.getOpenOrder category symbol orderLinkId get) =
      some next) :
    Tracks next ∧ AnswerHolds text common readers format s next
      (.getOpenOrder category symbol orderLinkId get) := by
  obtain rfl := Option.some.inj hstep
  obtain ⟨hlink, hlists⟩ := hanswered
  have hreply := hlists (openOrderParameters category symbol "" orderLinkId)
  simp only [AnswerHolds, getOpenOrder_eq]
  generalize get "/v5/order/realtime" (openOrderParameters category symbol "" orderLinkId) = reply
    at hreply ⊢
  have hanswer : (∃ e, replyAs text common readers .OrdersResponse reply = .error e) ∨
      ∃ page : OrdersResponse, replyAs text common readers .OrdersResponse reply = .ok page ∧
        page.orders.map OrderResponse.orderId =
          (listedOrders s.book (openOrderParameters category symbol "" orderLinkId)).map
            OpenOrder.orderId := by
    rcases hreply with hunheard | hrefused | ⟨page, hconfirmed, hlisted⟩
    · obtain ⟨e, he, -⟩ := replyAs_of_unheard .OrdersResponse hunheard
      exact .inl ⟨e, he⟩
    · obtain ⟨retCode, retMsg, he⟩ := replyAs_of_refuses hreads hrefused
      exact .inl ⟨_, he⟩
    · exact .inr ⟨page, replyAs_of_confirms hreads hconfirmed, hlisted⟩
  rcases hanswer with ⟨e, he⟩ | ⟨page, hpage, hlisted⟩
  · rw [he]
    refine ⟨h, ?_⟩
    rintro found ⟨⟩
  · rw [listedOrders_openOrder] at hlisted
    have hfound : page.orders.head?.map OrderResponse.orderId =
        (s.book.find? fun order => Named category symbol "" orderLinkId order).map
          OpenOrder.orderId := by
      rw [← List.head?_map, hlisted, List.head?_map, List.head?_filter]
    rw [hpage]
    refine ⟨h.noteFound hlink hfound, ?_⟩
    rintro found ⟨⟩
    exact hfound

theorem step_closed (h : Tracks s) {orderId : String}
    (hstep : step text common readers format s (.closed orderId) = some next) : Tracks next := by
  rw [step] at hstep
  split at hstep
  · obtain rfl := Option.some.inj hstep
    refine h.leave List.filter_sublist rfl ?_ ?_ ?_ ?_
    · exact fun _ hid => hid
    · exact fun _ _ hid => hid
    · exact fun _ hid => List.mem_cons_of_mem _ hid
    · intro order horder hgone _
      have hid : order.orderId = orderId := by
        by_contra hother
        exact hgone (List.mem_filter.mpr ⟨horder, decide_eq_true hother⟩)
      exact hid ▸ List.mem_cons_self
  · cases hstep

/-- **One event.**  It keeps every open order in sight, and what a call returns is so. -/
theorem tracks_step (hreads : ReadsReplies common readers) (hnames : format.NamesEnums)
    (s : TrackedOrders) (event : OrderEvent) (next : TrackedOrders) (h : Tracks s)
    (hanswered : Answered text common readers s event)
    (hstep : step text common readers format s event = some next) :
    Tracks next ∧ AnswerHolds text common readers format s next event := by
  cases event with
  | placeOrder order endpoint fuel opened reply =>
      exact step_placeOrder hreads hnames h hanswered hstep
  | cancelOrder category symbol orderId orderLinkId arrives reply =>
      exact step_cancelOrder hreads h hanswered hstep
  | cancelAllOrders category symbol arrives reply =>
      exact step_cancelAllOrders hreads h hanswered hstep
  | getOpenOrder category symbol orderLinkId get =>
      exact step_getOpenOrder hreads h hanswered hstep
  | closed orderId => exact ⟨step_closed h hstep, trivial⟩

end Steps

end TrackedOrders

open TrackedOrders

/-- The identifiers of the order that its user calls `mine`, in a reply. -/
def linkedRow : Json := .object [("orderId", .string "1"), ("orderLinkId", .string "mine")]

def ordersBody : String :=
  "\x7b\"retCode\":0,\"retMsg\":\"OK\",\"result\":\x7b\"list\":" ++
    "[\x7b\"orderId\":\"1\",\"orderLinkId\":\"mine\"\x7d]\x7d,\"time\":0\x7d"

def ordersEnvelope : Response where
  retCode := 0
  retMsg := "OK"
  retExtInfo := .null
  time := 0
  result := .object [("list", .array [linkedRow])]

def ordersJson : Json :=
  .object
    [("retCode", .integer 0), ("retMsg", .string "OK"), ("result", ordersEnvelope.result),
     ("time", .integer 0)]

def ordersText : JsonText := documentsText ([()].map fun _ => (ordersBody, ordersJson))

theorem ordersReply_said {type : ReplyType} {payload : type.Payload}
    (hpayload : type.Says (.documented sizeNumber) (.documented sizeNumber) ordersEnvelope.result
      payload) :
    ReplySays ordersText (.documented sizeNumber) (.documented sizeNumber) type
      (.ok (answer ordersBody)) ordersEnvelope payload := by
  have hparse : ordersText.parse ordersBody = .ok ordersJson :=
    parse_documentsText (fun _ : Unit => ordersBody) (fun _ => ordersJson) (List.nodup_singleton _)
      List.mem_cons_self
  have hfields : Says ordersJson [⟨.int "retCode", ordersEnvelope.retCode⟩,
      ⟨.string "retMsg", ordersEnvelope.retMsg⟩, ⟨.int64 "time", ordersEnvelope.time⟩] := by
    simp only [Says, List.forall_mem_cons]
    refine ⟨.inl ⟨_, rfl, rfl, by decide⟩, .inl ⟨_, rfl, rfl⟩, .inl ⟨_, rfl, rfl, by decide⟩, ?_⟩
    simp
  exact ⟨_, _, rfl, rfl, hparse, ⟨hfields, rfl, rfl⟩, hpayload⟩

theorem linkedRow_said : Says linkedRow
    ({ orderId := "1", orderLinkId := "mine" } : OrderResponse).entries := by
  have habsent : ∀ field : Field, linkedRow.find? field.key = none →
      field.Says linkedRow field.absent := fun _ h => .inr ⟨h, rfl⟩
  simp only [Says, OrderResponse.entries, List.forall_mem_cons]
  refine ⟨.inl ⟨_, rfl, rfl⟩, .inl ⟨_, rfl, rfl⟩, habsent _ rfl, habsent _ rfl, habsent _ rfl,
    habsent _ rfl, habsent _ rfl, habsent _ rfl, habsent _ rfl, habsent _ rfl, habsent _ rfl,
    habsent _ rfl, habsent _ rfl, habsent _ rfl, habsent _ rfl, habsent _ rfl, habsent _ rfl,
    habsent _ rfl, habsent _ rfl, habsent _ rfl, habsent _ rfl, habsent _ rfl, habsent _ rfl,
    habsent _ rfl, ?_⟩
  simp

theorem linkedOrders_said :
    ReplyType.OrdersResponse.Says (.documented sizeNumber) (.documented sizeNumber)
      ordersEnvelope.result
      ({ category := .linear, orders := [{ orderId := "1", orderLinkId := "mine" }] } :
        OrdersResponse) := by
  refine ⟨?_, .inr rfl, .cons linkedRow_said .nil⟩
  intro entry hentry
  obtain rfl := List.mem_singleton.mp hentry
  exact .inr ⟨rfl, rfl⟩

/-- A client that knows its instruments and has no orders. -/
def emptyBook : TrackedOrders where
  client := { instruments := [btcInstrument] }
  book := []
  known := []
  doubtful := []
  vanished := []

/-- The order is open, and is kept aside. -/
def orderLost : TrackedOrders :=
  { emptyBook with book := [OrderCall.linkedOpen], doubtful := [(.linear, "BTCUSDT", "mine")] }

def orderFound : TrackedOrders := { orderLost with known := ["1"], doubtful := [] }

/-- The exchange tells of the order, and of nothing else. -/
def ordersAnswer (_path : String) (parameters : Parameters) : Except String HttpResponse :=
  if listedOrders orderLost.book parameters = [OrderCall.linkedOpen] then .ok (answer ordersBody)
  else .error "timeout"

theorem ordersAnswer_linked (path : String) :
    ordersAnswer path (openOrderParameters .linear "BTCUSDT" "" "mine") =
      .ok (answer ordersBody) := by
  rw [ordersAnswer, if_pos]
  rw [listedOrders_openOrder]
  decide

/-- The order is placed and the reply is lost; it is looked up, and all orders are cancelled. -/
def lostAndFound : List OrderEvent :=
  [.placeOrder OrderCall.linkedOrder (fun _ _ => .error (.transport "not asked")) 0 (some "1")
     (.error "timeout"),
   .getOpenOrder .linear "BTCUSDT" "mine" ordersAnswer,
   .cancelAllOrders .linear "" true (.ok (answer ordersBody))]

theorem step_orderLost :
    step ordersText (.documented sizeNumber) (.documented sizeNumber) .documented emptyBook
        (.placeOrder OrderCall.linkedOrder (fun _ _ => .error (.transport "not asked")) 0 (some "1")
          (.error "timeout")) = some orderLost := by
  have hopened := OrderCall.openedOrder_toJson (.documented sizeNumber)
    OrderFormat.documented_namesEnums (OrderCall.linkedOrder.withSteps
      (findPriceSteps [btcInstrument] "BTCUSDT" (1 / 100) (1 / 100))) "1"
  exact congrArg (fun opened : Option OpenOrder => some (notePlaced
    { emptyBook with book := [] ++ opened.toList } OrderCall.linkedOrder.label
    (.error (.transport "timeout")))) hopened

theorem step_orderFound :
    step ordersText (.documented sizeNumber) (.documented sizeNumber) .documented orderLost
        (.getOpenOrder .linear "BTCUSDT" "mine" ordersAnswer) = some orderFound := by
  have hpage := replyAs_of_confirms documented_readsReplies
    ⟨_, rfl, ordersReply_said linkedOrders_said⟩
  simp only [step, getOpenOrder_eq, ordersAnswer_linked, hpage]
  rfl

theorem lostAndFound_answered :
    Machine.Along (step ordersText (.documented sizeNumber) (.documented sizeNumber) .documented)
      (Answered ordersText (.documented sizeNumber) (.documented sizeNumber)) emptyBook
      lostAndFound := by
  refine Machine.along_cons ⟨?_, .inl (.inl (.inl ⟨_, rfl⟩))⟩ step_orderLost ?_
  · intro orderId _
    exact ⟨by simp [emptyBook], by simp [emptyBook]⟩
  · refine Machine.along_cons ⟨by decide, ?_⟩ step_orderFound ?_
    · intro parameters
      unfold ordersAnswer
      split
      · next hlisted =>
          refine .inr (.inr ⟨_, ⟨_, rfl, ordersReply_said linkedOrders_said⟩, ?_⟩)
          rw [hlisted]
          rfl
      · exact .inl (.inl (.inl ⟨_, rfl⟩))
    · refine ⟨.inr (.inl ⟨rfl, [OrderCall.linkedOpen], ?_, ?_⟩), fun _ _ => trivial⟩
      · have hall : (orderFound.book.filter fun order => !decide (¬ Covered .linear "" order)) =
            [OrderCall.linkedOpen] := by decide
        rw [cancelAllAt_eq, if_pos rfl, cancelledAll_eq, removed_filter, hall]
      · refine ⟨_, _, rfl, ordersReply_said trivial, rfl, .cons ?_ .nil⟩
        simp only [NamedBy, Says, List.forall_mem_cons]
        exact ⟨.inl ⟨_, rfl, rfl⟩, .inl ⟨_, rfl, rfl⟩, by simp⟩

end BybitApi
