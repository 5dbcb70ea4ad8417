import BybitApi.ClosePositions
import BybitApi.ReplyErrors

/-!
# Lists that come in pages

The exchange lists positions and open orders in pages, as it does instruments: a page names
the cursor of the next one, and the last page names none.  `getInstrumentsInfo` asks on with
every cursor, while `getPositionInfo` and `getOpenOrders` ask once.  By
`listings_complete_iff` they return the whole book exactly when the pages behind the first
one are empty, and `closeAllPositions` does not try to close what stands there, nor what
comes behind an order that is refused.
-/

namespace BybitApi

open Decoding

/-- The exchange serves a chain of pages, from the page under the cursor on. -/
inductive ServesPages {α : Type} (answers : String → α → String → Prop) :
    String → List α → Prop where
  | last {cursor : String} {page : α} (h : answers cursor page "") :
      ServesPages answers cursor [page]
  | more {cursor next : String} {page : α} {pages : List α} (h : answers cursor page next)
      (hmore : next ≠ "") (hnext : ServesPages answers next pages) :
      ServesPages answers cursor (page :: pages)

section Source

variable (text : JsonText) (common : VkCommon) (readers : ReplyReaders)

/-- What becomes of a reply that is decoded as the type. -/
def replyAs (type : ReplyType) : Except String HttpResponse → Except ApiError type.Payload
  | .error what => .error (.transport what)
  | .ok response =>
      match checkResponse response with
      | .error e => .error e
      | .ok response => handleBybitResponse text (type.fromJson common readers) response

/-- The query of `RESTClient::getOpenOrders` to `/v5/order/realtime`. -/
def openOrdersParameters (category : Category) (symbol : String) : Parameters :=
  ((∅ : Parameters).insert "category" category.enumName).insert "symbol" symbol

namespace RESTClient

-- `get` answers the requests by path and query.
variable (get : String → Parameters → Except String HttpResponse)

/-- `RESTClient::getPositionInfo`, from the reply on. -/
def getPositionInfo (category : Category) (symbol : String) :
    Except ApiError (List PositionRecord) := do
  let positions : Positions ← replyAs text common readers .Positions
    (get "/v5/position/list" (positionParameters category symbol))
  return positions.positions

def getOpenOrders (category : Category) (symbol : String) :
    Except ApiError (List OrderResponse) := do
  let orders : OrdersResponse ← replyAs text common readers .OrdersResponse
    (get "/v5/order/realtime" (openOrdersParameters category symbol))
  return orders.orders

/-- `RESTClient::closeAllPositions`, from the reply on. -/
def closeAllPositions (format : OrderFormat) (endpoint : Endpoint Instruments)
    (create : Nat → Json → Except ApiError OrderId) (fuel : Nat) (client : RestClient)
    (category : Category) : Option (Except ApiError Unit × OrderClient) :=
  match getPositionInfo text common readers get category "" with
  | .error e => some (.error e, { client := client })
  | .ok positionList =>
      closePositions common format endpoint create fuel { client := client }
        (positionList.map PositionRecord.position)

end RESTClient

/-! ### A paged exchange -/

/-- A query that asks for the page under a cursor; the first page has none. -/
def withCursor (parameters : Parameters) (cursor : String) : Parameters :=
  if cursor ≠ "" then parameters.insert "cursor" cursor else parameters

/-- The reply is read as a page of the type, and names the cursor of the next page. -/
def DeliversPage (type : ReplyType) (reply : Except String HttpResponse) (page : type.Payload)
    (next : String) : Prop :=
  ∃ response json, reply = .ok response ∧ text.parse response.body = .ok json ∧
    replyAs text common readers type reply = .ok page ∧
      ((json.memberOrNull "result").text? "nextPageCursor").getD "" = next

variable (get : String → Parameters → Except String HttpResponse)

/-- The book of positions of a category, page by page. -/
def ServesPositions (category : Category) : List Positions → Prop :=
  ServesPages (fun cursor page next => DeliversPage text common readers .Positions
    (get "/v5/position/list" (withCursor (positionParameters category "") cursor)) page next) ""

/-- The book of open orders of a symbol, page by page. -/
def ServesOrders (category : Category) (symbol : String) : List OrdersResponse → Prop :=
  ServesPages (fun cursor page next => DeliversPage text common readers .OrdersResponse
    (get "/v5/order/realtime" (withCursor (openOrdersParameters category symbol) cursor))
    page next) ""

end Source

/-- The positions that are not zero. -/
def openPositions (positions : List PositionRecord) : List Position :=
  (positions.map PositionRecord.position).filter fun pos => !pos.zeroSize

section Statements

variable (text : JsonText) (common : VkCommon) (readers : ReplyReaders) (format : OrderFormat)
  (endpoint : Endpoint Instruments) (create : Nat → Json → Except ApiError OrderId)
  (get : String → Parameters → Except String HttpResponse)

/-- Closing is attempted for each open position of the book: an order goes out for it,
    whatever becomes of the order and of the call. -/
def AttemptsBook (fuel : Nat) (client : RestClient) (category : Category)
    (book : List PositionRecord) : Prop :=
  ∃ result s, RESTClient.closeAllPositions text common readers get format endpoint create fuel
      client category = some (result, s) ∧
    s.posted = (openPositions book).map
      (postedOrder common format (instrumentTable endpoint fuel client .linear))

/-- The listings return their books, every entry once and in order, and closing is attempted
    for all open positions. -/
def ListingsComplete (fuel : Nat) (client : RestClient) (category : Category) (symbol : String)
    (positions : List PositionRecord) (orders : List OrderResponse) : Prop :=
  RESTClient.getPositionInfo text common readers get category "" = .ok positions ∧
    RESTClient.getOpenOrders text common readers get category symbol = .ok orders ∧
      AttemptsBook text common readers format endpoint create get fuel client category positions

end Statements

/-! ### The first page -/

section Chains

variable {α : Type} {answers : String → α → String → Prop} {cursor : String} {pages : List α}

/-- A chain begins with the page under its cursor. -/
theorem ServesPages.exists_first (h : ServesPages answers cursor pages) :
    ∃ page rest next, pages = page :: rest ∧ answers cursor page next := by
  cases h with
  | last h => exact ⟨_, [], "", rfl, h⟩
  | more h _ _ => exact ⟨_, _, _, rfl, h⟩

/-- The first page is the whole book if and only if there is nothing behind it. -/
theorem entries_eq_iff {β : Type} (entries : α → List β) (page : α) (rest : List α) :
    entries page = (page :: rest).flatMap entries ↔
      (page :: rest).tail.flatMap entries = [] := by
  rw [List.flatMap_cons, List.tail_cons]
  constructor
  · intro h
    exact List.self_eq_append_right.mp h
  · intro h
    rw [h, List.append_nil]

end Chains

variable {text : JsonText} {common : VkCommon} {readers : ReplyReaders} {format : OrderFormat}
  {endpoint : Endpoint Instruments} {create : Nat → Json → Except ApiError OrderId}
  {get : String → Parameters → Except String HttpResponse} {category : Category}
  {symbol : String} {positionPages : List Positions} {orderPages : List OrdersResponse}

/-- `getPositionInfo` returns the first page. -/
theorem getPositionInfo_of_serves
    (h : ServesPositions text common readers get category positionPages) :
    ∃ page rest, positionPages = page :: rest ∧
      RESTClient.getPositionInfo text common readers get category "" = .ok page.positions := by
  obtain ⟨page, rest, next, hpages, response, json, -, -, hreply, -⟩ := h.exists_first
  refine ⟨page, rest, hpages, ?_⟩
  rw [RESTClient.getPositionInfo, show get "/v5/position/list" (positionParameters category "") =
    get "/v5/position/list" (withCursor (positionParameters category "") "") from rfl, hreply]
  rfl

/-- `getOpenOrders` returns the first page. -/
theorem getOpenOrders_of_serves
    (h : ServesOrders text common readers get category symbol orderPages) :
    ∃ page rest, orderPages = page :: rest ∧
      RESTClient.getOpenOrders text common readers get category symbol = .ok page.orders := by
  obtain ⟨page, rest, next, hpages, response, json, -, -, hreply, -⟩ := h.exists_first
  refine ⟨page, rest, hpages, ?_⟩
  rw [RESTClient.getOpenOrders,
    show get "/v5/order/realtime" (openOrdersParameters category symbol) =
      get "/v5/order/realtime" (withCursor (openOrdersParameters category symbol) "") from rfl,
    hreply]
  rfl

/-! ### Closing -/

/-- Of a position that is read with all its fields, closing takes the part that
    `Position::fromJson` reads into `Position`. -/
theorem position_of_record {json : Json} {record : PositionRecord}
    (h : PositionRecord.fromJson common readers json = .ok record) :
    Position.fromJson common readers.positions json = .ok record.position := by
  simp only [PositionRecord.fromJson, bind_eq_ok] at h
  obtain ⟨positionIdx, hpositionIdx, riskId, -, riskLimitValue, -, symbol, hsymbol, side, hside,
    positionSize, hpositionSize, size, hsize, hrest⟩ := h
  have hposition : record.position =
      ⟨positionIdx, symbol, side, size, if positionSize ≠ 0 then false else true⟩ := by
    iterate 25 obtain ⟨_, -, hrest⟩ := hrest
    obtain rfl := Except.ok.inj hrest
    rfl
  rw [hposition]
  simp only [Position.fromJson, bind_eq_ok]
  exact ⟨positionIdx, hpositionIdx, symbol, hsymbol, side, hside, positionSize, hpositionSize,
    size, hsize, rfl⟩

theorem positions_of_records {rows : List Json} {records : List PositionRecord}
    (h : rows.mapM (PositionRecord.fromJson common readers) = .ok records) :
    rows.mapM (Position.fromJson common readers.positions) =
      .ok (records.map PositionRecord.position) := by
  induction rows generalizing records with
  | nil =>
      obtain rfl := Except.ok.inj h
      rfl
  | cons row rows ih =>
      rw [mapM_cons_eq, bind_eq_ok] at h
      obtain ⟨record, hrecord, hrows⟩ := h
      obtain ⟨others, hothers, hpure⟩ := bind_eq_ok.mp hrows
      obtain rfl := Except.ok.inj hpure
      rw [mapM_cons_eq, position_of_record hrecord, ih hothers]
      rfl

theorem handled_of_replyAs {type : ReplyType} {response : HttpResponse} {page : type.Payload}
    (h : replyAs text common readers type (.ok response) = .ok page) :
    handleBybitResponse text (type.fromJson common readers) response = .ok page := by
  by_cases hstatus : response.result = 200
  · simpa [replyAs, checkResponse, hstatus] using h
  · simp [replyAs, checkResponse, hstatus] at h

/-- Closing all positions on from the reply is closing the positions that its rows report. -/
theorem closeAllPositions_of_page {fuel : Nat} {client : RestClient} {page : Positions}
    {next : String} (h : DeliversPage text common readers .Positions
      (get "/v5/position/list" (positionParameters category "")) page next) :
    ∃ reported, RESTClient.closeAllPositions text common readers get format endpoint create fuel
        client category =
      closeAllPositions common readers.positions format endpoint create (fun _ => .ok reported)
        fuel client category := by
  obtain ⟨response, json, hreply, hparse, hpage, -⟩ := h
  have hhandled := handled_of_replyAs (hreply ▸ hpage)
  obtain ⟨envelope, hdecodes, -⟩ := (handleBybitResponse_eq_ok_iff hparse).mp hhandled
  obtain ⟨-, -, -, -, -, hresult⟩ := readReply_eq_ok.mp hdecodes
  obtain ⟨category', -, hlist⟩ := bind_eq_ok.mp hresult
  obtain ⟨records, hrecords, hpure⟩ := bind_eq_ok.mp hlist
  obtain ⟨list, hindex, hrows⟩ := bind_eq_ok.mp hrecords
  obtain rfl := Except.ok.inj hpure
  have hpositions : getPositionInfo common readers.positions (fun _ => .ok list.items) category
      "" = .ok (records.map PositionRecord.position) := by
    rw [getPositionInfo]
    show (list.items.mapM (Position.fromJson common readers.positions)).mapError _ = _
    rw [positions_of_records hrows]
    rfl
  have hinfo : RESTClient.getPositionInfo text common readers get category "" = .ok records := by
    rw [RESTClient.getPositionInfo, hpage]
    rfl
  exact ⟨list.items, by rw [RESTClient.closeAllPositions, closeAllPositions, hinfo, hpositions]⟩

theorem openPositions_append (positions others : List PositionRecord) :
    openPositions (positions ++ others) = openPositions positions ++ openPositions others := by
  rw [openPositions, List.map_append, List.filter_append]
  rfl

/-- When closing is attempted for all that is listed. -/
theorem attemptsBook_of_list_iff {fuel : Nat} {client : RestClient}
    {positions : List PositionRecord}
    (hlist : RESTClient.getPositionInfo text common readers get category "" = .ok positions) :
    AttemptsBook text common readers format endpoint create get fuel client category positions ↔
      AllAttempted common format endpoint create fuel client 0 (openPositions positions) := by
  unfold AttemptsBook
  rw [RESTClient.closeAllPositions, hlist]
  exact closePositions_attempts_iff (s := { client := client })
    (positions.map PositionRecord.position)

/-- **When the whole book is attempted**: no position is open behind the first page, the
    steps for those on it are found, and no order is refused but the last one. -/
theorem attemptsBook_iff {fuel : Nat} {client : RestClient}
    (hpositions : ServesPositions text common readers get category positionPages) :
    AttemptsBook text common readers format endpoint create get fuel client category
        (positionPages.flatMap Positions.positions) ↔
      openPositions (positionPages.tail.flatMap Positions.positions) = [] ∧
        AllAttempted common format endpoint create fuel client 0
          (openPositions (positionPages.flatMap Positions.positions)) := by
  obtain ⟨page, rest, rfl, hlist⟩ := getPositionInfo_of_serves hpositions
  have hfirst : AttemptsBook text common readers format endpoint create get fuel client category
      page.positions ↔ _ := attemptsBook_of_list_iff hlist
  rw [List.flatMap_cons, List.tail_cons, openPositions_append]
  constructor
  · rintro ⟨result, s, hrun, hposted⟩
    have hnone : openPositions (rest.flatMap Positions.positions) = [] := by
      have hlisted := hrun
      rw [RESTClient.closeAllPositions, hlist] at hlisted
      obtain ⟨sent, hsent, hsentPosted, -⟩ := closePositions_prefix hlisted
      have hlength := congrArg List.length hposted
      rw [hsentPosted, openPositions_append] at hlength
      simp only [List.nil_append, List.length_map, List.length_append] at hlength
      have hle : sent.length ≤ (openPositions page.positions).length := hsent.length_le
      apply List.eq_nil_of_length_eq_zero
      omega
    rw [openPositions_append, hnone, List.append_nil] at hposted
    rw [hnone, List.append_nil]
    exact ⟨rfl, hfirst.mp ⟨result, s, hrun, hposted⟩⟩
  · rintro ⟨hnone, hattempted⟩
    rw [hnone, List.append_nil] at hattempted
    obtain ⟨result, s, hrun, hposted⟩ := hfirst.mpr hattempted
    refine ⟨result, s, hrun, ?_⟩
    rw [openPositions_append, hnone, List.append_nil]
    exact hposted

/-- **Complete listings.**  On an exchange that serves its books in pages, the listings are
    complete, and closing is attempted for all open positions, if and only if the pages
    behind the first one are empty in both books, the steps of the orders are found, and no
    order is refused but that for the last open position. -/
theorem listings_complete_iff {fuel : Nat} {client : RestClient}
    (hpositions : ServesPositions text common readers get category positionPages)
    (horders : ServesOrders text common readers get category symbol orderPages) :
    ListingsComplete text common readers format endpoint create get fuel client category symbol
        (positionPages.flatMap Positions.positions) (orderPages.flatMap OrdersResponse.orders) ↔
      positionPages.tail.flatMap Positions.positions = [] ∧
        orderPages.tail.flatMap OrdersResponse.orders = [] ∧
          AllAttempted common format endpoint create fuel client 0
            (openPositions (positionPages.flatMap Positions.positions)) := by
  have hattempts : AttemptsBook text common readers format endpoint create get fuel client
      category (positionPages.flatMap Positions.positions) ↔ _ := attemptsBook_iff hpositions
  obtain ⟨page, rest, rfl, hlist⟩ := getPositionInfo_of_serves hpositions
  obtain ⟨orderPage, orderRest, rfl, horderList⟩ := getOpenOrders_of_serves horders
  rw [ListingsComplete, hlist, horderList, Except.ok.injEq, Except.ok.injEq, entries_eq_iff,
    entries_eq_iff, hattempts]
  constructor
  · rintro ⟨hnone, hnoOrder, -, hattempted⟩
    exact ⟨hnone, hnoOrder, hattempted⟩
  · rintro ⟨hnone, hnoOrder, hattempted⟩
    exact ⟨hnone, hnoOrder, by rw [hnone]; rfl, hattempted⟩

/-! ### Two pages of positions -/

/-- The text of a page with one long position, and the value that it stands for. -/
def longText (symbol nextPageCursor : String) : String :=
  "\x7b\"result\":\x7b\"list\":[\x7b\"side\":\"Buy\",\"size\":\"1\",\"symbol\":\"" ++ symbol ++
    "\"\x7d],\"nextPageCursor\":\"" ++ nextPageCursor ++ "\"\x7d,\"retCode\":0\x7d"

def listJson (rows : List Json) (nextPageCursor : String) : Json :=
  .object
    [("result", .object [("list", .array rows), ("nextPageCursor", .string nextPageCursor)]),
     ("retCode", .integer 0)]

def longRow (symbol : String) : Json :=
  .object [("side", .string "Buy"), ("size", .string "1"), ("symbol", .string symbol)]

def longJson (symbol nextPageCursor : String) : Json := listJson [longRow symbol] nextPageCursor

def longPage (symbol : String) : Positions :=
  { category := .linear
    positions := [{ position := { symbol, side := .Buy, size := 1, zeroSize := false } }] }

def noOrders : String := "\x7b\"result\":\x7b\"list\":[],\"nextPageCursor\":\"\"\x7d,\"retCode\":0\x7d"

/-- The parser on the texts of two pages of positions and of a page without orders. -/
def listsText : JsonText where
  parse body :=
    if body = longText "BTCUSDT" "second" then .ok (longJson "BTCUSDT" "second")
    else if body = longText "ETHUSDT" "" then .ok (longJson "ETHUSDT" "")
    else if body = noOrders then .ok (listJson [] "")
    else .error (.json "parse_error.101")
  dump _ := ""

theorem listsText_second :
    listsText.parse (longText "ETHUSDT" "") = .ok (longJson "ETHUSDT" "") := by
  have hne : longText "ETHUSDT" "" ≠ longText "BTCUSDT" "second" := by decide
  simp only [listsText, if_neg hne, if_true]

theorem listsText_noOrders : listsText.parse noOrders = .ok (listJson [] "") := by
  have hfirst : noOrders ≠ longText "BTCUSDT" "second" := by decide
  have hsecond : noOrders ≠ longText "ETHUSDT" "" := by decide
  simp only [listsText, if_neg hfirst, if_neg hsecond, if_true]

/-- An exchange with no open orders, and with positions on one page or two. -/
def pagedExchange (first second : String) (path : String) (parameters : Parameters) :
    Except String HttpResponse :=
  if path = "/v5/position/list" then
    .ok (answer (if parameters["cursor"]? = none then first else second))
  else .ok (answer noOrders)

/-- The position on such a page. -/
theorem longPosition_decoded (symbol : String) :
    PositionRecord.fromJson (.documented sizeNumber) (.documented sizeNumber) (longRow symbol) =
      .ok { position := { symbol, side := .Buy, size := 1, zeroSize := false } } := by
  have hvalue : Decimal.value? "1" = some 1 := by decide +kernel
  have hfind : (longRow symbol).find? "size" = some (.string "1") := rfl
  have hdecimal : readDecimalValue (ReplyReaders.documented sizeNumber).positions (longRow symbol)
      "size" 0 = .ok 1 := by
    show PositionReaders.documented.assignDecimal "1" = .ok 1
    simp only [PositionReaders.documented, hvalue]
  have hsize : (VkCommon.documented sizeNumber).readStringAsDouble (longRow symbol) "size" 0 =
      .ok 1 := (VkCommon.documented_readsNumbers sizeNumber).present 0 hfind hvalue
  simp only [PositionRecord.fromJson, bind_eq_ok]
  refine ⟨0, rfl, 0, rfl, 0, rfl, symbol, rfl, .Buy, rfl, 1, hdecimal, 1, hsize, ?_⟩
  -- the other fields are absent
  iterate 25 refine ⟨_, rfl, ?_⟩
  rfl

/-- A body whose result is read delivers a page. -/
theorem delivers_of_result {type : ReplyType} {body nextPageCursor : String} {rows : List Json}
    {page : type.Payload} (hparse : listsText.parse body = .ok (listJson rows nextPageCursor))
    (hresult : type.ofResult (.documented sizeNumber) (.documented sizeNumber)
      (.object [("list", .array rows), ("nextPageCursor", .string nextPageCursor)]) = .ok page) :
    DeliversPage listsText (.documented sizeNumber) (.documented sizeNumber) type
      (.ok (answer body)) page nextPageCursor := by
  refine ⟨answer body, listJson rows nextPageCursor, rfl, hparse, ?_, rfl⟩
  let envelope : Response :=
    { retCode := 0, retMsg := "", retExtInfo := .null, time := 0,
      result := (listJson rows nextPageCursor).memberOrNull "result" }
  have hdecodes : type.fromJson (.documented sizeNumber) (.documented sizeNumber)
      (listJson rows nextPageCursor) = .ok (envelope, page) :=
    readReply_eq_ok.mpr ⟨rfl, rfl, rfl, rfl, rfl, hresult⟩
  have hbody : listsText.parse (answer body).body = .ok (listJson rows nextPageCursor) := hparse
  exact (handleBybitResponse_eq_ok_iff hbody).mpr ⟨envelope, hdecodes, rfl⟩

theorem longPage_delivered {symbol nextPageCursor : String}
    (hparse : listsText.parse (longText symbol nextPageCursor) =
      .ok (longJson symbol nextPageCursor)) :
    DeliversPage listsText (.documented sizeNumber) (.documented sizeNumber) .Positions
      (.ok (answer (longText symbol nextPageCursor))) (longPage symbol) nextPageCursor := by
  refine delivers_of_result hparse ?_
  have hlist : readList (PositionRecord.fromJson (.documented sizeNumber) (.documented sizeNumber))
      (.object [("list", .array [longRow symbol]),
        ("nextPageCursor", .string nextPageCursor)]) = .ok (longPage symbol).positions := by
    show [longRow symbol].mapM
      (PositionRecord.fromJson (.documented sizeNumber) (.documented sizeNumber)) = _
    rw [List.mapM_cons, longPosition_decoded]
    rfl
  have hcategory : readCategory (.documented sizeNumber) (.object [("list", .array
      [longRow symbol]), ("nextPageCursor", .string nextPageCursor)]) = .ok .linear := rfl
  simp only [ReplyType.ofResult, Positions.ofResult, hcategory, hlist]
  rfl

/-- What is asked under a cursor is answered with the second text. -/
theorem pagedExchange_second (first second cursor : String) (category : Category)
    (h : cursor ≠ "") :
    pagedExchange first second "/v5/position/list"
        (withCursor (positionParameters category "") cursor) = .ok (answer second) := by
  simp [pagedExchange, withCursor, h]

theorem pagedExchange_first (first second : String) (category : Category) :
    pagedExchange first second "/v5/position/list"
        (withCursor (positionParameters category "") "") = .ok (answer first) := by
  simp [pagedExchange, withCursor, positionParameters]

theorem noOrders_delivered :
    DeliversPage listsText (.documented sizeNumber) (.documented sizeNumber) .OrdersResponse
      (.ok (answer noOrders)) { category := .linear, orders := [] } "" := by
  exact delivers_of_result listsText_noOrders rfl

/-- An exchange with a position on a single page. -/
theorem servesPositions_single : ServesPositions listsText (.documented sizeNumber)
    (.documented sizeNumber) (pagedExchange (longText "ETHUSDT" "") noOrders) .linear
    [longPage "ETHUSDT"] := by
  refine .last ?_
  rw [pagedExchange_first]
  exact longPage_delivered listsText_second

/-- An exchange with a position on each of two pages. -/
theorem servesPositions_two : ServesPositions listsText (.documented sizeNumber)
    (.documented sizeNumber)
    (pagedExchange (longText "BTCUSDT" "second") (longText "ETHUSDT" "")) .linear
    [longPage "BTCUSDT", longPage "ETHUSDT"] := by
  have hmore : "second" ≠ "" := by decide
  refine .more ?_ hmore (.last ?_)
  · rw [pagedExchange_first]
    exact longPage_delivered rfl
  · rw [pagedExchange_second _ _ _ _ (by decide)]
    exact longPage_delivered listsText_second

theorem servesOrders_none (first second : String) : ServesOrders listsText
    (.documented sizeNumber) (.documented sizeNumber) (pagedExchange first second) .linear
    "BTCUSDT" [{ category := .linear, orders := [] }] := by
  refine .last ?_
  have hanswer : pagedExchange first second "/v5/order/realtime"
      (withCursor (openOrdersParameters .linear "BTCUSDT") "") = .ok (answer noOrders) := by
    simp [pagedExchange]
  rw [hanswer]
  exact noOrders_delivered

theorem listings_complete_iff_singlePage :
    ListingsComplete listsText (.documented sizeNumber) (.documented sizeNumber) .documented
      (fun _ _ => .error (.transport "not asked"))
      (fun _ _ => .ok { orderId := "1", orderLinkId := "" })
      (pagedExchange (longText "ETHUSDT" "") noOrders) 0 { instruments := [btcInstrument] } .linear
      "BTCUSDT" (longPage "ETHUSDT").positions [] :=
  (listings_complete_iff servesPositions_single (servesOrders_none _ _)).mpr
    ⟨rfl, rfl, .inr ⟨[btcInstrument], _, rfl, trivial⟩⟩

/-- **A page that is not asked for.**  Listings can be incomplete. -/
theorem second_page_is_missed :
    ¬ ∀ (text : JsonText) (common : VkCommon) (readers : ReplyReaders) (format : OrderFormat)
      (endpoint : Endpoint Instruments) (create : Nat → Json → Except ApiError OrderId)
      (get : String → Parameters → Except String HttpResponse) (fuel : Nat) (client : RestClient)
      (category : Category) (symbol : String) (positionPages : List Positions)
      (orderPages : List OrdersResponse),
        ServesPositions text common readers get category positionPages →
          ServesOrders text common readers get category symbol orderPages →
            ListingsComplete text common readers format endpoint create get fuel client category
              symbol (positionPages.flatMap Positions.positions)
              (orderPages.flatMap OrdersResponse.orders) := by
  intro h
  obtain ⟨hlist, -, -⟩ := h listsText (.documented sizeNumber) (.documented sizeNumber) .documented
    (fun _ _ => .error (.transport "not asked"))
    (fun _ _ => .ok { orderId := "1", orderLinkId := "" }) _ 0 { instruments := [btcInstrument] }
    .linear "BTCUSDT" _ _ servesPositions_two (servesOrders_none _ _)
  obtain ⟨page, rest, hpages, hfirst⟩ := getPositionInfo_of_serves servesPositions_two
  obtain ⟨rfl, -⟩ := List.cons.inj hpages
  rw [hlist] at hfirst
  have hlength := congrArg List.length (Except.ok.inj hfirst)
  exact absurd hlength (by decide)

end BybitApi
