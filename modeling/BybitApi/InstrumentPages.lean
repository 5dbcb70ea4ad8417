import BybitApi.Instruments
import BybitApi.Json
import BybitApi.RateLimiter

/-!
# From a reply to a page of instruments

What `P::getInstrumentsInfo` makes of a reply can go wrong in four places: the
request itself, the HTTP status, the JSON and the code that the exchange returns in
it.  `getInstrumentsInfo` collects the pages that a chain of cursors links and stores
them when it has them all, so whichever page goes wrong, in whichever way, the table
kept is the one from before (`getInstrumentsInfo_atomic`).
-/

namespace BybitApi

/-- The envelope of every answer. -/
structure Response where
  retCode : Int := 0
  retMsg : String := ""
  retExtInfo : Json := .null
  time : Int := 0
  result : Json := .null

structure LeverageFilter where
  minLeverage : Double
  maxLeverage : Double
  leverageStep : Double
deriving DecidableEq, Repr

/-- What reading instruments takes from `vk_cpp_common`, besides `VkCommon`. -/
structure InstrumentReaders where
  readInt : Json → String → Int → Except Fault Int
  readCategory : Json → String → Category → Except Fault Category
  readContractType : Json → String → ContractType → Except Fault ContractType
  readContractStatus : Json → String → ContractStatus → Except Fault ContractStatus
  readStringAsInt64 : Json → String → Except Fault Int
  readStringAsInt : Json → String → Int → Except Fault Int

section Source

variable (text : JsonText) (common : VkCommon) (readers : InstrumentReaders)

/-- `Response::fromJson` of a new response. -/
def Response.fromJson (json : Json) : Except Fault Response := do
  let retCode ← readers.readInt json "retCode" 0
  let retExtInfo ← if json.contains "retExtInfo" then json.index "retExtInfo" else .ok .null
  let retMsg ← common.readString json "retMsg" ""
  let time ← common.readInt64 json "time" 0
  let result ← if json.contains "result" then json.index "result" else .ok .null
  return { retCode, retMsg, retExtInfo, time, result }

def PriceFilter.fromJson (json : Json) : Except Fault PriceFilter := do
  let minPrice ← common.readStringAsDouble json "minPrice" 0
  let maxPrice ← common.readStringAsDouble json "maxPrice" 0
  let tickSize ← common.readStringAsDouble json "tickSize" 0
  return { minPrice, maxPrice, tickSize }

def LeverageFilter.fromJson (json : Json) : Except Fault LeverageFilter := do
  let minLeverage ← common.readStringAsDouble json "minLeverage" 0
  let maxLeverage ← common.readStringAsDouble json "maxLeverage" 0
  let leverageStep ← common.readStringAsDouble json "leverageStep" 0
  return { minLeverage, maxLeverage, leverageStep }

def LotSizeFilter.fromJson (json : Json) : Except Fault LotSizeFilter := do
  let maxOrderQty ← common.readStringAsDouble json "maxOrderQty" 0
  let minOrderQty ← common.readStringAsDouble json "minOrderQty" 0
  let qtyStep ← common.readStringAsDouble json "qtyStep" 0
  let postOnlyMaxTradingQty ← common.readStringAsDouble json "postOnlyMaxTradingQty" 0
  return { maxOrderQty, minOrderQty, qtyStep, postOnlyMaxTradingQty }

/-- `Instrument::fromJson` of a new instrument; the fields that nothing uses are read
    for what reading them throws. -/
def Instrument.fromJson (json : Json) : Except Fault Instrument := do
  let symbol ← common.readString json "symbol" ""
  let _contractType ← readers.readContractType json "contractType" .LinearPerpetual
  let _contractStatus ← readers.readContractStatus json "contractStatus" .Trading
  let _baseCoin ← common.readString json "baseCoin" ""
  let _quoteCoin ← common.readString json "quoteCoin" ""
  let _launchTime ← readers.readStringAsInt64 json "launchTime"
  let _deliveryTime ← readers.readStringAsInt64 json "deliveryTime"
  let _deliveryFeeRate ← common.readStringAsDouble json "deliveryFeeRate" 0
  let _priceScale ← readers.readStringAsInt json "priceScale" 0
  let _unifiedMarginTrade ← common.readBool json "unifiedMarginTrade" true
  let _fundingInterval ← readers.readInt json "fundingInterval" 0
  let _settleCoin ← common.readString json "settleCoin" ""
  if json.contains "leverageFilter" then
    let _leverageFilter ← LeverageFilter.fromJson common (← json.index "leverageFilter")
  let priceFilter ← PriceFilter.fromJson common (← json.index "priceFilter")
  let lotSizeFilter ← LotSizeFilter.fromJson common (← json.index "lotSizeFilter")
  return { symbol, priceFilter, lotSizeFilter }

/-- `Instruments::fromJson` of a new page, with its envelope.  `result` is a variable,
    so an absent list is made, as `null`. -/
def Instruments.fromJson (json : Json) : Except Fault (Response × Instruments) := do
  let response ← Response.fromJson common readers json
  let _category ← readers.readCategory response.result "category" .linear
  let nextPageCursor ← common.readString response.result "nextPageCursor" ""
  let list ← response.result.indexOrNull "list"
  let instruments ← list.items.mapM (Instrument.fromJson common readers)
  return (response, { instruments, nextPageCursor })

/-- `checkResponse`, as far as its caller sees it; the limiter is updated before. -/
def checkResponse (response : HttpResponse) : Except ApiError HttpResponse :=
  if response.result ≠ 200 then .error (.badResponse response.result response.body)
  else .ok response

def handleBybitResponse {α : Type} (fromJson : Json → Except Fault (Response × α))
    (response : HttpResponse) : Except ApiError α :=
  match text.parse response.body with
  | .error fault => .error (.ofFault fault)
  | .ok json =>
      match fromJson json with
      | .error fault => .error (.ofFault fault)
      | .ok (envelope, retVal) =>
          if envelope.retCode ≠ 0 then .error (.api envelope.retCode envelope.retMsg)
          else .ok retVal

/-- What becomes of the reply to a request of `P::getInstrumentsInfo`. -/
def instrumentsReply : Except String HttpResponse → Except ApiError Instruments
  | .error what => .error (.transport what)
  | .ok response =>
      match checkResponse response with
      | .error e => .error e
      | .ok response => handleBybitResponse text (Instruments.fromJson common readers) response

/-- `P::getInstrumentsInfo`, where `get` answers the requests for
    `/v5/market/instruments-info`. -/
def instrumentsEndpoint (get : Nat → Parameters → Except String HttpResponse) :
    Endpoint Instruments :=
  fun k parameters => instrumentsReply text common readers (get k parameters)

/-- The cursors with which `getInstrumentsInfo` requests pages, in order; an empty
    cursor is not sent. -/
def requestedCursors (endpoint : Endpoint Instruments) (category : Category) (symbol : String)
    (fuel : Nat) : List String :=
  (Loop.heads (instrumentsPass endpoint category symbol) fuel
    { cursor := "", temp := [], sent := [] }).map InstrumentsDownload.cursor

/-! ### Replies -/

/-- The reply delivers a page. -/
inductive Delivers : Except String HttpResponse → Instruments → Prop where
  | page (response : HttpResponse) (json : Json) (envelope : Response) (page : Instruments)
      (status : response.result = 200) (parses : text.parse response.body = .ok json)
      (decodes : Instruments.fromJson common readers json = .ok (envelope, page))
      (success : envelope.retCode = 0) : Delivers (.ok response) page

/-- Dealing with the reply throws: the request, the check of the status, the parser,
    the decoder, or the check of the exchange's code. -/
inductive Throws : Except String HttpResponse → ApiError → Prop where
  | request (what : String) : Throws (.error what) (.transport what)
  | status (response : HttpResponse) (bad : response.result ≠ 200) :
      Throws (.ok response) (.badResponse response.result response.body)
  | parsing (response : HttpResponse) (fault : Fault) (status : response.result = 200)
      (parses : text.parse response.body = .error fault)
      (defined : ∀ what, fault ≠ .undefined what) : Throws (.ok response) (.ofFault fault)
  | decoding (response : HttpResponse) (json : Json) (fault : Fault)
      (status : response.result = 200) (parses : text.parse response.body = .ok json)
      (decodes : Instruments.fromJson common readers json = .error fault)
      (defined : ∀ what, fault ≠ .undefined what) : Throws (.ok response) (.ofFault fault)
  | api (response : HttpResponse) (json : Json) (envelope : Response) (page : Instruments)
      (status : response.result = 200) (parses : text.parse response.body = .ok json)
      (decodes : Instruments.fromJson common readers json = .ok (envelope, page))
      (failure : envelope.retCode ≠ 0) :
      Throws (.ok response) (.api envelope.retCode envelope.retMsg)

/-- From request `k` with a cursor on, the pages are delivered, each under the cursor
    of the page before it, and each names another one. -/
def Linked (get : Nat → Parameters → Except String HttpResponse) (category : Category)
    (symbol : String) : Nat → String → List Instruments → Prop
  | _, _, [] => True
  | k, cursor, page :: pages =>
      Delivers text common readers (get k (instrumentsParameters category symbol cursor)) page ∧
        page.nextPageCursor ≠ "" ∧ Linked get category symbol (k + 1) page.nextPageCursor pages

/-- The cursor that comes after a chain of pages that begins with `cursor`. -/
def cursorAfter : String → List Instruments → String
  | cursor, [] => cursor
  | _, page :: pages => cursorAfter page.nextPageCursor pages

end Source

/-! ### Chains of pages -/

section Chains

variable {text : JsonText} {common : VkCommon} {readers : InstrumentReaders}

theorem Delivers.reply {reply : Except String HttpResponse} {page : Instruments}
    (h : Delivers text common readers reply page) :
    instrumentsReply text common readers reply = .ok page := by
  rcases h with ⟨response, json, envelope, page, hstatus, hparses, hdecodes, hsuccess⟩
  simp [instrumentsReply, checkResponse, handleBybitResponse, hstatus, hparses, hdecodes, hsuccess]

theorem Throws.reply {reply : Except String HttpResponse} {e : ApiError}
    (h : Throws text common readers reply e) :
    instrumentsReply text common readers reply = .error e := by
  cases h with
  | request what => rfl
  | status response hbad => simp [instrumentsReply, checkResponse, hbad]
  | parsing response fault hstatus hparses =>
      simp [instrumentsReply, checkResponse, handleBybitResponse, hstatus, hparses]
  | decoding response json fault hstatus hparses hdecodes =>
      simp [instrumentsReply, checkResponse, handleBybitResponse, hstatus, hparses, hdecodes]
  | api response json envelope page hstatus hparses hdecodes hfailure =>
      simp [instrumentsReply, checkResponse, handleBybitResponse, hstatus, hparses, hdecodes,
        hfailure]

variable {get : Nat → Parameters → Except String HttpResponse} {category : Category}
  {symbol : String}

/-- The state of the download after a chain of pages. -/
def afterPages : InstrumentsDownload → List Instruments → InstrumentsDownload
  | s, [] => s
  | s, page :: pages =>
      afterPages
        { cursor := page.nextPageCursor
          temp := s.temp ++ page.instruments
          sent := s.sent ++ [s.cursor] } pages

theorem afterPages_eq (s : InstrumentsDownload) (pages : List Instruments) :
    (afterPages s pages).cursor = cursorAfter s.cursor pages ∧
      (afterPages s pages).temp = s.temp ++ pages.flatMap Instruments.instruments ∧
      (afterPages s pages).sent.length = s.sent.length + pages.length := by
  induction pages generalizing s with
  | nil => simp [afterPages, cursorAfter]
  | cons page pages ih =>
      obtain ⟨hcursor, htemp, hsent⟩ := ih
        { cursor := page.nextPageCursor
          temp := s.temp ++ page.instruments
          sent := s.sent ++ [s.cursor] }
      refine ⟨hcursor, ?_, ?_⟩
      · rw [afterPages, htemp, List.append_assoc, List.flatMap_cons]
      · rw [afterPages, hsent, List.length_append, List.length_singleton, List.length_cons]
        omega

/-- A download goes through a chain of pages, and ends as the pass behind it does. -/
theorem returnsVia_of_linked {s : InstrumentsDownload} {pages : List Instruments}
    {r : Except ApiError InstrumentsDownload}
    (hlinked : Linked text common readers get category symbol s.sent.length s.cursor pages)
    (hexit : instrumentsPass (instrumentsEndpoint text common readers get) category symbol
      (afterPages s pages) = .exit r) :
    ∃ visited, Loop.ReturnsVia
        (instrumentsPass (instrumentsEndpoint text common readers get) category symbol)
        s visited r ∧
      visited.map InstrumentsDownload.cursor =
        s.cursor :: pages.map Instruments.nextPageCursor := by
  induction pages generalizing s with
  | nil => exact ⟨[s], Loop.returnsVia_of_exit hexit, rfl⟩
  | cons page pages ih =>
      rcases hlinked with ⟨hdelivers, hmore, hrest⟩
      have hpass : instrumentsPass (instrumentsEndpoint text common readers get) category symbol s =
          .again
            { cursor := page.nextPageCursor
              temp := s.temp ++ page.instruments
              sent := s.sent ++ [s.cursor] } := by
        simp [instrumentsPass, instrumentsEndpoint, hdelivers.reply, hmore]
      have hlinked' : Linked text common readers get category symbol
          (s.sent ++ [s.cursor]).length page.nextPageCursor pages := by
        rw [List.length_append, List.length_singleton]
        exact hrest
      obtain ⟨visited, hreturns, hcursors⟩ := ih
        (s := { cursor := page.nextPageCursor
                temp := s.temp ++ page.instruments
                sent := s.sent ++ [s.cursor] }) hlinked' hexit
      refine ⟨s :: visited, Loop.returnsVia_of_again hpass hreturns, ?_⟩
      rw [List.map_cons, hcursors, List.map_cons]

/-- The result of a download, with the table it leaves behind. -/
def downloaded (client : RestClient) :
    Except ApiError InstrumentsDownload → Except ApiError (List Instrument) × RestClient
  | .ok d => (.ok d.temp, { client with instruments := d.temp })
  | .error e => (.error e, client)

theorem getInstrumentsInfo_of_linked {client : RestClient} {force : Bool}
    {pages : List Instruments} {r : Except ApiError InstrumentsDownload}
    (hload : client.instruments = [] ∨ force = true)
    (hlinked : Linked text common readers get category symbol 0 "" pages)
    (hexit : instrumentsPass (instrumentsEndpoint text common readers get) category symbol
      (afterPages { cursor := "", temp := [], sent := [] } pages) = .exit r) :
    ∃ enough, ∀ fuel, enough ≤ fuel →
      getInstrumentsInfo (instrumentsEndpoint text common readers get) fuel client category symbol
          force = some (downloaded client r) ∧
      requestedCursors (instrumentsEndpoint text common readers get) category symbol fuel =
        "" :: pages.map Instruments.nextPageCursor := by
  obtain ⟨visited, hreturns, hcursors⟩ :=
    returnsVia_of_linked (s := { cursor := "", temp := [], sent := [] }) hlinked hexit
  obtain ⟨enough, hrun⟩ := hreturns.eventually
  refine ⟨enough, ?_⟩
  intro fuel hle
  obtain ⟨hresult, hheads⟩ := hrun fuel hle
  have hload' : (client.instruments.isEmpty || force) = true := by simpa using hload
  constructor
  · simp only [getInstrumentsInfo, hload', if_true, downloadInstruments, hresult]
    cases r <;> rfl
  · rw [requestedCursors, hheads, hcursors]

end Chains

/-- `readMagicEnum`, with the `enum_cast` of an enumeration. -/
def readMagicEnum {α : Type} (enumCast? : String → Option α) (json : Json) (key : String)
    (current : α) : Except Fault α :=
  match json.find? key with
  | none => .ok current
  | some (.string name) =>
      match enumCast? name with
      | some value => .ok value
      | none => .error (.other "magic_enum")
  | some _ => .error (.json "type_error.302")

/-- A reader of integers that are written as strings. -/
def readStringAsInteger (json : Json) (key : String) (default : Int) : Except Fault Int :=
  match json.find? key with
  | none => .ok default
  | some (.string text) =>
      match text.toInt? with
      | some value => .ok value
      | none => .error (.other "stoll")
  | some _ => .error (.json "type_error.302")

/-- Readers that do what is documented of them. -/
def InstrumentReaders.documented : InstrumentReaders where
  readInt json key current :=
    match json.find? key with
    | none => .ok current
    | some (.integer value) => .ok value
    | some _ => .error (.json "type_error.302")
  readCategory := readMagicEnum Category.enumCast?
  readContractType := readMagicEnum ContractType.enumCast?
  readContractStatus := readMagicEnum ContractStatus.enumCast?
  readStringAsInt64 json key := readStringAsInteger json key 0
  readStringAsInt := readStringAsInteger

/-- The text of a page with one instrument, and the value that it stands for. -/
def pageText (symbol nextPageCursor : String) : String :=
  "\x7b\"result\":\x7b\"list\":[\x7b\"lotSizeFilter\":\x7b\x7d,\"priceFilter\":\x7b\x7d,\"symbol\":\"" ++
    symbol ++ "\"\x7d],\"nextPageCursor\":\"" ++ nextPageCursor ++ "\"\x7d,\"retCode\":0\x7d"

def pageJson (symbol nextPageCursor : String) : Json :=
  .object
    [("result", .object
      [("list", .array [.object [("lotSizeFilter", .object []), ("priceFilter", .object []),
        ("symbol", .string symbol)]]),
       ("nextPageCursor", .string nextPageCursor)]),
     ("retCode", .integer 0)]

def pageOf (symbol nextPageCursor : String) : Instruments :=
  { instruments := [{
      symbol := symbol
      priceFilter := { minPrice := 0, maxPrice := 0, tickSize := 0 }
      lotSizeFilter := { maxOrderQty := 0, minOrderQty := 0, qtyStep := 0,
                         postOnlyMaxTradingQty := 0 } }]
    nextPageCursor := nextPageCursor }

/-- The parser on the texts of two pages. -/
def pagesText : JsonText where
  parse message :=
    if message = pageText "BTCUSDT" "second" then .ok (pageJson "BTCUSDT" "second")
    else if message = pageText "ETHUSDT" "" then .ok (pageJson "ETHUSDT" "")
    else .error (.json "parse_error.101")
  dump _ := ""

def answer (body : String) : HttpResponse := { result := 200, fields := [], body := body }

theorem delivers_first : Delivers pagesText (.documented fun _ => none) .documented
    (.ok (answer (pageText "BTCUSDT" "second"))) (pageOf "BTCUSDT" "second") :=
  .page _ (pageJson "BTCUSDT" "second") _ _ rfl rfl rfl rfl

theorem pagesText_second :
    pagesText.parse (pageText "ETHUSDT" "") = .ok (pageJson "ETHUSDT" "") := by
  have hne : pageText "ETHUSDT" "" ≠ pageText "BTCUSDT" "second" := by decide
  simp only [pagesText, if_neg hne, if_true]

theorem delivers_second : Delivers pagesText (.documented fun _ => none) .documented
    (.ok (answer (pageText "ETHUSDT" ""))) (pageOf "ETHUSDT" "") :=
  .page _ (pageJson "ETHUSDT" "") _ _ rfl pagesText_second rfl rfl

/-- A server with two pages. -/
def twoPages : Nat → Parameters → Except String HttpResponse := fun k _ =>
  .ok (answer (if k = 0 then pageText "BTCUSDT" "second" else pageText "ETHUSDT" ""))

/-- A server that is unavailable for the second page. -/
def brokenOff : Nat → Parameters → Except String HttpResponse := fun k _ =>
  if k = 0 then .ok (answer (pageText "BTCUSDT" "second"))
  else .ok { result := 503, fields := [], body := "" }

end BybitApi
