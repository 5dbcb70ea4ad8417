import BybitApi.HttpSession

/-!
# A request is signed over what is sent

The text that a GET request signs is rebuilt from its headers and from its target,
whatever the parameters contain, since the first `?` of the target is the one that
the session put there.  A POST request signs the JSON without the signature and
sends it with the signature; taking the member out again gives what was signed.
-/

namespace BybitApi

/-- The part of a target behind its first `?`, if there is one. -/
def afterQuestionMark (target : String) : String :=
  String.ofList ((target.toList.dropWhile fun c => c != '?').drop 1)

/-- What a server rebuilds from a GET request. -/
def rebuiltText (req : HttpRequest) : Option String := do
  let ts ← req.find? "X-BAPI-TIMESTAMP"
  let apiKey ← req.find? "X-BAPI-API-KEY"
  let receiveWindow ← req.find? "X-BAPI-RECV-WINDOW"
  return ts ++ apiKey ++ receiveWindow ++ afterQuestionMark req.target

/-- An entry of a query string. -/
def queryEntry (parameter : String × String) : String := parameter.1 ++ "=" ++ parameter.2

/-! ### Query strings -/

theorem foldl_queryEntry (parameters : List (String × String)) (before : String) :
    parameters.foldl
        (fun queryStr parameter => queryStr ++ parameter.1 ++ "=" ++ parameter.2 ++ "&") before =
      before ++ String.join ((parameters.map queryEntry).map fun entry => entry ++ "&") := by
  induction parameters generalizing before with
  | nil => simp
  | cons parameter parameters ih =>
      rw [List.foldl_cons, ih]
      simp [queryEntry, String.append_assoc]

theorem join_separated (entry : String) (entries : List String) :
    String.join ((entry :: entries).map fun entry => entry ++ "&") =
      String.intercalate "&" (entry :: entries) ++ "&" := by
  induction entries generalizing entry with
  | nil => simp
  | cons next entries ih =>
      rw [List.map_cons, String.join_cons, ih, String.intercalate_cons_cons]
      simp [String.append_assoc]

theorem popBack_append (text : String) : popBack (text ++ "&") = text := by
  have hlist : (text ++ "&").toList = text.toList ++ ['&'] := by simp
  rw [popBack, hlist, List.dropLast_concat, String.ofList_toList]

theorem append_separator_ne (text : String) : text ++ "&" ≠ "" := by
  intro h
  have hlist := congrArg String.toList h
  simp at hlist

/-- The query string has every parameter, with separators in between. -/
theorem createQueryStr_eq (parameters : Parameters) :
    createQueryStr parameters =
      String.intercalate "&" (parameters.toList.map queryEntry) := by
  unfold createQueryStr
  rw [foldl_queryEntry, String.empty_append]
  cases parameters.toList with
  | nil => simp
  | cons parameter rest =>
      rw [List.map_cons, join_separated]
      simp only [append_separator_ne, ne_eq, not_false_eq_true, if_true, popBack_append]

/-- Every parameter is there once, in key order. -/
theorem parameters_once (parameters : Parameters) :
    (parameters.toList.Pairwise fun p q => p.1 < q.1) ∧
      ∀ key value, (key, value) ∈ parameters.toList ↔ parameters[key]? = some value := by
  refine ⟨?_, fun key value => Std.ExtTreeMap.mem_toList_iff_getElem?_eq_some⟩
  apply Std.ExtTreeMap.ordered_keys_toList.imp
  intro p q h
  exact compareOfLessAndEq_eq_lt.mp h

/-! ### Targets -/

theorem queryString_eq (target : String) :
    HttpSession.queryString target = afterQuestionMark target := by
  unfold HttpSession.queryString afterQuestionMark
  generalize target.toList = chars
  induction chars with
  | nil => rfl
  | cons c chars ih =>
      by_cases hc : c = '?'
      · simp [List.findIdx?_cons, hc]
      · have hpos : (c == '?') = false := by simpa using hc
        have hskip : (c :: chars).dropWhile (fun c => c != '?') =
            chars.dropWhile (fun c => c != '?') := by
          simp [hc]
        rw [List.findIdx?_cons, hpos, hskip, ← ih]
        cases chars.findIdx? fun c => c == '?' <;> rfl

theorem afterQuestionMark_of_notMem {path : String} (hpath : '?' ∉ path.toList) :
    afterQuestionMark path = "" := by
  have hnone : path.toList.dropWhile (fun c => c != '?') = [] := by
    rw [List.dropWhile_eq_nil_iff]
    intro c hc
    have hne : c ≠ '?' := fun h => hpath (h ▸ hc)
    simpa using hne
  rw [afterQuestionMark, hnone]
  rfl

/-- The query is found whatever it contains, as the path has no `?`. -/
theorem afterQuestionMark_append {path : String} (hpath : '?' ∉ path.toList) (query : String) :
    afterQuestionMark (path ++ "?" ++ query) = query := by
  have hskip : (path ++ "?" ++ query).toList.dropWhile (fun c => c != '?') =
      '?' :: query.toList := by
    rw [String.toList_append, String.toList_append, List.append_assoc,
      List.dropWhile_append_of_pos]
    · rfl
    · intro c hc
      have hne : c ≠ '?' := fun h => hpath (h ▸ hc)
      simpa using hne
  rw [afterQuestionMark, hskip, List.drop_one, List.tail_cons, String.ofList_toList]

namespace HttpSession

variable {signing : Signing} {text : JsonText} {session : HttpSession}

theorem afterQuestionMark_get (ts : Int) {path : String} (hpath : '?' ∉ path.toList)
    (parameters : Parameters) :
    afterQuestionMark (session.get signing ts path parameters).target =
      createQueryStr parameters := by
  have htarget : (session.get signing ts path parameters).target =
      if createQueryStr parameters ≠ "" then path ++ "?" ++ createQueryStr parameters
      else path := rfl
  rw [htarget]
  split
  · exact afterQuestionMark_append hpath _
  · next hempty =>
      rw [afterQuestionMark_of_notMem hpath]
      exact (not_not.mp hempty).symm

/-- The fields of a GET request, as they arrive. -/
theorem get_fields (ts : Int) (path : String) (parameters : Parameters) :
    (session.get signing ts path parameters).find? "X-BAPI-TIMESTAMP" = some (toString ts) ∧
      (session.get signing ts path parameters).find? "X-BAPI-API-KEY" = some session.apiKey ∧
      (session.get signing ts path parameters).find? "X-BAPI-RECV-WINDOW" =
        some (toString session.receiveWindow) ∧
      (session.get signing ts path parameters).find? "X-BAPI-SIGN" =
        some (signing.stringToHex (signing.hmac session.apiSecret
          (session.parameterString ts (session.get signing ts path parameters).target))) := by
  unfold get transmitted authenticateNonPost
  refine ⟨?_, ?_, ?_, ?_⟩
  all_goals
    repeat rw [HttpRequest.find?_set_of_ne _ _ (by decide)]
    exact HttpRequest.find?_set_self _ _ _

/-- What a GET request signs is what the server rebuilds. -/
theorem rebuiltText_get (ts : Int) (path : String) (parameters : Parameters) :
    rebuiltText (session.get signing ts path parameters) =
      some (session.parameterString ts (session.get signing ts path parameters).target) := by
  have hfields : (session.get signing ts path parameters).find? "X-BAPI-TIMESTAMP" =
      some (toString ts) ∧ _ := get_fields ts path parameters
  obtain ⟨hts, hkey, hwindow, -⟩ := hfields
  rw [rebuiltText, hts, hkey, hwindow, parameterString, queryString_eq]
  rfl

end HttpSession

/-! ### Signed JSON -/

namespace Json

/-- Erasing a member that was not there before restores the object. -/
theorem filter_setMember {key : String} (value : Json) {members : List (String × Json)}
    (h : ∀ member ∈ members, member.1 ≠ key) :
    (setMember key value members).filter (fun member => member.1 ≠ key) = members := by
  have hkept : ∀ {rest : List (String × Json)}, (∀ member ∈ rest, member.1 ≠ key) →
      rest.filter (fun member => member.1 ≠ key) = rest := by
    intro rest hrest
    rw [List.filter_eq_self]
    intro member hmember
    simpa using hrest member hmember
  fun_induction setMember key value members with
  | case1 => simp
  | case2 value' members => exact absurd rfl (h (key, value') List.mem_cons_self)
  | case3 key' value' members hne hlt =>
      rw [List.filter_cons_of_neg (by simp)]
      exact hkept h
  | case4 key' value' members hne hge ih =>
      have hkey : key' ≠ key := h (key', value') List.mem_cons_self
      rw [List.filter_cons_of_pos (by simpa using hkey)]
      exact congrArg _ (ih fun member hmember => h member (List.mem_cons_of_mem _ hmember))

theorem setMember_ne {key key' : String} (value : Json) {members : List (String × Json)}
    (hne : key' ≠ key) (h : ∀ member ∈ members, member.1 ≠ key) :
    ∀ member ∈ setMember key' value members, member.1 ≠ key := by
  fun_induction setMember key' value members with
  | case1 => simpa using hne
  | case2 value' members =>
      rw [List.forall_mem_cons] at h ⊢
      exact ⟨hne, h.2⟩
  | case3 key'' value' members _ hlt =>
      rw [List.forall_mem_cons]
      exact ⟨hne, h⟩
  | case4 key'' value' members _ hge ih =>
      rw [List.forall_mem_cons] at h ⊢
      exact ⟨h.1, ih h.2⟩

end Json

namespace HttpSession

variable {signing : Signing} {text : JsonText} {session : HttpSession}

/-- The JSON that is sent, and what is left of it without the signature. -/
theorem signedJson_eq (ts : Int) {members : List (String × Json)}
    (hsign : ∀ member ∈ members, member.1 ≠ "sign") :
    ∃ extended sent, session.extendedJson ts (.object members) = .ok extended ∧
      session.signedJson signing ts (.object members) = .ok sent ∧
      sent.erase "sign" = extended ∧
      sent.find? "sign" = some (.string (signing.stringToHex
        (signing.hmac session.apiSecret (signing.queryStringFromJson extended)))) := by
  let extended := Json.setMember "api_key" (.string session.apiKey)
    (Json.setMember "recv_window" (.integer session.receiveWindow)
      (Json.setMember "timestamp" (.integer ts) members))
  have hunsigned : ∀ member ∈ extended, member.1 ≠ "sign" :=
    Json.setMember_ne _ (by decide) (Json.setMember_ne _ (by decide)
      (Json.setMember_ne _ (by decide) hsign))
  let signature := signing.stringToHex
    (signing.hmac session.apiSecret (signing.queryStringFromJson (.object extended)))
  refine ⟨.object extended, .object (Json.setMember "sign" (.string signature) extended), rfl, rfl,
    ?_, ?_⟩
  · exact congrArg Json.object (Json.filter_setMember _ hunsigned)
  · exact (Json.lookup_setMember _ _ _ _).trans (if_pos rfl)

theorem post_of_signedJson {ts : Int} {json sent : Json} (path : String)
    (h : session.signedJson signing ts json = .ok sent) :
    ∃ req, session.post signing text ts path json = .ok req ∧ req.body = text.dump sent := by
  unfold post authenticatePost
  rw [h]
  exact ⟨_, rfl, rfl⟩

/-- **Every request is signed over what is sent.**  The text signed for a GET request
    is the one rebuilt from its headers and its target, whose query has every
    parameter once in key order; the text signed for a POST request is that of the
    JSON sent, without its signature. -/
theorem signed_as_sent (signing : Signing) (text : JsonText) (session : HttpSession) (ts : Int)
    {path : String} (hpath : '?' ∉ path.toList) (parameters : Parameters) (postPath : String)
    {members : List (String × Json)} (hsign : ∀ member ∈ members, member.1 ≠ "sign")
    (hundoes : ∀ sent, session.signedJson signing ts (.object members) = .ok sent →
      text.parse (text.dump sent) = .ok sent) :
    (∃ signed, rebuiltText (session.get signing ts path parameters) = some signed ∧
        signed = session.parameterString ts (session.get signing ts path parameters).target ∧
        (session.get signing ts path parameters).find? "X-BAPI-SIGN" =
          some (signing.stringToHex (signing.hmac session.apiSecret signed)) ∧
        afterQuestionMark (session.get signing ts path parameters).target =
          createQueryStr parameters) ∧
      (createQueryStr parameters = String.intercalate "&" (parameters.toList.map queryEntry) ∧
        (parameters.toList.Pairwise fun p q => p.1 < q.1) ∧
        ∀ key value, (key, value) ∈ parameters.toList ↔ parameters[key]? = some value) ∧
      ∃ req extended sent, session.post signing text ts postPath (.object members) = .ok req ∧
        session.extendedJson ts (.object members) = .ok extended ∧
        text.parse req.body = .ok sent ∧
        signing.queryStringFromJson (sent.erase "sign") =
          signing.queryStringFromJson extended ∧
        sent.find? "sign" = some (.string (signing.stringToHex
          (signing.hmac session.apiSecret (signing.queryStringFromJson extended)))) := by
  refine ⟨⟨_, rebuiltText_get ts path parameters, rfl, ?_,
      afterQuestionMark_get ts hpath parameters⟩,
    ⟨createQueryStr_eq parameters, parameters_once parameters⟩, ?_⟩
  · exact (get_fields ts path parameters).2.2.2
  · obtain ⟨extended, sent, hextended, hsent, herase, hsignature⟩ :
        ∃ extended sent, session.extendedJson ts (.object members) = .ok extended ∧
          session.signedJson signing ts (.object members) = .ok sent ∧ _ :=
      signedJson_eq ts hsign
    obtain ⟨req, hpost, hbody⟩ : ∃ req, session.post signing text ts postPath (.object members) =
        .ok req ∧ _ := post_of_signedJson postPath hsent
    refine ⟨req, extended, sent, hpost, hextended, ?_, ?_, hsignature⟩
    · rw [hbody]
      exact hundoes sent hsent
    · rw [herase]

/-! ### Two requests -/

def exampleSession : HttpSession where
  apiKey := "key"
  apiSecret := "secret"

def exampleParameters : Parameters :=
  ((∅ : Parameters).insert "symbol" "BTC?USDT").insert "category" "linear"

def exampleOrder : List (String × Json) :=
  [("category", .string "linear"), ("symbol", .string "BTCUSDT")]

/-- The text of a value without members, as it stands in a query or, quoted, in a
    JSON. -/
def flatText (quote : String) : Json → String
  | .string value => quote ++ value ++ quote
  | .integer value => toString value
  | _ => "null"

def flatMembers : Json → List (String × Json)
  | .object members => members
  | _ => []

/-- HMAC-SHA256 at the two texts that are signed. -/
def exampleHmac (_key data : String) : List UInt8 :=
  if data = "1672531200000key25000category=linear&symbol=BTC?USDT" then
    [39, 226, 117, 127, 201, 197, 34, 247, 53, 203, 243, 218, 213, 43, 171, 231,
      184, 104, 222, 237, 179, 23, 19, 89, 39, 95, 192, 148, 191, 204, 66, 130]
  else
    [157, 6, 203, 172, 149, 79, 145, 210, 155, 209, 143, 197, 53, 193, 0, 0,
      82, 191, 131, 27, 140, 136, 162, 156, 164, 12, 127, 206, 229, 230, 132, 31]

def exampleSigning : Signing where
  beastVersion := "Boost.Beast/351"
  hmac := exampleHmac
  stringToHex digest := String.ofList
    (digest.flatMap fun byte => [(byte.toNat / 16).digitChar, (byte.toNat % 16).digitChar])
  queryStringFromJson json := String.intercalate "&"
    ((flatMembers json).map fun member => member.1 ++ "=" ++ flatText "" member.2)

def exampleSent : Json :=
  match exampleSession.signedJson exampleSigning 1672531200000 (.object exampleOrder) with
  | .ok sent => sent
  | .error _ => .null

def flatDump (json : Json) : String :=
  "\x7b" ++ String.intercalate ","
    ((flatMembers json).map fun member => flatText "\"" (.string member.1) ++ ":" ++
      flatText "\"" member.2) ++ "\x7d"

def exampleText : JsonText where
  dump := flatDump
  parse text := if text = flatDump exampleSent then .ok exampleSent
    else .error (.json "parse_error.101")

theorem signed_as_sent_order :
    rebuiltText (exampleSession.get exampleSigning 1672531200000 "/v5/market/tickers"
        exampleParameters) =
      some (exampleSession.parameterString 1672531200000 (exampleSession.get exampleSigning
        1672531200000 "/v5/market/tickers" exampleParameters).target) ∧
      ∃ req extended sent, exampleSession.post exampleSigning exampleText 1672531200000
          "/v5/order/create" (.object exampleOrder) = .ok req ∧
        exampleSession.extendedJson 1672531200000 (.object exampleOrder) = .ok extended ∧
        exampleText.parse req.body = .ok sent ∧
        exampleSigning.queryStringFromJson (sent.erase "sign") =
          exampleSigning.queryStringFromJson extended := by
  have hundoes : ∀ sent, exampleSession.signedJson exampleSigning 1672531200000
      (.object exampleOrder) = .ok sent → exampleText.parse (exampleText.dump sent) = .ok sent := by
    intro sent hsent
    have hexample : sent = exampleSent := by
      rw [exampleSent, hsent]
    rw [hexample]
    simp only [exampleText, if_true]
  obtain ⟨⟨signed, hrebuilt, hsigned, -⟩, -, req, extended, sent, hpost, hextended, hparse, hquery,
    -⟩ := signed_as_sent exampleSigning exampleText exampleSession 1672531200000
      (show '?' ∉ "/v5/market/tickers".toList by decide) exampleParameters "/v5/order/create"
      (show ∀ member ∈ exampleOrder, member.1 ≠ "sign" by decide) hundoes
  exact ⟨hsigned ▸ hrebuilt, req, extended, sent, hpost, hextended, hparse, hquery⟩

end HttpSession

end BybitApi
