import BybitApi.Json

/-!
# The HTTPS session

`HTTPSession` puts the parameters of a GET request into its target and the JSON of
a POST request into its body, and signs either with the API secret.  The hash, its
text form and the text that is made of a JSON are not part of this repository.
-/

namespace BybitApi

inductive Verb where
  | get | post
deriving DecidableEq, Repr

/-- A request; a field is found under the name it was set with. -/
structure HttpRequest where
  verb : Verb
  target : String
  fields : List (String × String)
  body : String
deriving DecidableEq, Repr

namespace HttpRequest

def set (name value : String) (req : HttpRequest) : HttpRequest :=
  { req with fields := req.fields.filter (fun field => field.1 != name) ++ [(name, value)] }

def find? (req : HttpRequest) (name : String) : Option String := req.fields.lookup name

@[simp] theorem set_target (name value : String) (req : HttpRequest) :
    (req.set name value).target = req.target := rfl

@[simp] theorem set_body (name value : String) (req : HttpRequest) :
    (req.set name value).body = req.body := rfl

theorem lookup_filter_ne {fields : List (String × String)} {name name' : String}
    (h : (name' == name) = false) :
    (fields.filter fun field => field.1 != name).lookup name' = fields.lookup name' := by
  induction fields with
  | nil => rfl
  | cons field fields ih =>
      rcases field with ⟨key, value⟩
      rw [List.lookup_cons]
      by_cases hkey : key = name
      · rw [List.filter_cons_of_neg (by simp [hkey]), ih, hkey, h]
      · rw [List.filter_cons_of_pos (by simp [hkey]), List.lookup_cons, ih]

theorem lookup_filter_self (fields : List (String × String)) (name : String) :
    (fields.filter fun field => field.1 != name).lookup name = none := by
  rw [List.lookup_eq_none_iff]
  intro field hfield
  have hne : field.1 ≠ name := by simpa using (List.mem_filter.mp hfield).2
  simpa using hne.symm

@[simp] theorem find?_set_self (name value : String) (req : HttpRequest) :
    (req.set name value).find? name = some value := by
  rw [find?, set, List.lookup_append, lookup_filter_self]
  simp

theorem find?_set_of_ne {name name' : String} (value : String) (req : HttpRequest)
    (h : (name' == name) = false) : (req.set name value).find? name' = req.find? name' := by
  rw [find?, set, List.lookup_append, lookup_filter_ne h]
  simp [find?, List.lookup_cons, h]

end HttpRequest

/-! ### Members of an object -/

namespace Json

/-- The members with one assigned to; `nlohmann::json` keeps them in key order. -/
def setMember (key : String) (value : Json) : List (String × Json) → List (String × Json)
  | [] => [(key, value)]
  | (key', value') :: members =>
      if key = key' then (key, value) :: members
      else if key < key' then (key, value) :: (key', value') :: members
      else (key', value') :: setMember key value members

@[simp] theorem lookup_setMember (key : String) (value : Json) (members : List (String × Json))
    (key' : String) :
    (setMember key value members).lookup key' =
      if key' = key then some value else members.lookup key' := by
  have hcons : ∀ (name : String) (first : Json) (rest : List (String × Json)),
      ((name, first) :: rest).lookup key' =
        if key' = name then some first else rest.lookup key' := by
    intro name first rest
    rw [List.lookup_cons]
    by_cases hname : key' = name
    · simp [hname]
    · have hfalse : (key' == name) = false := by simpa using hname
      rw [hfalse, if_neg hname]
  fun_induction setMember key value members with
  | case1 => rw [hcons]
  | case2 value' members =>
      rw [hcons, hcons]
      split <;> rfl
  | case3 key'' value' members hne hlt => rw [hcons]
  | case4 key'' value' members hne hge ih =>
      rw [hcons, hcons, ih]
      by_cases hkey : key' = key''
      · have hother : key' ≠ key := fun h => hne (h.symm.trans hkey)
        rw [if_pos hkey, if_neg hother, if_pos hkey]
      · rw [if_neg hkey, if_neg hkey]

/-- An assignment to `operator[]` of a variable with a key. -/
def set (json : Json) (key : String) (value : Json) : Except Fault Json :=
  match json with
  | .object members => .ok (.object (setMember key value members))
  | .null => .ok (.object [(key, value)])
  | _ => .error (.json "type_error.305")

/-- `erase` of a key. -/
def erase (json : Json) (key : String) : Json :=
  match json with
  | .object members => .object (members.filter fun member => member.1 ≠ key)
  | json => json

end Json

/-! ### The session -/

/-- What the session uses of OpenSSL, of Beast and of `vk_cpp_common`. -/
structure Signing where
  /-- `BOOST_BEAST_VERSION_STRING`. -/
  beastVersion : String
  /-- HMAC-SHA256 of a text under a key. -/
  hmac : String → String → List UInt8
  stringToHex : List UInt8 → String
  queryStringFromJson : Json → String

structure HttpSession where
  apiKey : String
  receiveWindow : Int := 25000
  apiSecret : String
  uri : String := "api.bybit.com"
deriving DecidableEq, Repr

/-- `pop_back`. -/
def popBack (text : String) : String := String.ofList text.toList.dropLast

def createQueryStr (parameters : Parameters) : String :=
  let queryStr := parameters.toList.foldl
    (fun queryStr parameter => queryStr ++ parameter.1 ++ "=" ++ parameter.2 ++ "&") ""
  if queryStr ≠ "" then popBack queryStr else queryStr

namespace HttpSession

variable (signing : Signing) (text : JsonText) (session : HttpSession)

/-- What `authenticateNonPost` takes off the target: all behind the first `?`. -/
def queryString (target : String) : String :=
  match target.toList.findIdx? fun c => c == '?' with
  | some pos => String.ofList (target.toList.drop (pos + 1))
  | none => ""

/-- The text that `authenticateNonPost` signs. -/
def parameterString (ts : Int) (target : String) : String :=
  toString ts ++ session.apiKey ++ toString session.receiveWindow ++ queryString target

def authenticateNonPost (ts : Int) (req : HttpRequest) : HttpRequest :=
  let digest := signing.hmac session.apiSecret (session.parameterString ts req.target)
  let signature := signing.stringToHex digest
  req
    |>.set "X-BAPI-API-KEY" session.apiKey
    |>.set "X-BAPI-SIGN" signature
    |>.set "X-BAPI-SIGN-TYPE" "2"
    |>.set "X-BAPI-TIMESTAMP" (toString ts)
    |>.set "X-BAPI-RECV-WINDOW" (toString session.receiveWindow)

/-- The JSON that `authenticatePost` signs. -/
def extendedJson (ts : Int) (json : Json) : Except Fault Json := do
  let json ← json.set "timestamp" (.integer ts)
  let json ← json.set "recv_window" (.integer session.receiveWindow)
  json.set "api_key" (.string session.apiKey)

/-- The JSON that `authenticatePost` sends. -/
def signedJson (ts : Int) (json : Json) : Except Fault Json := do
  let extended ← session.extendedJson ts json
  let digest := signing.hmac session.apiSecret (signing.queryStringFromJson extended)
  let signature := signing.stringToHex digest
  extended.set "sign" (.string signature)

def authenticatePost (ts : Int) (json : Json) (req : HttpRequest) : Except Fault HttpRequest := do
  let body := text.dump (← session.signedJson signing ts json)
  return { req with body := body }
    |>.set "Content-Length" (toString body.utf8ByteSize)
    |>.set "Content-Type" "application/json"

/-- What `P::request` adds before it sends a request. -/
def transmitted (req : HttpRequest) : HttpRequest :=
  req
    |>.set "Host" session.uri
    |>.set "User-Agent" signing.beastVersion

/-- The request that `HTTPSession::get` sends. -/
def get (ts : Int) (path : String) (parameters : Parameters) : HttpRequest :=
  let queryString := createQueryStr parameters
  let finalPath := if queryString ≠ "" then path ++ "?" ++ queryString else path
  session.transmitted signing (session.authenticateNonPost signing ts
    { verb := .get, target := finalPath, fields := [], body := "" })

/-- The request that `HTTPSession::post` sends. -/
def post (ts : Int) (path : String) (json : Json) : Except Fault HttpRequest := do
  let req ← session.authenticatePost signing text ts json
    { verb := .post, target := path, fields := [], body := "" }
  return session.transmitted signing req

end HttpSession

end BybitApi
