import BybitApi.Json

/-!
# Subscriptions of a session

A filter that is subscribed becomes a JSON request, queued as text.  When the
session writes the request it adds the filter to `subscriptions`; a rejection by
the server, which repeats the request, takes it out again.
-/

namespace BybitApi

/-- What `subscriptionLocker` guards. -/
structure Subscriptions where
  subscriptions : List String
  subscriptionRequests : List String
deriving DecidableEq, Repr

def Subscriptions.none_ : Subscriptions := { subscriptions := [], subscriptionRequests := [] }

/-- The request for a filter; `nlohmann::json` keeps the members in key order. -/
def subscribeJson (subscription : String) : Json :=
  .object [("args", .array [.string subscription]), ("op", .string "subscribe")]

section Source

variable (text : JsonText) (common : VkCommon) (logger : Bool)

def subscriptionRequest (subscription : String) : String := text.dump (subscribeJson subscription)

def writeSubscription (subscription : String) (s : Subscriptions) : Subscriptions :=
  if subscription ∈ s.subscriptions then s
  else
    { s with subscriptionRequests :=
        s.subscriptionRequests ++ [subscriptionRequest text subscription] }

/-- The loop of `readSubscription` over the arguments of a request. -/
def pushSubscriptions : List Json → Effect Subscriptions Unit
  | [] => pure ()
  | arg :: args => do
      let filter ← ofExcept arg.asString
      modify fun s => { s with subscriptions := s.subscriptions ++ [filter] }
      pushSubscriptions args

/-- The `try` block of `readSubscription`. -/
def activateRequest (request : String) : Effect Subscriptions String := do
  let subJson ← ofExcept (text.parse request)
  let argsJson ← ofExcept (subJson.indexOrNull "args")
  pushSubscriptions argsJson.items
  return request

def popRequest (s : Subscriptions) : Subscriptions :=
  { s with subscriptionRequests := s.subscriptionRequests.tail }

def readSubscription : Effect Subscriptions String := do
  match (← get).subscriptionRequests with
  | [] => return ""
  | request :: _ =>
      let retVal ← catchAndLog logger "" (activateRequest text request)
      modify popRequest
      return retVal

def isApiControlMsg (json : Json) : Bool := json.contains "success"

/-- The loop of `handleApiControlMsg` over the arguments of a rejected request. -/
def eraseSubscriptions : List Json → Effect Subscriptions Unit
  | [] => pure ()
  | arg :: args => do
      let filter ← ofExcept arg.asString
      modify fun s => { s with subscriptions := s.subscriptions.erase filter }
      eraseSubscriptions args

/-- `isError` of `handleApiControlMsg`. -/
def controlIsError (json : Json) : Except Fault Bool :=
  if json.contains "success" then do
    let success ← (← json.index "success").asBool
    return !success
  else return false

/-- What `handleApiControlMsg` does about an error reply that has a request. -/
def handleRejection (json : Json) : Effect Subscriptions Unit := do
  let requestJson ← ofExcept (json.index "request")
  let _operation ← ofExcept (common.readString requestJson "op" "")
  let argsJson ← ofExcept (requestJson.index "args")
  eraseSubscriptions argsJson.items
  let _errorMsg ← ofExcept (common.readString json "ret_msg" "")
  logMessage logger

def handleApiControlMsg (json : Json) : Effect Subscriptions Unit := do
  let isError ← ofExcept (controlIsError json)
  if json.contains "request" && isError then handleRejection common logger json else pure ()

def Subscriptions.isSubscribed (s : Subscriptions) (subscriptionFilter : String) : Bool :=
  decide (subscriptionFilter ∈ s.subscriptions)

end Source

/-! ### Requests as text -/

/-- What the session relies on: `parse` undoes `dump` on requests, and the empty
    text is no JSON. -/
structure JsonText.Faithful (text : JsonText) : Prop where
  undoes : ∀ subscription,
    text.parse (text.dump (subscribeJson subscription)) = .ok (subscribeJson subscription)
  empty : ∀ json, text.parse "" ≠ .ok json

variable {text : JsonText}

theorem JsonText.Faithful.request_ne_empty (htext : text.Faithful) (subscription : String) :
    subscriptionRequest text subscription ≠ "" := by
  intro h
  have hundoes := htext.undoes subscription
  rw [show text.dump (subscribeJson subscription) = "" from h] at hundoes
  exact htext.empty _ hundoes

theorem JsonText.Faithful.request_injective (htext : text.Faithful) {f g : String}
    (h : subscriptionRequest text f = subscriptionRequest text g) : f = g := by
  have hf := htext.undoes f
  have hg := htext.undoes g
  rw [show text.dump (subscribeJson f) = text.dump (subscribeJson g) from h, hg] at hf
  simpa [subscribeJson, eq_comm] using hf

/-! ### What the operations do -/

variable {common : VkCommon} {logger : Bool}

@[simp] theorem writeSubscription_subscriptions (f : String) (s : Subscriptions) :
    (writeSubscription text f s).subscriptions = s.subscriptions := by
  unfold writeSubscription
  split <;> rfl

theorem activateRequest_eq (htext : text.Faithful) (f : String) (s : Subscriptions) :
    activateRequest text (subscriptionRequest text f) s =
      .ok (subscriptionRequest text f) { s with subscriptions := s.subscriptions ++ [f] } := by
  unfold activateRequest
  rw [show text.parse (subscriptionRequest text f) = .ok (subscribeJson f) from htext.undoes f]
  rfl

theorem readSubscription_of_nil {s : Subscriptions} (h : s.subscriptionRequests = []) :
    readSubscription text logger s = .ok "" s := by
  rcases s with ⟨subscriptions, requests⟩
  subst h
  rfl

theorem readSubscription_of_cons (htext : text.Faithful) {s : Subscriptions} {f : String}
    {rest : List String} (h : s.subscriptionRequests = subscriptionRequest text f :: rest) :
    readSubscription text logger s =
      .ok (subscriptionRequest text f)
        { subscriptions := s.subscriptions ++ [f], subscriptionRequests := rest } := by
  rcases s with ⟨subscriptions, requests⟩
  subst h
  have hread := catchAndLog_of_ok logger "" (activateRequest_eq htext f
    { subscriptions, subscriptionRequests := subscriptionRequest text f :: rest })
  exact bind_of_ok (fun retVal => do modify popRequest; return retVal) hread

/-- Every pending request is the request for some filter. -/
def Subscriptions.Requested (text : JsonText) (s : Subscriptions) : Prop :=
  ∀ request ∈ s.subscriptionRequests, ∃ f, request = subscriptionRequest text f

theorem Subscriptions.requested_none : Subscriptions.none_.Requested text := by
  intro request hrequest
  cases hrequest

theorem Subscriptions.Requested.write {s : Subscriptions} (hs : s.Requested text) (f : String) :
    (writeSubscription text f s).Requested text := by
  unfold writeSubscription
  split
  · exact hs
  · intro request hrequest
    rcases List.mem_append.mp hrequest with hold | hnew
    · exact hs request hold
    · exact ⟨f, List.mem_singleton.mp hnew⟩

/-- **What reading a request does.**  It finds the queue empty, or takes the first
    request off and makes its filter a subscription. -/
theorem Subscriptions.Requested.read (htext : text.Faithful) {s : Subscriptions}
    (hs : s.Requested text) (logger : Bool) :
    s.subscriptionRequests = [] ∧ readSubscription text logger s = .ok "" s ∨
      ∃ f rest, s.subscriptionRequests = subscriptionRequest text f :: rest ∧
        readSubscription text logger s = .ok (subscriptionRequest text f)
          { subscriptions := s.subscriptions ++ [f], subscriptionRequests := rest } := by
  cases hrequests : s.subscriptionRequests with
  | nil => exact Or.inl ⟨rfl, readSubscription_of_nil hrequests⟩
  | cons request rest =>
      obtain ⟨f, rfl⟩ := hs request (by simp [hrequests])
      exact Or.inr ⟨f, rest, rfl, readSubscription_of_cons htext hrequests⟩

theorem Subscriptions.Requested.of_cons {s : Subscriptions} (hs : s.Requested text)
    {request : String} {rest subscriptions : List String}
    (h : s.subscriptionRequests = request :: rest) :
    Subscriptions.Requested text { subscriptions, subscriptionRequests := rest } := by
  intro request' hrequest'
  exact hs request' (by simp [h, hrequest'])

/-- The arguments that a reply rejects: those of its request, when `success` is
    false. -/
def rejectedArgs (json : Json) : Option Json :=
  match json.find? "success" with
  | some (.bool false) => (json.find? "request").bind fun request => request.find? "args"
  | _ => none

/-- The operation that the request of a reply names is read without an exception. -/
def operationReads (common : VkCommon) (json : Json) : Bool :=
  match (json.find? "request").map fun request => common.readString request "op" "" with
  | some (.ok _) => true
  | _ => false

theorem controlIsError_true_iff (json : Json) :
    controlIsError json = .ok true ↔ json.find? "success" = some (.bool false) := by
  unfold controlIsError
  cases h : json.find? "success" with
  | none => simp [Json.contains, h, pure, Except.pure]
  | some success =>
      simp only [Json.contains, h, Json.index_of_find? h]
      cases success with
      | bool value => cases value <;> simp [Json.asBool, bind, Except.bind, pure, Except.pure]
      | _ => simp [Json.asBool, bind, Except.bind]

theorem rejectedArgs_eq_none {json : Json} (h : controlIsError json ≠ .ok true) :
    rejectedArgs json = none := by
  rw [Ne, controlIsError_true_iff] at h
  unfold rejectedArgs
  split
  · next hsuccess => exact absurd hsuccess h
  · rfl

theorem after_handleRejection {json request : Json} (hrequest : json.find? "request" = some request)
    (s : Subscriptions) :
    after (handleRejection common logger json) s =
      match request.find? "args" with
      | some args =>
          if operationReads common json then after (eraseSubscriptions args.items) s else s
      | none => s := by
  unfold handleRejection
  rw [after_ofExcept_bind_ok _ (Json.index_of_find? hrequest)]
  cases hop : common.readString request "op" "" with
  | error fault =>
      rw [after_ofExcept_bind_error _ rfl]
      split <;> simp [operationReads, hrequest, hop]
  | ok operation =>
      rw [after_ofExcept_bind_ok _ rfl]
      cases hargs : request.find? "args" with
      | none =>
          obtain ⟨fault, hfault⟩ := Json.index_of_find?_none hargs
          rw [after_ofExcept_bind_error _ hfault]
      | some args =>
          rw [after_ofExcept_bind_ok _ (Json.index_of_find? hargs)]
          simp only [operationReads, hrequest, Option.map_some, hop, if_true]
          refine after_bind_of_keeps ?_ s
          intro _
          exact (keeps_ofExcept _).bind fun _ => keeps_logMessage logger

/-- **What a control message does.**  It takes the rejected arguments out of
    `subscriptions`, if there are any and the operation is read, and nothing else. -/
theorem after_handleApiControlMsg (json : Json) (s : Subscriptions) :
    after (handleApiControlMsg common logger json) s =
      match rejectedArgs json with
      | some args =>
          if operationReads common json then after (eraseSubscriptions args.items) s else s
      | none => s := by
  unfold handleApiControlMsg
  cases herror : controlIsError json with
  | error fault =>
      rw [after_ofExcept_bind_error _ rfl, rejectedArgs_eq_none (by simp [herror])]
  | ok isError =>
      rw [after_ofExcept_bind_ok _ rfl]
      cases isError with
      | false =>
          rw [rejectedArgs_eq_none (by simp [herror]), Bool.and_false, if_neg Bool.false_ne_true]
          rfl
      | true =>
          have hsuccess := (controlIsError_true_iff json).mp herror
          cases hrequest : json.find? "request" with
          | none =>
              simp [Json.contains, rejectedArgs, hsuccess, hrequest, after, pure, EStateM.pure]
          | some request =>
              simp only [Json.contains, hrequest, Option.isSome_some, Bool.and_true, if_true,
                rejectedArgs, hsuccess, Option.bind_some]
              exact after_handleRejection hrequest s

theorem eraseSubscriptions_keeps (args : List Json) :
    Keeps Subscriptions.subscriptionRequests (eraseSubscriptions args) := by
  induction args with
  | nil => exact keeps_pure ()
  | cons arg args ih =>
      apply (keeps_ofExcept _).bind
      intro filter
      exact Keeps.bind (keeps_modify fun _ => rfl) fun _ => ih

theorem eraseSubscriptions_sublist (args : List Json) (s : Subscriptions) :
    (after (eraseSubscriptions args) s).subscriptions.Sublist s.subscriptions := by
  induction args generalizing s with
  | nil => exact List.Sublist.refl _
  | cons arg args ih =>
      cases harg : arg.asString with
      | error fault =>
          rw [eraseSubscriptions, after_ofExcept_bind_error _ harg]
      | ok filter =>
          rw [eraseSubscriptions, after_ofExcept_bind_ok _ harg]
          exact (ih { s with subscriptions := s.subscriptions.erase filter }).trans
            List.erase_sublist

/-- A control message leaves the requests alone and adds no subscription. -/
theorem handleApiControlMsg_sublist (json : Json) (s : Subscriptions) :
    (after (handleApiControlMsg common logger json) s).subscriptionRequests =
        s.subscriptionRequests ∧
      (after (handleApiControlMsg common logger json) s).subscriptions.Sublist
        s.subscriptions := by
  rw [after_handleApiControlMsg]
  split
  · split
    · exact ⟨eraseSubscriptions_keeps _ s, eraseSubscriptions_sublist _ s⟩
    · exact ⟨rfl, List.Sublist.refl _⟩
  · exact ⟨rfl, List.Sublist.refl _⟩

/-! ### A text form -/

/-- What stands before and behind the filter in the text of a request. -/
def requestBefore : List Char := "\x7b\"args\":[\"".toList
def requestBehind : List Char := "\"],\"op\":\"subscribe\"\x7d".toList

def parsePlain (request : String) : Except Fault Json :=
  let chars := request.toList
  let length := chars.length - requestBefore.length - requestBehind.length
  let filter := (chars.drop requestBefore.length).take length
  if chars = requestBefore ++ filter ++ requestBehind then
    .ok (subscribeJson (String.ofList filter))
  else .error (.json "parse_error.101")

/-- The text form of requests whose filters need no escapes. -/
def plainText : JsonText where
  parse := parsePlain
  dump json :=
    match json.find? "args" with
    | some (.array [.string subscription]) =>
        String.ofList (requestBefore ++ subscription.toList ++ requestBehind)
    | _ => ""

theorem parsePlain_of_short {request : String}
    (h : request.toList.length < requestBefore.length) (json : Json) :
    parsePlain request ≠ .ok json := by
  unfold parsePlain
  intro hok
  dsimp only at hok
  split at hok
  · next hchars =>
      have hlength := congrArg List.length hchars
      simp only [List.length_append] at hlength
      omega
  · cases hok

theorem plainText_faithful : plainText.Faithful where
  undoes subscription := by
    have hdump : plainText.dump (subscribeJson subscription) =
        String.ofList (requestBefore ++ subscription.toList ++ requestBehind) := rfl
    rw [hdump]
    simp [plainText, parsePlain]
  empty := parsePlain_of_short (show "".toList.length < requestBefore.length by decide)

end BybitApi
