import BybitApi.Machine
import BybitApi.Subscriptions

/-!
# Conservation of subscriptions

A run of a session's subscriptions mixes `subscribe`, the sending of requests and
control messages of the server in any order.  The run keeps account of what was
queued, sent and rejected; `subscriptions_conserved` says that the two lists of
the session always agree with these accounts.
-/

namespace BybitApi

open Machine

inductive SubscriptionEvent where
  | subscribe (subscription : String)
  /-- A call of `readSubscription` that is followed by a write of what it returns. -/
  | send
  | control (json : Json)
deriving Repr

/-- The subscriptions of a session, with the filters queued, the texts sent and the
    filters rejected so far. -/
structure SubscriptionRun where
  session : Subscriptions
  queued : List String
  sent : List String
  rejected : List String
deriving Repr

namespace SubscriptionRun

def initial : SubscriptionRun :=
  { session := .none_, queued := [], sent := [], rejected := [] }

/-- The filters that a message rejects. -/
def rejections (json : Json) : List String :=
  match rejectedArgs json with
  | some args => args.items.filterMap fun arg => arg.asString.toOption
  | none => []

section Source

variable (text : JsonText) (common : VkCommon) (logger : Bool)

def step (s : SubscriptionRun) : SubscriptionEvent → Option SubscriptionRun
  | .subscribe subscription =>
      some { s with
        session := writeSubscription text subscription s.session
        -- a request is due if and only if the filter is not in `subscriptions` now
        queued := if subscription ∈ s.session.subscriptions then s.queued
          else s.queued ++ [subscription] }
  | .send =>
      match readSubscription text logger s.session with
      -- the empty text stands for an empty queue
      | .ok request session =>
          some { s with
            session := session
            sent := if request = "" then s.sent else s.sent ++ [request] }
      | .error _ session => some { s with session := session }
  | .control json =>
      (settled (handleApiControlMsg common logger json) s.session).map fun session =>
        { s with session := session, rejected := s.rejected ++ rejections json }

/-- The requests sent for a filter. -/
def sentFor (s : SubscriptionRun) (subscription : String) : Nat :=
  s.sent.count (subscriptionRequest text subscription)

/-- A rejection repeats the arguments of a request that was sent and not rejected
    before, and names its operation as the request does. -/
def RepeatsSent (s : SubscriptionRun) : SubscriptionEvent → Prop
  | .control json => ∀ args ∈ rejectedArgs json,
      operationReads common json ∧ ∃ subscription, args = .array [.string subscription] ∧
        s.rejected.count subscription < s.sentFor text subscription
  | _ => True

end Source

variable {text : JsonText} {common : VkCommon} {logger : Bool}

structure Conserved (text : JsonText) (s : SubscriptionRun) : Prop where
  /-- Sent requests and pending ones together are those queued, in their order. -/
  order : s.sent ++ s.session.subscriptionRequests = s.queued.map (subscriptionRequest text)
  counted : ∀ subscription,
    s.session.subscriptions.count subscription + s.rejected.count subscription =
      s.sentFor text subscription

theorem conserved_initial : Conserved text initial where
  order := rfl
  counted _ := rfl

theorem Conserved.subscribe {s : SubscriptionRun} (hs : Conserved text s) (subscription : String) :
    Conserved text { s with
      session := writeSubscription text subscription s.session
      queued := if subscription ∈ s.session.subscriptions then s.queued
        else s.queued ++ [subscription] } := by
  unfold writeSubscription
  split
  · exact ⟨hs.order, hs.counted⟩
  · refine ⟨?_, hs.counted⟩
    simp only [List.map_append, ← hs.order, List.map_cons, List.map_nil, List.append_assoc]

theorem Conserved.requested {s : SubscriptionRun} (hs : Conserved text s) :
    s.session.Requested text := by
  intro request hrequest
  have hmem : request ∈ s.queued.map (subscriptionRequest text) := by
    rw [← hs.order]
    exact List.mem_append_right _ hrequest
  obtain ⟨subscription, -, rfl⟩ := List.mem_map.mp hmem
  exact ⟨subscription, rfl⟩

theorem Conserved.send {s : SubscriptionRun} (htext : text.Faithful) (hs : Conserved text s)
    {subscription : String} {rest : List String}
    (h : s.session.subscriptionRequests = subscriptionRequest text subscription :: rest) :
    Conserved text { s with
      session :=
        { subscriptions := s.session.subscriptions ++ [subscription]
          subscriptionRequests := rest }
      sent := s.sent ++ [subscriptionRequest text subscription] } := by
  constructor
  · have horder := hs.order
    rw [h] at horder
    simpa using horder
  · intro f
    have hcount : [subscriptionRequest text subscription].count (subscriptionRequest text f) =
        [subscription].count f := by
      by_cases hf : subscription = f
      · simp [hf]
      · have hne : subscriptionRequest text subscription ≠ subscriptionRequest text f :=
          fun heq => hf (htext.request_injective heq)
        simp [hf, hne]
    have hbefore := hs.counted f
    simp only [sentFor, List.count_append, hcount] at hbefore ⊢
    omega

/-- A rejection of a request that was sent takes one copy of its filter out. -/
theorem Conserved.reject {s : SubscriptionRun} (hs : Conserved text s) {subscription : String}
    (hsent : s.rejected.count subscription < s.sentFor text subscription) :
    Conserved text { s with
      session := { s.session with
        subscriptions := s.session.subscriptions.erase subscription }
      rejected := s.rejected ++ [subscription] } := by
  refine ⟨hs.order, ?_⟩
  intro f
  have hbefore := hs.counted f
  simp only [sentFor, List.count_append] at hbefore hsent ⊢
  by_cases hf : subscription = f
  · subst hf
    simp only [List.count_erase_self, List.count_singleton_self]
    omega
  · rw [List.count_erase_of_ne (Ne.symm hf)]
    simp only [List.count_singleton, beq_iff_eq, hf, if_false]
    omega

theorem step_control {s s' : SubscriptionRun} {json : Json}
    (hstep : s.step text common logger (.control json) = some s') :
    s' = { s with
      session := after (handleApiControlMsg common logger json) s.session
      rejected := s.rejected ++ rejections json } := by
  simp only [step, Option.map_eq_some_iff] at hstep
  rcases hstep with ⟨session, hsession, rfl⟩
  rw [after_of_settled hsession]

theorem conserved_step (htext : text.Faithful) {s s' : SubscriptionRun}
    {event : SubscriptionEvent} (hs : Conserved text s) (hvalid : s.RepeatsSent text common event)
    (hstep : s.step text common logger event = some s') : Conserved text s' := by
  cases event with
  | subscribe subscription =>
      obtain rfl := Option.some.inj hstep
      exact hs.subscribe subscription
  | send =>
      rcases hs.requested.read htext logger with ⟨-, hread⟩ | ⟨subscription, rest, hrequests, hread⟩
      · simp only [step, hread, if_true, Option.some.injEq] at hstep
        exact hstep ▸ hs
      · simp only [step, hread, if_neg (htext.request_ne_empty subscription),
          Option.some.injEq] at hstep
        exact hstep ▸ hs.send htext hrequests
  | control json =>
      rw [step_control hstep, after_handleApiControlMsg]
      cases hrejected : rejectedArgs json with
      | none =>
          simp only [rejections, hrejected, List.append_nil]
          exact hs
      | some args =>
          obtain ⟨hreads, subscription, rfl, hsent⟩ := hvalid args hrejected
          simp only [hreads, if_true, rejections, hrejected]
          exact hs.reject hsent

/-- **Conservation of subscriptions.**  Requests are sent in the order in which
    they were queued, each once; a filter is queued if and only if it is not in
    `subscriptions`; and `subscriptions` holds as many copies of a filter as
    requests for it were sent and not rejected. -/
theorem subscriptions_conserved (htext : text.Faithful) {events : List SubscriptionEvent}
    {final : SubscriptionRun} (hvalid : Along (step text common logger)
      (RepeatsSent text common) initial events)
    (hrun : run (step text common logger) initial events = some final) :
    final.sent ++ final.session.subscriptionRequests =
        final.queued.map (subscriptionRequest text) ∧
      (∀ subscription,
        (writeSubscription text subscription final.session).subscriptionRequests =
          final.session.subscriptionRequests ++
            if subscription ∈ final.session.subscriptions then []
            else [subscriptionRequest text subscription]) ∧
      (∀ subscription,
        final.session.subscriptions.count subscription + final.rejected.count subscription =
          final.sentFor text subscription) ∧
      ∀ subscription, final.session.isSubscribed subscription ↔
        final.rejected.count subscription < final.sentFor text subscription := by
  have hfinal : Conserved text final :=
    invariant_of_run (fun _ _ _ hs hcond hstep => conserved_step htext hs hcond hstep)
      conserved_initial hvalid hrun
  refine ⟨hfinal.order, ?_, hfinal.counted, ?_⟩
  · intro subscription
    unfold writeSubscription
    split <;> simp
  · intro subscription
    have hcount := hfinal.counted subscription
    rw [Subscriptions.isSubscribed, decide_eq_true_iff, ← List.count_pos_iff]
    omega

/-- The echo of a request names its operation by a string. -/
theorem operationReads_of_echo (hstrings : common.ReadsStrings) {json : Json}
    {subscription : String} (h : json.find? "request" = some (subscribeJson subscription)) :
    operationReads common json := by
  have hop : (subscribeJson subscription).find? "op" = some (.string "subscribe") := rfl
  simp [operationReads, h, hstrings.present "" hop]

/-- A reply that rejects a filter as the server does. -/
def rejectionOf (subscription : String) : Json :=
  .object [("op", .string "subscribe"), ("request", subscribeJson subscription),
    ("ret_msg", .string "error"), ("success", .bool false)]

/-- A duplicate request, of which one copy is rejected. -/
def duplicateRun : List SubscriptionEvent :=
  [.subscribe "a", .subscribe "b", .subscribe "a", .send, .send, .send,
    .control (rejectionOf "a"), .send]

theorem subscriptions_conserved_duplicate :
    ∃ final, run (step plainText (.documented fun _ => none) true) initial duplicateRun =
        some final ∧
      final.session.subscriptions.count "a" + final.rejected.count "a" =
        final.sentFor plainText "a" := by
  have hvalid : Along (step plainText (.documented fun _ => none) true)
      (RepeatsSent plainText (.documented fun _ => none)) initial duplicateRun := by
    refine along_cons trivial rfl (along_cons trivial rfl (along_cons trivial rfl ?_))
    refine along_cons trivial rfl (along_cons trivial rfl (along_cons trivial rfl ?_))
    refine along_cons ?_ rfl (along_cons trivial rfl trivial)
    rintro args hargs
    obtain rfl : Json.array [.string "a"] = args := Option.some.inj hargs
    exact ⟨operationReads_of_echo (VkCommon.documented_readsStrings _) rfl, "a", rfl, by decide⟩
  exact ⟨_, rfl, (subscriptions_conserved plainText_faithful hvalid rfl).2.2.1 "a"⟩

end SubscriptionRun

end BybitApi
