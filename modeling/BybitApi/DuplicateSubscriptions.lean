import BybitApi.EventStore
import BybitApi.Machine
import BybitApi.Subscriptions

/-!
# Duplicate subscriptions

A filter is checked for twice before its request is queued: by the stream manager,
through `isSubscribed`, and by `writeSubscription`.  Both look at `subscriptions`
only, where a filter arrives when its request is sent.  Until then a second call
queues a second request (`ticker_requested_twice`).

A run of a client is free of duplicates if and only if no filter is subscribed
while its request is still pending (`no_duplicates_iff`).
-/

namespace BybitApi

open Machine

inductive StreamEvent where
  | subscribe (subscriptionFilter : String)
  | subscribeTickerStream (pair : String)
  | subscribeCandlestickStream (pair : String) (interval : CandleInterval)
  /-- The session reads a request off its queue and writes it. -/
  | send
  | control (json : Json)
  /-- The session is destroyed. -/
  | expire
deriving Repr

/-- A client with the subscriptions of its session, while that is alive. -/
structure StreamClient where
  session : Option Subscriptions
deriving Repr

namespace StreamClient

def initial : StreamClient := { session := none }

section Source

variable (text : JsonText) (common : VkCommon) (logger : Bool)

/-- `WebSocketClient::isSubscribed`. -/
def isSubscribed (client : StreamClient) (subscriptionFilter : String) : Bool :=
  match client.session with
  | some session => session.isSubscribed subscriptionFilter
  | none => false

/-- `WebSocketClient::subscribe`. -/
def subscribe (subscriptionFilter : String) (client : StreamClient) : StreamClient :=
  match client.session with
  | some session => { session := some (writeSubscription text subscriptionFilter session) }
  | none =>
      -- `WebSocketSession::run` throws, and the new session is destroyed
      if subscriptionFilter = "" then { session := none }
      else { session := some (writeSubscription text subscriptionFilter .none_) }

/-- What the two functions of `WSStreamManager` have in common. -/
def subscribeStream (subscriptionFilter : String) (client : StreamClient) : StreamClient :=
  if client.isSubscribed subscriptionFilter then client
  else client.subscribe text subscriptionFilter

def step (client : StreamClient) : StreamEvent → Option StreamClient
  | .subscribe subscriptionFilter => some (client.subscribe text subscriptionFilter)
  | .subscribeTickerStream pair => some (client.subscribeStream text (tickerTopic pair))
  | .subscribeCandlestickStream pair interval =>
      some (client.subscribeStream text (klineTopic pair interval))
  | .send => client.session.map fun session =>
      { session := some (after (readSubscription text logger) session) }
  | .control json => do
      let session ← settled (handleApiControlMsg common logger json) (← client.session)
      return { session := some session }
  | .expire => some { session := none }

end Source

variable (text : JsonText)

/-- How often a filter occurs in the pending requests and in `subscriptions`. -/
def occurrences (session : Subscriptions) (subscriptionFilter : String) : Nat :=
  session.subscriptionRequests.count (subscriptionRequest text subscriptionFilter) +
    session.subscriptions.count subscriptionFilter

def NoDuplicates (client : StreamClient) : Prop :=
  ∀ session ∈ client.session, ∀ subscriptionFilter,
    occurrences text session subscriptionFilter ≤ 1

/-- A request that is sent is not pending a second time, and its filter is not
    active yet. -/
def SendsOnce (client : StreamClient) : StreamEvent → Prop
  | .send => ∀ session ∈ client.session, ∀ subscriptionFilter rest,
      session.subscriptionRequests = subscriptionRequest text subscriptionFilter :: rest →
        subscriptionRequest text subscriptionFilter ∉ rest ∧
          subscriptionFilter ∉ session.subscriptions
  | _ => True

/-- The request for the filter is not pending, unless the filter is active. -/
def NotPending (client : StreamClient) (subscriptionFilter : String) : Prop :=
  ∀ session ∈ client.session, subscriptionFilter ∉ session.subscriptions →
    subscriptionRequest text subscriptionFilter ∉ session.subscriptionRequests

/-- No filter is subscribed while its request is still pending. -/
def SubscribesOnce (client : StreamClient) : StreamEvent → Prop
  | .subscribe subscriptionFilter => client.NotPending text subscriptionFilter
  | .subscribeTickerStream pair => client.NotPending text (tickerTopic pair)
  | .subscribeCandlestickStream pair interval => client.NotPending text (klineTopic pair interval)
  | _ => True

instance (client : StreamClient) (f : String) : Decidable (client.NotPending text f) := by
  unfold NotPending
  infer_instance

instance (client : StreamClient) : DecidablePred (client.SubscribesOnce text) := fun event => by
  cases event <;> unfold SubscribesOnce <;> infer_instance

def AllRequests (client : StreamClient) : Prop :=
  ∀ session ∈ client.session, session.Requested text

variable {text} {common : VkCommon} {logger : Bool}

/-! ### Subscribing -/

theorem occurrences_none (f : String) : occurrences text .none_ f = 0 := rfl

theorem occurrences_writeSubscription (htext : text.Faithful) {session : Subscriptions}
    {f : String} (hf : f ∉ session.subscriptions) (g : String) :
    occurrences text (writeSubscription text f session) g =
      occurrences text session g + if f = g then 1 else 0 := by
  simp only [writeSubscription, if_neg hf, occurrences, List.count_append]
  by_cases hfg : f = g
  · subst hfg
    simp only [List.count_singleton_self, if_true]
    omega
  · have hne : subscriptionRequest text f ≠ subscriptionRequest text g :=
      fun h => hfg (htext.request_injective h)
    simp [hfg, hne]

/-- A subscription keeps a session free of duplicates if and only if the filter is
    active already or not pending. -/
theorem writeSubscription_occurrences_le (htext : text.Faithful) {session : Subscriptions}
    (hle : ∀ g, occurrences text session g ≤ 1) (f : String) :
    (∀ g, occurrences text (writeSubscription text f session) g ≤ 1) ↔
      (f ∉ session.subscriptions →
        subscriptionRequest text f ∉ session.subscriptionRequests) := by
  by_cases hf : f ∈ session.subscriptions
  · simp [writeSubscription, hf, hle]
  · constructor
    · intro hafter _ hpending
      have hcount := List.count_pos_iff.mpr hpending
      have htwice := hafter f
      rw [occurrences_writeSubscription htext hf, if_pos rfl, occurrences] at htwice
      omega
    · intro hnew g
      rw [occurrences_writeSubscription htext hf]
      by_cases hfg : f = g
      · subst hfg
        have hrequests := List.count_eq_zero.mpr (hnew hf)
        have hactive := List.count_eq_zero.mpr hf
        simp [occurrences, hrequests, hactive]
      · simpa [hfg] using hle g

theorem allRequests_none : AllRequests text { session := none } := by
  intro session hsession
  cases hsession

theorem noDuplicates_none : NoDuplicates text { session := none } := by
  intro session hsession
  cases hsession

theorem allRequests_some {session : Subscriptions} :
    AllRequests text { session := some session } ↔ session.Requested text := by
  simp [AllRequests]

theorem noDuplicates_some {session : Subscriptions} :
    NoDuplicates text { session := some session } ↔ ∀ g, occurrences text session g ≤ 1 := by
  simp [NoDuplicates]

theorem subscribe_step (htext : text.Faithful) {client : StreamClient}
    (hall : client.AllRequests text) (hno : client.NoDuplicates text) (f : String) :
    AllRequests text (client.subscribe text f) ∧
      (NoDuplicates text (client.subscribe text f) ↔ client.NotPending text f) := by
  rcases client with ⟨session⟩
  cases session with
  | none =>
      have hfree : NotPending text { session := none } f := by
        intro session hsession
        cases hsession
      by_cases hempty : f = ""
      · simp only [subscribe, if_pos hempty]
        exact ⟨allRequests_none, fun _ => hfree, fun _ => noDuplicates_none⟩
      · simp only [subscribe, if_neg hempty, allRequests_some, noDuplicates_some]
        refine ⟨Subscriptions.requested_none.write f, ?_⟩
        rw [writeSubscription_occurrences_le htext (by simp [occurrences_none])]
        exact ⟨fun _ => hfree, fun _ _ => by simp [Subscriptions.none_]⟩
  | some session =>
      simp only [subscribe, allRequests_some, noDuplicates_some] at hall hno ⊢
      refine ⟨hall.write f, ?_⟩
      rw [writeSubscription_occurrences_le htext hno]
      simp [NotPending]

theorem subscribeStream_step (htext : text.Faithful) {client : StreamClient}
    (hall : client.AllRequests text) (hno : client.NoDuplicates text) (f : String) :
    AllRequests text (client.subscribeStream text f) ∧
      (NoDuplicates text (client.subscribeStream text f) ↔ client.NotPending text f) := by
  unfold subscribeStream
  cases hactive : client.isSubscribed f with
  | false => exact subscribe_step htext hall hno f
  | true =>
      refine ⟨hall, ?_, fun _ => hno⟩
      intro _ session hsession hnew
      simp only [isSubscribed, Option.mem_def.mp hsession, Subscriptions.isSubscribed,
        decide_eq_true_eq] at hactive
      exact absurd hactive hnew

/-! ### Sending, replies and the end of a session -/

theorem send_step (htext : text.Faithful) {session : Subscriptions}
    (hall : AllRequests text { session := some session })
    (hno : NoDuplicates text { session := some session }) :
    AllRequests text { session := some (after (readSubscription text logger) session) } ∧
      NoDuplicates text { session := some (after (readSubscription text logger) session) } := by
  rw [allRequests_some] at hall ⊢
  rw [noDuplicates_some] at hno ⊢
  rcases hall.read htext logger with ⟨-, hread⟩ | ⟨f, rest, hrequests, hread⟩
  · rw [after_of_ok hread]
    exact ⟨hall, hno⟩
  · rw [after_of_ok hread]
    refine ⟨hall.of_cons hrequests, ?_⟩
    intro g
    have hsame : occurrences text
        { subscriptions := session.subscriptions ++ [f], subscriptionRequests := rest } g =
          occurrences text session g := by
      simp only [occurrences, hrequests, List.count_append]
      by_cases hfg : f = g
      · subst hfg
        simp only [List.count_cons_self, List.count_nil]
        omega
      · have hne : subscriptionRequest text f ≠ subscriptionRequest text g :=
          fun h => hfg (htext.request_injective h)
        simp [hfg, hne]
    exact hsame ▸ hno g

theorem control_step {session : Subscriptions} (json : Json)
    (hall : AllRequests text { session := some session })
    (hno : NoDuplicates text { session := some session }) :
    AllRequests text
        { session := some (after (handleApiControlMsg common logger json) session) } ∧
      NoDuplicates text
        { session := some (after (handleApiControlMsg common logger json) session) } := by
  rw [allRequests_some] at hall ⊢
  rw [noDuplicates_some] at hno ⊢
  obtain ⟨hrequests, hsublist⟩ :
      (after (handleApiControlMsg common logger json) session).subscriptionRequests = _ ∧ _ :=
    handleApiControlMsg_sublist json session
  refine ⟨by rwa [Subscriptions.Requested, hrequests], ?_⟩
  intro g
  have hcount := hsublist.count_le g
  have hbefore := hno g
  unfold occurrences at hbefore ⊢
  rw [hrequests]
  omega

theorem step_noDuplicates (htext : text.Faithful) {client next : StreamClient}
    {event : StreamEvent} (hall : client.AllRequests text) (hno : client.NoDuplicates text)
    (hstep : client.step text common logger event = some next) :
    next.AllRequests text ∧ (next.NoDuplicates text ↔ client.SubscribesOnce text event) := by
  cases event with
  | subscribe f =>
      obtain rfl := Option.some.inj hstep
      exact subscribe_step htext hall hno f
  | subscribeTickerStream pair =>
      obtain rfl := Option.some.inj hstep
      exact subscribeStream_step htext hall hno (tickerTopic pair)
  | subscribeCandlestickStream pair interval =>
      obtain rfl := Option.some.inj hstep
      exact subscribeStream_step htext hall hno (klineTopic pair interval)
  | send =>
      obtain ⟨session, hsession, rfl⟩ := Option.map_eq_some_iff.mp hstep
      rcases client with ⟨_⟩
      subst hsession
      exact (send_step htext hall hno).imp id fun h => ⟨fun _ => trivial, fun _ => h⟩
  | control json =>
      simp only [step, Option.bind_eq_bind, Option.bind_eq_some_iff, Option.pure_def,
        Option.some.injEq] at hstep
      rcases hstep with ⟨session, hsession, session', hsettled, rfl⟩
      rcases client with ⟨_⟩
      subst hsession
      rw [← after_of_settled hsettled]
      exact (control_step json hall hno).imp id fun h => ⟨fun _ => trivial, fun _ => h⟩
  | expire =>
      obtain rfl := Option.some.inj hstep
      exact ⟨allRequests_none, fun _ => trivial, fun _ => noDuplicates_none⟩

theorem sendsOnce_of_noDuplicates {client : StreamClient} (event : StreamEvent)
    (hno : client.NoDuplicates text) : client.SendsOnce text event := by
  cases event with
  | send =>
      intro session hsession f rest hrequests
      have hle := hno session hsession f
      simp only [occurrences, hrequests, List.count_cons_self] at hle
      exact ⟨List.count_eq_zero.mp (by omega), List.count_eq_zero.mp (by omega)⟩
  | _ => trivial

/-- **Exactly when there are no duplicates.**  In every state of a run each filter
    occurs at most once, and no request is sent twice while its filter is pending
    or active, if and only if no filter is subscribed while it is pending. -/
theorem no_duplicates_iff (htext : text.Faithful) {events : List StreamEvent}
    {final : StreamClient}
    (hrun : run (step text common logger) initial events = some final) :
    (Throughout (step text common logger) (NoDuplicates text) initial events ∧
        Along (step text common logger) (SendsOnce text) initial events) ↔
      Along (step text common logger) (SubscribesOnce text) initial events := by
  have hexact : Throughout (step text common logger) (NoDuplicates text) initial events ↔
      Along (step text common logger) (SubscribesOnce text) initial events := by
    have hall : AllRequests text initial := allRequests_none
    refine throughout_iff_along ?_ hall noDuplicates_none hrun
    intro client event next hall hno hstep
    exact step_noDuplicates htext hall hno hstep
  constructor
  · rintro ⟨hthroughout, -⟩
    exact hexact.mp hthroughout
  · intro honce
    have hthroughout := hexact.mpr honce
    refine ⟨hthroughout, ?_⟩
    apply hthroughout.along
    intro client event hno
    exact sendsOnce_of_noDuplicates event hno

/-- Two streams; the first is asked for again once it is active. -/
def twoStreams : List StreamEvent :=
  [.subscribeTickerStream "BTCUSDT", .send, .subscribeTickerStream "BTCUSDT",
    .subscribeCandlestickStream "BTCUSDT" ._5, .send, .expire, .subscribeTickerStream "BTCUSDT"]

theorem no_duplicates_iff_twoStreams :
    Throughout (step plainText (.documented fun _ => none) true) (NoDuplicates plainText) initial
        twoStreams ∧
      Along (step plainText (.documented fun _ => none) true) (SendsOnce plainText) initial
        twoStreams := by
  have honce : Along (step plainText (.documented fun _ => none) true) (SubscribesOnce plainText)
      initial twoStreams := by
    decide
  exact (no_duplicates_iff plainText_faithful rfl).mpr honce

/-- A stream that is asked for twice before its request is sent is requested twice. -/
theorem ticker_requested_twice :
    ∃ events final,
      run (step plainText (.documented fun _ => none) true) initial events = some final ∧
      ¬ Throughout (step plainText (.documented fun _ => none) true) (NoDuplicates plainText)
          initial events ∧
      ¬ Along (step plainText (.documented fun _ => none) true) (SendsOnce plainText)
          initial events := by
  refine ⟨[.subscribeTickerStream "BTCUSDT", .subscribeTickerStream "BTCUSDT", .send], _, rfl,
    ?_, ?_⟩
  · intro hthroughout
    have hno := (((hthroughout.2 _ rfl).2 _ rfl).1) _ rfl "tickers.BTCUSDT"
    revert hno
    decide
  · intro halong
    have honce := (((halong.2 _ rfl).2 _ rfl).1) _ rfl "tickers.BTCUSDT" _ rfl
    exact honce.1 (by decide)

end StreamClient

end BybitApi
