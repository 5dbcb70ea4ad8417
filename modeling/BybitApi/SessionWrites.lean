import BybitApi.SessionLifetime

/-!
# What a session sends

`subscribe` only queues; the frames are written by the completion of the handshake
and by `onRead`, one at a time.  The handshake takes the head of the queue without a
look whether there is one: the request of `run` is still there, as nothing else
takes requests off while the connection is set up.

A frame is the request only if the library takes the text when the write is started, as
nothing keeps the text for longer (`first_frame`).
-/

namespace BybitApi

open Machine

namespace Session

variable (text : JsonText) (common : VkCommon) (logger : Bool)

/-- A session after `run` that has been subscribed to `earlier` before it. -/
def openedAfter (earlier : List String) (subscriptionFilter : String) : Session :=
  { opened text subscriptionFilter with
    subscriptions := writeSubscription text subscriptionFilter
      (earlier.foldl (fun s f => writeSubscription text f s) .none_) }

/-- The step writes nothing, or a request that is not empty and is the head of the
    queue, which it takes off. -/
def WritesHead (frame : WrittenText → String) (left : Nat → String) (s s' : Session) : Prop :=
  s'.wire frame left = s.wire frame left ∨
    ∃ request, request ≠ "" ∧
      s.subscriptions.subscriptionRequests = request :: s'.subscriptions.subscriptionRequests ∧
      s'.wire frame left = s.wire frame left ++ [request]

/-- While the connection is set up there is a request to send. -/
structure Sending (s : Session) : Prop where
  inv : s.Inv text
  pending : 0 < s.connectOps → s.subscriptions.subscriptionRequests ≠ []

variable {text} {common : VkCommon} {logger : Bool}

/-! ### Requests before the handshake -/

theorem writeSubscription_ne_nil {s : Subscriptions} (f : String)
    (h : s.subscriptionRequests ≠ []) : (writeSubscription text f s).subscriptionRequests ≠ [] := by
  unfold writeSubscription
  split
  · exact h
  · simp

/-- Before the session sends anything `subscribe` makes no filter a subscription. -/
theorem foldl_writeSubscription (earlier : List String) {s : Subscriptions}
    (hnone : s.subscriptions = []) (hrequested : s.Requested text) :
    (earlier.foldl (fun s f => writeSubscription text f s) s).subscriptions = [] ∧
      (earlier.foldl (fun s f => writeSubscription text f s) s).Requested text := by
  induction earlier generalizing s with
  | nil => exact ⟨hnone, hrequested⟩
  | cons f earlier ih =>
      refine ih ?_ (hrequested.write f)
      simp [writeSubscription, hnone]

theorem sending_openedAfter (earlier : List String) (subscriptionFilter : String) :
    (openedAfter text earlier subscriptionFilter).Sending text := by
  obtain ⟨hnone, hrequested⟩ :=
    foldl_writeSubscription earlier (s := .none_) rfl Subscriptions.requested_none
  have hopened : (opened text subscriptionFilter).Inv text := inv_opened subscriptionFilter
  refine ⟨⟨hopened.oneOp, hopened.noOp, hopened.unarmed, hrequested.write _⟩, ?_⟩
  intro _
  rw [openedAfter, writeSubscription, hnone, if_neg List.not_mem_nil]
  simp

/-! ### Steps beside the requests -/

/-- The completions that neither write nor look at the messages. -/
def Elsewhere : SessionEvent → Prop
  | .subscribe _ | .close | .handshaked false | .received _ _ | .sendNext | .checkSubscriptions =>
      False
  | _ => True

/-- The step leaves the subscriptions, the texts and the handler alone, starts no
    close, and adds no operation to those outstanding. -/
structure Untouched (s s' : Session) : Prop where
  subscriptions_eq : s'.subscriptions = s.subscriptions
  texts_eq : s'.texts = s.texts
  handler_eq : s'.handler = s.handler
  closing_le : s'.closing ≤ s.closing
  connectOps_le : s'.connectOps ≤ s.connectOps
  dataOps_le : s'.dataOps ≤ s.dataOps

theorem untouched_onResolve {s : Session} (h : 0 < s.resolving) (failed : Bool) :
    Untouched s (onResolve failed { s with resolving := s.resolving - 1 }) := by
  cases failed with
  | true =>
      refine ⟨rfl, rfl, rfl, le_refl _, ?_, le_refl _⟩
      simp only [onResolve, if_true, connectOps]
      omega
  | false =>
      refine ⟨rfl, rfl, rfl, le_refl _, ?_, le_refl _⟩
      simp only [onResolve, Bool.false_eq_true, if_false, connectOps]
      omega

theorem untouched_onConnect {s : Session} (h : 0 < s.connecting) (failed nameRefused : Bool) :
    Untouched s (onConnect failed nameRefused { s with connecting := s.connecting - 1 }) := by
  have hconnect : connectOps (onConnect failed nameRefused
      { s with connecting := s.connecting - 1 }) ≤ s.connectOps := by
    unfold onConnect connectOps
    split
    · dsimp only
      omega
    · split <;> dsimp only <;> omega
  cases failed <;> cases nameRefused <;> exact ⟨rfl, rfl, rfl, le_refl _, hconnect, le_refl _⟩

theorem untouched_onSSLHandshake {s : Session} (h : 0 < s.sslHandshaking) (failed : Bool) :
    Untouched s (onSSLHandshake failed { s with sslHandshaking := s.sslHandshaking - 1 }) := by
  have hconnect : connectOps (onSSLHandshake failed
      { s with sslHandshaking := s.sslHandshaking - 1 }) ≤ s.connectOps := by
    unfold onSSLHandshake connectOps
    split <;> dsimp only <;> omega
  cases failed <;> exact ⟨rfl, rfl, rfl, le_refl _, hconnect, le_refl _⟩

theorem untouched_of_elsewhere {s s' : Session} {event : SessionEvent} (h : Elsewhere event)
    (hen : s.Enabled event) (hnext : s.next text common logger event = some s') :
    Untouched s s' := by
  cases event with
  | subscribe _ | close | received _ _ | sendNext | checkSubscriptions => exact h.elim
  | resolved failed =>
      obtain rfl := Option.some.inj hnext
      exact untouched_onResolve hen.2 failed
  | connected failed nameRefused =>
      obtain rfl := Option.some.inj hnext
      exact untouched_onConnect hen.2 failed nameRefused
  | sslHandshaked failed =>
      obtain rfl := Option.some.inj hnext
      exact untouched_onSSLHandshake hen.2 failed
  | handshaked failed =>
      cases failed with
      | false => exact h.elim
      | true =>
          obtain rfl := Option.some.inj hnext
          refine ⟨rfl, rfl, rfl, le_refl _, ?_, le_refl _⟩
          simp only [onHandshake, if_true, connectOps]
          omega
  | written failed =>
      obtain rfl := Option.some.inj hnext
      have hdata : dataOps (onWrite failed { s with writing := s.writing - 1 }) ≤ s.dataOps := by
        have hpos := hen.2
        unfold onWrite dataOps
        split
        · dsimp only
          omega
        · simp only [asyncRead]
          omega
      cases failed <;> exact ⟨rfl, rfl, rfl, le_refl _, le_refl _, hdata⟩
  | readFailed =>
      obtain rfl := Option.some.inj hnext
      refine ⟨rfl, rfl, rfl, le_refl _, le_refl _, ?_⟩
      exact Nat.add_le_add_left (Nat.sub_le _ _) _
  | timerExpires | pingAborted =>
      obtain rfl := Option.some.inj hnext
      exact ⟨rfl, rfl, rfl, le_refl _, le_refl _, le_refl _⟩
  | closed failed =>
      obtain rfl := Option.some.inj hnext
      exact ⟨rfl, rfl, rfl, Nat.sub_le _ _, le_refl _, le_refl _⟩
  | pinged pingExpired =>
      obtain rfl := Option.some.inj hnext
      unfold onPingTimer
      split <;> exact ⟨rfl, rfl, rfl, le_refl _, le_refl _, le_refl _⟩

/-! ### What a step does -/

/-- What a step does about requests, texts, subscriptions and closes. -/
inductive Outcome (text : JsonText) (common : VkCommon) (logger : Bool) (s : Session) :
    SessionEvent → Session → Prop where
  | elsewhere {event : SessionEvent} {s' : Session} (helsewhere : Elsewhere event)
      (huntouched : Untouched s s') : Outcome text common logger s event s'
  | subscribed (f : String) :
      Outcome text common logger s (.subscribe f)
        { s with subscriptions := writeSubscription text f s.subscriptions }
  | closed : Outcome text common logger s .close s.closeWs
  /-- The handshake is complete, and the first request is written. -/
  | connected {f : String} {rest : List String} (hidle : s.handler = .idle)
      (hconnect : 0 < s.connectOps)
      (hrequests : s.subscriptions.subscriptionRequests = subscriptionRequest text f :: rest) :
      Outcome text common logger s (.handshaked false)
        (asyncWrite (subscriptionRequest text f)
          { s with
            handshaking := s.handshaking - 1
            timer := s.timer.asyncWait
            subscriptions := { subscriptions := s.subscriptions.subscriptions ++ [f],
                               subscriptionRequests := rest } })
  | dispatched {message : String} {callback : Except Fault Unit} {subscriptions : Subscriptions}
      (hidle : s.handler = .idle) (hreading : 0 < s.reading)
      (hrequests : subscriptions.subscriptionRequests = s.subscriptions.subscriptionRequests)
      (hsublist : subscriptions.subscriptions.Sublist s.subscriptions.subscriptions)
      (hstays : ¬ MessageEscapes text common logger message callback s.subscriptions) :
      Outcome text common logger s (.received message callback)
        { s with reading := s.reading - 1, subscriptions := subscriptions, handler := .dispatched }
  | notJson {message : String} {callback : Except Fault Unit} {subscriptions : Subscriptions}
      (hidle : s.handler = .idle) (hreading : 0 < s.reading)
      (hrequests : subscriptions.subscriptionRequests = s.subscriptions.subscriptionRequests)
      (hlogger : logger = true)
      (hstays : ¬ MessageEscapes text common logger message callback s.subscriptions) :
      Outcome text common logger s (.received message callback)
        (closeWs { s with reading := s.reading - 1, subscriptions := subscriptions })
  | escaped {message : String} {callback : Except Fault Unit} {subscriptions : Subscriptions}
      (hidle : s.handler = .idle) (hreading : 0 < s.reading)
      (hrequests : subscriptions.subscriptionRequests = s.subscriptions.subscriptionRequests)
      (hsublist : subscriptions.subscriptions.Sublist s.subscriptions.subscriptions)
      (hescapes : MessageEscapes text common logger message callback s.subscriptions) :
      Outcome text common logger s (.received message callback)
        { s with reading := s.reading - 1, subscriptions := subscriptions }
  | sent {f : String} {rest : List String} (hhandler : s.handler = .dispatched)
      (hrequests : s.subscriptions.subscriptionRequests = subscriptionRequest text f :: rest) :
      Outcome text common logger s .sendNext
        (asyncWrite (subscriptionRequest text f)
          { s with
            subscriptions := { subscriptions := s.subscriptions.subscriptions ++ [f],
                               subscriptionRequests := rest }
            handler := .idle })
  | nothingToSend (hhandler : s.handler = .dispatched)
      (hrequests : s.subscriptions.subscriptionRequests = []) :
      Outcome text common logger s .sendNext { s with handler := .nothingToSend }
  | readsOn (hhandler : s.handler = .nothingToSend) (hsome : s.subscriptions.subscriptions ≠ []) :
      Outcome text common logger s .checkSubscriptions (asyncRead { s with handler := .idle })
  | quits (hhandler : s.handler = .nothingToSend) (hnone : s.subscriptions.subscriptions = [])
      (hlogger : logger = true) :
      Outcome text common logger s .checkSubscriptions
        (asyncRead (closeWs { s with handler := .idle }))
  | quitFails (hhandler : s.handler = .nothingToSend) (hlogger : logger = false) :
      Outcome text common logger s .checkSubscriptions { s with handler := .idle }

/-- **What a step can do.** -/
theorem outcome_of_step (htext : text.Faithful) {s s' : Session} {event : SessionEvent}
    (hs : s.Sending text) (hstep : s.step text common logger event = some s') :
    Outcome text common logger s event s' := by
  obtain ⟨hen, hnext⟩ := (step_eq_some text common logger).mp hstep
  cases event with
  | resolved _ | connected _ _ | sslHandshaked _ | written _ | readFailed | closed _
  | timerExpires | pinged _ | pingAborted =>
      exact .elsewhere (by trivial) (untouched_of_elsewhere (by trivial) hen hnext)
  | subscribe f =>
      obtain rfl := Option.some.inj hnext
      exact .subscribed f
  | close =>
      obtain rfl := Option.some.inj hnext
      exact .closed
  | handshaked failed =>
      cases failed with
      | true => exact .elsewhere (by trivial) (untouched_of_elsewhere (by trivial) hen hnext)
      | false =>
          have hconnect : 0 < s.connectOps := Nat.lt_of_lt_of_le hen.2 (Nat.le_add_left _ _)
          obtain ⟨request, rest, hrequests⟩ := List.exists_cons_of_ne_nil (hs.pending hconnect)
          obtain ⟨f, rfl⟩ := hs.inv.requested request (by simp [hrequests])
          have heq := onHandshake_of_cons htext logger
            (s := { s with handshaking := s.handshaking - 1 }) hrequests
          obtain rfl := heq.symm.trans (Option.some.inj hnext)
          exact .connected hen.1 hconnect hrequests
  | received message callback =>
      obtain ⟨subscriptions, hrequests, hsublist, hcases⟩ := onReceived_cases hnext
      rcases hcases with ⟨hstays, rfl⟩ | ⟨hstays, hlogger, rfl⟩ | ⟨hescapes, rfl⟩
      · exact .dispatched hen.1 hen.2 hrequests hsublist hstays
      · exact .notJson hen.1 hen.2 hrequests hlogger hstays
      · exact .escaped hen.1 hen.2 hrequests hsublist hescapes
  | sendNext =>
      rcases onSendNext_requests htext logger s hs.inv.requested with
        ⟨hrequests, heq⟩ | ⟨f, rest, hrequests, heq⟩
      · obtain rfl := heq.symm.trans (Option.some.inj hnext)
        exact .nothingToSend hen hrequests
      · obtain rfl := heq.symm.trans (Option.some.inj hnext)
        exact .sent hen hrequests
  | checkSubscriptions =>
      rcases onNothingToSend_cases logger s with
        ⟨hsome, heq⟩ | ⟨hnone, hlogger, heq⟩ | ⟨-, hlogger, heq⟩
      · obtain rfl := heq.symm.trans (Option.some.inj hnext)
        exact .readsOn hen hsome
      · obtain rfl := heq.symm.trans (Option.some.inj hnext)
        exact .quits hen hnone hlogger
      · obtain rfl := heq.symm.trans (Option.some.inj hnext)
        exact .quitFails hen hlogger

/-! ### What a step keeps -/

section Frames

variable {frame : WrittenText → String} (left : Nat → String)

theorem writesHead_asyncWrite (htext : text.Faithful) (hframe : TakesAtInitiation frame)
    {s s' : Session} {f : String}
    (hrequests : s.subscriptions.subscriptionRequests =
      subscriptionRequest text f :: s'.subscriptions.subscriptionRequests)
    (htexts : s'.texts = s.texts ++ [subscriptionRequest text f]) :
    WritesHead frame left s s' := by
  refine .inr ⟨subscriptionRequest text f, htext.request_ne_empty f, hrequests, ?_⟩
  rw [wire_eq hframe, wire_eq hframe, htexts]

theorem writesHead_of_same (frame : WrittenText → String) {s s' : Session}
    (htexts : s'.texts = s.texts) : WritesHead frame left s s' := by
  left
  rw [wire, wire, htexts]

end Frames

theorem sending_of_connected {s : Session} (hinv : s.Inv text) (hconnect : s.connectOps = 0) :
    s.Sending text :=
  ⟨hinv, fun h => absurd hconnect h.ne'⟩

/-- While the connection is set up a step keeps a request for the handshake. -/
theorem sending_step (htext : text.Faithful) {s s' : Session} {event : SessionEvent}
    (hs : s.Sending text) (hstep : s.step text common logger event = some s') :
    s'.Sending text := by
  obtain ⟨hen, hnext⟩ := (step_eq_some text common logger).mp hstep
  have hinv := inv_step htext hs.inv hen hnext
  cases outcome_of_step htext hs hstep with
  | elsewhere helsewhere huntouched =>
      refine ⟨hinv, ?_⟩
      intro hconnect
      rw [huntouched.subscriptions_eq]
      exact hs.pending (hconnect.trans_le huntouched.connectOps_le)
  | subscribed f =>
      exact ⟨hinv, fun hconnect => writeSubscription_ne_nil f (hs.pending hconnect)⟩
  | closed => exact ⟨hinv, hs.pending⟩
  | connected => exact sending_of_connected hinv (hs.inv.lastHandshake hen.2).1
  | dispatched | notJson | escaped => exact sending_of_connected hinv (hs.inv.lastRead hen.2).1
  | sent | nothingToSend =>
      exact sending_of_connected hinv (hs.inv.inHandler (Enabled.dispatched hen)).1
  | readsOn | quits | quitFails =>
      exact sending_of_connected hinv (hs.inv.inHandler (Enabled.nothingToSend hen)).1

/-- **What a session sends.**  A step writes at most one frame, the head of the
    queue. -/
theorem writesHead_of_step (htext : text.Faithful) {frame : WrittenText → String}
    (hframe : TakesAtInitiation frame) (left : Nat → String) {s s' : Session}
    {event : SessionEvent} (hs : s.Sending text)
    (hstep : s.step text common logger event = some s') : WritesHead frame left s s' := by
  cases outcome_of_step htext hs hstep with
  | elsewhere helsewhere huntouched => exact writesHead_of_same left frame huntouched.texts_eq
  | connected hidle hconnect hrequests =>
      exact writesHead_asyncWrite left htext hframe hrequests rfl
  | sent hhandler hrequests => exact writesHead_asyncWrite left htext hframe hrequests rfl
  | _ => exact writesHead_of_same left frame rfl

/-- A session is opened and connected. -/
def setUp : List SessionEvent :=
  [.resolved false, .connected false false, .sslHandshaked false, .handshaked false]

/-- The first frame is what the library makes of the memory of the first request: it is the
    request, whatever is left there, only if the library takes it when the write is started. -/
theorem first_frame (htext : text.Faithful) (frame : WrittenText → String) (left : Nat → String)
    (subscriptionFilter : String) :
    (run (step text common logger) (openedAfter text [] subscriptionFilter) setUp).map
        (wire frame left) =
      some [frame ⟨subscriptionRequest text subscriptionFilter, left 0⟩] := by
  let connected : Session := { openedAfter text [] subscriptionFilter with resolving := 0 }
  have hrun : run (step text common logger) (openedAfter text [] subscriptionFilter) setUp =
      some (onHandshake text logger false connected) := rfl
  have hrequests : connected.subscriptions.subscriptionRequests =
      [subscriptionRequest text subscriptionFilter] := rfl
  rw [hrun, onHandshake_of_cons htext logger hrequests]
  rfl

end Session

end BybitApi
