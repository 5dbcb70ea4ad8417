import BybitApi.SessionWrites

/-!
# The closes a session starts itself

`onRead` closes the session when a text is no JSON, and when there are neither
requests nor subscriptions.  The second exit reads on and records nothing, so the
next text that arrives before the close completes is dealt with as any other: it
writes a request that was subscribed meanwhile, or it closes a second time
(`second_close`).

That exit also takes `subscriptionLocker` twice, for the request and for the test of
`subscriptions`; a filter subscribed in between is closed upon
(`closed_over_request`).
-/

namespace BybitApi

open Machine

namespace Session

variable (text : JsonText) (common : VkCommon) (logger : Bool)

/-- The session starts a close by itself; `close` is called by its user. -/
def StartsClose (s : Session) : SessionEvent → Session → Prop
  | .close, _ => False
  | _, s' => s.closing < s'.closing

/-- The step starts no close and writes nothing. -/
def Rests (s : Session) (event : SessionEvent) : Prop :=
  ∀ s', s.step text common logger event = some s' →
    ¬ StartsClose s event s' ∧ s'.texts = s.texts

/-- The step reads no text, but for one whose handling ends in an exception that
    leaves `onRead`. -/
def ReadsNoText (s : Session) : SessionEvent → Prop
  | .received message callback =>
      MessageEscapes text common logger message callback s.subscriptions
  | _ => True

/-- A `No subscriptions` close finds no request pending. -/
def QuitsWithoutRequest (s : Session) : SessionEvent → Prop
  | .checkSubscriptions =>
      ∀ s', s.step text common logger .checkSubscriptions = some s' → s.closing < s'.closing →
        s.subscriptions.subscriptionRequests = []
  | _ => True

/-- No filter is subscribed between the two critical sections of an `onRead` that is
    about to quit. -/
def SubscribesOutside (s : Session) : SessionEvent → Prop
  | .subscribe _ =>
      logger = true → s.handler = .nothingToSend → s.subscriptions.subscriptions ≠ []
  | _ => True

instance (s : Session) : DecidablePred (s.ReadsNoText text common logger)
  | .received message callback =>
      inferInstanceAs (Decidable (MessageEscapes text common logger message callback
        s.subscriptions))
  | .subscribe _ | .close | .resolved _ | .connected _ _ | .sslHandshaked _ | .handshaked _
  | .written _ | .readFailed | .sendNext | .checkSubscriptions | .closed _ | .timerExpires
  | .pinged _ | .pingAborted => .isTrue trivial

instance (s : Session) : DecidablePred (s.SubscribesOutside logger)
  | .subscribe _ =>
      inferInstanceAs (Decidable (logger = true → s.handler = .nothingToSend →
        s.subscriptions.subscriptions ≠ []))
  | .received _ _ | .close | .resolved _ | .connected _ _ | .sslHandshaked _ | .handshaked _
  | .written _ | .readFailed | .sendNext | .checkSubscriptions | .closed _ | .timerExpires
  | .pinged _ | .pingAborted => .isTrue trivial

/-- A server that rejects the only subscription. -/
def rejection : Json :=
  .object [("request", subscribeJson "tickers.XYZ"), ("ret_msg", .string "error"),
    ("success", .bool false)]

def rejectionText : List Char :=
  "\x7b\"request\":\x7b\"args\":[\"tickers.XYZ\"],\"op\":\"subscribe\"\x7d,".toList ++
    "\"ret_msg\":\"error\",\"success\":false\x7d".toList

/-- The text form of the requests, and of that reply. -/
def replyText : JsonText where
  parse message :=
    if message = String.ofList rejectionText then .ok rejection else plainText.parse message
  dump := plainText.dump

theorem rejectionText_third : rejectionText[2]? = some 'r' := rfl

theorem dump_ne_rejectionText (subscription : String) :
    plainText.dump (subscribeJson subscription) ≠ String.ofList rejectionText := by
  have hdump : plainText.dump (subscribeJson subscription) =
      String.ofList (requestBefore ++ subscription.toList ++ requestBehind) := rfl
  have hlength : 2 < requestBefore.length := by decide
  have hrequest : requestBefore[2]? = some 'a' := rfl
  intro h
  rw [hdump, List.append_assoc] at h
  have hchars := congrArg (fun chars => chars[2]?) (String.ofList_injective h)
  simp only [List.getElem?_append_left hlength, hrequest, rejectionText_third] at hchars
  cases hchars

theorem replyText_faithful : replyText.Faithful where
  undoes subscription := by
    simp only [replyText, if_neg (dump_ne_rejectionText subscription)]
    exact plainText_faithful.undoes subscription
  empty json h := by
    have hne : "" ≠ String.ofList rejectionText := by
      intro hempty
      have hthird := rejectionText_third
      rw [← String.ofList_injective (String.ofList_nil.trans hempty)] at hthird
      cases hthird
    simp only [replyText, if_neg hne] at h
    exact plainText_faithful.empty json h

variable {text} {common : VkCommon} {logger : Bool}

/-! ### One close -/

/-- A close is in progress that the session started: the connection is set up, and a
    read or write that is still outstanding finds no subscriptions. -/
structure ClosingItself (text : JsonText) (s : Session) : Prop where
  sending : s.Sending text
  idle : s.handler = .idle
  connected : s.connectOps = 0
  unsubscribed : s.dataOps = 0 ∨ s.subscriptions.subscriptions = []

/-- **Which steps start a close.**  A text that is no JSON does, and there is no read
    then; and the `No subscriptions` exit does. -/
theorem closingItself_of_startsClose (htext : text.Faithful) {s s' : Session}
    {event : SessionEvent} (hs : s.Sending text)
    (hstep : s.step text common logger event = some s') (hcloses : StartsClose s event s') :
    logger = true ∧ ClosingItself text s' := by
  have hsending := sending_step htext hs hstep
  cases outcome_of_step htext hs hstep with
  | elsewhere helsewhere huntouched =>
      have hle := not_lt.mpr huntouched.closing_le
      cases event <;> first | exact hcloses.elim | exact absurd hcloses hle
  | closed => exact hcloses.elim
  | notJson hidle hreading hrequests hlogger hstays =>
      obtain ⟨hconnect, hdata⟩ := hs.inv.lastRead hreading
      exact ⟨hlogger, hsending, hidle, hconnect, Or.inl hdata⟩
  | quits hhandler hnone hlogger =>
      obtain ⟨hconnect, -⟩ := hs.inv.inHandler (by simp [hhandler])
      exact ⟨hlogger, hsending, rfl, hconnect, Or.inr hnone⟩
  | _ => exact absurd hcloses (lt_irrefl _)

theorem ClosingItself.rests (htext : text.Faithful) {s : Session} {event : SessionEvent}
    (hs : ClosingItself text s) (htexts : s.ReadsNoText text common logger event) :
    s.Rests text common logger event := by
  intro s' hstep
  cases outcome_of_step htext hs.sending hstep with
  | elsewhere helsewhere huntouched =>
      refine ⟨?_, huntouched.texts_eq⟩
      have hle := not_lt.mpr huntouched.closing_le
      cases event <;> first | exact id | exact hle
  | closed => exact ⟨id, rfl⟩
  | subscribed | escaped => exact ⟨lt_irrefl _, rfl⟩
  | connected hidle hconnect => exact absurd hs.connected hconnect.ne'
  | dispatched _ _ _ _ hstays => exact absurd htexts hstays
  | notJson _ _ _ _ hstays => exact absurd htexts hstays
  | sent hhandler | nothingToSend hhandler | readsOn hhandler | quits hhandler
  | quitFails hhandler =>
      rw [hs.idle] at hhandler
      cases hhandler

theorem ClosingItself.step (htext : text.Faithful) {s s' : Session} {event : SessionEvent}
    (hs : ClosingItself text s) (htexts : s.ReadsNoText text common logger event)
    (hstep : s.step text common logger event = some s') : ClosingItself text s' := by
  have hsending := sending_step htext hs.sending hstep
  cases outcome_of_step htext hs.sending hstep with
  | elsewhere helsewhere huntouched =>
      refine ⟨hsending, huntouched.handler_eq.trans hs.idle, ?_, ?_⟩
      · exact Nat.le_zero.mp (huntouched.connectOps_le.trans hs.connected.le)
      · rw [huntouched.subscriptions_eq]
        apply hs.unsubscribed.imp_left
        intro hdata
        exact Nat.le_zero.mp (huntouched.dataOps_le.trans hdata.le)
  | closed => exact ⟨hsending, hs.idle, hs.connected, hs.unsubscribed⟩
  | subscribed f =>
      refine ⟨hsending, hs.idle, hs.connected, ?_⟩
      rw [writeSubscription_subscriptions]
      exact hs.unsubscribed
  | escaped hidle hreading =>
      obtain ⟨hconnect, hdata⟩ := hs.sending.inv.lastRead hreading
      exact ⟨hsending, hidle, hconnect, Or.inl hdata⟩
  | connected hidle hconnect => exact absurd hs.connected hconnect.ne'
  | dispatched _ _ _ _ hstays => exact absurd htexts hstays
  | notJson _ _ _ _ hstays => exact absurd htexts hstays
  | sent hhandler | nothingToSend hhandler | readsOn hhandler | quits hhandler
  | quitFails hhandler =>
      rw [hs.idle] at hhandler
      cases hhandler

/-- `onRead` is about to look for a request, and there are no subscriptions: it will
    write or close. -/
structure AboutToAct (text : JsonText) (s : Session) : Prop where
  sending : s.Sending text
  inHandler : s.handler ≠ .idle
  unsubscribed : s.subscriptions.subscriptions = []

theorem AboutToAct.step (htext : text.Faithful) {s s' : Session} {event : SessionEvent}
    (hs : AboutToAct text s) (hrests : s.Rests text common true event)
    (hstep : s.step text common true event = some s') : AboutToAct text s' := by
  have hsending := sending_step htext hs.sending hstep
  obtain ⟨hcloses, htexts⟩ := hrests s' hstep
  cases outcome_of_step htext hs.sending hstep with
  | elsewhere helsewhere huntouched =>
      refine ⟨hsending, ?_, ?_⟩
      · rw [huntouched.handler_eq]
        exact hs.inHandler
      · rw [huntouched.subscriptions_eq]
        exact hs.unsubscribed
  | subscribed f =>
      refine ⟨hsending, hs.inHandler, ?_⟩
      exact (writeSubscription_subscriptions f _).trans hs.unsubscribed
  | closed => exact ⟨hsending, hs.inHandler, hs.unsubscribed⟩
  | connected hidle | dispatched hidle | notJson hidle | escaped hidle =>
      exact absurd hidle hs.inHandler
  | sent => simp [asyncWrite] at htexts
  | nothingToSend hhandler hrequests => exact ⟨hsending, by simp, hs.unsubscribed⟩
  | readsOn hhandler hsome => exact absurd hs.unsubscribed hsome
  | quits => exact absurd (Nat.lt_succ_self _) hcloses
  | quitFails hhandler hlogger => cases hlogger

/-- A text read while the close is in progress dooms the session, when it does not
    close it at once. -/
theorem ClosingItself.aboutToAct (htext : text.Faithful) {s s' : Session} {event : SessionEvent}
    (hs : ClosingItself text s) (hrests : s.Rests text common logger event)
    (htexts : ¬ s.ReadsNoText text common logger event)
    (hstep : s.step text common logger event = some s') : AboutToAct text s' := by
  have hsending := sending_step htext hs.sending hstep
  cases outcome_of_step htext hs.sending hstep with
  | dispatched hidle hreading hrequests hsublist hstays =>
      refine ⟨hsending, by simp, ?_⟩
      rcases hs.unsubscribed with hdata | hnone
      · exact absurd hdata (Nat.ne_of_gt (Nat.add_pos_right _ hreading))
      · rw [hnone] at hsublist
        exact List.sublist_nil.mp hsublist
  | notJson => exact absurd (Nat.lt_succ_self _) (hrests _ hstep).1
  | escaped _ _ _ _ hescapes => exact absurd hescapes htexts
  | elsewhere helsewhere huntouched =>
      cases event <;> first | exact absurd trivial htexts | exact helsewhere.elim
  | _ => exact absurd trivial htexts

/-- **Exactly when a close stays the only one.**  A session that has started a close
    neither starts another nor writes until one completes, if no text is read
    meanwhile, but for one whose handling leaves `onRead`; and when it has left its
    handlers again, only then. -/
theorem closes_once_iff (htext : text.Faithful) {earlier : List String}
    {subscriptionFilter : String} {before more : List SessionEvent} {event : SessionEvent}
    {s s' final : Session}
    (hrun : run (step text common logger) (openedAfter text earlier subscriptionFilter) before =
      some s)
    (hstep : s.step text common logger event = some s') (hcloses : StartsClose s event s')
    (hmore : run (step text common logger) s' more = some final) :
    (Along (step text common logger) (ReadsNoText text common logger) s' more →
        Along (step text common logger) (Rests text common logger) s' more) ∧
      (final.handler = .idle →
        Along (step text common logger) (Rests text common logger) s' more →
          Along (step text common logger) (ReadsNoText text common logger) s' more) := by
  have hs : s.Sending text :=
    invariant_of_run (fun _ _ _ hs _ hstep => sending_step htext hs hstep)
      (sending_openedAfter earlier subscriptionFilter) (along_true _ before) hrun
  obtain ⟨rfl, hstart⟩ := closingItself_of_startsClose htext hs hstep hcloses
  have hkeeps : ∀ state event next, ClosingItself text state →
      ReadsNoText text common true state event →
        state.step text common true event = some next → ClosingItself text next := by
    intro _ _ _ hs htexts hstep
    exact ClosingItself.step htext hs htexts hstep
  constructor
  · exact Along.of_invariant hkeeps (fun _ _ hs htexts => ClosingItself.rests htext hs htexts)
      hstart
  · intro hidle hrests
    have hfinal : ¬ AboutToAct text final := by
      intro hdoomed
      exact hdoomed.inHandler hidle
    refine Along.of_doomed hkeeps ?_ ?_ hstart hrests hmore hfinal
    · intro _ _ _ hs hrests htexts hstep
      exact ClosingItself.aboutToAct htext hs hrests htexts hstep
    · intro _ _ _ hs hrests hstep
      exact AboutToAct.step htext hs hrests hstep

/-- The only subscription is rejected; `onRead` finds no request to send. -/
def rejected : List SessionEvent :=
  [.resolved false, .connected false false, .sslHandshaked false, .handshaked false,
    .written false, .received (String.ofList rejectionText) (.ok ()), .sendNext]

/-- The session at its `No subscriptions` exit. -/
def exiting : Session :=
  { subscriptions := .none_
    resolving := 0, connecting := 0, sslHandshaking := 0, handshaking := 0
    writing := 0, reading := 0, closing := 0
    timer := { waiting := 1, expired := 0, aborted := 0 }
    handler := .nothingToSend
    texts := [subscriptionRequest replyText "tickers.XYZ"] }

theorem run_rejected :
    run (step replyText (.documented fun _ => none) true)
      (openedAfter replyText [] "tickers.XYZ") rejected = some exiting := by
  decide +kernel

theorem closes_once_iff_readFails :
    Along (step replyText (.documented fun _ => none) true)
      (Rests replyText (.documented fun _ => none) true) (onNothingToSend true exiting)
      [.subscribe "tickers.ABC", .readFailed, .closed false] := by
  have hcloses : StartsClose exiting .checkSubscriptions (onNothingToSend true exiting) :=
    Nat.lt_succ_self 0
  exact (closes_once_iff replyText_faithful run_rejected rfl hcloses rfl).1 (by decide)

/-- After the `No subscriptions` close the rejection arrives once more: the session
    closes a second time, or writes what was subscribed meanwhile. -/
theorem second_close :
    run (step replyText (.documented fun _ => none) true)
        (openedAfter replyText [] "tickers.XYZ") rejected = some exiting ∧
      StartsClose exiting .checkSubscriptions (onNothingToSend true exiting) ∧
      (run (step replyText (.documented fun _ => none) true) (onNothingToSend true exiting)
        [.received (String.ofList rejectionText) (.ok ()), .sendNext, .checkSubscriptions]).map
          (fun final => (final.closing, final.texts.length)) = some (2, 1) ∧
      (run (step replyText (.documented fun _ => none) true) (onNothingToSend true exiting)
        [.subscribe "tickers.ABC", .received (String.ofList rejectionText) (.ok ()),
          .sendNext]).map (fun final => (final.closing, final.texts.length)) = some (1, 2) := by
  refine ⟨run_rejected, Nat.lt_succ_self 0, ?_, ?_⟩ <;> decide +kernel

/-! ### Requests at the exit -/

/-- An `onRead` that will quit has no requests pending. -/
structure QuitsClean (text : JsonText) (logger : Bool) (s : Session) : Prop where
  sending : s.Sending text
  clean : logger = true → s.handler = .nothingToSend → s.subscriptions.subscriptions = [] →
    s.subscriptions.subscriptionRequests = []

/-- An `onRead` is about to quit over a pending request. -/
structure QuitsOverRequest (text : JsonText) (logger : Bool) (s : Session) : Prop where
  logs : logger = true
  sending : s.Sending text
  nothingToSend : s.handler = .nothingToSend
  unsubscribed : s.subscriptions.subscriptions = []
  pending : s.subscriptions.subscriptionRequests ≠ []

theorem quitsClean_of_handler {s : Session} (hs : s.Sending text)
    (h : s.handler ≠ .nothingToSend) : QuitsClean text logger s :=
  ⟨hs, fun _ hnothing => absurd hnothing h⟩

theorem QuitsClean.step (htext : text.Faithful) {s s' : Session} {event : SessionEvent}
    (hs : QuitsClean text logger s) (houtside : s.SubscribesOutside logger event)
    (hstep : s.step text common logger event = some s') : QuitsClean text logger s' := by
  have hsending := sending_step htext hs.sending hstep
  cases outcome_of_step htext hs.sending hstep with
  | elsewhere helsewhere huntouched =>
      refine ⟨hsending, ?_⟩
      rw [huntouched.handler_eq, huntouched.subscriptions_eq]
      exact hs.clean
  | subscribed f =>
      refine ⟨hsending, ?_⟩
      intro hlogger hnothing hnone
      rw [writeSubscription_subscriptions] at hnone
      exact absurd hnone (houtside hlogger hnothing)
  | closed => exact ⟨hsending, hs.clean⟩
  | nothingToSend hhandler hrequests => exact ⟨hsending, fun _ _ _ => hrequests⟩
  | connected hidle | notJson hidle | escaped hidle =>
      exact quitsClean_of_handler hsending (by simp [asyncWrite, closeWs, hidle])
  | dispatched | sent | readsOn | quits | quitFails =>
      exact quitsClean_of_handler hsending (by simp [asyncWrite, asyncRead, closeWs])

theorem QuitsClean.quits (htext : text.Faithful) {s : Session} {event : SessionEvent}
    (hs : QuitsClean text logger s) : s.QuitsWithoutRequest text common logger event := by
  cases event with
  | checkSubscriptions =>
      intro s' hstep hcloses
      cases outcome_of_step htext hs.sending hstep with
      | elsewhere helsewhere => exact helsewhere.elim
      | readsOn | quitFails => exact absurd hcloses (lt_irrefl _)
      | quits hhandler hnone hlogger => exact hs.clean hlogger hhandler hnone
  | _ => trivial

theorem QuitsOverRequest.step (htext : text.Faithful) {s s' : Session} {event : SessionEvent}
    (hs : QuitsOverRequest text logger s) (hquits : s.QuitsWithoutRequest text common logger event)
    (hstep : s.step text common logger event = some s') : QuitsOverRequest text logger s' := by
  have hsending := sending_step htext hs.sending hstep
  cases outcome_of_step htext hs.sending hstep with
  | elsewhere helsewhere huntouched =>
      refine ⟨hs.logs, hsending, huntouched.handler_eq.trans hs.nothingToSend, ?_, ?_⟩
      · rw [huntouched.subscriptions_eq]
        exact hs.unsubscribed
      · rw [huntouched.subscriptions_eq]
        exact hs.pending
  | subscribed f =>
      refine ⟨hs.logs, hsending, hs.nothingToSend, ?_, writeSubscription_ne_nil f hs.pending⟩
      exact (writeSubscription_subscriptions f _).trans hs.unsubscribed
  | closed => exact ⟨hs.logs, hsending, hs.nothingToSend, hs.unsubscribed, hs.pending⟩
  | connected hidle | dispatched hidle | notJson hidle | escaped hidle =>
      exact absurd (hidle.symm.trans hs.nothingToSend) (by simp)
  | sent hhandler | nothingToSend hhandler =>
      exact absurd (hhandler.symm.trans hs.nothingToSend) (by simp)
  | readsOn hhandler hsome => exact absurd hs.unsubscribed hsome
  | quits => exact absurd (hquits _ hstep (Nat.lt_succ_self _)) hs.pending
  | quitFails hhandler hlogger => exact absurd (hs.logs.symm.trans hlogger) (by simp)

/-- A filter subscribed between the critical sections is pending when `onRead` quits. -/
theorem quitsOverRequest_of_subscribe {s s' : Session} {event : SessionEvent}
    (hsending : s'.Sending text) (hinside : ¬ s.SubscribesOutside logger event)
    (hstep : s.step text common logger event = some s') :
    QuitsOverRequest text logger s' := by
  cases event with
  | subscribe f =>
      obtain ⟨-, hnext⟩ := (step_eq_some text common logger).mp hstep
      obtain rfl := Option.some.inj hnext
      simp only [SubscribesOutside, Classical.not_imp, ne_eq, Classical.not_not] at hinside
      rcases hinside with ⟨hlogger, hnothing, hnone⟩
      refine ⟨hlogger, hsending, hnothing, ?_, ?_⟩
      · exact (writeSubscription_subscriptions f _).trans hnone
      · rw [writeSubscription, hnone, if_neg List.not_mem_nil]
        simp
  | _ => exact absurd trivial hinside

/-- **Exactly when no request is closed upon.**  Every `No subscriptions` close finds
    the queue empty if no filter is subscribed between the two critical sections of
    an `onRead` that quits; and when the last `onRead` has passed both, only then. -/
theorem quits_without_request_iff (htext : text.Faithful) {earlier : List String}
    {subscriptionFilter : String} {events : List SessionEvent} {final : Session}
    (hrun : run (step text common logger) (openedAfter text earlier subscriptionFilter) events =
      some final) :
    (Along (step text common logger) (SubscribesOutside logger)
          (openedAfter text earlier subscriptionFilter) events →
        Along (step text common logger) (QuitsWithoutRequest text common logger)
          (openedAfter text earlier subscriptionFilter) events) ∧
      (final.handler ≠ .nothingToSend →
        Along (step text common logger) (QuitsWithoutRequest text common logger)
          (openedAfter text earlier subscriptionFilter) events →
        Along (step text common logger) (SubscribesOutside logger)
          (openedAfter text earlier subscriptionFilter) events) := by
  have hstart : QuitsClean text logger (openedAfter text earlier subscriptionFilter) := by
    apply quitsClean_of_handler (sending_openedAfter earlier subscriptionFilter)
    simp [openedAfter, opened]
  have hkeeps : ∀ state event next, QuitsClean text logger state →
      SubscribesOutside logger state event →
        state.step text common logger event = some next → QuitsClean text logger next := by
    intro _ _ _ hs houtside hstep
    exact QuitsClean.step htext hs houtside hstep
  constructor
  · exact Along.of_invariant hkeeps (fun _ _ hs _ => QuitsClean.quits htext hs) hstart
  · intro hhandler hquits
    have hfinal : ¬ QuitsOverRequest text logger final := by
      intro hdoomed
      exact hhandler hdoomed.nothingToSend
    refine Along.of_doomed hkeeps ?_ ?_ hstart hquits hrun hfinal
    · intro _ _ _ hs _ hinside hstep
      exact quitsOverRequest_of_subscribe (sending_step htext hs.sending hstep) hinside hstep
    · intro _ _ _ hs hquits hstep
      exact QuitsOverRequest.step htext hs hquits hstep

theorem quits_without_request_iff_rejected :
    Along (step replyText (.documented fun _ => none) true)
      (QuitsWithoutRequest replyText (.documented fun _ => none) true)
      (openedAfter replyText [] "tickers.XYZ") rejected :=
  (quits_without_request_iff replyText_faithful run_rejected).1 (by decide +kernel)

/-- A filter is subscribed between the two critical sections: the session closes
    while the request is pending. -/
theorem closed_over_request :
    ∃ s, run (step replyText (.documented fun _ => none) true)
        (openedAfter replyText [] "tickers.XYZ") (rejected ++ [.subscribe "tickers.ABC"]) =
          some s ∧
      StartsClose s .checkSubscriptions (onNothingToSend true s) ∧
      s.subscriptions.subscriptionRequests = [subscriptionRequest replyText "tickers.ABC"] := by
  refine ⟨{ exiting with subscriptions := writeSubscription replyText "tickers.ABC" .none_ }, ?_⟩
  refine ⟨?_, Nat.lt_succ_self 0, rfl⟩
  decide +kernel

end Session

end BybitApi
