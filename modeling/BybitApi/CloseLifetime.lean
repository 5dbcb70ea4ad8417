import BybitApi.SessionClosing

/-!
# A close and its session

The handler of a close holds no reference to the session, but uses it.  What keeps the
session alive meanwhile is the ping timer, which only the close itself and a read that fails
cancel.  As long as no read ends while a close is in progress, and `close` is called on a
session that waits for a text, the handler finds its session (`close_finds_session`).

The close of the `No subscriptions` exit has a read beside it.  If that fails first, the last
reference goes with the wait that it aborts, and the close completes on a session that has been
destroyed (`close_without_session`).
-/

namespace BybitApi

open Machine

namespace Session

/-- Something refers to the session as long as a close is in progress. -/
def OutlivesCloses (s : Session) : Prop := 0 < s.closing → 0 < s.selfReferences

/-- A wait on the timer is outstanding that has not been aborted. -/
def Armed (s : Session) : Prop := 0 < s.timer.waiting + s.timer.expired

/-- The session waits for a text, with the timer armed. -/
def WaitsForText (s : Session) : Prop :=
  s.handler = .idle ∧ s.connectOps = 0 ∧ s.writing = 0 ∧ s.Armed

/-- No read ends while a close is in progress, and none with a text after it, when the timer
    has been cancelled; and `close` is called with a logger, while the session waits for a text
    and no close is in progress. -/
def ClosesBeforeReads (logger : Bool) (s : Session) : SessionEvent → Prop
  | .close => logger = true ∧ s.closing = 0 ∧ s.WaitsForText
  | .readFailed => s.closing = 0
  | .received _ _ => s.closing = 0 ∧ (logger = true → s.Armed)
  | _ => True

instance (s : Session) : Decidable s.Armed := inferInstanceAs (Decidable (_ < _))

instance (s : Session) : Decidable s.WaitsForText := inferInstanceAs (Decidable (_ ∧ _ ∧ _ ∧ _))

instance (logger : Bool) (s : Session) : DecidablePred (s.ClosesBeforeReads logger)
  | .close => inferInstanceAs (Decidable (logger = true ∧ s.closing = 0 ∧ s.WaitsForText))
  | .readFailed => inferInstanceAs (Decidable (s.closing = 0))
  | .received _ _ => inferInstanceAs (Decidable (s.closing = 0 ∧ (logger = true → s.Armed)))
  | .subscribe _ | .resolved _ | .connected _ _ | .sslHandshaked _ | .handshaked _ | .written _
  | .sendNext | .checkSubscriptions | .closed _ | .timerExpires | .pinged _ | .pingAborted =>
      .isTrue trivial

/-- The only close in progress was started with the timer armed, and nothing is outstanding
    beside it but a read. -/
structure ClosingArmed (s : Session) : Prop where
  once : s.closing = 1
  idle : s.handler = .idle
  connected : s.connectOps = 0
  notWriting : s.writing = 0
  armed : s.Armed

/-- With a logger the timer is armed while a message is dealt with or written, and while a
    close is in progress; without one there is no close. -/
structure Guarded (text : JsonText) (logger : Bool) (s : Session) : Prop where
  sending : s.Sending text
  armed : logger = true → 0 < s.writing ∨ s.handler ≠ .idle → s.Armed
  closing : 0 < s.closing → logger = true ∧ s.ClosingArmed

variable {text : JsonText} {common : VkCommon} {logger : Bool}

theorem Guarded.not_closing_of_connect {s : Session} (hs : s.Guarded text logger)
    (h : 0 < s.connectOps) : s.closing = 0 := by
  by_contra hne
  have hconnected := (hs.closing (Nat.pos_of_ne_zero hne)).2.connected
  omega

theorem Guarded.not_closing_of_write {s : Session} (hs : s.Guarded text logger)
    (h : 0 < s.writing) : s.closing = 0 := by
  by_contra hne
  have hwriting := (hs.closing (Nat.pos_of_ne_zero hne)).2.notWriting
  omega

theorem Guarded.not_closing_of_handler {s : Session} (hs : s.Guarded text logger)
    (h : s.handler ≠ .idle) : s.closing = 0 := by
  by_contra hne
  exact h (hs.closing (Nat.pos_of_ne_zero hne)).2.idle

/-- Without a close it is all about the timer. -/
theorem guarded_of_not_closing {s : Session} (hsending : s.Sending text) (hclosing : s.closing = 0)
    (harmed : logger = true → 0 < s.writing ∨ s.handler ≠ .idle → s.Armed) :
    s.Guarded text logger where
  sending := hsending
  armed := harmed
  closing h := by omega

/-- Nothing is written or dealt with. -/
theorem guarded_of_quiet {s : Session} (hsending : s.Sending text) (hclosing : s.closing = 0)
    (hwriting : s.writing = 0) (hidle : s.handler = .idle) : s.Guarded text logger := by
  apply guarded_of_not_closing hsending hclosing
  rintro - (hpos | hhandler)
  · omega
  · exact absurd hidle hhandler

theorem Guarded.connectStep {s s' : Session} (hs : s.Guarded text logger)
    (hsending : s'.Sending text) (hconnect : 0 < s.connectOps) (hidle : s.handler = .idle)
    (huntouched : Untouched s s') : s'.Guarded text logger := by
  have hclosing := hs.not_closing_of_connect hconnect
  have hone := hs.sending.inv.oneOp
  apply guarded_of_quiet hsending
  · have hle := huntouched.closing_le
    omega
  · have hle := huntouched.dataOps_le
    simp only [dataOps] at hle hone
    omega
  · exact huntouched.handler_eq.trans hidle

/-- The timer and the handler stay, and so does what is outstanding. -/
theorem Guarded.of_armed {s s' : Session} (hs : s.Guarded text logger)
    (hsending : s'.Sending text) (huntouched : Untouched s s') (hclosing : s'.closing = s.closing)
    (hwriting : s'.writing = s.writing)
    (harmed : logger = true → s.Armed → s'.Armed) : s'.Guarded text logger where
  sending := hsending
  armed hlogger hbusy := by
    apply harmed hlogger
    apply hs.armed hlogger
    rwa [huntouched.handler_eq, hwriting] at hbusy
  closing h := by
    rw [hclosing] at h
    obtain ⟨hlogger, hguard⟩ := hs.closing h
    refine ⟨hlogger, hclosing.trans hguard.once, huntouched.handler_eq.trans hguard.idle, ?_,
      hwriting.trans hguard.notWriting, harmed hlogger hguard.armed⟩
    have hle := huntouched.connectOps_le
    have hconnected := hguard.connected
    omega

theorem Guarded.elsewhere {s s' : Session} {event : SessionEvent} (hs : s.Guarded text logger)
    (hsending : s'.Sending text) (helsewhere : Elsewhere event) (huntouched : Untouched s s')
    (hbefore : s.ClosesBeforeReads logger event) (hen : s.Enabled event)
    (hnext : s.next text common logger event = some s') : s'.Guarded text logger := by
  cases event with
  | subscribe _ | close | received _ _ | sendNext | checkSubscriptions => exact helsewhere.elim
  | resolved failed =>
      refine hs.connectStep hsending ?_ hen.1 huntouched
      exact Nat.lt_of_lt_of_le hen.2 (by simp only [connectOps]; omega)
  | connected failed nameRefused =>
      refine hs.connectStep hsending ?_ hen.1 huntouched
      exact Nat.lt_of_lt_of_le hen.2 (by simp only [connectOps]; omega)
  | sslHandshaked failed =>
      refine hs.connectStep hsending ?_ hen.1 huntouched
      exact Nat.lt_of_lt_of_le hen.2 (by simp only [connectOps]; omega)
  | handshaked failed =>
      refine hs.connectStep hsending ?_ hen.1 huntouched
      exact Nat.lt_of_lt_of_le hen.2 (by simp only [connectOps]; omega)
  | written failed =>
      have hclosing := hs.not_closing_of_write hen.2
      obtain rfl := Option.some.inj hnext
      obtain ⟨-, hdata⟩ := hs.sending.inv.lastWrite hen.2
      have hwriting : s.writing - 1 = 0 := Nat.eq_zero_of_add_eq_zero_right hdata
      cases failed with
      | true => exact guarded_of_quiet hsending hclosing hwriting hen.1
      | false => exact guarded_of_quiet hsending hclosing hwriting hen.1
  | readFailed =>
      obtain ⟨-, hdata⟩ := hs.sending.inv.lastRead hen.2
      obtain rfl := Option.some.inj hnext
      exact guarded_of_quiet hsending hbefore (Nat.eq_zero_of_add_eq_zero_right hdata) hen.1
  | closed failed =>
      -- the only close is over, and the timer is cancelled
      obtain ⟨-, hguard⟩ := hs.closing hen.2
      obtain rfl := Option.some.inj hnext
      refine guarded_of_quiet hsending ?_ hguard.notWriting hen.1
      show s.closing - 1 = 0
      rw [hguard.once]
  | timerExpires =>
      obtain rfl := Option.some.inj hnext
      refine hs.of_armed hsending huntouched rfl rfl ?_
      intro _ harmed
      simp only [Armed, PingTimer.expire] at harmed ⊢
      omega
  | pinged pingExpired =>
      obtain rfl := Option.some.inj hnext
      have hkeeps : ∀ t : Session, (onPingTimer logger pingExpired t).closing = t.closing ∧
          (onPingTimer logger pingExpired t).writing = t.writing := by
        intro t
        unfold onPingTimer
        split <;> exact ⟨rfl, rfl⟩
      refine hs.of_armed hsending huntouched (hkeeps _).1 (hkeeps _).2 ?_
      rintro rfl -
      have hagain : (pingExpired && !true) = false := by simp
      simp only [onPingTimer, hagain, Bool.false_eq_true, if_false, Armed, PingTimer.cancel,
        PingTimer.asyncWait]
      omega
  | pingAborted =>
      obtain rfl := Option.some.inj hnext
      exact hs.of_armed hsending huntouched rfl rfl fun _ harmed => harmed

theorem guarded_step (htext : text.Faithful) {s s' : Session} {event : SessionEvent}
    (hs : s.Guarded text logger) (hbefore : s.ClosesBeforeReads logger event)
    (hstep : s.step text common logger event = some s') : s'.Guarded text logger := by
  have hsending := sending_step htext hs.sending hstep
  obtain ⟨hen, hnext⟩ := (step_eq_some text common logger).mp hstep
  cases outcome_of_step htext hs.sending hstep with
  | subscribed f =>
      refine ⟨hsending, hs.armed, ?_⟩
      intro hclosing
      obtain ⟨hlogger, hguard⟩ := hs.closing hclosing
      exact ⟨hlogger, hguard.once, hguard.idle, hguard.connected, hguard.notWriting, hguard.armed⟩
  | closed =>
      obtain ⟨hlogger, hclosing, hidle, hconnect, hwriting, harmed⟩ := hbefore
      refine ⟨hsending, fun _ _ => harmed,
        fun _ => ⟨hlogger, ?_, hidle, hconnect, hwriting, harmed⟩⟩
      exact congrArg (· + 1) hclosing
  | connected hidle hconnect hrequests =>
      apply guarded_of_not_closing hsending (hs.not_closing_of_connect hconnect)
      intro _ _
      simp only [Armed, asyncWrite, PingTimer.asyncWait]
      omega
  | dispatched hidle hreading =>
      obtain ⟨hclosing, harmed⟩ := hbefore
      exact guarded_of_not_closing hsending hclosing fun hlogger _ => harmed hlogger
  | notJson hidle hreading hrequests hlogger =>
      obtain ⟨hclosing, harmed⟩ := hbefore
      obtain ⟨hconnect, hdata⟩ := hs.sending.inv.lastRead hreading
      refine ⟨hsending, fun _ _ => harmed hlogger,
        fun _ => ⟨hlogger, ?_, hidle, hconnect, ?_, harmed hlogger⟩⟩
      · exact congrArg (· + 1) hclosing
      · exact Nat.eq_zero_of_add_eq_zero_right hdata
  | escaped hidle hreading =>
      obtain ⟨-, hdata⟩ := hs.sending.inv.lastRead hreading
      exact guarded_of_quiet hsending hbefore.1 (Nat.eq_zero_of_add_eq_zero_right hdata) hidle
  | sent hhandler hrequests =>
      have hbusy := Enabled.dispatched hen
      exact guarded_of_not_closing hsending (hs.not_closing_of_handler hbusy)
        fun hlogger _ => hs.armed hlogger (.inr hbusy)
  | nothingToSend hhandler =>
      have hbusy := Enabled.dispatched hen
      exact guarded_of_not_closing hsending (hs.not_closing_of_handler hbusy)
        fun hlogger _ => hs.armed hlogger (.inr hbusy)
  | readsOn hhandler =>
      have hbusy := Enabled.nothingToSend hen
      exact guarded_of_not_closing hsending (hs.not_closing_of_handler hbusy)
        fun hlogger _ => hs.armed hlogger (.inr hbusy)
  | quits hhandler hnone hlogger =>
      have hbusy := Enabled.nothingToSend hen
      obtain ⟨hconnect, hdata⟩ := hs.sending.inv.inHandler hbusy
      have harmed := hs.armed hlogger (.inr hbusy)
      refine ⟨hsending, fun _ _ => harmed, fun _ => ⟨hlogger, ?_, rfl, hconnect, ?_, harmed⟩⟩
      · exact congrArg (· + 1) (hs.not_closing_of_handler hbusy)
      · exact Nat.eq_zero_of_add_eq_zero_right hdata
  | quitFails hhandler =>
      have hbusy := Enabled.nothingToSend hen
      obtain ⟨-, hdata⟩ := hs.sending.inv.inHandler hbusy
      exact guarded_of_quiet hsending (hs.not_closing_of_handler hbusy)
        (Nat.eq_zero_of_add_eq_zero_right hdata) rfl
  | elsewhere helsewhere huntouched =>
      exact hs.elsewhere hsending helsewhere huntouched hbefore hen hnext

theorem Guarded.outlivesCloses {s : Session} (hs : s.Guarded text logger) : s.OutlivesCloses := by
  intro hclosing
  have harmed := (hs.closing hclosing).2.armed
  simp only [Armed, selfReferences] at harmed ⊢
  omega

/-- **A close finds its session.**  In every run of a session in which no read ends while a
    close is in progress, no text is read after one, and `close` is called only with a logger
    and while the session waits for a text, the session lives until its closes have
    completed. -/
theorem close_finds_session (htext : text.Faithful) (earlier : List String)
    (subscriptionFilter : String) (events : List SessionEvent)
    (hbefore : Along (step text common logger) (ClosesBeforeReads logger)
      (openedAfter text earlier subscriptionFilter) events) :
    Throughout (step text common logger) OutlivesCloses
      (openedAfter text earlier subscriptionFilter) events := by
  have hstart : (openedAfter text earlier subscriptionFilter).Guarded text logger :=
    guarded_of_quiet (sending_openedAfter earlier subscriptionFilter) rfl rfl rfl
  have hkeeps : ∀ s event next, Guarded text logger s → ClosesBeforeReads logger s event →
      s.step text common logger event = some next → Guarded text logger next := by
    intro s event next hs hcond hstep
    exact guarded_step htext hs hcond hstep
  exact Along.throughout hkeeps (fun _ hs => Guarded.outlivesCloses hs) hstart hbefore

theorem close_finds_session_closedByText :
    Throughout (step plainText (.documented fun _ => none) true) OutlivesCloses
      (openedAfter plainText [] "tickers.BTCUSDT") closedByText :=
  close_finds_session plainText_faithful [] "tickers.BTCUSDT" closedByText (by decide)

/-- The read beside a `No subscriptions` close fails first, and takes the timer with it: the
    close completes on a session that has been destroyed. -/
theorem close_without_session :
    (run (step replyText (.documented fun _ => none) true)
        (openedAfter replyText [] "tickers.XYZ")
        (rejected ++ [.checkSubscriptions, .readFailed, .pingAborted])).map
      (fun s => (s.closing, s.selfReferences, s.handler)) = some (1, 0, .idle) := by
  rw [run_append _ run_rejected]
  decide

end Session

end BybitApi
