import BybitApi.Session

/-!
# The end of a session

The ping timer holds a reference to its session, so whatever ends the chain of
reads and writes has to end the chain of waits, too.  Not every exit does: a write
that fails leaves the timer waiting (`failed_write_leaves_zombie`), a wait that is
due is beyond `cancel` and arms the timer again, and an exception that escapes
from `onRead` leaves everything as it is.  A session left in this way takes every
later subscription and sends none of them.

`no_zombie_iff` lists the steps that have to be avoided, and shows that there are
no others.
-/

namespace BybitApi

open Machine

namespace Session

variable (text : JsonText) (common : VkCommon) (logger : Bool)

/-- Dealing with the message ends in an exception that leaves `onRead`. -/
def MessageEscapes (message : String) (callback : Except Fault Unit) (s : Subscriptions) : Prop :=
  match processMessage text common logger message callback s with
  | .ok _ _ => False
  | .error (.undefined _) _ => False
  | .error (.json _) _ => logger = false
  | .error _ _ => True

instance (message : String) (callback : Except Fault Unit) (s : Subscriptions) :
    Decidable (MessageEscapes text common logger message callback s) := by
  unfold MessageEscapes
  split <;> infer_instance

/-- A step that ends the last operation of a session ends the waits on the timer,
    or leaves a close in progress. -/
def EndsTimer (s : Session) : SessionEvent → Prop
  | .written failed => failed = true → s.TimerDone ∨ 0 < s.closing
  | .readFailed => s.timer.expired = 0 ∨ 0 < s.closing
  | .received message callback =>
      MessageEscapes text common logger message callback s.subscriptions →
        s.TimerDone ∨ 0 < s.closing
  | .checkSubscriptions =>
      s.subscriptions.subscriptions = [] → logger = false → s.TimerDone ∨ 0 < s.closing
  | .closed _ => s.timer.expired = 0 ∨ 1 < s.closing ∨ 0 < s.connectOps + s.dataOps
  | _ => True

instance (s : Session) : Decidable s.TimerDone :=
  inferInstanceAs (Decidable (_ ∧ _))

instance (s : Session) : DecidablePred (s.EndsTimer text common logger)
  | .written failed =>
      inferInstanceAs (Decidable (failed = true → s.TimerDone ∨ 0 < s.closing))
  | .readFailed => inferInstanceAs (Decidable (s.timer.expired = 0 ∨ 0 < s.closing))
  | .received message callback =>
      inferInstanceAs (Decidable (MessageEscapes text common logger message callback
        s.subscriptions → s.TimerDone ∨ 0 < s.closing))
  | .checkSubscriptions =>
      inferInstanceAs (Decidable (s.subscriptions.subscriptions = [] → logger = false →
        s.TimerDone ∨ 0 < s.closing))
  | .closed _ =>
      inferInstanceAs (Decidable (s.timer.expired = 0 ∨ 1 < s.closing ∨
        0 < s.connectOps + s.dataOps))
  | .subscribe _ | .close | .resolved _ | .connected _ _ | .sslHandshaked _ | .handshaked _
  | .sendNext | .timerExpires | .pinged _ | .pingAborted => .isTrue trivial

/-- At most one operation is outstanding besides closes, and none while `onRead`
    runs; the timer is not armed before the handshake. -/
structure Inv (s : Session) : Prop where
  oneOp : s.connectOps + s.dataOps ≤ 1
  noOp : s.handler ≠ .idle → s.connectOps + s.dataOps = 0
  unarmed : 0 < s.connectOps → s.TimerDone
  requested : s.subscriptions.Requested text

variable {text} {common : VkCommon} {logger : Bool}

theorem inv_opened (subscriptionFilter : String) : (opened text subscriptionFilter).Inv text where
  oneOp := by simp [opened, connectOps, dataOps]
  noOp h := absurd rfl h
  unarmed _ := ⟨rfl, rfl⟩
  requested := Subscriptions.requested_none.write subscriptionFilter

/-! ### When a state is no zombie -/

theorem noZombie_of_op {s : Session} (h : 0 < s.connectOps + s.dataOps) : s.NoZombie := by
  rintro ⟨-, hconnect, hdata, -⟩
  omega

theorem noZombie_of_closing {s : Session} (h : 0 < s.closing) : s.NoZombie := by
  rintro ⟨-, -, -, hclosing⟩
  omega

theorem noZombie_of_handler {s : Session} (h : s.handler ≠ .idle) : s.NoZombie := by
  rintro ⟨hidle, -⟩
  exact absurd hidle h

theorem noZombie_of_timerDone {s : Session} (h : s.TimerDone) : s.NoZombie := fun _ => h

/-- Without an operation and outside of handlers it is all about the timer and the
    closes. -/
theorem noZombie_iff {s : Session} (hidle : s.handler = .idle) (hconnect : s.connectOps = 0)
    (hdata : s.dataOps = 0) : s.NoZombie ↔ s.TimerDone ∨ 0 < s.closing := by
  constructor
  · intro h
    rcases Nat.eq_zero_or_pos s.closing with hclosing | hclosing
    · exact Or.inl (h ⟨hidle, hconnect, hdata, hclosing⟩)
    · exact Or.inr hclosing
  · rintro (hdone | hclosing)
    · exact noZombie_of_timerDone hdone
    · exact noZombie_of_closing hclosing

/-! ### Operations -/

theorem dataOps_asyncWrite (subscription : String) (s : Session) :
    (asyncWrite subscription s).dataOps = s.dataOps + 1 :=
  Nat.add_right_comm s.writing 1 s.reading

/-- A completion of the connection set-up starts the next operation or none, and
    leaves the timer and the subscriptions alone. -/
structure ConnectStep (s s' : Session) : Prop where
  began : 0 < s.connectOps
  ops_le : s'.connectOps + s'.dataOps ≤ s.connectOps + s.dataOps
  handler_eq : s'.handler = s.handler
  timer_eq : s'.timer = s.timer
  subscriptions_eq : s'.subscriptions = s.subscriptions

theorem connectStep_onResolve {s : Session} (h : 0 < s.resolving) (failed : Bool) :
    ConnectStep s (onResolve failed { s with resolving := s.resolving - 1 }) := by
  constructor
  · simp only [connectOps]
    omega
  · unfold onResolve connectOps dataOps
    split <;> dsimp only <;> omega
  all_goals cases failed <;> rfl

theorem connectStep_onConnect {s : Session} (h : 0 < s.connecting) (failed nameRefused : Bool) :
    ConnectStep s (onConnect failed nameRefused { s with connecting := s.connecting - 1 }) := by
  constructor
  · simp only [connectOps]
    omega
  · unfold onConnect connectOps dataOps
    split
    · dsimp only
      omega
    · split <;> dsimp only <;> omega
  all_goals cases failed <;> cases nameRefused <;> rfl

theorem connectStep_onSSLHandshake {s : Session} (h : 0 < s.sslHandshaking) (failed : Bool) :
    ConnectStep s (onSSLHandshake failed { s with sslHandshaking := s.sslHandshaking - 1 }) := by
  constructor
  · simp only [connectOps]
    omega
  · unfold onSSLHandshake connectOps dataOps
    split <;> dsimp only <;> omega
  all_goals cases failed <;> rfl

theorem connectStep_onHandshake {s : Session} (h : 0 < s.handshaking) :
    ConnectStep s (onHandshake text logger true { s with handshaking := s.handshaking - 1 }) := by
  refine ⟨?_, ?_, rfl, rfl, rfl⟩
  · simp only [connectOps]
    omega
  · simp only [onHandshake, if_true, connectOps, dataOps]
    omega

/-! ### Messages -/

theorem processMessage_keeps (message : String) (callback : Except Fault Unit) :
    Keeps Subscriptions.subscriptionRequests
      (processMessage text common logger message callback) := by
  apply (keeps_ofExcept _).bind
  intro json
  split
  · split
    · exact fun s => (handleApiControlMsg_sublist json s).1
    · refine Keeps.catchAndLog ?_ logger ()
      exact (keeps_ofExcept _).bind fun _ => keeps_ofExcept _
  · exact keeps_pure ()

/-- No message makes a filter a subscription. -/
theorem processMessage_sublist (message : String) (callback : Except Fault Unit)
    (s : Subscriptions) :
    (after (processMessage text common logger message callback) s).subscriptions.Sublist
      s.subscriptions := by
  unfold processMessage
  cases hjson : text.parse message with
  | error fault => rw [after_ofExcept_bind_error _ rfl]
  | ok json =>
      rw [after_ofExcept_bind_ok _ rfl]
      split
      · split
        · exact (handleApiControlMsg_sublist json s).2
        · have hkeeps : Keeps id (catchAndLog logger () (do
              let _dataEvent ← ofExcept (built (Event.fromJson common json) .empty)
              ofExcept callback) : Effect Subscriptions Unit) :=
            Keeps.catchAndLog ((keeps_ofExcept _).bind fun _ => keeps_ofExcept _) logger ()
          rw [show after _ s = s from hkeeps s]
      · exact List.Sublist.refl _

/-- **What a received text does.**  `onRead` goes on, starts a close, or is left by an
    exception. -/
theorem onReceived_cases {message : String} {callback : Except Fault Unit} {s s' : Session}
    (h : onReceived text common logger message callback s = some s') :
    ∃ subscriptions, subscriptions.subscriptionRequests = s.subscriptions.subscriptionRequests ∧
      subscriptions.subscriptions.Sublist s.subscriptions.subscriptions ∧
      (¬ MessageEscapes text common logger message callback s.subscriptions ∧
          s' = { s with subscriptions := subscriptions, handler := .dispatched } ∨
        ¬ MessageEscapes text common logger message callback s.subscriptions ∧ logger = true ∧
          s' = closeWs { s with subscriptions := subscriptions } ∨
        MessageEscapes text common logger message callback s.subscriptions ∧
          s' = { s with subscriptions := subscriptions }) := by
  have hkeeps : (after (processMessage text common logger message callback)
      s.subscriptions).subscriptionRequests = s.subscriptions.subscriptionRequests :=
    processMessage_keeps message callback s.subscriptions
  have hsublist : (after (processMessage text common logger message callback)
      s.subscriptions).subscriptions.Sublist s.subscriptions.subscriptions :=
    processMessage_sublist message callback s.subscriptions
  unfold onReceived at h
  unfold MessageEscapes
  cases hprocess : processMessage text common logger message callback s.subscriptions with
  | ok _ subscriptions =>
      rw [after_of_ok hprocess] at hkeeps hsublist
      rw [hprocess] at h
      exact ⟨subscriptions, hkeeps, hsublist, Or.inl ⟨id, (Option.some.inj h).symm⟩⟩
  | error fault subscriptions =>
      rw [after_of_error hprocess] at hkeeps hsublist
      rw [hprocess] at h
      refine ⟨subscriptions, hkeeps, hsublist, Or.inr ?_⟩
      cases fault with
      | undefined what => cases h
      | json what =>
          cases logger with
          | true => exact Or.inl ⟨by simp, rfl, (Option.some.inj h).symm⟩
          | false => exact Or.inr ⟨rfl, (Option.some.inj h).symm⟩
      | _ => exact Or.inr ⟨trivial, (Option.some.inj h).symm⟩

/-! ### Requests -/

/-- The handshake arms the timer and writes the first request. -/
theorem onHandshake_of_cons (htext : text.Faithful) (logger : Bool) {s : Session} {f : String}
    {rest : List String}
    (h : s.subscriptions.subscriptionRequests = subscriptionRequest text f :: rest) :
    onHandshake text logger false s =
      asyncWrite (subscriptionRequest text f)
        { s with
          timer := s.timer.asyncWait
          subscriptions := { subscriptions := s.subscriptions.subscriptions ++ [f],
                             subscriptionRequests := rest } } := by
  simp [onHandshake, readSubscription_of_cons htext h]

/-- After the handshake the timer is armed and a write is started. -/
theorem onHandshake_eq (htext : text.Faithful) (logger : Bool) (s : Session)
    (hrequested : s.subscriptions.Requested text) :
    ∃ subscription subscriptions, subscriptions.Requested text ∧
      onHandshake text logger false s =
        asyncWrite subscription
          { s with timer := s.timer.asyncWait, subscriptions := subscriptions } := by
  rcases hrequested.read htext logger with ⟨-, hread⟩ | ⟨f, rest, hrequests, -⟩
  · refine ⟨"", s.subscriptions, hrequested, ?_⟩
    simp [onHandshake, hread]
  · exact ⟨_, _, hrequested.of_cons hrequests, onHandshake_of_cons htext logger hrequests⟩

/-- **What `onRead` does about the requests.**  It writes the first of them, or
    finds that there is none. -/
theorem onSendNext_requests (htext : text.Faithful) (logger : Bool) (s : Session)
    (hrequested : s.subscriptions.Requested text) :
    s.subscriptions.subscriptionRequests = [] ∧
        onSendNext text logger s = { s with handler := .nothingToSend } ∨
      ∃ f rest, s.subscriptions.subscriptionRequests = subscriptionRequest text f :: rest ∧
        onSendNext text logger s =
          asyncWrite (subscriptionRequest text f)
            { s with
              subscriptions := { subscriptions := s.subscriptions.subscriptions ++ [f],
                                 subscriptionRequests := rest }
              handler := .idle } := by
  unfold onSendNext
  rcases hrequested.read htext logger with ⟨hnone, hread⟩ | ⟨f, rest, hrequests, hread⟩
  · left
    simp [hread, hnone]
  · simp only [hread, ne_eq, htext.request_ne_empty f, not_false_eq_true, if_true]
    exact Or.inr ⟨f, rest, hrequests, rfl⟩

/-- After a message a request is written, or there is none. -/
theorem onSendNext_cases (htext : text.Faithful) (logger : Bool) (s : Session)
    (hrequested : s.subscriptions.Requested text) :
    onSendNext text logger s = { s with handler := .nothingToSend } ∨
      ∃ subscription subscriptions, subscriptions.Requested text ∧
        onSendNext text logger s =
          asyncWrite subscription { s with subscriptions := subscriptions, handler := .idle } := by
  rcases onSendNext_requests htext logger s hrequested with ⟨-, heq⟩ | ⟨f, rest, hrequests, heq⟩
  · exact Or.inl heq
  · exact Or.inr ⟨_, _, hrequested.of_cons hrequests, heq⟩

/-- Without a request to send, `onRead` closes a session without subscriptions and
    reads on, unless its warning throws. -/
theorem onNothingToSend_cases (logger : Bool) (s : Session) :
    s.subscriptions.subscriptions ≠ [] ∧
        onNothingToSend logger s = asyncRead { s with handler := .idle } ∨
      s.subscriptions.subscriptions = [] ∧ logger = true ∧
        onNothingToSend logger s = asyncRead (closeWs { s with handler := .idle }) ∨
      s.subscriptions.subscriptions = [] ∧ logger = false ∧
        onNothingToSend logger s = { s with handler := .idle } := by
  unfold onNothingToSend
  cases hsubscriptions : s.subscriptions.subscriptions with
  | cons filter rest => simp [hsubscriptions]
  | nil => cases logger <;> simp [hsubscriptions]

/-! ### What a step keeps -/

theorem inv_of_noOp {s : Session} (hconnect : s.connectOps = 0) (hdata : s.dataOps = 0)
    (hrequested : s.subscriptions.Requested text) : s.Inv text where
  oneOp := by omega
  noOp _ := by omega
  unarmed h := by omega
  requested := hrequested

theorem inv_of_oneOp {s : Session} (hconnect : s.connectOps = 0) (hdata : s.dataOps = 1)
    (hidle : s.handler = .idle) (hrequested : s.subscriptions.Requested text) : s.Inv text where
  oneOp := by omega
  noOp h := absurd hidle h
  unarmed h := by omega
  requested := hrequested

theorem Inv.connectStep {s s' : Session} (hs : s.Inv text) (hstep : ConnectStep s s')
    (hidle : s.handler = .idle) : s'.Inv text where
  oneOp := hstep.ops_le.trans hs.oneOp
  noOp h := absurd (hstep.handler_eq.trans hidle) h
  unarmed _ := by
    rw [TimerDone, hstep.timer_eq]
    exact hs.unarmed hstep.began
  requested := hstep.subscriptions_eq ▸ hs.requested

theorem Inv.noZombie_connectStep {s s' : Session} (hs : s.Inv text) (hstep : ConnectStep s s') :
    s'.NoZombie := by
  apply noZombie_of_timerDone
  rw [TimerDone, hstep.timer_eq]
  exact hs.unarmed hstep.began

/-- The completion of the handshake leaves no operation outstanding. -/
theorem Inv.lastHandshake {s : Session} (hs : s.Inv text) (h : 0 < s.handshaking) :
    connectOps { s with handshaking := s.handshaking - 1 } = 0 ∧ s.dataOps = 0 := by
  have hone := hs.oneOp
  simp only [connectOps] at hone ⊢
  omega

theorem Inv.lastWrite {s : Session} (hs : s.Inv text) (h : 0 < s.writing) :
    s.connectOps = 0 ∧ dataOps { s with writing := s.writing - 1 } = 0 := by
  have hone := hs.oneOp
  simp only [dataOps] at hone ⊢
  omega

theorem Inv.lastRead {s : Session} (hs : s.Inv text) (h : 0 < s.reading) :
    s.connectOps = 0 ∧ dataOps { s with reading := s.reading - 1 } = 0 := by
  have hone := hs.oneOp
  simp only [dataOps] at hone ⊢
  omega

theorem Inv.inHandler {s : Session} (hs : s.Inv text) (h : s.handler ≠ .idle) :
    s.connectOps = 0 ∧ s.dataOps = 0 := by
  have hnone := hs.noOp h
  omega

/-- The timer is armed only when the connection is set up. -/
theorem Inv.connectOps_of_expired {s : Session} (hs : s.Inv text) (h : 0 < s.timer.expired) :
    s.connectOps = 0 := by
  by_contra hconnect
  have hdone := hs.unarmed (Nat.pos_of_ne_zero hconnect)
  rw [hdone.2] at h
  exact absurd h (lt_irrefl 0)

theorem Enabled.dispatched {s : Session} (h : s.Enabled .sendNext) : s.handler ≠ .idle := by
  rw [show s.handler = .dispatched from h]
  simp

theorem Enabled.nothingToSend {s : Session} (h : s.Enabled .checkSubscriptions) :
    s.handler ≠ .idle := by
  rw [show s.handler = .nothingToSend from h]
  simp

theorem inv_step (htext : text.Faithful) {s s' : Session} {event : SessionEvent}
    (hs : s.Inv text) (hen : s.Enabled event)
    (hnext : s.next text common logger event = some s') : s'.Inv text := by
  cases event with
  | subscribe f =>
      obtain rfl := Option.some.inj hnext
      exact ⟨hs.oneOp, hs.noOp, hs.unarmed, hs.requested.write f⟩
  | close =>
      obtain rfl := Option.some.inj hnext
      exact ⟨hs.oneOp, hs.noOp, hs.unarmed, hs.requested⟩
  | resolved failed =>
      obtain rfl := Option.some.inj hnext
      exact hs.connectStep (connectStep_onResolve hen.2 failed) hen.1
  | connected failed nameRefused =>
      obtain rfl := Option.some.inj hnext
      exact hs.connectStep (connectStep_onConnect hen.2 failed nameRefused) hen.1
  | sslHandshaked failed =>
      obtain rfl := Option.some.inj hnext
      exact hs.connectStep (connectStep_onSSLHandshake hen.2 failed) hen.1
  | handshaked failed =>
      obtain rfl := Option.some.inj hnext
      rcases hen with ⟨hidle, hpos⟩
      cases failed with
      | true => exact hs.connectStep (connectStep_onHandshake hpos) hidle
      | false =>
          obtain ⟨hconnect, hdata⟩ := hs.lastHandshake hpos
          obtain ⟨subscription, subs, hrequested, heq⟩ := onHandshake_eq htext logger
            { s with handshaking := s.handshaking - 1 } hs.requested
          rw [heq]
          refine inv_of_oneOp hconnect ?_ hidle hrequested
          rw [dataOps_asyncWrite]
          exact congrArg (· + 1) hdata
  | written failed =>
      obtain rfl := Option.some.inj hnext
      rcases hen with ⟨hidle, hpos⟩
      obtain ⟨hconnect, hdata⟩ := hs.lastWrite hpos
      cases failed with
      | true => exact inv_of_noOp hconnect hdata hs.requested
      | false => exact inv_of_oneOp hconnect (congrArg (· + 1) hdata) hidle hs.requested
  | readFailed =>
      obtain rfl := Option.some.inj hnext
      obtain ⟨hconnect, hdata⟩ := hs.lastRead hen.2
      exact inv_of_noOp hconnect hdata hs.requested
  | received message callback =>
      obtain ⟨hconnect, hdata⟩ := hs.lastRead hen.2
      obtain ⟨subscriptions, hrequests, -, hcases⟩ := onReceived_cases hnext
      have hrequested : subscriptions.Requested text := by
        rw [Subscriptions.Requested, hrequests]
        exact hs.requested
      rcases hcases with ⟨-, rfl⟩ | ⟨-, -, rfl⟩ | ⟨-, rfl⟩
      · exact inv_of_noOp hconnect hdata hrequested
      · exact inv_of_noOp hconnect hdata hrequested
      · exact inv_of_noOp hconnect hdata hrequested
  | sendNext =>
      obtain rfl := Option.some.inj hnext
      obtain ⟨hconnect, hdata⟩ := hs.inHandler (Enabled.dispatched hen)
      rcases onSendNext_cases htext logger s hs.requested with
        heq | ⟨subscription, subs, hrequested, heq⟩
      · rw [heq]
        exact inv_of_noOp hconnect hdata hs.requested
      · rw [heq]
        refine inv_of_oneOp hconnect ?_ rfl hrequested
        rw [dataOps_asyncWrite]
        exact congrArg (· + 1) hdata
  | checkSubscriptions =>
      obtain rfl := Option.some.inj hnext
      obtain ⟨hconnect, hdata⟩ := hs.inHandler (Enabled.nothingToSend hen)
      rcases onNothingToSend_cases logger s with ⟨-, heq⟩ | ⟨-, -, heq⟩ | ⟨-, -, heq⟩
      · rw [heq]
        exact inv_of_oneOp hconnect (congrArg (· + 1) hdata) rfl hs.requested
      · rw [heq]
        exact inv_of_oneOp hconnect (congrArg (· + 1) hdata) rfl hs.requested
      · rw [heq]
        exact inv_of_noOp hconnect hdata hs.requested
  | closed failed =>
      obtain rfl := Option.some.inj hnext
      refine ⟨hs.oneOp, hs.noOp, ?_, hs.requested⟩
      intro hconnect
      exact ⟨rfl, (hs.unarmed hconnect).2⟩
  | timerExpires =>
      obtain rfl := Option.some.inj hnext
      refine ⟨hs.oneOp, hs.noOp, ?_, hs.requested⟩
      intro hconnect
      obtain ⟨hwaiting, hexpired⟩ := hs.unarmed hconnect
      exact ⟨rfl, by simp [PingTimer.expire, hwaiting, hexpired]⟩
  | pinged pingExpired =>
      obtain rfl := Option.some.inj hnext
      have hconnect : ¬ 0 < s.connectOps := by
        rw [hs.connectOps_of_expired hen.2]
        exact lt_irrefl 0
      unfold onPingTimer
      split
      · exact ⟨hs.oneOp, hs.noOp, fun h => absurd h hconnect, hs.requested⟩
      · exact ⟨hs.oneOp, hs.noOp, fun h => absurd h hconnect, hs.requested⟩
  | pingAborted =>
      obtain rfl := Option.some.inj hnext
      exact ⟨hs.oneOp, hs.noOp, hs.unarmed, hs.requested⟩

/-- **Which steps make a zombie.**  Exactly those that end the last operation and
    leave the timer be. -/
theorem noZombie_step_iff (htext : text.Faithful) {s s' : Session} {event : SessionEvent}
    (hs : s.Inv text) (hzombie : s.NoZombie) (hen : s.Enabled event)
    (hnext : s.next text common logger event = some s') :
    s'.NoZombie ↔ s.EndsTimer text common logger event := by
  cases event with
  | subscribe f =>
      obtain rfl := Option.some.inj hnext
      exact iff_of_true hzombie trivial
  | close =>
      obtain rfl := Option.some.inj hnext
      exact iff_of_true (noZombie_of_closing (Nat.succ_pos _)) trivial
  | resolved failed =>
      obtain rfl := Option.some.inj hnext
      exact iff_of_true (hs.noZombie_connectStep (connectStep_onResolve hen.2 failed)) trivial
  | connected failed nameRefused =>
      obtain rfl := Option.some.inj hnext
      exact iff_of_true
        (hs.noZombie_connectStep (connectStep_onConnect hen.2 failed nameRefused)) trivial
  | sslHandshaked failed =>
      obtain rfl := Option.some.inj hnext
      exact iff_of_true (hs.noZombie_connectStep (connectStep_onSSLHandshake hen.2 failed)) trivial
  | handshaked failed =>
      obtain rfl := Option.some.inj hnext
      refine iff_of_true ?_ trivial
      cases failed with
      | true => exact hs.noZombie_connectStep (connectStep_onHandshake hen.2)
      | false =>
          obtain ⟨subscription, subs, -, heq⟩ := onHandshake_eq htext logger
            { s with handshaking := s.handshaking - 1 } hs.requested
          rw [heq]
          apply noZombie_of_op
          rw [dataOps_asyncWrite]
          omega
  | written failed =>
      obtain rfl := Option.some.inj hnext
      rcases hen with ⟨hidle, hpos⟩
      cases failed with
      | false =>
          refine iff_of_true (noZombie_of_op ?_) (by simp [EndsTimer])
          exact Nat.succ_pos _
      | true =>
          -- the error exit leaves the timer as it is
          obtain ⟨hconnect, hdata⟩ := hs.lastWrite hpos
          refine Iff.trans (noZombie_iff hidle hconnect hdata) ?_
          exact ⟨fun h _ => h, fun h => h rfl⟩
  | readFailed =>
      obtain rfl := Option.some.inj hnext
      rcases hen with ⟨hidle, hpos⟩
      obtain ⟨hconnect, hdata⟩ := hs.lastRead hpos
      refine Iff.trans (noZombie_iff hidle hconnect hdata) ?_
      simp [EndsTimer, TimerDone, onReadError, PingTimer.cancel]
  | received message callback =>
      rcases hen with ⟨hidle, hpos⟩
      obtain ⟨hconnect, hdata⟩ := hs.lastRead hpos
      obtain ⟨subs, -, -, hcases⟩ := onReceived_cases hnext
      rcases hcases with ⟨hstays, rfl⟩ | ⟨hstays, -, rfl⟩ | ⟨hescapes, rfl⟩
      · exact iff_of_true (noZombie_of_handler (by simp)) (fun h => absurd h hstays)
      · exact iff_of_true (noZombie_of_closing (Nat.succ_pos _)) (fun h => absurd h hstays)
      · refine Iff.trans (noZombie_iff hidle hconnect hdata) ?_
        exact ⟨fun h _ => h, fun h => h hescapes⟩
  | sendNext =>
      obtain rfl := Option.some.inj hnext
      refine iff_of_true ?_ trivial
      rcases onSendNext_cases htext logger s hs.requested with heq | ⟨subscription, subs, -, heq⟩
      · rw [heq]
        exact noZombie_of_handler (by simp)
      · rw [heq]
        apply noZombie_of_op
        rw [dataOps_asyncWrite]
        omega
  | checkSubscriptions =>
      obtain rfl := Option.some.inj hnext
      obtain ⟨hconnect, hdata⟩ := hs.inHandler (Enabled.nothingToSend hen)
      rcases onNothingToSend_cases logger s with ⟨hsome, heq⟩ | ⟨-, hlogger, heq⟩ |
          ⟨hnone, hlogger, heq⟩
      · rw [heq]
        exact iff_of_true (noZombie_of_op (Nat.succ_pos _)) (fun h => absurd h hsome)
      · rw [heq]
        exact iff_of_true (noZombie_of_closing (Nat.succ_pos _)) (by simp [EndsTimer, hlogger])
      · rw [heq]
        refine Iff.trans (noZombie_iff rfl hconnect hdata) ?_
        exact ⟨fun h _ _ => h, fun h => h hnone hlogger⟩
  | closed failed =>
      obtain rfl := Option.some.inj hnext
      rcases hen with ⟨hidle, hpos⟩
      by_cases hops : 0 < s.connectOps + s.dataOps
      · exact iff_of_true (noZombie_of_op hops) (Or.inr (Or.inr hops))
      · refine Iff.trans (noZombie_iff hidle ?_ ?_) ?_
        · exact Nat.eq_zero_of_add_eq_zero_right (Nat.eq_zero_of_not_pos hops)
        · exact Nat.eq_zero_of_add_eq_zero_left (Nat.eq_zero_of_not_pos hops)
        · simp only [EndsTimer, TimerDone, onClose, PingTimer.cancel, true_and]
          omega
  | timerExpires =>
      obtain rfl := Option.some.inj hnext
      refine iff_of_true ?_ trivial
      intro hquiet
      have hwaiting := (hzombie hquiet).1
      exact absurd hen (by simp [Enabled, hwaiting])
  | pinged pingExpired =>
      obtain rfl := Option.some.inj hnext
      refine iff_of_true ?_ trivial
      intro hquiet
      have hquiet' : s.Quiet := by
        unfold onPingTimer at hquiet
        split at hquiet <;> exact hquiet
      have hexpired := (hzombie hquiet').2
      exact absurd hen.2 (by simp [hexpired])
  | pingAborted =>
      obtain rfl := Option.some.inj hnext
      exact iff_of_true hzombie trivial

/-- **Exactly when a session never becomes a zombie.**  Every state of a run that is
    quiet leaves the timer alone if and only if every step ends the timer that
    ends the last operation; and then nothing refers to a quiet session any more
    when the aborted waits are delivered, so that the next subscription opens a new
    one. -/
theorem no_zombie_iff (htext : text.Faithful) {subscriptionFilter : String}
    {events : List SessionEvent} {final : Session}
    (hrun : run (step text common logger) (opened text subscriptionFilter) events = some final) :
    (Throughout (step text common logger) NoZombie (opened text subscriptionFilter) events ↔
        Along (step text common logger) (EndsTimer text common logger)
          (opened text subscriptionFilter) events) ∧
      (Along (step text common logger) (EndsTimer text common logger)
          (opened text subscriptionFilter) events →
        final.Quiet → final.timer.aborted = 0 →
          final.selfReferences = 0 ∧
            ∀ f, f ≠ "" → final.clientSubscribe text f = some (opened text f)) := by
  have hstart : (opened text subscriptionFilter).NoZombie :=
    noZombie_of_op (by simp [opened, connectOps])
  have hexact : Throughout (step text common logger) NoZombie (opened text subscriptionFilter)
        events ↔ Along (step text common logger) (EndsTimer text common logger)
          (opened text subscriptionFilter) events := by
    refine throughout_iff_along ?_ (inv_opened subscriptionFilter) hstart hrun
    intro s event next hs hzombie hstep
    obtain ⟨hen, hnext⟩ := (step_eq_some text common logger).mp hstep
    exact ⟨inv_step htext hs hen hnext, noZombie_step_iff htext hs hzombie hen hnext⟩
  refine ⟨hexact, ?_⟩
  intro hends hquiet haborted
  have hnone : final.selfReferences = 0 := by
    rw [((hexact.mpr hends).last hrun).selfReferences hquiet, haborted]
  refine ⟨hnone, ?_⟩
  intro f hf
  exact clientSubscribe_of_unreferenced text hquiet.1 hnone hf

/-- A session that a text which is no JSON closes, while the timer goes off. -/
def closedByText : List SessionEvent :=
  [.resolved false, .connected false false, .sslHandshaked false, .handshaked false,
    .written false, .received "?" (.ok ()), .timerExpires, .pinged false, .closed false,
    .pingAborted]

theorem no_zombie_iff_closedByText :
    Throughout (step plainText (.documented fun _ => none) true) NoZombie
      (opened plainText "tickers.BTCUSDT") closedByText := by
  have hends : Along (step plainText (.documented fun _ => none) true)
      (EndsTimer plainText (.documented fun _ => none) true)
      (opened plainText "tickers.BTCUSDT") closedByText := by
    decide
  exact (no_zombie_iff plainText_faithful rfl).1.mpr hends

/-- The first write fails: the timer waits on, and nothing else is outstanding. -/
theorem failed_write_leaves_zombie :
    ∃ events final, run (step plainText (.documented fun _ => none) true)
        (opened plainText "tickers.BTCUSDT") events = some final ∧
      final.Quiet ∧ ¬ final.TimerDone := by
  refine ⟨[.resolved false, .connected false false, .sslHandshaked false, .handshaked false,
    .written true], _, rfl, ⟨rfl, rfl, rfl, rfl⟩, ?_⟩
  unfold TimerDone
  decide

/-- A wait that is due when a read fails is beyond `cancel`, and arms the timer again. -/
example : ∃ final, run (step plainText (.documented fun _ => none) true)
    (opened plainText "tickers.BTCUSDT")
    [.resolved false, .connected false false, .sslHandshaked false, .handshaked false,
      .written false, .timerExpires, .readFailed, .pinged false] = some final ∧
      final.Quiet ∧ final.timer.waiting = 1 :=
  ⟨_, rfl, ⟨rfl, rfl, rfl, rfl⟩, rfl⟩

/-! ### What becomes of a zombie -/

/-- No operation is outstanding besides closes, and writes were started with these texts. -/
structure Stopped (texts : List String) (s : Session) : Prop where
  idle : s.handler = .idle
  connect : s.connectOps = 0
  data : s.dataOps = 0
  texts_eq : s.texts = texts

theorem stopped_step {texts : List String} {s s' : Session} {event : SessionEvent}
    (hs : Stopped texts s) (hstep : s.step text common logger event = some s') :
    Stopped texts s' := by
  obtain ⟨hen, hnext⟩ := (step_eq_some text common logger).mp hstep
  rcases hs with ⟨hidle, hconnect, hdata, htexts⟩
  have hcounts := hconnect
  have hdataCounts := hdata
  simp only [connectOps] at hcounts
  simp only [dataOps] at hdataCounts
  cases event with
  | subscribe _ | close | closed _ | timerExpires | pingAborted =>
      obtain rfl := Option.some.inj hnext
      exact ⟨hidle, hconnect, hdata, htexts⟩
  | pinged pingExpired =>
      obtain rfl := Option.some.inj hnext
      unfold onPingTimer
      split <;> exact ⟨hidle, hconnect, hdata, htexts⟩
  | resolved _ | connected _ _ | sslHandshaked _ | handshaked _ | written _ | readFailed
  | received _ _ =>
      have hpos := hen.2
      omega
  | sendNext =>
      rw [Enabled, hidle] at hen
      cases hen
  | checkSubscriptions =>
      rw [Enabled, hidle] at hen
      cases hen

/-- **A quiet session never sends again**, whatever is subscribed on it. -/
theorem texts_of_quiet {s : Session} (hquiet : s.Quiet) {events : List SessionEvent}
    {final : Session} (hrun : run (step text common logger) s events = some final) :
    final.texts = s.texts := by
  rcases hquiet with ⟨hidle, hconnect, hdata, -⟩
  have hfinal : Stopped s.texts final :=
    invariant_of_run (fun _ _ _ hs _ hstep => stopped_step hs hstep) ⟨hidle, hconnect, hdata, rfl⟩
      (along_true s events) hrun
  exact hfinal.texts_eq

end Session

end BybitApi
