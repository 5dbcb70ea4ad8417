import BybitApi.SessionWrites

/-!
# Pings

Every 20 seconds the handler of the ping timer looks at the times of the last ping and of the
last pong, sends a ping, and sets the timer again.  A pinged session is a session with the
pings outstanding and with the clock that these times are read from; forgetting them gives
the session back (`session_of_run`).

The handler of a ping holds no reference to the session, but uses it.  It finds the session as
long as the waits that a cancel has aborted are delivered after the pings
(`ping_finds_session`).  A ping that is answered raises no warning; of a server that has
fallen silent the fourth handler warns at the latest, and nothing else is done about it
(`silence_is_reported`).
-/

namespace BybitApi

open Machine

/-- `PING_INTERVAL_IN_S`, in nanoseconds. -/
def pingInterval : Int := 20000000000

/-- A session, the pings outstanding, what the clock read last, and when the timer was set. -/
structure PingedSession where
  session : Session
  pinging : Nat
  lastPingTime : Int
  lastPongTime : Int
  clock : Int
  timerSet : Int

/-- What happens to a pinged session; the handler of the timer finds the connection open or
    not. -/
inductive PingEvent where
  | session (event : SessionEvent)
  | onPingTimer (isOpen : Bool)
  | pinged (failed : Bool)
  | pong

namespace PingedSession

section Source

variable (text : JsonText) (common : VkCommon) (logger : Bool)

/-- The test of `ping`. -/
def pingExpired (s : PingedSession) : Bool :=
  decide (pingInterval < s.lastPingTime - s.lastPongTime)

/-- A session that is run at the time given; the constructor has set the timer. -/
def openedAt (now : Int) (earlier : List String) (subscriptionFilter : String) : PingedSession where
  session := Session.openedAfter text earlier subscriptionFilter
  pinging := 0
  lastPingTime := 0
  lastPongTime := 0
  clock := now
  timerSet := now

/-- The event, at the time the clock reads. -/
def next (s : PingedSession) : PingEvent → Option PingedSession
  | .session (.pinged _) => none
  | .session .timerExpires =>
      if s.timerSet + pingInterval ≤ s.clock then
        (s.session.step text common logger .timerExpires).map fun session => { s with session }
      else none
  | .session event =>
      (s.session.step text common logger event).map fun session => { s with session }
  | .onPingTimer isOpen =>
      (s.session.step text common logger (.pinged s.pingExpired)).map fun session =>
        -- without a logger the warning throws, before the ping is sent and the timer is set
        if s.pingExpired && !logger then { s with session }
        else
          { s with
            session
            pinging := if isOpen then s.pinging + 1 else s.pinging
            timerSet := s.clock }
  | .pinged failed =>
      if s.session.handler = .idle ∧ 0 < s.pinging then
        some { s with
          pinging := s.pinging - 1
          lastPingTime := if failed then s.lastPingTime else s.clock }
      else none
  -- the control callback is called while a read is outstanding
  | .pong =>
      if s.session.handler = .idle ∧ 0 < s.session.reading then
        some { s with lastPongTime := s.clock }
      else none

/-- An event at a time; the clock does not go back. -/
def step (s : PingedSession) (event : Int × PingEvent) : Option PingedSession :=
  if s.clock ≤ event.1 then { s with clock := event.1 }.next text common logger event.2 else none

end Source

/-! ### The session underneath -/

variable {text : JsonText} {common : VkCommon} {logger : Bool}

/-- What a step does: one of the session, as it is or with the handler of the timer around
    it, or nothing to the session. -/
inductive Outcome (text : JsonText) (common : VkCommon) (logger : Bool) (s : PingedSession) :
    Int × PingEvent → PingedSession → Prop where
  | session {now : Int} {event : SessionEvent} {session : Session}
      (hstep : s.session.step text common logger event = some session)
      (hnoPing : ∀ pingExpired, event ≠ .pinged pingExpired)
      (hdue : event = .timerExpires → s.timerSet + pingInterval ≤ now) :
      Outcome text common logger s (now, .session event) { s with session, clock := now }
  | throws {now : Int} {isOpen : Bool} {session : Session}
      (hstep : s.session.step text common logger (.pinged s.pingExpired) = some session)
      (hexpired : s.pingExpired = true) (hlogger : logger = false) :
      Outcome text common logger s (now, .onPingTimer isOpen) { s with session, clock := now }
  | pings {now : Int} {isOpen : Bool} {session : Session}
      (hstep : s.session.step text common logger (.pinged s.pingExpired) = some session)
      (hwarns : s.pingExpired = true → logger = true) :
      Outcome text common logger s (now, .onPingTimer isOpen)
        { s with
          session
          pinging := if isOpen then s.pinging + 1 else s.pinging
          clock := now
          timerSet := now }
  | pinged {now : Int} {failed : Bool} (hpinging : 0 < s.pinging) :
      Outcome text common logger s (now, .pinged failed)
        { s with
          pinging := s.pinging - 1
          lastPingTime := if failed then s.lastPingTime else now
          clock := now }
  | pong {now : Int} :
      Outcome text common logger s (now, .pong) { s with lastPongTime := now, clock := now }

theorem outcome_of_step {s s' : PingedSession} {event : Int × PingEvent}
    (h : s.step text common logger event = some s') :
    s.clock ≤ event.1 ∧ s.Outcome text common logger event s' := by
  obtain ⟨now, event⟩ := event
  unfold step at h
  split at h
  · next hclock =>
      refine ⟨hclock, ?_⟩
      cases event with
      | session event =>
          have hsession : (∀ pingExpired, event ≠ .pinged pingExpired) ∧
              (event = .timerExpires → s.timerSet + pingInterval ≤ now) ∧
              (s.session.step text common logger event).map
                (fun session => { s with session, clock := now }) = some s' := by
            cases event with
            | pinged pingExpired => simp [next] at h
            | timerExpires =>
                simp only [next] at h
                split at h
                · next hdue => exact ⟨by simp, fun _ => hdue, h⟩
                · cases h
            | _ => exact ⟨by simp, by simp, h⟩
          obtain ⟨hnoPing, hdue, hmap⟩ := hsession
          obtain ⟨session, hstep, rfl⟩ := Option.map_eq_some_iff.mp hmap
          exact .session hstep hnoPing hdue
      | onPingTimer isOpen =>
          obtain ⟨session, hstep, rfl⟩ := Option.map_eq_some_iff.mp h
          split
          · next hthrows =>
              have hboth : s.pingExpired = true ∧ logger = false := by
                simpa [pingExpired] using hthrows
              exact .throws hstep hboth.1 hboth.2
          · next hwarns =>
              refine .pings hstep ?_
              simpa [pingExpired] using hwarns
      | pinged failed =>
          simp only [next] at h
          split at h
          · next hpinging =>
              obtain rfl := Option.some.inj h
              exact .pinged hpinging.2
          · cases h
      | pong =>
          simp only [next] at h
          split at h
          · obtain rfl := Option.some.inj h
            exact .pong
          · cases h
  · cases h

/-- **Pings change nothing in a session.**  The session of a run with pings is one of a run
    without them, so that what holds of every session holds of it. -/
theorem session_of_run {s final : PingedSession} {events : List (Int × PingEvent)}
    (hrun : run (step text common logger) s events = some final) :
    ∃ sessionEvents, run (Session.step text common logger) s.session sessionEvents =
      some final.session := by
  induction events generalizing s with
  | nil =>
      obtain rfl := Option.some.inj hrun
      exact ⟨[], rfl⟩
  | cons event events ih =>
      obtain ⟨next, hnext, hrest⟩ := run_cons_eq_some.mp hrun
      obtain ⟨sessionEvents, hsession⟩ := ih hrest
      cases (outcome_of_step hnext).2 with
      | session hstep _ _ | throws hstep _ _ | pings hstep _ =>
          exact ⟨_ :: sessionEvents, run_cons_eq_some.mpr ⟨_, hstep, hsession⟩⟩
      | pinged _ | pong => exact ⟨sessionEvents, hsession⟩

end PingedSession

/-! ### The timer -/

/-- What an event does to the timer. -/
def timerAfter (logger : Bool) (timer : PingTimer) : SessionEvent → PingTimer
  | .handshaked false => timer.asyncWait
  | .readFailed | .closed _ => timer.cancel
  | .timerExpires => timer.expire
  | .pinged pingExpired =>
      let timer := { timer with expired := timer.expired - 1 }
      if pingExpired && !logger then timer else timer.cancel.asyncWait
  | .pingAborted => { timer with aborted := timer.aborted - 1 }
  | _ => timer

namespace Session

variable {text : JsonText} {common : VkCommon} {logger : Bool}

theorem timer_onHandshake (s : Session) :
    (onHandshake text logger false s).timer = s.timer.asyncWait := by
  simp only [onHandshake, Bool.false_eq_true, if_false]
  cases readSubscription text logger s.subscriptions <;> rfl

theorem timer_onSendNext (s : Session) : (onSendNext text logger s).timer = s.timer := by
  unfold onSendNext
  cases readSubscription text logger s.subscriptions with
  | ok subscription subscriptions =>
      dsimp only
      split <;> rfl
  | error fault subscriptions => rfl

theorem timer_onReceived {message : String} {callback : Except Fault Unit} {s s' : Session}
    (h : onReceived text common logger message callback s = some s') : s'.timer = s.timer := by
  obtain ⟨subscriptions, -, -, ⟨-, rfl⟩ | ⟨-, -, rfl⟩ | ⟨-, rfl⟩⟩ := onReceived_cases h
  · rfl
  · rfl
  · rfl

/-- The timer after a step. -/
theorem timer_of_step {s s' : Session} {event : SessionEvent}
    (h : s.step text common logger event = some s') :
    s'.timer = timerAfter logger s.timer event := by
  obtain ⟨-, hnext⟩ := (step_eq_some text common logger).mp h
  cases event with
  | received message callback =>
      have hread : s'.timer = { s with reading := s.reading - 1 }.timer := timer_onReceived hnext
      exact hread
  | handshaked failed =>
      obtain rfl := Option.some.inj hnext
      cases failed with
      | true => rfl
      | false => exact timer_onHandshake _
  | sendNext =>
      obtain rfl := Option.some.inj hnext
      exact timer_onSendNext s
  | checkSubscriptions =>
      obtain rfl := Option.some.inj hnext
      rcases onNothingToSend_cases logger s with ⟨-, heq⟩ | ⟨-, -, heq⟩ | ⟨-, -, heq⟩
      · rw [heq]
        rfl
      · rw [heq]
        rfl
      · rw [heq]
        rfl
  | pinged pingExpired =>
      obtain rfl := Option.some.inj hnext
      simp only [onPingTimer, timerAfter]
      split <;> rfl
  | resolved failed | written failed =>
      obtain rfl := Option.some.inj hnext
      cases failed <;> rfl
  | sslHandshaked failed =>
      obtain rfl := Option.some.inj hnext
      cases failed <;> rfl
  | connected failed nameRefused =>
      obtain rfl := Option.some.inj hnext
      cases failed <;> cases nameRefused <;> rfl
  | subscribe f | close | readFailed | closed failed | timerExpires | pingAborted =>
      obtain rfl := Option.some.inj hnext
      rfl

/-- A handshake is the last step of connecting, and arms the timer. -/
def connects : SessionEvent → Nat
  | .handshaked false => 1
  | _ => 0

theorem connectOps_of_step {s s' : Session} {event : SessionEvent}
    (h : s.step text common logger event = some s') :
    s'.connectOps + connects event ≤ s.connectOps := by
  obtain ⟨hen, hnext⟩ := (step_eq_some text common logger).mp h
  cases event with
  | received message callback =>
      obtain ⟨subscriptions, -, -, ⟨-, rfl⟩ | ⟨-, -, rfl⟩ | ⟨-, rfl⟩⟩ := onReceived_cases hnext
      · exact le_refl s.connectOps
      · exact le_refl s.connectOps
      · exact le_refl s.connectOps
  | sendNext =>
      obtain rfl := Option.some.inj hnext
      unfold onSendNext
      cases readSubscription text logger s.subscriptions with
      | ok subscription subscriptions =>
          dsimp only
          split <;> exact le_refl s.connectOps
      | error fault subscriptions => exact le_refl s.connectOps
  | checkSubscriptions =>
      obtain rfl := Option.some.inj hnext
      rcases onNothingToSend_cases logger s with ⟨-, heq⟩ | ⟨-, -, heq⟩ | ⟨-, -, heq⟩
      · rw [heq]
        exact le_refl s.connectOps
      · rw [heq]
        exact le_refl s.connectOps
      · rw [heq]
        exact le_refl s.connectOps
  | handshaked failed =>
      obtain rfl := Option.some.inj hnext
      have hpos := hen.2
      cases failed with
      | true =>
          simp only [onHandshake, if_true, connectOps, connects]
          omega
      | false =>
          have hkeeps : ∀ t : Session, (onHandshake text logger false t).connectOps =
              t.connectOps := by
            intro t
            simp only [onHandshake, Bool.false_eq_true, if_false]
            cases readSubscription text logger t.subscriptions <;> rfl
          rw [hkeeps]
          simp only [connectOps, connects]
          omega
  | resolved failed =>
      obtain rfl := Option.some.inj hnext
      exact (untouched_onResolve hen.2 failed).connectOps_le
  | connected failed nameRefused =>
      obtain rfl := Option.some.inj hnext
      exact (untouched_onConnect hen.2 failed nameRefused).connectOps_le
  | sslHandshaked failed =>
      obtain rfl := Option.some.inj hnext
      exact (untouched_onSSLHandshake hen.2 failed).connectOps_le
  | written failed =>
      obtain rfl := Option.some.inj hnext
      cases failed <;> exact le_refl s.connectOps
  | pinged pingExpired =>
      obtain rfl := Option.some.inj hnext
      simp only [onPingTimer]
      split <;> exact le_refl s.connectOps
  | subscribe f | close | readFailed | closed failed | timerExpires | pingAborted =>
      obtain rfl := Option.some.inj hnext
      exact le_refl s.connectOps

/-- The waits that may still call the handler with success, and those to come. -/
def waits (s : Session) : Nat := s.connectOps + s.timer.waiting + s.timer.expired

/-- No step adds to them, so that there is one wait at a time. -/
theorem waits_of_step {s s' : Session} {event : SessionEvent}
    (h : s.step text common logger event = some s') : s'.waits ≤ s.waits := by
  have hconnect := connectOps_of_step h
  have htimer := timer_of_step h
  have hen := ((step_eq_some text common logger).mp h).1
  unfold waits
  rw [htimer]
  cases event with
  | handshaked failed =>
      cases failed with
      | true => exact Nat.add_le_add_right (Nat.add_le_add_right hconnect _) _
      | false =>
          simp only [timerAfter, PingTimer.asyncWait, connects] at hconnect ⊢
          omega
  | pinged pingExpired =>
      have hpos := hen.2
      simp only [timerAfter, connects] at hconnect ⊢
      split
      · dsimp only
        omega
      · simp only [PingTimer.cancel, PingTimer.asyncWait]
        omega
  | readFailed | closed failed =>
      simp only [timerAfter, PingTimer.cancel, connects] at hconnect ⊢
      omega
  | timerExpires =>
      simp only [timerAfter, PingTimer.expire, connects] at hconnect ⊢
      omega
  | _ =>
      simp only [timerAfter, connects] at hconnect ⊢
      omega

end Session

namespace PingedSession

variable {text : JsonText} {common : VkCommon} {logger : Bool}

/-! ### A ping and its session -/

/-- Something refers to the session as long as a ping is outstanding. -/
def OutlivesPings (s : PingedSession) : Prop := 0 < s.pinging → 0 < s.session.selfReferences

/-- No wait that was aborted is delivered while a ping is outstanding, and no handler ends
    without setting the timer then. -/
def PingsFirst (logger : Bool) (s : PingedSession) : Int × PingEvent → Prop
  | (_, .session .pingAborted) => s.pinging = 0
  | (_, .onPingTimer _) => s.pingExpired = true → logger = false → s.pinging = 0
  | _ => True

instance (logger : Bool) (s : PingedSession) : DecidablePred (s.PingsFirst logger)
  | (_, .session .pingAborted) => inferInstanceAs (Decidable (s.pinging = 0))
  | (_, .onPingTimer _) =>
      inferInstanceAs (Decidable (s.pingExpired = true → logger = false → s.pinging = 0))
  | (_, .session (.subscribe _)) | (_, .session .close) | (_, .session (.resolved _))
  | (_, .session (.connected _ _)) | (_, .session (.sslHandshaked _))
  | (_, .session (.handshaked _)) | (_, .session (.written _)) | (_, .session .readFailed)
  | (_, .session (.received _ _)) | (_, .session .sendNext) | (_, .session .checkSubscriptions)
  | (_, .session (.closed _)) | (_, .session .timerExpires) | (_, .session (.pinged _))
  | (_, .pinged _) | (_, .pong) => .isTrue trivial

/-- A ping leaves with the timer set, and a cancel only aborts the wait. -/
def Waits (s : PingedSession) : Prop :=
  0 < s.pinging → 0 < s.session.timer.waiting + s.session.timer.expired + s.session.timer.aborted

theorem waits_of_session {s : PingedSession} {now : Int} {event : SessionEvent}
    {session : Session} (hs : s.Waits) (hfirst : s.PingsFirst logger (now, .session event))
    (hnoPing : ∀ pingExpired, event ≠ .pinged pingExpired)
    (hstep : s.session.step text common logger event = some session) :
    Waits { s with session, clock := now } := by
  intro hpinging
  have hwaits := hs hpinging
  have htimer := Session.timer_of_step hstep
  show 0 < session.timer.waiting + session.timer.expired + session.timer.aborted
  rw [htimer]
  cases event with
  | handshaked failed =>
      cases failed with
      | true => exact hwaits
      | false =>
          simp only [timerAfter, PingTimer.asyncWait]
          omega
  | readFailed | closed failed =>
      simp only [timerAfter, PingTimer.cancel]
      omega
  | timerExpires =>
      simp only [timerAfter, PingTimer.expire]
      omega
  | pinged pingExpired => exact absurd rfl (hnoPing pingExpired)
  | pingAborted =>
      have hnone : s.pinging = 0 := hfirst
      exact absurd hpinging (by simp [hnone])
  | _ => exact hwaits

theorem waits_step {s s' : PingedSession} {event : Int × PingEvent} (hs : s.Waits)
    (hfirst : s.PingsFirst logger event) (hstep : s.step text common logger event = some s') :
    s'.Waits := by
  cases (outcome_of_step hstep).2 with
  | session hsession hnoPing _ => exact waits_of_session hs hfirst hnoPing hsession
  | throws _ hexpired hlogger =>
      have hnone : s.pinging = 0 := hfirst hexpired hlogger
      intro hpinging
      exact absurd hpinging (by simp [hnone])
  | pings hsession hwarns =>
      intro _
      have htimer := Session.timer_of_step hsession
      have hagain : (s.pingExpired && !logger) = false := by simpa using hwarns
      simp only [timerAfter, hagain, Bool.false_eq_true, if_false, PingTimer.cancel,
        PingTimer.asyncWait] at htimer
      simp only [htimer]
      omega
  | pinged _ =>
      intro hpinging
      exact hs (Nat.lt_of_lt_of_le hpinging (Nat.sub_le _ _))
  | pong => exact hs

theorem Waits.outlivesPings {s : PingedSession} (hs : s.Waits) : s.OutlivesPings := by
  intro hpinging
  have hwaits := hs hpinging
  simp only [Session.selfReferences]
  omega

/-- **A ping finds its session.**  In every run of a session in which the pings complete
    before an aborted wait is delivered, the session lives until its pings have
    completed, whatever becomes of its reads and closes. -/
theorem ping_finds_session (now : Int) (earlier : List String) (subscriptionFilter : String)
    (events : List (Int × PingEvent))
    (hfirst : Along (step text common logger) (PingsFirst logger)
      (openedAt text now earlier subscriptionFilter) events) :
    Throughout (step text common logger) OutlivesPings
      (openedAt text now earlier subscriptionFilter) events := by
  have hstart : (openedAt text now earlier subscriptionFilter).Waits := by
    intro hpinging
    exact absurd hpinging (Nat.lt_irrefl 0)
  exact Along.throughout (fun _ _ _ hs hcond hstep => waits_step hs hcond hstep)
    (fun _ hs => Waits.outlivesPings hs) hstart hfirst

/-! ### Pings that are answered, and a server that falls silent -/

/-- The times that were read lie in the past, the timer has one wait, and it is due when the
    timer was set long enough ago. -/
structure OnTime (s : PingedSession) : Prop where
  oneWait : s.session.waits ≤ 1
  due : 0 < s.session.timer.expired → s.timerSet + pingInterval ≤ s.clock
  pinged : s.lastPingTime ≤ s.clock
  ponged : s.lastPongTime ≤ s.clock
  set : s.timerSet ≤ s.clock

theorem onTime_openedAt {now : Int} (hnow : 0 ≤ now) (earlier : List String)
    (subscriptionFilter : String) : (openedAt text now earlier subscriptionFilter).OnTime where
  oneWait := le_refl 1
  due h := absurd h (Nat.lt_irrefl 0)
  pinged := hnow
  ponged := hnow
  set := le_refl now

/-- The handler runs when the wait was due, and no other wait is. -/
theorem OnTime.handler {s : PingedSession} (hs : s.OnTime) {session : Session}
    (hstep : s.session.step text common logger (.pinged s.pingExpired) = some session) :
    s.timerSet + pingInterval ≤ s.clock ∧ session.timer.expired = 0 := by
  have hen := ((Session.step_eq_some text common logger).mp hstep).1
  have htimer := Session.timer_of_step hstep
  have hone := hs.oneWait
  have hpos : 0 < s.session.timer.expired := hen.2
  refine ⟨hs.due hpos, ?_⟩
  rw [htimer]
  simp only [Session.waits] at hone
  simp only [timerAfter]
  split
  · dsimp only
    omega
  · simp only [PingTimer.cancel, PingTimer.asyncWait]
    omega

/-- Only the expiry of the timer makes a wait due. -/
theorem expired_of_session {s session : Session} {event : SessionEvent}
    (hnoPing : ∀ pingExpired, event ≠ .pinged pingExpired)
    (hstep : s.step text common logger event = some session) :
    event = .timerExpires ∨ session.timer.expired = s.timer.expired := by
  rw [Session.timer_of_step hstep]
  cases event with
  | timerExpires => exact .inl rfl
  | pinged pingExpired => exact absurd rfl (hnoPing pingExpired)
  | handshaked failed => cases failed <;> exact .inr rfl
  | _ => exact .inr rfl

theorem onTime_step {s s' : PingedSession} {event : Int × PingEvent} (hs : s.OnTime)
    (hstep : s.step text common logger event = some s') : s'.OnTime := by
  obtain ⟨hclock, houtcome⟩ := outcome_of_step hstep
  have hpast : s.lastPingTime ≤ event.1 ∧ s.lastPongTime ≤ event.1 ∧ s.timerSet ≤ event.1 :=
    ⟨hs.pinged.trans hclock, hs.ponged.trans hclock, hs.set.trans hclock⟩
  cases houtcome with
  | session hsession hnoPing hdue =>
      refine ⟨(Session.waits_of_step hsession).trans hs.oneWait, ?_, hpast.1, hpast.2.1, hpast.2.2⟩
      rcases expired_of_session hnoPing hsession with hexpires | hsame
      · exact fun _ => hdue hexpires
      · intro h
        exact (hs.due (hsame ▸ h)).trans hclock
  | throws hsession hexpired hlogger =>
      have hnone := (hs.handler hsession).2
      exact ⟨(Session.waits_of_step hsession).trans hs.oneWait, fun h => absurd h (by simp [hnone]),
        hpast.1, hpast.2.1, hpast.2.2⟩
  | pings hsession hwarns =>
      have hnone := (hs.handler hsession).2
      exact ⟨(Session.waits_of_step hsession).trans hs.oneWait, fun h => absurd h (by simp [hnone]),
        hpast.1, hpast.2.1, le_refl _⟩
  | @pinged now failed hpinging =>
      refine ⟨hs.oneWait, fun h => (hs.due h).trans hclock, ?_, hpast.2.1, hpast.2.2⟩
      cases failed with
      | true => exact hpast.1
      | false => exact le_refl now
  | pong => exact ⟨hs.oneWait, fun h => (hs.due h).trans hclock, hpast.1, le_refl _, hpast.2.2⟩

/-- A ping is sent within the interval; and when the handler runs, either none has been sent
    yet, or a pong has come since the timer was set. -/
def Answered (s : PingedSession) : Int × PingEvent → Prop
  | (_, .onPingTimer _) => s.lastPingTime = 0 ∨ s.timerSet ≤ s.lastPongTime
  | (now, .pinged _) => now ≤ s.timerSet + pingInterval
  | _ => True

/-- No pong comes, and every ping is sent, and has completed without an error when the
    handler runs. -/
def Silent (s : PingedSession) : Int × PingEvent → Prop
  | (_, .pong) => False
  | (_, .onPingTimer isOpen) => isOpen = true ∧ s.pinging = 0
  | (_, .pinged failed) => failed = false
  | (_, .session _) => True

instance (s : PingedSession) : DecidablePred s.Answered
  | (_, .onPingTimer _) =>
      inferInstanceAs (Decidable (s.lastPingTime = 0 ∨ s.timerSet ≤ s.lastPongTime))
  | (now, .pinged _) => inferInstanceAs (Decidable (now ≤ s.timerSet + pingInterval))
  | (_, .session _) | (_, .pong) => .isTrue trivial

instance (s : PingedSession) : DecidablePred s.Silent
  | (_, .pong) => .isFalse id
  | (_, .onPingTimer isOpen) => inferInstanceAs (Decidable (isOpen = true ∧ s.pinging = 0))
  | (_, .pinged failed) => inferInstanceAs (Decidable (failed = false))
  | (_, .session _) => .isTrue trivial

/-- How often the handler of the timer runs. -/
def handlers (events : List (Int × PingEvent)) : Nat :=
  events.countP fun event =>
    match event.2 with
    | .onPingTimer _ => true
    | _ => false

/-- The handler does not warn of a ping. -/
def NoWarning (s : PingedSession) : Int × PingEvent → Prop
  | (_, .onPingTimer _) => s.pingExpired = false
  | _ => True

/-- The last ping was sent within the interval. -/
structure Prompt (s : PingedSession) : Prop extends s.OnTime where
  sent : s.lastPingTime ≤ s.timerSet + pingInterval
  ponged_nonneg : 0 ≤ s.lastPongTime

theorem prompt_step {s s' : PingedSession} {event : Int × PingEvent} (hs : s.Prompt)
    (hanswered : s.Answered event) (hstep : s.step text common logger event = some s') :
    s'.Prompt := by
  have honTime := onTime_step hs.toOnTime hstep
  obtain ⟨hclock, houtcome⟩ := outcome_of_step hstep
  have hset := hs.set
  have hpong := hs.ponged
  have hnonneg := hs.ponged_nonneg
  cases houtcome with
  | session _ _ _ | throws _ _ _ => exact ⟨honTime, hs.sent, hnonneg⟩
  | pings _ _ => exact ⟨honTime, hs.sent.trans (by simp only at hclock ⊢; omega), hnonneg⟩
  | @pinged now failed _ =>
      refine ⟨honTime, ?_, hnonneg⟩
      cases failed with
      | true => exact hs.sent
      | false => exact hanswered
  | pong => exact ⟨honTime, hs.sent, by simp only at hclock ⊢; omega⟩

theorem noWarning_of_answered {s : PingedSession} {event : Int × PingEvent} (hs : s.Prompt)
    (hanswered : s.Answered event) : s.NoWarning event := by
  have hsent := hs.sent
  have hnonneg := hs.ponged_nonneg
  obtain ⟨now, event⟩ := event
  cases event with
  | onPingTimer isOpen =>
      have hshort : ¬ pingInterval < s.lastPingTime - s.lastPongTime := by
        have hpositive : 0 < pingInterval := by decide
        rcases hanswered with hnone | hponged <;> omega
      exact decide_eq_false hshort
  | session _ | pinged _ | pong => trivial

/-- After `count` handlers without a pong since `since`, the last ping is as late as the timer
    tells; or it has expired already. -/
def SilentSince (since : Int) (count : Nat) (s : PingedSession) : Prop :=
  s.pingExpired = true ∨
    s.lastPongTime ≤ since ∧ since ≤ s.clock ∧
      (0 < count → since + (count - 1) * pingInterval ≤ s.timerSet ∧
        (s.pinging = 0 → s.timerSet ≤ s.lastPingTime))

theorem handlers_cons (event : Int × PingEvent) (events : List (Int × PingEvent)) :
    handlers (event :: events) = handlers [event] + handlers events := by
  rw [handlers, List.countP_cons, handlers, handlers, List.countP_singleton, Nat.add_comm]

theorem silentSince_step {s s' : PingedSession} {event : Int × PingEvent} {since : Int}
    {count : Nat} (honTime : s.OnTime) (hs : s.SilentSince since count) (hsilent : s.Silent event)
    (hstep : s.step text common logger event = some s') :
    s'.SilentSince since (count + handlers [event]) := by
  obtain ⟨hclock, houtcome⟩ := outcome_of_step hstep
  have hset := honTime.set
  have hpinged := honTime.pinged
  cases houtcome with
  | @session now event session _ _ _ =>
      rcases hs with hexpired | ⟨hpong, hsince, hcount⟩
      · exact .inl hexpired
      · exact .inr ⟨hpong, hsince.trans hclock, hcount⟩
  | throws _ hexpired _ => exact .inl hexpired
  | @pings now isOpen session hsession _ =>
      obtain ⟨rfl, hnone⟩ := hsilent
      have hdue := (honTime.handler hsession).1
      rcases hs with hexpired | ⟨hpong, hsince, hcount⟩
      · exact .inl hexpired
      · refine .inr ⟨hpong, hsince.trans hclock, fun _ => ⟨?_, ?_⟩⟩
        · show since + (((count + 1 : Nat) : Int) - 1) * pingInterval ≤ now
          have hnow : s.clock ≤ now := hclock
          rcases Nat.eq_zero_or_pos count with rfl | hpos
          · simp only [Nat.zero_add, Nat.cast_one, sub_self, zero_mul]
            omega
          · have hearlier := (hcount hpos).1
            push_cast
            linarith
        · intro hzero
          simp at hzero
  | @pinged now failed _ =>
      have hsucceeded : failed = false := hsilent
      subst hsucceeded
      have hnow : s.clock ≤ now := hclock
      rcases hs with hexpired | ⟨hpong, hsince, hcount⟩
      · refine .inl (decide_eq_true ?_)
        have hlate := of_decide_eq_true hexpired
        simp only [Bool.false_eq_true, if_false]
        omega
      · refine .inr ⟨hpong, hsince.trans hclock, fun hpos => ⟨(hcount hpos).1, fun _ => ?_⟩⟩
        simp only [Bool.false_eq_true, if_false]
        omega
  | pong => exact hsilent.elim

theorem silentSince_run {s final : PingedSession} {events : List (Int × PingEvent)} {since : Int}
    {count : Nat} (honTime : s.OnTime) (hs : s.SilentSince since count)
    (hsilent : Along (step text common logger) Silent s events)
    (hrun : run (step text common logger) s events = some final) :
    final.SilentSince since (count + handlers events) := by
  induction events generalizing s count with
  | nil =>
      obtain rfl := Option.some.inj hrun
      exact hs
  | cons event events ih =>
      obtain ⟨next, hnext, hrest⟩ := run_cons_eq_some.mp hrun
      obtain ⟨hevent, hafter⟩ := hsilent
      rw [handlers_cons, ← Nat.add_assoc]
      exact ih (onTime_step honTime hnext) (silentSince_step honTime hs hevent hnext)
        (hafter next hnext) hrest

/-- **The pings are a watch.**  As long as each ping is sent within the interval and answered
    before the next one, no handler warns.  From any state of any run, through any
    continuation in which no pong comes, while the pings are sent and complete: the fourth
    handler warns at the latest. -/
theorem silence_is_reported {now : Int} (hnow : 0 ≤ now) (earlier : List String)
    (subscriptionFilter : String) {before events : List (Int × PingEvent)}
    {s final : PingedSession}
    (hbefore : run (step text common logger) (openedAt text now earlier subscriptionFilter)
      before = some s)
    (hrun : run (step text common logger) s events = some final) :
    (Along (step text common logger) Answered (openedAt text now earlier subscriptionFilter)
        before →
      Along (step text common logger) NoWarning (openedAt text now earlier subscriptionFilter)
        before) ∧
      (Along (step text common logger) Silent s events → 3 ≤ handlers events →
        final.pinging = 0 → final.pingExpired = true) := by
  have hopened : (openedAt text now earlier subscriptionFilter).OnTime :=
    onTime_openedAt hnow earlier subscriptionFilter
  constructor
  · intro hanswered
    have hinterval : 0 ≤ pingInterval := by decide
    have hstart : (openedAt text now earlier subscriptionFilter).Prompt :=
      ⟨hopened, add_nonneg hnow hinterval, le_refl 0⟩
    exact Along.of_invariant (fun _ _ _ hs hcond hstep => prompt_step hs hcond hstep)
      (fun _ _ hs hcond => noWarning_of_answered hs hcond) hstart hanswered
  · intro hsilent hthree hdone
    have honTime : s.OnTime := invariant_of_run (fun _ _ _ hs _ hstep => onTime_step hs hstep)
      hopened (along_true _ _) hbefore
    have hstart : s.SilentSince s.clock 0 :=
      .inr ⟨honTime.ponged, le_refl _, fun h => absurd h (Nat.lt_irrefl 0)⟩
    rcases silentSince_run honTime hstart hsilent hrun with hexpired | ⟨hpong, -, hcount⟩
    · exact hexpired
    · rw [Nat.zero_add] at hcount
      obtain ⟨hset, hping⟩ := hcount (by omega)
      have hlate := hping hdone
      have hinterval : 0 < pingInterval := by decide
      have hthree' : (3 : Int) ≤ handlers events := by exact_mod_cast hthree
      have htwo : 2 * pingInterval ≤ (handlers events - 1) * pingInterval :=
        mul_le_mul_of_nonneg_right (by linarith) hinterval.le
      exact decide_eq_true (by linarith)

/-! ### A connection that breaks, and one that falls silent -/

def second (n : Nat) : Int := n * 1000000000

/-- Connecting, in the first second. -/
def connected : List (Int × PingEvent) :=
  [(0, .session (.resolved false)), (0, .session (.connected false false)),
   (0, .session (.sslHandshaked false)), (second 1, .session (.handshaked false)),
   (second 1, .session (.written false))]

/-- The timer expires, and a ping is sent. -/
def pingAt (n : Nat) : List (Int × PingEvent) :=
  [(second n, .session .timerExpires), (second n, .onPingTimer true)]

def sentAt (n : Nat) : List (Int × PingEvent) := [(second n, .pinged false)]

/-- The connection breaks while a ping is outstanding. -/
def brokenPing : List (Int × PingEvent) :=
  connected ++ pingAt 20 ++ [(second 21, .session .readFailed), (second 21, .pinged true),
    (second 21, .session .pingAborted)]

theorem ping_finds_session_brokenPing :
    Throughout (step plainText (.documented fun _ => none) true) OutlivesPings
      (openedAt plainText 0 [] "tickers.BTCUSDT") brokenPing :=
  ping_finds_session 0 [] "tickers.BTCUSDT" brokenPing (by decide +kernel)

/-- The aborted wait is delivered first, and the ping completes on a session that has been
    destroyed. -/
theorem ping_without_session :
    (run (step plainText (.documented fun _ => none) true)
        (openedAt plainText 0 [] "tickers.BTCUSDT")
        (connected ++ pingAt 20 ++
          [(second 21, .session .readFailed), (second 21, .session .pingAborted)])).map
      (fun s => (s.pinging, s.session.selfReferences)) = some (1, 0) := by
  decide +kernel

def answeredPing : List (Int × PingEvent) :=
  connected ++ pingAt 20 ++ sentAt 21 ++ [(second 22, .pong)]

/-- Three pings that are not answered. -/
def silentServer : List (Int × PingEvent) :=
  pingAt 40 ++ sentAt 41 ++ pingAt 60 ++ sentAt 61 ++ pingAt 80 ++ sentAt 81

/-- The session after the ping that is answered, and after those that are not. -/
def afterAnswer : PingedSession :=
  (run (step plainText (.documented fun _ => none) true) (openedAt plainText 0 [] "tickers.BTCUSDT")
    answeredPing).get (by decide +kernel)

def afterSilence : PingedSession :=
  (run (step plainText (.documented fun _ => none) true) afterAnswer silentServer).get
    (by decide +kernel)

theorem silence_is_reported_silentServer :
    Along (step plainText (.documented fun _ => none) true) NoWarning
      (openedAt plainText 0 [] "tickers.BTCUSDT") answeredPing ∧
    afterSilence.pingExpired = true := by
  have hanswer : run (step plainText (.documented fun _ => none) true)
      (openedAt plainText 0 [] "tickers.BTCUSDT") answeredPing = some afterAnswer :=
    (Option.some_get _).symm
  have hsilence : run (step plainText (.documented fun _ => none) true) afterAnswer silentServer =
      some afterSilence := (Option.some_get _).symm
  obtain ⟨hanswered, hsilent⟩ :=
    silence_is_reported (le_refl 0) [] "tickers.BTCUSDT" hanswer hsilence
  exact ⟨hanswered (by decide +kernel),
    hsilent (by decide +kernel) (by decide +kernel) (by decide +kernel)⟩

end PingedSession

end BybitApi
