import BybitApi.StreamManager

/-!
# The sessions of a client

A client refers to its session by a weak pointer.  `subscribe` looks whether the session is
alive, and makes another if it is not; between the look and the new pointer other threads
have their turn.  A session that is dead stays dead, so the client knows every session that
is alive, and there is at most one, exactly as long as no session is made while one is alive;
calls that do not overlap see to that (`knows_session_iff`).  Two calls that do are enough for
two sessions, of which the client has lost the first (`session_lost`).
-/

namespace BybitApi

open Machine

/-- The events of a session that the io thread brings about. -/
def SessionEvent.ofIoThread : SessionEvent → Bool
  | .subscribe _ | .close => false
  | _ => true

/-- All sessions that a client has made, the one that its weak pointer refers to, and the
    calls of `subscribe` that have found no session and are about to make one. -/
structure ClientSessions (κ : Type) where
  sessions : List Session
  current : Option Nat
  making : κ → Option String

inductive ClientEvent (κ : Type) where
  /-- `subscribe` begins, and ends if there is a session. -/
  | look (thread : κ) (subscriptionFilter : String)
  /-- The rest of a `subscribe` that has found no session. -/
  | make (thread : κ)
  | completed (index : Nat) (event : SessionEvent)

namespace ClientSessions

variable {κ : Type}

def initial : ClientSessions κ := { sessions := [], current := none, making := fun _ => none }

/-- The session that `m_p->session.lock()` gives. -/
def lock (s : ClientSessions κ) : Option (Nat × Session) :=
  match s.current with
  | none => none
  | some index =>
      match s.sessions[index]? with
      | none => none
      | some session => if session.Alive then some (index, session) else none

section Source

variable [DecidableEq κ] (text : JsonText) (common : VkCommon) (logger : Bool)

def step (s : ClientSessions κ) : ClientEvent κ → Option (ClientSessions κ)
  | .look thread subscriptionFilter =>
      match s.making thread with
      | some _ => none
      | none =>
          match s.lock with
          | some (index, session) =>
              some
                { s with
                  sessions := s.sessions.set index
                    { session with
                      subscriptions :=
                        writeSubscription text subscriptionFilter session.subscriptions } }
          | none =>
              some { s with making := Function.update s.making thread (some subscriptionFilter) }
  | .make thread =>
      match s.making thread with
      | none => none
      | some subscriptionFilter =>
          let s := { s with making := Function.update s.making thread none }
          -- `WebSocketSession::run` throws, and the new session is destroyed
          if subscriptionFilter = "" then some { s with current := none }
          else
            some
              { s with
                sessions := s.sessions ++ [Session.opened text subscriptionFilter]
                current := some s.sessions.length }
  | .completed index event =>
      if event.ofIoThread then
        match s.sessions[index]? with
        | none => none
        | some session =>
            (session.step text common logger event).map fun session =>
              { s with sessions := s.sessions.set index session }
      else none

end Source

/-- The client knows every session that is alive. -/
def KnowsSession (s : ClientSessions κ) : Prop :=
  ∀ index session, s.sessions[index]? = some session → session.Alive → s.current = some index

/-- No two sessions are alive. -/
def AtMostOne (s : ClientSessions κ) : Prop :=
  ∀ (i j : Nat) (session session' : Session), s.sessions[i]? = some session →
    s.sessions[j]? = some session' → session.Alive → session'.Alive → i = j

/-- No session is alive. -/
def NoneAlive (s : ClientSessions κ) : Prop := ∀ session ∈ s.sessions, ¬ session.Alive

/-- No session is made while one is alive. -/
def MakesAlone (s : ClientSessions κ) : ClientEvent κ → Prop
  | .make thread => (s.making thread).isSome → s.NoneAlive
  | _ => True

/-- A call of `subscribe` begins when no other is about to make a session. -/
def CallsApart (s : ClientSessions κ) : ClientEvent κ → Prop
  | .look _ _ => ∀ thread, s.making thread = none
  | _ => True

theorem KnowsSession.atMostOne {s : ClientSessions κ} (hs : s.KnowsSession) : s.AtMostOne := by
  intro i j session session' hi hj halive halive'
  have hcurrent := hs i session hi halive
  rw [hs j session' hj halive'] at hcurrent
  exact (Option.some.inj hcurrent).symm

/-! ### Sessions that are dead -/

variable {text : JsonText} {common : VkCommon} {logger : Bool}

/-- **The dead stay dead.**  All that may still come is the completion of a close. -/
theorem not_alive_step {session next : Session} {event : SessionEvent}
    (hdead : ¬ session.Alive) (hevent : event.ofIoThread = true)
    (hstep : session.step text common logger event = some next) : ¬ next.Alive := by
  obtain ⟨hen, hnext⟩ := (Session.step_eq_some text common logger).mp hstep
  obtain ⟨hnone, hidle⟩ := not_or.mp hdead
  have hcounts := Nat.eq_zero_of_not_pos hnone
  rw [not_not] at hidle
  simp only [Session.selfReferences, Session.connectOps, Session.dataOps] at hcounts
  cases event with
  | subscribe _ | close => cases hevent
  | closed failed =>
      obtain rfl := Option.some.inj hnext
      rintro (hpos | hbusy)
      · simp only [Session.onClose, PingTimer.cancel, Session.selfReferences, Session.connectOps,
          Session.dataOps] at hpos
        omega
      · exact hbusy hidle
  | resolved _ | connected _ _ | sslHandshaked _ | handshaked _ | written _ | readFailed
  | received _ _ | pinged _ | pingAborted =>
      have hpos := hen.2
      omega
  | timerExpires =>
      have hpos : 0 < session.timer.waiting := hen
      omega
  | sendNext =>
      rw [Session.Enabled, hidle] at hen
      cases hen
  | checkSubscriptions =>
      rw [Session.Enabled, hidle] at hen
      cases hen

/-! ### What a step keeps -/

theorem lock_eq_some {s : ClientSessions κ} {index : Nat} {session : Session}
    (h : s.lock = some (index, session)) : s.sessions[index]? = some session := by
  unfold lock at h
  cases hcurrent : s.current with
  | none => simp [hcurrent] at h
  | some index' =>
      cases hsession : s.sessions[index']? with
      | none => simp [hcurrent, hsession] at h
      | some session' =>
          simp only [hcurrent, hsession] at h
          split at h
          · cases h
            exact hsession
          · cases h

/-- A look that finds no session is right. -/
theorem KnowsSession.noneAlive {s : ClientSessions κ} (hs : s.KnowsSession)
    (h : s.lock = none) : s.NoneAlive := by
  intro session hsession halive
  obtain ⟨index, hindex⟩ := List.mem_iff_getElem?.mp hsession
  have hcurrent := hs index session hindex halive
  simp [lock, hcurrent, hindex, halive] at h

/-- A session that changes, but does not come to life. -/
theorem KnowsSession.set {s : ClientSessions κ} (hs : s.KnowsSession) {index : Nat}
    {session next : Session} (hindex : s.sessions[index]? = some session)
    (hnext : next.Alive → session.Alive) :
    KnowsSession { s with sessions := s.sessions.set index next } := by
  intro other session' hother halive
  by_cases hsame : index = other
  · subst hsame
    have hlength : index < s.sessions.length := (List.getElem?_eq_some_iff.mp hindex).1
    simp only [List.getElem?_set_self hlength, Option.some.injEq] at hother
    subst hother
    exact hs index session hindex (hnext halive)
  · simp only [List.getElem?_set_ne hsame] at hother
    exact hs other session' hother halive

theorem NoneAlive.set {s : ClientSessions κ} (hs : s.NoneAlive) {next : Session}
    (hnext : ¬ next.Alive) (index : Nat) :
    NoneAlive { s with sessions := s.sessions.set index next } := by
  intro session hsession
  rcases List.mem_or_eq_of_mem_set hsession with hmem | rfl
  · exact hs session hmem
  · exact hnext

variable [DecidableEq κ]

theorem step_completed {s s' : ClientSessions κ} {index : Nat} {event : SessionEvent}
    (hstep : step text common logger s (.completed index event) = some s') :
    ∃ session next, event.ofIoThread = true ∧ s.sessions[index]? = some session ∧
      session.step text common logger event = some next ∧
      s' = { s with sessions := s.sessions.set index next } := by
  simp only [step] at hstep
  split at hstep
  · next hevent =>
      cases hsession : s.sessions[index]? with
      | none => simp [hsession] at hstep
      | some session =>
          simp only [hsession] at hstep
          obtain ⟨next, hnext, rfl⟩ := Option.map_eq_some_iff.mp hstep
          exact ⟨session, next, hevent, rfl, hnext, rfl⟩
  · cases hstep

/-- A session is made: the client knows the new one, and no other. -/
theorem knows_make_iff {s s' : ClientSessions κ} {thread : κ}
    (hstep : step text common logger s (.make thread) = some s') :
    s'.KnowsSession ↔ s.NoneAlive := by
  simp only [step] at hstep
  cases hmaking : s.making thread with
  | none => simp [hmaking] at hstep
  | some subscriptionFilter =>
      simp only [hmaking] at hstep
      by_cases hfilter : subscriptionFilter = ""
      · rw [if_pos hfilter] at hstep
        cases hstep
        constructor
        · intro hknows session hsession halive
          obtain ⟨index, hindex⟩ := List.mem_iff_getElem?.mp hsession
          cases hknows index session hindex halive
        · intro hnone index session hindex halive
          exact absurd halive (hnone session (List.mem_of_getElem? hindex))
      · rw [if_neg hfilter] at hstep
        cases hstep
        constructor
        · intro hknows session hsession halive
          obtain ⟨index, hindex⟩ := List.mem_iff_getElem?.mp hsession
          have hlength : index < s.sessions.length := (List.getElem?_eq_some_iff.mp hindex).1
          have hlast : s.sessions.length = index := Option.some.inj
            (hknows index session ((List.getElem?_append_left hlength).trans hindex) halive)
          omega
        · intro hnone index session hindex halive
          rcases Nat.lt_or_ge index s.sessions.length with hlength | hlength
          · simp only [List.getElem?_append_left hlength] at hindex
            exact absurd halive (hnone session (List.mem_of_getElem? hindex))
          · have hbound : index < s.sessions.length + 1 := by
              simpa using (List.getElem?_eq_some_iff.mp hindex).1
            exact congrArg some (by omega)

theorem knows_step_iff {s s' : ClientSessions κ} (hs : s.KnowsSession) {event : ClientEvent κ}
    (hstep : step text common logger s event = some s') :
    s'.KnowsSession ↔ s.MakesAlone event := by
  cases event with
  | make thread =>
      have hmaking : (s.making thread).isSome := by
        cases hmaking : s.making thread with
        | none => simp [step, hmaking] at hstep
        | some _ => rfl
      rw [knows_make_iff hstep]
      exact ⟨fun hnone _ => hnone, fun hnone => hnone hmaking⟩
  | look thread subscriptionFilter =>
      refine iff_of_true ?_ trivial
      simp only [step] at hstep
      cases hmaking : s.making thread with
      | some _ => simp [hmaking] at hstep
      | none =>
          simp only [hmaking] at hstep
          cases hlock : s.lock with
          | none =>
              simp only [hlock, Option.some.injEq] at hstep
              subst hstep
              exact hs
          | some found =>
              rcases found with ⟨index, session⟩
              simp only [hlock, Option.some.injEq] at hstep
              subst hstep
              exact hs.set (lock_eq_some hlock) id
  | completed index event =>
      refine iff_of_true ?_ trivial
      obtain ⟨session, next, hevent, hindex, hnext, rfl⟩ := step_completed hstep
      apply hs.set hindex
      intro halive
      by_contra hdead
      exact not_alive_step hdead hevent hnext halive

/-- While a call is about to make a session none is alive, and no other call is. -/
structure Apart (s : ClientSessions κ) : Prop where
  knows : s.KnowsSession
  none : ∀ thread filter, s.making thread = some filter → s.NoneAlive
  only : ∀ thread other filter filter', s.making thread = some filter →
    s.making other = some filter' → thread = other

theorem apart_step (s : ClientSessions κ) (event : ClientEvent κ) (s' : ClientSessions κ)
    (hs : s.Apart) (hapart : s.CallsApart event)
    (hstep : step text common logger s event = some s') : s'.Apart := by
  cases event with
  | look thread subscriptionFilter =>
      have hknows := (knows_step_iff hs.knows hstep).mpr trivial
      simp only [step, hapart thread] at hstep
      cases hlock : s.lock with
      | none =>
          simp only [hlock, Option.some.injEq] at hstep
          subst hstep
          have honly : ∀ other filter, Function.update s.making thread (some subscriptionFilter)
              other = some filter → other = thread := by
            intro other filter hother
            by_contra hne
            rw [Function.update_of_ne hne, hapart other] at hother
            cases hother
          refine ⟨hknows, fun _ _ _ => hs.knows.noneAlive hlock, ?_⟩
          intro other other' filter filter' hother hother'
          rw [honly other filter hother, honly other' filter' hother']
      | some found =>
          rcases found with ⟨index, session⟩
          simp only [hlock, Option.some.injEq] at hstep
          subst hstep
          refine ⟨hknows, ?_, hs.only⟩
          intro other filter hother
          rw [hapart other] at hother
          cases hother
  | make thread =>
      obtain ⟨subscriptionFilter, hmaking⟩ : ∃ filter, s.making thread = some filter := by
        cases hmaking : s.making thread with
        | none => simp [step, hmaking] at hstep
        | some filter => exact ⟨filter, rfl⟩
      have hknows := (knows_make_iff hstep).mpr (hs.none thread _ hmaking)
      have hdone : s'.making = Function.update s.making thread none := by
        simp only [step, hmaking] at hstep
        split at hstep
        · cases hstep
          rfl
        · cases hstep
          rfl
      have hrest : ∀ other filter, s'.making other ≠ some filter := by
        intro other filter hother
        rw [hdone] at hother
        by_cases hsame : other = thread
        · rw [hsame, Function.update_self] at hother
          cases hother
        · rw [Function.update_of_ne hsame] at hother
          exact hsame (hs.only other thread _ _ hother hmaking)
      exact ⟨hknows, fun other filter h => absurd h (hrest other filter),
        fun other _ filter _ h => absurd h (hrest other filter)⟩
  | completed index event =>
      have hknows := (knows_step_iff hs.knows hstep).mpr trivial
      obtain ⟨session, next, hevent, hindex, hnext, rfl⟩ := step_completed hstep
      refine ⟨hknows, ?_, hs.only⟩
      intro thread filter hmaking
      have hnone := hs.none thread filter hmaking
      exact hnone.set (not_alive_step (hnone session (List.mem_of_getElem? hindex)) hevent hnext)
        index

/-- **Exactly when the client knows its session.**  In every run of subscribing threads and
    of the io thread the client refers to whatever session is alive if and only if no session
    is made while one is alive, and there is at most one then; and it is so if the calls that
    find no session do not overlap with others. -/
theorem knows_session_iff {events : List (ClientEvent κ)} {final : ClientSessions κ}
    (hrun : run (step text common logger) initial events = some final) :
    (Throughout (step text common logger) KnowsSession initial events ↔
        Along (step text common logger) MakesAlone initial events) ∧
      (Throughout (step text common logger) KnowsSession initial events →
        Throughout (step text common logger) AtMostOne initial events) ∧
      (Along (step text common logger) CallsApart initial events →
        Along (step text common logger) MakesAlone initial events) := by
  have hstart : (initial : ClientSessions κ).KnowsSession := by
    intro index session hindex
    simp [initial] at hindex
  refine ⟨?_, Throughout.mono fun _ hs => hs.atMostOne, ?_⟩
  · have hexact : ∀ (s : ClientSessions κ) event next, True → s.KnowsSession →
        step text common logger s event = some next →
          True ∧ (next.KnowsSession ↔ s.MakesAlone event) :=
      fun _ _ _ _ hs hstep => ⟨trivial, knows_step_iff hs hstep⟩
    exact throughout_iff_along hexact trivial hstart hrun
  · intro hapart
    have hinitial : (initial : ClientSessions κ).Apart :=
      ⟨hstart, by simp [initial], by simp [initial]⟩
    apply Along.of_invariant apart_step _ hinitial hapart
    intro s event hs _
    cases event with
    | make thread =>
        intro hmaking
        obtain ⟨filter, hfilter⟩ := Option.isSome_iff_exists.mp hmaking
        exact hs.none thread filter hfilter
    | look _ _ => trivial
    | completed _ _ => trivial

/-- One call after the other. -/
def apart : List (ClientEvent Bool) :=
  [.look true "tickers.BTCUSDT", .make true, .completed 0 (.resolved false),
    .look false "tickers.ETHUSDT"]

theorem apart_callsApart :
    Along (step plainText (.documented fun _ => none) true) CallsApart initial apart := by
  refine ⟨fun _ => rfl, ?_⟩
  rintro _ ⟨⟩
  refine ⟨trivial, ?_⟩
  rintro _ ⟨⟩
  refine ⟨trivial, ?_⟩
  rintro _ ⟨⟩
  refine ⟨fun thread => ?_, fun _ _ => trivial⟩
  cases thread <;> rfl

theorem knows_session_iff_apart :
    Throughout (step plainText (.documented fun _ => none) true) KnowsSession initial apart ∧
      Throughout (step plainText (.documented fun _ => none) true) AtMostOne initial apart := by
  have hrun : ∃ final, run (step plainText (.documented fun _ => none) true) initial apart =
      some final := ⟨_, rfl⟩
  obtain ⟨final, hrun⟩ := hrun
  obtain ⟨hiff, hone, hapart⟩ := knows_session_iff hrun
  have hknows := hiff.mpr (hapart apart_callsApart)
  exact ⟨hknows, hone hknows⟩

/-- Two calls look before either makes a session: both sessions connect, and the client
    knows the second. -/
theorem session_lost :
    (run (step plainText (.documented fun _ => none) true) initial
        ([.look true "tickers.BTCUSDT", .look false "tickers.ETHUSDT", .make true, .make false] :
          List (ClientEvent Bool))).map
      (fun s => (s.sessions.map fun session => decide session.Alive, s.current)) =
        some ([true, true], some 1) := by
  decide +kernel

end ClientSessions

end BybitApi
