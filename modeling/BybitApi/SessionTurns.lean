import BybitApi.SessionClosing

/-!
# Turns

A session sends at most one request at a time: the first when the handshake is complete, and
one more after every message that it reads.  So a request waits for as many turns as there are
requests before it, and no others: whatever is subscribed meanwhile, after `n` turns the first
`n` requests of the queue have been written, in their order
(`pending_sent_in_turn`).  A session that reads nothing sends nothing.
-/

namespace BybitApi

open Machine

namespace Session

/-- The events that give a pending request its turn: the handshake is complete, or a text has
    been read. -/
def isTurn : SessionEvent → Bool
  | .handshaked failed => !failed
  | .received _ _ => true
  | _ => false

/-- The turns of a run. -/
def turns (events : List SessionEvent) : Nat := events.countP isTurn

/-- A turn that `onRead` has not come to yet. -/
def owedTurns (s : Session) : Nat := if s.handler = .dispatched then 1 else 0

variable (text : JsonText) (common : VkCommon) (logger : Bool)

/-- Dealing with a text ends without an exception. -/
def GoesOn (s : Session) : SessionEvent → Prop
  | .received message callback =>
      ∃ subscriptions, processMessage text common logger message callback s.subscriptions =
        .ok () subscriptions
  | _ => True

variable {text} {common : VkCommon} {logger : Bool}

theorem owedTurns_of_idle {s : Session} (h : s.handler = .idle) : s.owedTurns = 0 := by
  rw [owedTurns, h]
  rfl

theorem dispatched_of_goesOn {s s' : Session} {message : String} {callback : Except Fault Unit}
    (hgood : s.GoesOn text common logger (.received message callback))
    (hnext : s.next text common logger (.received message callback) = some s') :
    s'.handler = .dispatched ∧ s'.texts = s.texts := by
  obtain ⟨subscriptions, hprocess⟩ := hgood
  have hreceived : onReceived text common logger message callback
      { s with reading := s.reading - 1 } = some s' := hnext
  simp only [onReceived, hprocess, Option.some.injEq] at hreceived
  rw [← hreceived]
  exact ⟨rfl, rfl⟩

/-- **One step.**  It takes a request off the queue and writes it, or leaves what is
    pending and, where it was due, its turn; without a request a turn may pass. -/
theorem turn_of_step (htext : text.Faithful) {s s' : Session} {event : SessionEvent}
    (hs : s.Sending text) (hgood : s.GoesOn text common logger event)
    (hstep : s.step text common logger event = some s') :
    (∃ request, s.subscriptions.subscriptionRequests =
        request :: s'.subscriptions.subscriptionRequests ∧
      s'.texts = s.texts ++ [request] ∧
      s.owedTurns + turns [event] = s'.owedTurns + 1) ∨
    s'.texts = s.texts ∧
      (s.subscriptions.subscriptionRequests = [] ∧
          s'.owedTurns ≤ s.owedTurns + turns [event] ∨
        s.subscriptions.subscriptionRequests <+: s'.subscriptions.subscriptionRequests ∧
          s.owedTurns + turns [event] = s'.owedTurns) := by
  obtain ⟨hen, hnext⟩ := (step_eq_some text common logger).mp hstep
  cases outcome_of_step htext hs hstep with
  | elsewhere helsewhere huntouched =>
      refine .inr ⟨huntouched.texts_eq, .inr ⟨?_, ?_⟩⟩
      · rw [huntouched.subscriptions_eq]
      · have hnone : turns [event] = 0 := by
          cases event with
          | handshaked failed =>
              cases failed with
              | true => rfl
              | false => exact helsewhere.elim
          | received _ _ => exact helsewhere.elim
          | _ => rfl
        rw [owedTurns, owedTurns, huntouched.handler_eq, hnone]
        rfl
  | subscribed f =>
      refine .inr ⟨rfl, .inr ⟨?_, rfl⟩⟩
      unfold writeSubscription
      split
      · exact List.prefix_rfl
      · exact List.prefix_append _ _
  | closed => exact .inr ⟨rfl, .inr ⟨List.prefix_rfl, rfl⟩⟩
  | connected hidle hconnect hrequests =>
      refine .inl ⟨_, hrequests, rfl, ?_⟩
      rw [owedTurns_of_idle hidle]
      simp [owedTurns, asyncWrite, hidle, turns, isTurn]
  | dispatched hidle hreading hrequests =>
      refine .inr ⟨rfl, .inr ⟨?_, ?_⟩⟩
      · exact hrequests.symm ▸ List.prefix_rfl
      · rw [owedTurns_of_idle hidle]
        rfl
  | notJson hidle =>
      have hhandler := (dispatched_of_goesOn hgood hnext).1
      exact absurd (hidle.symm.trans hhandler) (by simp)
  | escaped hidle =>
      have hhandler := (dispatched_of_goesOn hgood hnext).1
      exact absurd (hidle.symm.trans hhandler) (by simp)
  | sent hhandler hrequests =>
      refine .inl ⟨_, hrequests, rfl, ?_⟩
      rw [owedTurns, hhandler]
      rfl
  | nothingToSend hhandler hrequests => exact .inr ⟨rfl, .inl ⟨hrequests, Nat.zero_le _⟩⟩
  | readsOn hhandler =>
      refine .inr ⟨rfl, .inr ⟨List.prefix_rfl, ?_⟩⟩
      rw [owedTurns, hhandler]
      rfl
  | quits hhandler =>
      refine .inr ⟨rfl, .inr ⟨List.prefix_rfl, ?_⟩⟩
      rw [owedTurns, hhandler]
      rfl
  | quitFails hhandler =>
      refine .inr ⟨rfl, .inr ⟨List.prefix_rfl, ?_⟩⟩
      rw [owedTurns, hhandler]
      rfl

theorem turns_cons (event : SessionEvent) (events : List SessionEvent) :
    turns (event :: events) = turns [event] + turns events := by
  unfold turns
  rw [← List.countP_append, List.singleton_append]

/-- The requests at the head of the queue, as many as there have been turns, are written,
    and no more frames than turns. -/
theorem sent_of_run (htext : text.Faithful) {s final : Session} {events : List SessionEvent}
    (hs : s.Sending text)
    (hgood : Along (step text common logger) (GoesOn text common logger) s events)
    (hrun : run (step text common logger) s events = some final)
    (hidle : final.handler = .idle) :
    s.texts ++ s.subscriptions.subscriptionRequests.take (s.owedTurns + turns events) <+:
        final.texts ∧
      final.texts.length ≤ s.texts.length + (s.owedTurns + turns events) := by
  induction events generalizing s with
  | nil =>
      simp only [run, Option.some.injEq] at hrun
      subst hrun
      simp [owedTurns_of_idle hidle, turns]
  | cons event events ih =>
      obtain ⟨next, hnext, hrest⟩ := run_cons_eq_some.mp hrun
      obtain ⟨hgoes, hlater⟩ := hgood
      obtain ⟨hwritten, hlength⟩ := ih (sending_step htext hs hnext) (hlater next hnext) hrest
      rw [turns_cons, ← Nat.add_assoc]
      rcases turn_of_step htext hs hgoes hnext with ⟨request, hrequests, htexts, hturns⟩ |
        ⟨htexts, ⟨hnone, hturns⟩ | ⟨hqueue, hturns⟩⟩
      · rw [htexts] at hwritten hlength
        rw [List.length_append, List.length_singleton] at hlength
        constructor
        · rw [hrequests, hturns, Nat.add_right_comm, List.take_succ_cons]
          simpa using hwritten
        · omega
      · rw [htexts] at hwritten hlength
        constructor
        · rw [hnone, List.take_nil, List.append_nil]
          exact (List.prefix_append _ _).trans hwritten
        · omega
      · rw [htexts] at hwritten hlength
        rw [hturns]
        refine ⟨List.IsPrefix.trans ?_ hwritten, hlength⟩
        exact (List.prefix_append_right_inj _).mpr (hqueue.take _)

/-- **Pending requests are sent in turn.**  The library takes the texts when the writes are
    started.  From any state of a session that is in no handler, through any run in which no
    text makes `onRead` throw, to any state that is in no handler: as many requests as the run
    has turns, or all that were pending, have been written first, in the order of the queue;
    and there are no more frames than turns. -/
theorem pending_sent_in_turn (htext : text.Faithful) {frame : WrittenText → String}
    (hframe : TakesAtInitiation frame) (left : Nat → String) (earlier : List String)
    (subscriptionFilter : String) {before events : List SessionEvent} {s final : Session}
    (hbefore : run (step text common logger) (openedAfter text earlier subscriptionFilter) before =
      some s) (hidle : s.handler = .idle)
    (hgood : Along (step text common logger) (GoesOn text common logger) s events)
    (hrun : run (step text common logger) s events = some final)
    (hfinal : final.handler = .idle) :
    s.wire frame left ++ s.subscriptions.subscriptionRequests.take (turns events) <+:
        final.wire frame left ∧
      (final.wire frame left).length ≤ (s.wire frame left).length + turns events := by
  rw [wire_eq hframe, wire_eq hframe]
  have hs : s.Sending text :=
    invariant_of_run (fun _ _ _ hs _ hstep => sending_step htext hs hstep)
      (sending_openedAfter earlier subscriptionFilter) (along_true _ before) hbefore
  have hsent := sent_of_run htext hs hgood hrun hfinal
  rwa [owedTurns_of_idle hidle, Nat.zero_add] at hsent

/-- Two requests wait for the handshake. -/
def beforeHandshake : List SessionEvent :=
  [.resolved false, .connected false false, .subscribe "tickers.ABC", .sslHandshaked false]

/-- The first is sent, and rejected by the server. -/
def firstRejected : List SessionEvent :=
  [.handshaked false, .subscribe "tickers.DEF", .written false,
    .received (String.ofList rejectionText) (.ok ()), .sendNext]

/-- The session before the handshake is complete. -/
def waiting : Session :=
  { subscriptions :=
      { subscriptions := []
        subscriptionRequests :=
          ["tickers.XYZ", "tickers.ABC"].map (subscriptionRequest replyText) }
    resolving := 0, connecting := 0, sslHandshaking := 0, handshaking := 1
    writing := 0, reading := 0, closing := 0
    timer := { waiting := 0, expired := 0, aborted := 0 }
    handler := .idle
    texts := [] }

theorem run_beforeHandshake :
    run (step replyText (.documented fun _ => none) true)
      (openedAfter replyText [] "tickers.XYZ") beforeHandshake = some waiting := by
  decide +kernel

theorem processMessage_rejection (callback : Except Fault Unit) (s : Subscriptions) :
    ∃ subscriptions, processMessage replyText (.documented fun _ => none) true
      (String.ofList rejectionText) callback s = .ok () subscriptions := by
  have hparse : replyText.parse (String.ofList rejectionText) = .ok rejection := by
    simp [replyText]
  unfold processMessage
  rw [hparse]
  exact ⟨_, rfl⟩

theorem firstRejected_goesOn (s : Session) :
    Along (step replyText (.documented fun _ => none) true)
      (GoesOn replyText (.documented fun _ => none) true) s firstRejected := by
  refine ⟨trivial, fun _ _ => ⟨trivial, fun _ _ => ⟨trivial, fun _ _ => ⟨?_, fun _ _ => ?_⟩⟩⟩⟩
  · exact processMessage_rejection _ _
  · exact ⟨trivial, fun _ _ => trivial⟩

theorem pending_sent_in_turn_rejected :
    ∃ final, run (step replyText (.documented fun _ => none) true) waiting firstRejected =
        some final ∧
      ["tickers.XYZ", "tickers.ABC"].map (subscriptionRequest replyText) <+:
        final.wire WrittenText.initial fun _ => "" := by
  have hidle : (run (step replyText (.documented fun _ => none) true) waiting firstRejected).map
      Session.handler = some .idle := by
    decide +kernel
  obtain ⟨final, hrun, hfinal⟩ := Option.map_eq_some_iff.mp hidle
  exact ⟨final, hrun, (pending_sent_in_turn replyText_faithful (fun _ => rfl) (fun _ => "") []
    "tickers.XYZ" run_beforeHandshake rfl (firstRejected_goesOn waiting) hrun hfinal).1⟩

end Session

end BybitApi
