import BybitApi.Instruments
import BybitApi.Machine
import Mathlib.Data.Fintype.Basic

/-!
# Reloads that interleave

`getInstrumentsInfo` holds `m_locker` three times, for one access each: to look whether
the table is empty, to store the download, and to read the table back for its caller.
In between other threads have their turn, and what is read back is the table of
whoever stored last.  A forced call answers with its own download as long as nobody
stores another table between its store and its read-back (`answers_own_iff`); two
threads that reload different categories are enough to be answered with each other's
(`reload_answers_others`).
-/

namespace BybitApi

open Machine

/-- Where a thread stands in `getInstrumentsInfo`, between two critical sections.
    `pages` are the pages that the call itself has downloaded. -/
inductive ReloadPoint where
  /-- Not in `getInstrumentsInfo`. -/
  | idle
  | checking (category : Category) (symbol : String) (force : Bool)
  | downloading (category : Category) (symbol : String) (force : Bool)
      (download : InstrumentsDownload) (pages : List Instruments)
  | storing (force : Bool) (temp : List Instrument) (pages : List Instruments)
  | readingBack (force : Bool) (pages : List Instruments)
deriving DecidableEq, Repr

/-- A call that has returned. -/
structure AnsweredCall where
  force : Bool
  pages : List Instruments
  returned : List Instrument
deriving DecidableEq, Repr

/-- A client, the threads that use it, and the calls that have returned. -/
structure ReloadState (κ : Type) where
  client : RestClient
  threads : κ → ReloadPoint
  answered : List AnsweredCall

inductive ReloadEvent (κ : Type) where
  | call (thread : κ) (category : Category) (symbol : String) (force : Bool)
  | check (thread : κ)
  /-- A request of the download loop is answered, or throws. -/
  | reply (thread : κ) (reply : Except ApiError Instruments)
  | store (thread : κ)
  | readBack (thread : κ)

/-- The instruments of all pages, in order. -/
def joinedPages (pages : List Instruments) : List Instrument :=
  pages.flatMap Instruments.instruments

theorem joinedPages_concat (pages : List Instruments) (page : Instruments) :
    joinedPages (pages ++ [page]) = joinedPages pages ++ page.instruments := by
  simp [joinedPages]

/-- The pages of a call after one more reply. -/
def pagesAfter (pages : List Instruments) : Except ApiError Instruments → List Instruments
  | .ok page => pages ++ [page]
  | .error _ => pages

/-- Where a download stands after a reply: an exception leaves the call. -/
def ReloadPoint.afterReply (category : Category) (symbol : String) (force : Bool)
    (pages : List Instruments) :
    Loop.Pass InstrumentsDownload (Except ApiError InstrumentsDownload) → ReloadPoint
  | .again download => .downloading category symbol force download pages
  | .exit (.ok download) => .storing force download.temp pages
  | .exit (.error _) => .idle

namespace ReloadState

variable {κ : Type} [DecidableEq κ]

/-- A client with a table, when no thread uses it. -/
def initial (instruments : List Instrument) : ReloadState κ :=
  { client := { instruments := instruments }, threads := fun _ => .idle, answered := [] }

def moveThread (s : ReloadState κ) (t : κ) (point : ReloadPoint) : ReloadState κ :=
  { s with threads := Function.update s.threads t point }

/-- One critical section, or one request of a download. -/
def step (s : ReloadState κ) : ReloadEvent κ → Option (ReloadState κ)
  | .call t category symbol force =>
      match s.threads t with
      | .idle => some (s.moveThread t (.checking category symbol force))
      | _ => none
  | .check t =>
      match s.threads t with
      | .checking category symbol force =>
          if s.client.instruments.isEmpty || force then
            some (s.moveThread t
              (.downloading category symbol force { cursor := "", temp := [], sent := [] } []))
          else some (s.moveThread t (.readingBack force []))
      | _ => none
  | .reply t reply =>
      match s.threads t with
      | .downloading category symbol force download pages =>
          some (s.moveThread t (.afterReply category symbol force (pagesAfter pages reply)
            (instrumentsPass (fun _ _ => reply) category symbol download)))
      | _ => none
  | .store t =>
      match s.threads t with
      | .storing force temp pages =>
          some { s.moveThread t (.readingBack force pages) with client := { instruments := temp } }
      | _ => none
  | .readBack t =>
      match s.threads t with
      | .readingBack force pages =>
          some { s.moveThread t .idle with
                 answered := s.answered ++ [{ force, pages, returned := s.client.instruments }] }
      | _ => none

@[simp] theorem moveThread_client (s : ReloadState κ) (t : κ) (point : ReloadPoint) :
    (s.moveThread t point).client = s.client := rfl

@[simp] theorem moveThread_answered (s : ReloadState κ) (t : κ) (point : ReloadPoint) :
    (s.moveThread t point).answered = s.answered := rfl

@[simp] theorem moveThread_threads_self (s : ReloadState κ) (t : κ) (point : ReloadPoint) :
    (s.moveThread t point).threads t = point := by
  simp [moveThread]

theorem moveThread_threads_of_ne (s : ReloadState κ) {t t' : κ} (point : ReloadPoint)
    (h : t' ≠ t) : (s.moveThread t point).threads t' = s.threads t' := by
  simp [moveThread, h]

/-- What a step can do: a thread moves on, stores its download, or reads the table back. -/
inductive Moves (s : ReloadState κ) : ReloadEvent κ → ReloadState κ → Prop where
  | call {t category symbol force} (hthread : s.threads t = .idle) :
      Moves s (.call t category symbol force)
        (s.moveThread t (.checking category symbol force))
  | load {t category symbol force} (hthread : s.threads t = .checking category symbol force)
      (hload : s.client.instruments = [] ∨ force = true) :
      Moves s (.check t) (s.moveThread t
        (.downloading category symbol force { cursor := "", temp := [], sent := [] } []))
  | hit {t category symbol} (hthread : s.threads t = .checking category symbol false)
      (hkept : s.client.instruments ≠ []) :
      Moves s (.check t) (s.moveThread t (.readingBack false []))
  | reply {t reply category symbol force download pages}
      (hthread : s.threads t = .downloading category symbol force download pages) :
      Moves s (.reply t reply) (s.moveThread t
        (.afterReply category symbol force (pagesAfter pages reply)
          (instrumentsPass (fun _ _ => reply) category symbol download)))
  | store {t force temp pages} (hthread : s.threads t = .storing force temp pages) :
      Moves s (.store t)
        { s.moveThread t (.readingBack force pages) with client := { instruments := temp } }
  | readBack {t force pages} (hthread : s.threads t = .readingBack force pages) :
      Moves s (.readBack t)
        { s.moveThread t .idle with
          answered := s.answered ++ [{ force, pages, returned := s.client.instruments }] }

theorem Moves.of_step {s s' : ReloadState κ} {event : ReloadEvent κ}
    (h : s.step event = some s') : Moves s event s' := by
  cases event with
  | call t category symbol force =>
      simp only [step] at h
      split at h <;> cases h
      exact .call ‹_›
  | check t =>
      simp only [step] at h
      split at h
      · rename_i category symbol force hthread
        split at h <;> cases h
        · rename_i hload
          exact .load hthread (by simpa using hload)
        · rename_i hload
          obtain ⟨hkept, rfl⟩ : s.client.instruments ≠ [] ∧ force = false := by
            simpa using hload
          exact .hit hthread hkept
      · cases h
  | reply t reply =>
      simp only [step] at h
      split at h <;> cases h
      exact .reply ‹_›
  | store t =>
      simp only [step] at h
      split at h <;> cases h
      exact .store ‹_›
  | readBack t =>
      simp only [step] at h
      split at h <;> cases h
      exact .readBack ‹_›

theorem step_readBack {s : ReloadState κ} {t : κ} {force : Bool} {pages : List Instruments}
    (h : s.threads t = .readingBack force pages) :
    s.step (.readBack t) = some
      { s.moveThread t .idle with
        answered := s.answered ++ [{ force, pages, returned := s.client.instruments }] } := by
  simp only [step, h]

/-! ### Answers -/

/-- Every forced call that has returned has returned what it downloaded itself. -/
def ReturnsOwn (s : ReloadState κ) : Prop :=
  ∀ call ∈ s.answered, call.force = true → call.returned = joinedPages call.pages

/-- Forced calls return what they downloaded themselves: those that have returned, and
    whichever is the next to do so. -/
structure AnswersOwn (s : ReloadState κ) : Prop where
  returned : ReturnsOwn s
  next : ∀ t s', s.step (.readBack t) = some s' → ReturnsOwn s'

/-- What a thread has collected is what its pages contain. -/
def Collected : ReloadPoint → Prop
  | .downloading _ _ _ download pages => download.temp = joinedPages pages
  | .storing _ temp pages => temp = joinedPages pages
  | .idle | .checking .. | .readingBack .. => True

/-- A forced call that waits to read back has downloaded just this table. -/
def Backed (instruments : List Instrument) : ReloadPoint → Prop
  | .readingBack true pages => instruments = joinedPages pages
  | _ => True

instance (instruments : List Instrument) : DecidablePred (Backed instruments)
  | .readingBack true pages => inferInstanceAs (Decidable (instruments = joinedPages pages))
  | .readingBack false _ | .idle | .checking .. | .downloading .. | .storing .. => .isTrue trivial

/-- The table that a thread at this point stores. -/
def tableToStore : ReloadPoint → List Instrument
  | .storing _ temp _ => temp
  | .idle | .checking .. | .downloading .. | .readingBack .. => []

/-- The step overtakes nobody: a thread stores a table only when every other forced
    call that waits to read back has downloaded the same. -/
def OvertakesNobody (s : ReloadState κ) : ReloadEvent κ → Prop
  | .store t => ∀ t', t' ≠ t → Backed (tableToStore (s.threads t)) (s.threads t')
  | .call .. | .check _ | .reply .. | .readBack _ => True

instance [Fintype κ] (s : ReloadState κ) : DecidablePred (OvertakesNobody s)
  | .store t =>
      inferInstanceAs (Decidable (∀ t', t' ≠ t →
        Backed (tableToStore (s.threads t)) (s.threads t')))
  | .call .. | .check _ | .reply .. | .readBack _ => .isTrue trivial

theorem answersOwn_iff {s : ReloadState κ} :
    AnswersOwn s ↔ ReturnsOwn s ∧ ∀ t, Backed s.client.instruments (s.threads t) := by
  constructor
  · rintro ⟨hreturned, hnext⟩
    refine ⟨hreturned, ?_⟩
    intro t
    cases hthread : s.threads t with
    | readingBack force pages =>
        cases force with
        | false => trivial
        | true =>
            apply hnext t _ (step_readBack hthread)
              { force := true, pages, returned := s.client.instruments }
            · simp
            · rfl
    | idle | checking | downloading | storing => trivial
  · rintro ⟨hreturned, hbacked⟩
    refine ⟨hreturned, ?_⟩
    intro t s' hstep
    cases Moves.of_step hstep with
    | readBack hthread =>
        intro call hcall hforce
        rcases List.mem_append.mp hcall with hcall | hcall
        · exact hreturned call hcall hforce
        · obtain rfl := List.mem_singleton.mp hcall
          have hback := hbacked t
          simp only at hforce
          subst hforce
          rw [hthread] at hback
          exact hback

/-- The reply that the loop gets moves a call on in step with its pages. -/
theorem collected_afterReply {category : Category} {symbol : String} {force : Bool}
    {download : InstrumentsDownload} {pages : List Instruments}
    (h : download.temp = joinedPages pages) (reply : Except ApiError Instruments) :
    Collected (.afterReply category symbol force (pagesAfter pages reply)
      (instrumentsPass (fun _ _ => reply) category symbol download)) := by
  cases reply with
  | error e => trivial
  | ok page =>
      simp only [instrumentsPass, pagesAfter]
      split <;> simp [ReloadPoint.afterReply, Collected, joinedPages_concat, h]

/-- A download stores before it reads back. -/
theorem backed_afterReply (instruments : List Instrument) (category : Category) (symbol : String)
    (force : Bool) (pages : List Instruments)
    (pass : Loop.Pass InstrumentsDownload (Except ApiError InstrumentsDownload)) :
    Backed instruments (.afterReply category symbol force pages pass) := by
  rcases pass with download | (e | download) <;> trivial

/-- Only the thread that moves needs to be looked at. -/
theorem forall_moveThread {P : ReloadPoint → Prop} {s : ReloadState κ} {t : κ}
    {point : ReloadPoint} (h : ∀ t', P (s.threads t')) (hpoint : P point) :
    ∀ t', P ((s.moveThread t point).threads t') := by
  intro t'
  by_cases heq : t' = t
  · subst heq
    rwa [moveThread_threads_self]
  · rw [moveThread_threads_of_ne s point heq]
    exact h t'

theorem collected_step {s s' : ReloadState κ} {event : ReloadEvent κ}
    (h : ∀ t, Collected (s.threads t)) (hstep : s.step event = some s') :
    ∀ t, Collected (s'.threads t) := by
  cases Moves.of_step hstep with
  | call _ => exact forall_moveThread h trivial
  | load _ _ => exact forall_moveThread h rfl
  | hit _ _ => exact forall_moveThread h trivial
  | @reply t reply category symbol force download pages hthread =>
      have hdownload := h t
      rw [hthread] at hdownload
      exact forall_moveThread h (collected_afterReply hdownload reply)
  | store _ => exact forall_moveThread (s := s) h trivial
  | readBack _ => exact forall_moveThread (s := s) h trivial

/-- A step that stores nothing leaves the forced calls backed. -/
theorem answersOwn_moveThread {s : ReloadState κ} {t : κ} {point : ReloadPoint}
    (h : AnswersOwn s) (hpoint : Backed s.client.instruments point) :
    AnswersOwn (s.moveThread t point) := by
  obtain ⟨hreturned, hbacked⟩ := answersOwn_iff.mp h
  exact answersOwn_iff.mpr ⟨hreturned, forall_moveThread hbacked hpoint⟩

/-- A store keeps the answers right if and only if it overtakes nobody. -/
theorem answersOwn_store {s s' : ReloadState κ} {t : κ} (hcollected : ∀ t, Collected (s.threads t))
    (h : AnswersOwn s) (hstep : s.step (.store t) = some s') :
    AnswersOwn s' ↔ OvertakesNobody s (.store t) := by
  obtain ⟨hreturned, -⟩ := answersOwn_iff.mp h
  cases Moves.of_step hstep with
  | @store _ force temp pages hthread =>
      have hown : temp = joinedPages pages := by
        have hdownload := hcollected t
        rwa [hthread] at hdownload
      have hself : Backed temp (.readingBack force pages) := by
        cases force with
        | true => exact hown
        | false => trivial
      simp only [answersOwn_iff, OvertakesNobody, hthread, tableToStore]
      constructor
      · rintro ⟨-, hbacked⟩ t' hne
        have hback := hbacked t'
        rwa [moveThread_threads_of_ne s _ hne] at hback
      · intro hothers
        refine ⟨hreturned, ?_⟩
        intro t'
        by_cases heq : t' = t
        · subst heq
          rwa [moveThread_threads_self]
        · rw [moveThread_threads_of_ne s _ heq]
          exact hothers t' heq

theorem answersOwn_step {s s' : ReloadState κ} {event : ReloadEvent κ}
    (hcollected : ∀ t, Collected (s.threads t)) (h : AnswersOwn s)
    (hstep : s.step event = some s') : AnswersOwn s' ↔ OvertakesNobody s event := by
  cases event with
  | store t => exact answersOwn_store hcollected h hstep
  | readBack t =>
      refine iff_of_true ?_ trivial
      obtain ⟨-, hbacked⟩ := answersOwn_iff.mp h
      have hreturned := h.next t s' hstep
      cases Moves.of_step hstep with
      | readBack _ =>
          exact answersOwn_iff.mpr ⟨hreturned, forall_moveThread (s := s) hbacked trivial⟩
  | call t category symbol force =>
      refine iff_of_true ?_ trivial
      cases Moves.of_step hstep with
      | call _ => exact answersOwn_moveThread h trivial
  | check t =>
      refine iff_of_true ?_ trivial
      cases Moves.of_step hstep with
      | load _ _ => exact answersOwn_moveThread h trivial
      | hit _ _ => exact answersOwn_moveThread h trivial
  | reply t reply =>
      refine iff_of_true ?_ trivial
      cases Moves.of_step hstep with
      | reply _ => exact answersOwn_moveThread h (backed_afterReply _ _ _ _ _ _)

/-- **Exactly when forced reloads answer with their own downloads.**  In every state of
    a run, the forced calls that have returned have returned what they downloaded, and
    so will the next, if and only if no store of the run overtakes a forced call that
    waits to read back another table. -/
theorem answers_own_iff (instruments : List Instrument) (events : List (ReloadEvent κ))
    (final : ReloadState κ) (hrun : run step (initial instruments) events = some final) :
    Throughout step AnswersOwn (initial instruments) events ↔
      Along step OvertakesNobody (initial instruments) events := by
  have hstart : AnswersOwn (initial (κ := κ) instruments) := by
    refine answersOwn_iff.mpr ⟨?_, fun _ => trivial⟩
    intro call hcall
    simp [initial] at hcall
  have hcollected : ∀ t, Collected ((initial (κ := κ) instruments).threads t) :=
    fun _ => trivial
  have hstep : ∀ (s : ReloadState κ) (event : ReloadEvent κ) (next : ReloadState κ),
      (∀ t, Collected (s.threads t)) → AnswersOwn s → step s event = some next →
        (∀ t, Collected (next.threads t)) ∧ (AnswersOwn next ↔ OvertakesNobody s event) :=
    fun _ _ _ hinv hanswers hnext =>
      ⟨collected_step hinv hnext, answersOwn_step hinv hanswers hnext⟩
  exact throughout_iff_along hstep hcollected hstart hrun

/-! ### A call that is alone -/

theorem moveThread_moveThread (s : ReloadState κ) (t : κ) (point point' : ReloadPoint) :
    (s.moveThread t point).moveThread t point' = s.moveThread t point' := by
  simp [moveThread]

theorem moveThread_eq_self {s : ReloadState κ} {t : κ} {point : ReloadPoint}
    (h : s.threads t = point) : s.moveThread t point = s := by
  simp [moveThread, ← h]

theorem run_cons {s s' : ReloadState κ} {event : ReloadEvent κ} (events : List (ReloadEvent κ))
    (h : s.step event = some s') : run step s (event :: events) = run step s' events := by
  simp only [run, h]

/-- The requests of a download, one after the other. -/
theorem replies_alone {endpoint : Endpoint Instruments} {category : Category} {symbol : String}
    (force : Bool) (t : κ) {fuel : Nat} {download : InstrumentsDownload}
    {result : Except ApiError InstrumentsDownload}
    (h : Loop.run (instrumentsPass endpoint category symbol) fuel download = some result)
    (pages : List Instruments) {s : ReloadState κ}
    (hthread : s.threads t = .downloading category symbol force download pages) :
    ∃ events pages', run step s events =
      some (s.moveThread t (.afterReply category symbol force pages' (.exit result))) := by
  induction fuel generalizing download pages s with
  | zero => simp [Loop.run] at h
  | succ fuel ih =>
      let reply := endpoint download.sent.length
        (instrumentsParameters category symbol download.cursor)
      have hpass : instrumentsPass endpoint category symbol download =
          instrumentsPass (fun _ _ => reply) category symbol download := rfl
      have hstep : s.step (.reply t reply) = some (s.moveThread t
          (.afterReply category symbol force (pagesAfter pages reply)
            (instrumentsPass endpoint category symbol download))) := by
        simp only [step, hthread, hpass]
      cases hbody : instrumentsPass endpoint category symbol download with
      | again next =>
          rw [Loop.run_again hbody] at h
          rw [hbody] at hstep
          obtain ⟨events, pages', hevents⟩ := ih h (pagesAfter pages reply)
            (moveThread_threads_self s t _)
          rw [moveThread_moveThread] at hevents
          exact ⟨.reply t reply :: events, pages', (run_cons events hstep).trans hevents⟩
      | exit result' =>
          rw [Loop.run_exit hbody, Option.some.injEq] at h
          rw [hbody, h] at hstep
          exact ⟨[.reply t reply], pagesAfter pages reply, run_cons [] hstep⟩

/-- The end of a call: the table of the client is read back for its caller. -/
theorem readBack_alone {s s₀ : ReloadState κ} {t : κ} (client : RestClient) (force : Bool)
    (pages : List Instruments) (hidle : s₀.threads t = .idle)
    (hs : s = { s₀.moveThread t (.readingBack force pages) with client := client }) :
    ∃ s', run step s [.readBack t] = some s' ∧ s'.client = client ∧ s'.threads = s₀.threads ∧
      s'.answered.map AnsweredCall.returned =
        s₀.answered.map AnsweredCall.returned ++ [client.instruments] := by
  have hthreads : ((s₀.moveThread t (.readingBack force pages)).moveThread t .idle).threads =
      s₀.threads := by
    rw [moveThread_moveThread, moveThread_eq_self hidle]
  subst hs
  refine ⟨_, run_cons [] (step_readBack (moveThread_threads_self s₀ t _)), rfl, hthreads, ?_⟩
  rw [List.map_append]
  rfl

/-- A call during which no other thread has its turn leaves and answers what
    `getInstrumentsInfo` does. -/
theorem run_alone {endpoint : Endpoint Instruments} {fuel : Nat} {s : ReloadState κ} {t : κ}
    {category : Category} {symbol : String} {force : Bool}
    {result : Except ApiError (List Instrument)} {client : RestClient}
    (hidle : s.threads t = .idle)
    (h : getInstrumentsInfo endpoint fuel s.client category symbol force =
      some (result, client)) :
    ∃ events s', run step s events = some s' ∧ s'.client = client ∧ s'.threads = s.threads ∧
      s'.answered.map AnsweredCall.returned =
        s.answered.map AnsweredCall.returned ++ result.toOption.toList := by
  have hcall : s.step (.call t category symbol force) =
      some (s.moveThread t (.checking category symbol force)) := by
    simp only [step, hidle]
  unfold getInstrumentsInfo at h
  split at h
  · rename_i hload
    have hcheck : (s.moveThread t (.checking category symbol force)).step (.check t) =
        some (s.moveThread t
          (.downloading category symbol force { cursor := "", temp := [], sent := [] } [])) := by
      simp only [step, moveThread_threads_self, moveThread_client, hload, if_true,
        moveThread_moveThread]
    split at h
    · cases h
    · rename_i e hdownload
      cases h
      obtain ⟨events, pages, hevents⟩ := replies_alone force t hdownload []
        (moveThread_threads_self s t _)
      refine ⟨.call t category symbol force :: .check t :: events, s, ?_, rfl, rfl, ?_⟩
      · rw [run_cons _ hcall, run_cons _ hcheck, hevents, moveThread_moveThread]
        exact congrArg some (moveThread_eq_self hidle)
      · exact (List.append_nil _).symm
    · rename_i d hdownload
      cases h
      obtain ⟨events, pages, hevents⟩ := replies_alone force t hdownload []
        (moveThread_threads_self s t _)
      rw [moveThread_moveThread] at hevents
      have hstore : (s.moveThread t (.storing force d.temp pages)).step (.store t) =
          some { s.moveThread t (.readingBack force pages) with
                 client := { instruments := d.temp } } := by
        simp only [step, moveThread_threads_self, moveThread_moveThread]
      obtain ⟨s', hback, hs'⟩ := readBack_alone _ force pages hidle rfl
      refine ⟨.call t category symbol force :: .check t :: (events ++ [.store t, .readBack t]),
        s', ?_, hs'⟩
      rw [run_cons _ hcall, run_cons _ hcheck, run_append _ hevents]
      exact (run_cons _ hstore).trans hback
  · rename_i hkept
    cases h
    have hcheck : (s.moveThread t (.checking category symbol force)).step (.check t) =
        some (s.moveThread t (.readingBack force [])) := by
      simp only [step, moveThread_threads_self, moveThread_client, hkept, Bool.false_eq_true,
        if_false, moveThread_moveThread]
    obtain ⟨s', hback, hs'⟩ := readBack_alone s.client force [] hidle rfl
    refine ⟨[.call t category symbol force, .check t, .readBack t], s', ?_, hs'⟩
    rw [run_cons _ hcall, run_cons _ hcheck]
    exact hback

/-! ### Two threads -/

def oneInstrument (symbol : String) : Instruments :=
  { instruments := [{
      symbol := symbol
      priceFilter := { minPrice := 0, maxPrice := 0, tickSize := 0 }
      lotSizeFilter := { maxOrderQty := 0, minOrderQty := 0, qtyStep := 0,
                         postOnlyMaxTradingQty := 0 } }]
    nextPageCursor := "" }

/-- Two threads reload different categories, and both have stored before the first of
    them reads back. -/
def twoReloads : List (ReloadEvent Bool) :=
  [.call true .linear "" true, .check true, .reply true (.ok (oneInstrument "BTCUSDT")),
   .call false .option "" true, .check false, .reply false (.ok (oneInstrument "BTC-CALL")),
   .store true, .store false, .readBack true, .readBack false]

/-- One thread reloads after the other. -/
def reloadsInTurn : List (ReloadEvent Bool) :=
  [.call true .linear "" true, .check true, .reply true (.ok (oneInstrument "BTCUSDT")),
   .store true, .readBack true,
   .call false .option "" true, .check false, .reply false (.ok (oneInstrument "BTC-CALL")),
   .store false, .readBack false]

theorem answers_own_iff_inTurn :
    ∃ final, run step (initial []) reloadsInTurn = some final ∧
      Throughout step AnswersOwn (initial []) reloadsInTurn := by
  have halong : Along step OvertakesNobody (initial []) reloadsInTurn := by decide
  exact ⟨_, rfl, (answers_own_iff [] reloadsInTurn _ rfl).mpr halong⟩

/-- **A reload is answered with another thread's table.** -/
theorem reload_answers_others :
    ¬ ∀ (instruments : List Instrument) (events : List (ReloadEvent Bool))
        (final : ReloadState Bool),
      run step (initial instruments) events = some final → ReturnsOwn final := by
  intro h
  have hown := h [] twoReloads _ rfl
    { force := true
      pages := [oneInstrument "BTCUSDT"]
      returned := (oneInstrument "BTC-CALL").instruments }
    (by decide) rfl
  exact absurd hown (by decide)

end ReloadState

end BybitApi
