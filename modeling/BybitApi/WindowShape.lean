import BybitApi.LocalWindow

/-!
# The shape of the window

In local mode `requestTimes` holds the first readings of at most ten calls, in the order
of the calls.  The limit rests on the sleep: it is measured so that the oldest entry has
expired when the call wakes up, which makes room for the entry of the call itself.
-/

namespace BybitApi

/-- Between two calls: the entries are in order, not more than the limit, and none is
    later than the clock. -/
structure ShapeInv (s : LimiterState) : Prop where
  ordered : s.limiter.requestTimes.Pairwise (· ≤ ·)
  size : s.limiter.requestTimes.length ≤ localLimit
  recorded_le : ∀ t ∈ s.limiter.requestTimes, t ≤ s.clock

/-- What a call of `wait` leaves, where it reads the oldest entry, and for how long it
    sleeps. -/
structure WaitShape (limiter : RateLimiter) (now nowAfterWait : Int) : Prop where
  ordered : (limiter.wait now nowAfterWait).2.requestTimes.Pairwise (· ≤ ·)
  size : (limiter.wait now nowAfterWait).2.requestTimes.length ≤ localLimit
  last : (limiter.wait now nowAfterWait).2.requestTimes.getLast? = some now
  /-- There is an oldest entry to read, and the `waitTime > 0` test succeeds. -/
  oldest : localLimit ≤ (popExpired now limiter.requestTimes).length →
    ∃ oldest, (popExpired now limiter.requestTimes).head? = some oldest ∧
      0 < oldest + windowSizeMs - now + 10
  sleep : ∀ waitTime, (limiter.wait now nowAfterWait).1 = some waitTime →
    10 ≤ waitTime ∧ waitTime ≤ windowSizeMs + 10

/-- The calls of `wait` in local mode have this shape. -/
def KeepsShape (s : LimiterState) : LimiterEvent → Prop
  | .wait now nowAfterWait returned =>
      s.limiter.serverHeadersFound = false →
        ReadingsInOrder s.clock now nowAfterWait returned (s.limiter.wait now nowAfterWait).1 →
          WaitShape s.limiter now nowAfterWait
  | .update _ => True

/-! ### Entries -/

theorem popExpired_sublist (now : Int) (requestTimes : List Int) :
    (popExpired now requestTimes).Sublist requestTimes :=
  List.dropWhile_sublist _

/-- An entry that is older than the window is popped off the front. -/
theorem popExpired_cons {reading oldest : Int} (rest : List Int)
    (h : windowSizeMs < reading - oldest) :
    popExpired reading (oldest :: rest) = popExpired reading rest :=
  List.dropWhile_cons_of_pos (by simpa using h)

/-- A reading that is not before the entries goes behind them. -/
theorem ordered_push {requestTimes : List Int} {now : Int}
    (hordered : requestTimes.Pairwise (· ≤ ·)) (hle : ∀ t ∈ requestTimes, t ≤ now) :
    (requestTimes ++ [now]).Pairwise (· ≤ ·) := by
  rw [List.pairwise_append]
  refine ⟨hordered, List.pairwise_singleton _ _, ?_⟩
  intro t ht t' ht'
  rw [List.mem_singleton.mp ht']
  exact hle t ht

/-! ### Calls -/

/-- The entries left at the first reading. -/
theorem ShapeInv.popExpired {s : LimiterState} (hinv : ShapeInv s) {now : Int}
    (hclock : s.clock ≤ now) :
    (popExpired now s.limiter.requestTimes).Pairwise (· ≤ ·) ∧
      (popExpired now s.limiter.requestTimes).length ≤ localLimit ∧
      ∀ t ∈ popExpired now s.limiter.requestTimes, t ≤ now := by
  have hsub := popExpired_sublist now s.limiter.requestTimes
  refine ⟨hinv.ordered.sublist hsub, hsub.length_le.trans hinv.size, ?_⟩
  intro t ht
  exact (hinv.recorded_le t (hsub.subset ht)).trans hclock

/-- **A call of `wait`.**  Either there is room for its entry, or it sleeps until the
    oldest one has expired. -/
theorem ShapeInv.wait {s : LimiterState} (hinv : ShapeInv s)
    (hlocal : s.limiter.serverHeadersFound = false) {now nowAfterWait returned : Int}
    (hreadings : ReadingsInOrder s.clock now nowAfterWait returned
      (s.limiter.wait now nowAfterWait).1) : WaitShape s.limiter now nowAfterWait := by
  obtain ⟨hclock, hslept⟩ := hreadings
  obtain ⟨hordered, hsize, hle⟩ := hinv.popExpired hclock
  rcases s.limiter.wait_local hlocal now nowAfterWait with
    ⟨hroom, hwait⟩ | ⟨oldest, rest, hpop, hage, hwait⟩
  · refine
      { ordered := ?_
        size := ?_
        last := ?_
        oldest := fun hfull => absurd hroom (not_lt.mpr hfull)
        sleep := ?_ }
    · rw [hwait]
      exact ordered_push hordered hle
    · rw [hwait]
      simpa [Nat.succ_le_iff] using hroom
    · rw [hwait]
      exact List.getLast?_concat
    · intro waitTime hsleep
      rw [hwait] at hsleep
      cases hsleep
  · rw [hwait] at hslept
    rw [hpop] at hordered hsize hle
    have hbefore : oldest ≤ now := hle oldest List.mem_cons_self
    have hexpired : windowSizeMs < nowAfterWait - oldest := by
      have hsleep := hslept.1
      omega
    have hsub := popExpired_sublist nowAfterWait rest
    have hleft := popExpired_cons rest hexpired
    refine
      { ordered := ?_
        size := ?_
        last := ?_
        oldest := ?_
        sleep := ?_ }
    · rw [hwait]
      simp only [hleft]
      apply ordered_push ((List.pairwise_cons.mp hordered).2.sublist hsub)
      exact fun t ht => hle t (List.mem_cons_of_mem oldest (hsub.subset ht))
    · rw [hwait]
      simp only [hleft, List.length_append, List.length_singleton]
      exact (Nat.succ_le_succ hsub.length_le).trans hsize
    · rw [hwait]
      exact List.getLast?_concat
    · intro _
      refine ⟨oldest, by rw [hpop, List.head?_cons], ?_⟩
      omega
    · intro waitTime hsleep
      rw [hwait, Option.some.injEq] at hsleep
      omega

/-! ### Runs -/

theorem shapeInv_initial (clock : Int) : ShapeInv (.initial clock) where
  ordered := List.Pairwise.nil
  size := Nat.zero_le _
  recorded_le := fun _ ht => nomatch ht

/-- Headers have no part in the window. -/
theorem requestTimes_update (limiter : RateLimiter) (response : HttpResponse) :
    (limiter.update response).requestTimes = limiter.requestTimes := by
  unfold RateLimiter.update
  split
  · split
    · rfl
    · split <;> rfl
  · rfl

/-- What leaves the entries alone keeps their shape. -/
theorem ShapeInv.of_eq {s next : LimiterState} (hinv : ShapeInv s)
    (htimes : next.limiter.requestTimes = s.limiter.requestTimes) (hclock : s.clock ≤ next.clock) :
    ShapeInv next where
  ordered := by rw [htimes]; exact hinv.ordered
  size := by rw [htimes]; exact hinv.size
  recorded_le := by
    intro t ht
    rw [htimes] at ht
    exact (hinv.recorded_le t ht).trans hclock

theorem shapeInv_step (s : LimiterState) (event : LimiterEvent) (next : LimiterState)
    (hinv : ShapeInv s) (hstep : s.step event = some next) : ShapeInv next := by
  cases event with
  | update response =>
      simp only [LimiterState.step, Option.some.injEq] at hstep
      subst hstep
      exact hinv.of_eq (requestTimes_update s.limiter response) (le_refl _)
  | wait now nowAfterWait returned =>
      simp only [LimiterState.step, Option.ite_none_right_eq_some, Option.some.injEq] at hstep
      obtain ⟨hreadings, rfl⟩ := hstep
      obtain ⟨hclock, hreturned⟩ := hreadings.le_returned
      cases hmode : s.limiter.serverHeadersFound with
      | true =>
          have hkept := (RateLimiter.wait_server hmode now nowAfterWait).1
          exact hinv.of_eq (congrArg RateLimiter.requestTimes hkept) (hclock.trans hreturned)
      | false =>
          have hshape := hinv.wait hmode hreadings
          refine { ordered := hshape.ordered, size := hshape.size, recorded_le := ?_ }
          -- the entries are in order, and the last one is the first reading
          obtain ⟨entries, hentries⟩ := List.getLast?_eq_some_iff.mp hshape.last
          have hordered := hshape.ordered
          rw [hentries] at hordered
          intro t ht
          simp only [hentries] at ht
          rcases List.mem_append.mp ht with hold | hnew
          · exact ((List.pairwise_append.mp hordered).2.2 t hold now (by simp)).trans hreturned
          · rw [List.mem_singleton.mp hnew]
            exact hreturned

/-- **The window keeps its shape.**  In every run, each call of `wait` in local mode
    leaves at most ten entries, in order, the last of which is its own first reading; it
    reads the oldest entry when there is one, and sleeps between ten milliseconds and
    ten more than the window. -/
theorem window_keeps_shape (clock : Int) (events : List LimiterEvent) :
    Machine.Along LimiterState.step KeepsShape (.initial clock) events := by
  have hkeeps : ∀ (s : LimiterState) (event : LimiterEvent), ShapeInv s → True →
      KeepsShape s event := by
    intro s event hinv _
    cases event with
    | update response => trivial
    | wait now nowAfterWait returned =>
        intro hlocal hreadings
        exact hinv.wait hlocal hreadings
  exact Machine.Along.of_invariant (fun s event next hinv _ => shapeInv_step s event next hinv)
    hkeeps (shapeInv_initial clock) (Machine.along_true _ events)

end BybitApi
