import BybitApi.Machine
import Mathlib.Tactic.Linarith

/-!
# The rate limiter

`RateLimiter` of `bybit_rest_client.cpp`.  Until a response has carried rate
headers, `wait` keeps a sliding window of its own: it records when each call
began and lets a call sleep while ten of them lie within the last second.  Once
headers have been seen, `wait` goes by the exchange's budget alone.

`wait` and `update` hold the mutex from beginning to end, so a run of any number
of threads is a sequence of calls that do not overlap.  Instants are in
milliseconds.
-/

namespace BybitApi

/-! ### Response headers -/

structure HttpResponse where
  result : Nat
  fields : List (String × String)
  body : String
deriving DecidableEq, Repr

/-- `response.find`: field names are case-insensitive. -/
def HttpResponse.find (response : HttpResponse) (name : String) : Option String :=
  (response.fields.find? fun field => field.1.toLower == name.toLower).map Prod.snd

inductive StdError where
  | invalidArgument
  | outOfRange
deriving DecidableEq, Repr

def isSpace (c : Char) : Bool :=
  c == ' ' || c == '\t' || c == '\n' || c == '\r' || c == '\x0b' || c == '\x0c'

def digitsValue (digits : List Char) : Nat :=
  digits.foldl (fun value c => 10 * value + (c.toNat - '0'.toNat)) 0

/-- The decimal integer at the front of a text, after blanks, as `strtol` reads
    it; what follows the digits is ignored. -/
def leadingInteger (text : String) : Option Int :=
  let unsigned (chars : List Char) : Option Int :=
    match chars.takeWhile Char.isDigit with
    | [] => none
    | digits => some (digitsValue digits)
  match text.toList.dropWhile isSpace with
  | '-' :: chars => (unsigned chars).map Neg.neg
  | '+' :: chars => unsigned chars
  | chars => unsigned chars

/-- `std::stoi` and `std::stoll`, by the width of their result. -/
def stringToInteger (bits : Nat) (text : String) : Except StdError Int :=
  match leadingInteger text with
  | none => .error .invalidArgument
  | some value =>
      if -2 ^ (bits - 1) ≤ value ∧ value < 2 ^ (bits - 1) then .ok value
      else .error .outOfRange

def stoi : String → Except StdError Int := stringToInteger 32

def stoll : String → Except StdError Int := stringToInteger 64

/-! ### The limiter -/

structure RateLimiter where
  remaining : Int := 50
  resetTime : Int := 0
  serverHeadersFound : Bool := false
  requestTimes : List Int := []
deriving DecidableEq, Repr

def localLimit : Nat := 10

def windowSizeMs : Int := 1000

/-- `RateLimiter::update`.  An exception is caught where it is thrown, so a
    reset time that cannot be read leaves `remaining` overwritten. -/
def RateLimiter.update (limiter : RateLimiter) (response : HttpResponse) : RateLimiter :=
  match response.find "X-Bapi-Limit-Status", response.find "X-Bapi-Limit-Reset" with
  | some status, some reset =>
      match stoi status with
      | .error _ => limiter
      | .ok remaining =>
          match stoll reset with
          | .error _ => { limiter with remaining := remaining }
          | .ok resetTime =>
              { limiter with
                remaining := remaining
                resetTime := resetTime
                serverHeadersFound := true }
  | _, _ => limiter

/-- The loop that pops the entries older than the window off the front. -/
def popExpired (now : Int) (requestTimes : List Int) : List Int :=
  requestTimes.dropWhile fun t => decide (now - t > windowSizeMs)

/-- `RateLimiter::wait`, given the readings of the clock: `now` at the beginning
    and `nowAfterWait` after a sleep.  Returns the sleep requested, if any. -/
def RateLimiter.wait (limiter : RateLimiter) (now nowAfterWait : Int) :
    Option Int × RateLimiter :=
  if limiter.serverHeadersFound then
    if limiter.remaining ≤ 2 then
      if limiter.resetTime > now then (some (limiter.resetTime - now + 50), limiter)
      else (none, limiter)
    else (none, limiter)
  else
    let requestTimes := popExpired now limiter.requestTimes
    if requestTimes.length ≥ localLimit then
      let oldest := requestTimes.headD 0
      let waitTime := (oldest + windowSizeMs) - now + 10
      if waitTime > 0 then
        -- what is recorded after the sleep is still the reading before it
        (some waitTime,
          { limiter with requestTimes := popExpired nowAfterWait requestTimes ++ [now] })
      else (none, { limiter with requestTimes := requestTimes ++ [now] })
    else (none, { limiter with requestTimes := requestTimes ++ [now] })

/-! ### Runs of calls -/

/-- A call of `wait` that has returned: its first reading of the clock, which is
    what the limiter records, and the instant at which it returned. -/
structure WaitCall where
  recorded : Int
  returned : Int
deriving DecidableEq, Repr

/-- The limiter, the latest instant known, and the calls that have returned. -/
structure LimiterState where
  limiter : RateLimiter
  clock : Int
  calls : List WaitCall
deriving DecidableEq, Repr

/-- A call with its two readings of the clock and the instant of its return, or
    a response. -/
inductive LimiterEvent where
  | wait (now nowAfterWait returned : Int)
  | update (response : HttpResponse)
deriving DecidableEq, Repr

/-- The clock does not decrease, and a sleep takes at least as long as asked. -/
def ReadingsInOrder (clock now nowAfterWait returned : Int) (slept : Option Int) : Prop :=
  clock ≤ now ∧
    match slept with
    | none => now ≤ returned
    | some duration => now + duration ≤ nowAfterWait ∧ nowAfterWait ≤ returned

instance (clock now nowAfterWait returned : Int) (slept : Option Int) :
    Decidable (ReadingsInOrder clock now nowAfterWait returned slept) := by
  unfold ReadingsInOrder
  cases slept <;> infer_instance

def LimiterState.step (s : LimiterState) : LimiterEvent → Option LimiterState
  | .wait now nowAfterWait returned =>
      if ReadingsInOrder s.clock now nowAfterWait returned
          (s.limiter.wait now nowAfterWait).1 then
        some
          { limiter := (s.limiter.wait now nowAfterWait).2
            clock := returned
            calls := s.calls ++ [{ recorded := now, returned := returned }] }
      else none
  | .update response => some { s with limiter := s.limiter.update response }

/-- A new limiter, at some instant. -/
def LimiterState.initial (clock : Int) : LimiterState :=
  { limiter := {}, clock := clock, calls := [] }

/-- A call that sleeps sleeps for some time. -/
theorem RateLimiter.sleep_pos {limiter : RateLimiter} {now nowAfterWait duration : Int}
    (h : (limiter.wait now nowAfterWait).1 = some duration) : 0 < duration := by
  unfold RateLimiter.wait at h
  split at h
  · split at h
    · split at h
      · obtain rfl := Option.some.inj h
        omega
      · cases h
    · cases h
  · simp only at h
    split at h
    · split at h
      · rename_i hpositive
        obtain rfl := Option.some.inj h
        exact hpositive
      · cases h
    · cases h

/-- A call returns after its first reading of the clock. -/
theorem ReadingsInOrder.le_returned {clock now nowAfterWait returned : Int} {limiter : RateLimiter}
    (h : ReadingsInOrder clock now nowAfterWait returned (limiter.wait now nowAfterWait).1) :
    clock ≤ now ∧ now ≤ returned := by
  rcases h with ⟨hclock, hreturned⟩
  refine ⟨hclock, ?_⟩
  split at hreturned
  · exact hreturned
  · rename_i duration hslept
    have hpositive := RateLimiter.sleep_pos hslept
    omega

/-- **What a call does in server mode.**  It leaves the limiter alone, and with at
    most two requests remaining it does not return before the reset. -/
theorem RateLimiter.wait_server {limiter : RateLimiter}
    (hserver : limiter.serverHeadersFound = true) (now nowAfterWait : Int) :
    (limiter.wait now nowAfterWait).2 = limiter ∧
      ∀ clock returned, limiter.remaining ≤ 2 →
        ReadingsInOrder clock now nowAfterWait returned (limiter.wait now nowAfterWait).1 →
          limiter.resetTime ≤ returned := by
  simp only [RateLimiter.wait, hserver, if_true]
  constructor
  · split
    · split <;> rfl
    · rfl
  · intro clock returned hlow
    simp only [hlow, if_true]
    split
    · rintro ⟨-, hslept, hreturned⟩
      omega
    · rintro ⟨-, hreturned⟩
      simp only at hreturned
      omega

/-- The response carries both rate headers. -/
def HttpResponse.CarriesRateHeaders (response : HttpResponse) : Prop :=
  (response.find "X-Bapi-Limit-Status").isSome ∧ (response.find "X-Bapi-Limit-Reset").isSome

instance (response : HttpResponse) : Decidable response.CarriesRateHeaders :=
  inferInstanceAs (Decidable (_ ∧ _))

theorem RateLimiter.update_of_no_headers (limiter : RateLimiter) {response : HttpResponse}
    (h : ¬ response.CarriesRateHeaders) : limiter.update response = limiter := by
  unfold RateLimiter.update
  split
  · next status reset hstatus hreset =>
      exact absurd ⟨by simp [hstatus], by simp [hreset]⟩ h
  · rfl

end BybitApi
