import BybitApi.Enums
import Mathlib

/-!
# What a REST request sends and what comes back

A request is a path and a `std::map` of textual parameters; the exchange's
answer, decoded, is a value or one of the exceptions that `checkResponse` and
`handleBybitResponse` throw.  Prices and sizes are `double`s in the source;
here they are exact rationals.  The calls that look things up only store and copy them.
Where numbers are printed, in `OrderQuantisation`, `OrderEncoding` and `ClosePositions`, it
is said what becomes of the rounding to a `double`.
-/

namespace BybitApi

abbrev Double := Rat

/-- `std::map<std::string, std::string>`. -/
abbrev Parameters := Std.ExtTreeMap String String

theorem getElem?_insert_text (parameters : Parameters) (key value key' : String) :
    (parameters.insert key value)[key']? =
      if key = key' then some value else parameters[key']? := by
  rw [Std.ExtTreeMap.getElem?_insert]
  simp only [Std.LawfulEqCmp.compare_eq_iff_eq]

/-- The ways in which a REST call throws. -/
inductive ApiError where
  | transport (what : String)
  | badResponse (code : Nat) (msg : String)
  | json (what : String)
  | api (retCode : Int) (retMsg : String)
deriving DecidableEq, Repr

/-- An endpoint under one path: the answer to the request number `k` of a
    client, which may depend on all that has happened in between. -/
abbrev Endpoint (α : Type) := Nat → Parameters → Except ApiError α

/-- `limit` is sent only when it differs from the exchange's default of 200. -/
def insertLimit (parameters : Parameters) (limit : Int) : Parameters :=
  if limit ≠ 200 then parameters.insert "limit" (toString limit) else parameters

/-- An integer parameter as the exchange reads it. -/
def integerParameter (parameters : Parameters) (key : String) (default : Int) : Int :=
  (parameters[key]?.bind String.toInt?).getD default

theorem integerParameter_insert_self (parameters : Parameters) (key : String)
    (value default : Int) :
    integerParameter (parameters.insert key (toString value)) key default = value := by
  rw [integerParameter, Std.ExtTreeMap.getElem?_insert_self, Option.bind_some,
    Int.toString_eq_repr, Int.toInt?_repr, Option.getD_some]

theorem integerParameter_insert_of_ne (parameters : Parameters) {key key' : String}
    (value : String) (default : Int) (h : key' ≠ key) :
    integerParameter (parameters.insert key' value) key default =
      integerParameter parameters key default := by
  rw [integerParameter, Std.ExtTreeMap.getElem?_insert, if_neg (by simpa using h),
    integerParameter]

theorem integerParameter_insertLimit (parameters : Parameters) {key : String}
    (limit default : Int) (h : "limit" ≠ key) :
    integerParameter (insertLimit parameters limit) key default =
      integerParameter parameters key default := by
  unfold insertLimit
  split
  · exact integerParameter_insert_of_ne parameters _ default h
  · rfl

/-- Whether it is sent or not, the exchange sees the intended limit. -/
theorem integerParameter_limit (parameters : Parameters) (limit : Int)
    (h : parameters["limit"]? = none) :
    integerParameter (insertLimit parameters limit) "limit" 200 = limit := by
  unfold insertLimit
  split
  · exact integerParameter_insert_self parameters "limit" limit 200
  · next hdefault =>
      rw [integerParameter, h]
      simp only [Option.bind_none, Option.getD_none]
      omega

end BybitApi
