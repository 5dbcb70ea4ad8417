import BybitApi.Wire

/-!
# JSON values and what can go wrong on them

JSON is read through `nlohmann::json` and through the readers of `vk_cpp_common`.
Neither is part of this repository: the values and the accesses that the library
documents are defined here, and the readers are parameters, gathered in
`VkCommon`, with the laws that the code relies on as separate statements.

An access can throw, and an access of a constant value by an absent key is
undefined behaviour; no `catch` sees the latter, so it is a `Fault` of its own.
What an effect has changed before it throws stays changed.
-/

namespace BybitApi

/-- How an evaluation ends other than normally. -/
inductive Fault where
  /-- A `nlohmann::json::exception`. -/
  | json (what : String)
  /-- The `std::bad_function_call` of an empty `std::function`. -/
  | badFunctionCall
  | other (what : String)
  /-- Undefined behaviour; not an exception. -/
  | undefined (what : String)
deriving DecidableEq, Repr

/-- An exception that leaves a call. -/
def ApiError.ofFault : Fault → ApiError
  | .json what => .json what
  | .badFunctionCall => .transport "bad_function_call"
  | .other what => .transport what
  | .undefined what => .transport what

/-! ### Effects that keep what was done before a fault -/

/-- A computation on an object that may be left half done. -/
abbrev Effect (σ α : Type) := EStateM Fault σ α

section Effects

variable {σ τ α β : Type}

def ofExcept : Except Fault α → Effect σ α
  | .ok value => pure value
  | .error fault => throw fault

/-- An assignment to a part of the object; evaluating its right side may throw. -/
def assign (update : σ → Except Fault σ) : Effect σ Unit := fun s =>
  match update s with
  | .ok s' => .ok () s'
  | .error fault => .error fault s

/-- The object when the computation has ended, whether normally or not. -/
def after (effect : Effect σ α) (s : σ) : σ :=
  match effect s with
  | .ok _ s' => s'
  | .error _ s' => s'

/-- The object with which the program goes on; after undefined behaviour nothing
    can be said. -/
def settled (effect : Effect σ α) (s : σ) : Option σ :=
  match effect s with
  | .ok _ s' => some s'
  | .error (.undefined _) _ => none
  | .error _ s' => some s'

/-- A local object built by a computation; it is dropped when that throws. -/
def built (effect : Effect σ α) (s : σ) : Except Fault σ :=
  match effect s with
  | .ok _ s' => .ok s'
  | .error fault _ => .error fault

/-- A call of `logMessageCB`, which throws when no logger was ever set. -/
def logMessage (logger : Bool) : Effect σ Unit :=
  if logger then pure () else throw .badFunctionCall

/-- A `try` whose `catch (std::exception &)` logs the exception and goes on with a
    default. -/
def catchAndLog (logger : Bool) (default : α) (effect : Effect σ α) : Effect σ α := fun s =>
  match effect s with
  | .ok value s' => .ok value s'
  | .error (.undefined what) s' => .error (.undefined what) s'
  | .error _ s' => (do logMessage logger; return default : Effect σ α) s'

theorem bind_of_ok {effect : Effect σ α} {s s' : σ} {value : α} (k : α → Effect σ β)
    (h : effect s = .ok value s') : (effect >>= k) s = k value s' := by
  simp [bind, EStateM.bind, h]

theorem bind_of_error {effect : Effect σ α} {s s' : σ} {fault : Fault} (k : α → Effect σ β)
    (h : effect s = .error fault s') : (effect >>= k) s = .error fault s' := by
  simp [bind, EStateM.bind, h]

@[simp] theorem after_of_ok {effect : Effect σ α} {s s' : σ} {value : α}
    (h : effect s = .ok value s') : after effect s = s' := by
  simp [after, h]

theorem after_of_error {effect : Effect σ α} {s s' : σ} {fault : Fault}
    (h : effect s = .error fault s') : after effect s = s' := by
  simp [after, h]

theorem after_of_settled {effect : Effect σ α} {s s' : σ} (h : settled effect s = some s') :
    after effect s = s' := by
  unfold settled at h
  unfold after
  split at h <;> simp_all

theorem after_bind_of_ok {effect : Effect σ α} {s s' : σ} {value : α} (k : α → Effect σ β)
    (h : effect s = .ok value s') : after (effect >>= k) s = after (k value) s' := by
  simp [after, bind_of_ok k h]

theorem after_bind_of_error {effect : Effect σ α} {s s' : σ} {fault : Fault}
    (k : α → Effect σ β) (h : effect s = .error fault s') : after (effect >>= k) s = s' := by
  simp [after, bind_of_error k h]

theorem after_ofExcept_bind_ok {result : Except Fault α} {value : α} (k : α → Effect σ β)
    (h : result = .ok value) (s : σ) : after (ofExcept result >>= k) s = after (k value) s := by
  subst h
  rfl

theorem after_ofExcept_bind_error {result : Except Fault α} {fault : Fault} (k : α → Effect σ β)
    (h : result = .error fault) (s : σ) : after (ofExcept result >>= k) s = s := by
  subst h
  rfl

theorem after_logMessage (logger : Bool) (s : σ) : after (logMessage logger) s = s := by
  cases logger <;> rfl

theorem after_catchAndLog (logger : Bool) (default : α) (effect : Effect σ α) (s : σ) :
    after (catchAndLog logger default effect) s = after effect s := by
  unfold after catchAndLog
  rcases effect s with ⟨value, s'⟩ | ⟨fault, s'⟩
  · rfl
  · cases fault <;> cases logger <;> rfl

/-- Logging an exception leaves the object to the program. -/
theorem settled_catchAndLog (logger : Bool) (default : α) (effect : Effect σ α) (s : σ) :
    settled (catchAndLog logger default effect) s = settled effect s := by
  unfold settled catchAndLog
  rcases effect s with ⟨value, s'⟩ | ⟨fault, s'⟩
  · rfl
  · cases fault <;> cases logger <;> rfl

theorem catchAndLog_of_ok {effect : Effect σ α} {s s' : σ} {value : α} (logger : Bool)
    (default : α) (h : effect s = .ok value s') :
    catchAndLog logger default effect s = .ok value s' := by
  simp [catchAndLog, h]

/-- Whether it ends normally or not, the effect leaves a part of the object alone. -/
def Keeps (view : σ → τ) (effect : Effect σ α) : Prop := ∀ s, view (after effect s) = view s

variable {view : σ → τ}

theorem Keeps.bind {effect : Effect σ α} {k : α → Effect σ β} (heffect : Keeps view effect)
    (hk : ∀ value, Keeps view (k value)) : Keeps view (effect >>= k) := by
  intro s
  have hs := heffect s
  cases h : effect s with
  | ok value s' =>
      rw [after_of_ok h] at hs
      rw [after_bind_of_ok k h, hk value s', hs]
  | error fault s' =>
      rw [after_of_error h] at hs
      rw [after_bind_of_error k h, hs]

/-- What follows a computation and leaves the object alone need not be looked at. -/
theorem after_bind_of_keeps {effect : Effect σ α} {k : α → Effect σ β}
    (hk : ∀ value, Keeps id (k value)) (s : σ) : after (effect >>= k) s = after effect s := by
  cases h : effect s with
  | ok value s' =>
      rw [after_bind_of_ok k h, after_of_ok h]
      exact hk value s'
  | error fault s' => rw [after_bind_of_error k h, after_of_error h]

theorem keeps_pure (value : α) : Keeps view (pure value : Effect σ α) := fun _ => rfl

theorem keeps_throw (fault : Fault) : Keeps view (throw fault : Effect σ α) := fun _ => rfl

theorem keeps_ofExcept (result : Except Fault α) : Keeps view (ofExcept result : Effect σ α) := by
  cases result with
  | ok value => exact keeps_pure value
  | error fault => exact keeps_throw fault

theorem keeps_logMessage (logger : Bool) : Keeps view (logMessage logger : Effect σ Unit) :=
  fun s => congrArg view (after_logMessage logger s)

theorem keeps_modify {f : σ → σ} (h : ∀ s, view (f s) = view s) :
    Keeps view (modify f : Effect σ Unit) := h

theorem Keeps.catchAndLog {effect : Effect σ α} (h : Keeps view effect) (logger : Bool)
    (default : α) : Keeps view (catchAndLog logger default effect) := by
  intro s
  rw [after_catchAndLog, h s]

end Effects

/-! ### Values -/

/-- A JSON value; the keys of an object are looked up from its front. -/
inductive Json where
  | null
  | bool (value : Bool)
  | integer (value : Int)
  | float (value : Double)
  | string (value : String)
  | array (items : List Json)
  | object (members : List (String × Json))
deriving Repr

namespace Json

def find? : Json → String → Option Json
  | .object members, key => members.lookup key
  | _, _ => none

def isObject : Json → Bool
  | .object _ => true
  | _ => false

def contains (json : Json) (key : String) : Bool := (json.find? key).isSome

/-- `operator[]` of a constant value with a key. -/
def index (json : Json) (key : String) : Except Fault Json :=
  match json with
  | .object members =>
      match members.lookup key with
      | some value => .ok value
      | none => .error (.undefined "operator[] with an absent key")
  | _ => .error (.json "type_error.305")

/-- `operator[]` of a variable with a key: an absent member is made, as `null`. -/
def indexOrNull (json : Json) (key : String) : Except Fault Json :=
  match json with
  | .object members => .ok ((members.lookup key).getD .null)
  | .null => .ok .null
  | _ => .error (.json "type_error.305")

/-- `operator[]` of a constant value with a position. -/
def indexAt (json : Json) (i : Nat) : Except Fault Json :=
  match json with
  | .array items =>
      match items[i]? with
      | some value => .ok value
      | none => .error (.undefined "operator[] out of range")
  | _ => .error (.json "type_error.305")

def size : Json → Nat
  | .null => 0
  | .array items => items.length
  | .object members => members.length
  | _ => 1

/-- What a range-based `for` runs over. -/
def items : Json → List Json
  | .null => []
  | .array items => items
  | .object members => members.map Prod.snd
  | value => [value]

def asString : Json → Except Fault String
  | .string value => .ok value
  | _ => .error (.json "type_error.302")

def asBool : Json → Except Fault Bool
  | .bool value => .ok value
  | _ => .error (.json "type_error.302")

theorem index_of_find? {json value : Json} {key : String} (h : json.find? key = some value) :
    json.index key = .ok value := by
  cases json with
  | object members =>
      simp only [find?] at h
      simp [index, h]
  | _ => simp [find?] at h

theorem index_of_find?_none {json : Json} {key : String} (h : json.find? key = none) :
    ∃ fault, json.index key = .error fault := by
  cases json with
  | object members =>
      simp only [find?] at h
      simp [index, h]
  | _ => simp [index]

theorem index_undefined_iff (json : Json) (key : String) :
    (∃ what, json.index key = .error (.undefined what)) ↔
      json.isObject = true ∧ json.contains key = false := by
  cases json with
  | object members =>
      cases h : members.lookup key <;> simp [index, isObject, contains, find?, h]
  | null | bool _ | integer _ | float _ | string _ | array _ => simp [index, isObject]

end Json

/-- The text form of JSON values: `json::parse` and `dump`. -/
structure JsonText where
  parse : String → Except Fault Json
  dump : Json → String

/-! ### The readers of `vk_cpp_common` -/

/-- The integers of 32 bits. -/
def IsInt32 (n : Int) : Prop := -2 ^ 31 ≤ n ∧ n < 2 ^ 31

/-- The integers of 64 bits. -/
def IsInt64 (n : Int) : Prop := -2 ^ 63 ≤ n ∧ n < 2 ^ 63

instance (n : Int) : Decidable (IsInt32 n) := inferInstanceAs (Decidable (_ ∧ _))

instance (n : Int) : Decidable (IsInt64 n) := inferInstanceAs (Decidable (_ ∧ _))

/-- The functions of `vk_cpp_common` that the modelled code calls.  A reader takes
    the object, the key and the present value of its target. -/
structure VkCommon where
  readString : Json → String → String → Except Fault String
  readInt64 : Json → String → Int → Except Fault Int
  readBool : Json → String → Bool → Except Fault Bool
  readResponseType : Json → String → ResponseType → Except Fault ResponseType
  readStringAsDouble : Json → String → Double → Except Fault Double
  splitString : String → Char → List String

namespace VkCommon

/-- `readValue` leaves its target alone when the key is absent, and reads a string. -/
structure ReadsStrings (common : VkCommon) : Prop where
  absent : ∀ {json key} (current : String), json.find? key = none →
    common.readString json key current = .ok current
  present : ∀ {json key value} (current : String), json.find? key = some (.string value) →
    common.readString json key current = .ok value

/-- `readStringAsDouble` returns the passed default when the key is absent, and the
    parsed number when it is present; `number` parses a well-formed one. -/
structure ReadsNumbers (common : VkCommon) (number : Json → Option Double) : Prop where
  absent : ∀ {json key} (default : Double), json.find? key = none →
    common.readStringAsDouble json key default = .ok default
  present : ∀ {json key text value} (default : Double), json.find? key = some text →
    number text = some value → common.readStringAsDouble json key default = .ok value

/-- `readValue` reads an integer of 64 bits. -/
def ReadsIntegers (common : VkCommon) : Prop :=
  ∀ {json key value} (current : Int), json.find? key = some (.integer value) → IsInt64 value →
    common.readInt64 json key current = .ok value

/-- `readValue` reads a truth value. -/
def ReadsBools (common : VkCommon) : Prop :=
  ∀ {json key value} (current : Bool), json.find? key = some (.bool value) →
    common.readBool json key current = .ok value

/-- `splitString` splits at each separator. -/
def Splits (common : VkCommon) : Prop :=
  ∀ (separator : Char) (segments : List String), segments ≠ [] →
    (∀ segment ∈ segments, segment ≠ "" ∧ separator ∉ segment.toList) →
      common.splitString (String.intercalate separator.toString segments) separator = segments

/-- The readers look a key up before they use it. -/
structure Checks (common : VkCommon) : Prop where
  readString : ∀ json key current what,
    common.readString json key current ≠ .error (.undefined what)
  readInt64 : ∀ json key current what,
    common.readInt64 json key current ≠ .error (.undefined what)
  readBool : ∀ json key current what, common.readBool json key current ≠ .error (.undefined what)
  readResponseType : ∀ json key current what,
    common.readResponseType json key current ≠ .error (.undefined what)
  readStringAsDouble : ∀ json key default what,
    common.readStringAsDouble json key default ≠ .error (.undefined what)

/-- Readers that do what is documented of them, with `number` for the parser. -/
def documented (number : Json → Option Double) : VkCommon where
  readString json key current :=
    match json.find? key with
    | none => .ok current
    | some value => value.asString
  readInt64 json key current :=
    match json.find? key with
    | none => .ok current
    | some (.integer value) => .ok value
    | some _ => .error (.json "type_error.302")
  readBool json key current :=
    match json.find? key with
    | none => .ok current
    | some value => value.asBool
  readResponseType json key current :=
    match json.find? key with
    | none => .ok current
    | some (.string "snapshot") => .ok .snapshot
    | some (.string "delta") => .ok .delta
    | some _ => .error (.other "magic_enum")
  readStringAsDouble json key default :=
    match json.find? key with
    | none => .ok default
    | some text =>
        match number text with
        | some value => .ok value
        | none => .error (.other "stod")
  splitString text separator := (text.toList.splitOn separator).map String.ofList

variable (number : Json → Option Double)

theorem documented_readsStrings : (documented number).ReadsStrings where
  absent current h := by simp [documented, h]
  present current h := by simp [documented, h, Json.asString]

theorem documented_readsNumbers : (documented number).ReadsNumbers number where
  absent default h := by simp [documented, h]
  present default h hvalue := by simp [documented, h, hvalue]

theorem documented_readsIntegers : (documented number).ReadsIntegers := by
  intro json key value current h _
  simp [documented, h]

theorem documented_readsBools : (documented number).ReadsBools := by
  intro json key value current h
  simp [documented, h, Json.asBool]

theorem documented_checks : (documented number).Checks where
  readString json key current what := by
    simp only [documented]
    cases json.find? key with
    | none => simp
    | some value => cases value <;> simp [Json.asString]
  readInt64 json key current what := by
    simp only [documented]
    split <;> simp
  readBool json key current what := by
    simp only [documented]
    cases json.find? key with
    | none => simp
    | some value => cases value <;> simp [Json.asBool]
  readResponseType json key current what := by
    simp only [documented]
    split <;> simp
  readStringAsDouble json key default what := by
    simp only [documented]
    split
    · simp
    · split <;> simp

theorem documented_splits : (documented number).Splits := by
  intro separator segments hne hsegments
  have hsplit : (List.intercalate [separator] (segments.map String.toList)).splitOn separator =
      segments.map String.toList := by
    refine List.splitOn_intercalate separator ?_ (by simpa using hne)
    intro l hl
    obtain ⟨segment, hsegment, rfl⟩ := List.mem_map.mp hl
    exact (hsegments segment hsegment).2
  simp [documented, hsplit]

end VkCommon

end BybitApi
