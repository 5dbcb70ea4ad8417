import BybitApi.Orders

/-!
# Positions

`Position::fromJson` reads a position, with a flag of its own that tells exactly
whether its size is zero, and `RESTClient::closeAllPositions` places a market order
for each position that has one.
-/

namespace BybitApi

/-- What reading a position takes from `vk_cpp_common`, `magic_enum` and Boost. -/
structure PositionReaders where
  readInt : Json → String → Int → Except Fault Int
  readSide : Json → String → Side → Except Fault Side
  /-- `assign` of a text to a `cpp_dec_float_50`. -/
  assignDecimal : String → Except Fault Rat

namespace PositionReaders

/-- The readers read what is there, and a decimal is zero only if its text is. -/
structure Reads (readers : PositionReaders) : Prop where
  int : ∀ {json key value} (current : Int), json.find? key = some (.integer value) →
    IsInt32 value → readers.readInt json key current = .ok value
  side : ∀ {json key side} (current : Side), json.find? key = some (.string side.enumName) →
    readers.readSide json key current = .ok side
  decimal : ∀ {text value}, Decimal.value? text = some value →
    ∃ assigned, readers.assignDecimal text = .ok assigned ∧ (assigned = 0 ↔ value = 0)

/-- Readers that do what is documented of them. -/
def documented : PositionReaders where
  readInt json key current :=
    match json.find? key with
    | none => .ok current
    | some (.integer value) => .ok value
    | some _ => .error (.json "type_error.302")
  readSide json key current :=
    match json.find? key with
    | none => .ok current
    | some (.string name) =>
        match Side.enumCast? name with
        | some side => .ok side
        | none => .error (.other "magic_enum")
    | some _ => .error (.json "type_error.302")
  assignDecimal text :=
    match Decimal.value? text with
    | some value => .ok value
    | none => .error (.other "cpp_dec_float")

theorem documented_reads : documented.Reads where
  int current h _ := by simp [documented, h]
  side current h := by simp [documented, h]
  decimal h := ⟨_, by simp only [documented, h], Iff.rfl⟩

end PositionReaders

/-- The decimal that a text denotes. -/
def sizeNumber : Json → Option Rat
  | .string text => Decimal.value? text
  | _ => none

structure Position where
  positionIdx : Int := 0
  symbol : String := ""
  side : Side := .Buy
  size : Double := 0
  zeroSize : Bool := true
deriving DecidableEq, Repr

section Source

variable (common : VkCommon) (readers : PositionReaders) (format : OrderFormat)

def readDecimalValue (json : Json) (key : String) (value : Rat) : Except Fault Rat :=
  match json.find? key with
  | none => .ok value
  | some (.string text) => if text ≠ "" then readers.assignDecimal text else .ok 0
  | some _ => .ok 0

/-- `Position::fromJson` of a new position. -/
def Position.fromJson (json : Json) : Except Fault Position := do
  let position : Position := {}
  let positionIdx ← readers.readInt json "positionIdx" position.positionIdx
  let symbol ← common.readString json "symbol" position.symbol
  let side ← readers.readSide json "side" position.side
  let positionSize ← readDecimalValue readers json "size" 0
  let zeroSize := if positionSize ≠ 0 then false else position.zeroSize
  let size ← common.readStringAsDouble json "size" position.size
  return { positionIdx, symbol, side, size, zeroSize }

/-- The query of `RESTClient::getPositionInfo` to `/v5/position/list`. -/
def positionParameters (category : Category) (symbol : String) : Parameters :=
  let parameters := (∅ : Parameters).insert "category" category.enumName
  if symbol ≠ "" then parameters.insert "symbol" symbol else parameters

/-- `RESTClient::getPositionInfo`; `list` answers with the positions reported. -/
def getPositionInfo (list : Parameters → Except ApiError (List Json)) (category : Category)
    (symbol : String) : Except ApiError (List Position) := do
  let reported ← list (positionParameters category symbol)
  (reported.mapM (Position.fromJson common readers)).mapError ApiError.ofFault

/-- The order that `closeAllPositions` makes for a position. -/
def closingOrder (pos : Position) : Order where
  symbol := pos.symbol
  side := if pos.side = .Buy then .Sell else .Buy
  orderType := .Market
  qty := pos.size
  timeInForce := .GTC

variable (endpoint : Endpoint Instruments) (create : Nat → Json → Except ApiError OrderId)

/-- The loop of `closeAllPositions`. -/
def closePositions (fuel : Nat) (s : OrderClient) :
    List Position → Option (Except ApiError Unit × OrderClient)
  | [] => some (.ok (), s)
  | pos :: positionList =>
      if !pos.zeroSize then
        match placeOrder common format endpoint create fuel s (closingOrder pos) with
        | none => none
        | some (.error e, s') => some (.error e, s')
        | some (.ok _, s') => closePositions fuel s' positionList
      else closePositions fuel s positionList

/-- `RESTClient::closeAllPositions`, with the orders posted. -/
def closeAllPositions (list : Parameters → Except ApiError (List Json)) (fuel : Nat)
    (client : RestClient) (category : Category) : Option (Except ApiError Unit × OrderClient) :=
  match getPositionInfo common readers list category "" with
  | .error e => some (.error e, { client := client })
  | .ok positionList =>
      closePositions common format endpoint create fuel { client := client } positionList

end Source

end BybitApi
