import BybitApi.ReplyFields

/-!
# Accesses in replies that nothing checks

A decoder takes its JSON as a constant, so `operator[]` neither makes an absent member nor
throws: it is undefined behaviour.  The readers look keys up before they use them, but the
columns of a candle, the coins of an account, the filters of an instrument and the list of
cancelled orders are taken as if they were there.  `decoders_defined_iff` tells which
replies reach such an access; a candle of six columns does (`short_candle_is_undefined`).
-/

namespace BybitApi

def Fault.IsUndefined (fault : Fault) : Prop := ∃ what, fault = .undefined what

/-- The readers check what they use. -/
structure ReplyReaders.Checks (readers : ReplyReaders) : Prop where
  readInt : ∀ json key current what, readers.readInt json key current ≠ .error (.undefined what)
  readMagicEnum : ∀ {α : Type} (enumCast? : String → Option α) json key (current : α) what,
    readers.readMagicEnum enumCast? json key current ≠ .error (.undefined what)
  readStringAsInt64 : ∀ json key default what,
    readers.readStringAsInt64 json key default ≠ .error (.undefined what)
  readStringAsInt : ∀ json key default what,
    readers.readStringAsInt json key default ≠ .error (.undefined what)
  assignDecimal : ∀ digits what, readers.assignDecimal digits ≠ .error (.undefined what)
  stod : ∀ digits what, readers.stod digits ≠ .error (.undefined what)

/-- An integer that fits into an `int` is read as it is. -/
def ReplyReaders.ReadsInt (readers : ReplyReaders) : Prop :=
  ∀ {json key value} (current : Int), json.find? key = some (.integer value) →
    -2 ^ 31 ≤ value → value < 2 ^ 31 → readers.readInt json key current = .ok value

open Decoding

section Conditions

variable (common : VkCommon) (readers : ReplyReaders)

/-- A candle lacks columns, and those that are there are read. -/
def ShortCandle (row : Json) : Prop :=
  ∃ items, row = .array items ∧ items.length < 7 ∧
    ∀ i < items.length, ColumnReads readers items i

/-- The fields of an account are read, and it is an object without coins. -/
def CoinsAbsent (row : Json) : Prop :=
  FieldsRead common readers row AccountBalance.fields ∧
    row.isObject = true ∧ row.contains "coin" = false

/-- The fields of an instrument are read, and it is an object without the filter that is
    taken next. -/
def FiltersAbsent (row : Json) : Prop :=
  Instrument.HeadReads common readers row ∧ row.isObject = true ∧
    (row.contains "priceFilter" = false ∨
      Instrument.PriceFilterReads common readers row ∧ row.contains "lotSizeFilter" = false)

/-- Decoding the result takes something that is not there, behind what is read. -/
def ReplyType.TakesAbsent (result : Json) : ReplyType → Prop
  | .Candles =>
      FieldsRead common readers result ReplyType.Candles.fields ∧
        Reaches (Candle.Reads readers) (ShortCandle readers) result.rows
  | .Instruments =>
      FieldsRead common readers result ReplyType.Instruments.fields ∧
        Reaches (Instrument.Reads common readers) (FiltersAbsent common readers) result.rows
  | .WalletBalance =>
      Reaches (AccountBalance.Reads common readers) (CoinsAbsent common readers) result.rows
  | .FundingRates | .Positions | .OrdersResponse | .Tickers | .OrderId | .ServerTime
  | .Response => False

end Conditions

/-- The calls that decode replies. -/
inductive RestCall where
  | getHistoricalPrices | getWalletBalance | getPositionInfo | getInstrumentsInfo
  | cancelAllOrders
deriving DecidableEq, Repr

namespace RestCall

variable (common : VkCommon) (readers : ReplyReaders)

/-- The call, on this body of a reply, runs into undefined behaviour. -/
def RunsUndefined (json : Json) : RestCall → Prop
  | .getHistoricalPrices =>
      Fails Fault.IsUndefined (ReplyType.fromJson common readers .Candles json)
  | .getWalletBalance =>
      Fails Fault.IsUndefined (ReplyType.fromJson common readers .WalletBalance json)
  | .getPositionInfo =>
      Fails Fault.IsUndefined (ReplyType.fromJson common readers .Positions json)
  | .getInstrumentsInfo =>
      Fails Fault.IsUndefined (Instruments.fromJson common readers.instruments json)
  | .cancelAllOrders => Fails Fault.IsUndefined (BybitApi.cancelAllOrders common readers json)

/-- The call takes something from the result of a reply that is not there. -/
def TakesAbsent (result : Json) : RestCall → Prop
  | .getHistoricalPrices => ReplyType.Candles.TakesAbsent common readers result
  | .getWalletBalance => ReplyType.WalletBalance.TakesAbsent common readers result
  | .getPositionInfo => False
  | .getInstrumentsInfo => ReplyType.Instruments.TakesAbsent common readers result
  | .cancelAllOrders => result.isObject = true ∧ result.contains "list" = false

end RestCall

/-! ### Readers -/

variable {common : VkCommon} {readers : ReplyReaders}

theorem not_undefined_of_ne {α : Type} {reading : Except Fault α}
    (h : ∀ what, reading ≠ .error (.undefined what)) : ¬ Fails Fault.IsUndefined reading := by
  rintro ⟨fault, hfault, what, rfl⟩
  exact h what hfault

theorem not_undefined_json (what : String) : ¬ (Fault.json what).IsUndefined := by
  rintro ⟨_, h⟩
  cases h

/-- `operator[]` of a constant object with an absent key. -/
theorem undefined_index_iff (json : Json) (key : String) :
    Fails Fault.IsUndefined (json.index key) ↔
      json.isObject = true ∧ json.contains key = false := by
  rw [← Json.index_undefined_iff]
  constructor
  · rintro ⟨fault, hfault, what, rfl⟩
    exact ⟨what, hfault⟩
  · rintro ⟨what, hfault⟩
    exact ⟨_, hfault, what, rfl⟩

theorem VkCommon.Checks.string (hcommon : common.Checks) (json : Json) (key current : String) :
    ¬ Fails Fault.IsUndefined (common.readString json key current) :=
  not_undefined_of_ne (hcommon.readString json key current)

theorem VkCommon.Checks.int64 (hcommon : common.Checks) (json : Json) (key : String)
    (current : Int) : ¬ Fails Fault.IsUndefined (common.readInt64 json key current) :=
  not_undefined_of_ne (hcommon.readInt64 json key current)

theorem VkCommon.Checks.bool (hcommon : common.Checks) (json : Json) (key : String)
    (current : Bool) : ¬ Fails Fault.IsUndefined (common.readBool json key current) :=
  not_undefined_of_ne (hcommon.readBool json key current)

theorem VkCommon.Checks.double (hcommon : common.Checks) (json : Json) (key : String)
    (default : Double) : ¬ Fails Fault.IsUndefined (common.readStringAsDouble json key default) :=
  not_undefined_of_ne (hcommon.readStringAsDouble json key default)

theorem ReplyReaders.Checks.int (hreaders : readers.Checks) (json : Json) (key : String)
    (current : Int) : ¬ Fails Fault.IsUndefined (readers.readInt json key current) :=
  not_undefined_of_ne (hreaders.readInt json key current)

theorem ReplyReaders.Checks.enum (hreaders : readers.Checks) {α : Type}
    (enumCast? : String → Option α) (json : Json) (key : String) (current : α) :
    ¬ Fails Fault.IsUndefined (readers.readMagicEnum enumCast? json key current) :=
  not_undefined_of_ne (hreaders.readMagicEnum enumCast? json key current)

theorem ReplyReaders.Checks.stringAsInt64 (hreaders : readers.Checks) (json : Json)
    (key : String) (default : Option Int) :
    ¬ Fails Fault.IsUndefined (readers.readStringAsInt64 json key default) :=
  not_undefined_of_ne (hreaders.readStringAsInt64 json key default)

theorem ReplyReaders.Checks.stringAsInt (hreaders : readers.Checks) (json : Json) (key : String)
    (default : Int) : ¬ Fails Fault.IsUndefined (readers.readStringAsInt json key default) :=
  not_undefined_of_ne (hreaders.readStringAsInt json key default)

theorem ReplyReaders.Checks.decimal (hreaders : readers.Checks) (json : Json) (key : String)
    (value : Rat) :
    ¬ Fails Fault.IsUndefined (readDecimalValue readers.positions json key value) := by
  unfold readDecimalValue
  split
  · exact not_fails_ok _
  · split
    · exact not_undefined_of_ne (hreaders.assignDecimal _)
    · exact not_fails_ok _
  · exact not_fails_ok _

/-! ### Rows -/

theorem coin_defined (hcommon : common.Checks) (json : Json) :
    ¬ Fails Fault.IsUndefined (Coin.fromJson common json) := by
  simp only [Coin.fromJson, fails_bind, hcommon.double, hcommon.string, hcommon.bool,
    not_fails_pure, and_false, exists_false, or_false, not_false_eq_true]

theorem balanceFields_defined (hcommon : common.Checks) (hreaders : readers.Checks)
    (json : Json) : ¬ Fails Fault.IsUndefined (AccountBalance.readFields common readers json) := by
  simp only [AccountBalance.readFields, fails_bind, hcommon.double, hreaders.enum, not_fails_pure,
    and_false, exists_false, or_false, not_false_eq_true]

theorem position_defined (hcommon : common.Checks) (hreaders : readers.Checks) (json : Json) :
    ¬ Fails Fault.IsUndefined (PositionRecord.fromJson common readers json) := by
  simp only [PositionRecord.fromJson, fails_bind, hcommon.double, hcommon.string, hcommon.bool,
    hcommon.int64, hreaders.int, hreaders.enum, hreaders.stringAsInt64, hreaders.decimal,
    not_fails_pure, and_false, exists_false, or_false, not_false_eq_true]

theorem order_defined (hcommon : common.Checks) (hreaders : readers.Checks) (json : Json) :
    ¬ Fails Fault.IsUndefined (OrderResponse.fromJson common readers json) := by
  simp only [OrderResponse.fromJson, fails_bind, hcommon.double, hcommon.string, hcommon.bool,
    hcommon.int64, hreaders.enum, not_fails_pure, and_false, exists_false, or_false,
    not_false_eq_true]

theorem ticker_defined (hcommon : common.Checks) (hreaders : readers.Checks) (json : Json) :
    ¬ Fails Fault.IsUndefined (Ticker.fromJson common readers json) := by
  simp only [Ticker.fromJson, fails_bind, hcommon.double, hcommon.string, hreaders.stringAsInt64,
    not_fails_pure, and_false, exists_false, or_false, not_false_eq_true]

theorem fundingRate_defined (hcommon : common.Checks) (hreaders : readers.Checks)
    (json : Json) : ¬ Fails Fault.IsUndefined (FundingRate.fromJson common readers json) := by
  simp only [FundingRate.fromJson, fails_bind, hcommon.double, hcommon.string,
    hreaders.stringAsInt64, not_fails_pure, and_false, exists_false, or_false, not_false_eq_true]

theorem orderId_defined (hcommon : common.Checks) (json : Json) :
    ¬ Fails Fault.IsUndefined (OrderId.ofResult common json) := by
  simp only [OrderId.ofResult, fails_bind, hcommon.string, not_fails_pure, and_false,
    exists_false, or_false, not_false_eq_true]

theorem leverageFilter_defined (hcommon : common.Checks) (json : Json) :
    ¬ Fails Fault.IsUndefined (LeverageFilter.fromJson common json) := by
  simp only [LeverageFilter.fromJson, fails_bind, hcommon.double, not_fails_pure, and_false,
    exists_false, or_false, not_false_eq_true]

theorem priceFilter_defined (hcommon : common.Checks) (json : Json) :
    ¬ Fails Fault.IsUndefined (PriceFilter.fromJson common json) := by
  simp only [PriceFilter.fromJson, fails_bind, hcommon.double, not_fails_pure, and_false,
    exists_false, or_false, not_false_eq_true]

theorem lotSizeFilter_defined (hcommon : common.Checks) (json : Json) :
    ¬ Fails Fault.IsUndefined (LotSizeFilter.fromJson common json) := by
  simp only [LotSizeFilter.fromJson, fails_bind, hcommon.double, not_fails_pure, and_false,
    exists_false, or_false, not_false_eq_true]

theorem instrumentHead_defined (hcommon : common.Checks) (hreaders : readers.Checks)
    (json : Json) : ¬ Fails Fault.IsUndefined (Instrument.readHead common readers json) := by
  unfold Instrument.readHead
  repeat' refine not_fails_bind ?_ fun _ => ?_
  all_goals first
    | exact hcommon.double _ _ _
    | exact hcommon.string _ _ _
    | exact hcommon.bool _ _ _
    | exact hreaders.int _ _ _
    | exact hreaders.enum _ _ _ _
    | exact hreaders.stringAsInt64 _ _ _
    | exact hreaders.stringAsInt _ _ _
    | skip
  -- the leverage filter is looked up only when it is there
  dsimp only
  split
  · next hcontains =>
      apply not_fails_bind
      · simp [undefined_index_iff, hcontains]
      · intro filter
        exact not_fails_bind (leverageFilter_defined hcommon filter) fun _ => not_fails_pure _
  · exact not_fails_pure _

theorem undefined_account_iff (hcommon : common.Checks) (hreaders : readers.Checks)
    (row : Json) :
    Fails Fault.IsUndefined (AccountBalance.fromJson common readers row) ↔
      CoinsAbsent common readers row := by
  unfold AccountBalance.fromJson CoinsAbsent
  rw [fails_bind_of, or_iff_right (balanceFields_defined hcommon hreaders row),
    succeeds_balanceFields_iff, ← undefined_index_iff row "coin"]
  intro balance
  rw [fails_bind_of (Q := False), and_false, or_false]
  intro coin
  refine iff_of_false (not_fails_bind ?_ fun _ => not_fails_pure _) id
  exact not_fails_mapM (coin_defined hcommon) coin.items

/-- A filter that is taken without looking for it first, and what is read behind it. -/
theorem undefined_filter_iff {α β : Type} {row : Json} {key : String}
    {filter : Json → Except Fault α} {next : α → Except Fault β} {Q : Prop}
    (hfilter : ∀ json, ¬ Fails Fault.IsUndefined (filter json))
    (hnext : ∀ value, Fails Fault.IsUndefined (next value) ↔ Q) :
    Fails Fault.IsUndefined (row.index key >>= fun json => filter json >>= next) ↔
      row.isObject = true ∧ row.contains key = false ∨
        (row.contains key = true ∧ Succeeds (filter (row.memberOrNull key))) ∧ Q := by
  by_cases hcontains : row.contains key = true
  · rw [Json.index_of_contains hcontains]
    show Fails Fault.IsUndefined (filter _ >>= next) ↔ _
    rw [fails_bind_of hnext, or_iff_right (hfilter _)]
    simp [hcontains]
  · obtain ⟨fault, hfault⟩ :=
      Json.index_of_find?_none (Option.not_isSome_iff_eq_none.mp hcontains)
    rw [fails_bind, undefined_index_iff, hfault]
    simp [hcontains]

theorem undefined_instrument_iff (hcommon : common.Checks) (hreaders : readers.Checks)
    (row : Json) :
    Fails Fault.IsUndefined (Instrument.fromJson common readers.instruments row) ↔
      FiltersAbsent common readers row := by
  rw [Instrument.fromJson_eq, fails_bind_of,
    or_iff_right (instrumentHead_defined hcommon hreaders row), succeeds_instrumentHead_iff,
    FiltersAbsent]
  intro symbol
  rw [undefined_filter_iff (priceFilter_defined hcommon)
    (Q := row.isObject = true ∧ row.contains "lotSizeFilter" = false)]
  · rw [@succeeds_priceFilter_iff common readers, Instrument.PriceFilterReads]
    tauto
  · intro priceFilter
    rw [undefined_filter_iff (lotSizeFilter_defined hcommon)
      (fun _ => iff_of_false (not_fails_pure _) id), and_false, or_false]

/-! ### Candles -/

theorem undefined_column_iff {β : Type} {convert : String → Except Fault β}
    (hconvert : ∀ digits, ¬ Fails Fault.IsUndefined (convert digits)) (items : List Json)
    (i : Nat) :
    Fails Fault.IsUndefined (column convert (.array items) i) ↔ items.length ≤ i := by
  rcases column_array convert items i with ⟨hlength, hcolumn⟩ | ⟨item, hitem, hcolumn⟩
  · rw [hcolumn]
    exact iff_of_true (fails_error.mpr ⟨_, rfl⟩) hlength
  · have hlt := (List.getElem?_eq_some_iff.mp hitem).1
    rw [hcolumn]
    refine iff_of_false ?_ (not_le.mpr hlt)
    cases item with
    | string digits => exact hconvert digits
    | null | bool _ | integer _ | float _ | array _ | object _ =>
        exact fun h => not_undefined_json _ (fails_error.mp h)

/-- Columns that are taken one after the other, from one on: one is missing, behind
    those that are read. -/
def missing (size : Nat) (reads : Nat → Prop) : Nat → Nat → Prop
  | _, 0 => False
  | i, more + 1 => size ≤ i ∨ reads i ∧ missing size reads (i + 1) more

theorem missing_iff {size : Nat} {reads : Nat → Prop} {i : Nat} (more : Nat) (hi : i ≤ size) :
    missing size reads i more ↔ size < i + more ∧ ∀ j, i ≤ j → j < size → reads j := by
  induction more generalizing i with
  | zero => simp [missing]; omega
  | succ more ih =>
      rw [missing]
      by_cases hsize : i = size
      · subst hsize
        refine iff_of_true (.inl (le_refl _)) ⟨by omega, ?_⟩
        intro j hj hlt
        omega
      · rw [ih (by omega), or_iff_right (by omega)]
        constructor
        · rintro ⟨hreads, hlt, hrest⟩
          refine ⟨by omega, ?_⟩
          intro j hj hjlt
          rcases hj.eq_or_lt with rfl | hnext
          · exact hreads
          · exact hrest j hnext hjlt
        · rintro ⟨hlt, hall⟩
          exact ⟨hall i (le_refl _) (by omega), by omega, fun j hj => hall j (by omega)⟩

theorem undefined_column_bind_iff {β γ : Type} {convert : String → Except Fault β}
    {next : β → Except Fault γ} {items : List Json} {i more : Nat}
    (hconvert : ∀ digits, ¬ Fails Fault.IsUndefined (convert digits))
    (hcolumn : Succeeds (column convert (.array items) i) ↔ ColumnReads readers items i)
    (hnext : ∀ value, Fails Fault.IsUndefined (next value) ↔
      missing items.length (ColumnReads readers items) (i + 1) more) :
    Fails Fault.IsUndefined (column convert (.array items) i >>= next) ↔
      missing items.length (ColumnReads readers items) i (more + 1) := by
  rw [fails_bind_of hnext, undefined_column_iff hconvert, hcolumn, missing]

theorem stollOrThrow_defined (digits : String) :
    ¬ Fails Fault.IsUndefined (stollOrThrow digits) := by
  unfold stollOrThrow
  split
  · exact not_fails_ok _
  · rintro ⟨fault, hfault, what, rfl⟩
    cases hfault

theorem undefined_candle_iff (hreaders : readers.Checks) (row : Json) :
    Fails Fault.IsUndefined (Candle.fromJson readers row) ↔ ShortCandle readers row := by
  have hstod := fun digits => not_undefined_of_ne (hreaders.stod digits)
  cases row with
  | array items =>
      have hmissing : Fails Fault.IsUndefined (Candle.fromJson readers (.array items)) ↔
          missing items.length (ColumnReads readers items) 0 7 := by
        unfold Candle.fromJson
        refine undefined_column_bind_iff stollOrThrow_defined (succeeds_startTime_iff items)
          fun startTime => ?_
        iterate 6
          refine undefined_column_bind_iff hstod (succeeds_value_iff items (by decide))
            fun _ => ?_
        exact iff_of_false (not_fails_pure _) id
      rw [hmissing, missing_iff 7 (Nat.zero_le _), ShortCandle]
      constructor
      · rintro ⟨hlength, hreads⟩
        exact ⟨items, rfl, by omega, fun i hi => hreads i (Nat.zero_le i) hi⟩
      · rintro ⟨items', hrow, hlength, hreads⟩
        obtain rfl := Json.array.inj hrow
        exact ⟨by omega, fun i _ hi => hreads i hi⟩
  | null | bool _ | integer _ | float _ | string _ | object _ =>
      refine iff_of_false ?_ ?_
      · exact fun h => not_undefined_json _ (fails_error.mp h)
      · rintro ⟨items, hrow, -⟩
        cases hrow

/-! ### Calls -/

/-- What a decoder of a reply runs into, it runs into in the result. -/
theorem undefined_reply_iff (hcommon : common.Checks) (hreaders : readers.Checks)
    (type : ReplyType) (json : Json) :
    Fails Fault.IsUndefined (type.fromJson common readers json) ↔
      EnvelopeReads common readers json ∧
        Fails Fault.IsUndefined (type.ofResult common readers (json.memberOrNull "result")) :=
  fails_readReply (fun _ => hreaders.int _ _ _) (fun _ => hcommon.string _ _ _)
    (fun _ => hcommon.int64 _ _ _)

/-- One field of a result, then the others and its rows. -/
theorem undefined_reading {α β : Type} {reading : Except Fault α} {next : α → Except Fault β}
    {result : Json} {field : Field} {fields : List Field} {Q : Prop}
    (hreading : field.Reads common readers result = Succeeds reading)
    (hdefined : ¬ Fails Fault.IsUndefined reading)
    (hnext : ∀ value, Fails Fault.IsUndefined (next value) ↔
      FieldsRead common readers result fields ∧ Q) :
    Fails Fault.IsUndefined (reading >>= next) ↔
      FieldsRead common readers result (field :: fields) ∧ Q := by
  rw [fails_bind_of hnext, or_iff_right hdefined, ← hreading, FieldsRead, FieldsRead,
    List.forall_mem_cons, and_assoc]

/-- A list of rows, with nothing behind it that can run into undefined behaviour. -/
theorem undefined_list_iff {α β : Type} {element : Json → Except Fault α}
    {next : List α → Except Fault β} {RowReads Bad : Json → Prop}
    (hreads : ∀ row, Succeeds (element row) ↔ RowReads row)
    (hbad : ∀ row, Fails Fault.IsUndefined (element row) ↔ Bad row)
    (hnext : ∀ rows, ¬ Fails Fault.IsUndefined (next rows)) (result : Json) :
    Fails Fault.IsUndefined (readList element result >>= next) ↔
      FieldsRead common readers result [] ∧ Reaches RowReads Bad result.rows := by
  rw [fails_bind_of (fun rows => iff_of_false (hnext rows) id), and_false, or_false,
    fails_readList not_undefined_json, and_iff_right fieldsRead_nil]
  simp only [hreads, hbad]

/-- Rows that cannot run into undefined behaviour. -/
theorem list_defined {α β : Type} {element : Json → Except Fault α}
    {next : List α → Except Fault β} (helement : ∀ row, ¬ Fails Fault.IsUndefined (element row))
    (hnext : ∀ rows, ¬ Fails Fault.IsUndefined (next rows)) (result : Json) :
    ¬ Fails Fault.IsUndefined (readList element result >>= next) := by
  refine not_fails_bind ?_ hnext
  rw [fails_readList not_undefined_json]
  rintro ⟨before, row, after, -, -, hrow⟩
  exact helement row hrow

theorem undefined_ofResult_iff (hcommon : common.Checks) (hreaders : readers.Checks)
    (type : ReplyType) (result : Json) :
    Fails Fault.IsUndefined (type.ofResult common readers result) ↔
      type.TakesAbsent common readers result := by
  have hcategory : ¬ Fails Fault.IsUndefined (readCategory readers result) :=
    hreaders.enum _ _ _ _
  cases type with
  | Candles =>
      refine undefined_reading rfl (hcommon.string _ _ _) fun symbol => ?_
      refine undefined_reading rfl hcategory fun category => ?_
      exact undefined_list_iff (fun _ => succeeds_candle_iff) (undefined_candle_iff hreaders)
        (fun _ => not_fails_pure _) result
  | Instruments =>
      refine undefined_reading rfl hcategory fun category => ?_
      refine undefined_reading rfl (hcommon.string _ _ _) fun nextPageCursor => ?_
      exact undefined_list_iff (fun _ => succeeds_instrument_iff)
        (undefined_instrument_iff hcommon hreaders) (fun _ => not_fails_pure _) result
  | WalletBalance =>
      have hlist : Fails Fault.IsUndefined (WalletBalance.ofResult common readers result) ↔
          FieldsRead common readers result [] ∧ Reaches (AccountBalance.Reads common readers)
            (CoinsAbsent common readers) result.rows :=
        undefined_list_iff (fun _ => succeeds_account_iff)
          (undefined_account_iff hcommon hreaders) (fun _ => not_fails_pure _) result
      exact hlist.trans (and_iff_right fieldsRead_nil)
  | FundingRates =>
      refine iff_of_false (not_fails_bind hcategory fun category => ?_) id
      exact list_defined (fundingRate_defined hcommon hreaders) (fun _ => not_fails_pure _) result
  | Positions =>
      refine iff_of_false (not_fails_bind hcategory fun category => ?_) id
      exact list_defined (position_defined hcommon hreaders) (fun _ => not_fails_pure _) result
  | OrdersResponse =>
      refine iff_of_false (not_fails_bind hcategory fun category => ?_) id
      exact list_defined (order_defined hcommon hreaders) (fun _ => not_fails_pure _) result
  | Tickers =>
      refine iff_of_false (not_fails_bind hcategory fun category => ?_) id
      exact list_defined (ticker_defined hcommon hreaders) (fun _ => not_fails_pure _) result
  | OrderId => exact iff_of_false (orderId_defined hcommon result) id
  | ServerTime =>
      refine iff_of_false (not_fails_bind (hreaders.stringAsInt64 _ _ _) fun timeSecond => ?_) id
      exact not_fails_bind (hreaders.stringAsInt64 _ _ _) fun timeNano => not_fails_pure _
  | Response => exact iff_of_false (not_fails_pure _) id

/-- Of the replies that are decoded for each cancelled order, only the result has something
    in it. -/
theorem undefined_cancelledOrderIds_iff (hcommon : common.Checks) (hreaders : readers.Checks)
    (res : Json) :
    Fails Fault.IsUndefined (cancelledOrderIds common readers res) ↔
      RestCall.cancelAllOrders.TakesAbsent common readers res := by
  unfold cancelledOrderIds RestCall.TakesAbsent
  rw [fails_bind_of (Q := False), and_false, or_false, undefined_index_iff]
  intro list
  refine iff_of_false (not_fails_mapM ?_ _) id
  intro el
  apply not_fails_bind
  · rw [Response.fromJson_eq]
    repeat' refine not_fails_bind ?_ fun _ => ?_
    all_goals first
      | exact hreaders.int _ _ _
      | exact hcommon.string _ _ _
      | exact hcommon.int64 _ _ _
      | exact not_fails_pure _
  · exact fun oid => orderId_defined hcommon el

theorem undefined_cancelAllOrders_iff (hcommon : common.Checks) (hreaders : readers.Checks)
    {json : Json} (hcode : readers.readInt json "retCode" 0 = .ok 0) :
    Fails Fault.IsUndefined (cancelAllOrders common readers json) ↔
      EnvelopeReads common readers json ∧
        RestCall.cancelAllOrders.TakesAbsent common readers (json.memberOrNull "result") := by
  rw [← undefined_cancelledOrderIds_iff hcommon hreaders]
  unfold cancelAllOrders
  rw [fails_bind, or_iff_right]
  · have hloop : ∀ res : Json,
        Fails Fault.IsUndefined (cancelledOrderIds common readers res >>= fun orderIds =>
          pure (.ok orderIds : Except ApiError (List OrderId))) ↔
        Fails Fault.IsUndefined (cancelledOrderIds common readers res) := by
      intro res
      rw [fails_bind_of (fun _ => iff_of_false (not_fails_pure _) id), and_false, or_false]
    constructor
    · rintro ⟨⟨envelope, _⟩, hread, hfails⟩
      obtain ⟨hretCode, hmsg, htime, -, hresult, -⟩ := readReply_eq_ok.mp hread
      rw [hcode, Except.ok.injEq] at hretCode
      dsimp only at hfails
      rw [if_neg (by simp [← hretCode]), hloop, ← hresult] at hfails
      exact ⟨⟨⟨0, hcode⟩, ⟨_, hmsg⟩, ⟨_, htime⟩⟩, hfails⟩
    · rintro ⟨⟨-, ⟨retMsg, hmsg⟩, ⟨time, htime⟩⟩, hfails⟩
      refine ⟨({ retCode := 0, retMsg, retExtInfo := json.memberOrNull "retExtInfo", time,
                 result := json.memberOrNull "result" }, ()), ?_, ?_⟩
      · exact readReply_eq_ok.mpr ⟨hcode, hmsg, htime, rfl, rfl, rfl⟩
      · exact (hloop _).mpr hfails
  · rw [undefined_reply_iff hcommon hreaders]
    rintro ⟨-, h⟩
    exact not_fails_pure _ h

/-- `getInstrumentsInfo` decodes its pages with the same decoder. -/
theorem instruments_fromJson_eq (json : Json) :
    Instruments.fromJson common readers.instruments json =
      ReplyType.Instruments.fromJson common readers json := by
  show _ = readReply common readers (Instruments.ofResult common readers) json
  simp only [Instruments.fromJson, readReply, Instruments.ofResult, readList, bind_assoc, pure_bind]
  rfl

/-- **When decoding is defined.**  On a reply that reports success, each of the calls gives a
    value or throws, unless the envelope reads and what comes next in the result takes
    something that is not there. -/
theorem decoders_defined_iff (hcommon : common.Checks) (hreaders : readers.Checks)
    (hint : readers.ReadsInt) (call : RestCall) {json : Json}
    (hcode : json.find? "retCode" = some (.integer 0)) :
    ¬ call.RunsUndefined common readers json ↔
      (EnvelopeReads common readers json →
        ¬ call.TakesAbsent common readers (json.memberOrNull "result")) := by
  rw [← not_and, not_iff_not]
  have hreply : ∀ type : ReplyType,
      Fails Fault.IsUndefined (type.fromJson common readers json) ↔
        EnvelopeReads common readers json ∧
          type.TakesAbsent common readers (json.memberOrNull "result") := by
    intro type
    rw [undefined_reply_iff hcommon hreaders, undefined_ofResult_iff hcommon hreaders]
  cases call with
  | getHistoricalPrices => exact hreply .Candles
  | getWalletBalance => exact hreply .WalletBalance
  | getPositionInfo => exact hreply .Positions
  | getInstrumentsInfo =>
      rw [RestCall.RunsUndefined, instruments_fromJson_eq]
      exact hreply .Instruments
  | cancelAllOrders =>
      exact undefined_cancelAllOrders_iff hcommon hreaders
        (hint 0 hcode (by decide) (by decide))

namespace ReplyReaders

variable (number : Json → Option Double)

theorem documented_checks : (documented number).Checks where
  readInt json key current what := by
    simp only [documented, InstrumentReaders.documented]
    split <;> simp
  readMagicEnum enumCast? json key current what := by
    simp only [documented, BybitApi.readMagicEnum]
    split
    · simp
    · split <;> simp
    · simp
  readStringAsInt64 json key default what := by
    simp only [documented, readStringAsInteger]
    split
    · simp
    · split <;> simp
    · simp
  readStringAsInt json key default what := by
    simp only [documented, readStringAsInteger]
    split
    · simp
    · split <;> simp
    · simp
  assignDecimal digits what := by
    simp only [documented, PositionReaders.documented]
    split <;> simp
  stod digits what := by
    simp only [documented]
    split <;> simp

theorem documented_readsInt : (documented number).ReadsInt := by
  intro json key value current h _ _
  simp [documented, InstrumentReaders.documented, h]

end ReplyReaders

/-- A page of candles, each a row of texts. -/
def candlesReply (rows : List (List String)) : Json :=
  .object [("result", .object [("list", .array (rows.map fun row => .array (row.map .string)))]),
    ("retCode", .integer 0)]

/-- A candle whose turnover is missing. -/
def shortCandle : List String := ["1700000000000", "10", "10", "10", "10", "1"]

theorem decoders_defined_iff_wholeCandle :
    ¬ RestCall.getHistoricalPrices.RunsUndefined (.documented sizeNumber)
      (.documented sizeNumber) (candlesReply [shortCandle ++ ["10"]]) := by
  refine (decoders_defined_iff (VkCommon.documented_checks _) (ReplyReaders.documented_checks _)
    (ReplyReaders.documented_readsInt _) .getHistoricalPrices rfl).mpr ?_
  rintro - ⟨-, before, row, after, hrows, -, items, rfl, hlength, -⟩
  have hmem : Json.array items ∈
      ((candlesReply [shortCandle ++ ["10"]]).memberOrNull "result").rows := by
    rw [hrows]
    exact List.mem_append_right _ List.mem_cons_self
  obtain rfl := Json.array.inj (List.mem_singleton.mp hmem)
  exact absurd hlength (by decide)

/-- **Short candles.**  Decoding a successful reply can be undefined behaviour. -/
theorem short_candle_is_undefined :
    ¬ ∀ (common : VkCommon) (readers : ReplyReaders), common.Checks → readers.Checks →
      readers.ReadsInt → ∀ (call : RestCall) (json : Json),
        json.find? "retCode" = some (.integer 0) → ¬ call.RunsUndefined common readers json := by
  intro h
  refine h (.documented sizeNumber) (.documented sizeNumber)
    (VkCommon.documented_checks _) (ReplyReaders.documented_checks _)
    (ReplyReaders.documented_readsInt _) .getHistoricalPrices (candlesReply [shortCandle]) rfl ?_
  exact ⟨_, rfl, _, rfl⟩

end BybitApi
