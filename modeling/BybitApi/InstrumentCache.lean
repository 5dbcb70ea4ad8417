import BybitApi.Instruments

/-!
# The instrument cache

A client keeps one table, whatever category and symbol it was downloaded for,
and answers every unforced call from it.  Against an exchange whose tables do not
change, a call is answered like on a fresh client exactly when it downloads or
the table kept happens to be the one asked for (`calls_fresh_iff`); asking for
another category is enough to get the wrong table (`cache_not_transparent`).
-/

namespace BybitApi

/-- A call that consults the instrument table: a caller's own, or the one that
    `placeOrder` makes to find the steps of an order. -/
inductive InstrumentCall where
  | info (category : Category) (symbol : String) (force : Bool)
  | placeOrder (category : Category) (symbol : String)
deriving DecidableEq, Repr

/-- The category and the symbol for which the table is consulted. -/
def InstrumentCall.key : InstrumentCall → Category × String
  | .info category symbol _ => (category, symbol)
  | .placeOrder category _ => (category, "")

def InstrumentCall.force : InstrumentCall → Bool
  | .info _ _ force => force
  | .placeOrder _ _ => false

section Calls

variable (exchange : Parameters → Except ApiError Instruments)

/-- The table that a call gets from `getInstrumentsInfo`. -/
def InstrumentCall.consult (fuel : Nat) (client : RestClient) (call : InstrumentCall) :
    Option (Except ApiError (List Instrument) × RestClient) :=
  getInstrumentsInfo (fun _ => exchange) fuel client call.key.1 call.key.2 call.force

/-- The tables that a sequence of calls on one client gets. -/
def runCalls (fuel : Nat) : RestClient → List InstrumentCall →
    Option (List (Except ApiError (List Instrument)))
  | _, [] => some []
  | client, call :: calls =>
      match call.consult exchange fuel client with
      | none => none
      | some (result, client') =>
          match runCalls fuel client' calls with
          | none => none
          | some results => some (result :: results)

/-- The table that the call would get from a fresh client. -/
def freshResult (fuel : Nat) (call : InstrumentCall) :
    Option (Except ApiError (List Instrument)) :=
  (call.consult exchange fuel {}).map Prod.fst

/-- Downloading the table of a category and a symbol ends, with `table` or with the
    exception that stands in its place. -/
def Lists (table : Category × String → Except ApiError (List Instrument)) : Prop :=
  ∀ key, ∃ result, result.map InstrumentsDownload.temp = table key ∧ ∃ fuel,
    downloadInstruments (fun _ => exchange) key.1 key.2 fuel = some result

end Calls

/-- An order takes its steps from the table that its call consults. -/
theorem placeOrderSteps_eq (exchange : Parameters → Except ApiError Instruments) (fuel : Nat)
    (client : RestClient) (category : Category) (symbol : String) :
    placeOrderSteps (fun _ => exchange) fuel client category symbol =
      ((InstrumentCall.placeOrder category symbol).consult exchange fuel client).map
        fun (result, client) =>
          (result.map fun symbols => findPriceSteps symbols symbol (1 / 100) (1 / 100),
            client) := by
  unfold placeOrderSteps InstrumentCall.consult
  simp only [InstrumentCall.key, InstrumentCall.force]
  rcases getInstrumentsInfo (fun _ => exchange) fuel client category "" false with _ | ⟨result, _⟩
  · rfl
  · cases result <;> rfl

/-! ### Which calls are answered right -/

/-- The table kept after a download; one that fails changes nothing. -/
def keptAfter (kept : List Instrument) : Except ApiError (List Instrument) → List Instrument
  | .ok table => table
  | .error _ => kept

/-- Every call that is answered from the table kept asks for a category and a symbol
    with that very table. -/
def HitsAgree (table : Category × String → Except ApiError (List Instrument)) :
    List Instrument → List InstrumentCall → Prop
  | _, [] => True
  | kept, call :: calls =>
      if kept = [] ∨ call.force = true then HitsAgree table (keptAfter kept (table call.key)) calls
      else table call.key = .ok kept ∧ HitsAgree table kept calls

/-! ### Calls with enough fuel -/

section Transparency

variable {exchange : Parameters → Except ApiError Instruments}
  {table : Category × String → Except ApiError (List Instrument)}

theorem downloadInstruments_eventually (hlists : Lists exchange table)
    (key : Category × String) :
    ∃ result, result.map InstrumentsDownload.temp = table key ∧ ∃ enough, ∀ fuel, enough ≤ fuel →
      downloadInstruments (fun _ => exchange) key.1 key.2 fuel = some result := by
  obtain ⟨result, htable, fuel, hrun⟩ := hlists key
  exact ⟨result, htable, Loop.Returns.eventually ⟨fuel, hrun⟩⟩

/-- A call gets the table asked for if it downloads, and the table kept if it does
    not. -/
theorem consult_eventually (hlists : Lists exchange table) (call : InstrumentCall)
    (kept : List Instrument) :
    ∃ enough, ∀ fuel, enough ≤ fuel →
      call.consult exchange fuel { instruments := kept } =
        if kept = [] ∨ call.force = true then
          some (table call.key, { instruments := keptAfter kept (table call.key) })
        else some (.ok kept, { instruments := kept }) := by
  obtain ⟨result, htable, enough, hdownload⟩ := downloadInstruments_eventually hlists call.key
  refine ⟨enough, ?_⟩
  intro fuel hle
  by_cases hload : kept = [] ∨ call.force = true
  · have hload' : (kept.isEmpty || call.force) = true := by
      simpa using hload
    rw [if_pos hload, ← htable]
    simp only [InstrumentCall.consult, getInstrumentsInfo, hload', if_true, hdownload fuel hle]
    cases result <;> rfl
  · have hload' : (kept.isEmpty || call.force) = false := by
      simpa using hload
    rw [if_neg hload]
    simp only [InstrumentCall.consult, getInstrumentsInfo, hload', Bool.false_eq_true, if_false]

theorem freshResult_eventually (hlists : Lists exchange table) (call : InstrumentCall) :
    ∃ enough, ∀ fuel, enough ≤ fuel →
      freshResult exchange fuel call = some (table call.key) := by
  obtain ⟨enough, hconsult⟩ := consult_eventually hlists call []
  refine ⟨enough, ?_⟩
  intro fuel hle
  have hcall := hconsult fuel hle
  rw [if_pos (Or.inl rfl)] at hcall
  simp only [freshResult, hcall, Option.map_some]

theorem runCalls_eventually (hlists : Lists exchange table) (calls : List InstrumentCall)
    (kept : List Instrument) :
    ∃ results, (∃ enough, ∀ fuel, enough ≤ fuel →
      runCalls exchange fuel { instruments := kept } calls = some results) ∧
      (results = calls.map (fun call => table call.key) ↔ HitsAgree table kept calls) := by
  induction calls generalizing kept with
  | nil => exact ⟨[], ⟨0, fun _ _ => rfl⟩, by simp [HitsAgree]⟩
  | cons call calls ih =>
      obtain ⟨enough, hcall⟩ := consult_eventually hlists call kept
      by_cases hload : kept = [] ∨ call.force = true
      · obtain ⟨results, ⟨enough', hrest⟩, hiff⟩ := ih (keptAfter kept (table call.key))
        refine ⟨table call.key :: results, ⟨max enough enough', ?_⟩, ?_⟩
        · intro fuel hle
          rcases max_le_iff.mp hle with ⟨hcallLe, hrestLe⟩
          simp only [runCalls, hcall fuel hcallLe, if_pos hload, hrest fuel hrestLe]
        · rw [HitsAgree, if_pos hload, ← hiff]
          simp
      · obtain ⟨results, ⟨enough', hrest⟩, hiff⟩ := ih kept
        refine ⟨.ok kept :: results, ⟨max enough enough', ?_⟩, ?_⟩
        · intro fuel hle
          rcases max_le_iff.mp hle with ⟨hcallLe, hrestLe⟩
          simp only [runCalls, hcall fuel hcallLe, if_neg hload, hrest fuel hrestLe]
        · rw [HitsAgree, if_neg hload, ← hiff, List.map_cons, List.cons.injEq]
          exact and_congr_left fun _ => eq_comm

theorem freshResults_eventually (hlists : Lists exchange table) (calls : List InstrumentCall) :
    ∃ enough, ∀ fuel, enough ≤ fuel → calls.map (freshResult exchange fuel) =
      (calls.map fun call => table call.key).map some := by
  induction calls with
  | nil => exact ⟨0, fun _ _ => rfl⟩
  | cons call calls ih =>
      obtain ⟨first, hfirst⟩ := freshResult_eventually hlists call
      rcases ih with ⟨rest, hrest⟩
      refine ⟨max first rest, ?_⟩
      intro fuel hle
      rcases max_le_iff.mp hle with ⟨hfirstLe, hrestLe⟩
      simp only [List.map_cons, hfirst fuel hfirstLe, hrest fuel hrestLe]

/-- Against fresh clients, only the tables themselves have to be compared. -/
theorem fresh_iff_tables {calls : List InstrumentCall}
    {results : List (Except ApiError (List Instrument))} {fuel : Nat}
    (hrun : runCalls exchange fuel {} calls = some results)
    (hfresh : calls.map (freshResult exchange fuel) =
      (calls.map fun call => table call.key).map some) :
    (runCalls exchange fuel {} calls).map (List.map some) =
        some (calls.map (freshResult exchange fuel)) ↔
      results = calls.map fun call => table call.key := by
  rw [hrun, hfresh, Option.map_some, Option.some.injEq]
  exact (List.map_injective_iff.mpr (Option.some_injective _)).eq_iff

/-- **When the cache is transparent.**  Against an exchange with fixed tables,
    every call of a sequence on one client gets what a fresh client would get for
    it, if and only if the calls answered from the table kept ask for that very
    table. -/
theorem calls_fresh_iff (exchange : Parameters → Except ApiError Instruments)
    (table : Category × String → Except ApiError (List Instrument))
    (hlists : Lists exchange table) (calls : List InstrumentCall) :
    ∃ enough, ∀ fuel, enough ≤ fuel →
      ((runCalls exchange fuel {} calls).map (List.map some) =
          some (calls.map (freshResult exchange fuel)) ↔
        HitsAgree table [] calls) := by
  obtain ⟨results, ⟨enough, hrun⟩, hiff⟩ := runCalls_eventually hlists calls []
  obtain ⟨enough', hfresh⟩ := freshResults_eventually hlists calls
  refine ⟨max enough enough', ?_⟩
  intro fuel hle
  rcases max_le_iff.mp hle with ⟨hrunLe, hfreshLe⟩
  rw [fresh_iff_tables (hrun fuel hrunLe) (hfresh fuel hfreshLe), hiff]

end Transparency

/-! ### Two categories -/

def listed (symbol : String) (tickSize qtyStep : Double) : Instrument :=
  { symbol := symbol
    priceFilter := { minPrice := tickSize, maxPrice := 1000000, tickSize := tickSize }
    lotSizeFilter := { maxOrderQty := 100, minOrderQty := qtyStep, qtyStep := qtyStep,
                       postOnlyMaxTradingQty := 100 } }

/-- The tables of an exchange that trades one pair, with different steps in
    different categories. -/
def pairInstruments (linear : Bool) : List Instrument :=
  if linear then [listed "BTCUSDT" (1 / 10) (1 / 1000)]
  else [listed "BTCUSDT" (1 / 100) (1 / 1000000)]

def pairTable (key : Category × String) : Except ApiError (List Instrument) :=
  .ok (pairInstruments (key.1 = .linear))

/-- It answers with the whole table on one page. -/
def pairExchange (parameters : Parameters) : Except ApiError Instruments :=
  .ok { instruments := pairInstruments (parameters["category"]? = some "linear")
        nextPageCursor := "" }

theorem pairExchange_lists : Lists pairExchange pairTable := by
  rintro ⟨category, symbol⟩
  have hcategory : (instrumentsParameters category symbol "")["category"]? =
      some category.enumName := by
    simp only [instrumentsParameters, ne_eq, not_true_eq_false, if_false]
    split
    · rw [Std.ExtTreeMap.getElem?_insert, if_neg (by decide),
        Std.ExtTreeMap.getElem?_insert_self]
    · rw [Std.ExtTreeMap.getElem?_insert_self]
  have hpass : instrumentsPass (fun _ => pairExchange) category symbol
      { cursor := "", temp := [], sent := [] } =
        .exit (.ok
          { cursor := "", temp := pairInstruments (category = .linear), sent := [""] }) := by
    cases category <;> simp [instrumentsPass, pairExchange, hcategory, Category.enumName]
  exact ⟨_, rfl, 1, Loop.run_exit hpass 0⟩

theorem calls_fresh_iff_pair :
    ∃ enough, ∀ fuel, enough ≤ fuel →
      ((runCalls pairExchange fuel {} [.info .linear "" false, .placeOrder .linear "BTCUSDT"]).map
          (List.map some) =
        some ([InstrumentCall.info .linear "" false, .placeOrder .linear "BTCUSDT"].map
          (freshResult pairExchange fuel)) ↔
        HitsAgree pairTable []
          [.info .linear "" false, .placeOrder .linear "BTCUSDT"]) :=
  calls_fresh_iff pairExchange pairTable pairExchange_lists _

def mixedCalls : List InstrumentCall :=
  [.info .linear "" false, .info .spot "" false, .placeOrder .spot "BTCUSDT"]

/-- **The cache is not transparent.**  After the linear table has been
    downloaded, the spot table asked for is answered with the linear one, and an
    order in the spot category takes the steps of the linear one. -/
theorem cache_not_transparent :
    ¬ ∀ (exchange : Parameters → Except ApiError Instruments)
        (table : Category × String → Except ApiError (List Instrument)), Lists exchange table →
      ∀ calls, ∃ enough, ∀ fuel, enough ≤ fuel →
        (runCalls exchange fuel {} calls).map (List.map some) =
          some (calls.map (freshResult exchange fuel)) := by
  intro h
  obtain ⟨enough, hall⟩ := h pairExchange pairTable pairExchange_lists mixedCalls
  obtain ⟨results, ⟨enough₁, hrun⟩, hiff⟩ := runCalls_eventually pairExchange_lists mixedCalls []
  obtain ⟨enough₂, hfresh⟩ := freshResults_eventually pairExchange_lists mixedCalls
  have hrun' := hrun (max enough (max enough₁ enough₂)) (by omega)
  have hfresh' := hfresh (max enough (max enough₁ enough₂)) (by omega)
  have hagree := hiff.mp ((fresh_iff_tables hrun' hfresh').mp (hall _ (by omega)))
  simp [mixedCalls, HitsAgree, keptAfter, InstrumentCall.key, InstrumentCall.force, pairTable,
    pairInstruments, listed] at hagree

end BybitApi
