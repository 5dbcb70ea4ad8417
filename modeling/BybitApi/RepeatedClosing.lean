import BybitApi.ClosePositions
import BybitApi.Machine

/-!
# Closing once more

`closeAllPositions` throws at the first order that fails, and what became of an order
without a reply it cannot know.  It looks at the positions anew whenever it is called, so it
can be called again: whichever orders are rejected or lost on the way, each position stays
as it was or is closed, none is turned round, and after a call that returns all of them are
closed (`repeated_closing`).
-/

namespace BybitApi

/-- What becomes of an order that is posted. -/
inductive OrderFate where
  | accepted (id : OrderId)
  | rejected (retCode : Int) (retMsg : String)
  /-- No reply comes back. -/
  | lost (applied : Bool)
deriving DecidableEq, Repr

namespace OrderFate

def answer : OrderFate → Except ApiError OrderId
  | accepted id => .ok id
  | rejected retCode retMsg => .error (.api retCode retMsg)
  | lost _ => .error (.transport "no reply")

def applied : OrderFate → Bool
  | accepted _ => true
  | rejected _ _ => false
  | lost applied => applied

end OrderFate

/-- A call of `closeAllPositions`, with what the exchange answers in it. -/
structure ClosingCall where
  category : Category
  reported : Except ApiError (List Json)
  /-- What becomes of the orders of the call, by their number. -/
  fates : Nat → OrderFate
  endpoint : Endpoint Instruments
  fuel : Nat

/-- A client, and what is held at the exchange. -/
structure ClosingState where
  client : RestClient
  holdings : Holdings

/-- What tells the positions of a category apart. -/
def ReportedPosition.slot (position : ReportedPosition) : String × Int :=
  (position.symbol, position.positionIdx)

/-- The orders that the exchange applies, of those that are posted from number `n` on. -/
def appliedFrom (fates : Nat → OrderFate) (n : Nat) (posted : List (Order × Json)) :
    List OrderRequest :=
  (posted.zipIdx n).filterMap fun order =>
    if (fates order.2).applied then readOrder order.1.2 else none

namespace ClosingState

section Step

variable (common : VkCommon) (readers : PositionReaders) (format : OrderFormat)

/-- The call itself. -/
def closing (s : ClosingState) (call : ClosingCall) :
    Option (Except ApiError Unit × OrderClient) :=
  closeAllPositions common readers format call.endpoint (fun k _ => (call.fates k).answer)
    (fun _ => call.reported) call.fuel s.client call.category

def step (s : ClosingState) (call : ClosingCall) : Option ClosingState :=
  match closing common readers format s call with
  | none => none
  | some (_, after) =>
      some
        { client := after.client
          holdings := (appliedFrom call.fates 0 after.posted).foldl applyOrder s.holdings }

/-- The call has returned, and has not thrown. -/
def Returned (s : ClosingState) (call : ClosingCall) : Prop :=
  ∃ after, closing common readers format s call = some (.ok (), after)

/-- The positions are reported as they are, one for each symbol and index, and can be
    closed. -/
def Reported (round : Rat → Double) (rule : Rat → Int) (s : ClosingState) (call : ClosingCall) :
    Prop :=
  ∀ reported, call.reported = .ok reported →
    ∃ positions, List.Forall₂ Reports reported positions ∧
      (positions.map ReportedPosition.slot).Nodup ∧
      Holds s.holdings call.category positions ∧
      ∀ position ∈ positions, position.size ≠ 0 →
        Closable common format round rule
          (instrumentTable call.endpoint call.fuel s.client .linear) call.category position

end Step

end ClosingState

/-! ### The orders that are applied -/

section Applying

variable {fates : Nat → OrderFate} {posted : List (Order × Json)} {requests : List OrderRequest}

theorem appliedFrom_sublist (h : posted.map (fun order => readOrder order.2) = requests.map some)
    (n : Nat) : (appliedFrom fates n posted).Sublist requests := by
  induction posted generalizing requests n with
  | nil =>
      rw [List.map_eq_nil_iff.mp h.symm]
      exact List.Sublist.refl _
  | cons order posted ih =>
      obtain ⟨request, rest, rfl, hrequest, hrest⟩ := List.map_eq_cons_iff.mp h.symm
      have hsub := ih hrest.symm (n + 1)
      have hread : readOrder order.2 = some request := hrequest.symm
      rw [appliedFrom, List.zipIdx_cons, List.filterMap_cons]
      cases (fates n).applied with
      | true =>
          simp only [if_true, hread]
          exact hsub.cons_cons request
      | false =>
          simp only [Bool.false_eq_true, if_false]
          exact hsub.cons request

theorem appliedFrom_eq (h : posted.map (fun order => readOrder order.2) = requests.map some)
    {n : Nat} (hfates : ∀ k, n ≤ k → k < n + posted.length → (fates k).applied = true) :
    appliedFrom fates n posted = requests := by
  induction posted generalizing requests n with
  | nil =>
      rw [List.map_eq_nil_iff.mp h.symm]
      rfl
  | cons order posted ih =>
      obtain ⟨request, rest, rfl, hrequest, hrest⟩ := List.map_eq_cons_iff.mp h.symm
      have hread : readOrder order.2 = some request := hrequest.symm
      have happlied : (fates n).applied = true := by
        apply hfates n (Nat.le_refl n)
        rw [List.length_cons]
        omega
      have htail : appliedFrom fates (n + 1) posted = rest := by
        apply ih hrest.symm
        intro k hle hlt
        apply hfates k (by omega)
        rw [List.length_cons]
        omega
      rw [appliedFrom, List.zipIdx_cons, List.filterMap_cons]
      simp only [happlied, if_true, hread]
      exact congrArg (List.cons request) htail

/-- Of values under distinct keys one is found. -/
theorem sum_map_of_nodup {α κ : Type} [DecidableEq κ] {key : α → κ} {items : List α}
    (hnodup : (items.map key).Nodup) (value : α → Rat) {item : α} (hitem : item ∈ items) :
    (items.map fun other => if key item = key other then value other else 0).sum = value item := by
  induction items with
  | nil => cases hitem
  | cons first items ih =>
      obtain ⟨hfirst, hrest⟩ := List.nodup_cons.mp hnodup
      rw [List.map_cons, List.sum_cons]
      rcases List.mem_cons.mp hitem with rfl | hitem
      · have hzero : (items.map fun other => if key item = key other then value other else 0) =
            items.map fun _ => 0 := by
          apply List.map_congr_left
          intro other hother
          apply if_neg
          intro hkey
          exact hfirst (hkey ▸ List.mem_map_of_mem hother)
        rw [if_pos rfl, hzero]
        simp
      · have hne : key item ≠ key first := by
          intro hkey
          exact hfirst (hkey ▸ List.mem_map_of_mem hitem)
        rw [if_neg hne, zero_add, ih hrest hitem]

end Applying

/-! ### What is held afterwards -/

section Holding

variable {holdings : Holdings} {category : Category} {positions : List ReportedPosition}

/-- What is held of a position that is the only one of its symbol and index. -/
theorem held_of_nodup (hholds : Holds holdings category positions)
    (hnodup : (positions.map ReportedPosition.slot).Nodup) {position : ReportedPosition}
    (hposition : position ∈ positions) :
    holdings (category, position.symbol, position.positionIdx) =
      signed position.side position.size := by
  have hsum := sum_map_of_nodup hnodup (fun other => signed other.side other.size) hposition
  rw [hholds, ← hsum]
  refine congrArg List.sum (List.map_congr_left ?_)
  intro other _
  simp only [ReportedPosition.slot, Prod.mk.injEq, eq_comm]

/-- An order that closes its position leaves nothing of it, and the orders for distinct positions
    do not meet: what is held stays or becomes nothing. -/
theorem held_or_flat (hholds : Holds holdings category positions)
    (hnodup : (positions.map ReportedPosition.slot).Nodup) {requests : List OrderRequest}
    (hsub : requests.Sublist
      ((positions.filter fun position => position.size ≠ 0).map (closingRequest category)))
    (key : Category × String × Int) :
    requests.foldl applyOrder holdings key = holdings key ∨
      key.1 = category ∧ requests.foldl applyOrder holdings key = 0 := by
  rw [foldl_applyOrder]
  by_cases hmet : ∃ request ∈ requests,
      (request.category, request.symbol, request.positionIdx) = key
  · obtain ⟨request, hrequest, rfl⟩ := hmet
    obtain ⟨position, hopen, rfl⟩ := List.mem_map.mp (hsub.subset hrequest)
    have hslots : (requests.map fun request => (request.symbol, request.positionIdx)).Nodup := by
      have hall : (((positions.filter fun position => position.size ≠ 0).map
          (closingRequest category)).map
            fun request => (request.symbol, request.positionIdx)).Nodup := by
        rw [List.map_map]
        exact hnodup.sublist (List.filter_sublist.map ReportedPosition.slot)
      exact hall.sublist (hsub.map _)
    have hkeys : (requests.map fun request =>
        (request.category, request.symbol, request.positionIdx)).Nodup := by
      apply List.Nodup.of_map Prod.snd
      rw [List.map_map]
      exact hslots
    have hsum := sum_map_of_nodup hkeys (fun request => signed request.side request.qty) hrequest
    have hheld : holdings ((closingRequest category position).category,
        (closingRequest category position).symbol,
          (closingRequest category position).positionIdx) = signed position.side position.size :=
      held_of_nodup hholds hnodup (List.mem_of_mem_filter hopen)
    have hopposite : signed (closingRequest category position).side
        (closingRequest category position).qty = -signed position.side position.size :=
      signed_opposite _ _
    right
    refine ⟨rfl, ?_⟩
    rw [hsum, hopposite, hheld]
    exact add_neg_cancel _
  · left
    have hzero : (requests.map fun request =>
        if key = (request.category, request.symbol, request.positionIdx) then
          signed request.side request.qty
        else 0) = requests.map fun _ => 0 := by
      apply List.map_congr_left
      intro request hrequest
      exact if_neg fun hkey => hmet ⟨request, hrequest, hkey.symm⟩
    rw [hzero]
    simp

end Holding

/-! ### Calls, one after the other -/

namespace ClosingState

section Runs

variable {common : VkCommon} {readers : PositionReaders} {format : OrderFormat}
  {round : Rat → Double} {rule : Rat → Int}

/-- The orders of a call are read as those that close a first part of the open positions. -/
theorem closing_requests (hnames : format.NamesEnums) (hrounds : format.RoundsBy rule)
    (hstrings : common.ReadsStrings) (hnumbers : common.ReadsNumbers (roundedSize round))
    (hreads : readers.Reads) {s : ClosingState} {call : ClosingCall} {reported : List Json}
    {positions : List ReportedPosition} (hlist : call.reported = .ok reported)
    (hpositions : List.Forall₂ Reports reported positions)
    (hclosable : ∀ position ∈ positions, position.size ≠ 0 →
      Closable common format round rule
        (instrumentTable call.endpoint call.fuel s.client .linear) call.category position)
    {result : Except ApiError Unit} {after : OrderClient}
    (hclosing : closing common readers format s call = some (result, after)) :
    ∃ sent, sent <+: positions.filter (fun position => position.size ≠ 0) ∧
      after.posted.map (fun order => readOrder order.2) =
        (sent.map (closingRequest call.category)).map some ∧
      (result = .ok () → sent = positions.filter (fun position => position.size ≠ 0) ∧
        ∀ k, k < after.posted.length → ∃ id, (call.fates k).answer = .ok id) := by
  have hinfo : getPositionInfo common readers (fun _ => call.reported) call.category "" =
      .ok (positions.map (ReportedPosition.parsed round)) :=
    getPositionInfo_of_reports hstrings hnumbers hreads hlist hpositions
  rw [closing, closeAllPositions, hinfo] at hclosing
  obtain ⟨parsed, hwritten, hposted, hdone⟩ := closePositions_prefix hclosing
  rw [filter_parsed] at hwritten hdone
  obtain ⟨sent, hsent, rfl⟩ := List.prefix_map_iff.mp hwritten
  refine ⟨sent, hsent, ?_, ?_⟩
  · rw [hposted, List.nil_append, List.map_map, List.map_map, List.map_map]
    apply List.map_congr_left
    intro position hposition
    obtain ⟨hmem, hsize⟩ := List.mem_filter.mp (hsent.subset hposition)
    have hne : position.size ≠ 0 := by simpa using hsize
    exact (readOrder_placedOrder_iff common hnames hrounds _ call.category
      (bought_or_sold_of_reports hpositions position hmem hne)).mpr (hclosable position hmem hne)
  · intro hok
    obtain ⟨hall, hanswers⟩ := hdone hok
    have hlength := congrArg List.length hall
    rw [List.length_map, List.length_map] at hlength
    refine ⟨hsent.eq_of_length hlength, ?_⟩
    intro k hk
    obtain ⟨-, id, hid⟩ := hanswers k (Nat.zero_le k) hk
    exact ⟨id, hid⟩

theorem OrderFate.applied_of_answer {fate : OrderFate} {id : OrderId}
    (h : fate.answer = .ok id) : fate.applied = true := by
  cases fate with
  | accepted _ => rfl
  | rejected _ _ => cases h
  | lost _ => cases h

/-- **One call.**  What is held stays as it was or becomes nothing, whatever becomes of the
    orders; it all becomes nothing if the call returns. -/
theorem step_closes (hnames : format.NamesEnums) (hrounds : format.RoundsBy rule)
    (hstrings : common.ReadsStrings) (hnumbers : common.ReadsNumbers (roundedSize round))
    (hreads : readers.Reads) {s next : ClosingState} {call : ClosingCall}
    (hreported : Reported common format round rule s call)
    (hstep : step common readers format s call = some next) :
    (∀ key, next.holdings key = s.holdings key ∨
      key.1 = call.category ∧ next.holdings key = 0) ∧
    (Returned common readers format s call →
      ∀ key, key.1 = call.category → next.holdings key = 0) := by
  unfold step at hstep
  cases hclosing : closing common readers format s call with
  | none =>
      rw [hclosing] at hstep
      cases hstep
  | some closed =>
      rcases closed with ⟨result, after⟩
      rw [hclosing] at hstep
      obtain rfl := Option.some.inj hstep
      have hreturned : Returned common readers format s call → result = .ok () := by
        rintro ⟨after', hafter'⟩
        rw [hclosing, Option.some.injEq, Prod.mk.injEq] at hafter'
        exact hafter'.1
      cases hlist : call.reported with
      | error e =>
          -- the positions are not known, and no order goes out
          have hinfo : getPositionInfo common readers (fun _ => call.reported) call.category "" =
              .error e := by
            rw [hlist]
            rfl
          rw [closing, closeAllPositions, hinfo] at hclosing
          cases hclosing
          refine ⟨fun key => .inl rfl, ?_⟩
          intro h
          cases hreturned h
      | ok reported =>
          obtain ⟨positions, hpositions, hnodup, hholds, hclosable⟩ := hreported reported hlist
          obtain ⟨sent, hsent, hrequests, hdone⟩ := closing_requests hnames hrounds hstrings
            hnumbers hreads hlist hpositions hclosable hclosing
          constructor
          · have hsub : (appliedFrom call.fates 0 after.posted).Sublist
                ((positions.filter fun position => position.size ≠ 0).map
                  (closingRequest call.category)) :=
              (appliedFrom_sublist hrequests 0).trans (hsent.sublist.map _)
            exact held_or_flat hholds hnodup hsub
          · intro h key hkey
            obtain ⟨hall, hanswers⟩ := hdone (hreturned h)
            have happlied : appliedFrom call.fates 0 after.posted =
                (positions.filter fun position => position.size ≠ 0).map
                  (closingRequest call.category) := by
              rw [← hall]
              apply appliedFrom_eq hrequests
              intro k _ hlt
              obtain ⟨id, hid⟩ := hanswers k (by omega)
              exact OrderFate.applied_of_answer hid
            rw [happlied]
            exact (flattens hholds key).trans (if_pos hkey)

end Runs

end ClosingState

open ClosingState

/-- **Closing can be repeated.**  Against an exchange that reports the positions as they are,
    one for each symbol and index, and each one that is open a linear one of one-way mode whose
    size comes through the roundings, in any run of calls of `closeAllPositions`, however many
    of them throw and whichever orders are rejected, or are applied without a reply: what is
    held under a key is at all times what was held at first, or nothing.  A call leaves the
    other categories alone, and if it returns, nothing is held in its own. -/
theorem repeated_closing {common : VkCommon} {readers : PositionReaders} {format : OrderFormat}
    {round : Rat → Double} {rule : Rat → Int} (hnames : format.NamesEnums)
    (hrounds : format.RoundsBy rule) (hstrings : common.ReadsStrings)
    (hnumbers : common.ReadsNumbers (roundedSize round)) (hreads : readers.Reads)
    (s : ClosingState) (calls : List ClosingCall)
    (hreported : Machine.Along (step common readers format) (Reported common format round rule) s
      calls) :
    Machine.Throughout (step common readers format)
        (fun t => ∀ key, t.holdings key = s.holdings key ∨ t.holdings key = 0) s calls ∧
      Machine.Along (step common readers format) (fun t call => ∀ t',
        step common readers format t call = some t' →
          (∀ key, key.1 ≠ call.category → t'.holdings key = t.holdings key) ∧
          (Returned common readers format t call →
            ∀ key, key.1 = call.category → t'.holdings key = 0)) s calls := by
  constructor
  · apply Machine.Along.throughout _ (fun _ h => h) (fun _ => .inl rfl) hreported
    intro t call next hkept hcall hstep key
    obtain ⟨hstays, -⟩ := step_closes hnames hrounds hstrings hnumbers hreads hcall hstep
    rcases hstays key with hsame | ⟨-, hflat⟩
    · rw [hsame]
      exact hkept key
    · exact .inr hflat
  · apply Machine.Along.of_invariant (fun _ _ _ _ _ _ => trivial) _ trivial hreported
    intro t call _ hcall next hstep
    obtain ⟨hstays, hflat⟩ := step_closes hnames hrounds hstrings hnumbers hreads hcall hstep
    refine ⟨?_, hflat⟩
    intro key hkey
    rcases hstays key with hsame | ⟨hcategory, -⟩
    · exact hsame
    · exact absurd hcategory hkey

/-! ### A rejected order -/

/-- Closing where `halfLong` is the only position; the order has this fate. -/
def halfLongCall (fate : OrderFate) : ClosingCall where
  category := .linear
  reported := .ok [halfLongJson 0]
  fates _ := fate
  endpoint _ _ := .error (.transport "not asked")
  fuel := 0

def halfLongState : ClosingState where
  client := { instruments := [btcInstrument] }
  holdings := halfLongHeld .linear 0

theorem halfLong_reported (fate : OrderFate) :
    Reported halfLongReaders .documented Decimal.toBinary Decimal.nearestSigned halfLongState
      (halfLongCall fate) := by
  rintro reported ⟨⟩
  refine ⟨[halfLong 0], halfLong_reports (by decide), by simp, halfLong_holds .linear 0, ?_⟩
  rintro position hposition -
  obtain rfl := List.mem_singleton.mp hposition
  exact closable_halfLong

theorem closing_halfLong (fate : OrderFate) :
    ∃ order, closing halfLongReaders .documented .documented halfLongState
        (halfLongCall fate) =
      some (fate.answer.map fun _ => (),
        { client := halfLongState.client, posted := [order] }) := by
  have hinfo : getPositionInfo halfLongReaders .documented
      (fun _ => .ok [halfLongJson 0]) .linear "" = .ok [(halfLong 0).parsed Decimal.toBinary] :=
    getPositionInfo_of_reports (VkCommon.documented_readsStrings _)
      (VkCommon.documented_readsNumbers _) PositionReaders.documented_reads rfl
      (halfLong_reports (by decide))
  have hopen : ((halfLong 0).parsed Decimal.toBinary).zeroSize = false := by decide +kernel
  unfold closing closeAllPositions
  simp only [halfLongCall, hinfo, closePositions, hopen, Bool.not_false, if_true]
  cases fate <;> exact ⟨_, rfl⟩

theorem step_halfLong_rejected (retCode : Int) (retMsg : String) :
    step halfLongReaders .documented .documented halfLongState
      (halfLongCall (.rejected retCode retMsg)) = some halfLongState := by
  obtain ⟨order, hclosing⟩ := closing_halfLong (.rejected retCode retMsg)
  rw [step, hclosing]
  rfl

/-- The order is rejected at first, and accepted in the second call. -/
def retriedClosing : List ClosingCall :=
  [halfLongCall (.rejected 110007 "ab not enough for new order"),
   halfLongCall (.accepted { orderId := "1", orderLinkId := "" })]

theorem repeated_closing_halfLong :
    ∃ final, Machine.run (step halfLongReaders .documented .documented) halfLongState
        retriedClosing = some final ∧
      ∀ key, key.1 = .linear → final.holdings key = 0 := by
  have hrejected := step_halfLong_rejected 110007 "ab not enough for new order"
  obtain ⟨order, hclosing⟩ := closing_halfLong (.accepted { orderId := "1", orderLinkId := "" })
  obtain ⟨final, hfinal⟩ : ∃ final, step halfLongReaders .documented .documented
      halfLongState (halfLongCall (.accepted { orderId := "1", orderLinkId := "" })) =
        some final := by
    rw [step, hclosing]
    exact ⟨_, rfl⟩
  have hreported : Machine.Along (step halfLongReaders .documented .documented)
      (Reported halfLongReaders .documented Decimal.toBinary Decimal.nearestSigned)
      halfLongState retriedClosing :=
    Machine.along_cons (halfLong_reported _) hrejected ⟨halfLong_reported _, fun _ _ => trivial⟩
  refine ⟨final, ?_, ?_⟩
  · simp only [retriedClosing, Machine.run, hrejected, hfinal]
  · have hrun := (repeated_closing OrderFormat.documented_namesEnums
      OrderFormat.documented_roundsBy (VkCommon.documented_readsStrings _)
      (VkCommon.documented_readsNumbers _) PositionReaders.documented_reads halfLongState
      retriedClosing hreported).2
    have hsecond := (hrun.2 halfLongState hrejected).1 final hfinal
    exact hsecond.2 ⟨_, hclosing⟩

end BybitApi
