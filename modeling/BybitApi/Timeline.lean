import Mathlib.Data.Int.Order.Basic
import Mathlib.Order.Basic
import Mathlib.Order.Lattice
import Mathlib.Data.List.Basic
import Mathlib.Order.Defs.LinearOrder

/-!
# Records ordered by a key

A server that keeps a history keeps a list of records with strictly increasing
keys.  A client that downloads it in pages reads the part from a key on
(`since`), and what it has read so far is a half-open slice.  The lemmas say how
slices compose, which slice a page is, and what a slice becomes when the
history grows: at its end, while its last record is still being revised.
-/

namespace BybitApi.Timeline

variable {α κ : Type} [LinearOrder κ] (key : α → κ)

/-- The keys strictly increase. -/
def Ordered (history : List α) : Prop :=
  history.Pairwise fun x y => key x < key y

/-- The records from `a` on. -/
def since (a : κ) (history : List α) : List α :=
  history.filter fun x => decide (a ≤ key x)

/-- The records from `a` on and before `b`. -/
def slice (a b : κ) (history : List α) : List α :=
  history.filter fun x => decide (a ≤ key x ∧ key x < b)

/-- The records from `a` to `b`, both included. -/
def between (a b : κ) (history : List α) : List α :=
  history.filter fun x => decide (a ≤ key x ∧ key x ≤ b)

variable {key}

@[simp] theorem mem_since {a : κ} {history : List α} {x : α} :
    x ∈ since key a history ↔ x ∈ history ∧ a ≤ key x := by
  simp [since]

@[simp] theorem mem_slice {a b : κ} {history : List α} {x : α} :
    x ∈ slice key a b history ↔ x ∈ history ∧ a ≤ key x ∧ key x < b := by
  simp [slice]

@[simp] theorem mem_between {a b : κ} {history : List α} {x : α} :
    x ∈ between key a b history ↔ x ∈ history ∧ a ≤ key x ∧ key x ≤ b := by
  simp [between]

theorem slice_append_history (a b : κ) (left right : List α) :
    slice key a b (left ++ right) = slice key a b left ++ slice key a b right := by
  simp [slice]

theorem slice_eq_nil {a b : κ} {history : List α} (h : ∀ x ∈ history, b ≤ key x) :
    slice key a b history = [] := by
  rw [slice, List.filter_eq_nil_iff]
  intro x hx
  have hle := h x hx
  simp only [decide_eq_true_eq, not_and, not_lt]
  exact fun _ => hle

theorem ordered_since {a : κ} {history : List α} (h : Ordered key history) :
    Ordered key (since key a history) :=
  List.Pairwise.filter _ h

/-- Adjacent slices of an ordered history join. -/
theorem slice_append_slice {a b c : κ} {history : List α} (h : Ordered key history)
    (hab : a ≤ b) (hbc : b ≤ c) :
    slice key a b history ++ slice key b c history = slice key a c history := by
  induction history with
  | nil => rfl
  | cons x rest ih =>
      obtain ⟨hx, hrest⟩ := List.pairwise_cons.mp h
      have ih := ih hrest
      rcases lt_or_ge (key x) b with hlt | hge
      · have hxc : key x < c := lt_of_lt_of_le hlt hbc
        simp only [slice, List.filter_cons, hlt, hxc, not_le_of_gt hlt, and_true,
          decide_false, Bool.false_eq_true, if_false]
        by_cases hax : a ≤ key x
        · simp only [hax, decide_true, if_true, List.cons_append]
          exact congrArg (x :: ·) ih
        · simp only [hax, decide_false, Bool.false_eq_true, if_false]
          exact ih
      · have hnone : slice key a b (x :: rest) = [] := by
          apply slice_eq_nil
          intro y hy
          rcases List.mem_cons.mp hy with rfl | hy
          · exact hge
          · exact le_of_lt (lt_of_le_of_lt hge (hx y hy))
        rw [hnone, List.nil_append]
        apply List.filter_congr
        intro y hy
        have hby : b ≤ key y := by
          rcases List.mem_cons.mp hy with rfl | hy
          · exact hge
          · exact le_of_lt (lt_of_le_of_lt hge (hx y hy))
        simp only [hby, le_trans hab hby, true_and]

theorem slice_eq_filter_since (a b : κ) (history : List α) :
    slice key a b history =
      (since key a history).filter fun x => decide (key x < b) := by
  simp only [slice, since, List.filter_filter]
  apply List.filter_congr
  intro x _
  simp only [Bool.decide_and, Bool.and_comm]

/-- A prefix of the records from `a` on, all of them before `b`, is the slice up
    to `b` as soon as no later record is before `b`. -/
theorem slice_of_since {a b : κ} {history front back : List α}
    (h : since key a history = front ++ back) (hfront : ∀ x ∈ front, key x < b)
    (hback : ∀ x ∈ back, b ≤ key x) : slice key a b history = front := by
  rw [slice_eq_filter_since, h, List.filter_append]
  have h1 : front.filter (fun x => decide (key x < b)) = front := by
    rw [List.filter_eq_self]
    intro x hx
    simpa using hfront x hx
  have h2 : back.filter (fun x => decide (key x < b)) = [] := by
    rw [List.filter_eq_nil_iff]
    intro x hx
    simpa using hback x hx
  rw [h1, h2, List.append_nil]

/-- The records from a later key on are among those from an earlier one on. -/
theorem since_since {a b : κ} {history : List α} (hab : a ≤ b) :
    since key b (since key a history) = since key b history := by
  simp only [since, List.filter_filter]
  apply List.filter_congr
  intro x _
  rw [← Bool.decide_and, decide_eq_decide]
  exact ⟨fun h => h.1, fun h => ⟨h, hab.trans h⟩⟩

/-- The last record of an ordered history is the last from any key on. -/
theorem dropLast_since {a : κ} {history : List α} (h : Ordered key history) :
    (since key a history).dropLast = since key a history.dropLast := by
  rcases List.eq_nil_or_concat' history with rfl | ⟨closed, last, rfl⟩
  · rfl
  · rw [List.dropLast_concat]
    by_cases hlast : a ≤ key last
    · simp [since, hlast]
    · have hnone : since key a (closed ++ [last]) = [] := by
        rw [since, List.filter_eq_nil_iff]
        intro x hx
        simp only [decide_eq_true_eq, not_le]
        rcases List.mem_append.mp hx with hclosed | hx
        · have hlt := (List.pairwise_append.mp h).2.2 x hclosed last (List.mem_singleton.mpr rfl)
          exact hlt.trans (not_le.mp hlast)
        · rw [List.mem_singleton.mp hx]
          exact not_le.mp hlast
      rw [hnone]
      rw [since, List.filter_append, ← since, List.append_eq_nil_iff] at hnone
      rw [hnone.1, List.dropLast_nil]

theorem ordered_between {a b : κ} {history : List α} (h : Ordered key history) :
    Ordered key (between key a b history) :=
  List.Pairwise.filter _ h

theorem between_eq_nil_of_lt {a b : κ} {history : List α} (h : b < a) :
    between key a b history = [] := by
  rw [between, List.filter_eq_nil_iff]
  intro x _
  simp only [decide_eq_true_eq, not_and, not_le]
  exact fun hle => lt_of_lt_of_le h hle

theorem mem_between_self {a : κ} {history : List α} {x : α} :
    x ∈ between key a a history ↔ x ∈ history ∧ key x = a := by
  rw [mem_between, ← le_antisymm_iff, eq_comm]

theorem between_self_eq_nil_iff {a : κ} {history : List α} :
    between key a a history = [] ↔ ¬ ∃ x ∈ history, key x = a := by
  rw [List.eq_nil_iff_forall_not_mem]
  simp only [mem_between_self, not_exists]

/-- An ordered history has one record of a key at the most. -/
theorem length_between_self {a : κ} {history : List α} (h : Ordered key history) {x : α}
    (hx : x ∈ history) (ha : key x = a) : (between key a a history).length = 1 := by
  cases hall : between key a a history with
  | nil => exact absurd ⟨x, hx, ha⟩ (between_self_eq_nil_iff.mp hall)
  | cons first rest =>
      cases rest with
      | nil => rfl
      | cons second rest =>
          have hsame : ∀ y ∈ first :: second :: rest, key y = a := fun y hy =>
            (mem_between_self.mp (hall ▸ hy)).2
          have hsorted : Ordered key (first :: second :: rest) := hall ▸ ordered_between h
          have hlt := (List.pairwise_cons.mp hsorted).1 second (by simp)
          rw [hsame first (by simp), hsame second (by simp)] at hlt
          exact absurd hlt (lt_irrefl a)

/-- Lowering the upper bound below the first record of a final segment leaves
    what was before that segment. -/
theorem between_of_between {a b c : κ} {history front back : List α}
    (h : between key a b history = front ++ back) (hle : c ≤ b)
    (hfront : ∀ x ∈ front, key x ≤ c) (hback : ∀ x ∈ back, c < key x) :
    between key a c history = front := by
  have hsplit : between key a c history =
      (between key a b history).filter fun x => decide (key x ≤ c) := by
    simp only [between, List.filter_filter]
    apply List.filter_congr
    intro x _
    rw [← Bool.decide_and, decide_eq_decide]
    constructor
    · intro hx
      exact ⟨hx.2, hx.1, le_trans hx.2 hle⟩
    · intro hx
      exact ⟨hx.2.1, hx.1⟩
  have h1 : front.filter (fun x => decide (key x ≤ c)) = front := by
    rw [List.filter_eq_self]
    intro x hx
    simpa using hfront x hx
  have h2 : back.filter (fun x => decide (key x ≤ c)) = [] := by
    rw [List.filter_eq_nil_iff]
    intro x hx
    simpa using hback x hx
  rw [hsplit, h, List.filter_append, h1, h2, List.append_nil]

/-- Records appended later do not show below a record that was there before. -/
theorem between_of_prefix {a b : κ} {before after : List α} {x : α}
    (h : before <+: after) (hafter : Ordered key after) (hx : x ∈ before) (hb : b < key x) :
    between key a b after = between key a b before := by
  rcases h with ⟨grown, rfl⟩
  have hnew : between key a b grown = [] := by
    rw [between, List.filter_eq_nil_iff]
    intro y hy
    have hlt : key x < key y := (List.pairwise_append.mp hafter).2.2 x hx y hy
    simp only [decide_eq_true_eq, not_and, not_le]
    exact fun _ => lt_trans hb hlt
  rw [between, List.filter_append, ← between, ← between, hnew, List.append_nil]

/-! ### Integer keys -/

section Integers

variable {time : α → Int} {a b : Int} {history : List α}

theorem between_eq_slice : between time a b history = slice time a (b + 1) history := by
  simp only [between, slice, Int.lt_add_one_iff]

/-- Adjacent closed ranges of an ordered history join. -/
theorem between_append_between (h : Ordered time history) {m : Int} (ham : a ≤ m + 1)
    (hmb : m ≤ b) :
    between time a m history ++ between time (m + 1) b history = between time a b history := by
  simp only [between_eq_slice]
  exact slice_append_slice h ham (Int.add_le_add_right hmb 1)

theorem lt_of_mem_between_succ {x : α} (h : x ∈ between time (a + 1) b history) : a < time x :=
  Int.lt_of_add_one_le (mem_between.mp h).2.1

end Integers

/-! ### Histories whose last record is still forming -/

/-- One period of a live history: records are appended, and only the record
    that was last may be revised, under its old key. -/
inductive Evolves (key : α → κ) : List α → List α → Prop where
  | begin (grown : List α) : Evolves key [] grown
  | extend (closed : List α) (forming forming' : α) (more : List α)
      (h : key forming' = key forming) :
      Evolves key (closed ++ [forming]) (closed ++ forming' :: more)

omit [LinearOrder κ] in
/-- A history in which nothing happens. -/
theorem Evolves.refl : ∀ history : List α, Evolves key history history := by
  intro history
  rcases List.eq_nil_or_concat' history with rfl | ⟨closed, last, rfl⟩
  · exact .begin []
  · exact .extend closed last last [] rfl

/-- The forming record of an ordered history has the greatest key. -/
theorem Ordered.le_last {closed : List α} {last x : α}
    (h : Ordered key (closed ++ [last])) (hx : x ∈ closed ++ [last]) :
    key x ≤ key last := by
  rcases List.mem_append.mp hx with hclosed | hlast
  · have hpair := (List.pairwise_append.mp h).2.2
    exact le_of_lt (hpair x hclosed last (List.mem_singleton.mpr rfl))
  · rw [List.mem_singleton.mp hlast]

theorem dropLast_slice {a b : κ} {history : List α} {x : α}
    (h : Ordered key history) (hx : x ∈ history) (hb : b ≤ key x) :
    slice key a b history.dropLast = slice key a b history := by
  rcases List.eq_nil_or_concat' history with rfl | ⟨closed, last, rfl⟩
  · rfl
  · have hlast : b ≤ key last := le_trans hb (h.le_last hx)
    have hnone : slice key a b [last] = [] := by
      apply slice_eq_nil
      intro y hy
      rw [List.mem_singleton.mp hy]
      exact hlast
    rw [List.dropLast_concat, slice_append_history, hnone, List.append_nil]

/-- A slice that ends no later than the forming record's key is closed: it is
    the same after the history has evolved, among its closed records. -/
theorem Evolves.slice_closed {a b : κ} {before after : List α} {x : α}
    (h : Evolves key before after) (hbefore : Ordered key before)
    (hafter : Ordered key after) (hx : x ∈ before) (hb : b ≤ key x) :
    slice key a b after.dropLast = slice key a b before := by
  cases h with
  | begin grown => cases hx
  | extend closed forming forming' more hkey =>
      have hforming : b ≤ key forming' := by
        rw [hkey]
        exact le_trans hb (hbefore.le_last hx)
      have hdrop : slice key a b (closed ++ forming' :: more).dropLast =
          slice key a b (closed ++ forming' :: more) :=
        dropLast_slice hafter (x := forming') (by simp) hforming
      have hnew : slice key a b (forming' :: more) = [] := by
        apply slice_eq_nil
        intro y hy
        rcases List.mem_cons.mp hy with rfl | hy
        · exact hforming
        · have htail := (List.pairwise_append.mp hafter).2.1
          exact le_of_lt (lt_of_le_of_lt hforming ((List.pairwise_cons.mp htail).1 y hy))
      have hold : slice key a b [forming] = [] := by
        apply slice_eq_nil
        intro y hy
        rw [List.mem_singleton.mp hy, ← hkey]
        exact hforming
      rw [hdrop, slice_append_history, slice_append_history, hnew, hold]

end BybitApi.Timeline
