import Mathlib.Data.List.Basic

/-!
# How decoders end

A decoder of a value is a sequence of readings that may fail, and reads the rows of a
list one after the other.  It succeeds when all readings do, and it fails in the way in
which the first of them does.
-/

namespace BybitApi.Decoding

variable {ε α β : Type}

def Succeeds (reading : Except ε α) : Prop := ∃ value, reading = .ok value

/-- The reading fails in a way that has the property. -/
def Fails (P : ε → Prop) (reading : Except ε α) : Prop := ∃ e, reading = .error e ∧ P e

variable {P : ε → Prop} {reading : Except ε α} {next : α → Except ε β}

@[simp] theorem succeeds_pure (value : α) : Succeeds (pure value : Except ε α) := ⟨value, rfl⟩

@[simp] theorem not_succeeds_error (e : ε) : ¬ Succeeds (.error e : Except ε α) := by
  rintro ⟨value, h⟩
  cases h

@[simp] theorem not_fails_ok (value : α) : ¬ Fails P (.ok value : Except ε α) := by
  rintro ⟨e, h, -⟩
  cases h

@[simp] theorem not_fails_pure (value : α) : ¬ Fails P (pure value : Except ε α) :=
  not_fails_ok value

@[simp] theorem fails_error {e : ε} : Fails P (.error e : Except ε α) ↔ P e := by
  constructor
  · rintro ⟨e', h, hP⟩
    cases h
    exact hP
  · exact fun hP => ⟨e, rfl, hP⟩

theorem bind_eq_ok {result : β} :
    reading >>= next = .ok result ↔ ∃ value, reading = .ok value ∧ next value = .ok result := by
  cases reading with
  | ok value =>
      show next value = .ok result ↔ _
      simp
  | error e =>
      show Except.error e = .ok result ↔ _
      simp

theorem succeeds_bind :
    Succeeds (reading >>= next) ↔ ∃ value, reading = .ok value ∧ Succeeds (next value) := by
  cases reading with
  | ok value =>
      show Succeeds (next value) ↔ _
      simp
  | error e =>
      show Succeeds (.error e) ↔ _
      simp

theorem fails_bind :
    Fails P (reading >>= next) ↔
      Fails P reading ∨ ∃ value, reading = .ok value ∧ Fails P (next value) := by
  cases reading with
  | ok value =>
      show Fails P (next value) ↔ _
      simp
  | error e =>
      show Fails P (.error e) ↔ _
      simp

/-- What comes next ends in the same way whatever is read. -/
theorem succeeds_bind_of {Q : Prop} (h : ∀ value, Succeeds (next value) ↔ Q) :
    Succeeds (reading >>= next) ↔ Succeeds reading ∧ Q := by
  simp only [succeeds_bind, h, exists_and_right]
  rfl

theorem fails_bind_of {Q : Prop} (h : ∀ value, Fails P (next value) ↔ Q) :
    Fails P (reading >>= next) ↔ Fails P reading ∨ Succeeds reading ∧ Q := by
  simp only [fails_bind, h, exists_and_right]
  rfl

/-- What cannot fail in this way is followed by what cannot either. -/
theorem not_fails_bind (h : ¬ Fails P reading) (hnext : ∀ value, ¬ Fails P (next value)) :
    ¬ Fails P (reading >>= next) := by
  rw [fails_bind]
  rintro (hfails | ⟨value, -, hfails⟩)
  · exact h hfails
  · exact hnext value hfails

/-! ### Rows -/

variable {element : α → Except ε β}

theorem mapM_cons_eq (row : α) (rows : List α) :
    (row :: rows).mapM element =
      element row >>= fun value => rows.mapM element >>= fun values => pure (value :: values) :=
  List.mapM_cons

theorem succeeds_mapM (rows : List α) :
    Succeeds (rows.mapM element) ↔ ∀ row ∈ rows, Succeeds (element row) := by
  induction rows with
  | nil => simp
  | cons row rows ih =>
      rw [mapM_cons_eq, succeeds_bind, List.forall_mem_cons, ← ih]
      constructor
      · rintro ⟨value, hvalue, hrest⟩
        obtain ⟨values, hvalues, -⟩ := succeeds_bind.mp hrest
        exact ⟨⟨value, hvalue⟩, ⟨values, hvalues⟩⟩
      · rintro ⟨⟨value, hvalue⟩, ⟨values, hvalues⟩⟩
        exact ⟨value, hvalue, succeeds_bind.mpr ⟨values, hvalues, succeeds_pure _⟩⟩

/-- Behind rows that are read, there is one that has the property. -/
def Reaches (Reads Q : α → Prop) (rows : List α) : Prop :=
  ∃ before row after, rows = before ++ row :: after ∧ (∀ row' ∈ before, Reads row') ∧ Q row

theorem fails_mapM (rows : List α) :
    Fails P (rows.mapM element) ↔
      Reaches (fun row => Succeeds (element row)) (fun row => Fails P (element row)) rows := by
  induction rows with
  | nil => simp [Reaches]
  | cons row rows ih =>
      rw [mapM_cons_eq, fails_bind]
      constructor
      · rintro (hrow | ⟨value, hvalue, hrest⟩)
        · exact ⟨[], row, rows, rfl, by simp, hrow⟩
        · have hrows : Fails P (rows.mapM element) := by
            rcases fails_bind.mp hrest with hrows | ⟨values, -, hpure⟩
            · exact hrows
            · exact absurd hpure (not_fails_pure _)
          obtain ⟨before, failing, behind, rfl, hbefore, hfails⟩ := ih.mp hrows
          refine ⟨row :: before, failing, behind, rfl, ?_, hfails⟩
          exact List.forall_mem_cons.mpr ⟨⟨value, hvalue⟩, hbefore⟩
      · rintro ⟨before, failing, behind, hrows, hbefore, hfails⟩
        cases before with
        | nil =>
            obtain ⟨rfl, rfl⟩ := List.cons.inj hrows
            exact .inl hfails
        | cons first before =>
            obtain ⟨rfl, rfl⟩ := List.cons.inj hrows
            obtain ⟨⟨value, hvalue⟩, hrest⟩ := List.forall_mem_cons.mp hbefore
            refine .inr ⟨value, hvalue, fails_bind.mpr (.inl ?_)⟩
            exact ih.mpr ⟨before, failing, behind, rfl, hrest, hfails⟩

theorem not_fails_mapM (h : ∀ row, ¬ Fails P (element row)) (rows : List α) :
    ¬ Fails P (rows.mapM element) := by
  rw [fails_mapM]
  rintro ⟨before, row, after, -, -, hfails⟩
  exact h row hfails

end BybitApi.Decoding
