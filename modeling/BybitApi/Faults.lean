import BybitApi.Json

/-!
# How effects end

An effect ends normally or in a fault.  The faults of a composed effect are those of
its parts, and a `catch` that logs lets undefined behaviour pass and, without a
logger, turns an exception into the one that the empty logger throws.
-/

namespace BybitApi

section Faults

variable {σ τ α β : Type}

/-- The effect ends in this fault. -/
def Faults (effect : Effect σ α) (s : σ) (fault : Fault) : Prop :=
  ∃ s', effect s = .error fault s'

/-- The effect runs into undefined behaviour. -/
def Undefined (effect : Effect σ α) (s : σ) : Prop := ∃ what, Faults effect s (.undefined what)

theorem faults_bind {effect : Effect σ α} {k : α → Effect σ β} {s : σ} {fault : Fault} :
    Faults (effect >>= k) s fault ↔
      Faults effect s fault ∨ ∃ value s', effect s = .ok value s' ∧ Faults (k value) s' fault := by
  unfold Faults
  cases h : effect s with
  | ok value s' =>
      rw [bind_of_ok k h]
      simp
  | error fault' s' =>
      rw [bind_of_error k h]
      simp

/-- A composed effect that ends in a fault, with the object it leaves. -/
theorem error_of_bind {effect : Effect σ α} {k : α → Effect σ β} {s s' : σ} {fault : Fault}
    (h : (effect >>= k) s = .error fault s') :
    effect s = .error fault s' ∨
      ∃ value s'', effect s = .ok value s'' ∧ k value s'' = .error fault s' := by
  cases heffect : effect s with
  | ok value s'' =>
      rw [bind_of_ok k heffect] at h
      exact .inr ⟨value, s'', rfl, h⟩
  | error fault' s'' =>
      rw [bind_of_error k heffect] at h
      cases h
      exact .inl rfl

theorem error_of_ofExcept_bind {result : Except Fault α} {k : α → Effect σ β} {s s' : σ}
    {fault : Fault} (h : (ofExcept result >>= k) s = .error fault s') :
    (result = .error fault ∧ s' = s) ∨
      ∃ value, result = .ok value ∧ k value s = .error fault s' := by
  rcases error_of_bind h with hresult | ⟨value, s'', hresult, hk⟩
  · cases result with
    | ok value => cases hresult
    | error fault' =>
        cases hresult
        exact .inl ⟨rfl, rfl⟩
  · cases result with
    | ok value' =>
        cases hresult
        exact .inr ⟨value, rfl, hk⟩
    | error fault' => cases hresult

@[simp] theorem not_faults_pure (value : α) (s : σ) (fault : Fault) :
    ¬ Faults (pure value : Effect σ α) s fault := by
  rintro ⟨s', h⟩
  cases h

@[simp] theorem not_faults_modify (f : σ → σ) (s : σ) (fault : Fault) :
    ¬ Faults (modify f : Effect σ Unit) s fault := by
  rintro ⟨s', h⟩
  cases h

@[simp] theorem not_faults_get (s : σ) (fault : Fault) :
    ¬ Faults (get : Effect σ σ) s fault := by
  rintro ⟨s', h⟩
  cases h

@[simp] theorem faults_throw {s : σ} {fault fault' : Fault} :
    Faults (throw fault : Effect σ α) s fault' ↔ fault = fault' := by
  constructor
  · rintro ⟨s', h⟩
    cases h
    rfl
  · rintro rfl
    exact ⟨s, rfl⟩

@[simp] theorem faults_ofExcept {result : Except Fault α} {s : σ} {fault : Fault} :
    Faults (ofExcept result : Effect σ α) s fault ↔ result = .error fault := by
  cases result with
  | ok value => simp [ofExcept]
  | error fault' => simp [ofExcept]

/-- What follows the evaluation of an expression sees its value and the same object. -/
theorem faults_ofExcept_bind {result : Except Fault α} {k : α → Effect σ β} {s : σ}
    {fault : Fault} :
    Faults (ofExcept result >>= k) s fault ↔
      result = .error fault ∨ ∃ value, result = .ok value ∧ Faults (k value) s fault := by
  rw [faults_bind, faults_ofExcept]
  cases result with
  | ok value => simp [ofExcept, pure, EStateM.pure]
  | error fault' => simp [ofExcept, throw, throwThe, MonadExceptOf.throw, EStateM.throw]

theorem faults_modify_bind {f : σ → σ} {k : Unit → Effect σ β} {s : σ} {fault : Fault} :
    Faults ((modify f : Effect σ Unit) >>= k) s fault ↔ Faults (k ()) (f s) fault := by
  rw [faults_bind, or_iff_right (not_faults_modify f s fault)]
  constructor
  · rintro ⟨_, s', h, hk⟩
    cases h
    exact hk
  · intro hk
    exact ⟨(), f s, rfl, hk⟩

@[simp] theorem faults_logMessage {logger : Bool} {s : σ} {fault : Fault} :
    Faults (logMessage logger : Effect σ Unit) s fault ↔
      logger = false ∧ fault = .badFunctionCall := by
  cases logger with
  | true => simp [logMessage]
  | false => simp [logMessage, eq_comm]

/-- A local object is built unless its computation throws. -/
theorem built_eq_error {effect : Effect σ α} {s : σ} {fault : Fault} :
    built effect s = .error fault ↔ Faults effect s fault := by
  unfold built Faults
  cases effect s <;> simp

/-- The fault is an exception, which a `catch (std::exception &)` takes. -/
def Fault.IsException : Fault → Prop
  | .undefined _ => False
  | .json _ | .badFunctionCall | .other _ => True

/-- **What a `catch` that logs lets out.**  Undefined behaviour passes, and without a
    logger every exception becomes that of the logger. -/
theorem faults_catchAndLog {logger : Bool} {default : α} {effect : Effect σ α} {s : σ}
    {fault : Fault} :
    Faults (catchAndLog logger default effect) s fault ↔
      (∃ what, fault = .undefined what ∧ Faults effect s fault) ∨
        (logger = false ∧ fault = .badFunctionCall ∧
          ∃ caught, caught.IsException ∧ Faults effect s caught) := by
  unfold Faults catchAndLog
  cases effect s with
  | ok value s' => simp
  | error caught s' =>
      cases caught <;> cases logger <;> cases fault <;>
        simp [Fault.IsException, logMessage, bind, EStateM.bind, pure, EStateM.pure, throw,
          throwThe, MonadExceptOf.throw, EStateM.throw, eq_comm]

theorem settled_isSome_iff {effect : Effect σ α} {s : σ} :
    (settled effect s).isSome ↔ ¬ Undefined effect s := by
  unfold settled Undefined Faults
  rcases effect s with ⟨value, s'⟩ | ⟨fault, s'⟩
  · simp
  · cases fault <;> simp

theorem undefined_catchAndLog {logger : Bool} {default : α} {effect : Effect σ α} {s : σ} :
    Undefined (catchAndLog logger default effect) s ↔ Undefined effect s := by
  unfold Undefined
  simp [faults_catchAndLog]

theorem undefined_bind {effect : Effect σ α} {k : α → Effect σ β} {s : σ} :
    Undefined (effect >>= k) s ↔
      Undefined effect s ∨ ∃ value s', effect s = .ok value s' ∧ Undefined (k value) s' := by
  constructor
  · rintro ⟨what, hfaults⟩
    rcases faults_bind.mp hfaults with heffect | ⟨value, s', hok, hk⟩
    · exact .inl ⟨what, heffect⟩
    · exact .inr ⟨value, s', hok, what, hk⟩
  · rintro (⟨what, heffect⟩ | ⟨value, s', hok, what, hk⟩)
    · exact ⟨what, faults_bind.mpr (.inl heffect)⟩
    · exact ⟨what, faults_bind.mpr (.inr ⟨value, s', hok, hk⟩)⟩

theorem undefined_ofExcept_bind {result : Except Fault α} {k : α → Effect σ β} {s : σ} :
    Undefined (ofExcept result >>= k) s ↔
      (∃ what, result = .error (.undefined what)) ∨
        ∃ value, result = .ok value ∧ Undefined (k value) s := by
  constructor
  · rintro ⟨what, hfaults⟩
    rcases faults_ofExcept_bind.mp hfaults with hresult | ⟨value, hok, hk⟩
    · exact .inl ⟨what, hresult⟩
    · exact .inr ⟨value, hok, what, hk⟩
  · rintro (⟨what, hresult⟩ | ⟨value, hok, what, hk⟩)
    · exact ⟨what, faults_ofExcept_bind.mpr (.inl hresult)⟩
    · exact ⟨what, faults_ofExcept_bind.mpr (.inr ⟨value, hok, hk⟩)⟩

theorem undefined_modify_bind {f : σ → σ} {k : Unit → Effect σ β} {s : σ} :
    Undefined ((modify f : Effect σ Unit) >>= k) s ↔ Undefined (k ()) (f s) := by
  unfold Undefined
  simp only [faults_modify_bind]

/-! ### Effects with certain faults only -/

/-- All faults of the effect are of a kind. -/
def FaultsOnly (P : Fault → Prop) (effect : Effect σ α) : Prop :=
  ∀ s fault, Faults effect s fault → P fault

variable {P : Fault → Prop}

theorem FaultsOnly.bind {effect : Effect σ α} {k : α → Effect σ β} (heffect : FaultsOnly P effect)
    (hk : ∀ value, FaultsOnly P (k value)) : FaultsOnly P (effect >>= k) := by
  intro s fault hfaults
  rcases faults_bind.mp hfaults with h | ⟨value, s', -, h⟩
  · exact heffect s fault h
  · exact hk value s' fault h

theorem faultsOnly_pure (value : α) : FaultsOnly P (pure value : Effect σ α) := by
  intro s fault hfaults
  exact absurd hfaults (not_faults_pure value s fault)

theorem faultsOnly_get : FaultsOnly P (get : Effect σ σ) := by
  intro s fault hfaults
  exact absurd hfaults (not_faults_get s fault)

theorem faultsOnly_modify (f : σ → σ) : FaultsOnly P (modify f : Effect σ Unit) := by
  intro s fault hfaults
  exact absurd hfaults (not_faults_modify f s fault)

theorem faultsOnly_ofExcept {result : Except Fault α}
    (h : ∀ fault, result = .error fault → P fault) :
    FaultsOnly P (ofExcept result : Effect σ α) := by
  intro s fault hfaults
  exact h fault (faults_ofExcept.mp hfaults)

theorem faultsOnly_logMessage {logger : Bool} (h : logger = false → P .badFunctionCall) :
    FaultsOnly P (logMessage logger : Effect σ Unit) := by
  intro s fault hfaults
  obtain ⟨hlogger, rfl⟩ := faults_logMessage.mp hfaults
  exact h hlogger

/-- A result that is not undefined is an exception, if it is none at all. -/
theorem isException_of_defined {result : Except Fault α}
    (h : ∀ what, result ≠ .error (.undefined what)) (fault : Fault)
    (herror : result = .error fault) : fault.IsException := by
  cases fault with
  | undefined what => exact h what herror
  | json _ | badFunctionCall | other _ => trivial

theorem FaultsOnly.not_undefined {effect : Effect σ α} (h : FaultsOnly Fault.IsException effect)
    (s : σ) : ¬ Undefined effect s := by
  rintro ⟨what, hfaults⟩
  exact h s _ hfaults

/-- A `catch` that logs lets no undefined behaviour in. -/
theorem FaultsOnly.catchAndLog {effect : Effect σ α} (h : FaultsOnly Fault.IsException effect)
    (logger : Bool) (default : α) :
    FaultsOnly Fault.IsException (catchAndLog logger default effect) := by
  intro s fault hfaults
  rcases faults_catchAndLog.mp hfaults with ⟨what, rfl, heffect⟩ | ⟨-, rfl, -⟩
  · exact h s _ heffect
  · trivial

/-! ### Assignments -/

theorem assign_of_ok {read : σ → Except Fault β} (update : σ → β → σ) {s : σ} {value : β}
    (h : read s = .ok value) :
    assign (fun s => do return update s (← read s)) s = .ok () (update s value) := by
  simp [assign, h, bind, Except.bind, pure, Except.pure]

theorem assign_of_error {read : σ → Except Fault β} (update : σ → β → σ) {s : σ} {fault : Fault}
    (h : read s = .error fault) :
    assign (fun s => do return update s (← read s)) s = .error fault s := by
  simp [assign, h, bind, Except.bind]

/-- An assignment faults as the evaluation of its right side does. -/
theorem faults_assign {read : σ → Except Fault β} {update : σ → β → σ} {s : σ} {fault : Fault} :
    Faults (assign fun s => do return update s (← read s)) s fault ↔ read s = .error fault := by
  unfold Faults
  cases h : read s with
  | ok value =>
      rw [assign_of_ok update h]
      simp
  | error fault' =>
      rw [assign_of_error update h]
      simp

/-- What follows an assignment sees the object with the value read. -/
theorem faults_assign_bind {read : σ → Except Fault β} {update : σ → β → σ}
    {k : Unit → Effect σ α} {s : σ} {fault : Fault} :
    Faults ((assign fun s => do return update s (← read s)) >>= k) s fault ↔
      read s = .error fault ∨
        ∃ value, read s = .ok value ∧ Faults (k ()) (update s value) fault := by
  rw [faults_bind, faults_assign]
  cases h : read s with
  | ok value =>
      rw [assign_of_ok update h]
      simp [Unique.exists_iff]
  | error fault' =>
      rw [assign_of_error update h]
      simp

theorem keeps_assign {view : σ → τ} {read : σ → Except Fault β} {update : σ → β → σ}
    (h : ∀ s value, view (update s value) = view s) :
    Keeps view (assign fun s => do return update s (← read s)) := by
  intro s
  cases hread : read s with
  | ok value =>
      rw [after_of_ok (assign_of_ok update hread)]
      exact h s value
  | error fault => rw [after_of_error (assign_of_error update hread)]

/-! ### Objects that are assigned to until something throws -/

/-- Whether what is read for a part agrees with what is stored there. -/
def agrees [DecidableEq β] (read : Except Fault β) (stored : β) : Except Fault Bool :=
  read.map fun value => decide (value = stored)

/-- Up to the first that throws, all parts read agree with what is stored. -/
def SameUntilFault : List (Except Fault Bool) → Prop
  | [] => True
  | .error _ :: _ => True
  | .ok same :: rest => same = true ∧ SameUntilFault rest

instance SameUntilFault.decidable : DecidablePred SameUntilFault
  | [] => .isTrue trivial
  | .error _ :: _ => .isTrue trivial
  | .ok same :: rest =>
      have := SameUntilFault.decidable rest
      inferInstanceAs (Decidable (same = true ∧ SameUntilFault rest))

/-- When the effect throws, the object is as before if and only if the parts read
    until then agree with it. -/
def UnchangedIff (reads : σ → List (Except Fault Bool)) (effect : Effect σ α) : Prop :=
  ∀ s fault s', effect s = .error fault s' → (s' = s ↔ SameUntilFault (reads s))

variable [DecidableEq β]

theorem unchangedIff_assign {read : σ → Except Fault β} (update : σ → β → σ) (view : σ → β) :
    UnchangedIff (fun s => [agrees (read s) (view s)])
      (assign fun s => do return update s (← read s)) := by
  intro s fault s' herror
  cases hread : read s with
  | ok value =>
      rw [assign_of_ok update hread] at herror
      cases herror
  | error fault' =>
      rw [assign_of_error update hread] at herror
      cases herror
      simp [agrees, hread, Except.map, SameUntilFault]

/-- A part that is assigned to first and then left alone. -/
theorem UnchangedIff.assign_bind {read : σ → Except Fault β} {update : σ → β → σ} {view : σ → β}
    {k : Unit → Effect σ α} {reads : σ → List (Except Fault Bool)}
    (hk : UnchangedIff reads (k ())) (hkeeps : Keeps view (k ()))
    (hview : ∀ s value, view (update s value) = value) (hself : ∀ s, update s (view s) = s) :
    UnchangedIff (fun s => agrees (read s) (view s) :: reads s)
      ((assign fun s => do return update s (← read s)) >>= k) := by
  intro s fault s' herror
  cases hread : read s with
  | error fault' =>
      rw [bind_of_error k (assign_of_error update hread)] at herror
      cases herror
      simp [agrees, hread, Except.map, SameUntilFault]
  | ok value =>
      rw [bind_of_ok k (assign_of_ok update hread)] at herror
      simp only [agrees, hread, Except.map, SameUntilFault, decide_eq_true_eq]
      by_cases hsame : value = view s
      · rw [hsame, hself] at herror
        rw [hk s fault s' herror, and_iff_right hsame]
      · refine iff_of_false ?_ (fun h => hsame h.1)
        intro hunchanged
        have hkept := hkeeps (update s value)
        rw [after_of_error herror, hview, hunchanged] at hkept
        exact hsame hkept.symm

end Faults

end BybitApi
