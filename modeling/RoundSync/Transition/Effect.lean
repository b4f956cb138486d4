/-!
# Effects that can fail

A computation over a state either returns a value or stops with an error, and
keeps the state it has reached in both cases.  `Ensures` states what holds of
the value, or of the error, together with that state; its rules follow the
constructors of computations, so a computation is verified along its text.
-/

namespace RoundSync.Transition

universe u

variable {σ ε α β : Type u}

/-- A computation over states `σ` with errors `ε`. -/
def Effect (σ ε α : Type u) : Type u :=
  σ → Except ε α × σ

namespace Effect

instance : Monad (Effect σ ε) where
  pure value := fun state => (.ok value, state)
  bind first next := fun state =>
    match first state with
    | (.ok value, reached) => next value reached
    | (.error error, reached) => (.error error, reached)

def fail (error : ε) : Effect σ ε α :=
  fun state => (.error error, state)

/-- The current state. -/
def read : Effect σ ε σ :=
  fun state => (.ok state, state)

def update (change : σ → σ) : Effect σ ε PUnit :=
  fun state => (.ok .unit, change state)

/-- Run a computation and hand its error over as a value. -/
def attempt (first : Effect σ ε α) : Effect σ ε (Except ε α) :=
  fun state => (.ok (first state).1, (first state).2)

/-- Run a computation with errors of its own, and hand its error over as a value. -/
def capture {ε' : Type u} (first : Effect σ ε' α) : Effect σ ε (Except ε' α) :=
  fun state => (.ok (first state).1, (first state).2)

/-- From this state, a value meets `Q` and an error meets `E`. -/
def Ensures (first : Effect σ ε α) (state : σ) (Q : α → σ → Prop) (E : ε → σ → Prop) : Prop :=
  match first state with
  | (.ok value, reached) => Q value reached
  | (.error error, reached) => E error reached

variable {first : Effect σ ε α} {next : α → Effect σ ε β} {state : σ}
  {Q Q' : α → σ → Prop} {R : β → σ → Prop} {E E' : ε → σ → Prop}

@[simp]
theorem ensures_pure {value : α} :
    Ensures (pure value : Effect σ ε α) state Q E ↔ Q value state :=
  Iff.rfl

@[simp]
theorem ensures_fail {error : ε} :
    Ensures (fail error : Effect σ ε α) state Q E ↔ E error state :=
  Iff.rfl

@[simp]
theorem ensures_read {Q : σ → σ → Prop} :
    Ensures (read : Effect σ ε σ) state Q E ↔ Q state state :=
  Iff.rfl

@[simp]
theorem ensures_update {change : σ → σ} {Q : PUnit → σ → Prop} :
    Ensures (update change : Effect σ ε PUnit) state Q E ↔ Q .unit (change state) :=
  Iff.rfl

theorem bind_of_ok {value : α} {reached : σ} (result : first state = (.ok value, reached)) :
    (first >>= next) state = next value reached := by
  simp only [bind, result]

theorem bind_of_error {error : ε} {reached : σ} (result : first state = (.error error, reached)) :
    (first >>= next) state = (.error error, reached) := by
  simp only [bind, result]

/-- A sequence is verified from its first part on. -/
@[simp]
theorem ensures_bind :
    Ensures (first >>= next) state R E ↔
      Ensures first state (fun value reached => Ensures (next value) reached R E) E := by
  simp only [Ensures, bind]
  rcases first state with ⟨error | value, reached⟩
  · rfl
  · rfl

@[simp]
theorem ensures_attempt {Q : Except ε α → σ → Prop} :
    Ensures (attempt first) state Q E ↔
      Ensures first state (fun value => Q (.ok value)) (fun error => Q (.error error)) := by
  simp only [Ensures, attempt]
  rcases first state with ⟨error | value, reached⟩
  · rfl
  · rfl

@[simp]
theorem ensures_capture {ε' : Type u} {first : Effect σ ε' α} {Q : Except ε' α → σ → Prop} :
    Ensures (capture first : Effect σ ε (Except ε' α)) state Q E ↔
      Ensures first state (fun value => Q (.ok value)) (fun error => Q (.error error)) := by
  simp only [Ensures, capture]
  rcases first state with ⟨error | value, reached⟩
  · rfl
  · rfl

theorem Ensures.mono (ensures : Ensures first state Q E)
    (value : ∀ a s, Q a s → Q' a s) (error : ∀ e s, E e s → E' e s) :
    Ensures first state Q' E' := by
  unfold Ensures at ensures ⊢
  split at ensures
  · exact value _ _ ensures
  · exact error _ _ ensures

theorem Ensures.and (one : Ensures first state Q E) (other : Ensures first state Q' E') :
    Ensures first state (fun a s => Q a s ∧ Q' a s) (fun e s => E e s ∧ E' e s) := by
  unfold Ensures at one other ⊢
  split at one
  · rename_i result
    rw [result] at other
    exact ⟨one, other⟩
  · rename_i result
    rw [result] at other
    exact ⟨one, other⟩

/-- The result itself can be used in what it ensures. -/
theorem Ensures.result (ensures : Ensures first state Q E) :
    Ensures first state (fun a s => Q a s ∧ first state = (.ok a, s))
      fun e s => E e s ∧ first state = (.error e, s) := by
  unfold Ensures at ensures ⊢
  split at ensures
  · rename_i result
    exact ⟨ensures, result⟩
  · rename_i result
    exact ⟨ensures, result⟩

/-- What a sequence ensures, from what its first part ensures. -/
theorem Ensures.bind (ensures : Ensures first state Q E')
    (value : ∀ a s, Q a s → Ensures (next a) s R E) (error : ∀ e s, E' e s → E e s) :
    Ensures (first >>= next) state R E :=
  ensures_bind.mpr (ensures.mono value error)

/-- What holds of the state that is reached, with a value or with an error. -/
abbrev Leaves (first : Effect σ ε α) (state : σ) (P : σ → Prop) : Prop :=
  Ensures first state (fun _ => P) fun _ => P

theorem Leaves.mono {P P' : σ → Prop} (leaves : Leaves first state P)
    (weaken : ∀ s, P s → P' s) : Leaves first state P' :=
  Ensures.mono leaves (fun _ => weaken) fun _ => weaken

theorem Leaves.bind {P P' : σ → Prop} (leaves : Leaves first state P)
    (rest : ∀ a s, P s → Leaves (next a) s P') (stops : ∀ s, P s → P' s) :
    Leaves (first >>= next) state P' :=
  Ensures.bind leaves rest fun _ => stops

theorem Ensures.ite {condition : Prop} [Decidable condition] {other : Effect σ ε α}
    (positive : condition → Ensures first state Q E)
    (negative : ¬condition → Ensures other state Q E) :
    Ensures (if condition then first else other) state Q E := by
  by_cases holds : condition
  · rw [if_pos holds]
    exact positive holds
  · rw [if_neg holds]
    exact negative holds

theorem ensures_iff :
    Ensures first state Q E ↔
      (∀ value reached, first state = (.ok value, reached) → Q value reached) ∧
        ∀ error reached, first state = (.error error, reached) → E error reached := by
  unfold Ensures
  split
  · rename_i value reached result
    simp [result]
  · rename_i error reached result
    simp [result]

/-- What is decided wherever the computation ends is decided for the computation. -/
theorem ensures_iff_of {P : Prop}
    (decided : Ensures first state (fun a s => Q a s ↔ P) fun e s => E e s ↔ P) :
    Ensures first state Q E ↔ P := by
  unfold Ensures at decided ⊢
  split at decided
  · exact decided
  · exact decided

theorem Ensures.ok (ensures : Ensures first state Q E) {value : α} {reached : σ}
    (result : first state = (.ok value, reached)) : Q value reached :=
  (ensures_iff.mp ensures).1 value reached result

theorem Ensures.error (ensures : Ensures first state Q E) {error : ε} {reached : σ}
    (result : first state = (.error error, reached)) : E error reached :=
  (ensures_iff.mp ensures).2 error reached result

/-- A computation without errors has a value. -/
theorem Ensures.exists_ok (ensures : Ensures first state Q fun _ _ => False) :
    ∃ value reached, first state = (.ok value, reached) ∧ Q value reached := by
  unfold Ensures at ensures
  split at ensures
  · rename_i value reached result
    exact ⟨value, reached, result, ensures⟩
  · exact ensures.elim

end Effect

/-! ## Results without a state -/

/-- A sequence has a value only where its first part has one. -/
theorem exists_of_bind_eq_ok {result : Except ε α} {next : α → Except ε β} {value : β}
    (isOk : result >>= next = .ok value) : ∃ a, result = .ok a ∧ next a = .ok value := by
  cases result with
  | error error => cases isOk
  | ok a => exact ⟨a, rfl, isOk⟩

theorem eq_ok_of_mapError {ε' : Type u} {result : Except ε α} {change : ε → ε'} {value : α}
    (isOk : result.mapError change = .ok value) : result = .ok value := by
  cases result with
  | error error => cases isOk
  | ok a =>
      cases isOk
      rfl

end RoundSync.Transition
