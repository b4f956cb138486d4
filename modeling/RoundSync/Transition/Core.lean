import Mathlib.Logic.Relation

/-!
# Runs of labelled transition functions

A system is a total function `step : σ → ε → σ`.  Every choice its environment
makes (which process moves, which value is drawn, whether a call fails) is part
of the event, so a run is a fold over a list of events.  This file names the
two shapes in which facts about runs are stated, "in every state of the run"
and "at every event of the run", and gives the induction rules between them.
-/

namespace RoundSync.Transition

universe u v

variable {σ : Type u} {ε : Type v}

/-- The state after a list of events. -/
def run (step : σ → ε → σ) (state : σ) (events : List ε) : σ :=
  events.foldl step state

@[simp]
theorem run_nil (step : σ → ε → σ) (state : σ) : run step state [] = state :=
  rfl

@[simp]
theorem run_cons (step : σ → ε → σ) (state : σ) (event : ε) (events : List ε) :
    run step state (event :: events) = run step (step state event) events :=
  rfl

theorem run_append (step : σ → ε → σ) (state : σ) (first second : List ε) :
    run step state (first ++ second) = run step (run step state first) second :=
  List.foldl_append

/-- `P` holds in the first state of the run and after each of its events. -/
def Always (step : σ → ε → σ) (P : σ → Prop) : σ → List ε → Prop
  | state, [] => P state
  | state, event :: events => P state ∧ Always step P (step state event) events

/-- Every event of the run meets `guard` in the state in which it is taken. -/
def Meets (step : σ → ε → σ) (guard : σ → ε → Prop) : σ → List ε → Prop
  | _, [] => True
  | state, event :: events => guard state event ∧ Meets step guard (step state event) events

instance instDecidableMeets (step : σ → ε → σ) (guard : σ → ε → Prop)
    [∀ state event, Decidable (guard state event)] :
    ∀ state events, Decidable (Meets step guard state events)
  | _, [] => .isTrue trivial
  | state, event :: events =>
      have := instDecidableMeets step guard (step state event) events
      inferInstanceAs (Decidable (guard state event ∧ Meets step guard _ events))

theorem Always.head {step : σ → ε → σ} {P : σ → Prop} {state : σ} {events : List ε}
    (always : Always step P state events) : P state := by
  cases events with
  | nil => exact always
  | cons event events => exact always.1

theorem Always.last {step : σ → ε → σ} {P : σ → Prop} {state : σ} {events : List ε}
    (always : Always step P state events) : P (run step state events) := by
  induction events generalizing state with
  | nil => exact always
  | cons event events ih => exact ih always.2

/-- The invariant rule for guarded runs: an invariant that every guarded event
preserves holds in every state of a run all of whose events are guarded. -/
theorem Always.of_meets {step : σ → ε → σ} {guard : σ → ε → Prop} {Inv : σ → Prop}
    (preserved : ∀ state event, Inv state → guard state event → Inv (step state event))
    {state : σ} {events : List ε} (initial : Inv state)
    (meets : Meets step guard state events) : Always step Inv state events := by
  induction events generalizing state with
  | nil => exact initial
  | cons event events ih =>
      exact ⟨initial, ih (preserved state event initial meets.1) meets.2⟩

/-- The invariant rule for arbitrary runs. -/
theorem Always.of_preserved {step : σ → ε → σ} {Inv : σ → Prop}
    (preserved : ∀ state event, Inv state → Inv (step state event))
    {state : σ} (events : List ε) (initial : Inv state) : Always step Inv state events := by
  induction events generalizing state with
  | nil => exact initial
  | cons event events ih => exact ⟨initial, ih (preserved state event initial)⟩

theorem Always.mono {step : σ → ε → σ} {P Q : σ → Prop} (weaken : ∀ state, P state → Q state)
    {state : σ} {events : List ε} (always : Always step P state events) :
    Always step Q state events := by
  induction events generalizing state with
  | nil => exact weaken state always
  | cons event events ih => exact ⟨weaken state always.1, ih always.2⟩

theorem Always.and {step : σ → ε → σ} {P Q : σ → Prop} {state : σ} {events : List ε}
    (one : Always step P state events) (other : Always step Q state events) :
    Always step (fun state => P state ∧ Q state) state events := by
  induction events generalizing state with
  | nil => exact ⟨one, other⟩
  | cons event events ih => exact ⟨⟨one.1, other.1⟩, ih one.2 other.2⟩

/-- What holds before and after each guarded event gives other guards. -/
theorem Always.meets {step : σ → ε → σ} {guard guard' : σ → ε → Prop} {P : σ → Prop}
    (gives : ∀ state event, P state → guard state event → P (step state event) →
      guard' state event) {state : σ} {events : List ε} (always : Always step P state events)
    (meets : Meets step guard state events) : Meets step guard' state events := by
  induction events generalizing state with
  | nil => trivial
  | cons event events ih =>
      exact ⟨gives state event always.1 meets.1 always.2.head, ih always.2 meets.2⟩

theorem meets_append {step : σ → ε → σ} {guard : σ → ε → Prop} {state : σ}
    {first second : List ε} :
    Meets step guard state (first ++ second) ↔
      Meets step guard state first ∧ Meets step guard (run step state first) second := by
  induction first generalizing state with
  | nil => exact (and_iff_right trivial).symm
  | cons event first ih =>
      rw [List.cons_append, Meets, Meets, run_cons, ih, and_assoc]

/-- The exact guard rule: where a guard is precisely what one event needs to
keep `P`, the runs that stay in `P` are precisely the guarded ones. -/
theorem always_iff_meets {step : σ → ε → σ} {guard : σ → ε → Prop} {Inv P : σ → Prop}
    (preserved : ∀ state event, Inv state → Inv (step state event))
    (exact : ∀ state event, Inv state → P state → (P (step state event) ↔ guard state event))
    {state : σ} {events : List ε} (initial : Inv state) (holds : P state) :
    Always step P state events ↔ Meets step guard state events := by
  induction events generalizing state with
  | nil => exact ⟨fun _ => trivial, fun _ => holds⟩
  | cons event events ih =>
      have nextInv := preserved state event initial
      constructor
      · rintro ⟨_, rest⟩
        exact ⟨(exact state event initial holds).mp rest.head, (ih nextInv rest.head).mp rest⟩
      · rintro ⟨guarded, rest⟩
        have nextHolds := (exact state event initial holds).mpr guarded
        exact ⟨holds, (ih nextInv nextHolds).mpr rest⟩

theorem Meets.of_forall {step : σ → ε → σ} {guard : σ → ε → Prop}
    (all : ∀ state event, guard state event) (state : σ) (events : List ε) :
    Meets step guard state events := by
  induction events generalizing state with
  | nil => trivial
  | cons event events ih => exact ⟨all state event, ih (step state event)⟩

/-- What an invariant gives at each event holds at every event of a run. -/
theorem Meets.of_preserved {step : σ → ε → σ} {guard : σ → ε → Prop} {Inv : σ → Prop}
    (preserved : ∀ state event, Inv state → Inv (step state event) ∧ guard state event)
    {state : σ} (events : List ε) (initial : Inv state) : Meets step guard state events := by
  induction events generalizing state with
  | nil => trivial
  | cons event events ih =>
      obtain ⟨next, guarded⟩ := preserved state event initial
      exact ⟨guarded, ih next⟩

theorem Meets.mono {step : σ → ε → σ} {guard guard' : σ → ε → Prop}
    (weaken : ∀ state event, guard state event → guard' state event) {state : σ} {events : List ε}
    (meets : Meets step guard state events) : Meets step guard' state events := by
  induction events generalizing state with
  | nil => trivial
  | cons event events ih => exact ⟨weaken state event meets.1, ih meets.2⟩

/-- The exact guard rule for a property that needs no invariant. -/
theorem always_iff_meets_of_step {step : σ → ε → σ} {guard : σ → ε → Prop} {P : σ → Prop}
    (exact : ∀ state event, P state → (P (step state event) ↔ guard state event))
    {state : σ} {events : List ε} (holds : P state) :
    Always step P state events ↔ Meets step guard state events :=
  @always_iff_meets σ ε step guard (fun _ => True) P (fun _ _ _ => trivial)
    (fun state event _ => exact state event) state events trivial holds

end RoundSync.Transition
