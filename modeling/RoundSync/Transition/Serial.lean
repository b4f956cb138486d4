import RoundSync.Transition.Core
import Mathlib.Data.List.Perm.Basic

/-!
# Operations of two atomic sections

An operation reads in one atomic section and, unless that settles it, writes in
another one, and the sections of any number of operations interleave.  If every
write still finds what its operation has read, the run is serial: its state is
the one that the operations give when each is performed at once, in the order
in which they finish.
-/

namespace RoundSync.Transition

universe u v w

/-- A family of operations.  A first section that leaves work for a second one
hands it a value and changes nothing. -/
structure Sections (σ : Type u) (ω : Type v) (ρ : Type w) where
  first : ω → σ → σ × Option ρ
  second : ω → ρ → σ → σ
  reads : ∀ ⦃operation state reached value⦄,
    first operation state = (reached, some value) → reached = state

inductive Progress (ρ : Type w) where
  | waiting
  | holding (value : ρ)
  | finished

/-- Any number of operations under way, and the order in which some have finished. -/
structure Interleaved (σ : Type u) (ω : Type v) (ρ : Type w) where
  state : σ
  jobs : List (ω × Progress ρ)
  order : List ω

/-- All operations still wait. -/
def Interleaved.start {σ : Type u} {ω : Type v} {ρ : Type w} (state : σ) (operations : List ω) :
    Interleaved σ ω ρ :=
  ⟨state, operations.map fun operation => (operation, .waiting), []⟩

namespace Sections

variable {σ : Type u} {ω : Type v} {ρ : Type w} (sections : Sections σ ω ρ)

/-- Both sections at once. -/
def perform (state : σ) (operation : ω) : σ :=
  match sections.first operation state with
  | (reached, none) => reached
  | (reached, some value) => sections.second operation value reached

/-- The next section of one operation. -/
def step (s : Interleaved σ ω ρ) (index : Nat) : Interleaved σ ω ρ :=
  match s.jobs[index]? with
  | some (operation, .waiting) =>
      match sections.first operation s.state with
      | (reached, none) =>
          ⟨reached, s.jobs.set index (operation, .finished), s.order ++ [operation]⟩
      | (reached, some value) =>
          ⟨reached, s.jobs.set index (operation, .holding value), s.order⟩
  | some (operation, .holding value) =>
      ⟨sections.second operation value s.state, s.jobs.set index (operation, .finished),
        s.order ++ [operation]⟩
  | _ => s

/-- A second section finds the state that its operation has read. -/
def Undisturbed (s : Interleaved σ ω ρ) (index : Nat) : Prop :=
  ∀ operation value, s.jobs[index]? = some (operation, .holding value) →
    sections.first operation s.state = (s.state, some value)

def finishedOperation (job : ω × Progress ρ) : Option ω :=
  match job.2 with
  | .finished => some job.1
  | _ => none

/-- The operations that have finished. -/
def finished (jobs : List (ω × Progress ρ)) : List ω :=
  jobs.filterMap finishedOperation

/-- The state is a serial result of the operations that have finished. -/
def Serial (initial : σ) (s : Interleaved σ ω ρ) : Prop :=
  s.order.Perm (finished s.jobs) ∧ s.order.foldl sections.perform initial = s.state

/-- What the next section of an operation does: nothing, one that reads, or one
that finishes the operation. -/
inductive StepShape (s : Interleaved σ ω ρ) (index : Nat) : Interleaved σ ω ρ → Prop
  | idle : StepShape s index s
  | read (operation : ω) (value : ρ) (waiting : s.jobs[index]? = some (operation, .waiting))
      (held : sections.first operation s.state = (s.state, some value)) :
      StepShape s index ⟨s.state, s.jobs.set index (operation, .holding value), s.order⟩
  | settle (operation : ω) (reached : σ)
      (waiting : s.jobs[index]? = some (operation, .waiting))
      (settled : sections.first operation s.state = (reached, none)) :
      StepShape s index
        ⟨reached, s.jobs.set index (operation, .finished), s.order ++ [operation]⟩
  | write (operation : ω) (value : ρ)
      (holding : s.jobs[index]? = some (operation, .holding value)) :
      StepShape s index
        ⟨sections.second operation value s.state, s.jobs.set index (operation, .finished),
          s.order ++ [operation]⟩

theorem step_shape (s : Interleaved σ ω ρ) (index : Nat) :
    sections.StepShape s index (sections.step s index) := by
  unfold step
  split
  · rename_i operation waiting
    split
    · rename_i reached settled
      exact .settle operation reached waiting settled
    · rename_i reached value held
      obtain rfl := sections.reads held
      exact .read operation value waiting held
  · rename_i operation value holding
    exact .write operation value holding
  · exact .idle

/-! ## Finished operations -/

/-- The jobs around one of them. -/
theorem split_at {jobs : List (ω × Progress ρ)} {index : Nat} {job : ω × Progress ρ}
    (present : jobs[index]? = some job) :
    jobs = jobs.take index ++ job :: jobs.drop (index + 1) ∧
      ∀ other, jobs.set index other = jobs.take index ++ other :: jobs.drop (index + 1) := by
  obtain ⟨bound, rfl⟩ := List.getElem?_eq_some_iff.mp present
  constructor
  · rw [List.getElem_cons_drop, List.take_append_drop]
  · intro other
    rw [List.set_eq_take_append_cons_drop, if_pos bound]

theorem finished_set_holding {jobs : List (ω × Progress ρ)} {index : Nat} {operation : ω}
    (waiting : jobs[index]? = some (operation, .waiting)) (value : ρ) :
    finished (jobs.set index (operation, .holding value)) = finished jobs := by
  obtain ⟨whole, replaced⟩ := split_at waiting
  calc
    finished (jobs.set index (operation, .holding value)) =
        finished (jobs.take index) ++ finished (jobs.drop (index + 1)) := by
      rw [replaced, finished, List.filterMap_append, List.filterMap_cons]
      rfl
    _ = finished (jobs.take index ++ (operation, .waiting) :: jobs.drop (index + 1)) := by
      rw [finished, finished, finished, List.filterMap_append, List.filterMap_cons]
      rfl
    _ = finished jobs := by rw [← whole]

theorem finished_set_finished {jobs : List (ω × Progress ρ)} {index : Nat} {operation : ω}
    {progress : Progress ρ} (present : jobs[index]? = some (operation, progress))
    (underWay : finishedOperation (operation, progress) = none) :
    (finished (jobs.set index (operation, .finished))).Perm (operation :: finished jobs) := by
  obtain ⟨whole, replaced⟩ := split_at present
  have before : finished jobs = finished (jobs.take index) ++ finished (jobs.drop (index + 1)) := by
    conv_lhs => rw [whole]
    rw [finished, finished, finished, List.filterMap_append, List.filterMap_cons, underWay]
  rw [before, replaced, finished, List.filterMap_append, List.filterMap_cons]
  exact List.perm_middle

/-! ## Serial runs -/

/-- A section of an undisturbed operation keeps the state serial. -/
theorem Serial.step {initial : σ} {s : Interleaved σ ω ρ} (serial : sections.Serial initial s)
    {index : Nat} (undisturbed : sections.Undisturbed s index) :
    sections.Serial initial (sections.step s index) := by
  obtain ⟨order, result⟩ := serial
  have shape := sections.step_shape s index
  generalize sections.step s index = after at shape
  cases shape with
  | idle => exact ⟨order, result⟩
  | read operation value waiting held =>
      refine ⟨?_, result⟩
      rw [finished_set_holding waiting]
      exact order
  | settle operation reached waiting settled =>
      constructor
      · exact (List.perm_append_singleton _ _).trans
          ((order.cons operation).trans (finished_set_finished waiting rfl).symm)
      · rw [List.foldl_append, result]
        simp [perform, settled]
  | write operation value holding =>
      constructor
      · exact (List.perm_append_singleton _ _).trans
          ((order.cons operation).trans (finished_set_finished holding rfl).symm)
      · rw [List.foldl_append, result]
        simp [perform, undisturbed operation value holding]

theorem finished_waiting (operations : List ω) :
    finished (operations.map fun operation => (operation, (.waiting : Progress ρ))) = [] := by
  rw [finished, List.filterMap_map, List.filterMap_eq_nil_iff]
  intro operation _
  rfl

/-- A run in which every second section finds the state its operation has read
is serial in every state. -/
theorem always_serial {initial : σ} {operations : List ω} {events : List Nat}
    (meets : Meets sections.step sections.Undisturbed (.start initial operations) events) :
    Always sections.step (sections.Serial initial) (.start initial operations) events := by
  refine Always.of_meets (fun s index serial undisturbed => serial.step sections undisturbed) ?_
    meets
  constructor
  · rw [Interleaved.start, finished_waiting]
  · rfl

end Sections

end RoundSync.Transition
