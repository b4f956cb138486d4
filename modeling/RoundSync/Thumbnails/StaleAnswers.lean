import RoundSync.Thumbnails.Answers
import RoundSync.Thumbnails.Clears

/-!
# Which requests a clear affects

A worker that finds another generation than its own answers all requests of its
entry with null.  The key of an entry does not carry the generation, so a load
that comes after the clear joins the entry of a worker from before it, and is
answered with null too.  Where every load joins entries of current workers alone,
a null that is given for the generation goes to requests from before a clear.
-/

namespace RoundSync.Thumbnails.Loading

open RoundSync.Data
open RoundSync.Transition

namespace StaleAnswers

open Deliveries

/-- The generation of the worker and the current one as the thread last read it. -/
def dates : LoadPhase → Option (Nat × Nat)
  | .dated _ generation seen => some (generation, seen)
  | .delivering dates _ | .posting dates _ _ => dates
  | _ => none

/-- A queued worker or a thread that owns the key, with its generation if it has one. -/
def Owner {ι : Type} (store : RequestStore) (phases : ι → LoadPhase) (requestKey : String)
    (generation : Option Nat) : Prop :=
  ⟨requestKey, generation⟩ ∈ store.queue ∨
    ∃ i, (phases i).owned = some requestKey ∧ (phases i).generation = generation

/-- Where a load finds requests in flight, their worker has no generation yet or the
current one. -/
def JoinsCurrent {ι : Type} (store : RequestStore) (phases : ι → LoadPhase) (_ : ι) :
    LoadCall → Prop
  | .join requestKey _ =>
      (∀ job ∈ store.queue, job.requestKey = requestKey →
        job.requestedGeneration = none ∨ job.requestedGeneration = some store.cacheGeneration) ∧
      ∀ j, (phases j).owned = some requestKey →
        (phases j).generation = none ∨ (phases j).generation = some store.cacheGeneration
  | _ => True

instance {n : Nat} (store : RequestStore) (phases : Fin n → LoadPhase) (i : Fin n)
    (c : LoadCall) : Decidable (JoinsCurrent store phases i c) := by
  cases c with
  | join requestKey requestedSizePx => exact inferInstanceAs (Decidable (_ ∧ _))
  | _ => exact .isTrue trivial

/-- The request was issued under this generation or an older one. -/
def IssuedBy (store : RequestStore) (generation request : Nat) : Prop :=
  ∃ issuedUnder, store.issued[request]? = some issuedUnder ∧ issuedUnder ≤ generation

/-- A null for the sake of the generation goes to requests that were issued before the
generation that the worker found. -/
def StaleAnswersOlder (store : RequestStore) : Prop :=
  ∀ request current, (request, .stale current) ∈ store.posted →
    current ≤ store.cacheGeneration ∧
      ∃ issuedUnder, store.issued[request]? = some issuedUnder ∧ issuedUnder < current

/-- The generations of workers are not in the future, and the requests of a worker
were not issued after its generation. -/
structure Dated {ι : Type} (store : RequestStore) (phases : ι → LoadPhase) : Prop where
  issued : ∀ issuedUnder ∈ store.issued, issuedUnder ≤ store.cacheGeneration
  owners : ∀ requestKey generation, Owner store phases requestKey (some generation) →
    generation ≤ store.cacheGeneration
  entries : ∀ requestKey generation, Owner store phases requestKey (some generation) →
    ∀ requests, store.inFlight.lookup requestKey = some requests →
      ∀ request ∈ requests, IssuedBy store generation request.id
  seen : ∀ i generation seen, dates (phases i) = some (generation, seen) →
    generation ≤ seen ∧ seen ≤ store.cacheGeneration
  left : ∀ i generation, (phases i).generation = some generation →
    ∀ request ∈ (phases i).left, IssuedBy store generation request
  stale : StaleAnswersOlder store

/-! ## What a call can do -/

section

variable {store : RequestStore}

theorem cacheGeneration_le_answer (c : LoadCall) (store : RequestStore) :
    store.cacheGeneration ≤ (answer c store).2.cacheGeneration := by
  cases c with
  | incrementGeneration => exact Nat.le_succ _
  | deleteCachedThumbnail requestKey deletes =>
      cases deletes with
      | false => exact Nat.le_refl _
      | true => exact Nat.le_refl _
  | writeThumbnail requestKey generation usable writes =>
      simp only [answer, writeThumbnail]
      split_ifs
      · exact Nat.le_refl _
      · exact Nat.le_refl _
  | putMemory memoryKey bitmap | evictMemory keeps | evictDisk keeps
  | clearLocked generation resists | endClear generation => exact Nat.le_refl _
  | _ => exact Nat.le_of_eq (Clears.sameCaches_answer rfl store).cacheGeneration.symm

/-- The calls that issue a request. -/
def isIssue : LoadCall → Bool
  | .answerNow _ | .join _ _ => true
  | _ => false

theorem issued_answer_of_not_issue {c : LoadCall} (noIssue : isIssue c = false)
    (store : RequestStore) : (answer c store).2.issued = store.issued := by
  cases c with
  | answerNow answer | join requestKey requestedSizePx => cases noIssue
  | removeEntry requestKey =>
      simp only [answer, removeEntry]
      split
      · rfl
      · rfl
  | discardIfNoActiveRequests requestKey =>
      simp only [answer, discardIfNoActiveRequests]
      split
      · rfl
      · split
        · rfl
        · rfl
  | isCancelled request =>
      simp only [answer, isCancelled]
      split
      · rfl
      · rfl
  | cancel request =>
      simp only [answer]
      split
      · rfl
      · rfl
  | take index interrupted =>
      simp only [answer, take]
      split
      · split
        · rfl
        · rfl
      · rfl
  | submit job | post request answer => rfl
  | _ => exact (sameRequests_answer rfl store).issued

/-- A request is issued under the current generation. -/
theorem issued_answer (c : LoadCall) (store : RequestStore) :
    (answer c store).2.issued = store.issued ∨
      (answer c store).2.issued = store.issued ++ [store.cacheGeneration] := by
  cases c with
  | answerNow answer => exact Or.inr rfl
  | join requestKey requestedSizePx =>
      simp only [answer, join]
      split
      · exact Or.inr rfl
      · exact Or.inr rfl
  | _ => exact Or.inl (issued_answer_of_not_issue rfl store)

theorem issued_le_answer (c : LoadCall)
    (issued : ∀ issuedUnder ∈ store.issued, issuedUnder ≤ store.cacheGeneration) :
    ∀ issuedUnder ∈ (answer c store).2.issued,
      issuedUnder ≤ (answer c store).2.cacheGeneration := by
  intro issuedUnder member
  refine Nat.le_trans ?_ (cacheGeneration_le_answer c store)
  rcases issued_answer c store with same | more
  · rw [same] at member
    exact issued issuedUnder member
  · rw [more] at member
    rcases List.mem_append.mp member with before | last
    · exact issued issuedUnder before
    · exact Nat.le_of_eq (List.mem_singleton.mp last)

theorem issued_getElem_answer (c : LoadCall) {request issuedUnder : Nat}
    (isIssued : store.issued[request]? = some issuedUnder) :
    (answer c store).2.issued[request]? = some issuedUnder := by
  rcases issued_answer c store with same | more
  · rw [same]
    exact isIssued
  · rw [more, List.getElem?_append_left (List.getElem?_eq_some_iff.mp isIssued).1]
    exact isIssued

theorem IssuedBy.answer {generation request : Nat} (issuedBy : IssuedBy store generation request)
    (c : LoadCall) : IssuedBy (Loading.answer c store).2 generation request := by
  obtain ⟨issuedUnder, isIssued, le⟩ := issuedBy
  exact ⟨issuedUnder, issued_getElem_answer c isIssued, le⟩

/-- The requests of an entry were there before, or one has just joined them. -/
theorem entry_answer {c : LoadCall} {requestKey : String} {requests : List LoadRequest}
    (found : (answer c store).2.inFlight.lookup requestKey = some requests) {request : LoadRequest}
    (member : request ∈ requests) :
    (∃ others, store.inFlight.lookup requestKey = some others ∧ request ∈ others) ∨
      ∃ requestedSizePx, c = .join requestKey requestedSizePx ∧
        request.id = store.issued.length := by
  cases c with
  | join otherKey requestedSizePx =>
      simp only [answer, join] at found
      split at found
      · rcases Table.lookup_insert_eq_some_iff.mp found with ⟨rfl, rfl⟩ | ⟨_, before⟩
        · exact Or.inr ⟨requestedSizePx, rfl, congrArg LoadRequest.id (List.mem_singleton.mp member)⟩
        · exact Or.inl ⟨requests, before, member⟩
      · rename_i others isThere
        rcases Table.lookup_insert_eq_some_iff.mp found with ⟨rfl, rfl⟩ | ⟨_, before⟩
        · rcases List.mem_append.mp member with other | last
          · exact Or.inl ⟨others, isThere, other⟩
          · exact Or.inr ⟨requestedSizePx, rfl,
              congrArg LoadRequest.id (List.mem_singleton.mp last)⟩
        · exact Or.inl ⟨requests, before, member⟩
  | removeEntry otherKey =>
      simp only [answer, removeEntry] at found
      split at found
      · exact Or.inl ⟨requests, found, member⟩
      · exact Or.inl ⟨requests, (Table.lookup_erase_eq_some_iff.mp found).2, member⟩
  | discardIfNoActiveRequests otherKey =>
      simp only [answer, discardIfNoActiveRequests] at found
      split at found
      · exact Or.inl ⟨requests, found, member⟩
      · split at found
        · exact Or.inl ⟨requests, (Table.lookup_erase_eq_some_iff.mp found).2, member⟩
        · exact Or.inl ⟨requests, found, member⟩
  | isCancelled other =>
      simp only [answer, isCancelled] at found
      split at found
      · exact Or.inl ⟨requests, found, member⟩
      · exact Or.inl ⟨requests, found, member⟩
  | cancel other =>
      simp only [answer] at found
      split at found
      · exact Or.inl ⟨requests, found, member⟩
      · exact Or.inl ⟨requests, found, member⟩
  | take index interrupted =>
      simp only [answer, take] at found
      split at found
      · split at found
        · exact Or.inl ⟨requests, found, member⟩
        · exact Or.inl ⟨requests, found, member⟩
      · exact Or.inl ⟨requests, found, member⟩
  | submit job | post other answer | answerNow answer => exact Or.inl ⟨requests, found, member⟩
  | _ =>
      rw [(sameRequests_answer rfl store).inFlight] at found
      exact Or.inl ⟨requests, found, member⟩

theorem queue_answer {c : LoadCall} {job : Job} (queued : job ∈ (answer c store).2.queue) :
    job ∈ store.queue ∨ c = .submit job := by
  cases c with
  | submit other =>
      rcases List.mem_append.mp queued with before | last
      · exact Or.inl before
      · exact Or.inr (congrArg LoadCall.submit (List.mem_singleton.mp last).symm)
  | take index interrupted =>
      simp only [answer, take] at queued
      split at queued
      · split at queued
        · exact Or.inl queued
        · exact Or.inl (List.mem_of_mem_eraseIdx queued)
      · exact Or.inl queued
  | join requestKey requestedSizePx =>
      simp only [answer, join] at queued
      split at queued
      · exact Or.inl queued
      · exact Or.inl queued
  | removeEntry requestKey =>
      simp only [answer, removeEntry] at queued
      split at queued
      · exact Or.inl queued
      · exact Or.inl queued
  | discardIfNoActiveRequests requestKey =>
      simp only [answer, discardIfNoActiveRequests] at queued
      split at queued
      · exact Or.inl queued
      · split at queued
        · exact Or.inl queued
        · exact Or.inl queued
  | isCancelled other =>
      simp only [answer, isCancelled] at queued
      split at queued
      · exact Or.inl queued
      · exact Or.inl queued
  | cancel other =>
      simp only [answer] at queued
      split at queued
      · exact Or.inl queued
      · exact Or.inl queued
  | post other answer | answerNow answer => exact Or.inl queued
  | _ =>
      rw [(sameRequests_answer rfl store).queue] at queued
      exact Or.inl queued

theorem mem_queue_of_taken {index : Nat} {interrupted : Bool} {job : Job}
    (isTaken : (take index interrupted store).1 = some job) : job ∈ store.queue := by
  unfold take at isTaken
  split at isTaken
  · split at isTaken
    · cases isTaken
    · cases isTaken
      exact List.mem_of_getElem? ‹_›
  · cases isTaken

/-- A thread with a generation has had it, or has just read it, or has just been given
the worker. -/
theorem owned_after {phase : LoadPhase} {c : LoadCall} {requestKey : String} {generation : Nat}
    (owned : (phase.after store c).owned = some requestKey)
    (isOwn : (phase.after store c).generation = some generation) :
    phase.owned = some requestKey ∧ phase.generation = some generation ∨
      generation = store.cacheGeneration ∨ ⟨requestKey, some generation⟩ ∈ store.queue := by
  cases c with
  | join otherKey requestedSizePx =>
      simp only [LoadPhase.after] at owned isOwn
      split at owned
      · rw [if_pos ‹_›] at isOwn
        cases isOwn
      · rw [if_neg ‹_›] at isOwn
        exact Or.inl ⟨owned, isOwn⟩
  | isInitialized =>
      cases phase with
      | joined otherKey =>
          simp only [LoadPhase.after] at isOwn
          split at isOwn <;> cases isOwn
      | _ => exact Or.inl ⟨owned, isOwn⟩
  | getGeneration =>
      cases phase with
      | joined otherKey =>
          cases isOwn
          exact Or.inr (Or.inl rfl)
      | working otherKey requested =>
          cases requested with
          | none =>
              cases isOwn
              exact Or.inr (Or.inl rfl)
          | some own => exact Or.inl ⟨owned, isOwn⟩
      | delivering own left => cases own <;> cases owned
      | _ => exact Or.inl ⟨owned, isOwn⟩
  | submit job => cases owned
  | take index interrupted =>
      cases isTaken : (take index interrupted store).1 with
      | none =>
          simp only [LoadPhase.after, isTaken] at owned isOwn
          exact Or.inl ⟨owned, isOwn⟩
      | some job =>
          obtain ⟨otherKey, requested⟩ := job
          simp only [LoadPhase.after, isTaken] at owned isOwn
          cases owned
          cases isOwn
          exact Or.inr (Or.inr (mem_queue_of_taken isTaken))
  | removeEntry otherKey => cases phase <;> cases owned
  | discardIfNoActiveRequests otherKey =>
      simp only [LoadPhase.after] at owned isOwn
      split at owned
      · cases owned
      · rw [if_neg ‹_›] at isOwn
        exact Or.inl ⟨owned, isOwn⟩
  | isCancelled other =>
      cases phase with
      | delivering own others =>
          cases others with
          | nil => cases owned
          | cons head rest =>
              simp only [LoadPhase.after] at owned
              split at owned <;> cases owned
      | _ => exact Or.inl ⟨owned, isOwn⟩
  | post other given =>
      cases phase with
      | posting own mine others => cases owned
      | _ => exact Or.inl ⟨owned, isOwn⟩
  | _ => exact Or.inl ⟨owned, isOwn⟩

/-- What a thread has seen it had seen before, or it has just read the generation. -/
theorem dates_after {phase : LoadPhase} {c : LoadCall} {generation seen : Nat}
    (isDated : dates (phase.after store c) = some (generation, seen)) :
    dates phase = some (generation, seen) ∨
      seen = store.cacheGeneration ∧ phase.generation = some generation := by
  cases c with
  | join requestKey requestedSizePx | discardIfNoActiveRequests requestKey =>
      simp only [LoadPhase.after] at isDated
      split at isDated
      · cases isDated
      · exact Or.inl isDated
  | isInitialized =>
      cases phase with
      | joined requestKey =>
          simp only [LoadPhase.after] at isDated
          split at isDated <;> cases isDated
      | _ => exact Or.inl isDated
  | getGeneration =>
      cases phase with
      | joined requestKey => cases isDated
      | working requestKey requested =>
          cases requested with
          | none => cases isDated
          | some own =>
              cases isDated
              exact Or.inr ⟨rfl, rfl⟩
      | delivering own left =>
          cases own with
          | none => cases isDated
          | some own =>
              cases isDated
              exact Or.inr ⟨rfl, rfl⟩
      | _ => exact Or.inl isDated
  | submit job => cases isDated
  | take index interrupted =>
      simp only [LoadPhase.after] at isDated
      split at isDated
      · exact Or.inl isDated
      · cases isDated
  | removeEntry requestKey =>
      cases phase with
      | dated own generation seen => exact Or.inl isDated
      | _ => cases isDated
  | isCancelled request =>
      cases phase with
      | delivering own others =>
          cases others with
          | nil => exact Or.inl isDated
          | cons head rest =>
              simp only [LoadPhase.after] at isDated
              split at isDated
              · exact Or.inl isDated
              · exact Or.inl isDated
      | _ => exact Or.inl isDated
  | post request given =>
      cases phase with
      | posting own mine others => exact Or.inl isDated
      | _ => exact Or.inl isDated
  | _ => exact Or.inl isDated

/-- What a thread of some generation has left it had before, or it has just removed the
entry that it owned. -/
theorem left_after {phase : LoadPhase} {c : LoadCall} {generation request : Nat}
    (allowed : phase.allowed c) (isOwn : (phase.after store c).generation = some generation)
    (isLeft : request ∈ (phase.after store c).left) :
    phase.generation = some generation ∧ (request ∈ phase.left ∨
      ∃ requestKey requests, phase.owned = some requestKey ∧
        store.inFlight.lookup requestKey = some requests ∧
        request ∈ requests.map LoadRequest.id) := by
  cases c with
  | join requestKey requestedSizePx | discardIfNoActiveRequests requestKey =>
      simp only [LoadPhase.after] at isOwn isLeft
      split at isLeft
      · cases isLeft
      · rw [if_neg ‹_›] at isOwn
        exact ⟨isOwn, Or.inl isLeft⟩
  | isInitialized =>
      cases phase with
      | joined requestKey =>
          simp only [LoadPhase.after] at isLeft
          split at isLeft <;> cases isLeft
      | _ => exact ⟨isOwn, Or.inl isLeft⟩
  | getGeneration =>
      cases phase with
      | joined requestKey => cases isLeft
      | working requestKey requested => cases requested <;> cases isLeft
      | delivering own left =>
          cases own with
          | none => cases isOwn
          | some own => exact ⟨isOwn, Or.inl isLeft⟩
      | _ => exact ⟨isOwn, Or.inl isLeft⟩
  | submit job => cases isLeft
  | take index interrupted =>
      obtain rfl : phase = .idle := allowed
      simp only [LoadPhase.after] at isLeft
      split at isLeft <;> cases isLeft
  | removeEntry requestKey =>
      rcases allowed with ⟨requested, rfl⟩ | ⟨own, seen, rfl⟩
      · cases isOwn
      · refine ⟨isOwn, Or.inr ⟨requestKey, ?_⟩⟩
        have removed : request ∈ (removeEntry requestKey store).1.map LoadRequest.id := isLeft
        unfold removeEntry at removed
        cases found : store.inFlight.lookup requestKey with
        | none =>
            rw [found] at removed
            cases removed
        | some requests =>
            rw [found] at removed
            exact ⟨requests, rfl, rfl, removed⟩
  | isCancelled other =>
      obtain ⟨own, others, rfl⟩ := allowed
      simp only [LoadPhase.after] at isOwn isLeft
      split at isLeft
      · rw [if_pos ‹_›] at isOwn
        exact ⟨isOwn, Or.inl (List.mem_cons_of_mem other isLeft)⟩
      · rw [if_neg ‹_›] at isOwn
        exact ⟨isOwn, Or.inl isLeft⟩
  | post other given =>
      obtain ⟨own, others, rfl, _⟩ := allowed
      exact ⟨isOwn, Or.inl (List.mem_cons_of_mem other isLeft)⟩
  | _ => exact ⟨isOwn, Or.inl isLeft⟩

/-- A stale answer is given by a thread that has seen another generation than its own. -/
theorem stale_answer {phase : LoadPhase} {c : LoadCall} (allowed : phase.allowed c)
    {request current : Nat} (isStale : (request, .stale current) ∈ (answer c store).2.posted) :
    (request, .stale current) ∈ store.posted ∨
      ∃ generation left, phase = .posting (some (generation, current)) request left ∧
        generation ≠ current := by
  cases c with
  | answerNow given =>
      rcases List.mem_append.mp isStale with before | last
      · exact Or.inl before
      · cases List.mem_singleton.mp last
        exact absurd rfl (allowed current)
  | post other given =>
      obtain ⟨own, left, posting, may⟩ := allowed
      rcases List.mem_append.mp isStale with before | last
      · exact Or.inl before
      · cases List.mem_singleton.mp last
        obtain ⟨generation, rfl, different⟩ := may current rfl
        exact Or.inr ⟨generation, left, posting, different⟩
  | cancel other =>
      simp only [answer] at isStale
      split at isStale
      · exact Or.inl isStale
      · exact Or.inl isStale
  | _ =>
      rw [(silent_answer rfl store).2] at isStale
      exact Or.inl isStale

/-! ## What a call keeps -/

variable {ι : Type} [DecidableEq ι] {phases : ι → LoadPhase} {i : ι} {c : LoadCall}
  {requestKey : String} {generation : Nat}

/-- The workers of a key and their generations. -/
theorem owner_answer (allowed : (phases i).allowed c)
    (owner : Owner (answer c store).2 (Function.update phases i ((phases i).after store c))
      requestKey (some generation)) :
    Owner store phases requestKey (some generation) ∨ generation = store.cacheGeneration := by
  rcases owner with queued | ⟨j, owned, isOwn⟩
  · rcases queue_answer queued with before | rfl
    · exact Or.inl (Or.inl before)
    · have timed : phases i = .timed requestKey (some generation) := allowed
      exact Or.inl (Or.inr ⟨i, by rw [timed]; rfl, by rw [timed]; rfl⟩)
  · by_cases same : j = i
    · subst same
      rw [Function.update_self] at owned isOwn
      rcases owned_after owned isOwn with before | current | queued
      · exact Or.inl (Or.inr ⟨j, before⟩)
      · exact Or.inr current
      · exact Or.inl (Or.inl queued)
    · rw [Function.update_of_ne same] at owned isOwn
      exact Or.inl (Or.inr ⟨j, owned, isOwn⟩)

omit [DecidableEq ι] in
/-- Whoever is in the way of a load that joins is of the current generation. -/
theorem current_of_joins {requestedSizePx : Nat}
    (joins : JoinsCurrent store phases i (.join requestKey requestedSizePx))
    (owner : Owner store phases requestKey (some generation)) :
    generation = store.cacheGeneration := by
  rcases owner with queued | ⟨j, owned, isOwn⟩
  · rcases joins.1 _ queued rfl with none | current
    · cases none
    · exact Option.some.inj current
  · rcases joins.2 j owned with none | current
    · rw [isOwn] at none
      cases none
    · exact Option.some.inj (isOwn.symm.trans current)

omit [DecidableEq ι] in
/-- Requests in flight were not issued after the current generation. -/
theorem issuedBy_current (invariant : Invariant store phases)
    (issued : ∀ issuedUnder ∈ store.issued, issuedUnder ≤ store.cacheGeneration)
    {requests : List LoadRequest} (found : store.inFlight.lookup requestKey = some requests)
    {request : LoadRequest} (member : request ∈ requests) :
    IssuedBy store store.cacheGeneration request.id := by
  have isThere : request.id ∈ inTable store.inFlight :=
    List.mem_flatMap.mpr ⟨requests, Table.mem_values_iff.mpr ⟨requestKey, found⟩,
      List.mem_map_of_mem member⟩
  have isIssued : request.id < store.issued.length :=
    List.mem_range.mp (invariant.each.subset (List.mem_append_left _ isThere))
  exact ⟨store.issued[request.id], List.getElem?_eq_getElem isIssued,
    issued _ (List.getElem_mem isIssued)⟩

omit [DecidableEq ι] in
/-- A worker's generation is not in the future. -/
theorem Dated.generation_le (dated : Dated store phases)
    (isOwn : (phases i).generation = some generation) : generation ≤ store.cacheGeneration := by
  cases isPhase : phases i with
  | idle | joined requestKey =>
      rw [isPhase] at isOwn
      cases isOwn
  | timed requestKey requested | working requestKey requested =>
      exact dated.owners requestKey generation (Or.inr ⟨i, by rw [isPhase]; rfl, isOwn⟩)
  | dated requestKey own seen =>
      rw [isPhase] at isOwn
      cases isOwn
      have bounds := dated.seen i generation seen (by rw [isPhase]; rfl)
      exact Nat.le_trans bounds.1 bounds.2
  | delivering own left | posting own request left =>
      rw [isPhase] at isOwn
      obtain ⟨⟨own, seen⟩, rfl, rfl⟩ := Option.map_eq_some_iff.mp isOwn
      have bounds := dated.seen i own seen (by rw [isPhase]; rfl)
      exact Nat.le_trans bounds.1 bounds.2

theorem issuedBy_join (requestKey : String) (requestedSizePx : Nat) :
    IssuedBy (answer (.join requestKey requestedSizePx) store).2 store.cacheGeneration
      store.issued.length := by
  have issued : (answer (.join requestKey requestedSizePx) store).2.issued =
      store.issued ++ [store.cacheGeneration] := by
    simp only [answer, join]
    split
    · rfl
    · rfl
  refine ⟨store.cacheGeneration, ?_, Nat.le_refl _⟩
  rw [issued]
  exact List.getElem?_concat_length

theorem entries_answer (dated : Dated store phases) (invariant : Invariant store phases)
    (allowed : (phases i).allowed c) (joins : JoinsCurrent store phases i c)
    (owner : Owner (answer c store).2 (Function.update phases i ((phases i).after store c))
      requestKey (some generation)) {requests : List LoadRequest}
    (found : (answer c store).2.inFlight.lookup requestKey = some requests) {request : LoadRequest}
    (member : request ∈ requests) : IssuedBy (answer c store).2 generation request.id := by
  rcases entry_answer found member with ⟨others, isThere, isOther⟩ | ⟨requestedSizePx, rfl, isNew⟩
  · rcases owner_answer allowed owner with before | rfl
    · exact (dated.entries requestKey generation before others isThere request isOther).answer c
    · exact (issuedBy_current invariant dated.issued isThere isOther).answer c
  · have current : generation = store.cacheGeneration := by
      rcases owner_answer allowed owner with before | current
      · exact current_of_joins joins before
      · exact current
    rw [current, isNew]
    exact issuedBy_join requestKey requestedSizePx

omit [DecidableEq ι] in
theorem staleAnswersOlder_answer (dated : Dated store phases) (allowed : (phases i).allowed c) :
    StaleAnswersOlder (answer c store).2 := by
  intro request current isStale
  rcases stale_answer allowed isStale with before | ⟨generation, left, posting, different⟩
  · obtain ⟨le, issuedUnder, isIssued, lt⟩ := dated.stale request current before
    exact ⟨Nat.le_trans le (cacheGeneration_le_answer c store), issuedUnder,
      issued_getElem_answer c isIssued, lt⟩
  · have seen := dated.seen i generation current (by rw [posting]; rfl)
    obtain ⟨issuedUnder, isIssued, le⟩ := dated.left i generation (by rw [posting]; rfl) request
      (by rw [posting]; exact List.mem_cons_self)
    exact ⟨Nat.le_trans seen.2 (cacheGeneration_le_answer c store), issuedUnder,
      issued_getElem_answer c isIssued,
      Nat.lt_of_le_of_lt le (Nat.lt_of_le_of_ne seen.1 different)⟩

theorem dated_answer (dated : Dated store phases) (invariant : Invariant store phases)
    (allowed : (phases i).allowed c) (joins : JoinsCurrent store phases i c) :
    Dated (answer c store).2 (Function.update phases i ((phases i).after store c)) := by
  have later := cacheGeneration_le_answer c store
  constructor
  · exact issued_le_answer c dated.issued
  · intro requestKey generation owner
    rcases owner_answer allowed owner with before | current
    · exact Nat.le_trans (dated.owners requestKey generation before) later
    · exact current ▸ later
  · intro requestKey generation owner requests found request member
    exact entries_answer dated invariant allowed joins owner found member
  · apply forall_update fun phase : LoadPhase => ∀ generation seen,
      dates phase = some (generation, seen) →
        generation ≤ seen ∧ seen ≤ (answer c store).2.cacheGeneration
    · intro j _ generation seen isDated
      have before := dated.seen j generation seen isDated
      exact ⟨before.1, Nat.le_trans before.2 later⟩
    · intro generation seen isDated
      rcases dates_after isDated with before | ⟨rfl, isOwn⟩
      · have bounds := dated.seen i generation seen before
        exact ⟨bounds.1, Nat.le_trans bounds.2 later⟩
      · exact ⟨dated.generation_le isOwn, later⟩
  · apply forall_update fun phase : LoadPhase => ∀ generation, phase.generation = some generation →
      ∀ request ∈ phase.left, IssuedBy (answer c store).2 generation request
    · intro j _ generation isOwn request isLeft
      exact (dated.left j generation isOwn request isLeft).answer c
    · intro generation isOwn request isLeft
      obtain ⟨hadOwn, hadLeft | ⟨requestKey, requests, owned, found, member⟩⟩ :=
        left_after allowed isOwn isLeft
      · exact (dated.left i generation hadOwn request hadLeft).answer c
      · obtain ⟨inEntry, isRequest, rfl⟩ := List.mem_map.mp member
        exact (dated.entries requestKey generation (Or.inr ⟨i, owned, hadOwn⟩) requests found
          inEntry isRequest).answer c
  · exact staleAnswersOlder_answer dated allowed

/-- A thread that has ended begins again. -/
theorem dated_begin (dated : Dated store phases) :
    Dated store (Function.update phases i deliveryRuns.blank) := by
  have owner : ∀ {requestKey : String} {generation : Nat},
      Owner store (Function.update phases i .idle) requestKey (some generation) →
        Owner store phases requestKey (some generation) := by
    rintro requestKey generation (queued | ⟨j, owned, isOwn⟩)
    · exact Or.inl queued
    · by_cases same : j = i
      · subst same
        rw [Function.update_self] at owned
        cases owned
      · rw [Function.update_of_ne same] at owned isOwn
        exact Or.inr ⟨j, owned, isOwn⟩
  constructor
  · exact dated.issued
  · exact fun requestKey generation after => dated.owners requestKey generation (owner after)
  · exact fun requestKey generation after => dated.entries requestKey generation (owner after)
  · exact forall_update (fun phase : LoadPhase => ∀ generation seen,
      dates phase = some (generation, seen) → generation ≤ seen ∧ seen ≤ store.cacheGeneration)
      (fun j _ => dated.seen j) nofun
  · exact forall_update (fun phase : LoadPhase => ∀ generation,
      phase.generation = some generation → ∀ request ∈ phase.left,
        IssuedBy store generation request) (fun j _ => dated.left j) nofun
  · exact dated.stale

end

/-! ## The runs -/

section

variable {ι : Type} [DecidableEq ι]

/-- Where every load that joins an entry finds a worker of the current generation, or
one that has none yet, no request is answered with null for the sake of the generation
unless the generation was raised after it was issued. -/
theorem stale_answers_older (disk : Table String Thumbnail) (events : List (CrewEvent ι Task))
    (joins : Meets (Crew.step deliveryRuns taskAction) (Crew.AtCall JoinsCurrent)
      (Crew.start deliveryRuns () (freshStore disk)) events) :
    Always (Crew.step deliveryRuns taskAction) (fun crew => StaleAnswersOlder crew.state)
      (Crew.start deliveryRuns () (freshStore disk)) events := by
  have begun : Dated (freshStore disk) (fun _ : ι => LoadPhase.idle) := by
    constructor
    · exact nofun
    · rintro requestKey generation (queued | ⟨j, owned, _⟩)
      · cases queued
      · cases owned
    · rintro requestKey generation (queued | ⟨j, owned, _⟩)
      · cases queued
      · cases owned
    · exact nofun
    · exact nofun
    · exact nofun
  have keeps := @Crew.always_keeps _ _ _ _ _ _ _ _ deliveryRuns taskAction JoinsCurrent
    (fun s g => Invariant s g ∧ Dated s g) (fun _ phase => phase.AtEnd)
    (fun task => obeys_taskAction task)
    (fun _ _ _ _ kept atEnd => ⟨invariant_begin kept.1 atEnd, dated_begin kept.2⟩)
    (fun _ _ _ _ kept allowed joins =>
      ⟨invariant_answer kept.1 allowed, dated_answer kept.2 kept.1 allowed joins⟩)
    (Crew.start deliveryRuns () (freshStore disk))
    ⟨⟨invariant_freshStore disk, begun⟩, (delivers_start disk).obeys⟩ events joins
  exact keeps.mono fun _ kept => kept.inv.2.stale

end

/-- The caches are set up, and a thumbnail is requested. -/
def requested : List (CrewEvent (Fin 2) Task) :=
  [.begin 0 (.initializeCaches false fun _ => false), .advance 0] ++
  [.begin 0 (.load "k" 64)] ++ List.replicate 6 (.advance 0)

/-- A clear, then the worker and its answer, then a second request and its worker. -/
def clearBeforeSecond : List (CrewEvent (Fin 2) Task) :=
  requested ++ [.begin 1 (.clearCache false fun _ => false)] ++ List.replicate 3 (.advance 1) ++
  [.begin 0 (.work 0 smoothSetting)] ++ List.replicate 5 (.advance 0) ++
  [.begin 1 (.load "k" 64)] ++ List.replicate 6 (.advance 1) ++
  [.begin 1 (.work 0 smoothSetting)] ++ List.replicate 15 (.advance 1)

set_option maxRecDepth 4000 in
theorem stale_answers_older_clearBeforeSecond :
    Always (Crew.step deliveryRuns taskAction) (fun crew => StaleAnswersOlder crew.state)
      (Crew.start deliveryRuns () (freshStore ∅)) clearBeforeSecond :=
  stale_answers_older ∅ clearBeforeSecond (by decide)

/-- The second request is issued after the clear and before the worker of the first has
removed their entry. -/
def joinAfterClear : List (CrewEvent (Fin 2) Task) :=
  requested ++ [.begin 1 (.clearCache false fun _ => false)] ++ List.replicate 3 (.advance 1) ++
  [.begin 1 (.load "k" 64)] ++ List.replicate 3 (.advance 1) ++
  [.begin 0 (.work 0 smoothSetting)] ++ List.replicate 7 (.advance 0)

set_option maxRecDepth 4000 in
/-- It is answered with null because the worker is from before the clear. -/
theorem joinAfterClear_stale :
    ¬∀ (disk : Table String Thumbnail) (events : List (CrewEvent (Fin 2) Task)),
      Always (Crew.step deliveryRuns taskAction) (fun crew => StaleAnswersOlder crew.state)
        (Crew.start deliveryRuns () (freshStore disk)) events := by
  intro all
  have older := (all ∅ joinAfterClear).last
  have isStale : (1, .stale 1) ∈ (run (Crew.step deliveryRuns taskAction)
      (Crew.start deliveryRuns () (freshStore ∅)) joinAfterClear).state.posted := by
    decide
  have issued : (run (Crew.step deliveryRuns taskAction)
      (Crew.start deliveryRuns () (freshStore ∅)) joinAfterClear).state.issued = [0, 1] := by
    decide
  obtain ⟨_, issuedUnder, isIssued, lt⟩ := older 1 1 isStale
  rw [issued] at isIssued
  cases isIssued
  exact Nat.lt_irrefl 1 lt

end StaleAnswers

end RoundSync.Thumbnails.Loading
