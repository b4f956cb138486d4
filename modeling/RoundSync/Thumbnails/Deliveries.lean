import RoundSync.Thumbnails.Loading
import RoundSync.Transition.Ownership
import Mathlib.Data.List.InsertIdx

/-!
# Every request is answered once

A request is in the table of requests in flight, in the hands of the worker that has
removed it, answered, or dismissed because the worker found it cancelled.  Each call
moves requests from one of these places to the next, so none is lost and none is
answered twice; and a key is in the table exactly while one load or worker owns it,
which is why no entry is left behind.
-/

namespace RoundSync.Thumbnails.Loading

open RoundSync.Data
open RoundSync.Transition

/-- How far a thread is: it has made an entry and will submit its worker, with the
generation if the caches were set up; it runs the worker, which has or has not read
the current generation; it has removed the requests, and has still to deal with some
of them or is about to answer one.  A worker's dates are its own generation and the
current one as it last read it. -/
inductive LoadPhase where
  | idle
  | joined (requestKey : String)
  | timed (requestKey : String) (requestedGeneration : Option Nat)
  | working (requestKey : String) (requestedGeneration : Option Nat)
  | dated (requestKey : String) (generation seen : Nat)
  | delivering (dates : Option (Nat × Nat)) (left : List Nat)
  | posting (dates : Option (Nat × Nat)) (request : Nat) (left : List Nat)
  deriving DecidableEq

namespace LoadPhase

/-- The key whose entry the thread owns. -/
def owned : LoadPhase → Option String
  | .joined requestKey | .timed requestKey _ | .working requestKey _ | .dated requestKey _ _ =>
      some requestKey
  | _ => none

/-- The requests that the thread has still to deal with. -/
def left : LoadPhase → List Nat
  | .delivering _ left => left
  | .posting _ request left => request :: left
  | _ => []

/-- The generation of the worker. -/
def generation : LoadPhase → Option Nat
  | .timed _ requestedGeneration | .working _ requestedGeneration => requestedGeneration
  | .dated _ generation _ => some generation
  | .delivering dates _ | .posting dates _ _ => dates.map Prod.fst
  | _ => none

/-- What a call makes of the phase. -/
def after (phase : LoadPhase) (store : RequestStore) : LoadCall → LoadPhase
  | .join requestKey _ =>
      if (store.inFlight.lookup requestKey).isNone then .joined requestKey else phase
  | .isInitialized =>
      match phase with
      | .joined requestKey => if store.initialized then phase else .timed requestKey none
      | _ => phase
  | .getGeneration =>
      match phase with
      | .joined requestKey => .timed requestKey (some store.cacheGeneration)
      | .working requestKey none => .working requestKey (some store.cacheGeneration)
      | .working requestKey (some generation) => .dated requestKey generation store.cacheGeneration
      | .delivering (some (generation, _)) left =>
          .delivering (some (generation, store.cacheGeneration)) left
      | _ => phase
  | .submit _ => .idle
  | .take index interrupted =>
      match (take index interrupted store).1 with
      | none => phase
      | some job => .working job.requestKey job.requestedGeneration
  | .removeEntry requestKey =>
      let removed := (removeEntry requestKey store).1.map LoadRequest.id
      match phase with
      | .dated _ generation seen => .delivering (some (generation, seen)) removed
      | _ => .delivering none removed
  | .discardIfNoActiveRequests requestKey =>
      if (discardIfNoActiveRequests requestKey store).1 then .idle else phase
  | .isCancelled request =>
      match phase with
      | .delivering dates (_ :: left) =>
          if request ∈ store.cancelled then .delivering dates left
          else .posting dates request left
      | _ => phase
  | .post _ _ =>
      match phase with
      | .posting dates _ left => .delivering dates left
      | _ => phase
  | _ => phase

/-- The calls of loads and workers, in their order.  A stale answer is given by a
worker that has seen another generation than its own. -/
def allowed (phase : LoadPhase) : LoadCall → Prop
  | .join _ _ | .take _ _ => phase = .idle
  | .submit job => phase = .timed job.requestKey job.requestedGeneration
  | .removeEntry requestKey => (∃ requested, phase = .working requestKey requested) ∨
      ∃ generation seen, phase = .dated requestKey generation seen
  | .discardIfNoActiveRequests requestKey => ∃ generation seen,
      phase = .dated requestKey generation seen
  | .isCancelled request => ∃ dates left, phase = .delivering dates (request :: left)
  | .post request answer => ∃ dates left, phase = .posting dates request left ∧
      ∀ current, answer = .stale current →
        ∃ generation, dates = some (generation, current) ∧ generation ≠ current
  | .answerNow answer => ∀ current, answer ≠ .stale current
  | _ => True

/-- Nothing is owned and nothing is left to do. -/
def AtEnd (phase : LoadPhase) : Prop :=
  phase.owned = none ∧ phase.left = []

end LoadPhase

/-- The runs of the store, with the phases of the threads. -/
def deliveryRuns : Protocol RequestStore LoadReply LoadPhase where
  answer := answer
  blank := .idle
  note := LoadPhase.after
  allowed := LoadPhase.allowed

/-- The calls of loads and of workers that answer requests in flight. -/
def isDeliveryCall : LoadCall → Bool
  | .join _ _ | .isInitialized | .getGeneration | .submit _ | .take _ _ | .removeEntry _
  | .discardIfNoActiveRequests _ | .isCancelled _ | .post _ _ | .answerNow _ => true
  | _ => false

namespace Deliveries

/-! ## The programs -/

theorem note_of_quiet {phase : LoadPhase} {c : LoadCall} (quiet : isDeliveryCall c = false)
    (store : RequestStore) : deliveryRuns.note phase store c = phase := by
  cases c with
  | join requestKey requestedSizePx | isInitialized | getGeneration | submit job
  | take index interrupted | removeEntry requestKey | discardIfNoActiveRequests requestKey
  | isCancelled request | post request answer | answerNow answer => cases quiet
  | _ => rfl

theorem allowed_of_quiet {phase : LoadPhase} {c : LoadCall} (quiet : isDeliveryCall c = false) :
    deliveryRuns.allowed phase c := by
  cases c with
  | join requestKey requestedSizePx | isInitialized | getGeneration | submit job
  | take index interrupted | removeEntry requestKey | discardIfNoActiveRequests requestKey
  | isCancelled request | post request answer | answerNow answer => cases quiet
  | _ => trivial

theorem quiet_of_access (c : LoadCall) (access : isCacheAccess c = true) :
    isDeliveryCall c = false := by
  cases c with
  | join requestKey requestedSizePx | isInitialized | getGeneration | submit job
  | take index interrupted | removeEntry requestKey | discardIfNoActiveRequests requestKey
  | isCancelled request | post request answer | answerNow answer => cases access
  | _ => rfl

/-- A program that only looks at the caches, or changes them. -/
theorem obeys_access {α : Type} {program : Action α} {phase : LoadPhase}
    (calls : program.EveryCall fun c => isCacheAccess c = true) :
    deliveryRuns.Obeys program (fun _ after => after = phase) phase :=
  Protocol.obeys_of_everyCall calls (fun c access => allowed_of_quiet (quiet_of_access c access))
    (fun store c access => note_of_quiet (quiet_of_access c access) store) fun _ => rfl

/-- A program that answers no request in flight, of a thread that does nothing else. -/
theorem obeys_aside {α : Type} {program : Action α}
    (calls : program.EveryCall fun c => isAside c = true) :
    deliveryRuns.Obeys program (fun _ after => after.AtEnd) .idle := by
  refine Protocol.obeys_of_everyCall calls (fun c aside => ?_) (fun store c aside => ?_)
    fun _ => ⟨rfl, rfl⟩
  · rcases aside_cases aside with rfl | ⟨answer, rfl, notStale⟩ | access
    · trivial
    · exact notStale
    · exact allowed_of_quiet (quiet_of_access c access)
  · rcases aside_cases aside with rfl | ⟨answer, rfl, _⟩ | access
    · rfl
    · rfl
    · exact note_of_quiet (quiet_of_access c access) store

theorem obeys_load (requestKey : String) (requestedSizePx : Nat) :
    deliveryRuns.Obeys (load requestKey requestedSizePx) (fun _ after => after.AtEnd)
      deliveryRuns.blank := by
  have done : LoadPhase.AtEnd .idle := ⟨rfl, rfl⟩
  refine ⟨trivial, fun store => ?_⟩
  change deliveryRuns.Obeys (if store.enabled = true then _ else _) _ .idle
  split_ifs
  · refine ⟨trivial, fun memory => ?_⟩
    generalize (deliveryRuns.answer (.getMemory (requestKey, requestedSizePx)) memory).1 = found
    cases found with
    | some bitmap => exact ⟨nofun, fun _ => done⟩
    | none =>
        refine ⟨rfl, fun table => ?_⟩
        have note : deliveryRuns.note .idle table (.join requestKey requestedSizePx) =
            if (table.inFlight.lookup requestKey).isNone then .joined requestKey else .idle := rfl
        have reply : (deliveryRuns.answer (.join requestKey requestedSizePx) table).1 =
            (table.inFlight.lookup requestKey).isNone := by
          simp only [deliveryRuns, answer, join]
          cases table.inFlight.lookup requestKey with
          | none => rfl
          | some requests => rfl
        change deliveryRuns.Obeys _ _ (deliveryRuns.note .idle table _)
        rw [note, reply]
        cases (table.inFlight.lookup requestKey).isNone with
        | false => exact done
        | true =>
            refine ⟨trivial, fun setup => ?_⟩
            have initialized : deliveryRuns.note (.joined requestKey) setup .isInitialized =
                if setup.initialized then .joined requestKey else .timed requestKey none := rfl
            change deliveryRuns.Obeys (if setup.initialized = true then _ else _) _
              (deliveryRuns.note (.joined requestKey) setup .isInitialized)
            rw [initialized]
            split_ifs
            · exact ⟨trivial, fun _ => ⟨rfl, fun _ => done⟩⟩
            · exact ⟨rfl, fun _ => done⟩
  · exact ⟨nofun, fun _ => done⟩

/-- The answer may be given to requests that are left. -/
def MayAnswer (answer : Answer) (dates : Option (Nat × Nat)) : Prop :=
  ∀ current, answer = .stale current →
    ∃ generation, dates = some (generation, current) ∧ generation ≠ current

/-- The next request is dismissed, or something may be done before it is answered. -/
theorem obeys_isCancelled {α : Type} {dates : Option (Nat × Nat)} {request : Nat}
    {left : List Nat} {next : Bool → Action α} {Q : α → LoadPhase → Prop}
    (dismissed : deliveryRuns.Obeys (next true) Q (.delivering dates left))
    (active : deliveryRuns.Obeys (next false) Q (.posting dates request left)) :
    deliveryRuns.Obeys (ask (.isCancelled request) >>= next) Q
      (.delivering dates (request :: left)) := by
  refine ⟨⟨dates, left, rfl⟩, fun store => ?_⟩
  have note : deliveryRuns.note (.delivering dates (request :: left)) store
      (.isCancelled request) =
        if request ∈ store.cancelled then .delivering dates left
        else .posting dates request left := rfl
  have reply : (deliveryRuns.answer (.isCancelled request) store).1 =
      decide (request ∈ store.cancelled) := by
    simp only [deliveryRuns, answer, isCancelled]
    split_ifs with isCancelled
    · exact (decide_eq_true isCancelled).symm
    · exact (decide_eq_false isCancelled).symm
  change deliveryRuns.Obeys (next (deliveryRuns.answer (.isCancelled request) store).1) Q
    (deliveryRuns.note _ store _)
  rw [note, reply]
  by_cases isCancelled : request ∈ store.cancelled
  · rw [decide_eq_true isCancelled, if_pos isCancelled]
    exact dismissed
  · rw [decide_eq_false isCancelled, if_neg isCancelled]
    exact active

theorem obeys_completeRequestsWithNull (requestKey : String) {answer : Answer} {phase : LoadPhase}
    {dates : Option (Nat × Nat)} (may : MayAnswer answer dates)
    (owns : (∃ requested, phase = .working requestKey requested ∧ dates = none) ∨
      ∃ generation seen, phase = .dated requestKey generation seen ∧
        dates = some (generation, seen)) :
    deliveryRuns.Obeys (completeRequestsWithNull requestKey answer) (fun _ after => after.AtEnd)
      phase := by
  have answered : ∀ requests : List LoadRequest, deliveryRuns.Obeys
      (Program.forEach requests fun request => do
        if ← ask (.isCancelled request.id) then pure () else ask (.post request.id answer))
      (fun _ after => after.AtEnd) (.delivering dates (requests.map LoadRequest.id)) := by
    intro requests
    induction requests with
    | nil => exact ⟨rfl, rfl⟩
    | cons request requests ih =>
        apply Protocol.obeys_bind.mpr
        exact obeys_isCancelled ih ⟨⟨dates, _, rfl, may⟩, fun _ => ih⟩
  rcases owns with ⟨requested, rfl, rfl⟩ | ⟨generation, seen, rfl, rfl⟩
  · exact ⟨Or.inl ⟨requested, rfl⟩, fun store => answered (removeEntry requestKey store).1⟩
  · exact ⟨Or.inr ⟨generation, seen, rfl⟩, fun store => answered (removeEntry requestKey store).1⟩

theorem obeys_deliver (requestKey : String) (generation : Nat) (shows : Bool) {missing : Answer}
    {dates : Option (Nat × Nat)} (may : MayAnswer missing dates) (setting : WorkerSetting)
    (requests : List LoadRequest) (decodedByBucket : List (Nat × Bitmap)) :
    deliveryRuns.Obeys
      (deliver requestKey generation shows missing setting requests decodedByBucket)
      (fun _ after => after.AtEnd) (.delivering dates (requests.map LoadRequest.id)) := by
  induction requests generalizing decodedByBucket with
  | nil => exact ⟨rfl, rfl⟩
  | cons request requests ih =>
      apply obeys_isCancelled (ih decodedByBucket)
      apply (obeys_access (everyCall_bitmapFor _ _ _ _ _ _)).bind
      rintro bitmap _ rfl
      cases bitmap with
      | none => exact ⟨⟨dates, _, rfl, may⟩, fun _ => ih decodedByBucket⟩
      | some bitmap => exact ⟨trivial, fun _ => ⟨⟨dates, _, rfl, nofun⟩, fun _ => ih _⟩⟩

theorem obeys_deliverRequests (requestKey : String) (generation seen : Nat) (resolved : Bool)
    (setting : WorkerSetting) :
    deliveryRuns.Obeys (deliverRequests requestKey generation resolved setting)
      (fun _ after => after.AtEnd) (.dated requestKey generation seen) := by
  refine ⟨Or.inr ⟨generation, seen, rfl⟩, fun table => ⟨trivial, fun store => ?_⟩⟩
  change deliveryRuns.Obeys (if generation = store.cacheGeneration then _ else _) _
    (.delivering (some (generation, store.cacheGeneration))
      ((removeEntry requestKey table).1.map LoadRequest.id))
  split_ifs with current
  · have noStale : MayAnswer .nothing (some (generation, store.cacheGeneration)) := nofun
    exact ⟨trivial, fun enabled => obeys_deliver requestKey generation _ noStale setting _ []⟩
  · refine obeys_deliver requestKey generation false ?_ setting _ []
    rintro _ ⟨⟩
    exact ⟨generation, rfl, current⟩

theorem obeys_loadUnderGeneration (requestKey : String) (generation : Nat)
    (setting : WorkerSetting) :
    deliveryRuns.Obeys (loadUnderGeneration requestKey generation setting)
      (fun _ after => after.AtEnd) (.working requestKey (some generation)) := by
  refine ⟨trivial, fun store => ?_⟩
  change deliveryRuns.Obeys (if generation ≠ store.cacheGeneration then _ else _) _
    (.dated requestKey generation store.cacheGeneration)
  have owns : ∀ seen, (∃ requested,
      LoadPhase.dated requestKey generation seen = .working requestKey requested ∧
        some (generation, seen) = none) ∨
      ∃ own other, LoadPhase.dated requestKey generation seen = .dated requestKey own other ∧
        some (generation, seen) = some (own, other) :=
    fun seen => Or.inr ⟨generation, seen, rfl, rfl⟩
  split
  · rename_i older
    apply obeys_completeRequestsWithNull requestKey _ (owns store.cacheGeneration)
    rintro _ ⟨⟩
    exact ⟨generation, rfl, older⟩
  · refine ⟨⟨generation, _, rfl⟩, fun table => ?_⟩
    have note : deliveryRuns.note (.dated requestKey generation store.cacheGeneration) table
        (.discardIfNoActiveRequests requestKey) =
          if (discardIfNoActiveRequests requestKey table).1 then .idle
          else .dated requestKey generation store.cacheGeneration := rfl
    change deliveryRuns.Obeys (if (discardIfNoActiveRequests requestKey table).1 = true then _
      else _) _ (deliveryRuns.note _ table _)
    rw [note]
    split
    · exact ⟨rfl, rfl⟩
    · refine ⟨trivial, fun enabled => ?_⟩
      change deliveryRuns.Obeys (if enabled.enabled = true then _ else _) _
        (.dated requestKey generation store.cacheGeneration)
      split
      · apply (obeys_access (everyCall_resolveThumbnail requestKey generation setting)).bind
        rintro resolved _ rfl
        exact obeys_deliverRequests requestKey generation _ resolved setting
      · exact obeys_completeRequestsWithNull requestKey nofun (owns store.cacheGeneration)

theorem obeys_work (index : Nat) (setting : WorkerSetting) :
    deliveryRuns.Obeys (work index setting) (fun _ after => after.AtEnd) deliveryRuns.blank := by
  refine ⟨rfl, fun store => ?_⟩
  have note : deliveryRuns.note .idle store (.take index setting.interrupted) =
      match (take index setting.interrupted store).1 with
      | none => .idle
      | some job => .working job.requestKey job.requestedGeneration := rfl
  have reply : (deliveryRuns.answer (.take index setting.interrupted) store).1 =
      (take index setting.interrupted store).1 := rfl
  change deliveryRuns.Obeys _ _ (deliveryRuns.note .idle store _)
  rw [note, reply]
  rcases (take index setting.interrupted store).1 with none | ⟨requestKey, requested⟩
  · exact ⟨rfl, rfl⟩
  · change deliveryRuns.Obeys (loadOrGenerate ⟨requestKey, requested⟩ setting) _
      (.working requestKey requested)
    unfold loadOrGenerate
    split
    · have noDates : MayAnswer .nothing none := nofun
      exact obeys_completeRequestsWithNull requestKey noDates (Or.inl ⟨requested, rfl, rfl⟩)
    · cases requested with
      | some generation => exact obeys_loadUnderGeneration requestKey generation setting
      | none => exact ⟨trivial, fun generation => obeys_loadUnderGeneration requestKey _ setting⟩

theorem obeys_taskAction (task : Task) :
    deliveryRuns.Obeys (taskAction task) (fun _ after => after.AtEnd) deliveryRuns.blank := by
  have done : LoadPhase.AtEnd .idle := ⟨rfl, rfl⟩
  cases task with
  | load requestKey requestedSizePx => exact obeys_load requestKey requestedSizePx
  | cancel request => exact ⟨trivial, fun _ => done⟩
  | work index setting => exact obeys_work index setting
  | regenerateVideoThumbnail requestKey requestedSizePx setting =>
      exact obeys_aside (everyCall_regenerateVideoThumbnail _ _ _)
  | preGenerateThumbnail requestKey setting =>
      exact obeys_aside (everyCall_preGenerateThumbnail _ _)
  | clearCache interrupted resists =>
      refine ⟨trivial, fun store => ?_⟩
      cases interrupted with
      | true => exact ⟨trivial, fun _ => done⟩
      | false => exact ⟨trivial, fun _ => ⟨trivial, fun _ => done⟩⟩
  | changeEnabled enabled =>
      refine ⟨trivial, fun _ => ?_⟩
      cases enabled with
      | true => exact done
      | false => exact ⟨trivial, fun _ => ⟨trivial, fun _ => done⟩⟩
  | initializeCaches stale resists =>
      cases stale with
      | false => exact ⟨trivial, fun _ => done⟩
      | true =>
          exact ⟨trivial, fun _ => ⟨trivial, fun _ => ⟨trivial, fun _ => ⟨trivial, fun _ =>
            done⟩⟩⟩⟩
  | trimMemory keeps => exact ⟨trivial, fun _ => done⟩
  | trimDisk keeps => exact ⟨trivial, fun _ => done⟩

/-! ## Where the requests are -/

/-- The requests in flight. -/
def inTable (inFlight : Table String (List LoadRequest)) : List Nat :=
  inFlight.values.flatMap fun requests => requests.map LoadRequest.id

/-- The requests whose callbacks have been posted. -/
def answered (store : RequestStore) : List Nat :=
  store.posted.map Prod.fst

def places (store : RequestStore) : List Nat :=
  inTable store.inFlight ++ (store.held ++ (answered store ++ store.dismissed))

/-- Each request that was issued is in one place, the keys in flight have one owner
each, and the requests in the hands of workers are distinct. -/
structure Invariant {ι : Type} (store : RequestStore) (phases : ι → LoadPhase) : Prop where
  ownership : Ownership (fun requestKey => requestKey ∈ store.inFlight)
    (store.queue.map Job.requestKey) fun i => (phases i).owned
  custody : Custody store.held fun i => (phases i).left
  each : (places store).Perm (List.range store.issued.length)
  dismissed : ∀ request ∈ store.dismissed, request ∈ store.cancelled
  cancelled : ∀ request ∈ store.cancelled, request < store.issued.length

theorem inTable_insert (inFlight : Table String (List LoadRequest)) (requestKey : String)
    (requests : List LoadRequest) :
    inTable (inFlight.insert requestKey requests) =
      requests.map LoadRequest.id ++ inTable (inFlight.erase requestKey) :=
  rfl

theorem inTable_perm {inFlight : Table String (List LoadRequest)} {requestKey : String}
    {requests : List LoadRequest} (found : inFlight.lookup requestKey = some requests) :
    (inTable inFlight).Perm
      (requests.map LoadRequest.id ++ inTable (inFlight.erase requestKey)) :=
  (Table.values_perm_of_lookup found).flatMap_right _

section

variable {store store' : RequestStore} {ι : Type} {phases : ι → LoadPhase} {i : ι}

theorem Invariant.once (invariant : Invariant store phases) : (places store).Nodup :=
  invariant.each.nodup_iff.mpr List.nodup_range

/-- A thread whose key is in flight finds its entry. -/
theorem Invariant.entry_of_owned (invariant : Invariant store phases) {requestKey : String}
    (mine : (phases i).owned = some requestKey) :
    ∃ requests, store.inFlight.lookup requestKey = some requests :=
  Option.isSome_iff_exists.mp (AList.lookup_isSome.mpr
    ((invariant.ownership.present_iff requestKey).mpr (Or.inr ⟨i, mine⟩)))

theorem Invariant.held_of_left (invariant : Invariant store phases) {request : Nat}
    {rest : List Nat} (mine : (phases i).left = request :: rest) : request ∈ store.held :=
  (invariant.custody.held_iff request).mpr ⟨i, mine ▸ List.mem_cons_self⟩

/-! ## What a call moves -/

/-- One more request is issued, and is in one place. -/
theorem each_of_issue (each : (places store).Perm (List.range store.issued.length))
    {generation : Nat} (issued : store'.issued = store.issued ++ [generation])
    (moved : (places store').Perm (store.issued.length :: places store)) :
    (places store').Perm (List.range store'.issued.length) := by
  rw [issued, List.length_append, List.length_singleton, List.range_succ]
  exact moved.trans ((each.cons _).trans (List.perm_append_singleton _ _).symm)

theorem count_places (store : RequestStore) (request : Nat) :
    (places store).count request = (inTable store.inFlight).count request +
      store.held.count request + (answered store).count request +
        store.dismissed.count request := by
  simp only [places, List.count_append]
  omega

theorem places_join (requestKey : String) (requestedSizePx : Nat) (store : RequestStore) :
    (places (join requestKey requestedSizePx store).2).Perm
      (store.issued.length :: places store) := by
  rw [List.perm_iff_count]
  intro request
  unfold join
  cases found : store.inFlight.lookup requestKey with
  | none =>
      simp only [List.count_cons, count_places, inTable_insert, List.count_append, answered,
        Table.erase_of_lookup_eq_none found, List.map_cons, List.map_nil, List.count_nil]
      omega
  | some requests =>
      have entries := (inTable_perm found).count_eq request
      simp only [List.count_cons, count_places, inTable_insert, List.count_append, answered,
        List.map_append, List.map_cons, List.map_nil, List.count_nil] at entries ⊢
      omega

theorem places_answerNow (answer : Answer) (store : RequestStore) :
    (places (Loading.answer (.answerNow answer) store).2).Perm
      (store.issued.length :: places store) := by
  rw [List.perm_iff_count]
  intro request
  simp only [List.count_cons, count_places, List.count_append, answered, Loading.answer,
    List.map_append, List.map_cons, List.map_nil, List.count_nil]
  omega

/-- The requests of an entry go into the hands of a worker. -/
theorem places_removeEntry (requestKey : String) (store : RequestStore) :
    (places (removeEntry requestKey store).2).Perm (places store) := by
  rw [List.perm_iff_count]
  intro request
  unfold removeEntry
  cases found : store.inFlight.lookup requestKey with
  | none => rfl
  | some requests =>
      have entries := (inTable_perm found).count_eq request
      simp only [count_places, List.count_append, answered] at entries ⊢
      omega

theorem places_discardIfNoActiveRequests (requestKey : String) (store : RequestStore) :
    (places (discardIfNoActiveRequests requestKey store).2).Perm (places store) := by
  rw [List.perm_iff_count]
  intro request
  unfold discardIfNoActiveRequests
  cases found : store.inFlight.lookup requestKey with
  | none => rfl
  | some requests =>
      have entries := (inTable_perm found).count_eq request
      dsimp only
      split
      · simp only [count_places, List.count_append, answered] at entries ⊢
        omega
      · rfl

/-- A request in the hands of a worker is answered. -/
theorem places_post {request : Nat} (isHeld : request ∈ store.held) (answer : Answer) :
    (places (Loading.answer (.post request answer) store).2).Perm (places store) := by
  rw [List.perm_iff_count]
  intro other
  have taken := (List.perm_cons_erase isHeld).count_eq other
  simp only [List.count_cons, count_places, List.count_append, answered, Loading.answer,
    List.map_append, List.map_cons, List.map_nil, List.count_nil] at taken ⊢
  omega

theorem places_isCancelled {request : Nat} (isHeld : request ∈ store.held) :
    (places (isCancelled request store).2).Perm (places store) := by
  rw [List.perm_iff_count]
  intro other
  have taken := (List.perm_cons_erase isHeld).count_eq other
  unfold isCancelled
  split
  · simp only [List.count_cons, count_places, List.count_append, answered,
      List.count_nil] at taken ⊢
    omega
  · rfl

/-! ## What a call keeps -/

/-- Stores with the same requests. -/
structure SameRequests (store store' : RequestStore) : Prop where
  inFlight : store'.inFlight = store.inFlight
  cancelled : store'.cancelled = store.cancelled
  queue : store'.queue = store.queue
  posted : store'.posted = store.posted
  issued : store'.issued = store.issued
  held : store'.held = store.held
  dismissed : store'.dismissed = store.dismissed

/-- The calls that move requests, or workers. -/
def isMove : LoadCall → Bool
  | .answerNow _ | .join _ _ | .cancel _ | .isCancelled _ | .post _ _ | .removeEntry _
  | .discardIfNoActiveRequests _ | .submit _ | .take _ _ => true
  | _ => false

theorem sameRequests_answer {c : LoadCall} (quiet : isMove c = false) (store : RequestStore) :
    SameRequests store (answer c store).2 := by
  cases c with
  | answerNow answer | join requestKey requestedSizePx | cancel request | isCancelled request
  | post request answer | removeEntry requestKey | discardIfNoActiveRequests requestKey
  | submit job | take index interrupted => cases quiet
  | deleteCachedThumbnail requestKey deletes =>
      cases deletes with
      | false => exact ⟨rfl, rfl, rfl, rfl, rfl, rfl, rfl⟩
      | true => exact ⟨rfl, rfl, rfl, rfl, rfl, rfl, rfl⟩
  | writeThumbnail requestKey generation usable writes =>
      simp only [answer, writeThumbnail]
      split_ifs
      · exact ⟨rfl, rfl, rfl, rfl, rfl, rfl, rfl⟩
      · exact ⟨rfl, rfl, rfl, rfl, rfl, rfl, rfl⟩
  | _ => exact ⟨rfl, rfl, rfl, rfl, rfl, rfl, rfl⟩

/-- Such calls change neither what a thread owns nor what it has left to do. -/
theorem after_of_quiet {c : LoadCall} (quiet : isMove c = false) (phase : LoadPhase)
    (store : RequestStore) :
    (phase.after store c).owned = phase.owned ∧ (phase.after store c).left = phase.left := by
  cases c with
  | answerNow answer | join requestKey requestedSizePx | cancel request | isCancelled request
  | post request answer | removeEntry requestKey | discardIfNoActiveRequests requestKey
  | submit job | take index interrupted => cases quiet
  | isInitialized =>
      cases phase with
      | joined requestKey =>
          simp only [LoadPhase.after]
          split_ifs
          · exact ⟨rfl, rfl⟩
          · exact ⟨rfl, rfl⟩
      | _ => exact ⟨rfl, rfl⟩
  | getGeneration =>
      cases phase with
      | working requestKey requested =>
          cases requested with
          | none => exact ⟨rfl, rfl⟩
          | some generation => exact ⟨rfl, rfl⟩
      | delivering dates left =>
          cases dates with
          | none => exact ⟨rfl, rfl⟩
          | some dates => exact ⟨rfl, rfl⟩
      | _ => exact ⟨rfl, rfl⟩
  | _ => exact ⟨rfl, rfl⟩

variable [DecidableEq ι] {phase : LoadPhase}

theorem owned_update : (fun j => (Function.update phases i phase j).owned) =
    Function.update (fun j => (phases j).owned) i phase.owned :=
  Function.comp_update LoadPhase.owned phases i phase

theorem left_update : (fun j => (Function.update phases i phase j).left) =
    Function.update (fun j => (phases j).left) i phase.left :=
  Function.comp_update LoadPhase.left phases i phase

theorem owned_update_same (same : phase.owned = (phases i).owned) :
    (fun j => (Function.update phases i phase j).owned) = fun j => (phases j).owned := by
  rw [owned_update, same]
  exact Function.update_eq_self i fun j => (phases j).owned

theorem left_update_same (same : phase.left = (phases i).left) :
    (fun j => (Function.update phases i phase j).left) = fun j => (phases j).left := by
  rw [left_update, same]
  exact Function.update_eq_self i fun j => (phases j).left

theorem Invariant.of_same (invariant : Invariant store phases) (same : SameRequests store store')
    (owned : phase.owned = (phases i).owned) (left : phase.left = (phases i).left) :
    Invariant store' (Function.update phases i phase) := by
  constructor
  · rw [same.inFlight, same.queue, owned_update_same owned]
    exact invariant.ownership
  · rw [same.held, left_update_same left]
    exact invariant.custody
  · rw [places, answered, same.inFlight, same.held, same.posted, same.dismissed, same.issued]
    exact invariant.each
  · rw [same.dismissed, same.cancelled]
    exact invariant.dismissed
  · rw [same.cancelled, same.issued]
    exact invariant.cancelled

theorem lt_issued_of_append {cancelled issued : List Nat} {generation : Nat}
    (bound : ∀ request ∈ cancelled, request < issued.length) (request : Nat)
    (member : request ∈ cancelled) : request < (issued ++ [generation]).length := by
  rw [List.length_append]
  exact Nat.lt_add_right _ (bound request member)

/-- A load makes an entry, or its request joins the others of its key. -/
theorem invariant_join (invariant : Invariant store phases) (requestKey : String)
    (requestedSizePx : Nat) (idle : phases i = .idle) :
    Invariant (join requestKey requestedSizePx store).2
      (Function.update phases i
        (LoadPhase.after (phases i) store (.join requestKey requestedSizePx))) := by
  have moved := places_join requestKey requestedSizePx store
  rw [idle]
  simp only [LoadPhase.after]
  unfold join at moved ⊢
  cases found : store.inFlight.lookup requestKey with
  | none =>
      rw [found] at moved
      rw [Option.isNone_none, if_pos rfl]
      constructor
      · rw [owned_update]
        apply invariant.ownership.claim (AList.lookup_eq_none.mp found)
        · rw [idle]
          rfl
        · exact fun other => (AList.mem_insert _).trans or_comm
      · rw [left_update_same (by rw [idle]; rfl)]
        exact invariant.custody
      · exact each_of_issue invariant.each rfl moved
      · exact invariant.dismissed
      · exact lt_issued_of_append invariant.cancelled
  | some requests =>
      rw [found] at moved
      have isThere : requestKey ∈ store.inFlight :=
        AList.lookup_isSome.mp (Option.isSome_iff_exists.mpr ⟨requests, found⟩)
      rw [Option.isNone_some, if_neg nofun]
      constructor
      · rw [owned_update_same (by rw [idle])]
        refine invariant.ownership.congr fun other => (AList.mem_insert _).trans ?_
        exact or_iff_right_of_imp fun same => same ▸ isThere
      · rw [left_update_same (by rw [idle])]
        exact invariant.custody
      · exact each_of_issue invariant.each rfl moved
      · exact invariant.dismissed
      · exact lt_issued_of_append invariant.cancelled

theorem invariant_answerNow (invariant : Invariant store phases) (answer : Answer) :
    Invariant (Loading.answer (.answerNow answer) store).2
      (Function.update phases i (LoadPhase.after (phases i) store (.answerNow answer))) := by
  have moved := places_answerNow answer store
  have phase : (phases i).after store (.answerNow answer) = phases i := rfl
  rw [phase, Function.update_eq_self]
  exact ⟨invariant.ownership, invariant.custody, each_of_issue invariant.each rfl moved,
    invariant.dismissed, lt_issued_of_append invariant.cancelled⟩

theorem invariant_cancel (invariant : Invariant store phases) (request : Nat) :
    Invariant (answer (.cancel request) store).2
      (Function.update phases i (LoadPhase.after (phases i) store (.cancel request))) := by
  have phase : (phases i).after store (.cancel request) = phases i := rfl
  rw [phase, Function.update_eq_self]
  simp only [answer]
  split
  · rename_i isIssued
    refine ⟨invariant.ownership, invariant.custody, invariant.each,
      fun other member => List.mem_cons_of_mem request (invariant.dismissed other member), ?_⟩
    exact List.forall_mem_cons.mpr ⟨isIssued, invariant.cancelled⟩
  · exact invariant

theorem invariant_submit (invariant : Invariant store phases) {job : Job}
    (timed : phases i = .timed job.requestKey job.requestedGeneration) :
    Invariant (answer (.submit job) store).2
      (Function.update phases i (LoadPhase.after (phases i) store (.submit job))) := by
  constructor
  · rw [owned_update]
    have mine : (phases i).owned = some job.requestKey := by
      rw [timed]
      rfl
    have enqueued := invariant.ownership.enqueue mine
    rw [← List.map_singleton, ← List.map_append] at enqueued
    exact enqueued
  · rw [left_update_same (by rw [timed]; rfl)]
    exact invariant.custody
  · exact invariant.each
  · exact invariant.dismissed
  · exact invariant.cancelled

theorem invariant_take (invariant : Invariant store phases) (index : Nat) (interrupted : Bool)
    (idle : phases i = .idle) :
    Invariant (take index interrupted store).2
      (Function.update phases i (LoadPhase.after (phases i) store (.take index interrupted))) := by
  have phase : (phases i).after store (.take index interrupted) =
      match (take index interrupted store).1 with
      | none => phases i
      | some job => .working job.requestKey job.requestedGeneration := rfl
  rw [phase]
  unfold take
  split
  · cases found : store.queue[index]? with
    | none =>
        rw [Function.update_eq_self]
        exact invariant
    | some job =>
        constructor
        · rw [owned_update]
          have there : (store.queue.map Job.requestKey)[index]? = some job.requestKey := by
            rw [List.getElem?_map, found]
            rfl
          have nothing : (phases i).owned = none := by
            rw [idle]
            rfl
          have dequeued := invariant.ownership.dequeue there nothing
          rw [List.eraseIdx_map] at dequeued
          exact dequeued
        · rw [left_update_same (by rw [idle]; rfl)]
          exact invariant.custody
        · exact invariant.each
        · exact invariant.dismissed
        · exact invariant.cancelled
  · rw [Function.update_eq_self]
    exact invariant

/-- A worker removes the entry that it owns. -/
theorem invariant_removeEntry (invariant : Invariant store phases) {requestKey : String}
    (mine : (phases i).owned = some requestKey) (nothing : (phases i).left = []) {phase : LoadPhase}
    (owned : phase.owned = none)
    (left : phase.left = (removeEntry requestKey store).1.map LoadRequest.id) :
    Invariant (removeEntry requestKey store).2 (Function.update phases i phase) := by
  obtain ⟨requests, found⟩ := invariant.entry_of_owned mine
  have moved := places_removeEntry requestKey store
  have distinct := invariant.once
  unfold removeEntry at left moved ⊢
  rw [found] at left moved ⊢
  have entry := (inTable_perm found).symm
  rw [places, List.nodup_append] at distinct
  obtain ⟨tableOnce, _, apart⟩ := distinct
  constructor
  · rw [owned_update, owned]
    exact invariant.ownership.release mine fun other => AList.mem_erase
  · rw [left_update, left]
    apply invariant.custody.take nothing
    · exact (List.nodup_append.mp (entry.nodup_iff.mpr tableOnce)).1
    · intro request member isHeld
      have here : request ∈ inTable store.inFlight :=
        entry.subset (List.mem_append_left _ member)
      exact apart request here request (List.mem_append_left _ isHeld) rfl
  · exact moved.trans invariant.each
  · exact invariant.dismissed
  · exact invariant.cancelled

/-- A worker finds that all requests of its entry are cancelled, and drops it. -/
theorem invariant_discardIfNoActiveRequests (invariant : Invariant store phases)
    {requestKey : String} (mine : (phases i).owned = some requestKey)
    (nothing : (phases i).left = []) :
    Invariant (discardIfNoActiveRequests requestKey store).2
      (Function.update phases i
        (LoadPhase.after (phases i) store (.discardIfNoActiveRequests requestKey))) := by
  obtain ⟨requests, found⟩ := invariant.entry_of_owned mine
  have moved := places_discardIfNoActiveRequests requestKey store
  have phase : (phases i).after store (.discardIfNoActiveRequests requestKey) =
      if (discardIfNoActiveRequests requestKey store).1 then .idle else phases i := rfl
  have value : discardIfNoActiveRequests requestKey store =
      if (requests.all fun request => request.id ∈ store.cancelled) then
        (true, { store with
          inFlight := store.inFlight.erase requestKey
          dismissed := store.dismissed ++ requests.map LoadRequest.id })
      else (false, store) := by
    unfold discardIfNoActiveRequests
    rw [found]
  by_cases inactive : (requests.all fun request => request.id ∈ store.cancelled) = true
  · rw [if_pos inactive] at value
    rw [value] at moved
    rw [phase, value]
    rw [if_pos rfl]
    constructor
    · rw [owned_update]
      exact invariant.ownership.release mine fun other => AList.mem_erase
    · rw [left_update_same (by rw [nothing]; rfl)]
      exact invariant.custody
    · exact moved.trans invariant.each
    · intro request member
      rcases List.mem_append.mp member with before | here
      · exact invariant.dismissed request before
      · obtain ⟨inEntry, isRequest, rfl⟩ := List.mem_map.mp here
        exact of_decide_eq_true (List.all_eq_true.mp inactive inEntry isRequest)
    · exact invariant.cancelled
  · rw [if_neg inactive] at value
    rw [phase, value, if_neg nofun, Function.update_eq_self]
    exact invariant

/-- A worker finds its next request cancelled, or is about to answer it. -/
theorem invariant_isCancelled (invariant : Invariant store phases) {request : Nat}
    {dates : Option (Nat × Nat)} {left : List Nat}
    (delivering : phases i = .delivering dates (request :: left)) :
    Invariant (isCancelled request store).2
      (Function.update phases i (LoadPhase.after (phases i) store (.isCancelled request))) := by
  have mine : (phases i).left = request :: left := by
    rw [delivering]
    rfl
  have moved := places_isCancelled (invariant.held_of_left mine)
  rw [delivering]
  simp only [LoadPhase.after]
  unfold isCancelled at moved ⊢
  split
  · rename_i isCancelled
    rw [if_pos isCancelled] at moved
    constructor
    · rw [owned_update_same (by rw [delivering]; rfl)]
      exact invariant.ownership
    · rw [left_update]
      exact invariant.custody.drop mine
    · exact moved.trans invariant.each
    · intro other member
      rcases List.mem_append.mp member with before | here
      · exact invariant.dismissed other before
      · rw [List.mem_singleton.mp here]
        exact isCancelled
    · exact invariant.cancelled
  · exact invariant.of_same ⟨rfl, rfl, rfl, rfl, rfl, rfl, rfl⟩ (by rw [delivering]; rfl)
      (by rw [delivering]; rfl)

theorem invariant_post (invariant : Invariant store phases) {request : Nat} (answer : Answer)
    {dates : Option (Nat × Nat)} {left : List Nat}
    (posting : phases i = .posting dates request left) :
    Invariant (Loading.answer (.post request answer) store).2
      (Function.update phases i (LoadPhase.after (phases i) store (.post request answer))) := by
  have mine : (phases i).left = request :: left := by
    rw [posting]
    rfl
  have moved := places_post (invariant.held_of_left mine) answer
  rw [posting]
  constructor
  · rw [owned_update_same (by rw [posting]; rfl)]
    exact invariant.ownership
  · rw [left_update]
    exact invariant.custody.drop mine
  · exact moved.trans invariant.each
  · exact invariant.dismissed
  · exact invariant.cancelled

/-- What a call keeps. -/
theorem invariant_answer (invariant : Invariant store phases) {c : LoadCall}
    (allowed : deliveryRuns.allowed (phases i) c) :
    Invariant (answer c store).2
      (Function.update phases i (deliveryRuns.note (phases i) store c)) := by
  change (phases i).allowed c at allowed
  change Invariant _ (Function.update phases i ((phases i).after store c))
  cases c with
  | answerNow answer => exact invariant_answerNow invariant answer
  | join requestKey requestedSizePx =>
      exact invariant_join invariant requestKey requestedSizePx allowed
  | cancel request => exact invariant_cancel invariant request
  | isCancelled request =>
      obtain ⟨dates, left, delivering⟩ := allowed
      exact invariant_isCancelled invariant delivering
  | post request answer =>
      obtain ⟨dates, left, posting, _⟩ := allowed
      exact invariant_post invariant answer posting
  | removeEntry requestKey =>
      rcases allowed with ⟨requested, working⟩ | ⟨generation, seen, dated⟩
      · rw [working]
        exact invariant_removeEntry invariant (by rw [working]; rfl) (by rw [working]; rfl) rfl rfl
      · rw [dated]
        exact invariant_removeEntry invariant (by rw [dated]; rfl) (by rw [dated]; rfl) rfl rfl
  | discardIfNoActiveRequests requestKey =>
      obtain ⟨generation, seen, dated⟩ := allowed
      exact invariant_discardIfNoActiveRequests invariant (by rw [dated]; rfl) (by rw [dated]; rfl)
  | submit job => exact invariant_submit invariant allowed
  | take index interrupted => exact invariant_take invariant index interrupted allowed
  | _ =>
      exact invariant.of_same (sameRequests_answer rfl store) (after_of_quiet rfl _ store).1
        (after_of_quiet rfl _ store).2

theorem invariant_begin (invariant : Invariant store phases) (atEnd : (phases i).AtEnd) :
    Invariant store (Function.update phases i deliveryRuns.blank) :=
  invariant.of_same ⟨rfl, rfl, rfl, rfl, rfl, rfl, rfl⟩ (by rw [atEnd.1]; rfl)
    (by rw [atEnd.2]; rfl)

end

/-! ## The runs -/

section

variable {ι : Type} [DecidableEq ι]

omit [DecidableEq ι] in
theorem invariant_freshStore (disk : Table String Thumbnail) :
    Invariant (freshStore disk) (fun _ : ι => LoadPhase.idle) := by
  constructor
  · constructor
    · intro requestKey
      exact ⟨fun isThere => absurd isThere (AList.notMem_empty requestKey), nofun⟩
    · exact List.nodup_nil
    · exact nofun
    · exact nofun
  · exact ⟨fun _ => ⟨nofun, nofun⟩, List.nodup_nil, fun _ => List.nodup_nil, nofun⟩
  · exact List.Perm.refl []
  · exact nofun
  · exact nofun

/-- What holds of every crew that is reached. -/
abbrev Delivers (crew : Crew RequestStore ι LoadReply LoadPhase Unit) : Prop :=
  crew.Keeps deliveryRuns Invariant fun _ phase => phase.AtEnd

omit [DecidableEq ι] in
theorem delivers_start (disk : Table String Thumbnail) :
    Delivers (Crew.start deliveryRuns () (freshStore disk) : Crew _ ι _ _ _) :=
  ⟨invariant_freshStore disk, fun _ => ⟨rfl, rfl⟩⟩

end

end Deliveries

end RoundSync.Thumbnails.Loading
