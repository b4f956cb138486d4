import Mathlib
import RoundSync.QuarkDav.TaskCalls

/-!
# What heartbeats register

Every task of the supervisor registers a changed configuration together with its
fingerprint, and launches a kernel with the configuration it has just written.
So the registered configurations are those the kernels run with, in every state
of a run, exactly if no kernel is given another one while it runs.
-/

namespace RoundSync.QuarkDav

open RoundSync.Data
open RoundSync.Text
open RoundSync.Transition
open RoundSync.Transition.Shop

variable {platform : Platform} {s : Service}

/-- A call that keeps to the rules in every state. -/
def Careful (platform : Platform) (c : ServiceCall) : Prop :=
  ∀ s, Minds platform s c

theorem Bookkeeping.fieldsChange {before after : Supervisor} (keeps : Bookkeeping before after) :
    FieldsChange platform before after := by
  constructor
  · exact keeps.running
  · exact keeps.length
  · intro i h h' found found'
    obtain ⟨process, config, same⟩ := keeps.holders i h h' found found'
    exact ⟨process, .inl ⟨config, same⟩⟩

/-- The change by which a heartbeat or a reconcile registers a configuration. -/
theorem fieldsChange_adopt (v : Supervisor) (holder : Nat) (remote : QuarkDavRemote) :
    FieldsChange platform v (v.update holder fun h =>
      { h with config := remote, fingerprint := fingerprint platform remote }) := by
  constructor
  · exact fun _ _ registered => registered
  · exact List.length_modify _ v.holders holder
  · intro i h h' found found'
    rcases getElem?_update found found' with ⟨rfl, _⟩ | rfl
    · exact ⟨rfl, .inr rfl⟩
    · exact ⟨rfl, .inl ⟨rfl, rfl⟩⟩

/-- Tasks that launch nothing keep to the rules, whatever they read. -/
theorem careful : Permits platform (Careful platform) fun _ => True where
  harmless c _ s := by cases c <;> trivial
  fields s := (bookkeeping_of_holders (fun _ _ registered => registered) rfl).fieldsChange
  bookkeeping _ keeps s := (keeps s.supervisor).fieldsChange
  adopt holder remote _ s := fieldsChange_adopt s.supervisor holder remote
  save _ _ _ := trivial

/-! ## Tasks that launch kernels -/

/-- Between two calls anything may happen; every call keeps to the rules. -/
def mindTerms (platform : Platform) : Terms Service ServiceCall where
  rely := Onward
  assumed _ _ := True
  shown := Minds platform

/-- What a task ensures under the terms of launching. -/
abbrev MindEnsures {α : Type} (platform : Platform) (task : Task α) (Q : α → Service → Prop)
    (s : Service) : Prop :=
  task.Ensures (answer platform) (mindTerms platform) Q s

theorem minds_of_permitted {α : Type} {task : Task α}
    (permitted : Permitted (Careful platform) (fun _ => True) task) (s : Service) :
    MindEnsures platform task (fun _ _ => True) s :=
  (everyCall_of_permitted permitted).shown (fun _ t minds _ => minds t) s

/-- A harmless call, and what it leaves of an id without a kernel. -/
theorem mindEnsures_ask {c : ServiceCall} {id : JavaString} (harmless : Harmless c)
    (none : NoneAlive s id) :
    MindEnsures platform (ask c) (fun _ t => NoneAlive t id) s := by
  intro reached onward _
  refine ⟨?_, (none.of_ages onward.processes).of_ages (onward_answer harmless).processes⟩
  cases c <;> trivial

/-- A kernel that is launched right after its file is written reads that file, or
none. -/
theorem mindEnsures_launchKernel {remote : QuarkDavRemote} (none : NoneAlive s remote.id) :
    MindEnsures platform (launchKernel platform remote) (fun _ _ => True) s := by
  apply Program.ensures_request_bind
  intro reached onward _
  refine ⟨trivial, ?_⟩
  have own : ((answer platform (.get remote.id) reached).1.getD remote).id = remote.id :=
    id_getD_get platform
  generalize (answer platform (.get remote.id) reached).1.getD remote = refreshed at own ⊢
  have noneR : NoneAlive reached refreshed.id := own ▸ none.of_ages onward.processes
  apply Program.ensures_request_bind
  intro written onwardW _
  refine ⟨trivial, ?_⟩
  have noneW : NoneAlive written refreshed.id := noneR.of_ages onwardW.processes
  apply Program.ensures_request_bind
  intro late onwardL _
  constructor
  · -- only the file just written, or none, is there to be read
    intro config found
    have kept : late.dir.runtime.lookup refreshed.id =
        (written.dir.runtime.insert refreshed.id (refreshed.kernelConfig platform)).lookup
          refreshed.id ∨ late.dir.runtime.lookup refreshed.id = .none :=
      onwardL.runtime refreshed.id noneW
    rw [AList.lookup_insert, found] at kept
    rcases kept with same | absent
    · exact Option.some.inj same
    · cases absent
  · split
    · exact minds_of_permitted (careful.ask (c := .writeStatus _) trivial) _
    · apply (minds_of_permitted (permitted_displayWebDavUrl careful.toReads refreshed) _).bind
      intro _ t _
      exact minds_of_permitted (careful.ask (c := .writeStatus _) trivial) t

theorem noneAlive_terminated (s : Service) (id : JavaString) :
    NoneAlive (answer platform (.terminateStaleKernel id) s).2 id := by
  intro p member own
  obtain ⟨p₀, _, rfl⟩ := List.mem_map.mp member
  split at own
  · rename_i isOld
    rw [if_pos isOld]
  · rename_i isOther
    exact absurd own isOther

theorem mindEnsures_startProcess (remote : QuarkDavRemote) :
    MindEnsures platform (startProcess platform remote) (fun _ _ => True) s := by
  apply Program.ensures_request_bind
  intro reached _ _
  refine ⟨trivial, ?_⟩
  split
  · exact minds_of_permitted (careful.ask (c := .writeStatus _) trivial) _
  · apply Program.ensures_request_bind
    intro _ _ _
    refine ⟨trivial, ?_⟩
    apply Program.ensures_request_bind
    intro stale _ _
    refine ⟨trivial, ?_⟩
    have none : NoneAlive (answer platform (.terminateStaleKernel remote.id) stale).2 remote.id :=
      noneAlive_terminated stale remote.id
    split
    · exact (mindEnsures_ask (c := .syncRuntimeCookie remote.id) trivial none).bind fun _ _ none =>
        mindEnsures_launchKernel none
    · exact mindEnsures_launchKernel none

theorem mindEnsures_startMissing (remote : QuarkDavRemote) :
    MindEnsures platform (startMissing platform remote) (fun _ _ => True) s := by
  apply (minds_of_permitted (Program.passes_request careful.fields) s).bind
  intro v t _
  split
  · exact mindEnsures_startProcess remote
  · trivial

theorem mindEnsures_reconcileInternal (bootOnly : Bool) :
    MindEnsures platform (reconcileInternal platform bootOnly) (fun _ _ => True) s := by
  apply (minds_of_permitted (careful.ask (c := .list) trivial) s).bind
  intro all t _
  apply (minds_of_permitted (Program.passes_request careful.fields) t).bind
  intro v t _
  apply (minds_of_permitted (Program.passes_forEach fun id _ =>
    permitted_reconcileRunning careful (fun _ _ => trivial) id) t).bind
  intro _ t _
  apply (minds_of_permitted (careful.ask (c := .list) trivial) t).bind
  intro refreshed t _
  apply (Program.ensures_forEach (I := fun _ _ => True)
    (fun remote _ t _ => mindEnsures_startMissing remote) trivial).bind
  intro _ t _
  exact minds_of_permitted (permitted_refreshed careful false) t

theorem mindEnsures_stopAll : MindEnsures platform (stopAll platform) (fun _ _ => True) s := by
  apply (minds_of_permitted (careful.ask (c := .list) trivial) s).bind
  intro all t _
  apply (minds_of_permitted (Program.passes_forEach fun _ _ =>
    permitted_stopEnabled careful trivial) t).bind
  intro _ t _
  exact mindEnsures_reconcileInternal false

theorem mindEnsures_stopRemote (id : JavaString) :
    MindEnsures platform (stopRemote platform id) (fun _ _ => True) s := by
  apply (minds_of_permitted (careful.ask (c := .get id) trivial) s).bind
  intro current t _
  cases current with
  | none => exact mindEnsures_reconcileInternal false
  | some current =>
      apply (minds_of_permitted (Program.passes_request (careful.save _ trivial)) t).bind
      intro result t _
      cases result with
      | error message => trivial
      | ok saved => exact mindEnsures_reconcileInternal false

theorem mindEnsures_scheduledRestart (index : Nat) :
    MindEnsures platform (scheduledRestart platform index) (fun _ _ => True) s := by
  apply (minds_of_permitted (permitted_unschedule careful index) s).bind
  intro before t _
  cases before.scheduled[index]? with
  | none => trivial
  | some id =>
      apply (minds_of_permitted (careful.ask (c := .get id) trivial) t).bind
      intro latest t _
      cases latest with
      | none => trivial
      | some latest =>
          dsimp only
          split
          · exact mindEnsures_startMissing latest
          · trivial

/-- Every task keeps to the rules, from any state and whatever happens in its course. -/
theorem mindEnsures_program (task : ServiceTask) (s : Service) :
    MindEnsures platform (task.program platform) (fun _ _ => True) s := by
  cases task with
  | reconcile bootOnly => exact mindEnsures_reconcileInternal bootOnly
  | stopAll => exact mindEnsures_stopAll
  | stopRemote id => exact mindEnsures_stopRemote id
  | heartbeat => exact minds_of_permitted (permitted_refreshed careful true) s
  | pidLine holder pid => exact minds_of_permitted (permitted_pidLine careful holder pid) s
  | readyLine holder url => exact minds_of_permitted (permitted_readyLine careful holder url) s
  | processExit id holder exitCode => exact minds_of_permitted (permitted_onProcessExit careful id holder exitCode) s
  | scheduledRestart index => exact mindEnsures_scheduledRestart index
  | destroy => exact minds_of_permitted (permitted_onDestroy careful) s

/-! ## Runs -/

theorem mindTerms_trans (a b c : Service) (first : (mindTerms platform).rely a b)
    (second : (mindTerms platform).rely b c) : (mindTerms platform).rely a c :=
  Onward.trans first second

/-- The guard rule for the supervisor: what lasts between two calls, and holds
whenever the service starts, holds throughout exactly if every call keeps it. -/
theorem always_iff_guarded {P : Service → Prop} {guard : Service → ServiceCall → Prop}
    (exactly : ∀ t c, Minds platform t c → P t → (P (answer platform c t).2 ↔ guard t c))
    (lasts : ∀ t u, P t → Onward t u → P u) (starts : ∀ t, P ((service platform).restart t))
    (s : Service) (events : List (WorkerEvent OutsideEvent ServiceTask)) :
    Always (service platform).step (fun w => P w.state)
        ⟨(service platform).restart s, pure ()⟩ events ↔
      Meets (service platform).step (AtCalls guard)
        ⟨(service platform).restart s, pure ()⟩ events := by
  have idle : (pure () : Task Unit).Ensures (answer platform) (mindTerms platform)
      (fun _ _ => True) ((service platform).restart s) := trivial
  apply Shop.always_iff_atCalls (S := fun _ => True) Onward.refl mindTerms_trans onward_outside
    (fun _ _ => trivial) mindEnsures_program (fun _ _ _ _ => trivial) (fun _ _ _ => trivial)
    (fun _ _ => trivial) _ _ _ idle trivial (starts s)
  · exact fun t c minds _ holds => exactly t c minds holds
  · exact fun t event holds => lasts t _ holds (onward_outside t event)
  · exact fun t _ => starts t

/-- Wired and truthful throughout, or some kernel is given other settings. -/
theorem always_wired_truthful_iff (collisionFree : CollisionFree platform) (s : Service)
    (events : List (WorkerEvent OutsideEvent ServiceTask)) :
    Always (service platform).step (fun w => Wired w.state ∧ Truthful platform w.state)
        ⟨(service platform).restart s, pure ()⟩ events ↔
      Meets (service platform).step (AtCalls (AdoptsLaunched platform))
        ⟨(service platform).restart s, pure ()⟩ events := by
  have keeps : ∀ t c, Minds platform t c → Wired t ∧ Truthful platform t →
      (Wired (answer platform c t).2 ∧ Truthful platform (answer platform c t).2 ↔
        AdoptsLaunched platform t c) := by
    rintro t c minds ⟨wired, truthful⟩
    rw [← truthful_answer_iff collisionFree wired truthful minds]
    exact and_iff_right (wired_answer wired minds)
  have starts : ∀ t, Wired ((service platform).restart t) ∧
      Truthful platform ((service platform).restart t) := by
    intro t
    constructor
    · intro id holder registered
      cases registered
    · intro id holder h p registered
      cases registered
  exact always_iff_guarded (P := fun t => Wired t ∧ Truthful platform t) keeps
    (fun t u holds onward => ⟨holds.1.onward onward, holds.2.onward holds.1 onward⟩) starts s events

/-- A field with a mark before every character and another one at its end. -/
def marked (field : JavaString) : JavaString :=
  field.flatMap (fun c => ['-', c]) ++ ['.']

theorem marked_append_inj {first second x y : JavaString}
    (equal : marked first ++ x = marked second ++ y) : first = second ∧ x = y := by
  induction first generalizing second with
  | nil =>
      cases second with
      | nil => exact ⟨rfl, (List.cons.inj equal).2⟩
      | cons c second => cases (List.cons.inj equal).1
  | cons c first ih =>
      cases second with
      | nil => cases (List.cons.inj equal).1
      | cons d second =>
          obtain ⟨same, rest⟩ := List.cons.inj (List.cons.inj equal).2
          obtain ⟨sameFirst, sameRest⟩ := ih rest
          exact ⟨by rw [same, sameFirst], sameRest⟩

theorem flatMap_marked_inj {first second : List JavaString}
    (length : first.length = second.length)
    (equal : first.flatMap marked = second.flatMap marked) : first = second := by
  induction first generalizing second with
  | nil => exact (List.length_eq_zero_iff.mp length.symm).symm
  | cons field first ih =>
      cases second with
      | nil => cases length
      | cons field' second =>
          obtain ⟨same, rest⟩ := marked_append_inj equal
          rw [same, ih (Nat.succ.inj length) rest]

/-- A field that is a switch. -/
def switchField (on : Bool) : JavaString :=
  if on then text "1" else []

theorem switchField_inj {a b : Bool} (same : switchField a = switchField b) : a = b := by
  revert a b
  decide

theorem toString_field_inj {a b : Int} (same : text (toString a) = text (toString b)) : a = b :=
  Int.repr_injective (String.toList_inj.mp same)

def QuarkDavRemote.fields (remote : QuarkDavRemote) : List JavaString :=
  [remote.id, remote.name, switchField remote.enabled, switchField remote.startAtBoot,
    switchField remote.keepCpuAwake, remote.listenAddress, text (toString remote.port),
    remote.pathPrefix, remote.username, remote.password, switchField remote.noAuth,
    text (toString remote.cacheTtlSeconds), remote.tempDir, remote.cookie, remote.rootId,
    remote.brand, remote.orderBy, remote.orderDirection,
    switchField remote.useTranscodingAddress, switchField remote.onlyListVideoFile]

theorem fields_inj {a b : QuarkDavRemote} (same : a.fields = b.fields) : a = b := by
  obtain ⟨⟩ := a
  obtain ⟨⟩ := b
  simp only [QuarkDavRemote.fields, List.cons.injEq, and_true] at same
  simp only [QuarkDavRemote.mk.injEq]
  obtain ⟨id, name, enabled, boot, awake, address, port, pathPrefix, username, password, auth, ttl,
    dir, cookie, root, brand, order, direction, transcoding, video⟩ := same
  exact ⟨id, name, switchField_inj enabled, switchField_inj boot, switchField_inj awake, address,
    toString_field_inj port, pathPrefix, username, password, switchField_inj auth,
    toString_field_inj ttl, dir, cookie, root, brand, order, direction,
    switchField_inj transcoding, switchField_inj video⟩

/-- A platform whose JSON and digests lose nothing. -/
def exactPlatform : Platform :=
  { plainPlatform with encode := fun remote => remote.fields.flatMap marked }

theorem collisionFree_exactPlatform : CollisionFree exactPlatform := by
  intro a b same
  exact fields_inj (flatMap_marked_inj rfl same)

/-- A service with one enabled remote, and no kernel yet. -/
def freshService : Service where
  dir := ⟨Remotes.empty.put { plainRemote with enabled := true }, ∅, ∅⟩
  supervisor := Supervisor.fresh
  processes := []
  binary := true
  startable := true

end RoundSync.QuarkDav
