import RoundSync.QuarkDav.HeartbeatAdoptions

/-!
# Convergence of the supervisor

A reconcile in whose course nobody edits the remotes, and whose starts succeed,
ends with a kernel for each enabled remote and for no other id, and each runs
with the stored settings.  It stops what is not wanted or shows another
fingerprint, and starts what is missing; the kernels in between have the stored
settings because the supervisor shows what they were launched with.
-/

namespace RoundSync.QuarkDav

open RoundSync.Data
open RoundSync.Text
open RoundSync.Transition
open RoundSync.Transition.Shop

variable {platform : Platform} {s t : Service}

/-! ## What goes on during a reconcile -/

/-- The same remotes, up to refreshed cookies. -/
def SameRemotes (before after : Remotes) : Prop :=
  ∀ id, (after.lookup id).map QuarkDavRemote.withoutCookie =
    (before.lookup id).map QuarkDavRemote.withoutCookie

theorem SameRemotes.refl (stored : Remotes) : SameRemotes stored stored :=
  fun _ => rfl

theorem SameRemotes.trans {a b c : Remotes} (first : SameRemotes a b) (second : SameRemotes b c) :
    SameRemotes a c :=
  fun id => (second id).trans (first id)

theorem sameRemotes_sync (runtime : Table JavaString QuarkDavKernelConfig) (stored : Remotes)
    (id : JavaString) : SameRemotes stored (syncRuntimeCookie runtime stored id) := by
  intro other
  rcases syncRuntimeCookie_cases runtime stored id with
    same | ⟨config, remote, _, isStored, _, written⟩
  · rw [same]
  · have own : remote.id = id := Remotes.id_of_lookup isStored
    subst own
    rw [written]
    by_cases here : other = remote.id
    · have put := congrArg (Option.map QuarkDavRemote.withoutCookie)
        (Remotes.lookup_put_self stored { remote with cookie := config.cookie.cookie })
      rw [here, isStored]
      exact put
    · apply congrArg (Option.map QuarkDavRemote.withoutCookie)
      exact Remotes.lookup_put_ne here

/-- A stored remote keeps its settings and its switch. -/
theorem SameRemotes.get {before after : Remotes} (same : SameRemotes before after)
    {id : JavaString} {remote : QuarkDavRemote}
    (found : get platform.cases before id = some remote) :
    ∃ remote', get platform.cases after id = some remote' ∧
      remote'.settings platform = remote.settings platform ∧ remote'.enabled = remote.enabled := by
  obtain ⟨file, isStored, rfl⟩ := get_eq_some_iff.mp found
  have agrees := same id
  rw [isStored] at agrees
  obtain ⟨file', isStored', stripped⟩ := Option.map_eq_some_iff.mp agrees
  have switch : file'.withoutCookie.enabled = file.withoutCookie.enabled := by rw [stripped]
  refine ⟨file'.normalized platform.cases, get_eq_some_iff.mpr ⟨file', isStored', rfl⟩, ?_, switch⟩
  rw [← settings_withoutCookie, ← normalized_withoutCookie, stripped, normalized_withoutCookie,
    settings_withoutCookie]

theorem SameRemotes.symm {before after : Remotes} (same : SameRemotes before after) :
    SameRemotes after before :=
  fun id => (same id).symm

/-- The fields, the kernels and the remotes stay, up to cookies and exits. -/
structure Spares (s t : Service) : Prop where
  supervisor : t.supervisor = s.supervisor
  processes : Ages s.processes t.processes
  remotes : SameRemotes s.dir.remotes t.dir.remotes

/-- What kernels and the platform do while nobody edits the remotes. -/
structure Calm (s t : Service) : Prop where
  onward : Onward s t
  remotes : SameRemotes s.dir.remotes t.dir.remotes

theorem Calm.spares (calm : Calm s t) : Spares s t :=
  ⟨calm.onward.supervisor, calm.onward.processes, calm.remotes⟩

theorem Calm.refl (s : Service) : Calm s s :=
  ⟨Onward.refl s, SameRemotes.refl s.dir.remotes⟩

theorem Calm.trans {u : Service} (first : Calm s t) (second : Calm t u) : Calm s u :=
  ⟨first.onward.trans second.onward, first.remotes.trans second.remotes⟩

/-- Kernels can be started. -/
def Starts (s : Service) : ServiceCall → Prop
  | .binaryExists _ => s.binary = true
  | .launch _ => s.startable = true
  | _ => True

instance instDecidableStarts (s : Service) : (c : ServiceCall) → Decidable (Starts s c)
  | .binaryExists _ => inferInstanceAs (Decidable (s.binary = true))
  | .launch _ => inferInstanceAs (Decidable (s.startable = true))
  | .list | .get _ | .save _ | .syncRuntimeCookie _ | .writeRuntimeConfig _ | .readStatus _
  | .writeStatus _ | .deleteStatus _ | .terminateStaleKernel _ | .destroy _ | .isAlive _
  | .fields _ => .isTrue trivial

/-- The terms of an undisturbed reconcile. -/
def calmTerms : Terms Service ServiceCall where
  rely := Calm
  assumed := Starts
  shown _ _ := True

/-- What a task ensures when it is not disturbed. -/
abbrev CalmEnsures {α : Type} (platform : Platform) (task : Task α) (Q : α → Service → Prop)
    (s : Service) : Prop :=
  task.Ensures (answer platform) calmTerms Q s

/-- A call that changes neither fields, kernels nor remotes. -/
def Still : ServiceCall → Prop
  | .fields change => ∀ v, change v = v
  | c => Harmless c

theorem calm_answer {c : ServiceCall} (still : Still c) : Calm s (answer platform c s).2 := by
  cases c with
  | fields change =>
      change Calm s { s with supervisor := change s.supervisor }
      rw [still s.supervisor]
      exact Calm.refl s
  | syncRuntimeCookie id =>
      exact ⟨.of_eq rfl rfl rfl, sameRemotes_sync s.dir.runtime s.dir.remotes id⟩
  | save remote => exact still.elim
  | writeRuntimeConfig remote => exact still.elim
  | launch refreshed => exact still.elim
  | _ => exact ⟨onward_answer trivial, SameRemotes.refl s.dir.remotes⟩

/-- Tasks that only read are still. -/
theorem reads_still : Reads Still where
  harmless c harmless := by
    cases c with
    | fields change => exact harmless.elim
    | _ => exact harmless
  fields _ := rfl

theorem calmEnsures_still {α : Type} {task : Task α}
    (still : Permitted Still (fun _ => True) task) (s : Service) :
    CalmEnsures platform task (fun _ t => Calm s t) s := by
  apply (everyCall_of_permitted still).ensures Calm.refl (fun _ _ _ => Calm.trans)
    (fun _ _ calm => calm)
  exact fun c t isStill _ => ⟨trivial, calm_answer isStill⟩

/-! ## Kernels with the stored settings -/

/-- A kernel is registered for this id, and runs with the stored settings of an
enabled remote. -/
def RunsStored (platform : Platform) (s : Service) (id : JavaString) : Prop :=
  ∃ holder h p remote, s.supervisor.running.lookup id = some holder ∧
    s.supervisor.holders[holder]? = some h ∧ s.processes[h.process]? = some p ∧ p.id = id ∧
      get platform.cases s.dir.remotes id = some remote ∧ remote.enabled = true ∧
        p.launched.settings = remote.settings platform

/-- Exactly the enabled remotes have a kernel, each with its stored settings. -/
structure Converged (platform : Platform) (s : Service) : Prop where
  starts : ∀ id remote, get platform.cases s.dir.remotes id = some remote →
    remote.enabled = true → ∃ holder, s.supervisor.running.lookup id = some holder
  runs : ∀ id holder, s.supervisor.running.lookup id = some holder → RunsStored platform s id

theorem RunsStored.spares {id : JavaString} (runs : RunsStored platform s id)
    (spares : Spares s t) : RunsStored platform t id := by
  obtain ⟨holder, h, p, remote, registered, foundH, foundP, own, found, enabled, settings⟩ := runs
  obtain ⟨p', foundP', sameId, sameLaunched⟩ := spares.processes.kept h.process p foundP
  obtain ⟨remote', found', sameSettings, sameSwitch⟩ := spares.remotes.get found
  refine ⟨holder, h, p', remote', ?_, ?_, foundP', sameId.trans own, found',
    sameSwitch.trans enabled, ?_⟩
  · rw [spares.supervisor]
    exact registered
  · rw [spares.supervisor]
    exact foundH
  · rw [sameLaunched, settings, sameSettings]

theorem Converged.spares (converged : Converged platform s) (spares : Spares s t) :
    Converged platform t := by
  constructor
  · intro id remote found enabled
    obtain ⟨remote', found', _, sameSwitch⟩ := spares.remotes.symm.get found
    rw [spares.supervisor]
    exact converged.starts id remote' found' (sameSwitch.trans enabled)
  · intro id holder registered
    rw [spares.supervisor] at registered
    exact (converged.runs id holder registered).spares spares

theorem Wired.spares (wired : Wired s) (spares : Spares s t) : Wired t := by
  intro id holder registered
  rw [spares.supervisor] at registered ⊢
  obtain ⟨h, p, foundH, foundP, own⟩ := wired id holder registered
  obtain ⟨p', foundP', sameId, _⟩ := spares.processes.kept h.process p foundP
  exact ⟨h, p', foundH, foundP', sameId.trans own⟩

/-- The remotes that a reconcile wants, other than at boot. -/
theorem mem_wanted_iff {stored : Remotes} {remote : QuarkDavRemote} :
    remote ∈ wanted false (list platform.cases stored) ↔
      get platform.cases stored remote.id = some remote ∧ remote.enabled = true := by
  simp [wanted, mem_list_iff]

/-! ## The first loop -/

/-- The first loop of a reconcile, with these ids still to come. -/
structure Reconciling (platform : Platform) (listed : Remotes) (rest : List JavaString)
    (s : Service) : Prop where
  remotes : SameRemotes listed s.dir.remotes
  wired : Wired s
  truthful : Truthful platform s
  settled : ∀ id holder, s.supervisor.running.lookup id = some holder →
    id ∈ rest ∨ RunsStored platform s id

variable {listed : Remotes} {rest : List JavaString}

theorem Reconciling.calm (reconciling : Reconciling platform listed rest s) (calm : Calm s t) :
    Reconciling platform listed rest t := by
  refine ⟨reconciling.remotes.trans calm.remotes, reconciling.wired.onward calm.onward,
    reconciling.truthful.onward reconciling.wired calm.onward, ?_⟩
  intro id holder registered
  rw [calm.onward.supervisor] at registered
  rcases reconciling.settled id holder registered with left | runs
  · exact .inl left
  · exact .inr (runs.spares calm.spares)

/-- A change of the fields during the loop. -/
theorem Reconciling.fields {more : List JavaString} {after : Supervisor}
    (reconciling : Reconciling platform listed more s)
    (change : FieldsChange platform s.supervisor after)
    (truthful : Truthful platform { s with supervisor := after })
    (settled : ∀ id holder, after.running.lookup id = some holder →
      id ∈ rest ∨ RunsStored platform { s with supervisor := after } id ∨
        RunsStored platform s id) :
    Reconciling platform listed rest { s with supervisor := after } := by
  refine ⟨reconciling.remotes, wired_fields (f := fun _ => after) reconciling.wired change,
    truthful, ?_⟩
  intro id holder registered
  rcases settled id holder registered with left | runs | runs
  · exact .inl left
  · exact .inr runs
  · right
    obtain ⟨before, h, p, remote, isBefore, foundH, foundP, rest⟩ := runs
    cases isBefore.symm.trans (change.running id holder registered)
    obtain ⟨h', foundH'⟩ := change.exists_after foundH
    refine ⟨holder, h', p, remote, registered, foundH', ?_, rest⟩
    rw [(change.holders holder h h' foundH foundH').1]
    exact foundP

/-- A change that registers no other fingerprint. -/
theorem truthful_of_fingerprints (collisionFree : CollisionFree platform)
    {after : Supervisor} (truthful : Truthful platform s)
    (change : FieldsChange platform s.supervisor after)
    (same : ∀ (holder : Nat) h h', s.supervisor.holders[holder]? = some h →
      after.holders[holder]? = some h' → h'.fingerprint = h.fingerprint) :
    Truthful platform { s with supervisor := after } := by
  apply (truthful_fields_iff (f := fun _ => after) collisionFree truthful change).mpr
  intro id holder h h' p _ foundH foundH' _ different
  exact absurd (same holder h h' foundH foundH') different

/-- A holder is marked as stopping. -/
theorem Reconciling.marked (collisionFree : CollisionFree platform) (holder : Nat)
    (reconciling : Reconciling platform listed rest s) :
    Reconciling platform listed rest
      { s with supervisor := s.supervisor.update holder fun h => { h with stopping := true } } := by
  have marks : FieldsChange platform s.supervisor
      (s.supervisor.update holder fun h => { h with stopping := true }) :=
    (bookkeeping_update s.supervisor holder
      (f := fun h => { h with stopping := true }) fun _ => ⟨rfl, rfl, rfl⟩).fieldsChange
  apply reconciling.fields marks
  · apply truthful_of_fingerprints collisionFree reconciling.truthful marks
    intro _ h h' found found'
    rcases getElem?_update found found' with ⟨rfl, _⟩ | rfl
    · rfl
    · rfl
  · intro id registered isRegistered
    rcases reconciling.settled id registered isRegistered with left | runs
    · exact .inl left
    · exact .inr (.inr runs)

/-- A kernel is no longer registered. -/
theorem Reconciling.removed (collisionFree : CollisionFree platform) {id : JavaString}
    (reconciling : Reconciling platform listed (id :: rest) s) :
    Reconciling platform listed rest { s with supervisor := s.supervisor.remove id } := by
  have removes : FieldsChange platform s.supervisor (s.supervisor.remove id) :=
    (bookkeeping_remove s.supervisor id).fieldsChange
  apply reconciling.fields removes
  · apply truthful_of_fingerprints collisionFree reconciling.truthful removes
    intro _ h h' found found'
    cases found.symm.trans found'
    rfl
  · intro other registered isRegistered
    obtain ⟨different, before⟩ := Table.lookup_erase_eq_some_iff.mp isRegistered
    rcases reconciling.settled other registered before with left | runs
    · exact .inl ((List.mem_cons.mp left).resolve_left different)
    · exact .inr (.inr runs)

/-- Nothing is registered for this id. -/
theorem Reconciling.absent {id : JavaString} (absent : s.supervisor.holderOf id = none)
    (reconciling : Reconciling platform listed (id :: rest) s) :
    Reconciling platform listed rest s := by
  refine ⟨reconciling.remotes, reconciling.wired, reconciling.truthful, ?_⟩
  intro other holder registered
  rcases reconciling.settled other holder registered with left | runs
  · rcases List.mem_cons.mp left with rfl | left
    · obtain ⟨h, _, foundH, _⟩ := reconciling.wired other holder registered
      simp [Supervisor.holderOf, registered, foundH] at absent
    · exact .inl left
  · exact .inr runs

theorem calmEnsures_stopProcess (collisionFree : CollisionFree platform) {id : JavaString}
    (sync : Bool) (reconciling : Reconciling platform listed (id :: rest) s) :
    CalmEnsures platform (stopProcess id sync)
      (fun _ t => Reconciling platform listed rest t) s := by
  apply Program.ensures_request_bind
  intro reached calm _
  refine ⟨trivial, ?_⟩
  have here := reconciling.calm calm
  split
  · rename_i absent
    exact (calmEnsures_still (permitted_publishStopped reads_still id) reached).mono fun _ t calm =>
      (here.absent absent).calm calm
  · rename_i holder h _
    apply Program.ensures_request_bind
    intro r₁ calm₁ _
    refine ⟨trivial, ?_⟩
    apply Program.ensures_request_bind
    intro r₂ calm₂ _
    refine ⟨trivial, ?_⟩
    have removed := (((here.calm calm₁).marked collisionFree holder).calm calm₂).removed collisionFree
    have ends : (do
        ask (.destroy h.process)
        if sync then ask (.syncRuntimeCookie id)
        publishStopped id : Task Unit).Passes Still (SafeReply fun _ => True) := by
      apply (reads_still.ask (c := .destroy h.process) trivial).bind
      intro _
      cases sync with
      | false => exact permitted_publishStopped reads_still id
      | true =>
          exact (reads_still.ask (c := .syncRuntimeCookie id) trivial).bind fun _ =>
            permitted_publishStopped reads_still id
    exact (calmEnsures_still ends _).mono fun _ t calm => removed.calm calm

/-- A kernel whose fingerprint is that of a wanted remote goes on, with what is
listed of the remote. -/
theorem Reconciling.adopted (collisionFree : CollisionFree platform) {id : JavaString}
    {desired : QuarkDavRemote} {holder : Nat} {h : RunningProcess}
    (reconciling : Reconciling platform listed (id :: rest) s)
    (isWanted : get platform.cases listed id = some desired) (enabled : desired.enabled = true)
    (registered : s.supervisor.running.lookup id = some holder)
    (foundH : s.supervisor.holders[holder]? = some h)
    (same : h.fingerprint = fingerprint platform desired) :
    Reconciling platform listed rest
      { s with supervisor := s.supervisor.update holder fun h =>
          { h with config := desired, fingerprint := fingerprint platform desired } } := by
  have adopts : FieldsChange platform s.supervisor (s.supervisor.update holder fun h =>
      { h with config := desired, fingerprint := fingerprint platform desired }) :=
    fieldsChange_adopt s.supervisor holder desired
  have truthful := truthful_of_fingerprints collisionFree reconciling.truthful adopts (by
    intro i before after found found'
    rcases getElem?_update found found' with ⟨rfl, rfl⟩ | rfl
    · cases found.symm.trans foundH
      exact same.symm
    · rfl)
  apply reconciling.fields adopts truthful
  intro other registeredOther isRegistered
  by_cases own : other = id
  · right
    left
    subst own
    cases isRegistered.symm.trans registered
    obtain ⟨remote, found, settings, switch⟩ := reconciling.remotes.get isWanted
    obtain ⟨h₀, p, foundH₀, foundP, ownId⟩ := reconciling.wired other holder registered
    cases foundH₀.symm.trans foundH
    have foundAfter : (s.supervisor.update holder fun h =>
        { h with config := desired, fingerprint := fingerprint platform desired }).holders[holder]? =
          some { h with config := desired, fingerprint := fingerprint platform desired } := by
      change (s.supervisor.holders.modify holder _)[holder]? = _
      rw [List.getElem?_modify, foundH]
      simp
    refine ⟨holder, _, p, remote, registered, foundAfter, foundP, ownId, found,
      switch.trans enabled, ?_⟩
    rw [(truthful other holder _ p registered foundAfter foundP).settings, settings]
  · rcases reconciling.settled other registeredOther isRegistered with left | runs
    · exact .inl ((List.mem_cons.mp left).resolve_left own)
    · exact .inr (.inr runs)

theorem calmEnsures_reconcileRunning (collisionFree : CollisionFree platform) {id : JavaString}
    (reconciling : Reconciling platform listed (id :: rest) s) :
    CalmEnsures platform
      (reconcileRunning platform (wanted false (list platform.cases listed)) id)
      (fun _ t => Reconciling platform listed rest t) s := by
  apply Program.ensures_request_bind
  intro reached calm _
  refine ⟨trivial, ?_⟩
  have here := reconciling.calm calm
  split
  · rename_i desired holder h isDesired isHolder
    split
    · exact calmEnsures_stopProcess collisionFree _ here
    · rename_i same
      apply Program.ensures_request_bind
      intro r₁ calm₁ _
      refine ⟨trivial, ?_⟩
      have member := List.mem_of_find?_eq_some isDesired
      have own : desired.id = id := by simpa using List.find?_some isDesired
      obtain ⟨isWanted, enabled⟩ := mem_wanted_iff.mp member
      rw [own] at isWanted
      obtain ⟨registered, foundH⟩ := lookup_of_holderOf isHolder
      have kept : r₁.supervisor = reached.supervisor := calm₁.onward.supervisor
      have stillRegistered : r₁.supervisor.running.lookup id = some holder := kept ▸ registered
      have stillFound : r₁.supervisor.holders[holder]? = some h := kept ▸ foundH
      exact (here.calm calm₁).adopted collisionFree isWanted enabled stillRegistered stillFound
        (not_not.mp same)
  · exact calmEnsures_stopProcess collisionFree _ here

/-! ## The second loop -/

/-- The second loop of a reconcile, with these remotes still to come. -/
structure Starting (platform : Platform) (more : List QuarkDavRemote) (s : Service) : Prop where
  wired : Wired s
  runs : ∀ id holder, s.supervisor.running.lookup id = some holder → RunsStored platform s id
  pending : ∀ id remote, get platform.cases s.dir.remotes id = some remote →
    remote.enabled = true →
      (∃ holder, s.supervisor.running.lookup id = some holder) ∨ ∃ r ∈ more, r.id = id
  wanted : ∀ r ∈ more, ∃ remote, get platform.cases s.dir.remotes r.id = some remote ∧
    remote.enabled = true

variable {remote : QuarkDavRemote} {more : List QuarkDavRemote}

theorem Starting.spares (starting : Starting platform more s) (spares : Spares s t) :
    Starting platform more t := by
  refine ⟨starting.wired.spares spares, ?_, ?_, ?_⟩
  · intro id holder registered
    rw [spares.supervisor] at registered
    exact (starting.runs id holder registered).spares spares
  · intro id remote found enabled
    obtain ⟨remote', found', _, sameSwitch⟩ := spares.remotes.symm.get found
    rw [spares.supervisor]
    exact starting.pending id remote' found' (sameSwitch.trans enabled)
  · intro r member
    obtain ⟨remote, found, enabled⟩ := starting.wanted r member
    obtain ⟨remote', found', _, sameSwitch⟩ := spares.remotes.get found
    exact ⟨remote', found', sameSwitch.trans enabled⟩

/-- The remote at hand has a kernel. -/
theorem Starting.next {holder : Nat} (starting : Starting platform (remote :: more) s)
    (registered : s.supervisor.running.lookup remote.id = some holder) :
    Starting platform more s := by
  refine ⟨starting.wired, starting.runs, ?_, ?_⟩
  · intro id found isStored enabled
    rcases starting.pending id found isStored enabled with runs | ⟨r, member, own⟩
    · exact .inl runs
    · rcases List.mem_cons.mp member with rfl | member
      · exact .inl ⟨holder, own ▸ registered⟩
      · exact .inr ⟨r, member, own⟩
  · exact fun r member => starting.wanted r (List.mem_cons_of_mem _ member)

/-- A kernel with the stored settings is started and registered. -/
theorem Starting.launched {refreshed stored : QuarkDavRemote} {alive : Bool}
    (starting : Starting platform more s)
    (found : get platform.cases s.dir.remotes refreshed.id = some stored)
    (enabled : stored.enabled = true)
    (settings : refreshed.settings platform = stored.settings platform) :
    Starting platform more (launched platform s refreshed alive) := by
  refine ⟨wired_launched starting.wired, ?_, ?_, starting.wanted⟩
  · intro id holder registered
    rcases lookup_launched registered with ⟨rfl, rfl⟩ | ⟨_, before⟩
    · exact ⟨_, _, _, stored, registered, found_launched_self.1, found_launched_self.2, rfl, found,
        enabled, settings⟩
    · obtain ⟨first, h, p, remote, isFirst, foundH, foundP, rest⟩ := starting.runs id holder before
      cases isFirst.symm.trans before
      obtain ⟨stillH, stillP⟩ := found_launched foundH foundP
      exact ⟨holder, h, p, remote, registered, stillH, stillP, rest⟩
  · intro id remote isStored isEnabled
    by_cases own : id = refreshed.id
    · exact .inl ⟨_, own ▸ lookup_launched_self⟩
    · rcases starting.pending id remote isStored isEnabled with ⟨holder, before⟩ | left
      · exact .inl ⟨holder, (lookup_launched_ne own).trans before⟩
      · exact .inr left

theorem calmEnsures_launchKernel (starting : Starting platform (remote :: more) s)
    (none : NoneAlive s remote.id) :
    CalmEnsures platform (launchKernel platform remote)
      (fun _ t => Starting platform more t) s := by
  apply Program.ensures_request_bind
  intro reached calm _
  refine ⟨trivial, ?_⟩
  have here := starting.spares calm.spares
  obtain ⟨stored, found, enabled⟩ := here.wanted remote List.mem_cons_self
  have own : ((answer platform (.get remote.id) reached).1.getD remote) = stored := by
    change (get platform.cases reached.dir.remotes remote.id).getD remote = stored
    rw [found]
    rfl
  rw [own]
  have storedId : stored.id = remote.id := id_of_get found
  have noneR : NoneAlive reached stored.id := storedId ▸ none.of_ages calm.onward.processes
  apply Program.ensures_request_bind
  intro written calmW _
  refine ⟨trivial, ?_⟩
  have configured : Starting platform (remote :: more)
      { written with dir := writeRuntimeConfig platform written.dir stored } :=
    (here.spares calmW.spares).spares
      ⟨rfl, Ages.refl written.processes, SameRemotes.refl written.dir.remotes⟩
  have noneW : NoneAlive written stored.id := noneR.of_ages calmW.onward.processes
  apply Program.ensures_request_bind
  intro late calmL startable
  refine ⟨trivial, ?_⟩
  have ready := configured.spares calmL.spares
  have minds : Minds platform late (.launch stored) := by
    intro config isConfig
    have kept : late.dir.runtime.lookup stored.id =
        (written.dir.runtime.insert stored.id (stored.kernelConfig platform)).lookup stored.id ∨
          late.dir.runtime.lookup stored.id = .none := calmL.onward.runtime stored.id noneW
    rw [AList.lookup_insert, isConfig] at kept
    rcases kept with same | absent
    · exact Option.some.inj same
    · cases absent
  rcases launch_cases minds with ⟨unstartable, _⟩ | ⟨_, alive, started⟩
  · change late.startable = true at startable
    rw [unstartable] at startable
    cases startable
  · have spared : Spares reached late :=
      ⟨calmL.onward.supervisor.trans calmW.onward.supervisor,
        calmW.onward.processes.trans calmL.onward.processes, calmW.remotes.trans calmL.remotes⟩
    obtain ⟨last, foundLast, sameSettings, sameSwitch⟩ := spared.remotes.get found
    rw [← storedId] at foundLast
    have launches : Starting platform (remote :: more) (launched platform late stored alive) :=
      ready.launched foundLast (sameSwitch.trans enabled) sameSettings.symm
    have registered := launches.next (storedId ▸ lookup_launched_self)
    have result : answer platform (.launch stored) late =
        (some late.supervisor.holders.length, launched platform late stored alive) := started
    rw [result]
    apply (calmEnsures_still (permitted_displayWebDavUrl reads_still stored) _).bind
    intro url u calmU
    apply (calmEnsures_still (reads_still.ask (c := .writeStatus _) trivial) u).mono
    intro _ v calmV
    exact (registered.spares calmU.spares).spares calmV.spares

theorem calmEnsures_startProcess (starting : Starting platform (remote :: more) s) :
    CalmEnsures platform (startProcess platform remote)
      (fun _ t => Starting platform more t) s := by
  apply Program.ensures_request_bind
  intro reached calm isBinary
  refine ⟨trivial, ?_⟩
  have here := starting.spares calm.spares
  change reached.binary = true at isBinary
  have exists? : (answer platform (.binaryExists remote.id) reached).1 = true := isBinary
  rw [exists?]
  rw [if_neg (by simp)]
  apply Program.ensures_request_bind
  intro r₁ calm₁ _
  refine ⟨trivial, ?_⟩
  apply Program.ensures_request_bind
  intro r₂ calm₂ _
  refine ⟨trivial, ?_⟩
  have terminates : Calm r₂ (answer platform (.terminateStaleKernel remote.id) r₂).2 :=
    calm_answer trivial
  have ready := (here.spares (calm₁.trans calm₂).spares).spares terminates.spares
  have none : NoneAlive (answer platform (.terminateStaleKernel remote.id) r₂).2 remote.id :=
    noneAlive_terminated r₂ remote.id
  split
  · apply (calmEnsures_still (reads_still.ask (c := .syncRuntimeCookie remote.id) trivial) _).bind
    intro _ u calmU
    exact calmEnsures_launchKernel (ready.spares calmU.spares)
      (none.of_ages calmU.onward.processes)
  · exact calmEnsures_launchKernel ready none

theorem calmEnsures_startMissing (starting : Starting platform (remote :: more) s) :
    CalmEnsures platform (startMissing platform remote)
      (fun _ t => Starting platform more t) s := by
  apply Program.ensures_request_bind
  intro reached calm _
  refine ⟨trivial, ?_⟩
  have here := starting.spares calm.spares
  split
  · exact calmEnsures_startProcess here
  · rename_i present
    change ¬(reached.supervisor.running.lookup remote.id).isNone = true at present
    rw [Option.isNone_iff_eq_none] at present
    obtain ⟨holder, registered⟩ := Option.ne_none_iff_exists'.mp present
    exact here.next registered

/-! ## A whole reconcile -/

theorem calmEnsures_reconcile (collisionFree : CollisionFree platform) (wired : Wired s)
    (truthful : Truthful platform s) :
    CalmEnsures platform (reconcileInternal platform false)
      (fun _ t => Converged platform t) s := by
  apply Program.ensures_request_bind
  intro r₀ calm₀ _
  refine ⟨trivial, ?_⟩
  apply Program.ensures_request_bind
  intro r₁ calm₁ _
  refine ⟨trivial, ?_⟩
  have calm := calm₀.trans calm₁
  have first : Reconciling platform r₀.dir.remotes r₁.supervisor.running.keys r₁ := by
    refine ⟨calm₁.remotes, wired.onward calm.onward, truthful.onward wired calm.onward, ?_⟩
    intro id holder registered
    left
    exact AList.lookup_isSome.mp (by rw [registered]; rfl)
  have stops : CalmEnsures platform (Program.forEach r₁.supervisor.running.keys
      (reconcileRunning platform (wanted false (list platform.cases r₀.dir.remotes))))
      (fun _ t => Reconciling platform r₀.dir.remotes [] t) r₁ :=
    Program.ensures_forEach (I := Reconciling platform r₀.dir.remotes)
      (fun _ _ _ reconciling => calmEnsures_reconcileRunning collisionFree reconciling) first
  apply Program.Ensures.bind stops
  intro _ t₁ stopped
  apply Program.ensures_request_bind
  intro r₂ calm₂ _
  refine ⟨trivial, ?_⟩
  have settled := stopped.calm calm₂
  have second : Starting platform (wanted false (list platform.cases r₂.dir.remotes)) r₂ := by
    refine ⟨settled.wired, ?_, ?_, ?_⟩
    · intro id holder registered
      exact (settled.settled id holder registered).resolve_left List.not_mem_nil
    · intro id remote found enabled
      have own : remote.id = id := id_of_get found
      exact .inr ⟨remote, mem_wanted_iff.mpr ⟨own.symm ▸ found, enabled⟩, own⟩
    · intro r member
      obtain ⟨found, enabled⟩ := mem_wanted_iff.mp member
      exact ⟨r, found, enabled⟩
  have starts : CalmEnsures platform
      (Program.forEach (wanted false (list platform.cases r₂.dir.remotes)) (startMissing platform))
      (fun _ t => Starting platform [] t) r₂ :=
    Program.ensures_forEach (I := Starting platform)
      (fun _ _ _ starting => calmEnsures_startMissing starting) second
  apply Program.Ensures.bind starts
  intro _ t₂ started
  have converged : Converged platform t₂ := by
    refine ⟨?_, started.runs⟩
    intro id remote found enabled
    rcases started.pending id remote found enabled with runs | ⟨r, member, _⟩
    · exact runs
    · cases member
  apply (calmEnsures_still
    (permitted_refreshRunningStatuses reads_still fun _ _ sync => by cases sync) t₂).mono
  exact fun _ t calm => converged.spares calm.spares

/-- A reconcile runs to its end; in its course the remotes change at most in
their cookies, and every start succeeds. -/
structure Undisturbed (platform : Platform) (w : Worker Service ServiceCall.Reply)
    (events : List (WorkerEvent OutsideEvent ServiceTask)) : Prop where
  course : ∀ event ∈ events, event.inTask = true
  calm : Meets (service platform).step (Relied Calm (service platform))
    ⟨w.state, reconcileInternal platform false⟩ events
  starts : Meets (service platform).step (AtCalls Starts)
    ⟨w.state, reconcileInternal platform false⟩ events
  ends : (run (service platform).step ⟨w.state, reconcileInternal platform false⟩
    events).program.isDone = true

/-- Whatever has happened before: after an undisturbed reconcile exactly the
enabled remotes have a kernel, each with its stored settings, if heartbeats have
registered for running kernels only what these were launched with. -/
theorem reconcile_converges (collisionFree : CollisionFree platform)
    {earlier later : List (WorkerEvent OutsideEvent ServiceTask)}
    (adopts : Meets (service platform).step (AtCalls (AdoptsLaunched platform))
      ⟨(service platform).restart s, pure ()⟩ earlier)
    (undisturbed : Undisturbed platform
      (run (service platform).step ⟨(service platform).restart s, pure ()⟩ earlier) later) :
    Converged platform (run (service platform).step
      ⟨(run (service platform).step ⟨(service platform).restart s, pure ()⟩ earlier).state,
        reconcileInternal platform false⟩ later).state := by
  obtain ⟨wired, truthful⟩ := ((always_wired_truthful_iff collisionFree s earlier).mpr adopts).last
  generalize run (service platform).step ⟨(service platform).restart s, pure ()⟩ earlier = w
    at wired truthful undisturbed ⊢
  have ends := undisturbed.ends
  have ensures : (run (service platform).step ⟨w.state, reconcileInternal platform false⟩
      later).program.Ensures (answer platform) calmTerms (fun _ => Converged platform)
        (run (service platform).step ⟨w.state, reconcileInternal platform false⟩ later).state := by
    have ensures := calmEnsures_reconcile collisionFree wired truthful
    have relied : Meets (service platform).step (Relied calmTerms.rely (service platform))
        ⟨w.state, reconcileInternal platform false⟩ later := undisturbed.calm
    have assumed : Meets (service platform).step (AtCalls calmTerms.assumed)
        ⟨w.state, reconcileInternal platform false⟩ later := undisturbed.starts
    have trans : ∀ a b c, calmTerms.rely a b → calmTerms.rely b c → calmTerms.rely a c :=
      fun _ _ _ => Calm.trans
    have stable : ∀ s t, Converged platform s → calmTerms.rely s t → Converged platform t :=
      fun _ _ converged calm => converged.spares calm.spares
    exact (Shop.course_ensures Calm.refl trans stable ensures undisturbed.course relied assumed).2
  generalize run (service platform).step _ later = last at ensures ends ⊢
  obtain ⟨state, program⟩ := last
  cases program with
  | done value => exact ensures
  | call c next => cases ends

/-- The first reconcile of a service, up to its last call. -/
theorem first_reconcile_converges :
    Converged exactPlatform (run (service exactPlatform).step
      ⟨(service exactPlatform).restart freshService, reconcileInternal exactPlatform false⟩
      (List.replicate 14 .advance)).state := by
  apply @reconcile_converges exactPlatform freshService collisionFree_exactPlatform [] _ trivial
  constructor
  · decide
  · simp [Meets, Relied]
  · decide +kernel
  · decide +kernel

end RoundSync.QuarkDav
