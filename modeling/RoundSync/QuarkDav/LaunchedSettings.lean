import RoundSync.QuarkDav.Generations

/-!
# The settings that kernels run with

A kernel keeps the configuration it was launched with.  The supervisor compares
fingerprints of what it has registered, so a reconcile restarts a kernel exactly
when the registered settings are those the kernel runs with.  Only a heartbeat
registers other settings for a kernel that goes on running.
-/

namespace RoundSync.QuarkDav

open RoundSync.Data
open RoundSync.Text
open RoundSync.Transition
open RoundSync.Transition.Shop

/-! ## Settings -/

/-- A configuration without the cookie, which a kernel refreshes itself. -/
def QuarkDavKernelConfig.settings (config : QuarkDavKernelConfig) : QuarkDavKernelConfig :=
  { config with cookie := { config.cookie with cookie := [] } }

/-- The settings that a kernel of this remote is launched with. -/
def QuarkDavRemote.settings (platform : Platform) (remote : QuarkDavRemote) :
    QuarkDavKernelConfig :=
  (remote.kernelConfig platform).settings

def QuarkDavRemote.withoutCookie (remote : QuarkDavRemote) : QuarkDavRemote :=
  { remote with cookie := [] }

/-- Remotes of different kernel fields have different fingerprints. -/
def CollisionFree (platform : Platform) : Prop :=
  ∀ a b, fingerprint platform a = fingerprint platform b →
    a.fingerprinted platform = b.fingerprinted platform

variable {platform : Platform}

theorem settings_withoutCookie (remote : QuarkDavRemote) :
    remote.withoutCookie.settings platform = remote.settings platform :=
  rfl

theorem normalized_withoutCookie (remote : QuarkDavRemote) :
    remote.withoutCookie.normalized platform.cases =
      (remote.normalized platform.cases).withoutCookie :=
  rfl

/-- The configuration of a kernel is a function of the fingerprinted fields. -/
theorem kernelConfig_of_fingerprinted {a b : QuarkDavRemote}
    (same : a.fingerprinted platform = b.fingerprinted platform) :
    a.kernelConfig platform = b.kernelConfig platform := by
  have covered : ∀ remote : QuarkDavRemote, remote.kernelConfig platform =
      { listen := (remote.fingerprinted platform).listenEndpoint platform.cases
        pathPrefix := (remote.fingerprinted platform).pathPrefix
        username := (remote.fingerprinted platform).username
        password := (remote.fingerprinted platform).password
        noAuth := (remote.fingerprinted platform).noAuth
        cacheTtlSeconds := (remote.fingerprinted platform).cacheTtlSeconds
        tempDir :=
          platform.absolutePath ((remote.fingerprinted platform).runtimeTempDir platform)
        cookie :=
          { cookie := (remote.fingerprinted platform).cookie
            rootId := (remote.fingerprinted platform).rootId
            brand := (remote.fingerprinted platform).brand
            orderBy := (remote.fingerprinted platform).orderBy
            orderDirection := (remote.fingerprinted platform).orderDirection
            useTranscodingAddress := (remote.fingerprinted platform).useTranscodingAddress
            onlyListVideoFile := (remote.fingerprinted platform).onlyListVideoFile } } :=
    fun _ => rfl
  rw [covered a, covered b, same]

theorem CollisionFree.settings {a b : QuarkDavRemote} (collisionFree : CollisionFree platform)
    (same : fingerprint platform a = fingerprint platform b) :
    a.settings platform = b.settings platform :=
  congrArg QuarkDavKernelConfig.settings (kernelConfig_of_fingerprinted (collisionFree a b same))

/-! ## Processes and files between two calls -/

/-- Processes keep their place, and none comes to life. -/
structure Ages (before after : List KernelProcess) : Prop where
  kept : ∀ (i : Nat) p, before[i]? = some p →
    ∃ p', after[i]? = some p' ∧ p'.id = p.id ∧ p'.launched = p.launched
  living : ∀ p' ∈ after, p'.alive = true → ∃ p ∈ before, p.alive = true ∧ p.id = p'.id

theorem Ages.refl (processes : List KernelProcess) : Ages processes processes where
  kept _ p found := ⟨p, found, rfl, rfl⟩
  living p member alive := ⟨p, member, alive, rfl⟩

theorem Ages.trans {a b c : List KernelProcess} (first : Ages a b) (second : Ages b c) :
    Ages a c := by
  constructor
  · intro i p found
    obtain ⟨q, foundB, idB, launchedB⟩ := first.kept i p found
    obtain ⟨r, foundC, idC, launchedC⟩ := second.kept i q foundB
    exact ⟨r, foundC, idC.trans idB, launchedC.trans launchedB⟩
  · intro r member alive
    obtain ⟨q, memberB, aliveB, idB⟩ := second.living r member alive
    obtain ⟨p, memberA, aliveA, idA⟩ := first.living q memberB aliveB
    exact ⟨p, memberA, aliveA, idA.trans idB⟩

/-- A change of single processes that keeps what they are and revives none. -/
theorem ages_of_getElem {before after : List KernelProcess} (f : Nat → KernelProcess → KernelProcess)
    (each : ∀ i, after[i]? = before[i]?.map (f i))
    (same : ∀ i p, (f i p).id = p.id ∧ (f i p).launched = p.launched)
    (dead : ∀ i p, (f i p).alive = true → p.alive = true) : Ages before after := by
  constructor
  · intro i p found
    refine ⟨f i p, ?_, same i p⟩
    rw [each, found]
    rfl
  · intro p' member alive
    obtain ⟨i, found⟩ := List.mem_iff_getElem?.mp member
    rw [each] at found
    obtain ⟨p, isProcess, rfl⟩ := Option.map_eq_some_iff.mp found
    exact ⟨p, List.mem_of_getElem? isProcess, dead i p alive, (same i p).1.symm⟩

theorem ages_of_killed {before after : List KernelProcess} (hit : Nat → KernelProcess → Prop)
    [∀ i p, Decidable (hit i p)]
    (each : ∀ i, after[i]? = before[i]?.map fun p =>
      if hit i p then { p with alive := false } else p) : Ages before after := by
  apply ages_of_getElem (fun i p => if hit i p then { p with alive := false } else p) each
  · intro i p
    split
    · exact ⟨rfl, rfl⟩
    · exact ⟨rfl, rfl⟩
  · intro i p
    split
    · intro alive
      cases alive
    · exact fun alive => alive

theorem ages_destroy (processes : List KernelProcess) (process : Nat) :
    Ages processes (processes.modify process fun p => { p with alive := false }) := by
  apply ages_of_killed fun i _ => process = i
  intro i
  rw [List.getElem?_modify]
  rfl

theorem ages_terminate (processes : List KernelProcess) (id : JavaString) :
    Ages processes
      (processes.map fun p => if p.id = id then { p with alive := false } else p) := by
  apply ages_of_killed fun _ p => p.id = id
  intro i
  rw [List.getElem?_map]

theorem ages_refresh {processes : List KernelProcess} {process : Nat} {p : KernelProcess}
    (found : processes[process]? = some p) (cookie : JavaString) :
    Ages processes (processes.set process { p with refreshed := cookie :: p.refreshed }) := by
  apply ages_of_getElem fun i q =>
    if process = i then { q with refreshed := cookie :: q.refreshed } else q
  · intro i
    rw [List.getElem?_set]
    by_cases here : process = i
    · subst here
      obtain ⟨inside, rfl⟩ := List.getElem?_eq_some_iff.mp found
      simp [inside]
    · simp [here]
  · intro i q
    split
    · exact ⟨rfl, rfl⟩
    · exact ⟨rfl, rfl⟩
  · intro i q
    split
    · exact fun alive => alive
    · exact fun alive => alive

/-- No kernel of this id runs. -/
def NoneAlive (s : Service) (id : JavaString) : Prop :=
  ∀ p ∈ s.processes, p.id = id → p.alive = false

theorem NoneAlive.of_ages {s t : Service} {id : JavaString} (none : NoneAlive s id)
    (ages : Ages s.processes t.processes) : NoneAlive t id := by
  intro p' member own
  rw [Bool.eq_false_iff]
  intro alive
  obtain ⟨p, memberS, aliveS, same⟩ := ages.living p' member alive
  have dead := none p memberS (same.trans own)
  rw [dead] at aliveS
  cases aliveS

/-- What happens between two calls of the supervisor: the fields stay, and a
configuration file is written only by a kernel that reads it. -/
structure Onward (s t : Service) : Prop where
  supervisor : t.supervisor = s.supervisor
  processes : Ages s.processes t.processes
  runtime : ∀ id, NoneAlive s id →
    t.dir.runtime.lookup id = s.dir.runtime.lookup id ∨ t.dir.runtime.lookup id = none

theorem Onward.refl (s : Service) : Onward s s :=
  ⟨rfl, Ages.refl s.processes, fun _ _ => .inl rfl⟩

theorem Onward.trans {s t u : Service} (first : Onward s t) (second : Onward t u) :
    Onward s u := by
  refine ⟨second.supervisor.trans first.supervisor, first.processes.trans second.processes, ?_⟩
  intro id none
  rcases second.runtime id (none.of_ages first.processes) with same | absent
  · rw [same]
    exact first.runtime id none
  · exact .inr absent

/-- A change that spares the fields, the processes and the configuration files. -/
theorem Onward.of_eq {s t : Service} (supervisor : t.supervisor = s.supervisor)
    (processes : t.processes = s.processes) (runtime : t.dir.runtime = s.dir.runtime) :
    Onward s t :=
  ⟨supervisor, processes ▸ Ages.refl s.processes, fun _ _ => .inl (by rw [runtime])⟩

theorem onward_outside (s : Service) (event : OutsideEvent) : Onward s (outside platform s event) := by
  cases event with
  | save remote => exact .of_eq rfl rfl rfl
  | delete id =>
      refine ⟨rfl, Ages.refl s.processes, fun other _ => ?_⟩
      change (s.dir.runtime.erase id).lookup other = _ ∨ (s.dir.runtime.erase id).lookup other = none
      by_cases same : other = id
      · right
        rw [same]
        exact AList.lookup_erase id s.dir.runtime
      · left
        exact AList.lookup_erase_ne same
  | sendFailed id message => exact .of_eq rfl rfl rfl
  | kernelSave process cookie =>
      unfold outside kernelSave
      dsimp only
      split
      · rename_i p found
        split
        · rename_i alive
          refine ⟨rfl, ages_refresh found cookie, fun id none => .inl ?_⟩
          have other : id ≠ p.id := by
            rintro rfl
            have dead := none p (List.mem_of_getElem? found) rfl
            rw [dead] at alive
            cases alive
          exact AList.lookup_insert_ne other
        · exact Onward.refl s
      · exact Onward.refl s
  | kernelExit process => exact ⟨rfl, ages_destroy s.processes process, fun _ _ => .inl rfl⟩
  | platform binary startable => exact .of_eq rfl rfl rfl

/-! ## Holders and their kernels -/

/-- Every registered holder has a kernel of the id it is registered for. -/
def Wired (s : Service) : Prop :=
  ∀ id holder, s.supervisor.running.lookup id = some holder →
    ∃ h p, s.supervisor.holders[holder]? = some h ∧ s.processes[h.process]? = some p ∧ p.id = id

/-- The kernel of a holder was launched with the settings that the holder shows. -/
structure ShowsLaunched (platform : Platform) (h : RunningProcess) (p : KernelProcess) : Prop where
  settings : p.launched.settings = h.config.settings platform
  fingerprint : h.fingerprint = fingerprint platform h.config

/-- Every registered holder shows what its kernel was launched with. -/
def Truthful (platform : Platform) (s : Service) : Prop :=
  ∀ id holder h p, s.supervisor.running.lookup id = some holder →
    s.supervisor.holders[holder]? = some h → s.processes[h.process]? = some p →
      ShowsLaunched platform h p

theorem Wired.onward {s t : Service} (wired : Wired s) (onward : Onward s t) : Wired t := by
  intro id holder registered
  rw [onward.supervisor] at registered ⊢
  obtain ⟨h, p, foundH, foundP, own⟩ := wired id holder registered
  obtain ⟨p', foundP', sameId, _⟩ := onward.processes.kept h.process p foundP
  exact ⟨h, p', foundH, foundP', sameId.trans own⟩

theorem Truthful.onward {s t : Service} (truthful : Truthful platform s) (wired : Wired s)
    (onward : Onward s t) : Truthful platform t := by
  intro id holder h p' registered foundH foundP'
  rw [onward.supervisor] at registered foundH
  obtain ⟨h', p, foundH', foundP, _⟩ := wired id holder registered
  cases foundH.symm.trans foundH'
  obtain ⟨q, foundQ, _, launched⟩ := onward.processes.kept h.process p foundP
  cases foundP'.symm.trans foundQ
  have shows := truthful id holder h p registered foundH foundP
  exact ⟨by rw [launched, shows.settings], shows.fingerprint⟩

/-! ## What the calls of the supervisor do -/

/-- A change of the fields that registers nothing and keeps the kernels; where it
registers another configuration, it registers its fingerprint with it. -/
structure FieldsChange (platform : Platform) (before after : Supervisor) : Prop where
  running : ∀ id holder, after.running.lookup id = some holder →
    before.running.lookup id = some holder
  length : after.holders.length = before.holders.length
  holders : ∀ (i : Nat) h h', before.holders[i]? = some h → after.holders[i]? = some h' →
    h'.process = h.process ∧
      (h'.config = h.config ∧ h'.fingerprint = h.fingerprint ∨
        h'.fingerprint = fingerprint platform h'.config)

/-- What every call of the supervisor keeps to: a kernel is launched with the
configuration that was just written for it. -/
def Minds (platform : Platform) (s : Service) : ServiceCall → Prop
  | .launch refreshed => ∀ config, s.dir.runtime.lookup refreshed.id = some config →
      config = refreshed.kernelConfig platform
  | .fields change => FieldsChange platform s.supervisor (change s.supervisor)
  | _ => True

/-- A configuration of another fingerprint is registered for a running kernel
only with the settings that the kernel was launched with. -/
def AdoptsLaunched (platform : Platform) (s : Service) : ServiceCall → Prop
  | .fields change => ∀ id holder h h' p, (change s.supervisor).running.lookup id = some holder →
      s.supervisor.holders[holder]? = some h →
      (change s.supervisor).holders[holder]? = some h' → s.processes[h.process]? = some p →
      h'.fingerprint ≠ h.fingerprint → p.launched.settings = h'.config.settings platform
  | _ => True

theorem FieldsChange.exists_before {before after : Supervisor} {i : Nat} {h' : RunningProcess}
    (fieldsChange : FieldsChange platform before after) (found : after.holders[i]? = some h') :
    ∃ h, before.holders[i]? = some h := by
  obtain ⟨inside, _⟩ := List.getElem?_eq_some_iff.mp found
  rw [fieldsChange.length] at inside
  exact ⟨before.holders[i], List.getElem?_eq_getElem inside⟩

theorem FieldsChange.exists_after {before after : Supervisor} {i : Nat} {h : RunningProcess}
    (fieldsChange : FieldsChange platform before after) (found : before.holders[i]? = some h) :
    ∃ h', after.holders[i]? = some h' := by
  obtain ⟨inside, _⟩ := List.getElem?_eq_some_iff.mp found
  rw [← fieldsChange.length] at inside
  exact ⟨after.holders[i], List.getElem?_eq_getElem inside⟩

variable {s : Service}

theorem wired_fields {f : Supervisor → Supervisor} (wired : Wired s)
    (fieldsChange : FieldsChange platform s.supervisor (f s.supervisor)) :
    Wired { s with supervisor := f s.supervisor } := by
  intro id holder registered
  obtain ⟨h, p, foundH, foundP, own⟩ := wired id holder (fieldsChange.running id holder registered)
  obtain ⟨h', foundH'⟩ := fieldsChange.exists_after foundH
  refine ⟨h', p, foundH', ?_, own⟩
  rw [(fieldsChange.holders holder h h' foundH foundH').1]
  exact foundP

theorem truthful_fields_iff (collisionFree : CollisionFree platform) {f : Supervisor → Supervisor}
    (truthful : Truthful platform s)
    (fieldsChange : FieldsChange platform s.supervisor (f s.supervisor)) :
    Truthful platform { s with supervisor := f s.supervisor } ↔
      AdoptsLaunched platform s (.fields f) := by
  constructor
  · intro after id holder h h' p registered foundH foundH' foundP _
    obtain ⟨sameProcess, _⟩ := fieldsChange.holders holder h h' foundH foundH'
    exact (after id holder h' p registered foundH' (sameProcess ▸ foundP)).settings
  · intro adopts id holder h' p registered foundH' foundP
    obtain ⟨h, foundH⟩ := fieldsChange.exists_before foundH'
    obtain ⟨sameProcess, changed⟩ := fieldsChange.holders holder h h' foundH foundH'
    change s.processes[h'.process]? = some p at foundP
    rw [sameProcess] at foundP
    have shows := truthful id holder h p (fieldsChange.running id holder registered) foundH foundP
    rcases changed with ⟨sameConfig, sameFingerprint⟩ | own
    · constructor
      · rw [sameConfig]
        exact shows.settings
      · rw [sameFingerprint, sameConfig]
        exact shows.fingerprint
    · refine ⟨?_, own⟩
      by_cases kept : h'.fingerprint = h.fingerprint
      · -- the same fingerprint: the same settings
        have same : fingerprint platform h'.config = fingerprint platform h.config := by
          rw [← own, kept, shows.fingerprint]
        rw [collisionFree.settings same]
        exact shows.settings
      · exact adopts id holder h h' p registered foundH foundH' foundP kept

/-- A call other than those that write fields, launch kernels or write files. -/
def Harmless : ServiceCall → Prop
  | .save _ | .writeRuntimeConfig _ | .launch _ | .fields _ => False
  | _ => True

theorem onward_answer {c : ServiceCall} (harmless : Harmless c) :
    Onward s (answer platform c s).2 := by
  cases c with
  | terminateStaleKernel id => exact ⟨rfl, ages_terminate s.processes id, fun _ _ => .inl rfl⟩
  | destroy process => exact ⟨rfl, ages_destroy s.processes process, fun _ _ => .inl rfl⟩
  | save remote => exact harmless.elim
  | writeRuntimeConfig remote => exact harmless.elim
  | launch refreshed => exact harmless.elim
  | fields change => exact harmless.elim
  | _ => exact .of_eq rfl rfl rfl

/-- The service after a successful start. -/
def launched (platform : Platform) (s : Service) (refreshed : QuarkDavRemote) (alive : Bool) :
    Service :=
  { s with
    processes := s.processes ++ [⟨refreshed.id, refreshed.kernelConfig platform, [], alive⟩]
    supervisor :=
      { s.supervisor with
        holders := s.supervisor.holders ++
          [{ config := refreshed, fingerprint := fingerprint platform refreshed
             process := s.processes.length }]
        running := s.supervisor.running.insert refreshed.id s.supervisor.holders.length } }

theorem launch_cases {refreshed : QuarkDavRemote} (minds : Minds platform s (.launch refreshed)) :
    s.startable = false ∧ launch platform s refreshed = (none, s) ∨
      s.startable = true ∧ ∃ alive, launch platform s refreshed =
        (some s.supervisor.holders.length, launched platform s refreshed alive) := by
  by_cases startable : s.startable = true
  · right
    refine ⟨startable, (s.dir.runtime.lookup refreshed.id).isSome, ?_⟩
    have given : (s.dir.runtime.lookup refreshed.id).getD (refreshed.kernelConfig platform) =
        refreshed.kernelConfig platform := by
      cases found : s.dir.runtime.lookup refreshed.id with
      | none => rfl
      | some config => exact minds config found
    unfold launch
    rw [if_neg (by simp [startable])]
    dsimp only
    rw [given]
    rfl
  · left
    rw [Bool.not_eq_true] at startable
    unfold launch
    rw [if_pos (by simp [startable])]
    exact ⟨startable, rfl⟩

section Launched

variable {refreshed : QuarkDavRemote} {alive : Bool}

theorem lookup_launched {id : JavaString} {holder : Nat}
    (registered : (launched platform s refreshed alive).supervisor.running.lookup id = some holder) :
    id = refreshed.id ∧ holder = s.supervisor.holders.length ∨
      id ≠ refreshed.id ∧ s.supervisor.running.lookup id = some holder := by
  rcases Table.lookup_insert_eq_some_iff.mp registered with ⟨own, fresh⟩ | other
  · exact .inl ⟨own, fresh.symm⟩
  · exact .inr other

theorem lookup_launched_self :
    (launched platform s refreshed alive).supervisor.running.lookup refreshed.id =
      some s.supervisor.holders.length :=
  AList.lookup_insert _

theorem lookup_launched_ne {id : JavaString} (other : id ≠ refreshed.id) :
    (launched platform s refreshed alive).supervisor.running.lookup id =
      s.supervisor.running.lookup id :=
  AList.lookup_insert_ne other

/-- What an earlier holder and its kernel are, they stay. -/
theorem found_launched {holder : Nat} {h : RunningProcess} {p : KernelProcess}
    (foundH : s.supervisor.holders[holder]? = some h) (foundP : s.processes[h.process]? = some p) :
    (launched platform s refreshed alive).supervisor.holders[holder]? = some h ∧
      (launched platform s refreshed alive).processes[h.process]? = some p := by
  obtain ⟨insideH, _⟩ := List.getElem?_eq_some_iff.mp foundH
  obtain ⟨insideP, _⟩ := List.getElem?_eq_some_iff.mp foundP
  constructor
  · exact (List.getElem?_append_left insideH).trans foundH
  · exact (List.getElem?_append_left insideP).trans foundP

theorem found_launched_self :
    (launched platform s refreshed alive).supervisor.holders[s.supervisor.holders.length]? =
        some { config := refreshed, fingerprint := fingerprint platform refreshed
               process := s.processes.length } ∧
      (launched platform s refreshed alive).processes[s.processes.length]? =
        some ⟨refreshed.id, refreshed.kernelConfig platform, [], alive⟩ := by
  constructor
  · exact List.getElem?_concat_length
  · exact List.getElem?_concat_length

theorem wired_launched (wired : Wired s) : Wired (launched platform s refreshed alive) := by
  intro id holder registered
  rcases lookup_launched registered with ⟨rfl, rfl⟩ | ⟨_, before⟩
  · exact ⟨_, _, found_launched_self.1, found_launched_self.2, rfl⟩
  · obtain ⟨h, p, foundH, foundP, own⟩ := wired id holder before
    obtain ⟨stillH, stillP⟩ := found_launched foundH foundP
    exact ⟨h, p, stillH, stillP, own⟩

theorem truthful_launched (wired : Wired s) (truthful : Truthful platform s) :
    Truthful platform (launched platform s refreshed alive) := by
  intro id holder h p registered foundH foundP
  rcases lookup_launched registered with ⟨rfl, rfl⟩ | ⟨_, before⟩
  · cases found_launched_self.1.symm.trans foundH
    cases found_launched_self.2.symm.trans foundP
    exact ⟨rfl, rfl⟩
  · obtain ⟨h', p', foundH', foundP', _⟩ := wired id holder before
    obtain ⟨stillH, stillP⟩ := found_launched foundH' foundP'
    cases stillH.symm.trans foundH
    cases stillP.symm.trans foundP
    exact truthful id holder h p before foundH' foundP'

end Launched

/-! ## One call -/

theorem wired_answer {c : ServiceCall} (wired : Wired s) (minds : Minds platform s c) :
    Wired (answer platform c s).2 := by
  cases c with
  | fields change => exact wired_fields wired minds
  | launch refreshed =>
      change Wired (launch platform s refreshed).2
      rcases launch_cases minds with ⟨_, failed⟩ | ⟨_, alive, started⟩
      · rw [failed]
        exact wired
      · rw [started]
        exact wired_launched wired
  | save remote => exact wired
  | writeRuntimeConfig remote => exact wired
  | _ => exact wired.onward (onward_answer trivial)

/-- A call keeps the holders truthful exactly if it registers, for a running
kernel, only what the kernel was launched with. -/
theorem truthful_answer_iff (collisionFree : CollisionFree platform) {c : ServiceCall}
    (wired : Wired s) (truthful : Truthful platform s) (minds : Minds platform s c) :
    Truthful platform (answer platform c s).2 ↔ AdoptsLaunched platform s c := by
  cases c with
  | fields change => exact truthful_fields_iff collisionFree truthful minds
  | launch refreshed =>
      change Truthful platform (launch platform s refreshed).2 ↔ True
      rcases launch_cases minds with ⟨_, failed⟩ | ⟨_, alive, started⟩
      · rw [failed]
        exact iff_of_true truthful trivial
      · rw [started]
        exact iff_of_true (truthful_launched wired truthful) trivial
  | save remote => exact iff_of_true truthful trivial
  | writeRuntimeConfig remote => exact iff_of_true truthful trivial
  | _ =>
      exact iff_of_true (truthful.onward wired (onward_answer trivial)) trivial

end RoundSync.QuarkDav
