import RoundSync.QuarkDav.Generations
import RoundSync.QuarkDav.TaskCalls

/-!
# Where cookies come from

Cookies pass between the files of the remotes, the configuration files of the
kernels, the kernels themselves and the fields of the supervisor, in both
directions.  Whatever happens in between, the supervisor makes no cookie up and
gives none to another remote: everywhere the cookie of an id is one that was
there before, that was saved for this id or that a kernel of this id has written.
-/

namespace RoundSync.QuarkDav

open RoundSync.Data
open RoundSync.Text
open RoundSync.Transition
open RoundSync.Transition.Shop

variable {platform : Platform} {origin : JavaString → JavaString → Prop} {s : Service}

/-! ## Cookies of an id -/

/-- A remote with a cookie of its own id. -/
def QuarkDavRemote.Own (origin : JavaString → JavaString → Prop) (remote : QuarkDavRemote) :
    Prop :=
  origin remote.id remote.cookie

/-- The holders have cookies of the ids that they are registered for. -/
def OwnHolders (origin : JavaString → JavaString → Prop) (holders : List RunningProcess) : Prop :=
  ∀ h ∈ holders, h.config.Own origin

/-- Wherever there is a cookie, it is one of the id that it is there for. -/
structure CookiesOwn (origin : JavaString → JavaString → Prop) (s : Service) : Prop where
  stored : ∀ id remote, s.dir.remotes.lookup id = some remote → remote.Own origin
  configured : ∀ id config, s.dir.runtime.lookup id = some config →
    origin id config.cookie.cookie
  held : ∀ p ∈ s.processes, ∀ cookie ∈ p.held, origin p.id cookie
  registered : OwnHolders origin s.supervisor.holders

/-- What users save and kernels write are cookies of the id that it is for. -/
def FromOrigin (origin : JavaString → JavaString → Prop) (s : Service) : OutsideEvent → Prop
  | .save remote => remote.Own origin
  | .kernelSave process cookie => ∀ p, s.processes[process]? = some p → origin p.id cookie
  | _ => True

/-! ## Files -/

theorem own_put {stored : Remotes} {remote : QuarkDavRemote} (own : remote.Own origin)
    (owns : ∀ id other, stored.lookup id = some other → other.Own origin) (id : JavaString)
    (other : QuarkDavRemote) (found : (stored.put remote).lookup id = some other) :
    other.Own origin := by
  rcases Remotes.lookup_put_eq_some_iff.mp found with ⟨_, rfl⟩ | ⟨_, before⟩
  · exact own
  · exact owns id other before

theorem CookiesOwn.get {id : JavaString} {remote : QuarkDavRemote} (owns : CookiesOwn origin s)
    (found : get platform.cases s.dir.remotes id = some remote) : remote.Own origin := by
  obtain ⟨file, isStored, rfl⟩ := get_eq_some_iff.mp found
  exact owns.stored id file isStored

theorem CookiesOwn.list (owns : CookiesOwn origin s) {remote : QuarkDavRemote}
    (member : remote ∈ list platform.cases s.dir.remotes) : remote.Own origin :=
  owns.get (mem_list_iff.mp member)

theorem CookiesOwn.save {remote : QuarkDavRemote} (owns : CookiesOwn origin s)
    (own : remote.Own origin) :
    CookiesOwn origin
      { s with dir := { s.dir with remotes := (save platform.cases s.dir.remotes remote).2 } } := by
  rcases save_stored_cases platform.cases s.dir.remotes remote with same | ⟨_, written⟩
  · rw [same]
    exact owns
  · rw [written]
    exact { owns with stored := own_put own owns.stored }

theorem CookiesOwn.sync (owns : CookiesOwn origin s) (id : JavaString) :
    CookiesOwn origin (answer platform (.syncRuntimeCookie id) s).2 := by
  rcases syncRuntimeCookie_cases s.dir.runtime s.dir.remotes id with
    same | ⟨config, remote, isConfig, isStored, _, written⟩
  · change CookiesOwn origin { s with dir := { s.dir with remotes := _ } }
    rw [same]
    exact owns
  · have own : remote.id = id := Remotes.id_of_lookup isStored
    have fits : ({ remote with cookie := config.cookie.cookie } : QuarkDavRemote).Own origin := by
      change origin remote.id config.cookie.cookie
      rw [own]
      exact owns.configured id config isConfig
    change CookiesOwn origin { s with dir := { s.dir with remotes := _ } }
    rw [written]
    exact { owns with stored := own_put fits owns.stored }

/-- A configuration file is written for an id with a cookie of this id. -/
theorem configured_insert {runtime : Table JavaString QuarkDavKernelConfig} {id : JavaString}
    {config : QuarkDavKernelConfig} (own : origin id config.cookie.cookie)
    (owns : ∀ id config, runtime.lookup id = some config → origin id config.cookie.cookie)
    (other : JavaString) (found : QuarkDavKernelConfig)
    (isFound : (runtime.insert id config).lookup other = some found) :
    origin other found.cookie.cookie := by
  rcases Table.lookup_insert_eq_some_iff.mp isFound with ⟨rfl, rfl⟩ | ⟨_, before⟩
  · exact own
  · exact owns other found before

theorem configured_erase {runtime : Table JavaString QuarkDavKernelConfig}
    (owns : ∀ id config, runtime.lookup id = some config → origin id config.cookie.cookie)
    (gone id : JavaString) (config : QuarkDavKernelConfig)
    (found : (runtime.erase gone).lookup id = some config) : origin id config.cookie.cookie :=
  owns id config (Table.lookup_erase_eq_some_iff.mp found).2

/-! ## Kernels -/

/-- Kernels that exit or are killed hold what they held. -/
theorem held_of_killed {processes after : List KernelProcess} (hit : Nat → KernelProcess → Prop)
    [∀ i p, Decidable (hit i p)]
    (each : ∀ i, after[i]? = processes[i]?.map fun p =>
      if hit i p then { p with alive := false } else p)
    (owns : ∀ p ∈ processes, ∀ cookie ∈ p.held, origin p.id cookie) :
    ∀ p ∈ after, ∀ cookie ∈ p.held, origin p.id cookie := by
  intro p' member
  obtain ⟨i, found⟩ := List.mem_iff_getElem?.mp member
  rw [each] at found
  obtain ⟨p, before, rfl⟩ := Option.map_eq_some_iff.mp found
  split
  · exact owns p (List.mem_of_getElem? before)
  · exact owns p (List.mem_of_getElem? before)

theorem held_destroy {processes : List KernelProcess} (process : Nat)
    (owns : ∀ p ∈ processes, ∀ cookie ∈ p.held, origin p.id cookie) :
    ∀ p ∈ processes.modify process fun p => { p with alive := false }, ∀ cookie ∈ p.held,
      origin p.id cookie := by
  apply held_of_killed (fun i _ => process = i) _ owns
  intro i
  rw [List.getElem?_modify]
  rfl

theorem CookiesOwn.launch {refreshed : QuarkDavRemote} (owns : CookiesOwn origin s)
    (own : refreshed.Own origin) : CookiesOwn origin (launch platform s refreshed).2 := by
  unfold QuarkDav.launch
  split
  · exact owns
  · constructor
    · exact owns.stored
    · exact owns.configured
    · intro p member cookie isHeld
      rcases List.mem_append.mp member with before | isNew
      · exact owns.held p before cookie isHeld
      · obtain rfl := List.mem_singleton.mp isNew
        obtain rfl := List.mem_singleton.mp isHeld
        cases found : s.dir.runtime.lookup refreshed.id with
        | none => exact own
        | some config => exact owns.configured refreshed.id config found
    · intro h member
      rcases List.mem_append.mp member with before | isNew
      · exact owns.registered h before
      · obtain rfl := List.mem_singleton.mp isNew
        exact own

theorem CookiesOwn.kernelSave {process : Nat} {cookie : JavaString} (owns : CookiesOwn origin s)
    (own : ∀ p, s.processes[process]? = some p → origin p.id cookie) :
    CookiesOwn origin (kernelSave s process cookie) := by
  unfold QuarkDav.kernelSave
  split
  · rename_i p found
    split
    · constructor
      · exact owns.stored
      · exact configured_insert (own p found) owns.configured
      · intro q member cookie' isHeld
        rcases List.mem_or_eq_of_mem_set member with before | rfl
        · exact owns.held q before cookie' isHeld
        · rcases List.mem_cons.mp isHeld with launched | later
          · apply owns.held p (List.mem_of_getElem? found)
            exact List.mem_cons.mpr (.inl launched)
          · rcases List.mem_cons.mp later with rfl | before
            · exact own p found
            · exact owns.held p (List.mem_of_getElem? found) cookie' (List.mem_cons_of_mem _ before)
      · exact owns.registered
    · exact owns
  · exact owns

/-! ## Calls and outside events -/

/-- A call that gives a cookie only to its own id. -/
def PassesOwn (origin : JavaString → JavaString → Prop) : ServiceCall → Prop
  | .save remote | .writeRuntimeConfig remote | .launch remote => remote.Own origin
  | .fields change => ∀ v : Supervisor, OwnHolders origin v.holders →
      OwnHolders origin (change v).holders
  | _ => True

theorem cookiesOwn_answer {c : ServiceCall} (owns : CookiesOwn origin s)
    (passes : PassesOwn origin c) :
    SafeReply (·.Own origin) c (answer platform c s).1 ∧ CookiesOwn origin (answer platform c s).2 := by
  cases c with
  | list => exact ⟨fun _ => owns.list, owns⟩
  | get id => exact ⟨fun _ found => owns.get found, owns⟩
  | save remote => exact ⟨trivial, owns.save passes⟩
  | syncRuntimeCookie id => exact ⟨trivial, owns.sync id⟩
  | writeRuntimeConfig remote =>
      exact ⟨trivial, { owns with configured := configured_insert passes owns.configured }⟩
  | launch refreshed => exact ⟨trivial, owns.launch passes⟩
  | terminateStaleKernel id =>
      have held := held_of_killed (fun _ p => p.id = id) (fun i => List.getElem?_map) owns.held
      exact ⟨trivial, { owns with held }⟩
  | destroy process =>
      exact ⟨trivial, { owns with held := held_destroy process owns.held }⟩
  | fields change =>
      exact ⟨trivial, { owns with registered := passes s.supervisor owns.registered }⟩
  | _ => exact ⟨trivial, { owns with }⟩

theorem cookiesOwn_outside {event : OutsideEvent} (owns : CookiesOwn origin s)
    (fromOrigin : FromOrigin origin s event) : CookiesOwn origin (outside platform s event) := by
  cases event with
  | save remote => exact owns.save fromOrigin
  | delete id =>
      constructor
      · intro other remote found
        exact owns.stored other remote (Remotes.lookup_remove_eq_some_iff.mp found).2
      · exact configured_erase owns.configured id
      · exact owns.held
      · exact owns.registered
  | kernelSave process cookie => exact owns.kernelSave fromOrigin
  | kernelExit process => exact { owns with held := held_destroy process owns.held }
  | _ => exact { owns with }

/-! ## What tasks pass on -/

/-- Holders that keep their configurations, or are given others of their own. -/
theorem ownHolders_of_each {before after : Supervisor}
    (length : after.holders.length = before.holders.length)
    (each : ∀ (i : Nat) h h', before.holders[i]? = some h → after.holders[i]? = some h' →
      h'.config = h.config ∨ h'.config.Own origin)
    (owns : OwnHolders origin before.holders) : OwnHolders origin after.holders := by
  intro h' member
  obtain ⟨i, found'⟩ := List.mem_iff_getElem?.mp member
  have bound : i < before.holders.length := length ▸ (List.getElem?_eq_some_iff.mp found').1
  obtain ⟨h, found⟩ : ∃ h, before.holders[i]? = some h := ⟨_, List.getElem?_eq_getElem bound⟩
  rcases each i h h' found found' with same | own
  · rw [same]
    exact owns h (List.mem_of_getElem? found)
  · exact own

/-- Tasks give a cookie only to its own id, if what they read is of its own id. -/
theorem permits_own : PermitsLaunches platform (PassesOwn origin) (·.Own origin) where
  harmless c harmless := by
    cases c with
    | save _ | writeRuntimeConfig _ | launch _ | fields _ => exact harmless.elim
    | _ => trivial
  fields _ owns := owns
  bookkeeping _ keeps v := ownHolders_of_each (keeps v).length fun i h h' found found' =>
    .inl ((keeps v).holders i h h' found found').2.1
  adopt holder remote own v := by
    apply ownHolders_of_each (List.length_modify _ v.holders holder)
    intro i h h' found found'
    rcases getElem?_update found found' with ⟨rfl, _⟩ | rfl
    · exact .inr own
    · exact .inl rfl
  save _ own := own
  writeRuntimeConfig _ own := own
  launch _ own := own

/-! ## Runs -/

/-- Cookies stay with their remotes: in every run whose users and kernels bring
only cookies of the ids that they are for, every file, every kernel and every
holder has, in every state, only cookies of its own id. -/
theorem always_cookiesOwn (owns : CookiesOwn origin s)
    {events : List (WorkerEvent OutsideEvent ServiceTask)}
    (brings : Meets (service platform).step (AtOutside (FromOrigin origin))
      ⟨(service platform).restart s, pure ()⟩ events) :
    Always (service platform).step (fun w => CookiesOwn origin w.state)
      ⟨(service platform).restart s, pure ()⟩ events := by
  have restarts : ∀ t, CookiesOwn origin t → CookiesOwn origin ((service platform).restart t) :=
    fun t owns => { owns with }
  apply @always_of_passes _ _ _ _ _ (service platform) (CookiesOwn origin) (PassesOwn origin)
    (SafeReply (·.Own origin)) (FromOrigin origin)
  · exact fun t c owns passes => cookiesOwn_answer owns passes
  · exact fun t event owns fromOrigin => cookiesOwn_outside owns fromOrigin
  · exact fun task => permitted_program permits_own (fun _ own => own) task
  · exact restarts
  · trivial
  · exact restarts s owns
  · exact brings

/-- Nothing stored, and nothing running. -/
def emptyService : Service where
  dir := ⟨Remotes.empty, ∅, ∅⟩
  supervisor := Supervisor.fresh
  processes := []
  binary := true
  startable := true

theorem cookiesOwn_emptyService : CookiesOwn origin emptyService where
  stored _ _ found := by cases found
  configured _ _ found := by cases found
  held _ member := by cases member
  registered _ member := by cases member

/-- A remote is saved and started; its kernel refreshes the cookie, and a heartbeat
stores it. -/
theorem refreshedCookie_cookiesOwn :
    Always (service plainPlatform).step
      (fun w => CookiesOwn
        (fun id cookie => id = text "1" ∧ cookie ∈ [text "k", text "k2"]) w.state)
      ⟨(service plainPlatform).restart emptyService, pure ()⟩
      (.outside (.save { plainRemote with enabled := true }) :: .begin (.reconcile false) ::
        List.replicate 14 .advance ++
          .outside (.kernelSave 0 (text "k2")) :: .begin (.readyLine 0 []) ::
            List.replicate 4 .advance ++ .begin .heartbeat :: List.replicate 12 .advance) := by
  apply always_cookiesOwn cookiesOwn_emptyService
  simp only [List.replicate, List.cons_append, List.nil_append, Meets, AtOutside, true_and, and_true]
  constructor
  · exact ⟨rfl, .head _⟩
  · intro p found
    have own : some (text "1") = some p.id := congrArg (Option.map KernelProcess.id) found
    exact ⟨(Option.some.inj own).symm, .tail _ (.head _)⟩

end RoundSync.QuarkDav
