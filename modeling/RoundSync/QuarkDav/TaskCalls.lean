import RoundSync.QuarkDav.LaunchedSettings

/-!
# What the tasks of the supervisor call

Most of the calls of a task read files and fields, write statuses, stop kernels and
keep books.  The others pass on remotes that were read before.  Whatever holds of
these calls holds of the tasks, as long as the remotes that are read are safe.
-/

namespace RoundSync.QuarkDav

open RoundSync.Data
open RoundSync.Text
open RoundSync.Transition

/-- A change of the fields that registers nothing and leaves what holders show. -/
structure Bookkeeping (before after : Supervisor) : Prop where
  running : ∀ id holder, after.running.lookup id = some holder →
    before.running.lookup id = some holder
  length : after.holders.length = before.holders.length
  holders : ∀ (i : Nat) h h', before.holders[i]? = some h → after.holders[i]? = some h' →
    h'.process = h.process ∧ h'.config = h.config ∧ h'.fingerprint = h.fingerprint

/-- A holder is changed in place. -/
theorem getElem?_update {v : Supervisor} {holder i : Nat} {f : RunningProcess → RunningProcess}
    {h h' : RunningProcess} (found : v.holders[i]? = some h)
    (found' : (v.update holder f).holders[i]? = some h') : h' = f h ∧ holder = i ∨ h' = h := by
  change (v.holders.modify holder f)[i]? = some h' at found'
  rw [List.getElem?_modify, found] at found'
  cases found'
  by_cases here : holder = i
  · exact .inl ⟨if_pos here, here⟩
  · exact .inr (if_neg here)

theorem bookkeeping_of_holders {before after : Supervisor}
    (running : ∀ id holder, after.running.lookup id = some holder →
      before.running.lookup id = some holder)
    (holders : after.holders = before.holders) : Bookkeeping before after := by
  constructor
  · exact running
  · rw [holders]
  · intro i h h' found found'
    rw [holders] at found'
    cases found.symm.trans found'
    exact ⟨rfl, rfl, rfl⟩

theorem bookkeeping_update (v : Supervisor) (holder : Nat) {f : RunningProcess → RunningProcess}
    (same : ∀ h, (f h).process = h.process ∧ (f h).config = h.config ∧
      (f h).fingerprint = h.fingerprint) : Bookkeeping v (v.update holder f) := by
  constructor
  · exact fun _ _ registered => registered
  · exact List.length_modify f v.holders holder
  · intro i h h' found found'
    rcases getElem?_update found found' with ⟨rfl, _⟩ | rfl
    · exact same h
    · exact ⟨rfl, rfl, rfl⟩

theorem bookkeeping_remove (v : Supervisor) (id : JavaString) : Bookkeeping v (v.remove id) :=
  bookkeeping_of_holders
    (fun _ _ registered => (Table.lookup_erase_eq_some_iff.mp registered).2) rfl

/-! ## Calls that hold, and remotes that are safe -/

/-- What holds of the calls that only read. -/
structure Reads (P : ServiceCall → Prop) : Prop where
  harmless : ∀ c, Harmless c → P c
  fields : P (.fields id)

/-- What holds of the calls of tasks that launch nothing. -/
structure Permits (platform : Platform) (P : ServiceCall → Prop) (safe : QuarkDavRemote → Prop) :
    Prop extends Reads P where
  bookkeeping : ∀ f, (∀ v, Bookkeeping v (f v)) → P (.fields f)
  adopt : ∀ holder remote, safe remote → P (.fields (·.update holder fun h =>
    { h with config := remote, fingerprint := fingerprint platform remote }))
  save : ∀ remote, safe remote → P (.save remote)

/-- What holds of the calls of every task. -/
structure PermitsLaunches (platform : Platform) (P : ServiceCall → Prop)
    (safe : QuarkDavRemote → Prop) : Prop extends Permits platform P safe where
  writeRuntimeConfig : ∀ remote, safe remote → P (.writeRuntimeConfig remote)
  launch : ∀ remote, safe remote → P (.launch remote)

/-- The remotes in a reply are safe. -/
def SafeReply (safe : QuarkDavRemote → Prop) : (c : ServiceCall) → c.Reply → Prop
  | .list, listed => ∀ remote ∈ listed, safe remote
  | .get _, found => ∀ remote ∈ found, safe remote
  | _, _ => True

/-- A task all of whose calls are permitted, as long as replies are safe. -/
abbrev Permitted (P : ServiceCall → Prop) (safe : QuarkDavRemote → Prop) {α : Type}
    (task : Task α) : Prop :=
  task.Passes P (SafeReply safe)

variable {platform : Platform} {P : ServiceCall → Prop} {safe : QuarkDavRemote → Prop}

/-- Where every remote is safe, all calls of the task are permitted. -/
theorem everyCall_of_permitted {α : Type} {task : Task α}
    (permitted : Permitted P (fun _ => True) task) : task.EveryCall P := by
  apply Program.Passes.everyCall _ permitted
  intro c reply
  cases c <;> simp [SafeReply]

section Reading

variable (reads : Reads P)

include reads

theorem Reads.ask {c : ServiceCall} (harmless : Harmless c) : Permitted P safe (ask c) :=
  Program.passes_request (reads.harmless c harmless)

theorem Reads.ask_bind {α : Type} {c : ServiceCall} {rest : c.Reply → Task α}
    (harmless : Harmless c) (later : ∀ reply, SafeReply safe c reply → Permitted P safe (rest reply)) :
    Permitted P safe (QuarkDav.ask c >>= rest) :=
  Program.passes_request_bind (reads.harmless c harmless) later

theorem Reads.fields_bind {α : Type} {rest : Supervisor → Task α}
    (later : ∀ v, Permitted P safe (rest v)) : Permitted P safe (QuarkDav.fields >>= rest) :=
  Program.passes_request_bind reads.fields fun v _ => later v

theorem permitted_publishStopped (id : JavaString) : Permitted P safe (publishStopped id) := by
  apply reads.ask_bind (c := .get id) trivial
  intro found _
  cases found with
  | none => exact reads.ask trivial
  | some remote => exact reads.ask trivial

theorem permitted_displayWebDavUrl (remote : QuarkDavRemote) :
    Permitted P safe (displayWebDavUrl platform remote) := by
  apply reads.ask_bind (c := .readStatus remote.id) trivial
  intro status _
  split
  · trivial
  · trivial

theorem permitted_publishRunning (holder : Nat) :
    Permitted P safe (publishRunning platform holder) := by
  apply reads.fields_bind
  intro v
  cases v.holders[holder]? with
  | none => trivial
  | some h =>
      dsimp only
      split
      · exact (permitted_displayWebDavUrl reads h.config).bind fun _ => reads.ask trivial
      · exact reads.ask trivial

theorem permitted_refreshRunningStatuses {sync : Bool}
    (synced : ∀ holder h, sync = true → Permitted P safe (syncRunningCookie platform holder h)) :
    Permitted P safe (refreshRunningStatuses platform sync) := by
  apply reads.fields_bind
  intro v
  apply Program.passes_forEach
  intro holder _
  apply reads.fields_bind
  intro v
  cases v.holders[holder]? with
  | none => trivial
  | some h =>
      dsimp only
      split
      · trivial
      · apply reads.ask_bind (c := .isAlive h.process) trivial
        intro alive _
        cases alive with
        | false => trivial
        | true =>
            cases sync with
            | false => exact permitted_publishRunning reads holder
            | true =>
                apply (synced holder h rfl).bind
                exact fun _ => permitted_publishRunning reads holder

end Reading

section Working

variable (permits : Permits platform P safe)

include permits

theorem Permits.keep {f : Supervisor → Supervisor} (keeps : ∀ v, Bookkeeping v (f v)) :
    Permitted P safe (change f) :=
  Program.passes_request_bind (permits.bookkeeping f keeps) fun _ _ => trivial

/-- A holder notes something about itself. -/
theorem Permits.note {holder : Nat} {f : RunningProcess → RunningProcess}
    (same : ∀ h, (f h).process = h.process ∧ (f h).config = h.config ∧
      (f h).fingerprint = h.fingerprint) : Permitted P safe (change (·.update holder f)) :=
  permits.keep fun v => bookkeeping_update v holder same

theorem Permits.counts {f : Supervisor → Supervisor} (running : ∀ v, (f v).running = v.running)
    (holders : ∀ v, (f v).holders = v.holders) : Permitted P safe (change f) :=
  permits.keep fun v => bookkeeping_of_holders (fun _ _ registered => running v ▸ registered)
    (holders v)

theorem permitted_adopt {holder : Nat} {remote : QuarkDavRemote} (isSafe : safe remote) :
    Permitted P safe (change (·.update holder fun h =>
      { h with config := remote, fingerprint := fingerprint platform remote })) :=
  Program.passes_request_bind (permits.adopt holder remote isSafe) fun _ _ => trivial

theorem permitted_stopProcess (id : JavaString) (sync : Bool) :
    Permitted P safe (stopProcess id sync) := by
  have reads := permits.toReads
  apply reads.fields_bind
  intro v
  cases v.holderOf id with
  | none => exact permitted_publishStopped reads id
  | some found =>
      apply Program.Passes.bind
      · exact permits.note fun _ => ⟨rfl, rfl, rfl⟩
      · intro _
        apply (permits.keep fun v => bookkeeping_remove v id).bind
        intro _
        apply (reads.ask (c := .destroy found.2.process) trivial).bind
        intro _
        cases sync with
        | false => exact permitted_publishStopped reads id
        | true =>
            apply (reads.ask (c := .syncRuntimeCookie id) trivial).bind
            exact fun _ => permitted_publishStopped reads id

theorem permitted_syncRunningCookie (holder : Nat) (h : RunningProcess) :
    Permitted P safe (syncRunningCookie platform holder h) := by
  have reads := permits.toReads
  apply reads.ask_bind (c := .get h.config.id) trivial
  intro before _
  cases before with
  | none => trivial
  | some before =>
      dsimp only
      split
      · trivial
      · apply reads.ask_bind (c := .syncRuntimeCookie h.config.id) trivial
        intro _ _
        apply reads.ask_bind (c := .get h.config.id) trivial
        intro found isSafe
        cases found with
        | none => trivial
        | some refreshed => exact permitted_adopt permits (isSafe refreshed rfl)

theorem permitted_refreshed (sync : Bool) :
    Permitted P safe (refreshRunningStatuses platform sync) :=
  permitted_refreshRunningStatuses permits.toReads fun holder h _ =>
    permitted_syncRunningCookie permits holder h

theorem permitted_reconcileRunning {enabled : List QuarkDavRemote}
    (safeEnabled : ∀ remote ∈ enabled, safe remote) (id : JavaString) :
    Permitted P safe (reconcileRunning platform enabled id) := by
  apply permits.fields_bind
  intro v
  split
  · rename_i desired holder h isDesired _
    split
    · exact permitted_stopProcess permits id _
    · exact permitted_adopt permits (safeEnabled desired (List.mem_of_find?_eq_some isDesired))
  · exact permitted_stopProcess permits id true

theorem permitted_stopEnabled {remote : QuarkDavRemote}
    (isSafe : safe { remote with enabled := false }) : Permitted P safe (stopEnabled remote) := by
  unfold stopEnabled
  split
  · exact Program.passes_request_bind (permits.save _ isSafe) fun _ _ => trivial
  · trivial

theorem permitted_pidLine (holder : Nat) (pid : Int) : Permitted P safe (pidLine holder pid) := by
  apply permits.fields_bind
  intro v
  cases v.current holder with
  | none => trivial
  | some h =>
      apply Program.Passes.bind
      · exact permits.note fun _ => ⟨rfl, rfl, rfl⟩
      · intro _
        apply permits.ask_bind (c := .readStatus h.config.id) trivial
        intro status _
        split
        · exact permits.ask trivial
        · trivial

theorem permitted_readyLine (holder : Nat) (url : JavaString) :
    Permitted P safe (readyLine platform holder url) := by
  apply permits.fields_bind
  intro v
  cases v.current holder with
  | none => trivial
  | some h =>
      apply Program.Passes.bind
      · exact permits.note fun _ => ⟨rfl, rfl, rfl⟩
      · intro _
        apply Program.Passes.bind
        · exact permits.counts (fun _ => rfl) fun _ => rfl
        · exact fun _ => permits.ask trivial

theorem permitted_publishExit (id : JavaString) (h : RunningProcess) (exitCode : Int)
    (desired : Option QuarkDavRemote) : Permitted P safe (publishExit id h exitCode desired) := by
  unfold publishExit
  split
  · cases desired with
    | none =>
        apply (permits.ask (c := .deleteStatus id) trivial).bind
        exact fun _ => permits.counts (fun _ => rfl) fun _ => rfl
    | some remote =>
        apply (permits.ask (c := .writeStatus { id }) trivial).bind
        exact fun _ => permits.counts (fun _ => rfl) fun _ => rfl
  · apply (permits.ask (c := .writeStatus _) trivial).bind
    exact fun _ => permits.counts (fun _ => rfl) fun _ => rfl

theorem permitted_onProcessExit (id : JavaString) (holder : Nat) (exitCode : Int) :
    Permitted P safe (onProcessExit id holder exitCode) := by
  have published : ∀ h, Permitted P safe (do
      let desired ← ask (.get id)
      publishExit id h exitCode desired) := fun h =>
    permits.ask_bind (c := .get id) trivial fun desired _ =>
      permitted_publishExit permits id h exitCode desired
  apply permits.fields_bind
  intro v
  cases v.holderOf id with
  | none => trivial
  | some found =>
      obtain ⟨registered, h⟩ := found
      dsimp only
      split
      · trivial
      · apply (permits.keep fun v => bookkeeping_remove v id).bind
        intro _
        apply permits.ask_bind (c := .get id) trivial
        intro beforeSync _
        split
        · apply (permits.ask (c := .syncRuntimeCookie id) trivial).bind
          exact fun _ => published h
        · exact published h

theorem permitted_onDestroy : Permitted P safe onDestroy :=
  permits.fields_bind fun _ => Program.passes_forEach fun id _ =>
    permitted_stopProcess permits id true

/-- The first part of a scheduled restart. -/
theorem permitted_unschedule (index : Nat) : Permitted P safe
    (ask (.fields fun v => { v with scheduled := v.scheduled.eraseIdx index })) :=
  Program.passes_request (permits.bookkeeping _ fun _ =>
    bookkeeping_of_holders (fun _ _ registered => registered) rfl)

end Working

section Launching

variable (permits : PermitsLaunches platform P safe)

include permits

theorem permitted_launchKernel {remote : QuarkDavRemote} (isSafe : safe remote) :
    Permitted P safe (launchKernel platform remote) := by
  apply permits.ask_bind (c := .get remote.id) trivial
  intro found isGiven
  have refreshed : safe (found.getD remote) := by
    cases found with
    | none => exact isSafe
    | some stored => exact isGiven stored rfl
  apply Program.passes_request_bind (permits.writeRuntimeConfig _ refreshed)
  intro _ _
  apply Program.passes_request_bind (permits.launch _ refreshed)
  intro holder _
  cases holder with
  | none => exact permits.ask trivial
  | some holder =>
      apply (permitted_displayWebDavUrl permits.toReads _).bind
      exact fun _ => permits.ask trivial

theorem permitted_startProcess {remote : QuarkDavRemote} (isSafe : safe remote) :
    Permitted P safe (startProcess platform remote) := by
  apply permits.ask_bind (c := .binaryExists remote.id) trivial
  intro isBinary _
  split
  · exact permits.ask trivial
  · apply permits.ask_bind (c := .readStatus remote.id) trivial
    intro prior _
    apply permits.ask_bind (c := .terminateStaleKernel remote.id) trivial
    intro _ _
    split
    · apply (permits.ask (c := .syncRuntimeCookie remote.id) trivial).bind
      exact fun _ => permitted_launchKernel permits isSafe
    · exact permitted_launchKernel permits isSafe

theorem permitted_startMissing {remote : QuarkDavRemote} (isSafe : safe remote) :
    Permitted P safe (startMissing platform remote) := by
  apply permits.fields_bind
  intro v
  split
  · exact permitted_startProcess permits isSafe
  · trivial

theorem permitted_reconcileInternal (bootOnly : Bool) :
    Permitted P safe (reconcileInternal platform bootOnly) := by
  have safe_wanted : ∀ {all : List QuarkDavRemote}, (∀ remote ∈ all, safe remote) →
      ∀ remote ∈ wanted bootOnly all, safe remote :=
    fun safeAll remote member => safeAll remote (List.mem_of_mem_filter member)
  apply permits.ask_bind (c := .list) trivial
  intro all safeAll
  apply permits.fields_bind
  intro v
  apply Program.Passes.bind
  · exact Program.passes_forEach fun id _ =>
      permitted_reconcileRunning permits.toPermits (safe_wanted safeAll) id
  · intro _
    apply permits.ask_bind (c := .list) trivial
    intro refreshed safeRefreshed
    apply Program.Passes.bind
    · apply Program.passes_forEach
      exact fun remote member =>
        permitted_startMissing permits (safe_wanted safeRefreshed remote member)
    · exact fun _ => permitted_refreshed permits.toPermits false

theorem permitted_scheduledRestart (index : Nat) :
    Permitted P safe (scheduledRestart platform index) := by
  apply (permitted_unschedule permits.toPermits index).bind
  intro before
  cases before.scheduled[index]? with
  | none => trivial
  | some id =>
      apply permits.ask_bind (c := .get id) trivial
      intro found isGiven
      cases found with
      | none => trivial
      | some latest =>
          dsimp only
          split
          · exact permitted_startMissing permits (isGiven latest rfl)
          · trivial

variable (switches : ∀ remote, safe remote → safe { remote with enabled := false })

include switches

theorem permitted_stopAll : Permitted P safe (stopAll platform) := by
  apply permits.ask_bind (c := .list) trivial
  intro all safeAll
  apply Program.Passes.bind
  · exact Program.passes_forEach fun remote member =>
      permitted_stopEnabled permits.toPermits (switches remote (safeAll remote member))
  · exact fun _ => permitted_reconcileInternal permits false

theorem permitted_stopRemote (id : JavaString) : Permitted P safe (stopRemote platform id) := by
  apply permits.ask_bind (c := .get id) trivial
  intro found isGiven
  cases found with
  | none => exact permitted_reconcileInternal permits false
  | some current =>
      apply Program.passes_request_bind (permits.save _ (switches current (isGiven current rfl)))
      intro result _
      cases result with
      | error message => trivial
      | ok saved => exact permitted_reconcileInternal permits false

/-- Every task makes only permitted calls. -/
theorem permitted_program (task : ServiceTask) : Permitted P safe (task.program platform) := by
  cases task with
  | reconcile bootOnly => exact permitted_reconcileInternal permits bootOnly
  | stopAll => exact permitted_stopAll permits switches
  | stopRemote id => exact permitted_stopRemote permits switches id
  | heartbeat => exact permitted_refreshed permits.toPermits true
  | pidLine holder pid => exact permitted_pidLine permits.toPermits holder pid
  | readyLine holder url => exact permitted_readyLine permits.toPermits holder url
  | processExit id holder exitCode => exact permitted_onProcessExit permits.toPermits id holder exitCode
  | scheduledRestart index => exact permitted_scheduledRestart permits index
  | destroy => exact permitted_onDestroy permits.toPermits

end Launching

end RoundSync.QuarkDav
