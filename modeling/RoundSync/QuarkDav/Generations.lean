import RoundSync.QuarkDav.Service

/-!
# Generations of kernels

Reader threads, exit waiters and delayed restarts of stopped kernels run after
their replacements have started.  A task on behalf of a holder that is not
registered any more changes nothing, and a kernel is started only for an id that
has no holder, so that none is replaced before it is stopped.
-/

namespace RoundSync.QuarkDav

open RoundSync.Data
open RoundSync.Text
open RoundSync.Transition
open RoundSync.Transition.Shop

/-- A call starts a kernel only where none is registered, and registers or
replaces no holder otherwise. -/
def StartsFree (s : Service) : ServiceCall → Prop
  | .binaryExists id => s.supervisor.running.lookup id = none
  | .launch refreshed => s.supervisor.running.lookup refreshed.id = none
  | .fields change =>
      ∀ id holder, (change s.supervisor).running.lookup id = some holder →
        s.supervisor.running.lookup id = some holder
  | _ => True

/-- The fields of the service are the supervisor's own. -/
def startTerms : Terms Service ServiceCall where
  rely s t := t.supervisor = s.supervisor
  assumed _ _ := True
  shown := StartsFree

variable {platform : Platform} {s : Service}

/-- A call that cannot start a kernel, in any state. -/
def StartsNothing (c : ServiceCall) : Prop :=
  ∀ s, StartsFree s c

/-- A task all of whose calls start nothing. -/
abbrev Quiet {α : Type} (task : Task α) : Prop :=
  task.EveryCall StartsNothing

/-- What a task ensures under the terms of starting. -/
abbrev StartEnsures {α : Type} (platform : Platform) (task : Task α) (Q : α → Service → Prop)
    (s : Service) : Prop :=
  task.Ensures (answer platform) startTerms Q s

theorem Quiet.ensures {α : Type} {task : Task α} (quiet : Quiet task) (s : Service) :
    StartEnsures platform task (fun _ _ => True) s := by
  exact Program.EveryCall.shown (fun _ t starts _ => starts t) quiet s

/-! ## Tasks that start kernels -/

/-- A call that leaves the fields alone. -/
def LeavesFields : ServiceCall → Prop
  | .binaryExists _ | .launch _ | .fields _ => False
  | _ => True

theorem LeavesFields.answer {c : ServiceCall} (leaves : LeavesFields c) (s : Service) :
    (answer platform c s).2.supervisor = s.supervisor := by
  cases c <;> first | rfl | exact leaves.elim

/-- What is read back of a remote keeps its id. -/
theorem id_getD_get (platform : Platform) {stored : Remotes} {remote : QuarkDavRemote} :
    ((get platform.cases stored remote.id).getD remote).id = remote.id := by
  cases found : get platform.cases stored remote.id with
  | none => rfl
  | some current => exact id_of_get found

theorem lookup_of_holderOf {v : Supervisor} {id : JavaString} {holder : Nat} {h : RunningProcess}
    (found : v.holderOf id = some (holder, h)) :
    v.running.lookup id = some holder ∧ v.holders[holder]? = some h := by
  unfold Supervisor.holderOf at found
  split at found
  · rename_i registered isRegistered
    obtain ⟨h', isHolder, pair⟩ := Option.map_eq_some_iff.mp found
    cases pair
    exact ⟨isRegistered, isHolder⟩
  · cases found

end RoundSync.QuarkDav
