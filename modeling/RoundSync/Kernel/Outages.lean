import RoundSync.Kernel.Overwrites

/-!
# Copies that are cut short

Two ways in which surroundings take a file away with a copy: the calls end
after the destination has been removed, and a lookup misses the destination,
so that a file is uploaded over it.  For the second the reads have to be
counted, which is possible without a cache.
-/

namespace RoundSync.Kernel

open RoundSync.Text
open RoundSync.Tree
open RoundSync.Transition
open Effect

variable {env : Env} {w w' : World} {srcPath dstPath : List GoString} {depth : Int} {bound : Nat}

/-! ## Lookups without failures -/

/-- No read fails before the next change. -/
def Steady (env : Env) (w : World) : Prop :=
  ∀ asked, w.reads ≤ asked → env.readFails w.changes asked = none

namespace Steady

variable (steady : Steady env w)
include steady

theorem not_injected {e : DriveError} : ¬Injected env w e := by
  rintro ⟨asked, message, later, failing, _⟩
  rw [steady asked later] at failing
  contradiction

theorem of_quiet (quiet : Quiet w w') : Steady env w' := by
  intro asked later
  rw [quiet.changes]
  exact steady asked (quiet.reads.trans later)

theorem stat_ensures {p : List GoString} {node : Node} (coherent : Coherent w)
    (found : w.drive.lookup p = some node) :
    Ensures (stat env p) w (fun e w' => Quiet w w' ∧ Shows w.drive p e node) fun _ _ => False := by
  apply (Kernel.stat_ensures coherent p).mono
  · rintro e w' ⟨quiet, other, shows⟩
    have same := shows.found
    rw [found] at same
    cases same
    exact ⟨quiet, shows⟩
  · rintro e w' ⟨_, injected | absent⟩
    · exact steady.not_injected injected
    · rw [found] at absent
      contradiction

theorem resolveParent_ensures {p : List GoString} (coherent : Coherent w) (nonroot : p ≠ [])
    (parent : w.drive.IsFolder p.dropLast) :
    Ensures (resolveParent env p) w
      (fun found w' => Quiet w w' ∧ ∃ front node, p = front ++ [found.2] ∧
        Shows w.drive front found.1 node)
      fun _ _ => False := by
  apply (Kernel.resolveParent_ensures coherent p).mono
  · rintro found w' ⟨quiet, front, node, pathEq, shows, _⟩
    exact ⟨quiet, front, node, pathEq, shows⟩
  · rintro e w' ⟨_, injected | noFolder | isRoot⟩
    · exact steady.not_injected injected
    · exact noFolder parent
    · exact nonroot isRoot

end Steady

/-! ## The calls end after the first change -/

/-- The first change goes through, and no call after it. -/
structure CutShort (env : Env) (w : World) : Prop where
  steady : Steady env w
  first : env.changeFails w.changes = none
  second : env.changeFails (w.changes + 1) ≠ none
  reads : ∀ asked, env.readFails (w.changes + 1) asked ≠ none

theorem Env.cutShort (w : World) : CutShort (Env.cancelledAfter (w.changes + 1)) w := by
  constructor
  · intro asked _
    exact if_pos (Nat.lt_succ_self _)
  · exact if_pos (Nat.lt_succ_self _)
  · simp [Env.cancelledAfter]
  · simp [Env.cancelledAfter]

section

variable (noCache : env.ttl ≤ 0)
include noCache

end

/-- Surroundings of that kind. -/
def Env.missing (w : World) (srcPath dstPath : List GoString) : Env :=
  { Env.calm with
    ttl := 0
    changeFails := fun made => if made = w.changes + 1 then some "upload failed" else none
    readFails := fun made asked =>
      if made = w.changes ∧ asked = w.reads + srcPath.length + dstPath.dropLast.length then
        some "listing failed"
      else none }

end RoundSync.Kernel
