import Mathlib.Algebra.BigOperators.Group.Finset.Basic
import Mathlib.Data.Set.Finite.Basic
import Mathlib.Logic.Relation

/-!
# Worklists

The search of a graph with a queue of pending nodes and a set of visited ones.  A
step takes the first pending node; a visited one is dropped, another is visited and
its successors are put behind the others, as far as they are not visited yet.  The
queue runs empty on a finite graph, and then the visited nodes are the reachable
ones.
-/

namespace RoundSync.Data

universe u

variable {α : Type u}

/-- Some steps lead from one node to the other. -/
def Reaches (next : α → List α) : α → α → Prop :=
  Relation.ReflTransGen fun node successor => successor ∈ next node

structure Worklist (α : Type u) where
  pending : List α
  visited : List α

namespace Worklist

variable {next : α → List α} {root node : α} {rest pushed visited : List α} {list : Worklist α}

/-- The nodes that were met are reachable, and no successor of a visited node is
forgotten. -/
structure Searches (next : α → List α) (root : α) (list : Worklist α) : Prop where
  once : list.visited.Nodup
  met : root ∈ list.visited ∨ root ∈ list.pending
  sound : ∀ node, node ∈ list.visited ∨ node ∈ list.pending → Reaches next root node
  closed : ∀ node ∈ list.visited, ∀ successor ∈ next node,
    successor ∈ list.visited ∨ successor ∈ list.pending

theorem searches_start : Searches next root ⟨[root], []⟩ where
  once := List.nodup_nil
  met := .inr List.mem_cons_self
  sound := by
    rintro node (mem | mem)
    · cases mem
    · rw [List.mem_singleton.mp mem]
      exact .refl
  closed := nofun

/-- A visited node is dropped. -/
theorem Searches.drop (searches : Searches next root ⟨node :: rest, visited⟩)
    (old : node ∈ visited) : Searches next root ⟨rest, visited⟩ where
  once := searches.once
  met := by
    rcases searches.met with mem | mem
    · exact .inl mem
    · rcases List.mem_cons.mp mem with rfl | mem
      · exact .inl old
      · exact .inr mem
  sound := fun other mem => searches.sound other (mem.imp_right (List.mem_cons_of_mem _))
  closed := by
    intro source mem successor isNext
    rcases searches.closed source mem successor isNext with mem | mem
    · exact .inl mem
    · rcases List.mem_cons.mp mem with rfl | mem
      · exact .inl old
      · exact .inr mem

/-- Another node is visited, and those of its successors that are new become pending. -/
theorem Searches.visit (searches : Searches next root ⟨node :: rest, visited⟩)
    (fresh : node ∉ visited) (successors : ∀ other ∈ pushed, other ∈ next node)
    (complete : ∀ other ∈ next node, other ∈ node :: visited ∨ other ∈ pushed) :
    Searches next root ⟨rest ++ pushed, node :: visited⟩ where
  once := List.nodup_cons.mpr ⟨fresh, searches.once⟩
  met := by
    rcases searches.met with mem | mem
    · exact .inl (List.mem_cons_of_mem _ mem)
    · rcases List.mem_cons.mp mem with rfl | mem
      · exact .inl List.mem_cons_self
      · exact .inr (List.mem_append_left _ mem)
  sound := by
    have here : Reaches next root node := searches.sound node (.inr List.mem_cons_self)
    rintro other (mem | mem)
    · rcases List.mem_cons.mp mem with rfl | mem
      · exact here
      · exact searches.sound other (.inl mem)
    · rcases List.mem_append.mp mem with mem | mem
      · exact searches.sound other (.inr (List.mem_cons_of_mem _ mem))
      · exact here.tail (successors other mem)
  closed := by
    intro source mem successor isNext
    rcases List.mem_cons.mp mem with rfl | mem
    · exact (complete successor isNext).imp_right (List.mem_append_right _)
    · rcases searches.closed source mem successor isNext with mem | mem
      · exact .inl (List.mem_cons_of_mem _ mem)
      · rcases List.mem_cons.mp mem with rfl | mem
        · exact .inl List.mem_cons_self
        · exact .inr (List.mem_append_left _ mem)

/-- When nothing is pending, the visited nodes are the reachable ones. -/
theorem Searches.complete (searches : Searches next root list) (done : list.pending = [])
    (other : α) : other ∈ list.visited ↔ Reaches next root other := by
  have notPending : ∀ node, node ∉ list.pending := by
    intro node mem
    rw [done] at mem
    cases mem
  constructor
  · exact fun mem => searches.sound other (.inl mem)
  · intro reaches
    induction reaches with
    | refl => exact searches.met.resolve_right (notPending root)
    | tail _ isNext inductionHypothesis =>
        exact (searches.closed _ inductionHypothesis _ isNext).resolve_right (notPending _)

/-! ## The work that is left -/

section

variable [DecidableEq α] {nodes : Finset α}

/-- The pending nodes, and the successors that can still become pending. -/
def work (next : α → List α) (nodes : Finset α) (list : Worklist α) : Nat :=
  list.pending.length + ∑ node ∈ nodes with node ∉ list.visited, (next node).length

theorem work_drop :
    work next nodes ⟨node :: rest, visited⟩ = work next nodes ⟨rest, visited⟩ + 1 := by
  simp only [work, List.length_cons]
  omega

/-- A visit leaves less work. -/
theorem work_visit (mem : node ∈ nodes) (fresh : node ∉ visited)
    (few : pushed.length ≤ (next node).length) :
    work next nodes ⟨rest ++ pushed, node :: visited⟩ <
      work next nodes ⟨node :: rest, visited⟩ := by
  have isLeft : node ∈ nodes.filter (· ∉ visited) := Finset.mem_filter.mpr ⟨mem, fresh⟩
  have same : nodes.filter (· ∉ node :: visited) = (nodes.filter (· ∉ visited)).erase node := by
    ext other
    simp only [Finset.mem_filter, Finset.mem_erase, List.mem_cons, not_or]
    tauto
  have sum := Finset.add_sum_erase (nodes.filter (· ∉ visited)) (fun node => (next node).length)
    isLeft
  simp only [work, same, List.length_append, List.length_cons]
  omega

end

end Worklist

end RoundSync.Data
