import RoundSync.Kernel.LockDiscovery
import RoundSync.Kernel.Lookups
import RoundSync.Tree.Levels

/-!
# What a PROPFIND visits

On a drive that does not change, with any listings in the cache that agree with
it, the walk of a PROPFIND visits the nodes at and below a path down to the
requested depth, each once, under the path at which `Stat` finds it.  Only a
driver call that fails keeps it from that.
-/

namespace RoundSync.Kernel

open RoundSync.Text
open RoundSync.Transition
open RoundSync.Tree
open Effect

/-! ## Paths of visits -/

/-- The path of a child, as `walk` makes it. -/
theorem pathJoin_eq_absolute {p name : GoString} (isRooted : p.head? = some slash)
    (valid : ValidName name) : pathJoin p name = absolute (cleanParts true p ++ [name]) := by
  have nonempty : p ≠ [] := by
    rintro rfl
    contradiction
  have stillRooted : (p ++ slash :: name).head? = some slash := by
    rw [List.head?_append, isRooted]
    rfl
  rw [pathJoin, if_neg fun both => nonempty both.1, if_neg nonempty, pathClean,
    if_neg (List.append_ne_nil_of_left_ne_nil nonempty _), if_pos stillRooted]
  congr 1
  rw [cleanParts, List.splitOn_append_cons_self, List.splitOn_eq_singleton valid.slash_notMem,
    List.foldl_append, List.foldl_cons, List.foldl_nil, cleanStep_of_valid valid, List.reverse_cons,
    cleanParts]

/-- The path is a cleaned one, the entry describes what is there, and `Stat`
finds it there. -/
structure Resolves (env : Env) (d : Drive) (path : GoString) (e : Entry) : Prop where
  cleaned : clean path = path
  shows : ∃ node, Shows d (split path) e node
  stat : ∀ node, Shows d (split path) e node → ∀ w, Coherent w → w.drive = d →
    Ensures (stat env (split path)) w (fun found _ => Shows d (split path) found node)
      fun error _ => Injected env w error

theorem resolves_absolute {env : Env} {d : Drive} {place : List GoString} {e : Entry} {node : Node}
    (shows : Shows d place e node) : Resolves env d (absolute place) e := by
  have valid := d.namesValid place node shows.found
  have splitEq := split_absolute valid
  constructor
  · rw [clean_eq_absolute_split, splitEq]
  · rw [splitEq]
    exact ⟨node, shows⟩
  · rw [splitEq]
    rintro other shows w coherent rfl
    refine (stat_ensures coherent place).mono ?_ ?_
    · rintro found reached ⟨_, third, showsThird⟩
      have same : third = other :=
        Option.some.inj (showsThird.found.symm.trans shows.found)
      rwa [← same]
    · rintro error reached ⟨_, injected | absent⟩
      · exact injected
      · rw [shows.found] at absent
        contradiction

/-! ## Steps of a session -/

theorem ensures_onWorld {α : Type} {action : Fs α} {s : Session} {Q : α → Session → Prop}
    {E : DriveError → Session → Prop} :
    Ensures (onWorld action) s Q E ↔
      Ensures action s.world (fun a world => Q a { s with world })
        fun error world => E error { s with world } := by
  unfold Ensures onWorld
  rcases action s.world with ⟨error | a, world⟩
  · rfl
  · rfl

section Handling

variable (site : PropfindSite)

theorem writePropValue_world (pn : XmlName) (e : Entry) (userAgent : GoString) (s : Session) :
    Ensures (writePropValue site pn e userAgent) s (fun _ reached => reached.world = s.world)
      fun _ _ => False := by
  have kept : ∀ value, Ensures (pure value : Propfind (Option GoString)) s
      (fun _ reached => reached.world = s.world) fun _ _ => False := fun _ => rfl
  unfold writePropValue
  iterate 8 refine .ite (fun _ => kept _) fun _ => ?_
  refine .ite (fun _ => ?_) fun _ => .ite (fun _ => kept _) fun _ => kept _
  rw [ensures_bind]
  exact rfl

theorem writePropValues_world (e : Entry) (userAgent : GoString) (names : List XmlName)
    (s : Session) :
    Ensures (writePropValues site e userAgent names) s (fun _ reached => reached.world = s.world)
      fun _ _ => False := by
  induction names generalizing s with
  | nil => exact rfl
  | cons pn names ih =>
      unfold writePropValues
      refine .ite (fun _ => ?_) fun _ => ?_
      · rw [ensures_bind, yieldToOthers, ensures_update, ensures_bind, ensures_read, ensures_bind]
        refine (writePropValue_world site pn e userAgent _).mono ?_ fun _ _ impossible => impossible
        intro value between written
        rw [ensures_bind]
        refine (ih between).mono ?_ fun _ _ impossible => impossible
        rintro ⟨found, missing⟩ reached later
        cases value with
        | none => exact later.trans written
        | some value => exact later.trans written
      · rw [ensures_bind]
        exact ih s

/-- A response is written for the path and the entry, and reads no directory. -/
theorem writePropfindResponse_world (pf : PropfindReq) (userAgent path : GoString) (e : Entry)
    (s : Session) :
    Ensures (writePropfindResponse site pf userAgent path e) s
      (fun response reached => (response.path = path ∧ response.entry = e) ∧
        reached.world = s.world)
      fun _ _ => False := by
  unfold writePropfindResponse
  refine .ite (fun _ => ⟨⟨rfl, rfl⟩, rfl⟩) fun _ => ?_
  rw [ensures_bind]
  refine (writePropValues_world site e userAgent _ s).mono ?_ fun _ _ impossible => impossible
  rintro ⟨found, missing⟩ reached kept
  exact ⟨⟨rfl, rfl⟩, kept⟩

/-! ## The walk -/

section Walk

variable {α : Type} (path : α → GoString) (entry : α → Entry)

/-- The visits are those of the nodes from a place down to a depth. -/
structure Covers (env : Env) (d : Drive) (place : List GoString) (depth : Int)
    (visits : List α) : Prop where
  enumerates : d.tree.Enumerates place depth (visits.map fun v => split (path v))
  resolves : ∀ v ∈ visits, Resolves env d (path v) (entry v)

/-- The walk from a place comes to its end, or to a driver call that fails. -/
def Walks (w : World) (first : Propfind (Option (List α))) (Q : List α → Prop) : Prop :=
  ∀ s, Quiet w s.world → Ensures first s
    (fun found reached => Quiet w reached.world ∧ ∃ visits, found = some visits ∧ Q visits)
    fun error reached => Quiet w reached.world ∧ Injected site.env w error

variable {site path entry} {w : World}

theorem walkChildren_walks {recur : GoString → Entry → Propfind (Option (List α))}
    {place : List GoString} {depth : Int} {reqPath : GoString} {children : List Entry}
    (recurs : ∀ child ∈ children, Walks site w (recur (pathJoin reqPath child.name) child)
      (Covers path entry site.env w.drive (place ++ [child.name]) depth))
    (nodup : (children.map Entry.name).Nodup) :
    Walks site w (walkChildren recur reqPath children) fun visits =>
      w.drive.tree.EnumeratesBelow place depth (children.map Entry.name)
        (visits.map fun v => split (path v)) ∧
      ∀ v ∈ visits, Resolves site.env w.drive (path v) (entry v) := by
  induction children with
  | nil =>
      intro s quiet
      exact ⟨quiet, [], rfl, PathTree.EnumeratesBelow.nil,
        fun v absent => absurd absent List.not_mem_nil⟩
  | cons child children ih =>
      intro s quiet
      rw [List.map_cons, List.nodup_cons] at nodup
      unfold walkChildren
      rw [ensures_bind]
      refine (recurs child List.mem_cons_self s quiet).mono ?_ fun _ _ failed => failed
      rintro _ between ⟨quiet, first, rfl, covers⟩
      rw [ensures_bind]
      have others := ih (fun other member => recurs other (List.mem_cons_of_mem child member)) nodup.2
      refine (others between quiet).mono ?_ fun _ _ failed => failed
      rintro _ reached ⟨quiet, rest, rfl, enumerates, resolves⟩
      refine ⟨quiet, first ++ rest, rfl, ?_, ?_⟩
      · rw [List.map_append, List.map_cons]
        exact PathTree.EnumeratesBelow.cons nodup.1 covers.enumerates enumerates
      · intro v member
        rcases List.mem_append.mp member with member | member
        · exact covers.resolves v member
        · exact resolves v member

theorem walk_walks {visit : GoString → Entry → Propfind α}
    (visits : ∀ p e s, Ensures (visit p e) s
      (fun v reached => (path v = p ∧ entry v = e) ∧ reached.world = s.world) fun _ _ => False)
    {bound : Nat} {depth : Int} {place : List GoString} {e : Entry} {node : Node}
    (shows : Shows w.drive place e node) (deep : w.drive.tree.depth < bound + place.length) :
    Walks site w (walk site visit bound depth (absolute place) e)
      (Covers path entry site.env w.drive place depth) := by
  have placeValid := w.drive.namesValid place node shows.found
  induction bound generalizing depth place e node with
  | zero =>
      have short := w.drive.tree.length_le_depth shows.found
      omega
  | succ bound ih =>
      intro s quiet
      unfold walk
      rw [ensures_bind]
      refine (visits (absolute place) e s).mono ?_ fun _ _ impossible => impossible.elim
      rintro visited s₁ ⟨⟨pathEq, entryEq⟩, worldEq⟩
      have resolved : Resolves site.env w.drive (path visited) (entry visited) := by
        rw [pathEq, entryEq]
        exact resolves_absolute shows
      rw [← worldEq] at quiet
      refine .ite (fun stops => ?_) fun goesOn => ?_
      · refine ⟨quiet, [visited], rfl, ?_, ?_⟩
        · rw [List.map_singleton, pathEq, split_absolute placeValid]
          refine PathTree.Enumerates.alone shows.found ?_
          rcases stops with leaf | isZero
          · refine .inr fun isFolder => ?_
            rw [shows.isFolder_iff.mp isFolder] at leaf
            contradiction
          · exact .inl isZero
        · intro v member
          rwa [List.mem_singleton.mp member]
      · rw [not_or] at goesOn
        dsimp only
        rw [ensures_bind, ensures_onWorld, split_absolute placeValid]
        refine (listPath_ensures quiet.coherent place).mono ?_ ?_
        · rintro children world ⟨listed, _, lists⟩
          rw [quiet.drive] at lists
          have recurs : ∀ child ∈ children, Walks site w
              (walk site visit bound (deeper depth) (pathJoin (absolute place) child.name) child)
              (Covers path entry site.env w.drive (place ++ [child.name]) (deeper depth)) := by
            intro child member
            obtain ⟨childNode, foundChild, childEq⟩ := lists.mem.mp member
            have childValid := w.drive.namesValid _ childNode foundChild
            have nameValid := childValid child.name
              (List.mem_append_right place (List.mem_singleton.mpr rfl))
            have showsChild : Shows w.drive (place ++ [child.name]) child childNode := by
              rw [childEq]
              exact ⟨foundChild, rfl, rfl, rfl, by simp [Node.entry]⟩
            rw [pathJoin_eq_absolute rfl nameValid, cleanParts_absolute placeValid]
            refine ih showsChild ?_ childValid
            rw [List.length_append, List.length_singleton]
            omega
          rw [ensures_bind]
          refine (walkChildren_walks recurs lists.nodup _ (quiet.trans listed)).mono ?_
            fun _ _ failed => failed
          rintro _ reached ⟨quiet, below, rfl, enumerates, resolves⟩
          refine ⟨quiet, visited :: below, rfl, ?_, ?_⟩
          · rw [List.map_cons, pathEq, split_absolute placeValid]
            refine PathTree.Enumerates.cons shows.found goesOn.2 ?_ enumerates
            intro name there
            obtain ⟨childNode, foundChild⟩ := Option.isSome_iff_exists.mp there
            exact List.mem_map.mpr ⟨childNode.entry name,
              lists.mem.mpr ⟨childNode, foundChild, rfl⟩, rfl⟩
          · intro v member
            rcases List.mem_cons.mp member with rfl | member
            · exact resolved
            · exact resolves v member
        · rintro error world ⟨listed, injected | absent⟩
          · exact ⟨quiet.trans listed, injected.of_quiet quiet⟩
          · refine absurd ?_ absent
            rw [quiet.drive, shows.isFolder_iff]
            simpa using goesOn.1

end Walk

/-- What a PROPFIND answers: a response for each node from the path down to
the depth, or the error of a driver call that fails. -/
inductive FullAnswer (w : World) (p : GoString) (depth : Int) : Option PropfindAnswer → Prop where
  | all (responses : List Response)
      (covers : Covers Response.path Response.entry site.env w.drive (split p) depth responses) :
      FullAnswer w p depth (some (.multistatus responses))
  | failed (status : Nat) (error : DriveError) (injected : Injected site.env w error) :
      FullAnswer w p depth (some (.error status error))

/-- A PROPFIND of an existing path answers with exactly the nodes down to the
requested depth, each once and under the path at which `Stat` finds it. -/
theorem handlePropfind_full {s : Session} (coherent : Coherent s.world) (r : PropfindRequest)
    (p : GoString) {node : Node} (found : s.world.drive.lookup (split p) = some node) {depth : Int}
    (isDepth : (if r.depth ≠ [] then parseDepth r.depth else some (-1)) = some depth)
    (intact : r.body.broken = none) {pf : PropfindReq}
    (isRead : readPropfind site.unmarshal r.body.data = some pf) {bound : Nat}
    (deep : s.world.drive.tree.depth < bound) :
    Ensures (handlePropfind site bound r (clean p)) s
      (fun answer reached => Quiet s.world reached.world ∧
        FullAnswer site s.world p depth answer)
      fun _ _ => False := by
  unfold handlePropfind
  rw [ensures_bind, ensures_attempt, ensures_onWorld, split_clean]
  refine (stat_ensures coherent (split p)).mono ?_ ?_
  · rintro fi world ⟨quiet, other, shows⟩
    dsimp only
    rw [isDepth, intact, isRead]
    dsimp only
    have walks : Walks site s.world
        (walk site (writePropfindResponse site pf r.userAgent) bound depth (absolute (split p)) fi)
        (Covers Response.path Response.entry site.env s.world.drive (split p) depth) :=
      walk_walks (writePropfindResponse_world site pf r.userAgent) shows (Nat.lt_add_right _ deep)
    rw [ensures_bind, ensures_attempt, clean_eq_absolute_split]
    refine (walks _ quiet).mono ?_ ?_
    · rintro _ reached ⟨quiet, responses, rfl, covers⟩
      exact ⟨quiet, .all responses covers⟩
    · rintro error reached ⟨quiet, injected⟩
      exact ⟨quiet, .failed _ error injected⟩
  · rintro error world ⟨quiet, injected | absent⟩
    · exact ⟨quiet, .failed _ error injected⟩
    · rw [found] at absent
      contradiction

end Handling

/-- PROPFIND of everything below the root, with an empty body. -/
def propfindTree : PropfindRequest :=
  ⟨str "infinity", [], ⟨[], none⟩⟩

theorem oneFile_full :
    ∃ valid, let s : Session := ⟨World.fresh (Drive.single (str "f") [1] valid),
      LockState.initial 1, 0⟩
    Ensures (handlePropfind quietSite 2 propfindTree (clean (str "/"))) s
      (fun answer reached => Quiet s.world reached.world ∧
        FullAnswer quietSite s.world (str "/") (-1) answer)
      fun _ _ => False := by
  have valid : ValidName (str "f") := by decide
  obtain ⟨node, found, _⟩ := (Drive.single (str "f") [1] valid).rootNode
  have isRoot : split (str "/") = [] := by decide
  rw [← isRoot] at found
  refine ⟨valid, handlePropfind_full quietSite (coherent_fresh _) propfindTree (str "/") found ?_
    rfl rfl ?_⟩
  · decide
  · exact show 1 < 2 by decide

end RoundSync.Kernel
