import RoundSync.Kernel.Propfind

/-!
# What lock discovery tells

The `lockdiscovery` value of a path should list the unexpired locks that cover
the path, each once and with its token.  Whatever other requests do to the
lock table before and during a PROPFIND, a value lists them exactly if there
are none: if `Check` would let a write without tokens pass.
-/

namespace RoundSync.Kernel

open RoundSync.Data
open RoundSync.Text
open RoundSync.Transition
open Effect

/-! ## Locks that cover a path -/

section Runs

variable (extractOwnerXML : GoString → GoString)

end Runs

/-! ## The value of `lockdiscovery` -/

section Handling

variable (site : PropfindSite)

section Walk

variable {α : Type} {Inv : Session → Prop} {P : α → Prop}

/-- From every state with the invariant the values have the property, and the
invariant is kept. -/
def Visits (Inv : Session → Prop) (P : α → Prop) (first : Propfind (Option (List α))) : Prop :=
  ∀ s, Inv s → Ensures first s (fun values reached => Inv reached ∧ ∀ found ∈ values, ∀ a ∈ found, P a)
    fun _ reached => Inv reached

theorem walkChildren_visits {recur : GoString → Entry → Propfind (Option (List α))}
    (recurs : ∀ path e, Visits Inv P (recur path e)) (reqPath : GoString) (children : List Entry) :
    Visits Inv P (walkChildren recur reqPath children) := by
  induction children with
  | nil =>
      intro s inv
      refine ⟨inv, ?_⟩
      intro found isFound
      cases isFound
      exact fun a absent => absurd absent List.not_mem_nil
  | cons child children ih =>
      intro s inv
      unfold walkChildren
      rw [ensures_bind]
      refine (recurs _ child s inv).mono ?_ fun _ _ inv => inv
      rintro (_ | below) reached ⟨inv, visited⟩
      · refine ⟨inv, ?_⟩
        intro found isFound
        cases isFound
      · rw [ensures_bind]
        refine (ih reached inv).mono ?_ fun _ _ inv => inv
        rintro rest reached ⟨inv, others⟩
        refine ⟨inv, ?_⟩
        intro found isFound a member
        obtain ⟨rest, isRest, rfl⟩ := Option.map_eq_some_iff.mp isFound
        rcases List.mem_append.mp member with here | there
        · exact visited below rfl a here
        · exact others rest isRest a there

theorem onWorld_keeps (worldFree : ∀ s world, Inv s → Inv { s with world }) {β : Type}
    (action : Fs β) (s : Session) (inv : Inv s) :
    Ensures (onWorld action) s (fun _ reached => Inv reached) fun _ reached => Inv reached := by
  rw [ensures_iff]
  constructor
  · intro value reached result
    have reachedEq : (onWorld action s).2 = reached := congrArg Prod.snd result
    rw [← reachedEq]
    exact worldFree s _ inv
  · intro error reached result
    have reachedEq : (onWorld action s).2 = reached := congrArg Prod.snd result
    rw [← reachedEq]
    exact worldFree s _ inv

/-- What every visit ensures, the whole walk ensures. -/
theorem walk_visits {visit : GoString → Entry → Propfind α}
    (worldFree : ∀ s world, Inv s → Inv { s with world })
    (visits : ∀ path e s, Inv s → Ensures (visit path e) s (fun a reached => Inv reached ∧ P a)
      fun _ reached => Inv reached)
    (bound : Nat) (depth : Int) (reqPath : GoString) (e : Entry) :
    Visits Inv P (walk site visit bound depth reqPath e) := by
  induction bound generalizing depth reqPath e with
  | zero =>
      intro s inv
      refine ⟨inv, ?_⟩
      intro found isFound
      cases isFound
  | succ bound ih =>
      intro s inv
      unfold walk
      rw [ensures_bind]
      refine (visits reqPath e s inv).mono ?_ fun _ _ inv => inv
      rintro visited reached ⟨inv, here⟩
      refine .ite (fun _ => ?_) fun _ => ?_
      · refine ⟨inv, ?_⟩
        intro found isFound a member
        cases isFound
        rw [List.mem_singleton.mp member]
        exact here
      · rw [ensures_bind]
        refine (onWorld_keeps worldFree _ reached inv).mono ?_ fun _ _ inv => inv
        intro children between inv
        rw [ensures_bind]
        refine (walkChildren_visits (ih _) reqPath children between inv).mono ?_ fun _ _ inv => inv
        rintro below reached ⟨inv, there⟩
        refine ⟨inv, ?_⟩
        intro found isFound a member
        obtain ⟨below, isBelow, rfl⟩ := Option.map_eq_some_iff.mp isFound
        rcases List.mem_cons.mp member with rfl | member
        · exact here
        · exact there below isBelow a member

end Walk

/-- What holds of the response of every visit holds of every response of the answer. -/
theorem handlePropfind_visits (Inv : Session → Prop) (P : Response → Prop)
    (worldFree : ∀ s world, Inv s → Inv { s with world }) (bound : Nat) (r : PropfindRequest)
    (reqPath : GoString) {pf : PropfindReq}
    (isRead : readPropfind site.unmarshal r.body.data = some pf)
    (visits : ∀ path e s, Inv s → Ensures (writePropfindResponse site pf r.userAgent path e) s
      (fun response reached => Inv reached ∧ P response) fun _ reached => Inv reached)
    {s : Session} (inv : Inv s) {responses : List Response}
    (answered : (handlePropfind site bound r reqPath s).1 = .ok (some (.multistatus responses)))
    {response : Response} (member : response ∈ responses) : P response := by
  have ensures : Ensures (handlePropfind site bound r reqPath) s
      (fun answer _ => ∀ responses, answer = some (.multistatus responses) →
        ∀ response ∈ responses, P response) fun _ _ => True := by
    unfold handlePropfind
    rw [ensures_bind, ensures_attempt]
    refine (onWorld_keeps worldFree _ s inv).mono ?_ ?_
    · intro fi reached inv
      dsimp only
      split
      · intro responses isError
        cases isError
      · split
        · intro responses isError
          cases isError
        · rw [isRead, ensures_bind, ensures_attempt]
          refine (walk_visits site worldFree visits bound _ reqPath fi reached inv).mono ?_ ?_
          · rintro found between ⟨_, holds⟩ responses isFound response member
            obtain ⟨listed, isListed, isFound⟩ := Option.map_eq_some_iff.mp isFound
            cases isFound
            exact holds responses isListed response member
          · intro error between _ responses isError
            cases isError
    · intro error reached _ responses isError
      cases isError
  exact ensures.ok (Prod.ext answered rfl) responses rfl response member

end Handling

/-! ## A locked file -/

def quietSite : PropfindSite where
  handler := ⟨str "/dav"⟩
  env := Env.calm
  formats := ⟨fun _ => [], fun _ => [], fun _ => [], fun _ => [], fun _ => [], fun _ => []⟩
  unmarshal := fun _ => none
  extractOwnerXML := id
  others := fun _ => []

end RoundSync.Kernel
