import RoundSync.Transition.Core

/-!
# Programs that other parties interrupt

A program makes atomic calls on a shared state, and its environment changes the
state between any two of them.  `Ensures` states a result of a program under
terms: what the environment keeps (`rely`), what may be assumed of each call and
what has to be shown of it.  A worker runs one task after another in this way,
and may be killed between two calls.
-/

namespace RoundSync.Transition

universe u

/-- A program that makes calls of type `κ`, each with a reply. -/
inductive Program {κ : Type u} (Reply : κ → Type u) (α : Type u) : Type u
  | done (value : α)
  | call (request : κ) (next : Reply request → Program Reply α)

namespace Program

variable {κ : Type u} {Reply : κ → Type u} {α β : Type u}

def andThen : Program Reply α → (α → Program Reply β) → Program Reply β
  | .done value, rest => rest value
  | .call request next, rest => .call request fun reply => (next reply).andThen rest

instance : Monad (Program Reply) where
  pure := .done
  bind := .andThen

def request (c : κ) : Program Reply (Reply c) :=
  .call c .done

/-- Run the body for each element in turn. -/
def forEach (xs : List α) (body : α → Program Reply PUnit) : Program Reply PUnit :=
  match xs with
  | [] => .done .unit
  | x :: xs => (body x).andThen fun _ => forEach xs body

def isDone : Program Reply α → Bool
  | .done _ => true
  | .call _ _ => false

end Program

/-- What is relied on between calls, assumed of calls and shown of calls. -/
structure Terms (σ κ : Type u) where
  rely : σ → σ → Prop
  assumed : σ → κ → Prop
  shown : σ → κ → Prop

namespace Program

variable {κ σ : Type u} {Reply : κ → Type u} {α β : Type u}
  (answer : (c : κ) → σ → Reply c × σ)

/-- From this state, if every call meets what is assumed of it, every call meets
what has to be shown, and the program ends with a value and a state in `Q`. -/
def Ensures (terms : Terms σ κ) : Program Reply α → (α → σ → Prop) → σ → Prop
  | .done value, Q, state => Q value state
  | .call c next, Q, state => ∀ reached, terms.rely state reached → terms.assumed reached c →
      terms.shown reached c ∧
        Ensures terms (next (answer c reached).1) Q (answer c reached).2

variable {answer} {terms : Terms σ κ} {Q Q' : α → σ → Prop} {R : β → σ → Prop} {state : σ}

/-- A sequence is verified from its first part on. -/
@[simp]
theorem ensures_bind {first : Program Reply α} {rest : α → Program Reply β} :
    Ensures answer terms (first >>= rest) R state ↔
      Ensures answer terms first (fun value => Ensures answer terms (rest value) R) state := by
  change Ensures answer terms (first.andThen rest) R state ↔ _
  induction first generalizing state with
  | done value => rfl
  | call c next ih => simp only [andThen, Ensures, ih]

theorem Ensures.mono {program : Program Reply α} (ensures : Ensures answer terms program Q state)
    (weaken : ∀ value s, Q value s → Q' value s) : Ensures answer terms program Q' state := by
  induction program generalizing state with
  | done value => exact weaken value state ensures
  | call c next ih =>
      intro reached relied assumed
      obtain ⟨shown, rest⟩ := ensures reached relied assumed
      exact ⟨shown, ih _ rest⟩

/-- The rule for sequences, from what the first part ensures. -/
theorem Ensures.bind {first : Program Reply α} {rest : α → Program Reply β}
    (ensures : Ensures answer terms first Q state)
    (next : ∀ value s, Q value s → Ensures answer terms (rest value) R s) :
    Ensures answer terms (first >>= rest) R state :=
  ensures_bind.mpr (ensures.mono next)

/-- The rule for a call and what follows it. -/
theorem ensures_request_bind {c : κ} {rest : Reply c → Program Reply β}
    (next : ∀ reached, terms.rely state reached → terms.assumed reached c →
      terms.shown reached c ∧
        Ensures answer terms (rest (answer c reached).1) R (answer c reached).2) :
    Ensures answer terms (request c >>= rest) R state :=
  next

/-- The rule for loops: `I` speaks about the elements that are still to come. -/
theorem ensures_forEach {body : α → Program Reply PUnit} {I : List α → σ → Prop}
    (turn : ∀ x xs s, I (x :: xs) s → Ensures answer terms (body x) (fun _ => I xs) s)
    {xs : List α} (initial : I xs state) :
    Ensures answer terms (forEach xs body) (fun _ => I []) state := by
  induction xs generalizing state with
  | nil => exact initial
  | cons x xs ih => exact (turn x xs state initial).bind fun _ s holds => ih holds

/-- Where nothing has to be shown, every program ensures what always holds. -/
theorem ensures_of_forall (shown : ∀ s c, terms.shown s c) (holds : ∀ value s, Q value s)
    (program : Program Reply α) (state : σ) : Ensures answer terms program Q state := by
  induction program generalizing state with
  | done value => exact holds value state
  | call c next ih => exact fun reached _ _ => ⟨shown reached c, ih _ _⟩

/-- What a program ensures, it ensures after changes that are relied on. -/
theorem Ensures.stable {program : Program Reply α}
    (trans : ∀ a b c, terms.rely a b → terms.rely b c → terms.rely a c)
    (settled : ∀ value s t, Q value s → terms.rely s t → Q value t)
    (ensures : Ensures answer terms program Q state) {later : σ} (relied : terms.rely state later) :
    Ensures answer terms program Q later := by
  cases program with
  | done value => exact settled value state later ensures relied
  | call c next =>
      intro reached onward
      exact ensures reached (trans _ _ _ relied onward)

end Program

/-! ## Programs known by their calls -/

namespace Program

variable {κ σ : Type u} {Reply : κ → Type u} {α β : Type u}

/-- Every call of the program, whatever the replies, is one of these. -/
def EveryCall (P : κ → Prop) : Program Reply α → Prop
  | .done _ => True
  | .call c next => P c ∧ ∀ reply, EveryCall P (next reply)

variable {P : κ → Prop}

@[simp]
theorem everyCall_request {c : κ} : EveryCall P (request c : Program Reply (Reply c)) ↔ P c :=
  and_iff_left fun _ => trivial

theorem EveryCall.bind {first : Program Reply α} {rest : α → Program Reply β}
    (calls : EveryCall P first) (later : ∀ value, EveryCall P (rest value)) :
    EveryCall P (first >>= rest) := by
  change EveryCall P (first.andThen rest)
  induction first with
  | done value => exact later value
  | call c next ih => exact ⟨calls.1, fun reply => ih reply (calls.2 reply)⟩

theorem everyCall_forEach {body : α → Program Reply PUnit} (calls : ∀ x, EveryCall P (body x))
    (xs : List α) : EveryCall P (forEach xs body) := by
  induction xs with
  | nil => trivial
  | cons x xs ih => exact (calls x).bind fun _ => ih

theorem EveryCall.mono {P' : κ → Prop} {program : Program Reply α} (calls : EveryCall P program)
    (weaken : ∀ c, P c → P' c) : EveryCall P' program := by
  induction program with
  | done value => trivial
  | call c next ih => exact ⟨weaken c calls.1, fun reply => ih reply (calls.2 reply)⟩

/-- What is shown of every call of the program in every state is shown by it. -/
theorem EveryCall.shown {answer : (c : κ) → σ → Reply c × σ} {terms : Terms σ κ}
    (shown : ∀ c s, P c → terms.assumed s c → terms.shown s c) {program : Program Reply α}
    (calls : EveryCall P program) (state : σ) :
    Ensures answer terms program (fun _ _ => True) state := by
  induction program generalizing state with
  | done value => trivial
  | call c next ih =>
      intro reached _ assumed
      exact ⟨shown c reached calls.1 assumed, ih _ (calls.2 _) _⟩

/-- The frame rule: what every call and every relied change keep, the program keeps. -/
theorem EveryCall.ensures {answer : (c : κ) → σ → Reply c × σ} {terms : Terms σ κ}
    {frame : σ → σ → Prop} (refl : ∀ s, frame s s)
    (trans : ∀ a b c, frame a b → frame b c → frame a c)
    (relied : ∀ s t, terms.rely s t → frame s t)
    (kept : ∀ c s, P c → terms.assumed s c → terms.shown s c ∧ frame s (answer c s).2)
    {program : Program Reply α} (calls : EveryCall P program) (state : σ) :
    Ensures answer terms program (fun _ reached => frame state reached) state := by
  induction program generalizing state with
  | done value => exact refl state
  | call c next ih =>
      intro reached between assumed
      obtain ⟨shown, changed⟩ := kept c reached calls.1 assumed
      refine ⟨shown, (ih _ (calls.2 _) _).mono fun _ last rest => ?_⟩
      exact trans _ _ _ (relied _ _ between) (trans _ _ _ changed rest)

end Program

/-! ## Programs known by what they pass on -/

namespace Program

variable {κ σ : Type u} {Reply : κ → Type u} {α β : Type u}

/-- Every call of the program is one of these, as long as every reply is one of
those that are given. -/
def Passes (P : κ → Prop) (given : (c : κ) → Reply c → Prop) : Program Reply α → Prop
  | .done _ => True
  | .call c next => P c ∧ ∀ reply, given c reply → Passes P given (next reply)

variable {P : κ → Prop} {given : (c : κ) → Reply c → Prop}

theorem passes_request {c : κ} (call : P c) :
    Passes P given (request c : Program Reply (Reply c)) :=
  ⟨call, fun _ _ => trivial⟩

/-- The rule for a call and what follows it. -/
theorem passes_request_bind {c : κ} {rest : Reply c → Program Reply β} (call : P c)
    (later : ∀ reply, given c reply → Passes P given (rest reply)) :
    Passes P given (request c >>= rest) :=
  ⟨call, later⟩

theorem Passes.bind {first : Program Reply α} {rest : α → Program Reply β}
    (passes : Passes P given first) (later : ∀ value, Passes P given (rest value)) :
    Passes P given (first >>= rest) := by
  change Passes P given (first.andThen rest)
  induction first with
  | done value => exact later value
  | call c next ih => exact ⟨passes.1, fun reply isGiven => ih reply (passes.2 reply isGiven)⟩

/-- Where every reply is given, the calls are simply those of the program. -/
theorem Passes.everyCall (gives : ∀ c reply, given c reply) {program : Program Reply α}
    (passes : Passes P given program) : EveryCall P program := by
  induction program with
  | done value => trivial
  | call c next ih =>
      constructor
      · exact passes.1
      · exact fun reply => ih reply (passes.2 reply (gives c reply))

theorem passes_forEach {body : α → Program Reply PUnit} {xs : List α}
    (passes : ∀ x ∈ xs, Passes P given (body x)) : Passes P given (forEach xs body) := by
  induction xs with
  | nil => trivial
  | cons x xs ih =>
      rw [List.forall_mem_cons] at passes
      exact passes.1.bind fun _ => ih passes.2

end Program

/-! ## Workers -/

/-- A worker: the shared state and what is left of its current task. -/
structure Worker (σ : Type u) {κ : Type u} (Reply : κ → Type u) where
  state : σ
  program : Program Reply PUnit.{u + 1}

inductive WorkerEvent (ε τ : Type u)
  | outside (event : ε)
  | begin (task : τ)
  | advance
  | kill

/-- An event in the course of a task. -/
def WorkerEvent.inTask {ε τ : Type u} : WorkerEvent ε τ → Bool
  | .outside _ | .advance => true
  | .begin _ | .kill => false

/-- What a worker and its environment do. -/
structure Shop (σ : Type u) {κ : Type u} (Reply : κ → Type u) (ε τ : Type u) where
  answer : (c : κ) → σ → Reply c × σ
  outside : σ → ε → σ
  task : τ → Program Reply PUnit.{u + 1}
  restart : σ → σ

namespace Shop

variable {σ κ ε τ : Type u} {Reply : κ → Type u} (shop : Shop σ Reply ε τ)

/-- One event.  A task begins only when the one before it has ended. -/
def step (w : Worker σ Reply) : WorkerEvent ε τ → Worker σ Reply
  | .outside event => { w with state := shop.outside w.state event }
  | .begin task => if w.program.isDone then { w with program := shop.task task } else w
  | .advance =>
      match w.program with
      | .done _ => w
      | .call c next => ⟨(shop.answer c w.state).2, next (shop.answer c w.state).1⟩
  | .kill => ⟨shop.restart w.state, .done .unit⟩

/-- A property of the state and the call, at every call of a run. -/
def AtCalls (property : σ → κ → Prop) (w : Worker σ Reply) : WorkerEvent ε τ → Prop
  | .advance =>
      match w.program with
      | .done _ => True
      | .call c _ => property w.state c
  | _ => True

instance instDecidableAtCalls (property : σ → κ → Prop) [∀ s c, Decidable (property s c)]
    (w : Worker σ Reply) : (event : WorkerEvent ε τ) → Decidable (AtCalls property w event)
  | .advance =>
      match w with
      | ⟨_, .done _⟩ => .isTrue trivial
      | ⟨state, .call c _⟩ => inferInstanceAs (Decidable (property state c))
  | .outside _ | .begin _ | .kill => .isTrue trivial

variable {shop} {terms : Terms σ κ} {Inv : σ → Prop}

/-- The rule for one event, from what the current task ensures. -/
theorem step_ensures (refl : ∀ s, terms.rely s s)
    (trans : ∀ a b c, terms.rely a b → terms.rely b c → terms.rely a c)
    (stable : ∀ s t, Inv s → terms.rely s t → Inv t)
    (outside : ∀ s event, terms.rely s (shop.outside s event))
    (tasks : ∀ task s, Inv s → (shop.task task).Ensures shop.answer terms (fun _ => Inv) s)
    (restart : ∀ s, Inv (shop.restart s)) {w : Worker σ Reply} {event : WorkerEvent ε τ}
    (ensures : w.program.Ensures shop.answer terms (fun _ => Inv) w.state)
    (assumed : AtCalls terms.assumed w event) :
    AtCalls terms.shown w event ∧
      (shop.step w event).program.Ensures shop.answer terms (fun _ => Inv)
        (shop.step w event).state := by
  cases event with
  | outside event =>
      exact ⟨trivial, ensures.stable trans (fun _ => stable) (outside w.state event)⟩
  | begin task =>
      refine ⟨trivial, ?_⟩
      obtain ⟨state, program⟩ := w
      cases program with
      | done value => exact tasks task state ensures
      | call c next => exact ensures
  | advance =>
      obtain ⟨state, program⟩ := w
      cases program with
      | done value => exact ⟨trivial, ensures⟩
      | call c next => exact ensures state (refl state) assumed
  | kill => exact ⟨trivial, restart w.state⟩

/-- Outside events change only what is relied on. -/
def Relied (relied : σ → σ → Prop) (shop : Shop σ Reply ε τ) (w : Worker σ Reply) :
    WorkerEvent ε τ → Prop
  | .outside event => relied w.state (shop.outside w.state event)
  | _ => True

/-- The rule for the course of one task: what it ensures holds when it ends. -/
theorem course_ensures {Q : σ → Prop} (refl : ∀ s, terms.rely s s)
    (trans : ∀ a b c, terms.rely a b → terms.rely b c → terms.rely a c)
    (stable : ∀ s t, Q s → terms.rely s t → Q t) {w : Worker σ Reply}
    {events : List (WorkerEvent ε τ)}
    (ensures : w.program.Ensures shop.answer terms (fun _ => Q) w.state)
    (course : ∀ event ∈ events, event.inTask = true)
    (relied : Meets shop.step (Relied terms.rely shop) w events)
    (assumed : Meets shop.step (AtCalls terms.assumed) w events) :
    Meets shop.step (AtCalls terms.shown) w events ∧
      (run shop.step w events).program.Ensures shop.answer terms (fun _ => Q)
        (run shop.step w events).state := by
  induction events generalizing w with
  | nil => exact ⟨trivial, ensures⟩
  | cons event events ih =>
      rw [List.forall_mem_cons] at course
      have one : AtCalls terms.shown w event ∧
          (shop.step w event).program.Ensures shop.answer terms (fun _ => Q)
            (shop.step w event).state := by
        cases event with
        | outside event => exact ⟨trivial, ensures.stable trans (fun _ => stable) relied.1⟩
        | begin task => cases course.1
        | advance =>
            obtain ⟨state, program⟩ := w
            cases program with
            | done value => exact ⟨trivial, ensures⟩
            | call c next => exact ensures state (refl state) assumed.1
        | kill => cases course.1
      obtain ⟨rest, last⟩ := ih one.2 course.2 relied.2 assumed.2
      exact ⟨⟨one.1, rest⟩, last⟩

theorem atCalls_of_forall {property : σ → κ → Prop} (all : ∀ s c, property s c)
    (w : Worker σ Reply) (event : WorkerEvent ε τ) : AtCalls property w event := by
  cases event with
  | advance =>
      obtain ⟨state, program⟩ := w
      cases program with
      | done value => trivial
      | call c next => exact all state c
  | _ => trivial

/-- Every outside event is one that is admitted in the state in which it comes. -/
def AtOutside (admitted : σ → ε → Prop) (w : Worker σ Reply) : WorkerEvent ε τ → Prop
  | .outside event => admitted w.state event
  | _ => True

/-- The rule for what tasks pass on: where calls on what is kept keep it, and reply
with what the tasks may pass on, it is kept in every run whose outside events keep it. -/
theorem always_of_passes {Kept : σ → Prop} {P : κ → Prop} {given : (c : κ) → Reply c → Prop}
    {admitted : σ → ε → Prop}
    (answers : ∀ s c, Kept s → P c → given c (shop.answer c s).1 ∧ Kept (shop.answer c s).2)
    (outside : ∀ s event, Kept s → admitted s event → Kept (shop.outside s event))
    (tasks : ∀ task, (shop.task task).Passes P given)
    (restart : ∀ s, Kept s → Kept (shop.restart s)) {w : Worker σ Reply}
    {events : List (WorkerEvent ε τ)} (passes : w.program.Passes P given) (kept : Kept w.state)
    (admits : Meets shop.step (AtOutside admitted) w events) :
    Always shop.step (fun w => Kept w.state) w events := by
  induction events generalizing w with
  | nil => exact kept
  | cons event events ih =>
      obtain ⟨admits, rest⟩ := admits
      have next : (shop.step w event).program.Passes P given ∧ Kept (shop.step w event).state := by
        obtain ⟨state, program⟩ := w
        cases event with
        | outside event => exact ⟨passes, outside state event kept admits⟩
        | begin task =>
            cases program with
            | done value => exact ⟨tasks task, kept⟩
            | call c next => exact ⟨passes, kept⟩
        | advance =>
            cases program with
            | done value => exact ⟨trivial, kept⟩
            | call c next =>
                obtain ⟨isGiven, stays⟩ := answers state c kept passes.1
                exact ⟨passes.2 _ isGiven, stays⟩
        | kill => exact ⟨trivial, restart state kept⟩
      exact ⟨kept, ih next.1 next.2 rest⟩

/-- The exact guard rule: where every call that a task makes keeps `S`, and keeps
`P` exactly if it is guarded, the runs that stay in `P` are those whose calls are
all guarded. -/
theorem always_iff_atCalls {S P : σ → Prop} {guard : σ → κ → Prop}
    (refl : ∀ s, terms.rely s s)
    (trans : ∀ a b c, terms.rely a b → terms.rely b c → terms.rely a c)
    (outside : ∀ s event, terms.rely s (shop.outside s event))
    (assumed : ∀ s c, terms.assumed s c)
    (tasks : ∀ task s, (shop.task task).Ensures shop.answer terms (fun _ _ => True) s)
    (sound : ∀ s c, terms.shown s c → S s → S (shop.answer c s).2)
    (soundOutside : ∀ s event, S s → S (shop.outside s event))
    (soundRestart : ∀ s, S s → S (shop.restart s))
    (exactly : ∀ s c, terms.shown s c → S s → P s → (P (shop.answer c s).2 ↔ guard s c))
    (unmoved : ∀ s event, P s → P (shop.outside s event))
    (restarted : ∀ s, P s → P (shop.restart s)) {w : Worker σ Reply}
    {events : List (WorkerEvent ε τ)}
    (ensures : w.program.Ensures shop.answer terms (fun _ _ => True) w.state)
    (initial : S w.state) (holds : P w.state) :
    Always shop.step (fun w => P w.state) w events ↔ Meets shop.step (AtCalls guard) w events := by
  apply @always_iff_meets _ _ shop.step (AtCalls guard)
    (fun w => w.program.Ensures shop.answer terms (fun _ _ => True) w.state ∧ S w.state)
  · rintro w event ⟨ensures, sounds⟩
    have everywhere : ∀ s t : σ, (fun _ => True) s → terms.rely s t → (fun _ => True) t :=
      fun _ _ _ _ => trivial
    obtain ⟨shown, next⟩ := step_ensures refl trans everywhere outside
      (fun task s _ => tasks task s) (fun _ => trivial) ensures
      (atCalls_of_forall assumed w event)
    refine ⟨next, ?_⟩
    cases event with
    | outside event => exact soundOutside w.state event sounds
    | begin task =>
        simp only [Shop.step]
        split
        · exact sounds
        · exact sounds
    | advance =>
        obtain ⟨state, program⟩ := w
        cases program with
        | done value => exact sounds
        | call c next => exact sound state c shown sounds
    | kill => exact soundRestart w.state sounds
  · rintro w event ⟨ensures, sounds⟩ holds
    cases event with
    | outside event => exact iff_of_true (unmoved w.state event holds) trivial
    | begin task =>
        refine iff_of_true ?_ trivial
        simp only [Shop.step]
        split
        · exact holds
        · exact holds
    | advance =>
        obtain ⟨state, program⟩ := w
        cases program with
        | done value => exact iff_of_true holds trivial
        | call c next =>
            have shown := (ensures state (refl state) (assumed state c)).1
            exact exactly state c shown sounds holds
    | kill => exact iff_of_true (restarted w.state holds) trivial
  · exact ⟨ensures, initial⟩
  · exact holds

end Shop

end RoundSync.Transition
