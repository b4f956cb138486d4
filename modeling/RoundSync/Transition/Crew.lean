import RoundSync.Transition.Program
import RoundSync.Transition.Effect
import Mathlib.Algebra.GroupWithZero.Nat
import Mathlib.Logic.Function.Basic

/-!
# Crews

Any number of hands run programs on one shared state, one atomic call at a time
and in any order.  A protocol says what a hand notes of the calls it makes, and
which calls its notes allow.  Programs that obey the protocol are verified one
by one; an invariant of the state and the notes that every allowed call keeps
then holds in every run.
-/

namespace RoundSync.Transition

universe u

/-! Crews of two and of three hands. -/

instance neZero_two : NeZero 2 :=
  ⟨by decide⟩

instance neZero_three : NeZero 3 :=
  ⟨by decide⟩

/-- How calls are answered, and what a hand notes of its calls. -/
structure Protocol (σ : Type u) {κ : Type u} (Reply : κ → Type u) (γ : Type u) where
  answer : (c : κ) → σ → Reply c × σ
  blank : γ
  note : γ → σ → κ → γ
  allowed : γ → κ → Prop

namespace Protocol

variable {σ κ γ α β : Type u} {Reply : κ → Type u} (protocol : Protocol σ Reply γ)

/-- With these notes, every call of the program is allowed by the notes of the
calls before it, and the program ends with a value and notes in `Q`. -/
def Obeys : Program Reply α → (α → γ → Prop) → γ → Prop
  | .done value, Q, notes => Q value notes
  | .call c next, Q, notes => protocol.allowed notes c ∧
      ∀ state, Obeys (next (protocol.answer c state).1) Q (protocol.note notes state c)

variable {protocol} {Q Q' : α → γ → Prop} {R : β → γ → Prop} {notes : γ}

@[simp]
theorem obeys_bind {first : Program Reply α} {rest : α → Program Reply β} :
    protocol.Obeys (first >>= rest) R notes ↔
      protocol.Obeys first (fun value => protocol.Obeys (rest value) R) notes := by
  change protocol.Obeys (first.andThen rest) R notes ↔ _
  induction first generalizing notes with
  | done value => rfl
  | call c next ih => simp only [Program.andThen, Obeys, ih]

theorem Obeys.mono {program : Program Reply α} (obeys : protocol.Obeys program Q notes)
    (weaken : ∀ value g, Q value g → Q' value g) : protocol.Obeys program Q' notes := by
  induction program generalizing notes with
  | done value => exact weaken value notes obeys
  | call c next ih => exact ⟨obeys.1, fun state => ih _ (obeys.2 state)⟩

/-- The rule for sequences, from what the first part obeys. -/
theorem Obeys.bind {first : Program Reply α} {rest : α → Program Reply β}
    (obeys : protocol.Obeys first Q notes)
    (next : ∀ value g, Q value g → protocol.Obeys (rest value) R g) :
    protocol.Obeys (first >>= rest) R notes :=
  obeys_bind.mpr (obeys.mono next)

/-- A program of calls that are allowed and leave the notes as they are. -/
theorem obeys_of_everyCall {P : κ → Prop} {program : Program Reply α}
    (calls : program.EveryCall P) (allowed : ∀ c, P c → protocol.allowed notes c)
    (steady : ∀ state c, P c → protocol.note notes state c = notes)
    (value : ∀ a, Q a notes) : protocol.Obeys program Q notes := by
  induction program with
  | done a => exact value a
  | call c next ih =>
      refine ⟨allowed c calls.1, fun state => ?_⟩
      rw [steady state c calls.1]
      exact ih _ (calls.2 _)

end Protocol

/-! ## Programs that can fail -/

/-- A program each of whose calls may fail, which ends it. -/
abbrev Attempt {κ : Type u} (Reply : κ → Type u) (ε : Type u) :=
  ExceptT ε (Program Reply)

namespace Attempt

variable {κ σ γ ε α β : Type u} {Value : κ → Type u}

/-- A call whose reply is a value or an error. -/
def call (c : κ) : Attempt (fun c => Except ε (Value c)) ε (Value c) :=
  ExceptT.mk (.request c)

variable {Reply : κ → Type u}

def fail (error : ε) : Attempt Reply ε α :=
  ExceptT.mk (.done (.error error))

/-- Run a program and hand its error over as a value. -/
def attempt (first : Attempt Reply ε α) : Attempt Reply ε (Except ε α) :=
  ExceptT.mk (first.run >>= fun result => .done (.ok result))

/-- With notes in `before`, the program obeys the protocol; its values come with
notes in `Q`, its errors with notes in `E`. -/
def Obeys (protocol : Protocol σ Reply γ) (first : Attempt Reply ε α) (Q : α → γ → Prop)
    (E : ε → γ → Prop) (notes : γ) : Prop :=
  protocol.Obeys first.run
    (fun result notes =>
      match result with
      | .ok value => Q value notes
      | .error error => E error notes) notes

variable {protocol : Protocol σ Reply γ} {first : Attempt Reply ε α}
  {next : α → Attempt Reply ε β} {Q Q' : α → γ → Prop} {R : β → γ → Prop}
  {E E' : ε → γ → Prop} {notes : γ}

theorem Obeys.mono (obeys : Obeys protocol first Q E notes)
    (value : ∀ a g, Q a g → Q' a g) (error : ∀ e g, E e g → E' e g) :
    Obeys protocol first Q' E' notes := by
  apply Protocol.Obeys.mono obeys
  intro result g holds
  cases result with
  | ok a => exact value a g holds
  | error e => exact error e g holds

/-- The rule for a call, by its reply. -/
theorem obeys_call {protocol : Protocol σ (fun c => Except ε (Value c)) γ} {c : κ}
    {Q : Value c → γ → Prop} {E : ε → γ → Prop} (allowed : protocol.allowed notes c)
    (value : ∀ state a, (protocol.answer c state).1 = .ok a → Q a (protocol.note notes state c))
    (error : ∀ state e, (protocol.answer c state).1 = .error e →
      E e (protocol.note notes state c)) : Obeys protocol (call c) Q E notes := by
  refine ⟨allowed, fun state => ?_⟩
  change protocol.Obeys (.done (protocol.answer c state).1) _ _
  cases reply : (protocol.answer c state).1 with
  | ok a => exact value state a reply
  | error e => exact error state e reply

/-- What a sequence obeys, from what its first part obeys. -/
theorem Obeys.bind (obeys : Obeys protocol first Q E' notes)
    (value : ∀ a g, Q a g → Obeys protocol (next a) R E g)
    (error : ∀ e g, E' e g → E e g) : Obeys protocol (first >>= next) R E notes := by
  apply Protocol.obeys_bind.mpr
  apply Protocol.Obeys.mono obeys
  intro result g holds
  cases result with
  | ok a => exact value a g holds
  | error e => exact error e g holds

theorem Obeys.attempt (obeys : Obeys protocol first Q E notes)
    {R : Except ε α → γ → Prop} (value : ∀ a g, Q a g → R (.ok a) g)
    (error : ∀ e g, E e g → R (.error e) g) :
    Obeys protocol (attempt first) R E' notes := by
  apply Protocol.obeys_bind.mpr
  apply Protocol.Obeys.mono obeys
  intro result g holds
  cases result with
  | ok a => exact value a g holds
  | error e => exact error e g holds

/-- From this state, interrupted by what is relied on, the program meets what has
to be shown of its calls; its values meet `Q` and its errors meet `E`. -/
def Ensures (answer : (c : κ) → σ → Reply c × σ) (terms : Terms σ κ) (first : Attempt Reply ε α)
    (Q : α → σ → Prop) (E : ε → σ → Prop) (state : σ) : Prop :=
  Program.Ensures answer terms first.run
    (fun result reached =>
      match result with
      | .ok value => Q value reached
      | .error error => E error reached) state

section

variable {answer : (c : κ) → σ → Reply c × σ} {terms : Terms σ κ} {Q Q' : α → σ → Prop}
  {R : β → σ → Prop} {E E' : ε → σ → Prop} {state : σ}

theorem Ensures.mono (ensures : Ensures answer terms first Q E state)
    (value : ∀ a s, Q a s → Q' a s) (error : ∀ e s, E e s → E' e s) :
    Ensures answer terms first Q' E' state := by
  apply Program.Ensures.mono ensures
  intro result reached holds
  cases result with
  | ok a => exact value a reached holds
  | error e => exact error e reached holds

theorem Ensures.bind (ensures : Ensures answer terms first Q E' state)
    (value : ∀ a s, Q a s → Ensures answer terms (next a) R E s)
    (error : ∀ e s, E' e s → E e s) : Ensures answer terms (first >>= next) R E state := by
  apply Program.Ensures.bind ensures
  intro result reached holds
  cases result with
  | ok a => exact value a reached holds
  | error e => exact error e reached holds

/-- A program whose value only decides what is handed over. -/
theorem Ensures.hand_over {outcome : α → β} {R : Except ε β → σ → Prop}
    (ensures : Ensures answer terms first Q E state) (value : ∀ a s, Q a s → R (.ok (outcome a)) s)
    (error : ∀ e s, E e s → R (.error e) s) :
    Program.Ensures answer terms (first >>= fun a => pure (outcome a)).run R state := by
  apply Program.Ensures.bind ensures
  intro result reached holds
  cases result with
  | ok a => exact value a reached holds
  | error e => exact error e reached holds

end

theorem ensures_call {answer : (c : κ) → σ → Except ε (Value c) × σ} {terms : Terms σ κ} {c : κ}
    {Q : Value c → σ → Prop} {E : ε → σ → Prop} {state : σ}
    (shown : ∀ s, terms.rely state s → terms.assumed s c → terms.shown s c)
    (value : ∀ s, terms.rely state s → terms.assumed s c → ∀ a, (answer c s).1 = .ok a →
      Q a (answer c s).2)
    (error : ∀ s, terms.rely state s → terms.assumed s c → ∀ e, (answer c s).1 = .error e →
      E e (answer c s).2) : Ensures answer terms (call c) Q E state := by
  intro reached relied assumed
  refine ⟨shown reached relied assumed, ?_⟩
  change Program.Ensures answer terms (.done (answer c reached).1) _ _
  cases reply : (answer c reached).1 with
  | ok a => exact value reached relied assumed a reply
  | error e => exact error reached relied assumed e reply

end Attempt

/-! ## Programs run alone -/

namespace Program

variable {κ σ α β : Type u} {Reply : κ → Type u} (answer : (c : κ) → σ → Reply c × σ)

/-- The value and the state of a program that is not interrupted. -/
def execute : Program Reply α → σ → α × σ
  | .done value, state => (value, state)
  | .call c next, state => execute (next (answer c state).1) (answer c state).2

theorem execute_bind (first : Program Reply α) (rest : α → Program Reply β) (state : σ) :
    execute answer (first >>= rest) state =
      execute answer (rest (execute answer first state).1) (execute answer first state).2 := by
  change execute answer (first.andThen rest) state = _
  induction first generalizing state with
  | done value => rfl
  | call c next ih => exact ih _ _

end Program

namespace Attempt

variable {κ σ ε α β : Type u} {Value : κ → Type u} (effect : (c : κ) → Effect σ ε (Value c))

/-- What a program does when it is not interrupted. -/
def perform (first : Attempt (fun c => Except ε (Value c)) ε α) : Effect σ ε α :=
  first.run.execute effect

@[simp]
theorem perform_pure (value : α) : perform effect (pure value) = pure value :=
  rfl

@[simp]
theorem perform_fail (error : ε) :
    perform effect (fail error : Attempt _ ε α) = Effect.fail error :=
  rfl

@[simp]
theorem perform_call (c : κ) : perform effect (call c) = effect c :=
  rfl

variable {effect} {first : Attempt (fun c => Except ε (Value c)) ε α} {one : Effect σ ε α}

/-- A sequence does what its parts do. -/
theorem perform_bind {next : α → Attempt (fun c => Except ε (Value c)) ε β}
    {rest : α → Effect σ ε β} (head : perform effect first = one)
    (tail : ∀ value, perform effect (next value) = rest value) :
    perform effect (first >>= next) = one >>= rest := by
  subst head
  obtain rfl : (fun value => perform effect (next value)) = rest := funext tail
  funext state
  refine (Program.execute_bind effect first.run _ state).trans ?_
  simp only [bind, perform]
  rcases first.run.execute effect state with ⟨error | value, reached⟩
  · rfl
  · rfl

theorem perform_attempt (head : perform effect first = one) :
    perform effect (attempt first) = Effect.attempt one := by
  subst head
  funext state
  exact Program.execute_bind effect first.run _ state

end Attempt

/-! ## What the notes of a crew become -/

section

variable {ι γ : Type u} [DecidableEq ι] {notes : ι → γ} {i : ι}

theorem exists_update (P P' : γ → Prop) (found : ∃ j, P (notes j))
    (weaken : ∀ g, P g → P' g) {here : γ} (kept : P (notes i) → P' here) :
    ∃ j, P' (Function.update notes i here j) := by
  obtain ⟨j, holds⟩ := found
  by_cases same : j = i
  · subst same
    exact ⟨j, by simpa using kept holds⟩
  · exact ⟨j, by simpa [same] using weaken _ holds⟩

theorem exists_update_here (P : γ → Prop) {here : γ} (holds : P here) :
    ∃ j, P (Function.update notes i here j) :=
  ⟨i, by simpa using holds⟩

theorem forall_update (P : γ → Prop) (before : ∀ j, j ≠ i → P (notes j)) {here : γ} (holds : P here) (j : ι) :
    P (Function.update notes i here j) := by
  by_cases same : j = i
  · subst same
    simpa using holds
  · simpa [same] using before j same

end

/-! ## Crews at work -/

namespace Program

variable {κ α : Type u} {Reply : κ → Type u} {P P' : κ → Prop}

/-- The value of a program that has ended. -/
def value? : Program Reply α → Option α
  | .done value => some value
  | .call _ _ => none

theorem eq_done_of_value {program : Program Reply α} {value : α}
    (ended : program.value? = some value) : program = .done value := by
  cases program with
  | done other =>
      cases ended
      rfl
  | call c next => cases ended

/-- The next call, if there is one, is one of these. -/
def NextCall (P : κ → Prop) : Program Reply α → Prop
  | .done _ => True
  | .call c _ => P c

instance [∀ c, Decidable (P c)] : ∀ program : Program Reply α, Decidable (program.NextCall P)
  | .done _ => .isTrue trivial
  | .call c _ => inferInstanceAs (Decidable (P c))

theorem NextCall.mono {program : Program Reply α} (next : program.NextCall P)
    (weaken : ∀ c, P c → P' c) : program.NextCall P' := by
  cases program with
  | done value => trivial
  | call c rest => exact weaken c next

end Program

structure Hand {κ : Type u} (Reply : κ → Type u) (γ α : Type u) where
  program : Program Reply α
  notes : γ

/-- A shared state and the hands that work on it. -/
structure Crew (σ ι : Type u) {κ : Type u} (Reply : κ → Type u) (γ α : Type u) where
  state : σ
  hands : ι → Hand Reply γ α

inductive CrewEvent (ι τ : Type u) where
  | begin (hand : ι) (task : τ)
  | advance (hand : ι)

def CrewEvent.hand {ι τ : Type u} : CrewEvent ι τ → ι
  | .begin i _ => i
  | .advance i => i

namespace Crew

variable {σ ι κ γ α τ : Type u} {Reply : κ → Type u} [DecidableEq ι]

/-- All hands are idle. -/
def start (protocol : Protocol σ Reply γ) (idle : α) (state : σ) : Crew σ ι Reply γ α where
  state := state
  hands := fun _ => ⟨.done idle, protocol.blank⟩

def notes (crew : Crew σ ι Reply γ α) (i : ι) : γ :=
  (crew.hands i).notes

/-- An idle hand begins a task, or a hand makes its next call. -/
def step (protocol : Protocol σ Reply γ) (program : τ → Program Reply α)
    (crew : Crew σ ι Reply γ α) : CrewEvent ι τ → Crew σ ι Reply γ α
  | .begin i task =>
      match (crew.hands i).program with
      | .done _ =>
          { crew with hands := Function.update crew.hands i ⟨program task, protocol.blank⟩ }
      | .call _ _ => crew
  | .advance i =>
      match (crew.hands i).program with
      | .done _ => crew
      | .call c next =>
          { state := (protocol.answer c crew.state).2
            hands := Function.update crew.hands i
              ⟨next (protocol.answer c crew.state).1,
                protocol.note (crew.notes i) crew.state c⟩ }

/-- A hand that no event is about stays as it is. -/
theorem run_hands_of_others {protocol : Protocol σ Reply γ} {program : τ → Program Reply α}
    {crew : Crew σ ι Reply γ α} {events : List (CrewEvent ι τ)} {i : ι}
    (others : ∀ event ∈ events, event.hand ≠ i) :
    (run (Crew.step protocol program) crew events).hands i = crew.hands i := by
  induction events generalizing crew with
  | nil => rfl
  | cons event events ih =>
      obtain ⟨other, rest⟩ := List.forall_mem_cons.mp others
      rw [run_cons, ih rest]
      cases event with
      | begin j task =>
          have different : i ≠ j := Ne.symm other
          rw [Crew.step]
          split
          · exact Function.update_of_ne different _ _
          · rfl
      | advance j =>
          have different : i ≠ j := Ne.symm other
          rw [Crew.step]
          split
          · rfl
          · exact Function.update_of_ne different _ _

/-- What holds of the state, the notes and the hand at each call. -/
def AtCall (guard : σ → (ι → γ) → ι → κ → Prop) (crew : Crew σ ι Reply γ α) :
    CrewEvent ι τ → Prop
  | .begin _ _ => True
  | .advance i => (crew.hands i).program.NextCall (guard crew.state crew.notes i)

instance (guard : σ → (ι → γ) → ι → κ → Prop) [∀ s g i c, Decidable (guard s g i c)]
    (crew : Crew σ ι Reply γ α) : ∀ event : CrewEvent ι τ, Decidable (AtCall guard crew event)
  | .begin _ _ => .isTrue trivial
  | .advance i => inferInstanceAs (Decidable ((crew.hands i).program.NextCall _))

omit [DecidableEq ι] in
theorem atCall_mono {guard guard' : σ → (ι → γ) → ι → κ → Prop}
    (weaken : ∀ s g i c, guard s g i c → guard' s g i c) (crew : Crew σ ι Reply γ α)
    (event : CrewEvent ι τ) (guarded : AtCall guard crew event) : AtCall guard' crew event := by
  cases event with
  | begin i task => trivial
  | advance i => exact guarded.mono (weaken _ _ _)

/-- An invariant of state and notes, and every hand obeys the protocol. -/
structure Keeps (protocol : Protocol σ Reply γ) (Inv : σ → (ι → γ) → Prop) (Q : α → γ → Prop)
    (crew : Crew σ ι Reply γ α) : Prop where
  inv : Inv crew.state crew.notes
  obeys : ∀ i, protocol.Obeys (crew.hands i).program Q (crew.notes i)

theorem notes_update (crew : Crew σ ι Reply γ α) (state : σ) (i : ι) (hand : Hand Reply γ α) :
    (⟨state, Function.update crew.hands i hand⟩ : Crew σ ι Reply γ α).notes =
      Function.update crew.notes i hand.notes := by
  funext j
  by_cases same : j = i
  · subst same
    simp [notes]
  · simp [notes, same]

theorem keeps_update {protocol : Protocol σ Reply γ} {Inv : σ → (ι → γ) → Prop}
    {Q : α → γ → Prop} {crew : Crew σ ι Reply γ α} (keeps : crew.Keeps protocol Inv Q) {state : σ}
    {i : ι} {hand : Hand Reply γ α} (inv : Inv state (Function.update crew.notes i hand.notes))
    (obeys : protocol.Obeys hand.program Q hand.notes) :
    Keeps protocol Inv Q ⟨state, Function.update crew.hands i hand⟩ := by
  constructor
  · rw [notes_update]
    exact inv
  · intro j
    by_cases same : j = i
    · subst same
      simpa [notes] using obeys
    · simpa [notes, same] using keeps.obeys j

section

variable {protocol : Protocol σ Reply γ} {program : τ → Program Reply α}
  {guard : σ → (ι → γ) → ι → κ → Prop} {Inv : σ → (ι → γ) → Prop} {Q : α → γ → Prop}

/-- The step rule: calls that are allowed and guarded keep the invariant, and so
does a hand that has ended and begins again. -/
theorem Keeps.step
    (tasks : ∀ task, protocol.Obeys (program task) Q protocol.blank)
    (begins : ∀ s g i value, Inv s g → Q value (g i) →
      Inv s (Function.update g i protocol.blank))
    (calls : ∀ s g i c, Inv s g → protocol.allowed (g i) c → guard s g i c →
      Inv (protocol.answer c s).2 (Function.update g i (protocol.note (g i) s c)))
    {crew : Crew σ ι Reply γ α} (keeps : crew.Keeps protocol Inv Q) {event : CrewEvent ι τ}
    (guarded : AtCall guard crew event) :
    (crew.step protocol program event).Keeps protocol Inv Q := by
  cases event with
  | begin i task =>
      rw [Crew.step]
      split
      · rename_i value isDone
        have ended := keeps.obeys i
        rw [isDone] at ended
        exact keeps_update keeps (begins _ _ i value keeps.inv ended) (tasks task)
      · exact keeps
  | advance i =>
      rw [AtCall] at guarded
      rw [Crew.step]
      split
      · exact keeps
      · rename_i c next isCall
        have obeys := keeps.obeys i
        rw [isCall] at obeys guarded
        exact keeps_update keeps (calls _ _ i c keeps.inv obeys.1 guarded) (obeys.2 crew.state)

/-- The run rule. -/
theorem always_keeps
    (tasks : ∀ task, protocol.Obeys (program task) Q protocol.blank)
    (begins : ∀ s g i value, Inv s g → Q value (g i) →
      Inv s (Function.update g i protocol.blank))
    (calls : ∀ s g i c, Inv s g → protocol.allowed (g i) c → guard s g i c →
      Inv (protocol.answer c s).2 (Function.update g i (protocol.note (g i) s c)))
    {crew : Crew σ ι Reply γ α} (keeps : crew.Keeps protocol Inv Q) {events : List (CrewEvent ι τ)}
    (guarded : Meets (Crew.step protocol program) (AtCall guard) crew events) :
    Always (Crew.step protocol program) (Keeps protocol Inv Q) crew events :=
  Always.of_meets (fun _ _ keeps guarded => keeps.step tasks begins calls guarded) keeps guarded

end

/-- The rule for the course of one hand, from what its program ensures: the steps
of the crew change what is relied on, and its states meet what is assumed. -/
theorem course_ensures {protocol : Protocol σ Reply γ} {program : τ → Program Reply α}
    {terms : Terms σ κ} {Q : α → σ → Prop} (refl : ∀ s, terms.rely s s)
    (trans : ∀ a b c, terms.rely a b → terms.rely b c → terms.rely a c)
    (settled : ∀ value s t, Q value s → terms.rely s t → Q value t) {i : ι}
    {crew : Crew σ ι Reply γ α} {events : List (CrewEvent ι τ)}
    (ensures : (crew.hands i).program.Ensures protocol.answer terms Q crew.state)
    (course : ∀ task, .begin i task ∉ events)
    (relied : Meets (Crew.step protocol program)
      (fun crew event => terms.rely crew.state (crew.step protocol program event).state) crew events)
    (assumed : Always (Crew.step protocol program) (fun crew => ∀ c, terms.assumed crew.state c)
      crew events) :
    ((run (Crew.step protocol program) crew events).hands i).program.Ensures protocol.answer
      terms Q (run (Crew.step protocol program) crew events).state := by
  induction events generalizing crew with
  | nil => exact ensures
  | cons event events ih =>
      have others : ∀ task, .begin i task ∉ events := fun task member =>
        course task (List.mem_cons_of_mem event member)
      refine ih ?_ others relied.2 assumed.2
      have onward : terms.rely crew.state (crew.step protocol program event).state := relied.1
      have here := assumed.1
      cases event with
      | begin j task =>
          have different : i ≠ j := by
            rintro rfl
            exact course task List.mem_cons_self
          rw [Crew.step]
          split
          · simpa [Function.update_of_ne different] using ensures
          · exact ensures
      | advance j =>
          rw [Crew.step] at onward ⊢
          split
          · exact ensures
          · rename_i c next isCall
            rw [isCall] at onward
            by_cases same : i = j
            · subst same
              rw [isCall] at ensures
              simpa using (ensures crew.state (refl crew.state) (here c)).2
            · simpa [Function.update_of_ne same] using ensures.stable trans settled onward

end Crew

end RoundSync.Transition
