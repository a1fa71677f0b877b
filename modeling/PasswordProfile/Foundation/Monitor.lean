import PasswordProfile.Foundation.Process

/-! # Monitors

A monitor follows the exchanges of a program: in each of its states some calls
are permitted, and an exchange takes it to the next state. A program meets a
monitor when it only makes permitted calls, whatever the answers are.
-/

namespace PasswordProfile.Interaction

variable {Call : Type u} {Answer : Call → Type v} {Raised : Type v}
  {Value Final Position Result : Type v}

structure Monitor {Call : Type u} (Answer : Call → Type v) where
  State : Type w
  Permits : State → Call → Prop
  advance : State → (call : Call) → Answer call → State

namespace Monitor

variable (monitor : Monitor.{u, v, w} Answer)

def after : monitor.State → List (Exchange Answer) → monitor.State
  | state, [] => state
  | state, ⟨call, answer⟩ :: rest =>
      after (monitor.advance state call answer) rest

/-- Every call is permitted when it is made. -/
def Accepts : monitor.State → List (Exchange Answer) → Prop
  | _, [] => True
  | state, ⟨call, answer⟩ :: rest => monitor.Permits state call ∧
      Accepts (monitor.advance state call answer) rest

/-- The program only makes permitted calls, and its result fits the state that
the monitor is left in. -/
def Supervises : Program Call Answer Result → monitor.State →
    (Result → monitor.State → Prop) → Prop
  | .done result, state, Post => Post result state
  | .ask call next, state, Post => monitor.Permits state call ∧
      ∀ answer, Supervises (next answer) (monitor.advance state call answer)
        Post

def Ends {State : Type w} (Returns : Value → State → Prop)
    (Raises : Raised → State → Prop) : Except Raised Value → State → Prop
  | .ok value, state => Returns value state
  | .error raised, state => Raises raised state

def Meets (program : Fallible Answer Raised Value) (state : monitor.State)
    (Returns : Value → monitor.State → Prop)
    (Raises : Raised → monitor.State → Prop) : Prop :=
  monitor.Supervises program.run state (Ends Returns Raises)

/-! ## Traces -/

variable {monitor} {state : monitor.State}

theorem after_append (earlier later : List (Exchange Answer)) :
    monitor.after state (earlier ++ later) =
      monitor.after (monitor.after state earlier) later := by
  induction earlier generalizing state with
  | nil => rfl
  | cons exchange rest induction => exact induction

theorem accepts_append {earlier later : List (Exchange Answer)} :
    monitor.Accepts state (earlier ++ later) ↔
      monitor.Accepts state earlier ∧
        monitor.Accepts (monitor.after state earlier) later := by
  induction earlier generalizing state with
  | nil => exact ⟨fun accepts => ⟨trivial, accepts⟩, And.right⟩
  | cons exchange rest induction =>
      rw [List.cons_append, Accepts, Accepts, induction, and_assoc]
      rfl

theorem exists_leaving {Held : monitor.State → Prop}
    {trace : List (Exchange Answer)} (held : Held state)
    (lost : ¬Held (monitor.after state trace)) :
    ∃ earlier call answer later, trace = earlier ++ ⟨call, answer⟩ :: later ∧
      Held (monitor.after state earlier) ∧
      ¬Held (monitor.advance (monitor.after state earlier) call answer) := by
  induction trace generalizing state with
  | nil => exact absurd held lost
  | cons exchange rest induction =>
      rcases exchange with ⟨call, answer⟩
      by_cases still : Held (monitor.advance state call answer)
      · rcases induction still lost with
          ⟨earlier, other, reply, later, split, before, gone⟩
        exact ⟨⟨call, answer⟩ :: earlier, other, reply, later,
          by rw [split, List.cons_append], before, gone⟩
      · exact ⟨[], call, answer, rest, rfl, held, still⟩

/-- A call inside a trace is permitted where it is made, and the rest is
accepted after it. -/
theorem Accepts.inside {earlier later : List (Exchange Answer)} {call : Call}
    {answer : Answer call}
    (accepts : monitor.Accepts state (earlier ++ ⟨call, answer⟩ :: later)) :
    monitor.Permits (monitor.after state earlier) call ∧
      monitor.Accepts
        (monitor.advance (monitor.after state earlier) call answer) later :=
  (accepts_append.mp accepts).2

/-! ## Rules for programs -/

variable {program : Program Call Answer Result}
  {Post : Result → monitor.State → Prop}

theorem Supervises.run (supervises : monitor.Supervises program state Post)
    (environment : Environment Answer) (history : List (Exchange Answer)) :
    monitor.Accepts state (program.run environment history).1 ∧
      Post (program.run environment history).2
        (monitor.after state (program.run environment history).1) := by
  induction program generalizing state history with
  | done result => exact ⟨trivial, supervises⟩
  | ask call next induction =>
      have rest := induction (environment history call)
        (supervises.2 (environment history call))
        (history ++ [⟨call, environment history call⟩])
      exact ⟨⟨supervises.1, rest.1⟩, rest.2⟩

theorem Supervises.mono {Weaker : Result → monitor.State → Prop}
    (supervises : monitor.Supervises program state Post)
    (weaken : ∀ result state, Post result state → Weaker result state) :
    monitor.Supervises program state Weaker := by
  induction program generalizing state with
  | done result => exact weaken result state supervises
  | ask call next induction =>
      exact ⟨supervises.1, fun answer =>
        induction answer (supervises.2 answer)⟩

theorem Supervises.bind {Final : Type v}
    {next : Result → Program Call Answer Final}
    {Whole : Final → monitor.State → Prop}
    (first : monitor.Supervises program state Post)
    (second : ∀ result state, Post result state →
      monitor.Supervises (next result) state Whole) :
    monitor.Supervises (program >>= next) state Whole := by
  change monitor.Supervises (program.bind next) state Whole
  induction program generalizing state with
  | done result => exact second result state first
  | ask call rest induction =>
      exact ⟨first.1, fun answer => induction answer (first.2 answer)⟩

/-! ## Rules for parts that may raise -/

variable {Returns : Value → monitor.State → Prop}
  {Raises : Raised → monitor.State → Prop}

theorem meets_pure {value : Value} (returns : Returns value state) :
    monitor.Meets (pure value : Fallible Answer Raised Value) state Returns
      Raises :=
  returns

theorem meets_throw {raised : Raised} (raises : Raises raised state) :
    monitor.Meets (throw raised : Fallible Answer Raised Value) state Returns
      Raises :=
  raises

theorem meets_perform {call : Call}
    {Returns : Answer call → monitor.State → Prop}
    (permits : monitor.Permits state call)
    (returns : ∀ answer, Returns answer (monitor.advance state call answer)) :
    monitor.Meets (Fallible.perform call :
      Fallible Answer Raised (Answer call)) state Returns Raises :=
  ⟨permits, returns⟩

theorem Meets.mono {program : Fallible Answer Raised Value}
    {Returns' : Value → monitor.State → Prop}
    {Raises' : Raised → monitor.State → Prop}
    (meets : monitor.Meets program state Returns Raises)
    (returns : ∀ value state, Returns value state → Returns' value state)
    (raises : ∀ raised state, Raises raised state → Raises' raised state) :
    monitor.Meets program state Returns' Raises' := by
  apply Supervises.mono meets
  intro result final ends
  cases result with
  | ok value => exact returns value final ends
  | error raised => exact raises raised final ends

theorem Meets.bind {first : Fallible Answer Raised Value}
    {next : Value → Fallible Answer Raised Final}
    {Middle : Value → monitor.State → Prop}
    {Returns : Final → monitor.State → Prop}
    (meets : monitor.Meets first state Middle Raises)
    (continues : ∀ value state, Middle value state →
      monitor.Meets (next value) state Returns Raises) :
    monitor.Meets (first >>= next) state Returns Raises := by
  apply Supervises.bind meets
  intro result final ends
  cases result with
  | ok value => exact continues value final ends
  | error raised => exact ends

theorem Meets.tryCatch {program : Fallible Answer Raised Value}
    {handler : Raised → Fallible Answer Raised Value}
    {Caught : Raised → monitor.State → Prop}
    (meets : monitor.Meets program state Returns Caught)
    (handles : ∀ raised state, Caught raised state →
      monitor.Meets (handler raised) state Returns Raises) :
    monitor.Meets (MonadExcept.tryCatch program handler) state Returns
      Raises := by
  apply Supervises.bind meets
  intro result final ends
  cases result with
  | ok value => exact ends
  | error raised => exact handles raised final ends

/-! ## Parts that a monitor does not notice -/

def restrict (Allowed : Call → Prop) : Monitor.{u, v, 0} Answer where
  State := Unit
  Permits _ := Allowed
  advance state _ _ := state

def Only (Allowed : Call → Prop)
    (program : Fallible Answer Raised Value) : Prop :=
  (restrict Allowed).Meets program () (fun _ _ => True) fun _ _ => False

variable {Allowed : Call → Prop}

theorem only_pure (value : Value) :
    Only Allowed (pure value : Fallible Answer Raised Value) :=
  meets_pure trivial

theorem only_perform {call : Call} (allowed : Allowed call) :
    Only Allowed (Fallible.perform call :
      Fallible Answer Raised (Answer call)) :=
  meets_perform allowed fun _ => trivial

theorem Only.bind {first : Fallible Answer Raised Value}
    {next : Value → Fallible Answer Raised Final} (only : Only Allowed first)
    (continues : ∀ value, Only Allowed (next value)) :
    Only Allowed (first >>= next) :=
  Meets.bind only fun value _ _ => continues value

theorem Only.meets {program : Fallible Answer Raised Value}
    (only : Only Allowed program)
    (permits : ∀ call, Allowed call → monitor.Permits state call)
    (stays : ∀ call answer, Allowed call →
      monitor.advance state call answer = state) :
    monitor.Meets program state (fun _ final => final = state) Raises := by
  unfold Only Meets at only
  unfold Meets
  generalize program.run = whole at only
  induction whole with
  | done result =>
      cases result with
      | ok value => rfl
      | error raised => exact only.elim
  | ask call next induction =>
      refine ⟨permits call only.1, ?_⟩
      intro answer
      rw [stays call answer only.1]
      exact induction answer (only.2 answer)

/-! ## Whole processes -/

def Stands {State : Type w} (Invariant : Position → State → Prop)
    (Returns : Result → State → Prop) (Raises : Raised → State → Prop) :
    Position ⊕ Except Raised Result → State → Prop
  | .inl position => Invariant position
  | .inr result => Ends Returns Raises result

variable {body : Position → Fallible Answer Raised (Position ⊕ Result)}
  {Invariant : Position → monitor.State → Prop}
  {Returned : Result → monitor.State → Prop}

theorem repeats_accepts
    (preserved : ∀ position state, Invariant position state →
      monitor.Meets (body position) state
        (Sum.elim Invariant Returned) Raises)
    (environment : Environment Answer) (count : Nat) {position : Position}
    (history : List (Exchange Answer)) (holds : Invariant position state) :
    monitor.Accepts state
        (Fallible.repeats body environment count position history).1 ∧
      Stands Invariant Returned Raises
        (Fallible.repeats body environment count position history).2
        (monitor.after state
          (Fallible.repeats body environment count position history).1) := by
  induction count generalizing position state history with
  | zero => exact ⟨trivial, holds⟩
  | succ count induction =>
      have once := (preserved position state holds).run environment history
      rw [Fallible.repeats]
      rcases reached : Program.run environment (body position).run history with
        ⟨trace, raised | next | result⟩
      · rw [reached] at once
        exact once
      · rw [reached] at once
        have rest := induction (history ++ trace) once.2
        rw [accepts_append, after_append]
        exact ⟨⟨once.1, rest.1⟩, rest.2⟩
      · rw [reached] at once
        exact once

end Monitor

end PasswordProfile.Interaction
