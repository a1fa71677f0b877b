import Mathlib.Data.Fintype.Basic
import PasswordProfile.Foundation.Execution
import PasswordProfile.Foundation.Monitor

/-! # Sections of code under ranked locks

Processes share memory cells, each behind a lock. A section takes the locks it
needs in the order of their ranks, accesses only cells whose locks it holds,
and takes none after it has released one. Accesses of different processes
interleave in any order; every section still acts as if all of it happened at
once, between its start and its end.
-/

namespace PasswordProfile.LockedSections

open Execution Interaction

inductive Mode
  | shared
  | exclusive
  deriving DecidableEq, Repr

def Mode.conflicts : Mode → Mode → Bool
  | .shared, .shared => false
  | _, _ => true

structure Layout where
  Lock : Type
  Cell : Type
  Value : Cell → Type
  guard : Cell → Lock
  rank : Lock → Nat

inductive Access (layout : Layout)
  | acquire (lock : layout.Lock) (mode : Mode)
  | release (lock : layout.Lock)
  | read (cell : layout.Cell)
  | write (cell : layout.Cell) (value : layout.Value cell)

abbrev Memory (layout : Layout) := (cell : layout.Cell) → layout.Value cell

namespace Access

variable {layout : Layout}

def Answer : Access layout → Type
  | .read cell => layout.Value cell
  | .acquire _ _ => Unit
  | .release _ => Unit
  | .write _ _ => Unit

def answer (memory : Memory layout) :
    (access : Access layout) → access.Answer
  | .read cell => memory cell
  | .acquire _ _ => ()
  | .release _ => ()
  | .write _ _ => ()

def effect [DecidableEq layout.Cell] (memory : Memory layout) :
    Access layout → Memory layout
  | .write cell value => Function.update memory cell value
  | .acquire _ _ => memory
  | .release _ => memory
  | .read _ => memory

end Access

abbrev Section (layout : Layout) (Result : Type) :=
  Program (Access layout) Access.Answer Result

def alone {layout : Layout} {Result : Type} [DecidableEq layout.Cell] :
    Section layout Result → Memory layout → Memory layout × Result
  | .done result, memory => (memory, result)
  | .ask access next, memory =>
      alone (next (access.answer memory)) (access.effect memory)

section Primitives

variable {layout : Layout} {Result Final : Type}

def acquire (lock : layout.Lock) (mode : Mode) : Section layout Unit :=
  .ask (.acquire lock mode) .done

def release (lock : layout.Lock) : Section layout Unit :=
  .ask (.release lock) .done

def read (cell : layout.Cell) : Section layout (layout.Value cell) :=
  .ask (.read cell) .done

def write (cell : layout.Cell) (value : layout.Value cell) :
    Section layout Unit :=
  .ask (.write cell value) .done

def guarded (lock : layout.Lock) (mode : Mode)
    (body : Section layout Result) : Section layout Result := do
  acquire lock mode
  let result ← body
  release lock
  return result

variable [DecidableEq layout.Cell] (memory : Memory layout)

@[simp] theorem alone_pure (result : Result) :
    alone (pure result : Section layout Result) memory =
      (memory, result) := rfl

@[simp] theorem alone_bind (first : Section layout Result)
    (next : Result → Section layout Final) :
    alone (first >>= next) memory =
      alone (next (alone first memory).2) (alone first memory).1 := by
  change alone (first.bind next) memory = _
  induction first generalizing memory with
  | done result => rfl
  | ask access rest induction => exact induction _ _

@[simp] theorem alone_read (cell : layout.Cell) :
    alone (read cell) memory = (memory, memory cell) := rfl

@[simp] theorem alone_write (cell : layout.Cell)
    (value : layout.Value cell) :
    alone (write cell value) memory =
      (Function.update memory cell value, ()) := rfl

@[simp] theorem alone_guarded (lock : layout.Lock) (mode : Mode)
    (body : Section layout Result) :
    alone (guarded lock mode body) memory = alone body memory := by
  rw [guarded, alone_bind, alone_bind]
  rfl

end Primitives

/-! ## The discipline -/

structure Holding (layout : Layout) where
  held : layout.Lock → Option Mode
  released : Bool

namespace Holding

variable {layout : Layout}

def start : Holding layout := ⟨fun _ => none, false⟩

def Empty (holding : Holding layout) : Prop :=
  ∀ lock, holding.held lock = none

def Holds (holding : Holding layout) (cell : layout.Cell) : Prop :=
  holding.held (layout.guard cell) ≠ none

instance (holding : Holding layout) (cell : layout.Cell) :
    Decidable (holding.Holds cell) :=
  inferInstanceAs (Decidable (holding.held (layout.guard cell) ≠ none))

def Owns (holding : Holding layout) (cell : layout.Cell) : Prop :=
  holding.held (layout.guard cell) = some .exclusive

def Permits (holding : Holding layout) : Access layout → Prop
  | .acquire lock _ => holding.released = false ∧
      ∀ other, holding.held other ≠ none →
        layout.rank other < layout.rank lock
  | .release lock => holding.held lock ≠ none
  | .read cell => holding.Holds cell
  | .write cell _ => holding.Owns cell

def after [DecidableEq layout.Lock] (holding : Holding layout) :
    Access layout → Holding layout
  | .acquire lock mode =>
      { holding with held := Function.update holding.held lock (some mode) }
  | .release lock => ⟨Function.update holding.held lock none, true⟩
  | .read _ => holding
  | .write _ _ => holding

def Compatible (first second : Holding layout) : Prop :=
  ∀ lock, ∀ mode ∈ first.held lock, ∀ other ∈ second.held lock,
    mode.conflicts other = false

@[simp] theorem held_acquire [DecidableEq layout.Lock]
    (holding : Holding layout) (lock : layout.Lock) (mode : Mode) :
    (holding.after (.acquire lock mode)).held =
      Function.update holding.held lock (some mode) := rfl

theorem held_acquired [DecidableEq layout.Lock] (holding : Holding layout)
    (lock : layout.Lock) (mode : Mode) :
    (holding.after (.acquire lock mode)).held lock = some mode :=
  Function.update_self ..

@[simp] theorem held_release [DecidableEq layout.Lock]
    (holding : Holding layout) (lock : layout.Lock) :
    (holding.after (.release lock)).held =
      Function.update holding.held lock none := rfl

theorem owns_holds {holding : Holding layout} {cell : layout.Cell}
    (owns : holding.Owns cell) : holding.Holds cell := by
  rw [Holds, owns]
  exact Option.some_ne_none _

theorem holds_of_release [DecidableEq layout.Lock]
    {holding : Holding layout} {lock : layout.Lock} {cell : layout.Cell}
    (holds : (holding.after (.release lock)).Holds cell) :
    holding.Holds cell ∧ layout.guard cell ≠ lock := by
  by_cases same : layout.guard cell = lock
  · simp [Holds, same] at holds
  · simp only [Holds, held_release, Function.update_of_ne same] at holds
    exact ⟨holds, same⟩

theorem owns_of_release [DecidableEq layout.Lock]
    {holding : Holding layout} {lock : layout.Lock} {cell : layout.Cell}
    (owns : (holding.after (.release lock)).Owns cell) :
    holding.Owns cell := by
  have apart := (holds_of_release (owns_holds owns)).2
  simpa [Owns, apart] using owns

theorem holds_acquire [DecidableEq layout.Lock] {holding : Holding layout}
    {lock : layout.Lock} {mode : Mode} {cell : layout.Cell} :
    (holding.after (.acquire lock mode)).Holds cell ↔
      layout.guard cell = lock ∨ holding.Holds cell := by
  by_cases same : layout.guard cell = lock
  · simp [Holds, same]
  · simp [Holds, same]

theorem Owns.acquire [DecidableEq layout.Lock] {holding : Holding layout}
    {lock : layout.Lock} {cell : layout.Cell} (owns : holding.Owns cell)
    (fresh : holding.held lock = none) (mode : Mode) :
    (holding.after (.acquire lock mode)).Owns cell := by
  have different : layout.guard cell ≠ lock := by
    intro same
    rw [Owns, same, fresh] at owns
    cases owns
  rw [Owns, held_acquire, Function.update_of_ne different]
  exact owns

theorem Compatible.acquire [DecidableEq layout.Lock]
    {first second : Holding layout} (compatible : first.Compatible second)
    {lock : layout.Lock} {mode : Mode}
    (granted : ∀ taken ∈ second.held lock, mode.conflicts taken = false) :
    (first.after (.acquire lock mode)).Compatible second := by
  intro other held isHeld taken isTaken
  by_cases same : other = lock
  · subst same
    rw [held_acquire, Function.update_self] at isHeld
    cases isHeld
    exact granted taken isTaken
  · rw [held_acquire, Function.update_of_ne same] at isHeld
    exact compatible other held isHeld taken isTaken

theorem Compatible.release [DecidableEq layout.Lock]
    {first second : Holding layout} (compatible : first.Compatible second)
    (lock : layout.Lock) :
    (first.after (.release lock)).Compatible second := by
  intro other held isHeld taken isTaken
  by_cases same : other = lock
  · subst same
    rw [held_release, Function.update_self] at isHeld
    cases isHeld
  · rw [held_release, Function.update_of_ne same] at isHeld
    exact compatible other held isHeld taken isTaken

theorem Compatible.symm {first second : Holding layout}
    (compatible : first.Compatible second) : second.Compatible first := by
  intro lock mode holds other held
  have conflict := compatible lock other held mode holds
  cases mode <;> cases other <;> first | rfl | exact conflict

theorem Compatible.not_owns {first second : Holding layout}
    (compatible : first.Compatible second) {cell : layout.Cell}
    (holds : second.Holds cell) : ¬first.Owns cell := by
  intro owns
  rcases Option.ne_none_iff_exists'.mp holds with ⟨mode, held⟩
  have conflict := compatible _ .exclusive owns mode held
  cases mode <;> cases conflict

end Holding

abbrev discipline (layout : Layout) [DecidableEq layout.Lock] :
    Monitor.{0, 0, 0} (@Access.Answer layout) where
  State := Holding layout
  Permits := Holding.Permits
  advance holding access _ := holding.after access

section Keeps

variable {layout : Layout} [DecidableEq layout.Lock] {Result : Type}

structure Keeps (part : Section layout Result) (holding : Holding layout) :
    Prop where
  supervised : (discipline layout).Supervises part holding
    fun _ final => final.Empty

namespace Keeps

variable {access : Access layout}
  {rest : access.Answer → Section layout Result} {holding : Holding layout}

theorem permits (keeps : Keeps (.ask access rest) holding) :
    holding.Permits access := keeps.supervised.1

theorem next (keeps : Keeps (.ask access rest) holding)
    (answer : access.Answer) :
    Keeps (rest answer) (holding.after access) := ⟨keeps.supervised.2 answer⟩

theorem empty {result : Result}
    (keeps : Keeps (.done result : Section layout Result) holding) :
    holding.Empty := keeps.supervised

end Keeps

end Keeps

/-! ## Two machines -/

structure Code (layout : Layout) [DecidableEq layout.Lock] where
  Operation : Type
  Result : Operation → Type
  body : (operation : Operation) → Section layout (Result operation)
  keeps : ∀ operation, Keeps (body operation) .start

section Machines

variable {layout : Layout} [DecidableEq layout.Lock]
  [DecidableEq layout.Cell] (code : Code layout) (size : Nat)

inductive Event
  | start (id : Fin size) (operation : code.Operation)
  | finish (id : Fin size) (operation : code.Operation)
      (result : code.Result operation)

structure Process where
  operation : code.Operation
  rest : Section layout (code.Result operation)
  holding : Holding layout

/-- At most `size` processes at a time. -/
structure System where
  memory : Memory layout
  process : Fin size → Option (Process code)
  history : List (Event code size)

variable {code size}

namespace System

def init (memory : Memory layout) : System code size :=
  ⟨memory, fun _ => none, []⟩

def Idle (system : System code size) : Prop :=
  ∀ id, system.process id = none

def Grants (system : System code size) : Access layout → Prop
  | .acquire lock mode => ∀ other, ∀ process ∈ system.process other,
      ∀ taken ∈ process.holding.held lock, mode.conflicts taken = false
  | .release _ => True
  | .read _ => True
  | .write _ _ => True

instance (system : System code size) :
    (access : Access layout) → Decidable (system.Grants access)
  | .acquire lock mode => inferInstanceAs (Decidable (∀ other,
      ∀ process ∈ system.process other,
        ∀ taken ∈ process.holding.held lock, mode.conflicts taken = false))
  | .release _ => .isTrue trivial
  | .read _ => .isTrue trivial
  | .write _ _ => .isTrue trivial

end System

inductive Action (code : Code layout) (size : Nat)
  | start (id : Fin size) (operation : code.Operation)
  | access (id : Fin size)
  | finish (id : Fin size)

/-- One access at a time, by whichever process comes next. -/
def machine (code : Code layout) (size : Nat) :
    Machine (System code size) (Action code size) where
  step system
    | .start id operation =>
        match system.process id with
        | some _ => none
        | none => some ⟨system.memory,
            Function.update system.process id
              (some ⟨operation, code.body operation, .start⟩),
            system.history ++ [.start id operation]⟩
    | .access id =>
        match system.process id with
        | some ⟨operation, .ask access next, holding⟩ =>
            if system.Grants access then
              some ⟨access.effect system.memory,
                Function.update system.process id
                  (some ⟨operation, next (access.answer system.memory),
                    holding.after access⟩),
                system.history⟩
            else none
        | _ => none
    | .finish id =>
        match system.process id with
        | some ⟨operation, .done result, _⟩ => some ⟨system.memory,
            Function.update system.process id none,
            system.history ++ [.finish id operation result]⟩
        | _ => none

/-! The specification: a started operation takes its whole effect in one step
and ends later. -/

inductive Phase (code : Code layout)
  | invoked (operation : code.Operation)
  | effected (operation : code.Operation) (result : code.Result operation)

structure Atomic (code : Code layout) (size : Nat) (State : Type) where
  state : State
  phase : Fin size → Option (Phase code)
  history : List (Event code size)

def Atomic.init {State : Type} (state : State) : Atomic code size State :=
  ⟨state, fun _ => none, []⟩

inductive AtomicAction (code : Code layout) (size : Nat)
  | start (id : Fin size) (operation : code.Operation)
  | effect (id : Fin size)
  | finish (id : Fin size)

def atomicMachine {State : Type}
    (effect : (operation : code.Operation) → State →
      State × code.Result operation) (size : Nat) :
    Machine (Atomic code size State) (AtomicAction code size) where
  step atomic
    | .start id operation =>
        match atomic.phase id with
        | some _ => none
        | none => some { atomic with
            phase := Function.update atomic.phase id
              (some (.invoked operation))
            history := atomic.history ++ [.start id operation] }
    | .effect id =>
        match atomic.phase id with
        | some (.invoked operation) => some { atomic with
            state := (effect operation atomic.state).1
            phase := Function.update atomic.phase id
              (some (.effected operation (effect operation atomic.state).2)) }
        | _ => none
    | .finish id =>
        match atomic.phase id with
        | some (.effected operation result) => some { atomic with
            phase := Function.update atomic.phase id none
            history := atomic.history ++ [.finish id operation result] }
        | _ => none

end Machines

end PasswordProfile.LockedSections
