import Mathlib.Data.List.Basic

/-! # States that a crash may roll back

An operation takes effect in memory at once and on disk at the next
synchronisation at the latest. Until then a crash finds any of the states in
which some of the operations since the last synchronisation were not done.
-/

namespace PasswordProfile.CrashState

structure Volatile (State : Type u) where
  current : State
  possible : List State
  reached : current ∈ possible

variable {State : Type u}

def settled (state : State) : Volatile State :=
  ⟨state, [state], List.mem_singleton_self state⟩

/-- An operation that a crash may have kept or not, whatever became of the ones
before it. -/
def Volatile.perform (volatile : Volatile State) (operation : State → State) :
    Volatile State where
  current := operation volatile.current
  possible := volatile.possible ++ volatile.possible.map operation
  reached := List.mem_append_right _ (List.mem_map_of_mem volatile.reached)

def Volatile.sync (volatile : Volatile State) : Volatile State :=
  settled volatile.current

@[simp] theorem perform_current (volatile : Volatile State)
    (operation : State → State) :
    (volatile.perform operation).current = operation volatile.current := rfl

@[simp] theorem sync_current (volatile : Volatile State) :
    volatile.sync.current = volatile.current := rfl

theorem mem_perform {volatile : Volatile State} {operation : State → State}
    {state : State} :
    state ∈ (volatile.perform operation).possible ↔
      state ∈ volatile.possible ∨
        ∃ before ∈ volatile.possible, operation before = state := by
  rw [Volatile.perform, List.mem_append, List.mem_map]

theorem mem_sync {volatile : Volatile State} {state : State} :
    state ∈ volatile.sync.possible ↔ state = volatile.current :=
  List.mem_singleton

/-- What every possible state has and the operation keeps, every possible state
has afterwards. -/
theorem forall_perform {volatile : Volatile State}
    {operation : State → State} {Holds : State → Prop}
    (holds : ∀ state ∈ volatile.possible, Holds state)
    (kept : ∀ state ∈ volatile.possible, Holds state →
      Holds (operation state)) :
    ∀ state ∈ (volatile.perform operation).possible, Holds state := by
  intro state member
  rcases mem_perform.mp member with before | ⟨before, present, result⟩
  · exact holds state before
  · rw [← result]
    exact kept before present (holds before present)

theorem forall_sync {volatile : Volatile State} {Holds : State → Prop}
    (holds : ∀ state ∈ volatile.possible, Holds state) :
    ∀ state ∈ volatile.sync.possible, Holds state := by
  intro state member
  rw [mem_sync.mp member]
  exact holds _ volatile.reached

end PasswordProfile.CrashState
