import Mathlib.Data.Finset.Max
import Mathlib.Data.DFinsupp.WellFounded
import PasswordProfile.Foundation.SectionAtomicity

/-! # Sections do not deadlock

Locks are taken in the order of their ranks, so among the processes that wait
the one that wants the last lock waits for nobody.
-/

namespace PasswordProfile.LockedSections

open Execution Interaction

/-! ## The steps left to a process -/

section Steps

variable {layout : Layout} [DecidableEq layout.Lock] {code : Code layout}

inductive Follows : Option (Process code) → Option (Process code) → Prop
  | access {operation : code.Operation} {access : Access layout}
      {rest : access.Answer → Section layout (code.Result operation)}
      {before after : Holding layout} (answer : access.Answer) :
      Follows (some ⟨operation, rest answer, after⟩)
        (some ⟨operation, .ask access rest, before⟩)
  | finish {operation : code.Operation} {result : code.Result operation}
      {holding : Holding layout} :
      Follows none (some ⟨operation, .done result, holding⟩)

theorem follows_wellFounded : WellFounded (@Follows layout _ code) := by
  have ends : Acc (@Follows layout _ code) none := ⟨_, by
    intro next follows
    cases follows⟩
  constructor
  intro process
  rcases process with _ | ⟨operation, rest, holding⟩
  · exact ends
  · induction rest generalizing holding with
    | done result =>
        constructor
        intro next follows
        cases follows
        exact ends
    | ask access rest induction =>
        constructor
        intro next follows
        cases follows with
        | access answer => exact induction answer _

end Steps

/-! ## Moves -/

section Moves

variable {layout : Layout} [DecidableEq layout.Lock]
  [DecidableEq layout.Cell] {code : Code layout} {size : Nat}

def Moves (system next : System code size) (id : Fin size) : Prop :=
  (machine code size).step system (.access id) = some next ∨
    (machine code size).step system (.finish id) = some next

theorem moves_of_grants {system : System code size} {id : Fin size}
    {operation : code.Operation} {access : Access layout}
    {rest : access.Answer → Section layout (code.Result operation)}
    {holding : Holding layout}
    (running : system.process id =
      some ⟨operation, .ask access rest, holding⟩)
    (granted : system.Grants access) :
    Moves system ⟨access.effect system.memory,
      Function.update system.process id
        (some ⟨operation, rest (access.answer system.memory),
          holding.after access⟩),
      system.history⟩ id := by
  left
  simp only [machine, running]
  rw [if_pos granted]

theorem moves_of_done {system : System code size} {id : Fin size}
    {operation : code.Operation} {result : code.Result operation}
    {holding : Holding layout}
    (running : system.process id =
      some ⟨operation, .done result, holding⟩) :
    Moves system ⟨system.memory, Function.update system.process id none,
      system.history ++ [.finish id operation result]⟩ id := by
  right
  simp only [machine, running]

def wantedRank : Option (Process code) → Nat
  | some ⟨_, .ask (.acquire lock _) _, _⟩ => layout.rank lock
  | _ => 0

section

variable {system : System code size} {shadow : Memory layout}
  {phase : Fin size → Option (Phase code)}

theorem Explains.keeps
    (explains : Explains system.memory system.process shadow phase)
    {id : Fin size} {running : Process code}
    (isRunning : system.process id = some running) :
    Keeps running.rest running.holding := by
  have fits := explains.fits id
  rw [isRunning] at fits
  generalize phase id = current at fits
  cases fits with
  | growing keeps grows replays => exact keeps
  | shrinking keeps shrinks completes => exact keeps

theorem Explains.waits
    (explains : Explains system.memory system.process shadow phase)
    {id : Fin size} {running : Process code}
    (isRunning : system.process id = some running)
    (blocked : ∀ next, ¬Moves system next id) :
    ∃ lock, wantedRank (system.process id) = layout.rank lock ∧
      (∀ other, running.holding.held other ≠ none →
        layout.rank other < layout.rank lock) ∧
      ∃ other rival, system.process other = some rival ∧
        rival.holding.held lock ≠ none := by
  have keeps := explains.keeps isRunning
  rcases running with ⟨operation, result | ⟨access, rest⟩, holding⟩
  · exact absurd (moves_of_done isRunning) (blocked _)
  · have refused : ¬system.Grants access := fun granted =>
      blocked _ (moves_of_grants isRunning granted)
    cases access with
    | acquire lock mode =>
        refine ⟨lock, by rw [isRunning]; rfl, keeps.permits.2, ?_⟩
        by_contra nobody
        apply refused
        intro other rival isRival taken isTaken
        exact absurd ⟨other, rival, isRival, fun unheld => by
          rw [unheld] at isTaken
          cases isTaken⟩ nobody
    | release lock => exact absurd trivial refused
    | read cell => exact absurd trivial refused
    | write cell value => exact absurd trivial refused

/-- Among the running processes the one that wants the last lock can move. -/
theorem Explains.exists_moves
    (explains : Explains system.memory system.process shadow phase)
    (busy : ¬system.Idle) : ∃ id next, Moves system next id := by
  by_contra stuck
  have blocked : ∀ id next, ¬Moves system next id := fun id next moves =>
    stuck ⟨id, next, moves⟩
  have inhabited : (Finset.univ.filter fun id =>
      (system.process id).isSome).Nonempty := by
    rcases not_forall.mp busy with ⟨id, present⟩
    exact ⟨id, by simpa [Option.isSome_iff_ne_none] using present⟩
  rcases Finset.exists_max_image _
    (fun id => wantedRank (system.process id)) inhabited with
    ⟨last, member, maximal⟩
  rcases Option.isSome_iff_exists.mp (Finset.mem_filter.mp member).2 with
    ⟨running, isRunning⟩
  rcases explains.waits isRunning (blocked last) with
    ⟨lock, wanted, _, other, rival, isRival, held⟩
  rcases explains.waits isRival (blocked other) with
    ⟨later, wantedLater, above, _⟩
  have bound := maximal other (by simp [isRival])
  have climbs := above lock held
  omega

end

theorem Moves.process {system next : System code size} {id : Fin size}
    (moves : Moves system next id) :
    ∃ process', Follows process' (system.process id) ∧
      next.process = Function.update system.process id process' := by
  rcases moves with stepped | stepped
  · simp only [machine] at stepped
    split at stepped
    · next operation access rest holding running =>
      split at stepped
      · cases stepped
        rw [running]
        exact ⟨_, .access _, rfl⟩
      · cases stepped
    · cases stepped
  · simp only [machine] at stepped
    split at stepped
    · next operation result holding running =>
      cases stepped
      rw [running]
      exact ⟨none, .finish, rfl⟩
    · cases stepped

def Action.isStart : Action code size → Bool
  | .start _ _ => true
  | .access _ => false
  | .finish _ => false

def whole (code : Code layout) (operation : code.Operation)
    (memory : Memory layout) : Memory layout × code.Result operation :=
  alone (code.body operation) memory

theorem whole_agrees (operation : code.Operation) (memory : Memory layout) :
    whole code operation (id memory) =
      (id (alone (code.body operation) memory).1,
        (alone (code.body operation) memory).2) := rfl

theorem Moves.exists_step {system next : System code size} {id : Fin size}
    (moves : Moves system next id) :
    ∃ action : Action code size, action.isStart = false ∧
      (machine code size).step system action = some next := by
  rcases moves with stepped | stepped
  · exact ⟨.access id, rfl, stepped⟩
  · exact ⟨.finish id, rfl, stepped⟩

theorem Refines.completes {system : System code size}
    {atomic : Atomic code size (Memory layout)}
    (refines : Refines id system atomic) :
    ∃ later final, (machine code size).run system later = some final ∧
      final.Idle ∧ ∀ action ∈ later, action.isStart = false := by
  -- each move takes one process on and leaves the others where they are
  have descends : WellFounded
      (Pi.Lex (· < ·) fun {_ : Fin size} => @Follows layout _ code) :=
    Pi.Lex.wellFounded _ fun _ => follows_wellFounded
  generalize stands : system.process = process
  induction process using descends.induction generalizing system atomic with
  | _ process induction =>
  subst stands
  by_cases idle : system.Idle
  · exact ⟨[], system, rfl, idle, fun _ member => by cases member⟩
  · rcases refines.explains with ⟨shadow, _, explains⟩
    rcases explains.exists_moves idle with ⟨id, next, moves⟩
    rcases moves.process with ⟨process', follows, updated⟩
    rcases moves.exists_step with ⟨action, notStart, stepped⟩
    rcases Refines.step whole_agrees refines stepped with
      ⟨_, _, _, related⟩
    have smaller : Pi.Lex (· < ·) (fun {_ : Fin size} => Follows)
        next.process system.process := by
      rw [updated]
      refine ⟨id, fun other before => ?_, ?_⟩
      · exact Function.update_of_ne before.ne _ _
      · rw [Function.update_self]
        exact follows
    rcases induction next.process smaller related rfl with
      ⟨later, final, reached, ended, unstarted⟩
    refine ⟨action :: later, final,
      Machine.run_cons_eq_some.mpr ⟨next, stepped, reached⟩, ended, ?_⟩
    intro other member
    rcases List.mem_cons.mp member with rfl | member
    · exact notStart
    · exact unstarted other member

/-- Whatever is under way in a run can be completed, without a new section. -/
theorem run_completes {memory : Memory layout}
    {actions : List (Action code size)} {system : System code size}
    (completed : (machine code size).run (.init memory) actions =
      some system) :
    ∃ later final, (machine code size).run system later = some final ∧
      final.Idle ∧ ∀ action ∈ later, action.isStart = false := by
  rcases Machine.run_simulated (Refines.step whole_agrees)
    (refines_init memory) completed with ⟨_, atomic, _, refines⟩
  exact refines.completes

end Moves

end PasswordProfile.LockedSections
