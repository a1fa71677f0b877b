import Mathlib.Data.List.Basic
import Mathlib.Data.List.Induction

/-! # Runs of labelled machines

A machine is an executable step function over explicit states. Every choice
that the environment makes is part of the action, so a run is a list of actions
and a property of every interleaving is a property of every list.
-/

namespace PasswordProfile.Execution

structure Machine (State : Type u) (Action : Type v) where
  step : State → Action → Option State

namespace Machine

variable {State : Type u} {Action : Type v}

/-- Perform the actions in order; a disabled action makes the run impossible. -/
def run (machine : Machine State Action) (state : State) :
    List Action → Option State
  | [] => some state
  | action :: rest =>
      match machine.step state action with
      | none => none
      | some next => machine.run next rest

@[simp] theorem run_nil (machine : Machine State Action) (state : State) :
    machine.run state [] = some state := rfl

theorem run_cons_eq_some {machine : Machine State Action}
    {state final : State} {action : Action} {rest : List Action} :
    machine.run state (action :: rest) = some final ↔
      ∃ next, machine.step state action = some next ∧
        machine.run next rest = some final := by
  rw [run]
  cases stepped : machine.step state action with
  | none => simp
  | some next => simp

theorem run_concat_eq_some {machine : Machine State Action}
    {state final : State} {actions : List Action} {last : Action} :
    machine.run state (actions ++ [last]) = some final ↔
      ∃ middle, machine.run state actions = some middle ∧
        machine.step middle last = some final := by
  induction actions generalizing state with
  | nil => simp [run_cons_eq_some]
  | cons action rest induction =>
      rw [List.cons_append, run_cons_eq_some]
      simp only [run_cons_eq_some, induction]
      constructor
      · intro given
        rcases given with ⟨next, stepped, middle, reached, ended⟩
        exact ⟨middle, ⟨next, stepped, reached⟩, ended⟩
      · intro given
        rcases given with ⟨middle, ⟨next, stepped, reached⟩, ended⟩
        exact ⟨next, stepped, middle, reached, ended⟩

theorem run_total {machine : Machine State Action}
    (total : ∀ state action, ∃ next, machine.step state action = some next)
    (state : State) (actions : List Action) :
    ∃ final, machine.run state actions = some final := by
  induction actions generalizing state with
  | nil => exact ⟨state, rfl⟩
  | cons action rest induction =>
      rcases total state action with ⟨next, stepped⟩
      rcases induction next with ⟨final, completed⟩
      exact ⟨final, run_cons_eq_some.mpr ⟨next, stepped, completed⟩⟩

/-! ## Invariants -/

theorem run_invariant {machine : Machine State Action}
    {Invariant : State → Prop}
    (preserved : ∀ {state action next}, Invariant state →
      machine.step state action = some next → Invariant next) :
    ∀ {actions : List Action} {initial final : State}, Invariant initial →
      machine.run initial actions = some final → Invariant final
  | [], _, _, holds, completed => by
      cases completed
      exact holds
  | _ :: _, _, _, holds, completed => by
      rcases run_cons_eq_some.mp completed with ⟨next, stepped, later⟩
      exact run_invariant preserved (preserved holds stepped) later

/-- Every step that the run takes meets `Condition` in the state before it. -/
def EveryStep (machine : Machine State Action)
    (Condition : State → Action → Prop) (state : State) : List Action → Prop
  | [] => True
  | action :: rest =>
      Condition state action ∧ ∀ next, machine.step state action = some next →
        machine.EveryStep Condition next rest

instance decidableEveryStep (machine : Machine State Action)
    (Condition : State → Action → Prop)
    [∀ state action, Decidable (Condition state action)] :
    ∀ state actions, Decidable (machine.EveryStep Condition state actions)
  | _, [] => .isTrue trivial
  | state, action :: rest =>
      match stepped : machine.step state action with
      | none =>
          decidable_of_iff (Condition state action)
            ⟨fun met => ⟨met, fun next taken => by
                rw [stepped] at taken
                cases taken⟩,
              fun met => met.1⟩
      | some middle =>
          have := decidableEveryStep machine Condition middle rest
          decidable_of_iff (Condition state action ∧
              machine.EveryStep Condition middle rest)
            ⟨fun met => ⟨met.1, fun next taken => by
                rw [stepped] at taken
                cases taken
                exact met.2⟩,
              fun met => ⟨met.1, met.2 middle stepped⟩⟩

theorem everyStep_iff {machine : Machine State Action}
    {Condition : State → Action → Prop} {initial : State}
    {actions : List Action} :
    machine.EveryStep Condition initial actions ↔
      ∀ earlier action later state, actions = earlier ++ action :: later →
        machine.run initial earlier = some state → Condition state action := by
  induction actions generalizing initial with
  | nil => simp [EveryStep]
  | cons first rest induction =>
      simp only [EveryStep, induction]
      constructor
      · intro met earlier action later state split reached
        cases earlier with
        | nil =>
            cases split
            cases reached
            exact met.1
        | cons head tail =>
            rw [List.cons_append, List.cons.injEq] at split
            rcases split with ⟨rfl, split⟩
            rcases run_cons_eq_some.mp reached with ⟨next, stepped, onward⟩
            exact met.2 next stepped tail action later state split onward
      · intro met
        refine ⟨met [] first rest initial rfl rfl, ?_⟩
        intro next stepped earlier action later state split reached
        apply met (first :: earlier) action later state
        · rw [split]
          rfl
        · exact run_cons_eq_some.mpr ⟨next, stepped, reached⟩

theorem run_invariant_of_everyStep {machine : Machine State Action}
    {Condition : State → Action → Prop} {Invariant : State → Prop}
    (preserved : ∀ {state action next}, Invariant state →
      Condition state action → machine.step state action = some next →
      Invariant next) :
    ∀ {actions : List Action} {initial final : State}, Invariant initial →
      machine.EveryStep Condition initial actions →
      machine.run initial actions = some final → Invariant final
  | [], _, _, holds, _, completed => by
      cases completed
      exact holds
  | _ :: _, _, _, holds, met, completed => by
      rcases run_cons_eq_some.mp completed with ⟨next, stepped, later⟩
      exact run_invariant_of_everyStep preserved
        (preserved holds met.1 stepped) (met.2 next stepped) later

theorem run_history {machine : Machine State Action} {initial : State}
    {Invariant : List Action → State → Prop} (starts : Invariant [] initial)
    (preserved : ∀ {past state action next},
      machine.run initial past = some state → Invariant past state →
      machine.step state action = some next →
      Invariant (past ++ [action]) next)
    {actions : List Action} {final : State}
    (completed : machine.run initial actions = some final) :
    Invariant actions final := by
  induction actions using List.reverseRecOn generalizing final with
  | nil =>
      cases completed
      exact starts
  | append_singleton past action induction =>
      rcases run_concat_eq_some.mp completed with ⟨middle, reached, stepped⟩
      exact preserved reached (induction reached) stepped

end Machine

/-! ## Projections

A machine with more detail projects onto a smaller one when each of its steps
is seen there as one step or as nothing at all. -/

structure Projection {Concrete : Type u} {Abstract : Type v}
    {ConcreteAction : Type w} {AbstractAction : Type x}
    (concrete : Machine Concrete ConcreteAction)
    (abstract : Machine Abstract AbstractAction) where
  view : Concrete → Abstract
  explained : ∀ {state action next},
    concrete.step state action = some next →
      view next = view state ∨
        ∃ seen, abstract.step (view state) seen = some (view next)

theorem Projection.preserved {Concrete : Type u} {Abstract : Type v}
    {ConcreteAction : Type w} {AbstractAction : Type x}
    {concrete : Machine Concrete ConcreteAction}
    {abstract : Machine Abstract AbstractAction}
    (projection : Projection concrete abstract) {Invariant : Abstract → Prop}
    (preserved : ∀ {state action next}, Invariant state →
      abstract.step state action = some next → Invariant next)
    {state next : Concrete} {action : ConcreteAction}
    (holds : Invariant (projection.view state))
    (stepped : concrete.step state action = some next) :
    Invariant (projection.view next) := by
  rcases projection.explained stepped with same | ⟨seen, step⟩
  · rw [same]
    exact holds
  · exact preserved holds step

/-! ## Simulations

A machine simulates another one when each step of that is matched by some
steps of its own. -/

theorem Machine.run_single {State : Type u} {Action : Type v}
    {machine : Machine State Action} {state next : State} {action : Action}
    (stepped : machine.step state action = some next) :
    machine.run state [action] = some next :=
  run_cons_eq_some.mpr ⟨next, stepped, rfl⟩

theorem Machine.run_append {State : Type u} {Action : Type v}
    {machine : Machine State Action} {state middle final : State}
    {earlier later : List Action}
    (first : machine.run state earlier = some middle)
    (second : machine.run middle later = some final) :
    machine.run state (earlier ++ later) = some final := by
  induction earlier generalizing state with
  | nil =>
      cases first
      exact second
  | cons action rest induction =>
      rcases run_cons_eq_some.mp first with ⟨next, stepped, reached⟩
      exact run_cons_eq_some.mpr ⟨next, stepped, induction reached⟩

theorem Machine.run_simulated {Concrete : Type u} {Abstract : Type v}
    {ConcreteAction : Type w} {AbstractAction : Type x}
    {concrete : Machine Concrete ConcreteAction}
    {abstract : Machine Abstract AbstractAction}
    {Related : Concrete → Abstract → Prop}
    (simulates : ∀ {state seen action next}, Related state seen →
      concrete.step state action = some next →
      ∃ matching after, abstract.run seen matching = some after ∧
        Related next after)
    {actions : List ConcreteAction} {initial final : Concrete}
    {seen : Abstract} (related : Related initial seen)
    (completed : concrete.run initial actions = some final) :
    ∃ matching after, abstract.run seen matching = some after ∧
      Related final after := by
  induction actions generalizing initial seen with
  | nil =>
      cases completed
      exact ⟨[], seen, rfl, related⟩
  | cons action rest induction =>
      rcases run_cons_eq_some.mp completed with ⟨next, stepped, later⟩
      rcases simulates related stepped with ⟨first, middle, moved, now⟩
      rcases induction now later with ⟨second, after, followed, holds⟩
      exact ⟨first ++ second, after, run_append moved followed, holds⟩

end PasswordProfile.Execution
