import Mathlib.Data.Fintype.Basic
import Mathlib.Logic.Relation
import PasswordProfile.Foundation.Execution

/-! # Transactions that lock resources

Every transaction takes the locks of its body in program order, waits for a
lock that another one holds, and releases all of them at its end. Resources may
share a lock.
-/

namespace PasswordProfile.LockTable

open Execution

/-! ## Cycles -/

/-- No cycle of waits when every wait that is followed by two more leads to a
later node. -/
theorem not_transGen_self {Node : Type u} {waits before : Node → Node → Prop}
    (rises : ∀ {first second third fourth}, waits first second →
      waits second third → waits third fourth → before first second)
    (transitive : ∀ {first second third}, before first second →
      before second third → before first third)
    (irreflexive : ∀ node, ¬before node node) (node : Node) :
    ¬Relation.TransGen waits node node := by
  have follows : ∀ {start last}, Relation.TransGen waits start last →
      ∀ third fourth, waits last third → waits third fourth →
        before start last := by
    intro start last path
    induction path with
    | single edge =>
        intro third fourth next later
        exact rises edge next later
    | tail path edge induction =>
        intro third fourth next later
        exact transitive (induction _ _ edge next) (rises edge next later)
  intro cycle
  rcases Relation.TransGen.head'_iff.mp cycle with ⟨second, first, rest⟩
  rcases Relation.ReflTransGen.cases_head rest with same | ⟨third, next, _⟩
  · subst same
    exact irreflexive _ (follows cycle _ _ first first)
  · exact irreflexive _ (follows cycle _ _ first next)

/-! ## The machine -/

/-- What the transactions do: `locks` in program order, and `lockOf` the lock
that stands for a resource. -/
structure Protocol (Body : Type u) (Resource : Type v) (Lock : Type w) where
  locks : Body → List Resource
  lockOf : Resource → Lock

structure Progress (Body : Type u) where
  body : Body
  taken : Nat
  deriving DecidableEq, Repr

/-- At most `size` transactions at a time. -/
abbrev World (size : Nat) (Body : Type u) := Fin size → Option (Progress Body)

inductive Action (size : Nat) (Body : Type u)
  | begin (id : Fin size) (body : Body)
  | acquire (id : Fin size)
  | finish (id : Fin size)

namespace Protocol

variable {Body : Type u} {Resource : Type v} {Lock : Type w}
  (protocol : Protocol Body Resource Lock)

def held (progress : Progress Body) : List Resource :=
  (protocol.locks progress.body).take progress.taken

def next (progress : Progress Body) : Option Resource :=
  (protocol.locks progress.body)[progress.taken]?

def Free {size : Nat} (world : World size Body) (id : Fin size)
    (resource : Resource) : Prop :=
  ∀ other, other ≠ id → ∀ progress ∈ world other,
    ∀ taken ∈ protocol.held progress,
      protocol.lockOf taken ≠ protocol.lockOf resource

instance [DecidableEq Lock] {size : Nat} (world : World size Body)
    (id : Fin size) (resource : Resource) :
    Decidable (protocol.Free world id resource) :=
  inferInstanceAs (Decidable (∀ other, other ≠ id →
    ∀ progress ∈ world other, ∀ taken ∈ protocol.held progress,
      protocol.lockOf taken ≠ protocol.lockOf resource))

/-- A transaction ends at any moment: it commits, or an error or a timeout
aborts it. -/
def machine [DecidableEq Lock] (admits : Body → Bool) (size : Nat) :
    Machine (World size Body) (Action size Body) where
  step world
    | .begin id body =>
        if admits body && (world id).isNone then
          some (Function.update world id (some ⟨body, 0⟩))
        else none
    | .acquire id =>
        match world id with
        | none => none
        | some progress =>
            match protocol.next progress with
            | none => none
            | some resource =>
                if protocol.Free world id resource then
                  some (Function.update world id
                    (some ⟨progress.body, progress.taken + 1⟩))
                else none
    | .finish id =>
        if (world id).isSome then some (Function.update world id none) else none

/-- The next lock of `waiter` is held by `holder`. -/
def BlockedBy {size : Nat} (world : World size Body)
    (waiter holder : Fin size) : Prop :=
  waiter ≠ holder ∧ ∃ progress other resource taken,
    world waiter = some progress ∧ world holder = some other ∧
    protocol.next progress = some resource ∧ taken ∈ protocol.held other ∧
    protocol.lockOf taken = protocol.lockOf resource

/-- Everything a step can do. -/
theorem step_cases [DecidableEq Lock] {admits : Body → Bool} {size : Nat}
    {world after : World size Body} {action : Action size Body}
    (stepped : (protocol.machine admits size).step world action =
      some after) :
    (∃ id body, action = .begin id body ∧ admits body = true ∧
        after = Function.update world id (some ⟨body, 0⟩)) ∨
      (∃ id progress resource, action = .acquire id ∧
        world id = some progress ∧ protocol.next progress = some resource ∧
        protocol.Free world id resource ∧
        after = Function.update world id
          (some ⟨progress.body, progress.taken + 1⟩)) ∨
      (∃ id, action = .finish id ∧ after = Function.update world id none) := by
  cases action with
  | begin id body =>
      simp only [machine, Option.ite_none_right_eq_some, Bool.and_eq_true,
        Option.some.injEq] at stepped
      exact .inl ⟨id, body, rfl, stepped.1.1, stepped.2.symm⟩
  | acquire id =>
      simp only [machine] at stepped
      cases running : world id with
      | none => simp [running] at stepped
      | some progress =>
          cases wanted : protocol.next progress with
          | none => simp [running, wanted] at stepped
          | some resource =>
              simp only [running, wanted, Option.ite_none_right_eq_some,
                Option.some.injEq] at stepped
              exact .inr (.inl ⟨id, progress, resource, rfl, running, wanted,
                stepped.1, stepped.2.symm⟩)
  | finish id =>
      simp only [machine, Option.ite_none_right_eq_some,
        Option.some.injEq] at stepped
      exact .inr (.inr ⟨id, rfl, stepped.2.symm⟩)

/-! ## Exclusive locks -/

variable {protocol}

theorem held_succ {progress : Progress Body} {resource : Resource}
    (wanted : protocol.next progress = some resource) :
    protocol.held ⟨progress.body, progress.taken + 1⟩ =
      protocol.held progress ++ [resource] := by
  rw [held, held, List.take_add_one]
  exact congrArg _ (congrArg Option.toList wanted)

theorem held_before_next {progress : Progress Body}
    {before : Resource → Resource → Prop} {taken resource : Resource}
    (ordered : (protocol.locks progress.body).Pairwise before)
    (holds : taken ∈ protocol.held progress)
    (wanted : protocol.next progress = some resource) :
    before taken resource := by
  rw [← List.take_append_drop progress.taken (protocol.locks progress.body),
    List.pairwise_append] at ordered
  apply ordered.2.2 taken holds resource
  have head : ((protocol.locks progress.body).drop progress.taken)[0]? =
      some resource := by
    rw [List.getElem?_drop, Nat.add_zero]
    exact wanted
  exact List.mem_of_getElem? head

theorem two_le_locks {progress : Progress Body} {taken resource : Resource}
    (holds : taken ∈ protocol.held progress)
    (wanted : protocol.next progress = some resource) :
    1 ≤ progress.taken ∧
      progress.taken < (protocol.locks progress.body).length := by
  refine ⟨?_, (List.getElem?_eq_some_iff.mp wanted).1⟩
  by_contra none
  rw [held, Nat.lt_one_iff.mp (Nat.lt_of_not_le none)] at holds
  simp at holds

structure Exclusive (protocol : Protocol Body Resource Lock)
    (admits : Body → Bool) {size : Nat} (world : World size Body) : Prop where
  admitted : ∀ id progress, world id = some progress →
    admits progress.body = true
  apart : ∀ id progress other otherProgress, world id = some progress →
    world other = some otherProgress → id ≠ other →
    ∀ mine ∈ protocol.held progress, ∀ theirs ∈ protocol.held otherProgress,
      protocol.lockOf mine ≠ protocol.lockOf theirs

theorem exclusive_empty (admits : Body → Bool) (size : Nat) :
    protocol.Exclusive admits (fun _ : Fin size => none) where
  admitted _ _ running := by cases running
  apart _ _ _ _ running := by cases running

theorem Exclusive.update {admits : Body → Bool} {size : Nat}
    {world : World size Body} (exclusive : protocol.Exclusive admits world)
    (id : Fin size) {replacement : Option (Progress Body)}
    (admitted : ∀ progress, replacement = some progress →
      admits progress.body = true)
    (alone : ∀ progress, replacement = some progress →
      ∀ other, other ≠ id → ∀ otherProgress, world other = some otherProgress →
        ∀ mine ∈ protocol.held progress,
          ∀ theirs ∈ protocol.held otherProgress,
            protocol.lockOf mine ≠ protocol.lockOf theirs) :
    protocol.Exclusive admits (Function.update world id replacement) := by
  refine ⟨fun some progress running => ?_,
    fun left leftProgress right rightProgress leftRuns rightRuns different
      mine mineHeld theirs theirsHeld => ?_⟩
  · by_cases here : some = id
    · rw [here, Function.update_self] at running
      exact admitted progress running
    · rw [Function.update_of_ne here] at running
      exact exclusive.admitted some progress running
  · by_cases leftHere : left = id
    · rw [leftHere, Function.update_self] at leftRuns
      have rightElse : right ≠ id := fun same =>
        different (leftHere.trans same.symm)
      rw [Function.update_of_ne rightElse] at rightRuns
      exact alone leftProgress leftRuns right rightElse rightProgress rightRuns
        mine mineHeld theirs theirsHeld
    · rw [Function.update_of_ne leftHere] at leftRuns
      by_cases rightHere : right = id
      · rw [rightHere, Function.update_self] at rightRuns
        exact (alone rightProgress rightRuns left leftHere leftProgress leftRuns
          theirs theirsHeld mine mineHeld).symm
      · rw [Function.update_of_ne rightHere] at rightRuns
        exact exclusive.apart left leftProgress right rightProgress leftRuns
          rightRuns different mine mineHeld theirs theirsHeld

theorem Exclusive.step [DecidableEq Lock] {admits : Body → Bool} {size : Nat}
    {world after : World size Body} {action : Action size Body}
    (exclusive : protocol.Exclusive admits world)
    (stepped : (protocol.machine admits size).step world action =
      some after) : protocol.Exclusive admits after := by
  rcases protocol.step_cases stepped with ⟨id, body, _, admitted, rfl⟩ |
    ⟨id, progress, resource, _, running, wanted, free, rfl⟩ | ⟨id, _, rfl⟩
  · apply exclusive.update id
    · intro progress same
      cases same
      exact admitted
    · intro progress same other _ otherProgress _ mine mineHeld
      cases same
      simp [held] at mineHeld
  · apply exclusive.update id
    · intro advanced same
      cases same
      exact exclusive.admitted id progress running
    · intro advanced same other different otherProgress otherRuns mine mineHeld
        theirs theirsHeld
      cases same
      rw [held_succ wanted, List.mem_append, List.mem_singleton] at mineHeld
      rcases mineHeld with before | rfl
      · exact exclusive.apart id progress other otherProgress running otherRuns
          different.symm mine before theirs theirsHeld
      · exact (free other different otherProgress otherRuns theirs
          theirsHeld).symm
  · apply exclusive.update id
    · intro progress same
      cases same
    · intro progress same
      cases same

end Protocol

end PasswordProfile.LockTable
