import PasswordProfile.AuthEvent.Enqueue
import PasswordProfile.Worker.Replay

/-! # Ring and journal in step

The worker is driven by the journal; the ring only mirrors it. A record that is
committed must leave the ring with the same commit, or the tail would stay
unmatched for ever.
-/

namespace PasswordProfile.Worker.RingReplay

open AuthEvent AuthEventRing Execution Replay

/-- `token` is the acknowledgement staged in the worker's open transaction. -/
structure Node where
  world : World
  ring : AuthEventRing
  token : Option ClaimToken

def Node.initial : Node where
  world := World.initial
  ring := AuthEventRing.new
  token := none

inductive Action
  | enqueue (offer : Offer)
  | appendFailed (offer : Offer)
  | worker (action : Replay.Action)
  | markCorrupt
  | sharedMemoryLoss
  | recoverCorruptRing

namespace Node

def enqueue (node : Node) (offer : Offer) : Option Node :=
  if node.ring.nextSeq = u64Max then none
  else
    (node.world.append (offer.event 0)).map fun world =>
      { node with world, ring := (node.ring.enqueueEncodedWithId offer true).1 }

/-- The worker takes the matching claim right before its transaction, on a ring
it has found not to be corrupt. -/
def beginTransaction (node : Node) : Option Node :=
  match node.world.worker with
  | .pending _ event =>
      if node.ring.queueState = .corrupt then none
      else node.world.beginTransaction.map fun world =>
        { node with world, token := node.ring.matchingClaim event.eventId }
  | _ => none

def commitTransaction (node : Node) : Option Node :=
  node.world.commitTransaction.map fun world =>
    { world
      ring :=
        match node.token with
        | some token => (node.ring.ackClaim token).1
        | none => node.ring
      token := none }

def workerStep (node : Node) : Replay.Action → Option Node
  | .append _ => none
  | .beginTransaction => node.beginTransaction
  | .commitTransaction => node.commitTransaction
  | action => (node.world.step action).map fun world =>
      { node with world, token := none }

def step (node : Node) : Action → Option Node
  | .enqueue offer => node.enqueue offer
  | .appendFailed offer =>
      some { node with ring := (node.ring.enqueueEncodedWithId offer false).1 }
  | .worker action => node.workerStep action
  | .markCorrupt =>
      match node.world.worker with
      | .inTransaction _ _ _ => none
      | _ => some
          { world := { node.world with worker := .idle }
            ring := node.ring.degradeTo .corrupt
            token := none }
  | .sharedMemoryLoss => some
      { world := { node.world with worker := .idle }
        ring := AuthEventRing.new
        token := none }
  | .recoverCorruptRing =>
      some { node with ring := node.ring.recoverCorruptRing true }

end Node

def machine : Machine Node Action := ⟨Node.step⟩

/-! ## The journal below -/

theorem workerStep_cases {node next : Node} {action : Replay.Action}
    (stepped : node.workerStep action = some next) :
    (action = .beginTransaction ∧ node.beginTransaction = some next) ∨
      (action = .commitTransaction ∧ node.commitTransaction = some next) ∨
      ∃ world, node.world.step action = some world ∧
        next = ⟨world, node.ring, none⟩ ∧ action ≠ .beginTransaction ∧
        action ≠ .commitTransaction ∧ ∀ event, action ≠ .append event := by
  cases action with
  | append event => cases stepped
  | beginTransaction => exact .inl ⟨rfl, stepped⟩
  | commitTransaction => exact .inr (.inl ⟨rfl, stepped⟩)
  | crash =>
      cases stepped
      exact .inr (.inr ⟨_, rfl, rfl, by simp⟩)
  | rotate | openReader | nextEvent | abortTransaction | dropReader
  | removeProcessing removal | deleteReceipts succeeds =>
      rcases Option.map_eq_some_iff.mp stepped with ⟨world, moved, rfl⟩
      exact .inr (.inr ⟨world, moved, rfl, by simp⟩)

theorem beginTransaction_cases {node next : Node}
    (stepped : node.beginTransaction = some next) :
    ∃ batch event, node.world.worker = .pending batch event ∧
      node.ring.queueState ≠ .corrupt ∧
      node.world.beginTransaction = some next.world ∧
      next.ring = node.ring ∧
      next.token = node.ring.matchingClaim event.eventId := by
  unfold Node.beginTransaction at stepped
  split at stepped
  · next batch event worker =>
      split at stepped
      · cases stepped
      · next healthy =>
          rcases Option.map_eq_some_iff.mp stepped with ⟨world, begun, rfl⟩
          exact ⟨batch, event, worker, healthy, begun, rfl, rfl⟩
  · cases stepped

def onReplay : Projection machine Replay.machine where
  view := Node.world
  explained := by
    intro node action next stepped
    cases action with
    | enqueue offer =>
        simp only [machine, Node.step, Node.enqueue] at stepped
        split at stepped
        · cases stepped
        · rcases Option.map_eq_some_iff.mp stepped with ⟨world, appended, rfl⟩
          exact .inr ⟨.append (offer.event 0), appended⟩
    | appendFailed offer =>
        cases stepped
        exact .inl rfl
    | worker action =>
        rcases workerStep_cases stepped with
          ⟨rfl, begun⟩ | ⟨rfl, done⟩ | ⟨world, moved, rfl, _⟩
        · rcases beginTransaction_cases begun with ⟨_, _, _, _, begun, _⟩
          exact .inr ⟨.beginTransaction, begun⟩
        · rcases Option.map_eq_some_iff.mp done with ⟨world, committed, rfl⟩
          exact .inr ⟨.commitTransaction, committed⟩
        · exact .inr ⟨action, moved⟩
    | markCorrupt =>
        simp only [machine, Node.step] at stepped
        split at stepped
        · cases stepped
        · cases stepped
          exact .inr ⟨.crash, rfl⟩
    | sharedMemoryLoss =>
        cases stepped
        exact .inr ⟨.crash, rfl⟩
    | recoverCorruptRing =>
        cases stepped
        exact .inl rfl

/-! ## The invariant -/

def unsequenced (event : SharedAuthEvent) : SharedAuthEvent :=
  { event with seq := 0 }

def mirrored (ring : AuthEventRing) : List SharedAuthEvent :=
  ring.contents.map unsequenced

def TokenCurrent (node : Node) : Prop :=
  ∀ batch event isNew, node.world.worker = .inTransaction batch event isNew →
    node.token = node.ring.matchingClaim event.eventId ∧
      node.ring.queueState ≠ .corrupt

structure InStep (node : Node) : Prop where
  consistent : Consistent node.world
  formed : node.ring.WellFormed
  subsequence : (mirrored node.ring).Sublist node.world.uncommitted
  token : TokenCurrent node

theorem inStep_initial : InStep Node.initial where
  consistent := consistent_initial
  formed := wellFormed_new
  subsequence := List.Sublist.slnil
  token := by
    intro batch event isNew worker
    cases worker

section

variable {node next : Node}

theorem InStep.world (inStep : InStep node) (action : Action)
    (stepped : machine.step node action = some next) : Consistent next.world :=
  onReplay.preserved
    (fun {_} {_} {_} consistent moved => Consistent.step consistent moved)
    inStep.consistent stepped

theorem uncommitted_congr {world other : World} (before : Consistent world)
    (after : Consistent other) (appended : other.appended = world.appended)
    (applied : other.applied = world.applied) :
    other.uncommitted = world.uncommitted := by
  have left := after.appended_eq
  rw [appended, applied, before.appended_eq] at left
  exact (List.append_cancel_left left).symm

theorem matchingClaim_none {ring : AuthEventRing} (formed : ring.WellFormed)
    {eventId : EventId}
    (missing : ∀ event ∈ mirrored ring, event.eventId ≠ eventId) :
    ring.matchingClaim eventId = none := by
  rw [matchingClaim_eq formed]
  cases contents : ring.contents with
  | nil => rfl
  | cons event rest =>
      have different : event.eventId ≠ eventId :=
        missing (unsequenced event) (by simp [mirrored, contents])
      simp [different]

theorem inTransaction_appended {world : World} (consistent : Consistent world)
    {batch : Batch} {event : SharedAuthEvent} {isNew : Bool}
    (worker : world.worker = .inTransaction batch event isNew) :
    event ∈ world.appended := by
  rw [consistent.appended_eq]
  rcases consistent.transaction worker with
    ⟨_, applied⟩ | ⟨_, rest, first⟩
  · exact List.mem_append_left _ applied
  · rw [first]
    simp

theorem InStep.enqueue (inStep : InStep node) {offer : Offer}
    (stepped : node.step (.enqueue offer) = some next) : InStep next := by
  have consistent := inStep.world (.enqueue offer) stepped
  simp only [Node.step, Node.enqueue] at stepped
  split at stepped
  · cases stepped
  next available =>
  rcases Option.map_eq_some_iff.mp stepped with ⟨world, appended, rfl⟩
  have fresh : (offer.event 0).eventId ∉
      node.world.appended.map SharedAuthEvent.eventId := by
    intro member
    rw [World.append, if_pos member] at appended
    cases appended
  rw [World.append, if_neg fresh] at appended
  cases appended
  have extended : World.uncommitted { node.world with
      active := node.world.active ++ [offer.event 0]
      appended := node.world.appended ++ [offer.event 0] } =
      node.world.uncommitted ++ [offer.event 0] := by
    have whole := consistent.appended_eq
    simp only at whole
    rw [inStep.consistent.appended_eq, List.append_assoc] at whole
    exact (List.append_cancel_left whole).symm
  refine ⟨consistent, wellFormed_enqueue inStep.formed offer, ?_, ?_⟩
  · rw [extended]
    rcases enqueue_cases inStep.formed offer with
      ⟨same, _⟩ | ⟨_, _, _, queued⟩
    · rw [mirrored, same.contents]
      exact inStep.subsequence.trans (List.sublist_append_left _ _)
    · rw [mirrored, queued, List.map_append]
      exact inStep.subsequence.append (List.Sublist.refl _)
  · intro batch event isNew worker
    rcases inStep.token batch event isNew worker with ⟨current, healthy⟩
    have other : event.eventId ≠ offer.eventId := fun same =>
      fresh (List.mem_map.mpr
        ⟨event, inTransaction_appended inStep.consistent worker, same⟩)
    change node.token = _ ∧ _
    rw [current, matchingClaim_eq inStep.formed,
      matchingClaim_eq (wellFormed_enqueue inStep.formed offer)]
    rcases enqueue_cases inStep.formed offer with
      ⟨same, corrupt⟩ | ⟨_, stillHealthy, tail, queued⟩
    · rw [same.contents, same.tail]
      refine ⟨rfl, fun isCorrupt => ?_⟩
      rcases corrupt isCorrupt with before | exhausted
      · exact healthy before
      · exact available exhausted
    · refine ⟨?_, stillHealthy⟩
      rw [queued, tail]
      cases contents : node.ring.contents with
      | nil => simp [Offer.event, other.symm]
      | cons oldest rest => rfl

theorem InStep.quiet (inStep : InStep node) {world : World}
    {ring : AuthEventRing} (consistent : Consistent world)
    (formed : ring.WellFormed) (contents : ring.contents = node.ring.contents)
    (appended : world.appended = node.world.appended)
    (applied : world.applied = node.world.applied) {token : Option ClaimToken}
    (current : TokenCurrent ⟨world, ring, token⟩) :
    InStep ⟨world, ring, token⟩ := by
  refine ⟨consistent, formed, ?_, current⟩
  rw [mirrored, contents,
    uncommitted_congr inStep.consistent consistent appended applied]
  exact inStep.subsequence

theorem inStep_reset {world : World} (consistent : Consistent world)
    (outside : ∀ batch event isNew,
      world.worker ≠ .inTransaction batch event isNew)
    (token : Option ClaimToken) :
    InStep ⟨world, AuthEventRing.new, token⟩ := by
  have empty : mirrored AuthEventRing.new = [] := rfl
  refine ⟨consistent, wellFormed_new, ?_, ?_⟩
  · rw [empty]
    exact List.nil_sublist _
  intro batch event isNew worker
  exact absurd worker (outside batch event isNew)

theorem commitTransaction_uncommitted {world next : World}
    (before : Consistent world) (after : Consistent next)
    {event : SharedAuthEvent} {rest : List SharedAuthEvent}
    (first : world.uncommitted = event :: rest)
    (appended : next.appended = world.appended)
    (applied : next.applied = world.applied ++ [event]) :
    next.uncommitted = rest := by
  have whole := after.appended_eq
  rw [appended, applied, before.appended_eq, first, List.append_assoc] at whole
  exact (List.cons.inj (List.append_cancel_left whole)).2.symm

theorem mirrored_rest {ring : AuthEventRing} (formed : ring.WellFormed)
    {event : SharedAuthEvent} {rest : List SharedAuthEvent}
    (subsequence : (mirrored ring).Sublist (event :: rest))
    (unclaimed : ring.matchingClaim event.eventId = none) :
    (mirrored ring).Sublist rest := by
  rcases List.sublist_cons_iff.mp subsequence with inside | ⟨later, first, _⟩
  · exact inside
  · exfalso
    rw [matchingClaim_eq formed] at unclaimed
    cases contents : ring.contents with
    | nil =>
        rw [mirrored, contents] at first
        cases first
    | cons oldest others =>
        rw [mirrored, contents, List.map_cons, List.cons.injEq] at first
        have same : oldest.eventId = event.eventId := by
          rw [← first.1]
          rfl
        simp [contents, same] at unclaimed

theorem InStep.applied_unclaimed (inStep : InStep node)
    {event : SharedAuthEvent} (applied : event ∈ node.world.applied) :
    node.ring.matchingClaim event.eventId = none := by
  apply matchingClaim_none inStep.formed
  intro other member same
  have distinct := inStep.consistent.distinct
  rw [inStep.consistent.appended_eq, List.map_append,
    List.nodup_append] at distinct
  exact distinct.2.2 _ (List.mem_map_of_mem applied) _
    (List.mem_map_of_mem (inStep.subsequence.subset member)) same.symm

theorem InStep.commitTransaction (inStep : InStep node)
    (stepped : node.commitTransaction = some next) :
    InStep next ∧ next.ring.queueState ≠ .corrupt ∧
      ∀ token ∈ node.token, (node.ring.ackClaim token).2 = .acknowledged := by
  have consistent := inStep.world (.worker .commitTransaction) stepped
  rcases Option.map_eq_some_iff.mp stepped with ⟨world, committed, rfl⟩
  rcases commitTransaction_cases committed with
    ⟨batch, event, isNew, worker, reading, appended, applied⟩
  rcases inStep.token batch event isNew worker with ⟨current, healthy⟩
  have outside : ∀ ring, TokenCurrent ⟨world, ring, none⟩ := by
    intro ring batch event isNew worker
    rw [show world.worker = _ from reading] at worker
    cases worker
  rcases inStep.consistent.transaction worker with
    ⟨rfl, old⟩ | ⟨rfl, rest, first⟩
  · rw [inStep.applied_unclaimed old] at current
    simp only [current]
    exact ⟨inStep.quiet consistent inStep.formed rfl appended applied
      (outside _), healthy, by simp⟩
  · have remaining := commitTransaction_uncommitted inStep.consistent
      consistent first appended applied
    have subsequence := inStep.subsequence
    rw [first] at subsequence
    cases claimed : node.token with
    | none =>
        rw [claimed] at current
        refine ⟨⟨consistent, inStep.formed, ?_, outside _⟩, healthy, by simp⟩
        rw [remaining]
        exact mirrored_rest inStep.formed subsequence current.symm
    | some token =>
        rw [claimed] at current
        rcases ackClaim_matching inStep.formed current.symm with
          ⟨oldest, others, contents, _, acked, popped, formed⟩
        simp only [acked]
        refine ⟨⟨consistent, formed, ?_, outside _⟩,
          pop_not_corrupt healthy, ?_⟩
        · rw [remaining, mirrored, popped]
          rw [mirrored, contents, List.map_cons] at subsequence
          exact subsequence.of_cons_cons
        · intro other same
          cases same
          rw [acked]

theorem InStep.workerStep (inStep : InStep node) {action : Replay.Action}
    (stepped : node.workerStep action = some next) : InStep next := by
  have consistent := inStep.world (.worker action) stepped
  rcases workerStep_cases stepped with
    ⟨rfl, begun⟩ | ⟨rfl, done⟩ |
    ⟨world, moved, rfl, notBegin, notCommit, notAppend⟩
  · rcases beginTransaction_cases begun with
      ⟨batch, event, worker, healthy, opened, ring, token⟩
    rcases next with ⟨world, nextRing, nextToken⟩
    simp only at opened ring token
    subst ring token
    have opening : node.world.step .beginTransaction = some world := opened
    have histories := step_frame opening (by simp) (by simp)
    refine inStep.quiet consistent inStep.formed rfl histories.1
      histories.2.1 ?_
    intro _ _ _ inTransaction
    rw [World.beginTransaction, worker] at opened
    cases opened
    cases inTransaction
    exact ⟨rfl, healthy⟩
  · exact (inStep.commitTransaction done).1
  · have frame := step_frame moved notAppend notCommit
    apply inStep.quiet consistent inStep.formed rfl frame.1 frame.2.1
    intro batch event isNew inTransaction
    exact absurd inTransaction (frame.2.2 notBegin batch event isNew)

theorem wellFormed_appendFailed {ring : AuthEventRing}
    (formed : ring.WellFormed) (offer : Offer) :
    (ring.enqueueEncodedWithId offer false).1.WellFormed ∧
      SameQueue ring (ring.enqueueEncodedWithId offer false).1 ∧
      (ring.enqueueEncodedWithId offer false).1.queueState =
        ring.queueState := by
  have same : SameQueue ring (ring.enqueueEncodedWithId offer false).1 ∧
      (ring.enqueueEncodedWithId offer false).1.queueState =
        ring.queueState := by
    simp only [enqueueEncodedWithId, Bool.false_eq_true, if_false,
      shouldWarnNow]
    split
    · exact ⟨⟨rfl, rfl, rfl, rfl, rfl, rfl⟩, rfl⟩
    · exact ⟨⟨rfl, rfl, rfl, rfl, rfl, rfl⟩, rfl⟩
  refine ⟨same.1.wellFormed formed ?_, same⟩
  rw [same.2]
  exact formed.overflowedNonempty

theorem InStep.step (inStep : InStep node) {action : Action}
    (stepped : node.step action = some next) : InStep next := by
  have consistent := inStep.world action stepped
  cases action with
  | enqueue offer => exact inStep.enqueue stepped
  | appendFailed offer =>
      cases stepped
      rcases wellFormed_appendFailed inStep.formed offer with
        ⟨formed, same, state⟩
      apply inStep.quiet consistent formed same.contents rfl rfl
      intro batch event isNew worker
      rcases inStep.token batch event isNew worker with ⟨current, healthy⟩
      rw [matchingClaim_eq formed, same.contents, same.tail, state,
        ← matchingClaim_eq inStep.formed]
      exact ⟨current, healthy⟩
  | worker action => exact inStep.workerStep stepped
  | markCorrupt =>
      simp only [Node.step] at stepped
      split at stepped
      · cases stepped
      · cases stepped
        refine inStep.quiet consistent
          (wellFormed_degradeTo_corrupt inStep.formed)
          (sameQueue_degradeTo node.ring .corrupt).contents rfl rfl ?_
        intro batch event isNew worker
        cases worker
  | sharedMemoryLoss =>
      cases stepped
      exact inStep_reset consistent (by simp) none
  | recoverCorruptRing =>
      cases stepped
      rw [recoverCorruptRing]
      split
      · next corrupt =>
          apply inStep_reset consistent
          intro batch event isNew worker
          exact (inStep.token batch event isNew worker).2 corrupt.1
      · exact inStep

end

theorem inStep_run {actions : List Action} {node : Node}
    (completed : machine.run Node.initial actions = some node) :
    InStep node :=
  Machine.run_invariant
    (fun {state} {_} {_} (inStep : InStep state) stepped =>
      inStep.step stepped)
    inStep_initial completed

/-! ## Ring and journal stay in step -/

structure StaysInStep (node : Node) : Prop where
  subsequence : (mirrored node.ring).Sublist node.world.uncommitted
  acknowledged : ∀ next,
    node.step (.worker .commitTransaction) = some next →
      (∀ token ∈ node.token,
        (node.ring.ackClaim token).2 = .acknowledged) ∧
      next.ring.queueState ≠ .corrupt
  drained : (∀ record ∈ node.world.records ++ node.world.active,
      record ∈ node.world.applied) →
    node.ring.contents = [] ∧ node.ring.queueState ≠ .overflowed

/-- In every interleaving of producers, the worker, failures, crashes and
recoveries the ring holds copies of uncommitted records only, in order. -/
theorem run_staysInStep {actions : List Action} {node : Node}
    (completed : machine.run Node.initial actions = some node) :
    StaysInStep node := by
  have inStep := inStep_run completed
  refine ⟨inStep.subsequence, ?_, ?_⟩
  · intro next committed
    rcases inStep.commitTransaction committed with ⟨_, healthy, acked⟩
    exact ⟨acked, healthy⟩
  · intro all
    have none : node.world.uncommitted = [] := by
      rw [World.uncommitted, List.filter_eq_nil_iff]
      intro record member
      simpa using all record member
    have empty : node.ring.contents = [] := by
      have subsequence := inStep.subsequence
      rw [none, List.sublist_nil, mirrored, List.map_eq_nil_iff] at subsequence
      exact subsequence
    refine ⟨empty, fun overflowed => ?_⟩
    apply inStep.formed.overflowedNonempty overflowed
    rw [← inStep.formed.contents_length, empty]
    rfl

def offerOf (tag : UInt8) : Offer where
  eventId := Vector.replicate 16 tag
  username := encodeUsername "alice"
  timestamp := 7
  kind := eventKindFailure
  flags := 0
  generation := 0

/-- Two events, one committed; shared memory is lost, a third event arrives and
the batch is read again from its start. -/
def lostSharedMemory : List Action :=
  [.enqueue (offerOf 1), .enqueue (offerOf 2), .worker .rotate,
    .worker .openReader, .worker .nextEvent, .worker .beginTransaction,
    .worker .commitTransaction, .worker .nextEvent, .sharedMemoryLoss,
    .enqueue (offerOf 3), .worker .rotate, .worker .openReader,
    .worker .nextEvent, .worker .beginTransaction, .worker .commitTransaction,
    .worker .nextEvent, .worker .beginTransaction]

theorem lostSharedMemory_staysInStep :
    ∃ node, machine.run Node.initial lostSharedMemory = some node ∧
      mirrored node.ring = [(offerOf 3).event 0] ∧ StaysInStep node := by
  have completed : machine.run Node.initial lostSharedMemory = some _ := rfl
  exact ⟨_, rfl, by decide, run_staysInStep completed⟩

end PasswordProfile.Worker.RingReplay
