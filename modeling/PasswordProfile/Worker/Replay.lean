import PasswordProfile.AuthEvent.Event
import PasswordProfile.Foundation.Execution
import Mathlib.Data.List.Infix
import Mathlib.Data.List.Nodup

/-! # Replay of the journal

Producers append records to the active file while one worker rotates it, reads
it in order and runs one transaction for each record. Receipts, the two files
and the effects are persistent; the worker's place in them is not.
-/

namespace PasswordProfile.Worker.Replay

open AuthEvent Execution

/-- The place of a `JournalReader` in the processing file. -/
structure Batch where
  completeRecords : Nat
  readRecords : Nat
  deriving DecidableEq, Repr

/-- Where `consume_events` stands. -/
inductive Position
  | idle
  | reading (batch : Batch)
  | pending (batch : Batch) (event : SharedAuthEvent)
  | inTransaction (batch : Batch) (event : SharedAuthEvent) (isNew : Bool)
  | cleaning
  deriving DecidableEq, Repr

/-- The persistent state and the worker. `appended` and `applied` only record
what has happened. -/
structure World where
  active : List SharedAuthEvent
  processing : Option (List SharedAuthEvent)
  receipts : List EventId
  worker : Position
  appended : List SharedAuthEvent
  applied : List SharedAuthEvent
  deriving DecidableEq, Repr

def World.initial : World where
  active := []
  processing := none
  receipts := []
  worker := .idle
  appended := []
  applied := []

/-- How `remove_processing` ends. -/
inductive Removal
  | removed
  | failedBeforeUnlink
  | failedAfterUnlink
  deriving DecidableEq, Repr

inductive Action
  | append (event : SharedAuthEvent)
  | rotate
  | openReader
  | nextEvent
  | beginTransaction
  | commitTransaction
  | abortTransaction
  | dropReader
  | removeProcessing (removal : Removal)
  | deleteReceipts (succeeds : Bool)
  | crash
  deriving DecidableEq, Repr

namespace World

/-- A producer appends a record with an identifier of its own. -/
def append (world : World) (event : SharedAuthEvent) : Option World :=
  if event.eventId ∈ world.appended.map SharedAuthEvent.eventId then none
  else some { world with
    active := world.active ++ [event]
    appended := world.appended ++ [event] }

def rotate (world : World) : Option World :=
  match world.worker, world.processing with
  | .idle, some _ => some world
  | .idle, none =>
      if world.active = [] then some world
      else some { world with processing := some world.active, active := [] }
  | _, _ => none

def openReader (world : World) : Option World :=
  match world.worker, world.processing with
  | .idle, some records =>
      some { world with worker := .reading ⟨records.length, 0⟩ }
  | _, _ => none

def nextEvent (world : World) : Option World :=
  match world.worker with
  | .reading batch =>
      if batch.readRecords = batch.completeRecords then none
      else
        match (world.processing.getD [])[batch.readRecords]? with
        | some event => some { world with
            worker := .pending
              { batch with readRecords := batch.readRecords + 1 } event }
        | none => none
  | _ => none

/-- `insert_event_receipt` finds out whether the record is new. -/
def beginTransaction (world : World) : Option World :=
  match world.worker with
  | .pending batch event => some { world with
      worker := .inTransaction batch event
        (decide (event.eventId ∉ world.receipts)) }
  | _ => none

/-- The receipt and the effect become visible together; the effect of a record
that has a receipt is skipped. -/
def commitTransaction (world : World) : Option World :=
  match world.worker with
  | .inTransaction batch event isNew => some { world with
      receipts :=
        if isNew then event.eventId :: world.receipts else world.receipts
      applied := if isNew then world.applied ++ [event] else world.applied
      worker := .reading batch }
  | _ => none

def abortTransaction (world : World) : Option World :=
  match world.worker with
  | .inTransaction batch event _ =>
      some { world with worker := .pending batch event }
  | _ => none

def dropReader (world : World) : Option World :=
  match world.worker with
  | .reading _ | .pending _ _ => some { world with worker := .idle }
  | _ => none

def removeProcessing (world : World) (removal : Removal) : Option World :=
  match world.worker with
  | .reading batch =>
      if batch.readRecords = batch.completeRecords then
        match removal with
        | .removed => some { world with processing := none, worker := .cleaning }
        | .failedBeforeUnlink => some { world with worker := .idle }
        | .failedAfterUnlink =>
            some { world with processing := none, worker := .idle }
      else none
  | _ => none

def deleteReceipts (world : World) (succeeds : Bool) : Option World :=
  match world.worker with
  | .cleaning => some { world with
      receipts := if succeeds then [] else world.receipts
      worker := .idle }
  | _ => none

def step (world : World) : Action → Option World
  | .append event => world.append event
  | .rotate => world.rotate
  | .openReader => world.openReader
  | .nextEvent => world.nextEvent
  | .beginTransaction => world.beginTransaction
  | .commitTransaction => world.commitTransaction
  | .abortTransaction => world.abortTransaction
  | .dropReader => world.dropReader
  | .removeProcessing removal => world.removeProcessing removal
  | .deleteReceipts succeeds => world.deleteReceipts succeeds
  | .crash => some { world with worker := .idle }

end World

def machine : Machine World Action := ⟨World.step⟩

/-! ## The invariant -/

def World.records (world : World) : List SharedAuthEvent :=
  world.processing.getD []

/-- A record that was read: the file holds it, and no earlier record is still
waiting for its transaction. -/
def ReadAt (world : World) (done : Nat) (batch : Batch)
    (event : SharedAuthEvent) : Prop :=
  world.processing.isSome ∧ batch.completeRecords = world.records.length ∧
    ∃ index ≤ done, batch.readRecords = index + 1 ∧
      world.records[index]? = some event

def PositionAt (world : World) (done : Nat) : Position → Prop
  | .idle => True
  | .reading batch => world.processing.isSome ∧
      batch.completeRecords = world.records.length ∧ batch.readRecords ≤ done
  | .pending batch event => ReadAt world done batch event
  | .inTransaction batch event isNew => ReadAt world done batch event ∧
      isNew = decide (event.eventId ∉ world.receipts)
  | .cleaning => world.processing = none

/-- The journal is the removed records, then the processing file and then the
active one; applied are the removed records and the first `done` of the
processing file. -/
structure Explained (world : World) (removed : List SharedAuthEvent)
    (done : Nat) : Prop where
  distinct : (world.appended.map SharedAuthEvent.eventId).Nodup
  appended : world.appended = removed ++ (world.records ++ world.active)
  applied : world.applied = removed ++ world.records.take done
  inside : done ≤ world.records.length
  receiptsApplied : ∀ id ∈ world.receipts,
    id ∈ world.applied.map SharedAuthEvent.eventId
  receiptsCover : ∀ event ∈ world.records.take done,
    event.eventId ∈ world.receipts
  worker : PositionAt world done world.worker

def Consistent (world : World) : Prop :=
  ∃ removed done, Explained world removed done

theorem consistent_initial : Consistent World.initial :=
  ⟨[], 0, by constructor <;> simp [World.initial, World.records, PositionAt]⟩

section

variable {world next : World}

theorem Explained.fresh {removed : List SharedAuthEvent} {done : Nat}
    (explained : Explained world removed done) {event : SharedAuthEvent}
    (found : world.records[done]? = some event) :
    event.eventId ∉ world.applied.map SharedAuthEvent.eventId := by
  have inside := (List.getElem?_eq_some_iff.mp found).1
  have here := (List.getElem?_eq_some_iff.mp found).2
  have split : world.records =
      world.records.take done ++ event :: world.records.drop (done + 1) := by
    rw [← here, List.getElem_cons_drop, List.take_append_drop]
  have distinct := explained.distinct
  rw [explained.appended, split, List.append_assoc, ← List.append_assoc,
    List.map_append, List.nodup_append] at distinct
  rw [explained.applied]
  intro member
  exact distinct.2.2 _ member event.eventId (by simp) rfl

theorem Consistent.append (consistent : Consistent world)
    {event : SharedAuthEvent} (stepped : world.append event = some next) :
    Consistent next := by
  rcases consistent with ⟨removed, done, explained⟩
  rw [World.append] at stepped
  split at stepped
  · cases stepped
  · next fresh =>
      cases stepped
      refine ⟨removed, done, ?_, ?_, explained.applied, explained.inside,
        explained.receiptsApplied, explained.receiptsCover, explained.worker⟩
      · rw [List.map_append, List.nodup_append]
        refine ⟨explained.distinct, List.nodup_singleton _, ?_⟩
        rintro id member other here rfl
        simp only [List.map_cons, List.map_nil, List.mem_singleton] at here
        exact fresh (here ▸ member)
      · simp only [explained.appended, List.append_assoc]
        rfl

theorem Consistent.rotate (consistent : Consistent world)
    (stepped : world.rotate = some next) : Consistent next := by
  rcases world with ⟨active, processing, receipts, worker, appended, applied⟩
  cases worker with
  | idle =>
      cases processing with
      | some records =>
          cases stepped
          exact consistent
      | none =>
          rcases consistent with ⟨removed, done, explained⟩
          simp only [World.rotate] at stepped
          split at stepped
          · cases stepped
            exact ⟨removed, done, explained⟩
          · cases stepped
            have whole := explained.appended
            have taken := explained.applied
            simp only [World.records, Option.getD_none, List.take_nil,
              List.nil_append, List.append_nil] at whole taken
            refine ⟨removed, 0, explained.distinct, ?_, ?_, Nat.zero_le _,
              explained.receiptsApplied, by simp, trivial⟩
            · simpa [World.records] using whole
            · simpa using taken
  | _ => cases processing <;> cases stepped

theorem Consistent.openReader (consistent : Consistent world)
    (stepped : world.openReader = some next) : Consistent next := by
  rcases consistent with ⟨removed, done, explained⟩
  rcases world with ⟨active, processing, receipts, worker, appended, applied⟩
  cases worker with
  | idle =>
      cases processing with
      | none => cases stepped
      | some records =>
          cases stepped
          exact ⟨removed, done, explained.distinct, explained.appended,
            explained.applied, explained.inside, explained.receiptsApplied,
            explained.receiptsCover, rfl, rfl, Nat.zero_le _⟩
  | _ => cases processing <;> cases stepped

theorem Explained.move {removed : List SharedAuthEvent} {done : Nat}
    (explained : Explained world removed done) {worker : Position}
    (here : PositionAt world done worker) :
    Explained { world with worker } removed done :=
  ⟨explained.distinct, explained.appended, explained.applied,
    explained.inside, explained.receiptsApplied, explained.receiptsCover,
    by cases worker <;> exact here⟩

theorem Consistent.nextEvent (consistent : Consistent world)
    (stepped : world.nextEvent = some next) : Consistent next := by
  rcases consistent with ⟨removed, done, explained⟩
  have place := explained.worker
  unfold World.nextEvent at stepped
  cases worker : world.worker with
  | reading batch =>
      rw [worker] at stepped place
      simp only at stepped
      split at stepped
      · cases stepped
      · cases found : (world.processing.getD [])[batch.readRecords]? with
        | none =>
            rw [found] at stepped
            cases stepped
        | some event =>
            rw [found] at stepped
            cases stepped
            exact ⟨removed, done, explained.move
              ⟨place.1, place.2.1, batch.readRecords, place.2.2, rfl, found⟩⟩
  | _ =>
      rw [worker] at stepped
      cases stepped

theorem Consistent.beginTransaction (consistent : Consistent world)
    (stepped : world.beginTransaction = some next) : Consistent next := by
  rcases consistent with ⟨removed, done, explained⟩
  have place := explained.worker
  unfold World.beginTransaction at stepped
  cases worker : world.worker with
  | pending batch event =>
      rw [worker] at stepped place
      cases stepped
      exact ⟨removed, done, explained.move ⟨place, rfl⟩⟩
  | _ =>
      rw [worker] at stepped
      cases stepped

theorem Consistent.abortTransaction (consistent : Consistent world)
    (stepped : world.abortTransaction = some next) : Consistent next := by
  rcases consistent with ⟨removed, done, explained⟩
  have place := explained.worker
  unfold World.abortTransaction at stepped
  cases worker : world.worker with
  | inTransaction batch event isNew =>
      rw [worker] at stepped place
      cases stepped
      exact ⟨removed, done, explained.move place.1⟩
  | _ =>
      rw [worker] at stepped
      cases stepped

theorem Consistent.forget (consistent : Consistent world) :
    Consistent { world with worker := .idle } := by
  rcases consistent with ⟨removed, done, explained⟩
  exact ⟨removed, done, explained.move trivial⟩

theorem Consistent.dropReader (consistent : Consistent world)
    (stepped : world.dropReader = some next) : Consistent next := by
  unfold World.dropReader at stepped
  cases worker : world.worker with
  | reading batch | pending batch event =>
      rw [worker] at stepped
      cases stepped
      exact consistent.forget
  | _ =>
      rw [worker] at stepped
      cases stepped

theorem Explained.transaction {removed : List SharedAuthEvent} {done : Nat}
    (explained : Explained world removed done) {batch : Batch}
    {event : SharedAuthEvent} {isNew : Bool}
    (worker : world.worker = .inTransaction batch event isNew) :
    (isNew = false ∧ batch.readRecords ≤ done ∧
        event ∈ world.records.take done) ∨
      (isNew = true ∧ batch.readRecords = done + 1 ∧
        world.records[done]? = some event) := by
  have place := explained.worker
  rw [worker] at place
  rcases place with ⟨⟨_, _, index, behind, read, found⟩, new⟩
  rcases Nat.lt_or_eq_of_le behind with earlier | rfl
  · have member : event ∈ world.records.take done := List.mem_of_getElem?
      (by rw [List.getElem?_take, if_pos earlier]; exact found)
    have known := explained.receiptsCover event member
    exact .inl ⟨by simpa [known] using new, by omega, member⟩
  · have unknown : event.eventId ∉ world.receipts := fun member =>
      explained.fresh found (explained.receiptsApplied _ member)
    exact .inr ⟨by simpa [unknown] using new, read, found⟩

theorem Consistent.commitTransaction (consistent : Consistent world)
    (stepped : world.commitTransaction = some next) : Consistent next := by
  rcases consistent with ⟨removed, done, explained⟩
  have place := explained.worker
  unfold World.commitTransaction at stepped
  cases worker : world.worker with
  | inTransaction batch event isNew =>
      rw [worker] at stepped place
      cases stepped
      rcases place with ⟨⟨opened, complete, _⟩, _⟩
      rcases explained.transaction worker with
        ⟨rfl, read, _⟩ | ⟨rfl, read, found⟩
      · simp only [Bool.false_eq_true, if_false]
        exact ⟨removed, done, explained.move ⟨opened, complete, read⟩⟩
      · have extended : world.records.take (done + 1) =
            world.records.take done ++ [event] := by
          rw [List.take_add_one, found]
          rfl
        simp only [if_true]
        refine ⟨removed, done + 1, explained.distinct, explained.appended, ?_,
          (List.getElem?_eq_some_iff.mp found).1, ?_, ?_, opened, complete,
          Nat.le_of_eq read⟩
        · change world.applied ++ [event] =
            removed ++ world.records.take (done + 1)
          rw [extended, explained.applied, List.append_assoc]
        · intro id member
          rw [List.map_append, List.mem_append]
          rcases List.mem_cons.mp member with rfl | earlier
          · exact .inr (by simp)
          · exact .inl (explained.receiptsApplied id earlier)
        · intro other member
          change other ∈ world.records.take (done + 1) at member
          rw [extended, List.mem_append] at member
          rcases member with earlier | here
          · exact List.mem_cons_of_mem _ (explained.receiptsCover other earlier)
          · rw [List.mem_singleton.mp here]
            exact List.mem_cons_self
  | _ =>
      rw [worker] at stepped
      cases stepped

theorem Explained.complete {removed : List SharedAuthEvent} {done : Nat}
    (explained : Explained world removed done) {batch : Batch}
    (worker : world.worker = .reading batch)
    (atEnd : batch.readRecords = batch.completeRecords) :
    world.applied = removed ++ world.records := by
  have place := explained.worker
  rw [worker] at place
  have inside := explained.inside
  have all : done = world.records.length := by
    have := place.2.1
    have := place.2.2
    omega
  rw [explained.applied, all, List.take_length]

theorem Explained.unlink {removed : List SharedAuthEvent} {done : Nat}
    (explained : Explained world removed done)
    (applied : world.applied = removed ++ world.records) {worker : Position}
    (here : worker = .cleaning ∨ worker = .idle) :
    Consistent { world with processing := none, worker } := by
  refine ⟨removed ++ world.records, 0, explained.distinct, ?_, ?_,
    Nat.zero_le _, explained.receiptsApplied, by simp, ?_⟩
  · rw [List.append_assoc]
    exact explained.appended
  · simpa using applied
  · rcases here with rfl | rfl
    · rfl
    · trivial

theorem Consistent.removeProcessing (consistent : Consistent world)
    {removal : Removal} (stepped : world.removeProcessing removal = some next) :
    Consistent next := by
  rcases consistent with ⟨removed, done, explained⟩
  unfold World.removeProcessing at stepped
  cases worker : world.worker with
  | reading batch =>
      rw [worker] at stepped
      simp only at stepped
      split at stepped
      · next atEnd =>
          have applied := explained.complete worker atEnd
          cases removal with
          | removed =>
              cases stepped
              exact explained.unlink applied (.inl rfl)
          | failedBeforeUnlink =>
              cases stepped
              exact Consistent.forget ⟨removed, done, explained⟩
          | failedAfterUnlink =>
              cases stepped
              exact explained.unlink applied (.inr rfl)
      · cases stepped
  | _ =>
      rw [worker] at stepped
      cases stepped

theorem Consistent.deleteReceipts (consistent : Consistent world)
    {succeeds : Bool} (stepped : world.deleteReceipts succeeds = some next) :
    Consistent next := by
  rcases consistent with ⟨removed, done, explained⟩
  have place := explained.worker
  unfold World.deleteReceipts at stepped
  cases worker : world.worker with
  | cleaning =>
      rw [worker] at stepped place
      cases stepped
      refine ⟨removed, done, explained.distinct, explained.appended,
        explained.applied, explained.inside, ?_, ?_, trivial⟩
      · intro id member
        cases succeeds with
        | true => cases member
        | false => exact explained.receiptsApplied id member
      · intro event member
        simp only [World.records] at member
        rw [show world.processing = none from place] at member
        simp at member
  | _ =>
      rw [worker] at stepped
      cases stepped

theorem Consistent.step (consistent : Consistent world) {action : Action}
    (stepped : world.step action = some next) : Consistent next := by
  cases action with
  | append event => exact consistent.append stepped
  | rotate => exact consistent.rotate stepped
  | openReader => exact consistent.openReader stepped
  | nextEvent => exact consistent.nextEvent stepped
  | beginTransaction => exact consistent.beginTransaction stepped
  | commitTransaction => exact consistent.commitTransaction stepped
  | abortTransaction => exact consistent.abortTransaction stepped
  | dropReader => exact consistent.dropReader stepped
  | removeProcessing removal => exact consistent.removeProcessing stepped
  | deleteReceipts succeeds => exact consistent.deleteReceipts stepped
  | crash =>
      cases stepped
      exact consistent.forget

end

theorem consistent_run {actions : List Action} {world : World}
    (completed : machine.run World.initial actions = some world) :
    Consistent world :=
  Machine.run_invariant
    (fun {state} {_} {_} (consistent : Consistent state) stepped =>
      consistent.step stepped)
    consistent_initial completed

/-! ## Uncommitted records -/

/-- The records of both files whose transaction has not committed. -/
def World.uncommitted (world : World) : List SharedAuthEvent :=
  (world.records ++ world.active).filter fun record => record ∉ world.applied

section

variable {world next : World}

theorem Explained.uncommitted_eq {removed : List SharedAuthEvent} {done : Nat}
    (explained : Explained world removed done) :
    world.uncommitted = world.records.drop done ++ world.active := by
  have distinct := explained.distinct.of_map
  have whole : world.appended =
      world.applied ++ (world.records.drop done ++ world.active) := by
    rw [explained.appended, explained.applied, List.append_assoc,
      ← List.append_assoc (world.records.take done), List.take_append_drop]
  rw [whole, List.nodup_append] at distinct
  rw [World.uncommitted, ← List.take_append_drop done world.records,
    List.append_assoc, List.filter_append]
  have gone : (world.records.take done).filter
      (fun record => record ∉ world.applied) = [] := by
    rw [List.filter_eq_nil_iff]
    intro record member
    simp [explained.applied, member]
  rw [gone, List.nil_append, List.take_append_drop, List.filter_eq_self]
  intro record member
  simp only [decide_not, Bool.not_eq_true', decide_eq_false_iff_not]
  exact fun applied => distinct.2.2 record applied record member rfl

theorem Explained.appended_eq {removed : List SharedAuthEvent} {done : Nat}
    (explained : Explained world removed done) :
    world.appended = world.applied ++ world.uncommitted := by
  rw [explained.uncommitted_eq, explained.appended, explained.applied,
    List.append_assoc, ← List.append_assoc (world.records.take done),
    List.take_append_drop]

theorem Consistent.appended_eq (consistent : Consistent world) :
    world.appended = world.applied ++ world.uncommitted := by
  rcases consistent with ⟨_, _, explained⟩
  exact explained.appended_eq

theorem Consistent.distinct (consistent : Consistent world) :
    (world.appended.map SharedAuthEvent.eventId).Nodup := by
  rcases consistent with ⟨_, _, explained⟩
  exact explained.distinct

theorem Consistent.transaction (consistent : Consistent world) {batch : Batch}
    {event : SharedAuthEvent} {isNew : Bool}
    (worker : world.worker = .inTransaction batch event isNew) :
    (isNew = false ∧ event ∈ world.applied) ∨
      (isNew = true ∧ ∃ rest, world.uncommitted = event :: rest) := by
  rcases consistent with ⟨removed, done, explained⟩
  rcases explained.transaction worker with
    ⟨old, _, member⟩ | ⟨new, _, found⟩
  · refine .inl ⟨old, ?_⟩
    rw [explained.applied]
    exact List.mem_append_right _ member
  · refine .inr ⟨new, world.records.drop (done + 1) ++ world.active, ?_⟩
    have here := (List.getElem?_eq_some_iff.mp found).2
    rw [explained.uncommitted_eq, ← here, ← List.cons_append,
      List.getElem_cons_drop]

theorem commitTransaction_cases (stepped : world.commitTransaction = some next) :
    ∃ batch event isNew, world.worker = .inTransaction batch event isNew ∧
      next.worker = .reading batch ∧ next.appended = world.appended ∧
      next.applied =
        if isNew then world.applied ++ [event] else world.applied := by
  unfold World.commitTransaction at stepped
  cases worker : world.worker with
  | inTransaction batch event isNew =>
      rw [worker] at stepped
      cases stepped
      exact ⟨batch, event, isNew, rfl, rfl, rfl, rfl⟩
  | _ =>
      rw [worker] at stepped
      cases stepped

/-- Only `append` and `commitTransaction` touch the two histories, and only
`beginTransaction` opens a transaction. -/
theorem step_frame {action : Action} (stepped : world.step action = some next)
    (notAppend : ∀ event, action ≠ .append event)
    (notCommit : action ≠ .commitTransaction) :
    next.appended = world.appended ∧ next.applied = world.applied ∧
      (action ≠ .beginTransaction → ∀ batch event isNew,
        next.worker ≠ .inTransaction batch event isNew) := by
  rcases world with ⟨active, processing, receipts, worker, appended, applied⟩
  cases action with
  | append event => exact absurd rfl (notAppend event)
  | commitTransaction => exact absurd rfl notCommit
  | rotate =>
      cases worker <;> cases processing <;> try cases stepped
      · simp only [World.step, World.rotate] at stepped
        split at stepped <;> cases stepped <;> exact ⟨rfl, rfl, by simp⟩
      · exact ⟨rfl, rfl, by simp⟩
  | openReader =>
      cases worker <;> cases processing <;> cases stepped
      exact ⟨rfl, rfl, by simp⟩
  | nextEvent =>
      cases worker with
      | reading batch =>
          simp only [World.step, World.nextEvent] at stepped
          split at stepped
          · cases stepped
          · split at stepped <;> cases stepped
            exact ⟨rfl, rfl, by simp⟩
      | _ => cases stepped
  | beginTransaction | abortTransaction | dropReader
  | deleteReceipts succeeds =>
      cases worker <;> cases stepped <;> exact ⟨rfl, rfl, by simp⟩
  | removeProcessing removal =>
      cases worker with
      | reading batch =>
          simp only [World.step, World.removeProcessing] at stepped
          split at stepped
          · cases removal <;> cases stepped <;> exact ⟨rfl, rfl, by simp⟩
          · cases stepped
      | _ => cases stepped
  | crash =>
      cases stepped
      exact ⟨rfl, rfl, by simp⟩

end

/-! ## Exactly-once replay -/

/-- Effects run at most once, in append order, and the processing file is only
removed when all of its records have been applied. -/
structure ExactlyOnce (world : World) : Prop where
  atMostOnce : (world.applied.map SharedAuthEvent.eventId).Nodup
  inOrder : world.applied <+: world.appended
  removedApplied : ∀ action next, world.step action = some next →
    ∀ records, world.processing = some records → next.processing = none →
      ∀ record ∈ records, record ∈ world.applied

/-- Only `remove_processing` on a batch read to its end takes the file away. -/
theorem step_removes {world next : World} {action : Action}
    (stepped : world.step action = some next)
    (present : world.processing.isSome) (gone : next.processing = none) :
    ∃ batch, world.worker = .reading batch ∧
      batch.readRecords = batch.completeRecords := by
  have kept : next.processing ≠ world.processing := by
    intro same
    rw [← same, gone] at present
    cases present
  rcases world with ⟨active, processing, receipts, worker, appended, applied⟩
  cases action with
  | append event =>
      simp only [World.step, World.append] at stepped
      split at stepped <;> cases stepped
      exact absurd rfl kept
  | rotate =>
      cases processing with
      | none => cases present
      | some records =>
          cases worker <;> cases stepped
          exact absurd rfl kept
  | openReader =>
      cases worker <;> cases processing <;> cases stepped
      exact absurd rfl kept
  | nextEvent =>
      cases worker with
      | reading batch =>
          simp only [World.step, World.nextEvent] at stepped
          split at stepped
          · cases stepped
          · split at stepped <;> cases stepped
            exact absurd rfl kept
      | _ => cases stepped
  | beginTransaction | commitTransaction | abortTransaction | dropReader
  | deleteReceipts succeeds =>
      cases worker <;> cases stepped <;> exact absurd rfl kept
  | removeProcessing removal =>
      cases worker with
      | reading batch =>
          simp only [World.step, World.removeProcessing] at stepped
          split at stepped
          · next atEnd => exact ⟨batch, rfl, atEnd⟩
          · cases stepped
      | _ => cases stepped
  | crash =>
      cases stepped
      exact absurd rfl kept

/-- In every interleaving of producers, worker steps, failures and crashes. -/
theorem run_exactlyOnce {actions : List Action} {world : World}
    (completed : machine.run World.initial actions = some world) :
    ExactlyOnce world := by
  rcases consistent_run completed with ⟨removed, done, explained⟩
  have inOrder : world.applied <+: world.appended :=
    ⟨world.uncommitted, explained.appended_eq.symm⟩
  refine ⟨?_, inOrder, ?_⟩
  · exact (inOrder.sublist.map SharedAuthEvent.eventId).nodup
      explained.distinct
  · intro action next stepped records present gone record member
    rcases step_removes stepped (by rw [present]; rfl) gone with
      ⟨batch, reading, atEnd⟩
    rw [explained.complete reading atEnd]
    apply List.mem_append_right
    rw [World.records, present]
    exact member

def recordOf (tag : UInt8) : SharedAuthEvent :=
  { SharedAuthEvent.empty with eventId := Vector.replicate 16 tag }

/-- The first record commits, the worker crashes before the second, the batch
is read again and its removal fails after the unlink. -/
def crashedReplay : List Action :=
  [.append (recordOf 1), .append (recordOf 2), .rotate, .openReader,
    .nextEvent, .beginTransaction, .commitTransaction, .append (recordOf 3),
    .crash, .rotate, .openReader, .nextEvent, .beginTransaction,
    .commitTransaction, .nextEvent, .beginTransaction, .abortTransaction,
    .beginTransaction, .commitTransaction, .removeProcessing .failedAfterUnlink,
    .rotate, .openReader, .nextEvent, .beginTransaction, .commitTransaction,
    .removeProcessing .removed, .deleteReceipts true]

theorem crashedReplay_exactlyOnce :
    ∃ world, machine.run World.initial crashedReplay = some world ∧
      world.applied = [recordOf 1, recordOf 2, recordOf 3] ∧
      ExactlyOnce world := by
  have completed : machine.run World.initial crashedReplay = some _ := rfl
  exact ⟨_, rfl, by decide, run_exactlyOnce completed⟩

end PasswordProfile.Worker.Replay
