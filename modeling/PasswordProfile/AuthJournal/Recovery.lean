import PasswordProfile.AuthEvent.Enqueue
import PasswordProfile.AuthJournal.RoundTrip
import PasswordProfile.Foundation.Execution

/-! # Recovery of a corrupt queue

The administrator's recovery reads both files through before it resets the
ring. What it accepted is then replayed by the worker, batch by batch, while
producers go on appending.
-/

namespace PasswordProfile.AuthJournal.Recovery

open AuthEvent Execution

/-! ## Files of records that decode -/

inductive Decodes (sipHasher : SipHasher13) :
    List UInt8 → List SharedAuthEvent → Prop
  | nil : Decodes sipHasher [] []
  | cons {record : Record} {event : SharedAuthEvent} {rest : List UInt8}
      {events : List SharedAuthEvent} :
      decode sipHasher record = .ok event → Decodes sipHasher rest events →
      Decodes sipHasher (record.bytes ++ rest) (event :: events)

def completeBytes (contents : List UInt8) : List UInt8 :=
  contents.take (contents.length - contents.length % recordSize)

/-- Both files cut down to their complete records. -/
def trimmed (files : Files) : Files :=
  ⟨files.active.map completeBytes, files.processing.map completeBytes⟩

theorem completeBytes_length (contents : List UInt8) :
    (completeBytes contents).length =
      recordSize * (contents.length / recordSize) := by
  have split := Nat.div_add_mod contents.length recordSize
  rw [completeBytes, List.length_take]
  omega

theorem completeBytes_completeBytes (contents : List UInt8) :
    completeBytes (completeBytes contents) = completeBytes contents := by
  have aligned : (completeBytes contents).length % recordSize = 0 := by
    rw [completeBytes_length, Nat.mul_mod_right]
  generalize completeBytes contents = kept at aligned
  rw [completeBytes, aligned, Nat.sub_zero, List.take_length]

theorem completeBytes_of_aligned {contents : List UInt8}
    (aligned : contents.length % recordSize = 0) :
    completeBytes contents = contents := by
  rw [completeBytes, aligned, Nat.sub_zero, List.take_length]

theorem open_eq (contents : List UInt8) :
    JournalReader.open contents = (completeBytes contents,
      ⟨completeBytes contents, contents.length / recordSize, 0⟩) := by
  simp only [JournalReader.open, completeBytes]
  rw [← Nat.div_eq_sub_mod_div]

namespace Decodes

variable {sipHasher : SipHasher13}

theorem length {contents : List UInt8} {events : List SharedAuthEvent}
    (decodes : Decodes sipHasher contents events) :
    contents.length = recordSize * events.length := by
  induction decodes with
  | nil => rfl
  | @cons record event rest events _ _ induction =>
      rw [List.length_append, record.sized, induction, List.length_cons,
        Nat.mul_succ, Nat.add_comm]

theorem append {first second : List UInt8}
    {firstEvents secondEvents : List SharedAuthEvent}
    (decodesFirst : Decodes sipHasher first firstEvents)
    (decodesSecond : Decodes sipHasher second secondEvents) :
    Decodes sipHasher (first ++ second) (firstEvents ++ secondEvents) := by
  induction decodesFirst with
  | nil => exact decodesSecond
  | cons decoded _ induction =>
      rw [List.append_assoc]
      exact .cons decoded induction

theorem encoded {event : SharedAuthEvent} (storable : Storable event) :
    Decodes sipHasher (encode sipHasher event).bytes [stored event] := by
  have single := Decodes.cons (decode_encode_storable sipHasher storable) .nil
  rw [List.append_nil] at single
  exact single

theorem of_readLoop (count : Nat) : ∀ {contents : List UInt8} {read : Nat}
    {events : List SharedAuthEvent}, contents.length = recordSize * count →
    JournalReader.readLoop sipHasher (count + 1)
      ⟨contents, read + count, read⟩ = (events, .ok ()) →
    Decodes sipHasher contents events := by
  induction count with
  | zero =>
      intro contents read events length loop
      rw [Nat.mul_zero, List.length_eq_zero_iff] at length
      simp [JournalReader.readLoop, JournalReader.nextEvent] at loop
      rw [length, loop]
      exact .nil
  | succ count induction =>
      intro contents read events length loop
      have sized : (contents.take recordSize).length = recordSize := by
        rw [List.length_take, length, Nat.mul_succ]
        omega
      have dropped : (contents.drop recordSize).length =
          recordSize * count := by
        rw [List.length_drop, length, Nat.mul_succ, Nat.add_sub_cancel]
      have split : (⟨contents.take recordSize, sized⟩ : Record).bytes ++
          contents.drop recordSize = contents :=
        List.take_append_drop recordSize contents
      rw [← split, JournalReader.readLoop,
        nextEvent_record sipHasher (by omega)] at loop
      cases decoded : decode sipHasher ⟨contents.take recordSize, sized⟩ with
      | error failure =>
          rw [decoded] at loop
          cases loop
      | ok event =>
          rw [decoded] at loop
          simp only [Except.map] at loop
          rw [show read + (count + 1) = (read + 1) + count by omega] at loop
          cases later : JournalReader.readLoop sipHasher (count + 1)
              ⟨contents.drop recordSize, (read + 1) + count, read + 1⟩ with
          | mk rest result =>
              rw [later] at loop
              cases loop
              rw [← split]
              exact .cons decoded (induction dropped later)

theorem readLoop {contents : List UInt8} {events : List SharedAuthEvent}
    (decodes : Decodes sipHasher contents events) : ∀ read,
    JournalReader.readLoop sipHasher (events.length + 1)
      ⟨contents, read + events.length, read⟩ = (events, .ok ()) := by
  induction decodes with
  | nil =>
      intro read
      simp [JournalReader.readLoop, JournalReader.nextEvent]
  | @cons record event rest events decoded _ induction =>
      intro read
      rw [List.length_cons, JournalReader.readLoop,
        nextEvent_record sipHasher (by omega), decoded]
      simp only [Except.map]
      rw [show read + (events.length + 1) = (read + 1) + events.length by
        omega, induction (read + 1)]

theorem «open» {contents : List UInt8} {events : List SharedAuthEvent}
    (decodes : Decodes sipHasher contents events) :
    JournalReader.open contents =
      (contents, ⟨contents, events.length, 0⟩) := by
  have aligned : contents.length % recordSize = 0 := by
    rw [decodes.length, Nat.mul_mod_right]
  have count : contents.length / recordSize = events.length := by
    rw [decodes.length, Nat.mul_div_cancel_left _ (by decide)]
  rw [open_eq, completeBytes_of_aligned aligned, count]

theorem readAll {contents : List UInt8} {events : List SharedAuthEvent}
    (decodes : Decodes sipHasher contents events) :
    (JournalReader.open contents).2.readAll sipHasher = (events, .ok ()) := by
  have read := decodes.readLoop 0
  rw [Nat.zero_add] at read
  rw [decodes.open]
  exact read

end Decodes

/-! ## Verification and reset -/

/-- `recover_corrupt_ring`. There is no ring without shared memory. -/
def recoverCorruptRing (sipHasher : SipHasher13) (ring : Option AuthEventRing)
    (files : Files) (processingFault activeFault : Option ReadFault) :
    Option AuthEventRing × Files × Except JournalError Bool :=
  match ring with
  | none =>
      (none, files,
        .error (.corrupt "auth event shared memory is unavailable"))
  | some ring =>
      if ring.queueState ≠ .corrupt then (some ring, files, .ok false)
      else
        match verifyPending sipHasher files processingFault activeFault with
        | (kept, .error failure) => (some ring, kept, .error failure)
        | (kept, .ok ()) => (some AuthEventRing.new, kept, .ok true)

/-- The events that a file holds, read from its start. -/
def eventsOf (sipHasher : SipHasher13) (file : Option (List UInt8)) :
    List SharedAuthEvent :=
  match file with
  | none => []
  | some contents => ((JournalReader.open contents).2.readAll sipHasher).1

section

variable (sipHasher : SipHasher13)

theorem eventsOf_decodes {file : Option (List UInt8)}
    {events : List SharedAuthEvent}
    (decodes : Decodes sipHasher (file.getD []) events) :
    eventsOf sipHasher file = events := by
  cases file with
  | none =>
      have length := decodes.length
      simp only [Option.getD_none, List.length_nil, zero_eq_mul,
        List.length_eq_zero_iff] at length
      rcases length with absurd | empty
      · cases absurd
      · rw [empty]
        rfl
  | some contents =>
      have read := Decodes.readAll decodes
      rw [Option.getD_some] at read
      rw [eventsOf, read]

/-- What verifying one file can do: fail before anything is cut, fail behind
the cut, or read the complete records through. -/
theorem verifyFile_cases (contents : List UInt8) (fault : Option ReadFault) :
    (verifyFile sipHasher contents fault = (contents, .error .io)) ∨
      (∃ failure, verifyFile sipHasher contents fault =
        (completeBytes contents, .error failure)) ∨
      verifyFile sipHasher contents fault = (completeBytes contents,
        ((JournalReader.open contents).2.readAll sipHasher).2) := by
  rcases fault with _ | fault
  · right
    right
    simp only [verifyFile, open_eq]
  · cases fault with
    | openFailed => exact .inl rfl
    | truncateFailed =>
        simp only [verifyFile, open_eq]
        split
        · exact .inl rfl
        · exact .inr (.inr rfl)
    | syncFailed =>
        simp only [verifyFile, open_eq]
        split
        · exact .inr (.inl ⟨.io, rfl⟩)
        · exact .inr (.inr rfl)
    | readFailed records =>
        simp only [verifyFile, open_eq]
        split
        · split
          · next failure _ => exact .inr (.inl ⟨failure, rfl⟩)
          · exact .inr (.inl ⟨.io, rfl⟩)
        · exact .inr (.inr rfl)

theorem verifyFile_kept (contents : List UInt8) (fault : Option ReadFault) :
    completeBytes (verifyFile sipHasher contents fault).1 =
      completeBytes contents := by
  rcases verifyFile_cases sipHasher contents fault with
    untouched | ⟨failure, refused⟩ | read
  · rw [untouched]
  · rw [refused]
    exact completeBytes_completeBytes contents
  · rw [read]
    exact completeBytes_completeBytes contents

theorem verifyFile_accepted {contents kept : List UInt8}
    {fault : Option ReadFault}
    (accepted : verifyFile sipHasher contents fault = (kept, .ok ())) :
    kept = completeBytes contents ∧
      Decodes sipHasher kept (eventsOf sipHasher (some contents)) := by
  rcases verifyFile_cases sipHasher contents fault with
    untouched | ⟨failure, refused⟩ | read
  · rw [untouched] at accepted
    cases accepted
  · rw [refused] at accepted
    cases accepted
  · rw [read] at accepted
    have whole := (Prod.mk.injEq _ _ _ _).mp accepted
    have result := whole.2
    rw [open_eq] at result
    have loop : JournalReader.readLoop sipHasher
        (contents.length / recordSize + 1) ⟨completeBytes contents,
          0 + contents.length / recordSize, 0⟩ =
        (eventsOf sipHasher (some contents), .ok ()) := by
      rw [Nat.zero_add, eventsOf, open_eq]
      exact Prod.ext rfl result
    rw [← whole.1]
    exact ⟨rfl, Decodes.of_readLoop (contents.length / recordSize)
      (completeBytes_length contents) loop⟩

theorem verifyPath_kept (file : Option (List UInt8))
    (fault : Option ReadFault) :
    (verifyPath sipHasher file fault).1.map completeBytes =
      file.map completeBytes := by
  cases file with
  | none => rfl
  | some contents =>
      simp only [verifyPath, Option.map_some, verifyFile_kept]

theorem verifyPath_accepted {file kept : Option (List UInt8)}
    {fault : Option ReadFault}
    (accepted : verifyPath sipHasher file fault = (kept, .ok ())) :
    kept = file.map completeBytes ∧
      Decodes sipHasher (kept.getD []) (eventsOf sipHasher file) := by
  cases file with
  | none =>
      cases accepted
      exact ⟨rfl, .nil⟩
  | some contents =>
      cases verified : verifyFile sipHasher contents fault with
      | mk cut result =>
          simp only [verifyPath, verified] at accepted
          cases accepted
          rcases verifyFile_accepted sipHasher verified with ⟨rfl, decodes⟩
          exact ⟨rfl, decodes⟩

theorem verifyPending_kept (files : Files)
    (processingFault activeFault : Option ReadFault) :
    trimmed (verifyPending sipHasher files processingFault activeFault).1 =
      trimmed files := by
  have keptProcessing := verifyPath_kept sipHasher files.processing
    processingFault
  have keptActive := verifyPath_kept sipHasher files.active activeFault
  rw [verifyPending]
  cases verified : verifyPath sipHasher files.processing processingFault with
  | mk processing result =>
      rw [verified] at keptProcessing
      cases result with
      | error failure => simp only [trimmed, keptProcessing]
      | ok accepted => simp only [trimmed, keptProcessing, keptActive]

theorem verifyPending_accepted {files kept : Files}
    {processingFault activeFault : Option ReadFault}
    (accepted : verifyPending sipHasher files processingFault activeFault =
      (kept, .ok ())) :
    kept = trimmed files ∧
      Decodes sipHasher (kept.processing.getD [])
        (eventsOf sipHasher files.processing) ∧
      Decodes sipHasher (kept.active.getD [])
        (eventsOf sipHasher files.active) := by
  rw [verifyPending] at accepted
  cases first : verifyPath sipHasher files.processing processingFault with
  | mk processing result =>
      rw [first] at accepted
      cases result with
      | error failure => cases accepted
      | ok done =>
          cases second : verifyPath sipHasher files.active activeFault with
          | mk active result =>
              rw [second] at accepted
              cases accepted
              rcases verifyPath_accepted sipHasher first with
                ⟨rfl, decodesProcessing⟩
              rcases verifyPath_accepted sipHasher second with
                ⟨rfl, decodesActive⟩
              exact ⟨rfl, decodesProcessing, decodesActive⟩

end

/-! ## The replay -/

/-- What makes `consume_events` give up with a corrupt queue. -/
inductive Refusal
  | journal (failure : JournalError)
  | username
  | kind
  | flags
  deriving DecidableEq, Repr

/-- The checks of `consume_events` on an event it was handed. -/
def validate (event : SharedAuthEvent) :
    Except Refusal (String × EventKind × EventFlags) :=
  match usernameFromBytes event.username.toList with
  | none => .error .username
  | some username =>
      match EventKind.fromRaw event.kind with
      | none => .error .kind
      | some kind =>
          match EventFlags.fromRaw event.flags with
          | none => .error .flags
          | some flags => .ok (username, kind, flags)

/-- The worker on the journal: its open batch, the events it got past the
checks, and those that producers appended meanwhile. -/
structure Worker where
  files : Files
  batch : Option JournalReader
  consumed : List SharedAuthEvent
  appended : List SharedAuthEvent
  refusal : Option Refusal
  deriving DecidableEq

def Worker.start (files : Files) : Worker := ⟨files, none, [], [], none⟩

structure ValidEvent where
  event : SharedAuthEvent
  storable : Storable event

inductive Action
  | append (valid : ValidEvent)
  | rotate
  | openBatch
  | next

/-- One call of `next_event` and what `consume_events` makes of it. A finished
batch is removed. -/
def Worker.next (sipHasher : SipHasher13) (worker : Worker)
    (reader : JournalReader) : Worker :=
  match reader.nextEvent sipHasher with
  | (_, .error failure) =>
      { worker with batch := none, refusal := some (.journal failure) }
  | (_, .ok none) =>
      { worker with
        files := { worker.files with processing := none }
        batch := none }
  | (reader, .ok (some event)) =>
      match validate event with
      | .error refusal =>
          { worker with batch := some reader, refusal := some refusal }
      | .ok _ =>
          { worker with
            batch := some reader
            consumed := worker.consumed ++ [event] }

def step (sipHasher : SipHasher13) (worker : Worker) :
    Action → Option Worker
  | .append valid =>
      some { worker with
        files := (AuthJournal.append sipHasher worker.files valid.event none).1
        appended := worker.appended ++ [stored valid.event] }
  | .rotate =>
      if worker.refusal = none ∧ worker.batch = none then
        some { worker with files := AuthJournal.rotate worker.files }
      else none
  | .openBatch =>
      match worker.refusal, worker.batch, worker.files.processing with
      | none, none, some contents =>
          let (kept, reader) := JournalReader.open contents
          some { worker with
            files := { worker.files with processing := some kept }
            batch := some reader }
      | _, _, _ => none
  | .next =>
      match worker.refusal, worker.batch with
      | none, some reader => some (worker.next sipHasher reader)
      | _, _ => none

def machine (sipHasher : SipHasher13) : Machine Worker Action :=
  ⟨step sipHasher⟩

/-- The events still to be read: the rest of the batch, or the processing file
before it is opened, and then the active file. -/
def Worker.pending (sipHasher : SipHasher13) (worker : Worker) :
    List SharedAuthEvent :=
  (match worker.batch with
    | none => eventsOf sipHasher worker.files.processing
    | some reader => (reader.readLoop sipHasher
        (reader.completeRecords - reader.readRecords + 1)).1) ++
    eventsOf sipHasher worker.files.active

/-! ## What the replay preserves -/

section

variable {sipHasher : SipHasher13}

theorem validate_decoded {record : Record} {event : SharedAuthEvent}
    (decoded : decode sipHasher record = .ok event) :
    ∃ parts, validate event = .ok parts := by
  rcases decode_eq_ok decoded with ⟨_, _, readable, known, understood⟩
  rcases Option.ne_none_iff_exists'.mp readable with ⟨username, named⟩
  rcases Option.ne_none_iff_exists'.mp known with ⟨kind, kindRead⟩
  rcases Option.ne_none_iff_exists'.mp understood with ⟨flags, flagsRead⟩
  exact ⟨(username, kind, flags), by
    simp only [validate, named, kindRead, flagsRead]⟩

def BatchHolds (sipHasher : SipHasher13) (worker : Worker)
    (events : List SharedAuthEvent) : Prop :=
  match worker.batch with
  | none => Decodes sipHasher (worker.files.processing.getD []) events
  | some reader => Decodes sipHasher reader.remaining events ∧
      reader.completeRecords = reader.readRecords + events.length

/-- Nothing was refused, everything unread decodes, and no event is lost or
repeated against what was there and what came in. -/
structure Sound (sipHasher : SipHasher13) (verified : List SharedAuthEvent)
    (worker : Worker) : Prop where
  accepted : worker.refusal = none
  ledger : ∃ batchEvents activeEvents,
    BatchHolds sipHasher worker batchEvents ∧
      Decodes sipHasher (worker.files.active.getD []) activeEvents ∧
      worker.consumed ++ (batchEvents ++ activeEvents) =
        verified ++ worker.appended

theorem Sound.pending {verified : List SharedAuthEvent} {worker : Worker}
    (sound : Sound sipHasher verified worker) :
    worker.consumed ++ worker.pending sipHasher =
      verified ++ worker.appended := by
  rcases sound.ledger with ⟨batchEvents, activeEvents, batch, active, total⟩
  rw [Worker.pending, eventsOf_decodes sipHasher active]
  rw [BatchHolds] at batch
  cases opened : worker.batch with
  | none =>
      rw [opened] at batch
      rw [eventsOf_decodes sipHasher batch, total]
  | some reader =>
      rw [opened] at batch
      have read := batch.1.readLoop reader.readRecords
      rw [← batch.2] at read
      have left : reader.completeRecords - reader.readRecords =
          batchEvents.length := by
        have count := batch.2
        omega
      dsimp only
      rw [left, read, total]

theorem sound_append {verified : List SharedAuthEvent} {worker : Worker}
    (sound : Sound sipHasher verified worker) (valid : ValidEvent) :
    Sound sipHasher verified { worker with
      files := (AuthJournal.append sipHasher worker.files valid.event none).1
      appended := worker.appended ++ [stored valid.event] } := by
  rcases sound.ledger with ⟨batchEvents, activeEvents, batch, active, total⟩
  have extended := active.append (Decodes.encoded valid.storable)
  refine ⟨sound.accepted, batchEvents, activeEvents ++ [stored valid.event],
    batch, extended, ?_⟩
  rw [← List.append_assoc batchEvents, ← List.append_assoc worker.consumed,
    total, List.append_assoc]

theorem sound_rotate {verified : List SharedAuthEvent} {worker : Worker}
    (sound : Sound sipHasher verified worker)
    (unopened : worker.batch = none) :
    Sound sipHasher verified
      { worker with files := AuthJournal.rotate worker.files } := by
  rcases sound.ledger with ⟨batchEvents, activeEvents, batch, active, total⟩
  rcases worker with ⟨⟨activeFile, processing⟩, opened, consumed, appended,
    refusal⟩
  cases unopened
  cases processing with
  | some contents =>
      exact ⟨sound.accepted, batchEvents, activeEvents, batch, active, total⟩
  | none =>
      cases activeFile with
      | none =>
          exact ⟨sound.accepted, batchEvents, activeEvents, batch, active,
            total⟩
      | some contents =>
          by_cases nonempty : contents.length > 0
          · have none : batchEvents = [] := by
              have length := Decodes.length batch
              simpa using length
            simp only [AuthJournal.rotate, if_pos nonempty]
            refine ⟨sound.accepted, activeEvents, [], active, .nil, ?_⟩
            rw [← total, none, List.nil_append, List.append_nil]
          · simp only [AuthJournal.rotate, if_neg nonempty]
            exact ⟨sound.accepted, batchEvents, activeEvents, batch, active,
              total⟩

theorem sound_openBatch {verified : List SharedAuthEvent} {worker : Worker}
    (sound : Sound sipHasher verified worker) {contents : List UInt8}
    (unopened : worker.batch = none)
    (present : worker.files.processing = some contents) :
    Sound sipHasher verified { worker with
      files := { worker.files with
        processing := some (JournalReader.open contents).1 }
      batch := some (JournalReader.open contents).2 } := by
  rcases sound.ledger with ⟨batchEvents, activeEvents, batch, active, total⟩
  rw [BatchHolds, unopened, present] at batch
  have decodes : Decodes sipHasher contents batchEvents := batch
  rw [decodes.open]
  exact ⟨sound.accepted, batchEvents, activeEvents,
    ⟨decodes, (Nat.zero_add _).symm⟩, active, total⟩

theorem sound_next {verified : List SharedAuthEvent} {worker : Worker}
    (sound : Sound sipHasher verified worker) {reader : JournalReader}
    (opened : worker.batch = some reader) :
    Sound sipHasher verified (worker.next sipHasher reader) := by
  rcases sound.ledger with ⟨batchEvents, activeEvents, batch, active, total⟩
  rw [BatchHolds, opened] at batch
  rcases batch with ⟨decodes, count⟩
  rcases reader with ⟨remaining, complete, read⟩
  cases decodes with
  | nil =>
      have ended : read = complete := by simpa using count.symm
      simp only [Worker.next, JournalReader.nextEvent, if_pos ended]
      exact ⟨sound.accepted, [], activeEvents, .nil, active, total⟩
  | @cons record event rest events decoded later =>
      rw [List.length_cons] at count
      rcases validate_decoded decoded with ⟨parts, valid⟩
      have more : read ≠ complete := by
        dsimp only at count
        omega
      change Sound sipHasher verified
        (worker.next sipHasher ⟨record.bytes ++ rest, complete, read⟩)
      simp only [Worker.next, nextEvent_record sipHasher more, decoded,
        Except.map, valid]
      refine ⟨sound.accepted, events, activeEvents, ⟨later, ?_⟩, active, ?_⟩
      · dsimp only at count ⊢
        omega
      · rw [← total]
        simp

theorem sound_step {verified : List SharedAuthEvent} {worker next : Worker}
    {action : Action} (sound : Sound sipHasher verified worker)
    (stepped : (machine sipHasher).step worker action = some next) :
    Sound sipHasher verified next := by
  change step sipHasher worker action = some next at stepped
  cases action with
  | append valid =>
      cases stepped
      exact sound_append sound valid
  | rotate =>
      rw [step] at stepped
      split at stepped
      · next free =>
          cases stepped
          exact sound_rotate sound free.2
      · cases stepped
  | openBatch =>
      rw [step] at stepped
      split at stepped
      · next contents _ unopened present =>
          cases stepped
          exact sound_openBatch sound unopened present
      · cases stepped
  | next =>
      rw [step] at stepped
      split at stepped
      · next reader _ opened =>
          cases stepped
          exact sound_next sound opened
      · cases stepped

/-- The replay of verified files: nothing is refused, and the events come out
once each and in order. -/
theorem replay_verified {files kept : Files}
    {processingFault activeFault : Option ReadFault}
    (verified : verifyPending sipHasher files processingFault activeFault =
      (kept, .ok ()))
    {actions : List Action} {final : Worker}
    (completed : (machine sipHasher).run (.start kept) actions =
      some final) :
    final.refusal = none ∧
      final.consumed ++ final.pending sipHasher =
        (eventsOf sipHasher files.processing ++
          eventsOf sipHasher files.active) ++ final.appended := by
  rcases verifyPending_accepted sipHasher verified with
    ⟨_, decodesProcessing, decodesActive⟩
  have started : Sound sipHasher (eventsOf sipHasher files.processing ++
      eventsOf sipHasher files.active) (.start kept) :=
    ⟨rfl, _, _, decodesProcessing, decodesActive, (List.append_nil _).symm⟩
  have sound := Machine.run_invariant
    (fun holds stepped => sound_step holds stepped) started completed
  exact ⟨sound.accepted, sound.pending⟩

end

/-- The ways a recovery ends. -/
theorem recoverCorruptRing_cases (sipHasher : SipHasher13)
    (ring : Option AuthEventRing) (files : Files)
    (processingFault activeFault : Option ReadFault) :
    let recovery := recoverCorruptRing sipHasher ring files processingFault
      activeFault
    (ring = none ∧ recovery = (ring, files,
        .error (.corrupt "auth event shared memory is unavailable"))) ∨
      (∃ before, ring = some before ∧ before.queueState ≠ .corrupt ∧
        recovery = (ring, files, .ok false)) ∨
      (∃ before kept failure, ring = some before ∧
        before.queueState = .corrupt ∧
        verifyPending sipHasher files processingFault activeFault =
          (kept, .error failure) ∧
        recovery = (ring, kept, .error failure)) ∨
      (∃ before kept, ring = some before ∧ before.queueState = .corrupt ∧
        verifyPending sipHasher files processingFault activeFault =
          (kept, .ok ()) ∧
        recovery = (some AuthEventRing.new, kept, .ok true)) := by
  intro recovery
  cases ring with
  | none => exact .inl ⟨rfl, rfl⟩
  | some before =>
      by_cases corrupt : before.queueState = .corrupt
      · right
        right
        cases verified :
            verifyPending sipHasher files processingFault activeFault with
        | mk kept result =>
            cases result with
            | error failure =>
                refine .inl ⟨before, kept, failure, rfl, corrupt, rfl, ?_⟩
                simp [recovery, recoverCorruptRing, corrupt, verified]
            | ok done =>
                refine .inr ⟨before, kept, rfl, corrupt, rfl, ?_⟩
                simp [recovery, recoverCorruptRing, corrupt, verified]
      · refine .inr (.inl ⟨before, rfl, corrupt, ?_⟩)
        simp [recovery, recoverCorruptRing, corrupt]

/-- Seen from the ring, recovery is the reset that depends on nothing but
whether the files were accepted. -/
theorem recoverCorruptRing_ring (sipHasher : SipHasher13)
    (ring : AuthEventRing) (files : Files)
    (processingFault activeFault : Option ReadFault) :
    (recoverCorruptRing sipHasher (some ring) files processingFault
        activeFault).1 =
      some (ring.recoverCorruptRing
        (verifyPending sipHasher files processingFault activeFault).2.isOk) := by
  rw [AuthEventRing.recoverCorruptRing]
  rcases recoverCorruptRing_cases sipHasher (some ring) files processingFault
      activeFault with
    ⟨missing, ended⟩ | ⟨before, present, notCorrupt, ended⟩ |
    ⟨before, kept, failure, present, corrupt, verified, ended⟩ |
    ⟨before, kept, present, corrupt, verified, ended⟩
  · cases missing
  · cases present
    simp [ended, notCorrupt]
  · cases present
    simp [ended, verified, Except.isOk, Except.toBool]
  · cases present
    simp [ended, verified, corrupt, Except.isOk, Except.toBool]

/-- Recovery touches nothing unless the queue is corrupt, keeps the ring and
every complete record when it fails, and succeeds on a corrupt queue whose
files are accepted. It then leaves an empty healthy ring and files whose replay
is refused at no event, under any interleaving with further appends. -/
theorem recoverCorruptRing_safe (sipHasher : SipHasher13)
    (ring : Option AuthEventRing) (files : Files)
    (processingFault activeFault : Option ReadFault) :
    let recovery := recoverCorruptRing sipHasher ring files processingFault
      activeFault
    (∀ before, ring = some before → before.queueState ≠ .corrupt →
        recovery = (ring, files, .ok false)) ∧
      (recovery.2.2 = .ok false → recovery = (ring, files, .ok false) ∧
        ∃ before, ring = some before ∧ before.queueState ≠ .corrupt) ∧
      (∀ before, ring = some before → before.queueState = .corrupt →
        (verifyPending sipHasher files processingFault activeFault).2 =
          .ok () → recovery.2.2 = .ok true) ∧
      (∀ failure, recovery.2.2 = .error failure →
        recovery.1 = ring ∧ trimmed recovery.2.1 = trimmed files) ∧
      (recovery.2.2 = .ok true →
        (∃ after, recovery.1 = some after ∧ after.contents = [] ∧
          after.queueState = .healthy) ∧
        recovery.2.1 = trimmed files ∧
        ∀ actions final, (machine sipHasher).run (.start recovery.2.1)
            actions = some final →
          final.refusal = none ∧
            final.consumed ++ final.pending sipHasher =
              (eventsOf sipHasher files.processing ++
                eventsOf sipHasher files.active) ++ final.appended) := by
  intro recovery
  rcases recoverCorruptRing_cases sipHasher ring files processingFault
      activeFault with
    ⟨missing, ended⟩ | ⟨before, present, notCorrupt, ended⟩ |
    ⟨before, kept, failure, present, corrupt, verified, ended⟩ |
    ⟨before, kept, present, corrupt, verified, ended⟩
  · simp [recovery, ended, missing]
  · simp [recovery, ended, present, notCorrupt]
  · have same := verifyPending_kept sipHasher files processingFault activeFault
    rw [verified] at same
    simp [recovery, ended, present, corrupt, same, verified]
  · simp only [recovery, ended]
    refine ⟨?_, ?_, ?_, ?_, ?_⟩
    · intro other same healthy
      rw [present] at same
      cases same
      exact absurd corrupt healthy
    · intro untouched
      cases untouched
    · intro _ _ _ _
      trivial
    · intro failure failed
      cases failed
    · intro _
      refine ⟨⟨AuthEventRing.new, rfl, rfl, rfl⟩,
        (verifyPending_accepted sipHasher verified).1, ?_⟩
      intro actions final completed
      exact replay_verified verified completed

/-- A record in the processing file, and behind one in the active file the
bytes of an append that never completed. -/
def tornFiles : Files where
  active := some (recordBytes byteSum [extremeGrace] ++
    (encode byteSum extremeGrace).bytes.take 40)
  processing := some (recordBytes byteSum [extremeGrace])

/-- Both batches, with an append during the first. -/
def replayBoth : List Action :=
  [.openBatch, .append ⟨extremeGrace, extremeGrace_storable⟩, .next, .next,
    .rotate, .openBatch, .next, .next, .next]

theorem tornFiles_recovered :
    ∃ recovered final, (recoverCorruptRing byteSum
        (some (AuthEventRing.new.degradeTo .corrupt)) tornFiles none none).2 =
          (recovered, .ok true) ∧
      recovered ≠ tornFiles ∧
      (machine byteSum).run (.start recovered) replayBoth = some final ∧
      final.files = ⟨none, none⟩ ∧ final.refusal = none ∧
      final.consumed = [stored extremeGrace, stored extremeGrace,
        stored extremeGrace] := by
  have safe := recoverCorruptRing_safe byteSum
    (some (AuthEventRing.new.degradeTo .corrupt)) tornFiles none none
  have accepted : (verifyPending byteSum tornFiles none none).2 = .ok () := by
    decide +kernel
  have done := safe.2.2.1 _ rfl rfl accepted
  rcases safe.2.2.2.2 done with ⟨_, kept, replayed⟩
  have replay : ((machine byteSum).run (.start (trimmed tornFiles))
      replayBoth).map (fun worker => (worker.files, worker.consumed)) =
        some (⟨none, none⟩, [stored extremeGrace, stored extremeGrace,
          stored extremeGrace]) := by
    decide +kernel
  rcases Option.map_eq_some_iff.mp replay with ⟨final, completed, ended⟩
  rw [Prod.mk.injEq] at ended
  rw [kept] at replayed
  exact ⟨trimmed tornFiles, final, Prod.ext kept done, by decide +kernel,
    completed, ended.1, (replayed _ _ completed).1, ended.2⟩

/-! ## The name as a key -/

theorem decoded_of_nextEvent {sipHasher : SipHasher13}
    {reader next : JournalReader} {event : SharedAuthEvent}
    (read : reader.nextEvent sipHasher = (next, .ok (some event))) :
    ∃ record, decode sipHasher record = .ok event := by
  rw [JournalReader.nextEvent] at read
  split at read
  · cases read
  split at read
  · next sized =>
      have result := (Prod.mk.inj read).2
      cases decoded : decode sipHasher
          ⟨reader.remaining.take recordSize, sized⟩ with
      | error failure =>
          rw [decoded] at result
          cases result
      | ok found =>
          rw [decoded] at result
          cases result
          exact ⟨_, decoded⟩
  · cases read

/-- Only the journal itself can make the worker give up on an event that was
read. -/
theorem refusal_next {sipHasher : SipHasher13} {worker : Worker}
    {reader : JournalReader} {refusal : Refusal}
    (refused : (worker.next sipHasher reader).refusal = some refusal) :
    worker.refusal = some refusal ∨
      ∃ failure, refusal = .journal failure := by
  rw [Worker.next] at refused
  split at refused
  · exact .inr ⟨_, (Option.some.inj refused).symm⟩
  · exact .inl refused
  next event read =>
  rcases decoded_of_nextEvent read with ⟨record, decoded⟩
  rcases validate_decoded decoded with ⟨parts, valid⟩
  rw [valid] at refused
  exact .inl refused

/-- The encoding tells role names apart, and every record that is decoded
passes the checks that the worker makes again. -/
theorem username_key_faithful (sipHasher : SipHasher13) :
    (∀ left right, IsRoleName left → IsRoleName right →
      (encodeUsername left)[0] ≠ 0 ∧
        usernameFromBytes (encodeUsername left).toList = some left ∧
        (encodeUsername left = encodeUsername right → left = right)) ∧
      (∀ record event, decode sipHasher record = .ok event →
        (usernameFromBytes event.username.toList).isSome ∧
          (EventKind.fromRaw event.kind).isSome ∧
          (EventFlags.fromRaw event.flags).isSome) ∧
      ∀ worker reader refusal,
        (Worker.next sipHasher worker reader).refusal = some refusal →
          worker.refusal = some refusal ∨
            ∃ failure, refusal = .journal failure := by
  refine ⟨?_, ?_, fun _ _ _ refused => refusal_next refused⟩
  · intro left right leftRole rightRole
    have used := encodeUsername_not_free leftRole
    rw [EncodedUsername.isFree, beq_eq_false_iff_ne] at used
    exact ⟨used, usernameFromBytes_encodeUsername leftRole,
      encodeUsername_injective leftRole rightRole⟩
  · intro record event decoded
    rcases decode_eq_ok decoded with ⟨_, _, readable, known, understood⟩
    exact ⟨Option.isSome_iff_ne_none.mpr readable,
      Option.isSome_iff_ne_none.mpr known,
      Option.isSome_iff_ne_none.mpr understood⟩

end PasswordProfile.AuthJournal.Recovery
