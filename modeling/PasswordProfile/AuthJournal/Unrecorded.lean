import PasswordProfile.AuthEvent.Enqueue
import PasswordProfile.AuthJournal.RoundTrip

/-! # Events reported as not recorded

A producer that is told `Unavailable` acts as if its event were nowhere. The
append may have failed after bytes had reached the file, and what a reader
makes of those bytes is decided by whatever is written behind them.
-/

namespace PasswordProfile.AuthJournal.Unrecorded

open AuthEvent Bytes

/-- The queue as a producer finds it; without shared memory there is no ring. -/
structure Queue where
  ring : Option AuthEventRing
  files : Files

/-- The arguments of `enqueue_encoded_silent`. -/
structure Request where
  username : EncodedUsername
  kind : UInt8
  flags : EventFlags
  generation : TimestampTz

def Request.offer (request : Request) (eventId : EventId)
    (now : TimestampTz) : AuthEventRing.Offer where
  eventId := eventId
  username := request.username
  timestamp := now
  kind := request.kind
  flags := request.flags.raw
  generation := request.generation

/-- The random identifier, the clock and the step of `append` that fails are
the environment's. -/
def enqueueEncodedSilent (sipHasher : SipHasher13) (queue : Queue)
    (request : Request) (newEventId : Option EventId) (now : TimestampTz)
    (fault : Option AppendFault) : Queue × EnqueueStep :=
  match newEventId, queue.ring with
  | none, _ => (queue, ⟨.unavailable, false⟩)
  | some _, none => (queue, ⟨.unavailable, false⟩)
  | some eventId, some ring =>
      let offer := request.offer eventId now
      match append sipHasher queue.files (offer.event 0) fault with
      | (files, .error _) =>
          let (ring, step) := ring.enqueueEncodedWithId offer false
          (⟨some ring, files⟩, step)
      | (files, .ok ()) =>
          let (ring, step) := ring.enqueueEncodedWithId offer true
          (⟨some ring, files⟩, step)

/-! ## What can be seen later -/

/-- What happens to the files afterwards: other producers append, the worker
rotates, opens the batch and removes it. -/
inductive Later
  | append (event : SharedAuthEvent)
  | rotate
  | openProcessing
  | removeProcessing

def Later.apply (sipHasher : SipHasher13) (files : Files) : Later → Files
  | .append event => (AuthJournal.append sipHasher files event none).1
  | .rotate => AuthJournal.rotate files
  | .openProcessing =>
      { files with processing :=
          files.processing.map fun contents => (JournalReader.open contents).1 }
  | .removeProcessing => { files with processing := none }

/-- The records a `JournalReader` yields and how it ends. -/
def readFile (sipHasher : SipHasher13) (file : Option (List UInt8)) :
    List SharedAuthEvent × Except JournalError Unit :=
  match file with
  | none => ([], .ok ())
  | some contents => (JournalReader.open contents).2.readAll sipHasher

/-- The ring queues what it did, and whatever happens later, both files are
read as they would have been. -/
structure NoLaterEffect (sipHasher : SipHasher13) (before after : Queue) :
    Prop where
  ring : after.ring.map AuthEventRing.contents =
    before.ring.map AuthEventRing.contents
  processing : ∀ later : List Later,
    readFile sipHasher
        (later.foldl (Later.apply sipHasher) after.files).processing =
      readFile sipHasher
        (later.foldl (Later.apply sipHasher) before.files).processing
  active : ∀ later : List Later,
    readFile sipHasher
        (later.foldl (Later.apply sipHasher) after.files).active =
      readFile sipHasher
        (later.foldl (Later.apply sipHasher) before.files).active

/-- The call ends before a byte of the record is in the file. -/
def WritesNothing (queue : Queue) (newEventId : Option EventId)
    (fault : Option AppendFault) : Prop :=
  newEventId = none ∨ queue.ring = none ∨ fault = some .openFailed ∨
    fault = some .permissions ∨ fault = some (.writeFailed 0)

/-- The active file is missing or holds whole records of valid events. -/
def Intact (sipHasher : SipHasher13) (file : Option (List UInt8)) : Prop :=
  ∃ events, (∀ event ∈ events, Storable event) ∧
    file.getD [] = recordBytes sipHasher events

/-! ## A missing file and an empty one -/

def Alike (files created : Files) : Prop :=
  created = files ∨
    (files.active = none ∧ created = { files with active := some [] })

section

variable {sipHasher : SipHasher13}

theorem alike_apply {files created : Files} (alike : Alike files created)
    (later : Later) :
    Alike (later.apply sipHasher files) (later.apply sipHasher created) := by
  rcases alike with same | ⟨missing, created⟩
  · rw [same]
    exact .inl rfl
  · rcases files with ⟨active, processing⟩
    cases missing
    rw [created]
    cases later with
    | append event => exact .inl rfl
    | rotate =>
        cases processing with
        | none => exact .inr ⟨rfl, rfl⟩
        | some contents => exact .inr ⟨rfl, rfl⟩
    | openProcessing => exact .inr ⟨rfl, rfl⟩
    | removeProcessing => exact .inr ⟨rfl, rfl⟩

theorem alike_foldl (later : List Later) : ∀ {files created : Files},
    Alike files created →
    Alike (later.foldl (Later.apply sipHasher) files)
      (later.foldl (Later.apply sipHasher) created) := by
  induction later with
  | nil =>
      intro files created alike
      exact alike
  | cons step later induction =>
      intro files created alike
      exact induction (alike_apply alike step)

theorem alike_reads {files created : Files} (alike : Alike files created) :
    readFile sipHasher created.processing =
        readFile sipHasher files.processing ∧
      readFile sipHasher created.active = readFile sipHasher files.active := by
  rcases alike with same | ⟨missing, created⟩
  · rw [same]
    exact ⟨rfl, rfl⟩
  · rw [created, missing]
    exact ⟨rfl, rfl⟩

theorem noLaterEffect_of_alike {before after : Queue}
    (ring : after.ring.map AuthEventRing.contents =
      before.ring.map AuthEventRing.contents)
    (alike : Alike before.files after.files) :
    NoLaterEffect sipHasher before after where
  ring := ring
  processing := fun later => (alike_reads (alike_foldl later alike)).1
  active := fun later => (alike_reads (alike_foldl later alike)).2

theorem alike_append {files : Files} {event : SharedAuthEvent}
    {fault : AppendFault}
    (early : fault = .openFailed ∨ fault = .permissions ∨
      fault = .writeFailed 0) :
    Alike files (append sipHasher files event (some fault)).1 := by
  rcases files with ⟨active, processing⟩
  rcases early with rfl | rfl | rfl
  · exact .inl rfl
  · cases active with
    | none => exact .inr ⟨rfl, rfl⟩
    | some contents => exact .inl rfl
  · cases active with
    | none => exact .inr ⟨rfl, rfl⟩
    | some contents =>
        left
        simp [append]

end

/-! ## Records that are there -/

section

variable (sipHasher : SipHasher13)

theorem readFile_block {events : List SharedAuthEvent}
    (storable : ∀ event ∈ events, Storable event) (record : Record)
    {tail : List UInt8} (torn : tail.length < recordSize) :
    readFile sipHasher
        (some (recordBytes sipHasher events ++ (record.bytes ++ tail))) =
      match decode sipHasher record with
      | .ok event => (events.map stored ++ [event], .ok ())
      | .error failure => (events.map stored, .error failure) := by
  have size : (record.bytes ++ tail).length = recordSize + tail.length := by
    rw [List.length_append, record.sized]
  have remainder : (recordSize + tail.length) % recordSize = tail.length := by
    rw [Nat.add_mod_left, Nat.mod_eq_of_lt torn]
  have quotient : (recordSize + tail.length) / recordSize = 1 := by
    rw [Nat.add_div_left _ (by decide), Nat.div_eq_of_lt torn]
  have opened : JournalReader.open
      (recordBytes sipHasher events ++ (record.bytes ++ tail)) =
        (recordBytes sipHasher events ++ record.bytes,
          ⟨recordBytes sipHasher events ++ record.bytes,
            events.length + 1, 0⟩) := by
    rw [open_records, size, remainder, quotient, Nat.add_sub_cancel,
      List.take_left' record.sized]
  have read := readLoop_storable sipHasher storable record.bytes 2
    (events.length + 1) 0 (by omega)
  have last := @nextEvent_record sipHasher record [] (events.length + 1)
    events.length (by omega)
  rw [List.append_nil] at last
  rw [Nat.zero_add] at read
  rw [readFile, opened, JournalReader.readAll]
  change JournalReader.readLoop sipHasher (events.length + 2) _ = _
  rw [read, JournalReader.readLoop, last]
  cases decoded : decode sipHasher record with
  | error failure => simp [Except.map]
  | ok event =>
      simp [Except.map, JournalReader.readLoop, JournalReader.nextEvent]

theorem decode_of_readFile_block {events : List SharedAuthEvent}
    (storable : ∀ event ∈ events, Storable event) {record : Record}
    {tail : List UInt8} (torn : tail.length < recordSize)
    {event : SharedAuthEvent}
    (read : readFile sipHasher
        (some (recordBytes sipHasher events ++ (record.bytes ++ tail))) =
      (events.map stored ++ [event], .ok ())) :
    decode sipHasher record = .ok event := by
  rw [readFile_block sipHasher storable record torn] at read
  cases decoded : decode sipHasher record with
  | ok found =>
      rw [decoded] at read
      have last := List.append_cancel_left (congrArg Prod.fst read)
      rw [List.singleton_inj.mp last]
  | error failure =>
      rw [decoded] at read
      cases congrArg Prod.snd read

theorem readFile_storable {events : List SharedAuthEvent}
    (storable : ∀ event ∈ events, Storable event) :
    readFile sipHasher (some (recordBytes sipHasher events)) =
      (events.map stored, .ok ()) := by
  have opened := open_torn sipHasher events
    (show ([] : List UInt8).length < recordSize by decide)
  rw [List.append_nil] at opened
  rw [readFile, opened]
  exact readAll_storable sipHasher storable

theorem readFile_intact {file : Option (List UInt8)}
    {events : List SharedAuthEvent}
    (storable : ∀ event ∈ events, Storable event)
    (contents : file.getD [] = recordBytes sipHasher events) :
    readFile sipHasher file = (events.map stored, .ok ()) := by
  cases file with
  | none =>
      have empty : events = [] := by
        have length := congrArg List.length contents
        rw [recordBytes_length] at length
        simpa using length
      rw [empty]
      rfl
  | some bytes =>
      rw [Option.getD_some] at contents
      rw [contents]
      exact readFile_storable sipHasher storable

theorem readFile_written_ne {file : Option (List UInt8)}
    {events : List SharedAuthEvent}
    (storable : ∀ event ∈ events, Storable event)
    (contents : file.getD [] = recordBytes sipHasher events)
    (event : SharedAuthEvent) :
    readFile sipHasher
        (some (file.getD [] ++ (encode sipHasher event).bytes)) ≠
      readFile sipHasher file := by
  have written := readFile_block sipHasher storable (encode sipHasher event)
    (show ([] : List UInt8).length < recordSize by decide)
  rw [List.append_nil, ← contents] at written
  rw [written, readFile_intact sipHasher storable contents]
  intro same
  cases decoded : decode sipHasher (encode sipHasher event) with
  | ok read =>
      rw [decoded] at same
      have lengths := congrArg (fun result => result.1.length) same
      simp at lengths
  | error failure =>
      rw [decoded] at same
      cases congrArg Prod.snd same

/-! ## A part of a record and what comes behind it -/

theorem encode_getElem_magic (event : SharedAuthEvent) {index : Nat}
    (within : index < 4) :
    (encode sipHasher event).bytes[index]? = magic[index]? := by
  rw [← encode_take_magic sipHasher event, List.getElem?_take_of_lt within]

theorem encode_getElem_eventId (event : SharedAuthEvent) :
    (encode sipHasher event).bytes[4]? = some event.eventId[0] := by
  have fits : 4 + 16 ≤ (encode sipHasher event).bytes.length := by
    rw [(encode sipHasher event).sized]
    decide
  have cut := field_toList (encode sipHasher event).bytes 4 16 fits
  rw [encode_eventId] at cut
  have first := congrArg (fun bytes => bytes[0]?) cut
  simp only [List.getElem?_take_of_lt (show 0 < 16 by decide),
    List.getElem?_drop] at first
  rw [← first]
  simp

def tornBlock (torn next : SharedAuthEvent) (written : Fin recordSize) :
    Record where
  bytes := (encode sipHasher torn).bytes.take written.val ++
    (encode sipHasher next).bytes.take (recordSize - written.val)
  sized := by
    have bound := written.isLt
    rw [List.length_append, List.length_take, List.length_take,
      (encode sipHasher torn).sized, (encode sipHasher next).sized]
    omega

theorem tornBlock_getElem_before {torn next : SharedAuthEvent}
    {written : Fin recordSize} {index : Nat} (before : index < written.val) :
    (tornBlock sipHasher torn next written).bytes[index]? =
      (encode sipHasher torn).bytes[index]? := by
  have bound := written.isLt
  have within : index <
      ((encode sipHasher torn).bytes.take written.val).length := by
    rw [List.length_take, (encode sipHasher torn).sized]
    omega
  rw [tornBlock, List.getElem?_append_left within,
    List.getElem?_take_of_lt before]

theorem tornBlock_getElem_behind {torn next : SharedAuthEvent}
    {written : Fin recordSize} {offset : Nat}
    (behind : written.val + offset < recordSize) :
    (tornBlock sipHasher torn next written).bytes[written.val + offset]? =
      (encode sipHasher next).bytes[offset]? := by
  have bound := written.isLt
  have length : ((encode sipHasher torn).bytes.take written.val).length =
      written.val := by
    rw [List.length_take, (encode sipHasher torn).sized]
    omega
  rw [tornBlock, List.getElem?_append_right (by omega), length,
    Nat.add_sub_cancel_left, List.getElem?_take_of_lt (by omega)]

/-- Torn bytes never let the event behind them through: the header comes out
shifted, or the identifier is not its own. -/
theorem tornBlock_not_next {torn next : SharedAuthEvent}
    {written : Fin recordSize} (some : written.val ≠ 0)
    (distinctMagic : next.eventId[0] ≠ 0x50)
    (distinctTorn : next.eventId[0] ≠ torn.eventId[0]) :
    decode sipHasher (tornBlock sipHasher torn next written) ≠
      .ok (stored next) := by
  intro decoded
  rcases decode_eq_ok decoded with ⟨header, identifier, _⟩
  have byteAt : ∀ index, index < 4 →
      (tornBlock sipHasher torn next written).bytes[index]? =
        magic[index]? := by
    intro index within
    rw [← header, List.getElem?_take_of_lt within]
  have fourth : (tornBlock sipHasher torn next written).bytes[4]? =
      Option.some next.eventId[0] := by
    have first := congrArg (fun bytes => bytes[0]?) identifier
    simp only [List.getElem?_take_of_lt (show 0 < 16 by decide),
      List.getElem?_drop] at first
    rw [← first]
    simp [stored]
  have bound : written.val < 112 := written.isLt
  have size : recordSize = 112 := rfl
  have cases : written.val = 1 ∨ written.val = 2 ∨ written.val = 3 ∨
      written.val = 4 ∨ 4 < written.val := by
    omega
  have front : ∀ offset, offset < 4 → written.val + offset < recordSize →
      (tornBlock sipHasher torn next written).bytes[written.val + offset]? =
        magic[offset]? := by
    intro offset within inside
    rw [tornBlock_getElem_behind sipHasher inside,
      encode_getElem_magic sipHasher next within]
  rcases cases with one | two | three | four | more
  · have wrong := front 1 (by decide) (by omega)
    rw [one, byteAt 2 (by decide)] at wrong
    exact absurd wrong (by decide)
  · have wrong := front 0 (by decide) (by omega)
    rw [two, byteAt 2 (by decide)] at wrong
    exact absurd wrong (by decide)
  · have wrong := front 0 (by decide) (by omega)
    rw [three, byteAt 3 (by decide)] at wrong
    exact absurd wrong (by decide)
  · have wrong := front 0 (by decide) (by omega)
    rw [four, fourth] at wrong
    exact distinctMagic (Option.some.inj wrong)
  · rw [tornBlock_getElem_before sipHasher more,
      encode_getElem_eventId] at fourth
    exact distinctTorn (Option.some.inj fourth).symm

def laterEvent (byte : UInt8) : SharedAuthEvent where
  eventId := Vector.replicate 16 byte
  username := encodeUsername "alice"
  timestamp := 0
  seq := 0
  kind := eventKindFailure
  generation := 0
  flags := 0

theorem laterEvent_storable (byte : UInt8) : Storable (laterEvent byte) where
  username := by
    have role : IsRoleName "alice" := by decide +kernel
    have read := usernameFromBytes_encodeUsername role
    intro unreadable
    rw [laterEvent, read] at unreadable
    cases unreadable
  kind := by
    intro unknown
    cases unknown
  flags := by
    change EventFlags.fromRaw 0 ≠ none
    decide
  timestamp := by
    change InI64 0
    decide
  generation := by
    change InI64 0
    decide

theorem readFile_torn_ne {file : Option (List UInt8)}
    {events : List SharedAuthEvent}
    (storable : ∀ event ∈ events, Storable event)
    (contents : file.getD [] = recordBytes sipHasher events)
    (torn : SharedAuthEvent) {written : Fin recordSize}
    (some : written.val ≠ 0) :
    ∃ next, readFile sipHasher (Option.some
        ((file.getD [] ++ (encode sipHasher torn).bytes.take written.val) ++
          (encode sipHasher next).bytes)) ≠
      readFile sipHasher
        (Option.some (file.getD [] ++ (encode sipHasher next).bytes)) := by
  have bound := written.isLt
  obtain ⟨byte, distinctMagic, distinctTorn⟩ :
      ∃ byte : UInt8, byte ≠ 0x50 ∧ byte ≠ torn.eventId[0] := by
    by_cases first : torn.eventId[0] = 1
    · exact ⟨2, by decide, by rw [first]; decide⟩
    · exact ⟨1, by decide, fun same => first same.symm⟩
  refine ⟨laterEvent byte, ?_⟩
  have identifier : (laterEvent byte).eventId[0] = byte := by
    simp [laterEvent]
  have notNext : decode sipHasher
      (tornBlock sipHasher torn (laterEvent byte) written) ≠
        .ok (stored (laterEvent byte)) :=
    tornBlock_not_next sipHasher some (by rw [identifier]; exact distinctMagic)
      (by rw [identifier]; exact distinctTorn)
  have rest : ((encode sipHasher (laterEvent byte)).bytes.drop
      (recordSize - written.val)).length < recordSize := by
    rw [List.length_drop, (encode sipHasher (laterEvent byte)).sized]
    omega
  have shape : (file.getD [] ++
        (encode sipHasher torn).bytes.take written.val) ++
          (encode sipHasher (laterEvent byte)).bytes =
      recordBytes sipHasher events ++
        ((tornBlock sipHasher torn (laterEvent byte) written).bytes ++
          (encode sipHasher (laterEvent byte)).bytes.drop
            (recordSize - written.val)) := by
    rw [contents, tornBlock]
    simp only [List.append_assoc, List.take_append_drop]
  have whole := readFile_block sipHasher storable
    (encode sipHasher (laterEvent byte))
    (show ([] : List UInt8).length < recordSize by decide)
  rw [List.append_nil, ← contents,
    decode_encode_storable sipHasher (laterEvent_storable byte)] at whole
  intro same
  rw [whole, shape] at same
  exact notNext (decode_of_readFile_block sipHasher storable rest same)

/-! ## The result -/

/-- The ways a call ends in `Unavailable`: before the append, or because of
it. -/
theorem unavailable_cases {queue : Queue} {request : Request}
    {newEventId : Option EventId} {now : TimestampTz}
    {fault : Option AppendFault}
    (unavailable : (enqueueEncodedSilent sipHasher queue request newEventId now
      fault).2.outcome = .unavailable) :
    ((newEventId = none ∨ queue.ring = none) ∧
        (enqueueEncodedSilent sipHasher queue request newEventId now
          fault).1 = queue) ∨
      ∃ eventId ring failure, newEventId = some eventId ∧
        queue.ring = some ring ∧
        (append sipHasher queue.files ((request.offer eventId now).event 0)
          fault).2 = .error failure ∧
        (enqueueEncodedSilent sipHasher queue request newEventId now
          fault).1.files = (append sipHasher queue.files
            ((request.offer eventId now).event 0) fault).1 ∧
        (enqueueEncodedSilent sipHasher queue request newEventId now
          fault).1.ring.map AuthEventRing.contents =
            some ring.contents := by
  rcases queue with ⟨ring, files⟩
  cases newEventId with
  | none => exact .inl ⟨.inl rfl, rfl⟩
  | some eventId =>
      cases ring with
      | none => exact .inl ⟨.inr rfl, rfl⟩
      | some ring =>
          right
          cases appended : append sipHasher files
              ((request.offer eventId now).event 0) fault with
          | mk written result =>
              simp only [enqueueEncodedSilent, appended] at unavailable ⊢
              cases result with
              | ok done =>
                  simp only [AuthEventRing.enqueueEncodedWithId,
                    if_true] at unavailable
                  split at unavailable
                  · cases unavailable
                  · next available => exact absurd unavailable available
              | error failure =>
                  refine ⟨eventId, ring, failure, rfl, rfl, ?_, ?_, ?_⟩
                  · rw [appended]
                  · rw [appended]
                  · simp only [AuthEventRing.enqueueEncodedWithId,
                      Bool.false_eq_true, if_false,
                      AuthEventRing.shouldWarnNow]
                    split
                    · rfl
                    · rfl

/-- The call has no later effect when it ends before a byte is written, and on
an intact active file only then. -/
theorem unavailable_effect {queue : Queue} {request : Request}
    {newEventId : Option EventId} {now : TimestampTz}
    {fault : Option AppendFault}
    (unavailable : (enqueueEncodedSilent sipHasher queue request newEventId now
      fault).2.outcome = .unavailable) :
    (WritesNothing queue newEventId fault →
        NoLaterEffect sipHasher queue (enqueueEncodedSilent sipHasher queue
          request newEventId now fault).1) ∧
      (Intact sipHasher queue.files.active →
        (NoLaterEffect sipHasher queue (enqueueEncodedSilent sipHasher queue
            request newEventId now fault).1 ↔
          WritesNothing queue newEventId fault)) := by
  rcases unavailable_cases sipHasher unavailable with
    ⟨early, same⟩ | ⟨eventId, ring, failure, identified, present, failed,
      writtenFiles, writtenRing⟩
  · rw [same]
    have unwritten : WritesNothing queue newEventId fault := by
      rcases early with noId | noRing
      · exact .inl noId
      · exact .inr (.inl noRing)
    have unchanged : NoLaterEffect sipHasher queue queue :=
      noLaterEffect_of_alike rfl (.inl rfl)
    exact ⟨fun _ => unchanged, fun _ => ⟨fun _ => unwritten,
      fun _ => unchanged⟩⟩
  · generalize (enqueueEncodedSilent sipHasher queue request newEventId now
      fault).1 = after at writtenFiles writtenRing ⊢
    have sufficient : WritesNothing queue newEventId fault →
        NoLaterEffect sipHasher queue after := by
      intro unwritten
      apply noLaterEffect_of_alike
      · rw [writtenRing, present]
        rfl
      · rw [writtenFiles]
        rcases unwritten with noId | noRing | step | step | step
        · rw [identified] at noId
          cases noId
        · rw [present] at noRing
          cases noRing
        · rw [step]
          exact alike_append (.inl rfl)
        · rw [step]
          exact alike_append (.inr (.inl rfl))
        · rw [step]
          exact alike_append (.inr (.inr rfl))
    refine ⟨sufficient, ?_⟩
    intro intact
    refine ⟨?_, sufficient⟩
    intro unaffected
    rcases intact with ⟨events, storable, contents⟩
    cases fault with
    | none => cases failed
    | some fault =>
        cases fault with
        | openFailed => exact .inr (.inr (.inl rfl))
        | permissions => exact .inr (.inr (.inr (.inl rfl)))
        | writeFailed written =>
            by_cases nothing : written.val = 0
            · have zero : written = 0 := Fin.ext nothing
              rw [zero]
              exact .inr (.inr (.inr (.inr rfl)))
            · rcases readFile_torn_ne sipHasher storable contents
                ((request.offer eventId now).event 0) nothing with
                ⟨next, different⟩
              have same := unaffected.active [.append next]
              rw [writtenFiles] at same
              exact absurd same different
        | syncFailed =>
            have same := unaffected.active []
            rw [writtenFiles] at same
            exact absurd same
              (readFile_written_ne sipHasher storable contents _)
        | directorySyncFailed =>
            have same := unaffected.active []
            rw [writtenFiles] at same
            exact absurd same
              (readFile_written_ne sipHasher storable contents _)

end

/-- A grace login of alice on a fresh journal. -/
def freshQueue : Queue := ⟨some AuthEventRing.new, .empty⟩

def graceRequest : Request where
  username := encodeUsername "alice"
  kind := eventKindGraceConsumed
  flags := .none
  generation := 1

/-- `sync_data` fails behind a complete write: the login is told that its event
was not recorded, and a reader finds it. -/
theorem syncFailed_recorded :
    {sipHasher : SipHasher13 |
      let result := enqueueEncodedSilent sipHasher freshQueue graceRequest
        (some (Vector.replicate 16 7)) 0 (some .syncFailed)
      result.2.outcome = .unavailable →
        NoLaterEffect sipHasher freshQueue result.1} = ∅ := by
  apply Set.eq_empty_of_forall_notMem
  intro sipHasher holds
  have unaffected := holds rfl
  have none : ∀ event ∈ ([] : List SharedAuthEvent), Storable event := by
    intro event member
    cases member
  have same := unaffected.active []
  exact readFile_written_ne sipHasher none rfl _ same

theorem openFailed_no_effect :
    {sipHasher : SipHasher13 |
      let result := enqueueEncodedSilent sipHasher freshQueue graceRequest
        (some (Vector.replicate 16 7)) 0 (some .openFailed)
      result.2.outcome = .unavailable ∧
        NoLaterEffect sipHasher freshQueue result.1} = Set.univ := by
  apply Set.eq_univ_of_forall
  intro sipHasher
  refine ⟨rfl, ?_⟩
  exact (unavailable_effect sipHasher rfl).1 (.inr (.inr (.inl rfl)))

end PasswordProfile.AuthJournal.Unrecorded
