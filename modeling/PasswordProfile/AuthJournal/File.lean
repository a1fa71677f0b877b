import PasswordProfile.AuthJournal.Record

/-! # Journal files

Producers append whole records to the active file, the worker rotates it into
the processing file and reads that one from the start. Failures of the file
system are arguments, so a run chooses them freely.
-/

namespace PasswordProfile.AuthJournal

open AuthEvent

/-- The two files of the journal; a missing file is `none`. -/
structure Files where
  active : Option (List UInt8)
  processing : Option (List UInt8)
  deriving DecidableEq

def Files.empty : Files := ⟨none, none⟩

/-- The step of `append` that fails. A failed write has copied a strict part of
the record. -/
inductive AppendFault
  | openFailed
  | permissions
  | writeFailed (written : Fin recordSize)
  | syncFailed
  | directorySyncFailed
  deriving DecidableEq, Repr

def append (sipHasher : SipHasher13) (files : Files) (event : SharedAuthEvent)
    (fault : Option AppendFault) : Files × Except JournalError Unit :=
  let newFile := files.active.isNone
  let contents := files.active.getD []
  let record := (encode sipHasher event).bytes
  match fault with
  | some .openFailed => (files, .error .io)
  | some .permissions =>
      ({ files with active := some contents }, .error (.corrupt
        "auth journal permissions must not grant group or other access"))
  | some (.writeFailed written) =>
      ({ files with active := some (contents ++ record.take written.val) },
        .error .io)
  | some .syncFailed =>
      ({ files with active := some (contents ++ record) }, .error .io)
  | some .directorySyncFailed =>
      ({ files with active := some (contents ++ record) },
        if newFile then .error .io else .ok ())
  | none => ({ files with active := some (contents ++ record) }, .ok ())

def rotate (files : Files) : Files :=
  match files.processing, files.active with
  | some _, _ => files
  | none, some contents =>
      if contents.length > 0 then ⟨none, some contents⟩ else files
  | none, none => files

structure JournalReader where
  remaining : List UInt8
  completeRecords : Nat
  readRecords : Nat
  deriving DecidableEq

namespace JournalReader

def «open» (contents : List UInt8) : List UInt8 × JournalReader :=
  let completeLen := contents.length - contents.length % recordSize
  let kept := contents.take completeLen
  (kept,
    { remaining := kept
      completeRecords := completeLen / recordSize
      readRecords := 0 })

def nextEvent (sipHasher : SipHasher13) (reader : JournalReader) :
    JournalReader × Except JournalError (Option SharedAuthEvent) :=
  if reader.readRecords = reader.completeRecords then
    (reader, .ok none)
  else if sized : (reader.remaining.take recordSize).length = recordSize then
    ({ reader with
        remaining := reader.remaining.drop recordSize
        readRecords := reader.readRecords + 1 },
      (decode sipHasher ⟨reader.remaining.take recordSize, sized⟩).map some)
  else ({ reader with remaining := [] }, .error .io)

/-- Call `nextEvent` until it returns no event or fails. -/
def readLoop (sipHasher : SipHasher13) :
    Nat → JournalReader → List SharedAuthEvent × Except JournalError Unit
  | 0, _ => ([], .ok ())
  | calls + 1, reader =>
      match reader.nextEvent sipHasher with
      | (_, .error failure) => ([], .error failure)
      | (_, .ok none) => ([], .ok ())
      | (next, .ok (some event)) =>
          let (events, result) := readLoop sipHasher calls next
          (event :: events, result)

def readAll (sipHasher : SipHasher13) (reader : JournalReader) :
    List SharedAuthEvent × Except JournalError Unit :=
  reader.readLoop sipHasher (reader.completeRecords + 1)

end JournalReader

/-- Where reading a file through goes wrong: at `open` or `metadata`, when the
torn tail is cut off, when the cut is made durable, or at the read behind the
given number of records. -/
inductive ReadFault
  | openFailed
  | truncateFailed
  | syncFailed
  | readFailed (records : Nat)
  deriving DecidableEq, Repr

/-- One file of `verify_pending`: its bytes afterwards, and the result. -/
def verifyFile (sipHasher : SipHasher13) (contents : List UInt8)
    (fault : Option ReadFault) : List UInt8 × Except JournalError Unit :=
  let (kept, reader) := JournalReader.open contents
  let torn := contents.length % recordSize ≠ 0
  match fault with
  | some .openFailed => (contents, .error .io)
  | some .truncateFailed =>
      if torn then (contents, .error .io)
      else (kept, (reader.readAll sipHasher).2)
  | some .syncFailed =>
      if torn then (kept, .error .io)
      else (kept, (reader.readAll sipHasher).2)
  | some (.readFailed records) =>
      if records < reader.completeRecords then
        match (reader.readLoop sipHasher records).2 with
        | .error failure => (kept, .error failure)
        | .ok () => (kept, .error .io)
      else (kept, (reader.readAll sipHasher).2)
  | none => (kept, (reader.readAll sipHasher).2)

/-- One iteration of `verify_pending`: a path without a file is skipped. -/
def verifyPath (sipHasher : SipHasher13) (file : Option (List UInt8))
    (fault : Option ReadFault) :
    Option (List UInt8) × Except JournalError Unit :=
  match file with
  | none => (none, .ok ())
  | some contents =>
      let (kept, result) := verifyFile sipHasher contents fault
      (some kept, result)

/-- Read both files to their end, truncating torn tails. The active file is not
opened once the processing file was refused. -/
def verifyPending (sipHasher : SipHasher13) (files : Files)
    (processingFault activeFault : Option ReadFault) :
    Files × Except JournalError Unit :=
  match verifyPath sipHasher files.processing processingFault with
  | (processing, .error failure) => ({ files with processing }, .error failure)
  | (processing, .ok ()) =>
      let (active, result) := verifyPath sipHasher files.active activeFault
      (⟨active, processing⟩, result)

/-! ## Reading encoded records -/

section

variable (sipHasher : SipHasher13)

/-- The bytes of a sequence of whole records. -/
def recordBytes (events : List SharedAuthEvent) : List UInt8 :=
  events.flatMap fun event => (encode sipHasher event).bytes

@[simp] theorem recordBytes_nil : recordBytes sipHasher [] = [] := rfl

theorem recordBytes_cons (event : SharedAuthEvent)
    (rest : List SharedAuthEvent) :
    recordBytes sipHasher (event :: rest) =
      (encode sipHasher event).bytes ++ recordBytes sipHasher rest := rfl

theorem recordBytes_append (first second : List SharedAuthEvent) :
    recordBytes sipHasher (first ++ second) =
      recordBytes sipHasher first ++ recordBytes sipHasher second :=
  List.flatMap_append

@[simp] theorem recordBytes_length (events : List SharedAuthEvent) :
    (recordBytes sipHasher events).length = recordSize * events.length := by
  induction events with
  | nil => rfl
  | cons event rest induction =>
      rw [recordBytes_cons, List.length_append, induction,
        (encode sipHasher event).sized, List.length_cons, Nat.mul_succ,
        Nat.add_comm]

theorem nextEvent_record {record : Record} {rest : List UInt8}
    {complete read : Nat} (more : read ≠ complete) :
    JournalReader.nextEvent sipHasher ⟨record.bytes ++ rest, complete, read⟩ =
      (⟨rest, complete, read + 1⟩, (decode sipHasher record).map some) := by
  have front : (record.bytes ++ rest).take recordSize = record.bytes :=
    List.take_left' record.sized
  have back : (record.bytes ++ rest).drop recordSize = rest :=
    List.drop_left' record.sized
  simp only [JournalReader.nextEvent, if_neg more, front, back,
    dif_pos record.sized]

theorem readLoop_storable {events : List SharedAuthEvent}
    (storable : ∀ event ∈ events, Storable event) (rest : List UInt8)
    (calls complete : Nat) : ∀ read, read + events.length ≤ complete →
    JournalReader.readLoop sipHasher (events.length + calls)
        ⟨recordBytes sipHasher events ++ rest, complete, read⟩ =
      (events.map stored ++ (JournalReader.readLoop sipHasher calls
          ⟨rest, complete, read + events.length⟩).1,
        (JournalReader.readLoop sipHasher calls
          ⟨rest, complete, read + events.length⟩).2) := by
  induction events with
  | nil =>
      intro read _
      simp
  | cons event events induction =>
      intro read fits
      rw [List.length_cons] at fits
      have later := induction
        (fun other member => storable other (List.mem_cons_of_mem _ member))
        (read + 1) (by omega)
      have decoded := decode_encode_storable sipHasher
        (storable event List.mem_cons_self)
      rw [List.length_cons, Nat.add_right_comm, JournalReader.readLoop,
        recordBytes_cons, List.append_assoc,
        nextEvent_record sipHasher (by omega), decoded]
      simp only [Except.map, later]
      rw [Nat.add_right_comm read 1]
      rfl

theorem map_stored_eq {events : List SharedAuthEvent}
    (admissible : ∀ event ∈ events, Admissible event) :
    events.map stored = events := by
  conv => rhs; rw [← List.map_id events]
  apply List.map_congr_left
  intro event member
  exact (admissible event member).stored_eq

theorem readLoop_records {events : List SharedAuthEvent}
    (admissible : ∀ event ∈ events, Admissible event) (rest : List UInt8)
    (calls complete : Nat) : ∀ read, read + events.length ≤ complete →
    JournalReader.readLoop sipHasher (events.length + calls)
        ⟨recordBytes sipHasher events ++ rest, complete, read⟩ =
      (events ++ (JournalReader.readLoop sipHasher calls
          ⟨rest, complete, read + events.length⟩).1,
        (JournalReader.readLoop sipHasher calls
          ⟨rest, complete, read + events.length⟩).2) := by
  intro read fits
  rw [readLoop_storable sipHasher
    (fun event member => (admissible event member).storable) rest calls
    complete read fits, map_stored_eq admissible]

theorem open_records (events : List SharedAuthEvent) (tail : List UInt8) :
    JournalReader.open (recordBytes sipHasher events ++ tail) =
      (recordBytes sipHasher events ++
          tail.take (tail.length - tail.length % recordSize),
        ⟨recordBytes sipHasher events ++
            tail.take (tail.length - tail.length % recordSize),
          events.length + tail.length / recordSize, 0⟩) := by
  have total : (recordBytes sipHasher events ++ tail).length =
      recordSize * events.length + tail.length := by simp
  have remainder : (recordSize * events.length + tail.length) % recordSize =
      tail.length % recordSize := Nat.mul_add_mod _ _ _
  have small := Nat.mod_le tail.length recordSize
  have complete : recordSize * events.length + tail.length -
      tail.length % recordSize =
        recordSize * events.length +
          (tail.length - tail.length % recordSize) := by
    omega
  have quotient : (recordSize * events.length +
      (tail.length - tail.length % recordSize)) / recordSize =
        events.length + tail.length / recordSize := by
    rw [Nat.mul_add_div (by decide), ← Nat.div_eq_sub_mod_div]
  have kept : (recordBytes sipHasher events ++ tail).take
      (recordSize * events.length +
        (tail.length - tail.length % recordSize)) =
      recordBytes sipHasher events ++
        tail.take (tail.length - tail.length % recordSize) := by
    rw [← recordBytes_length sipHasher events, List.take_length_add_append]
  simp only [JournalReader.open, total, remainder, complete, quotient, kept]

end

end PasswordProfile.AuthJournal
