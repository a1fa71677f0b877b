import PasswordProfile.AuthJournal.File
import Mathlib.Algebra.Order.BigOperators.Group.List
import Mathlib.Algebra.Order.Ring.Nat

/-! # Appends that are torn

Records have no framing but their offset. A failed append may leave a part of
its record in the active file, and the next append writes right behind it.
-/

namespace PasswordProfile.AuthJournal.TornAppend

open AuthEvent

/-- One call of `append`: it completes, or it fails after copying only a strict
prefix of its record. -/
structure Attempt where
  event : SharedAuthEvent
  admissible : Admissible event
  torn : Option (Fin recordSize)

def Attempt.fault (attempt : Attempt) : Option AppendFault :=
  attempt.torn.map .writeFailed

/-- The files after the calls, and the events whose call returned `Ok`. -/
def appendAll (sipHasher : SipHasher13) :
    Files → List Attempt → Files × List SharedAuthEvent
  | files, [] => (files, [])
  | files, attempt :: rest =>
      match append sipHasher files attempt.event attempt.fault with
      | (next, .ok ()) =>
          let (final, acknowledged) := appendAll sipHasher next rest
          (final, attempt.event :: acknowledged)
      | (next, .error _) => appendAll sipHasher next rest

/-- Rotation, `JournalReader::open` and reading to the end: the bytes that the
truncation keeps, the events and the final result. -/
def replay (sipHasher : SipHasher13) (files : Files) :
    List UInt8 × List SharedAuthEvent × Except JournalError Unit :=
  match (rotate files).processing with
  | none => ([], [], .ok ())
  | some contents =>
      ((JournalReader.open contents).1,
        (JournalReader.open contents).2.readAll sipHasher)

def activeLength (files : Files) : Nat := (files.active.getD []).length

structure Survives (sipHasher : SipHasher13) (attempts : List Attempt) :
    Prop where
  notCorrupt :
    (replay sipHasher (appendAll sipHasher .empty attempts).1).2.2 = .ok ()
  yielded : (appendAll sipHasher .empty attempts).2.Sublist
    (replay sipHasher (appendAll sipHasher .empty attempts).1).2.1
  notTruncated : ∀ before attempt after,
    attempts = before ++ attempt :: after → attempt.torn = none →
      activeLength (appendAll sipHasher .empty before).1 + recordSize ≤
        (replay sipHasher (appendAll sipHasher .empty attempts).1).1.length

def Attempt.bytesWritten (attempt : Attempt) : Nat :=
  match attempt.torn with
  | none => recordSize
  | some written => written.val

/-- How many bytes reach the file from the first torn byte on. -/
def bytesFromFirstTear : List Attempt → Nat
  | [] => 0
  | attempt :: rest =>
      match attempt.torn with
      | none => bytesFromFirstTear rest
      | some written =>
          if written.val = 0 then bytesFromFirstTear rest
          else written.val + (rest.map Attempt.bytesWritten).sum

/-! ## The contents of the file -/

section

variable (sipHasher : SipHasher13)

def Attempt.written (attempt : Attempt) : List UInt8 :=
  match attempt.torn with
  | none => (encode sipHasher attempt.event).bytes
  | some written => (encode sipHasher attempt.event).bytes.take written.val

def contents (attempts : List Attempt) : List UInt8 :=
  attempts.flatMap (Attempt.written sipHasher)

def intact : List Attempt → List SharedAuthEvent
  | [] => []
  | attempt :: rest =>
      match attempt.torn with
      | none => attempt.event :: intact rest
      | some written => if written.val = 0 then intact rest else []

def tornTail : List Attempt → List UInt8
  | [] => []
  | attempt :: rest =>
      match attempt.torn with
      | none => tornTail rest
      | some written =>
          if written.val = 0 then tornTail rest
          else attempt.written sipHasher ++ contents sipHasher rest

def acknowledged (attempts : List Attempt) : List SharedAuthEvent :=
  (attempts.filter fun attempt => attempt.torn = none).map Attempt.event

theorem written_length (attempt : Attempt) :
    (attempt.written sipHasher).length = attempt.bytesWritten := by
  unfold Attempt.written Attempt.bytesWritten
  cases attempt.torn with
  | none => exact (encode sipHasher attempt.event).sized
  | some written =>
      rw [List.length_take, (encode sipHasher attempt.event).sized]
      exact Nat.min_eq_left (Nat.le_of_lt written.isLt)

theorem contents_length (attempts : List Attempt) :
    (contents sipHasher attempts).length =
      (attempts.map Attempt.bytesWritten).sum := by
  induction attempts with
  | nil => rfl
  | cons attempt rest induction =>
      rw [contents, List.flatMap_cons, List.length_append, written_length,
        List.map_cons, List.sum_cons, ← induction]
      rfl

theorem tornTail_length (attempts : List Attempt) :
    (tornTail sipHasher attempts).length = bytesFromFirstTear attempts := by
  induction attempts with
  | nil => rfl
  | cons attempt rest induction =>
      rw [tornTail, bytesFromFirstTear]
      cases torn : attempt.torn with
      | none => exact induction
      | some written =>
          by_cases zero : written.val = 0
          · simp only [if_pos zero]
            exact induction
          · simp only [if_neg zero, List.length_append, written_length,
              contents_length, Attempt.bytesWritten, torn]

theorem contents_eq (attempts : List Attempt) :
    contents sipHasher attempts =
      recordBytes sipHasher (intact attempts) ++
        tornTail sipHasher attempts := by
  induction attempts with
  | nil => rfl
  | cons attempt rest induction =>
      rw [contents, List.flatMap_cons, intact, tornTail]
      change attempt.written sipHasher ++ contents sipHasher rest = _
      cases torn : attempt.torn with
      | none =>
          rw [induction, ← List.append_assoc]
          simp only [Attempt.written, torn, recordBytes_cons]
      | some written =>
          by_cases zero : written.val = 0
          · simp only [if_pos zero, ← induction]
            simp [Attempt.written, torn, zero]
          · simp only [if_neg zero]
            rfl

theorem acknowledged_eq_intact (attempts : List Attempt)
    (short : bytesFromFirstTear attempts < recordSize) :
    acknowledged attempts = intact attempts := by
  induction attempts with
  | nil => rfl
  | cons attempt rest induction =>
      rw [bytesFromFirstTear] at short
      rw [intact, acknowledged, List.filter_cons]
      cases torn : attempt.torn with
      | none =>
          rw [torn] at short
          have later := induction short
          rw [acknowledged] at later
          simp [later]
      | some written =>
          rw [torn] at short
          by_cases zero : written.val = 0
          · simp only [if_pos zero] at short ⊢
            exact induction short
          · simp only [if_neg zero] at short ⊢
            have noneLater : ∀ other ∈ rest, other.torn ≠ none := by
              intro other member completed
              have counted := List.le_sum_of_mem
                (List.mem_map_of_mem (f := Attempt.bytesWritten) member)
              simp only [Attempt.bytesWritten, completed] at counted
              omega
            simpa using noneLater

theorem intact_admissible (attempts : List Attempt) :
    ∀ event ∈ intact attempts, Admissible event := by
  induction attempts with
  | nil => simp [intact]
  | cons attempt rest induction =>
      rw [intact]
      cases attempt.torn with
      | none =>
          intro event member
          rcases List.mem_cons.mp member with rfl | later
          · exact attempt.admissible
          · exact induction event later
      | some written =>
          by_cases zero : written.val = 0
          · simpa [zero] using induction
          · simp [zero]

/-! ## What the calls leave behind -/

theorem append_attempt (files : Files) (attempt : Attempt) :
    append sipHasher files attempt.event attempt.fault =
      ({ files with
          active := some (files.active.getD [] ++
            attempt.written sipHasher) },
        if attempt.torn = none then .ok () else .error .io) := by
  unfold Attempt.fault Attempt.written
  cases attempt.torn with
  | none => rfl
  | some written => rfl

theorem appendAll_spec (attempts : List Attempt) : ∀ files : Files,
    (appendAll sipHasher files attempts).1.processing = files.processing ∧
      (appendAll sipHasher files attempts).1.active.getD [] =
        files.active.getD [] ++ contents sipHasher attempts ∧
      (appendAll sipHasher files attempts).2 = acknowledged attempts := by
  induction attempts with
  | nil =>
      intro files
      exact ⟨rfl, (List.append_nil _).symm, rfl⟩
  | cons attempt rest induction =>
      intro files
      rcases induction { files with
          active := some (files.active.getD [] ++
            attempt.written sipHasher) } with ⟨processing, active, oks⟩
      rw [appendAll, append_attempt, acknowledged, List.filter_cons, contents,
        List.flatMap_cons, ← List.append_assoc]
      cases torn : attempt.torn with
      | none =>
          rw [acknowledged] at oks
          simp only [if_true, oks, decide_true, List.map_cons]
          exact ⟨processing, active, trivial⟩
      | some written =>
          simp only [reduceCtorEq, if_false, decide_false]
          exact ⟨processing, active, oks⟩

theorem replay_eq {files : Files} (rotated : files.processing = none) :
    replay sipHasher files =
      ((JournalReader.open (files.active.getD [])).1,
        (JournalReader.open (files.active.getD [])).2.readAll sipHasher) := by
  rcases files with ⟨active, processing⟩
  simp only at rotated
  rw [rotated, replay]
  cases active with
  | none => rfl
  | some contents =>
      cases contents with
      | nil => rfl
      | cons byte rest => rfl

theorem replay_appendAll (attempts : List Attempt) :
    replay sipHasher (appendAll sipHasher .empty attempts).1 =
      ((JournalReader.open (recordBytes sipHasher (intact attempts) ++
          tornTail sipHasher attempts)).1,
        (JournalReader.open (recordBytes sipHasher (intact attempts) ++
          tornTail sipHasher attempts)).2.readAll sipHasher) := by
  rcases appendAll_spec sipHasher attempts .empty with ⟨processing, active, _⟩
  have whole : (appendAll sipHasher .empty attempts).1.active.getD [] =
      recordBytes sipHasher (intact attempts) ++
        tornTail sipHasher attempts := by
    rw [active, contents_eq]
    rfl
  rw [replay_eq sipHasher processing, whole]

/-! ## A short tail is harmless -/

theorem replay_short {attempts : List Attempt}
    (short : bytesFromFirstTear attempts < recordSize) :
    replay sipHasher (appendAll sipHasher .empty attempts).1 =
      (recordBytes sipHasher (intact attempts), intact attempts, .ok ()) := by
  rw [← tornTail_length sipHasher] at short
  have read := readLoop_records sipHasher (intact_admissible attempts) [] 1
    (intact attempts).length 0 (by omega)
  rw [replay_appendAll, open_records]
  simp only [Nat.mod_eq_of_lt short, Nat.div_eq_of_lt short, Nat.sub_self,
    List.take_zero, List.append_nil, Nat.add_zero, JournalReader.readAll]
  rw [List.append_nil] at read
  rw [read]
  simp [JournalReader.readLoop, JournalReader.nextEvent]

theorem bytesFromFirstTear_le (attempts : List Attempt) :
    bytesFromFirstTear attempts ≤ (attempts.map Attempt.bytesWritten).sum := by
  induction attempts with
  | nil => exact Nat.le_refl 0
  | cons attempt rest induction =>
      rw [bytesFromFirstTear, List.map_cons, List.sum_cons,
        Attempt.bytesWritten]
      cases attempt.torn with
      | none => exact Nat.le_add_left_of_le induction
      | some written =>
          by_cases zero : written.val = 0
          · simp only [if_pos zero]
            exact Nat.le_add_left_of_le induction
          · simp only [if_neg zero]
            exact Nat.le_refl _

theorem tear_behind_completed {attempt : Attempt} {after : List Attempt}
    (completed : attempt.torn = none) : ∀ before : List Attempt,
    bytesFromFirstTear (before ++ attempt :: after) < recordSize →
      bytesFromFirstTear (before ++ attempt :: after) ≤
        (after.map Attempt.bytesWritten).sum := by
  intro before
  induction before with
  | nil =>
      intro _
      rw [List.nil_append, bytesFromFirstTear]
      simp only [completed]
      exact bytesFromFirstTear_le after
  | cons first before induction =>
      rw [List.cons_append, bytesFromFirstTear]
      cases first.torn with
      | none => exact induction
      | some written =>
          by_cases zero : written.val = 0
          · simp only [if_pos zero]
            exact induction
          · intro short
            simp only [if_neg zero, List.map_append, List.map_cons,
              List.sum_append, List.sum_cons, Attempt.bytesWritten,
              completed] at short
            omega

theorem survives_of_short {attempts : List Attempt}
    (short : bytesFromFirstTear attempts < recordSize) :
    Survives sipHasher attempts where
  notCorrupt := by rw [replay_short sipHasher short]
  yielded := by
    rw [replay_short sipHasher short, (appendAll_spec sipHasher attempts _).2.2,
      acknowledged_eq_intact attempts short]
  notTruncated := by
    intro before attempt after split completed
    have behind := tear_behind_completed completed before (split ▸ short)
    have whole := congrArg List.length (contents_eq sipHasher attempts)
    rw [contents_length, List.length_append, tornTail_length] at whole
    rw [← split] at behind
    have parts : (attempts.map Attempt.bytesWritten).sum =
        (before.map Attempt.bytesWritten).sum + (recordSize +
          (after.map Attempt.bytesWritten).sum) := by
      rw [split, List.map_append, List.sum_append, List.map_cons,
        List.sum_cons, Attempt.bytesWritten, completed]
    have start : activeLength (appendAll sipHasher .empty before).1 =
        (before.map Attempt.bytesWritten).sum := by
      rw [activeLength, (appendAll_spec sipHasher before _).2.1,
        ← contents_length sipHasher]
      rfl
    rw [replay_short sipHasher short, start]
    change _ ≤ (recordBytes sipHasher (intact attempts)).length
    omega

/-! ## A long tail is a garbled record -/

theorem le_sub_mod {size total : Nat} (fits : size ≤ total) :
    size ≤ total - total % size := by
  rcases Nat.eq_zero_or_pos size with rfl | positive
  · exact Nat.zero_le _
  have whole : total - total % size = size * (total / size) := by
    have := Nat.mod_add_div total size
    omega
  rw [whole]
  exact Nat.le_mul_of_pos_right size (Nat.div_pos fits positive)

def tornBlock (attempts : List Attempt)
    (long : recordSize ≤ bytesFromFirstTear attempts) : Record where
  bytes := (tornTail sipHasher attempts).take recordSize
  sized := by
    rw [List.length_take, tornTail_length]
    exact Nat.min_eq_left long

theorem replay_long {attempts : List Attempt}
    (long : recordSize ≤ bytesFromFirstTear attempts)
    {failure : JournalError}
    (garbled : decode sipHasher (tornBlock sipHasher attempts long) =
      .error failure) :
    (replay sipHasher (appendAll sipHasher .empty attempts).1).2.2 =
      .error failure := by
  have tailLength := tornTail_length sipHasher attempts
  generalize tail : tornTail sipHasher attempts = bytes at tailLength
  have kept : ∃ rest, bytes.take (bytes.length - bytes.length % recordSize) =
      (tornBlock sipHasher attempts long).bytes ++ rest := by
    refine ⟨(bytes.take
      (bytes.length - bytes.length % recordSize)).drop recordSize, ?_⟩
    have enough : recordSize ≤ bytes.length - bytes.length % recordSize :=
      le_sub_mod (tailLength ▸ long)
    have front : (tornBlock sipHasher attempts long).bytes =
        (bytes.take (bytes.length - bytes.length % recordSize)).take
          recordSize := by
      rw [List.take_take, Nat.min_eq_left enough, ← tail]
      rfl
    rw [front, List.take_append_drop]
  rcases kept with ⟨rest, kept⟩
  have several : bytes.length / recordSize ≠ 0 := by
    rw [tailLength]
    exact Nat.ne_of_gt (Nat.div_pos long (by decide))
  have read := readLoop_records sipHasher (intact_admissible attempts)
    ((tornBlock sipHasher attempts long).bytes ++ rest)
    (bytes.length / recordSize + 1)
    ((intact attempts).length + bytes.length / recordSize) 0
    (by rw [Nat.zero_add]; exact Nat.le_add_right _ _)
  rw [replay_appendAll, tail, open_records, kept]
  simp only [JournalReader.readAll, Nat.add_assoc, read]
  rw [JournalReader.readLoop,
    nextEvent_record sipHasher (by omega), garbled]
  rfl

/-- The block at the first torn byte passes for a record, checksum included. -/
def TornBlockDecodes (attempts : List Attempt) : Prop :=
  ∃ long event, decode sipHasher (tornBlock sipHasher attempts long) = .ok event

/-- Acknowledged records survive when no append succeeds behind torn bytes and
the torn bytes stay below one record. They are lost otherwise, unless torn
bytes collide with the checksum. -/
theorem survives_iff_short_tear (attempts : List Attempt) :
    (bytesFromFirstTear attempts < recordSize →
        Survives sipHasher attempts) ∧
      (¬TornBlockDecodes sipHasher attempts →
        (Survives sipHasher attempts ↔
          bytesFromFirstTear attempts < recordSize)) := by
  refine ⟨survives_of_short sipHasher, fun garbled => ⟨fun survives => ?_,
    survives_of_short sipHasher⟩⟩
  by_contra notShort
  have long : recordSize ≤ bytesFromFirstTear attempts :=
    Nat.le_of_not_lt notShort
  cases decoded : decode sipHasher (tornBlock sipHasher attempts long) with
  | ok event => exact garbled ⟨long, event, decoded⟩
  | error failure =>
      have lost := replay_long sipHasher long decoded
      rw [survives.notCorrupt] at lost
      cases lost

end

def aliceFailure : SharedAuthEvent where
  eventId := Vector.replicate 16 7
  username := encodeUsername "alice"
  timestamp := 123
  seq := 0
  kind := eventKindFailure
  generation := 0
  flags := 0

theorem aliceFailure_admissible : Admissible aliceFailure where
  username := ⟨"alice", by decide +kernel, rfl⟩
  kind := by decide
  flags := by decide
  seq := rfl
  timestamp := by decide
  generation := by decide

/-- One byte of a failed append, then an append that returns `Ok`. -/
def tornThenAppended : List Attempt :=
  [⟨aliceFailure, aliceFailure_admissible, some 1⟩,
    ⟨aliceFailure, aliceFailure_admissible, none⟩]

theorem tornThenAppended_garbled (sipHasher : SipHasher13) :
    decode sipHasher (tornBlock sipHasher tornThenAppended (by decide)) =
      .error (.corrupt "auth journal record has an invalid header") := by
  have shifted : (tornBlock sipHasher tornThenAppended
      (by decide)).bytes.take 4 = [0x50, 0x50, 0x50, 0x4a] := rfl
  rw [decode, if_pos (by rw [shifted]; decide)]

/-- Whatever the hash function, the acknowledged record is lost. -/
theorem tornThenAppended_lost :
    {sipHasher : SipHasher13 | Survives sipHasher tornThenAppended} = ∅ := by
  apply Set.eq_empty_of_forall_notMem
  intro sipHasher survives
  have lost := replay_long sipHasher (by decide)
    (tornThenAppended_garbled sipHasher)
  rw [survives.notCorrupt] at lost
  cases lost

end PasswordProfile.AuthJournal.TornAppend
