import PasswordProfile.AuthJournal.File
import Mathlib.Data.Set.Basic

/-! # Whole journal files

What the encoder writes, the reader and the verifier take back: one record
after the other up to the torn tail of an append that never completed.
-/

namespace PasswordProfile.AuthJournal

open AuthEvent

/-- The results of the given number of successive calls of `next_event`. -/
def JournalReader.results (sipHasher : SipHasher13) :
    Nat → JournalReader →
      List (Except JournalError (Option SharedAuthEvent))
  | 0, _ => []
  | calls + 1, reader =>
      (reader.nextEvent sipHasher).2 ::
        JournalReader.results sipHasher calls
          (reader.nextEvent sipHasher).1

section

variable (sipHasher : SipHasher13)

theorem results_exhausted (remaining : List UInt8) (complete calls : Nat) :
    JournalReader.results sipHasher calls ⟨remaining, complete, complete⟩ =
      List.replicate calls (.ok none) := by
  induction calls with
  | zero => rfl
  | succ calls induction =>
      rw [JournalReader.results, List.replicate_succ]
      simp only [JournalReader.nextEvent, if_true, induction]

theorem results_storable {events : List SharedAuthEvent}
    (storable : ∀ event ∈ events, Storable event) (rest : List UInt8)
    (calls complete : Nat) : ∀ read, read + events.length ≤ complete →
    JournalReader.results sipHasher (events.length + calls)
        ⟨recordBytes sipHasher events ++ rest, complete, read⟩ =
      events.map (fun event => .ok (some (stored event))) ++
        JournalReader.results sipHasher calls
          ⟨rest, complete, read + events.length⟩ := by
  induction events with
  | nil =>
      intro read _
      simp
  | cons event events induction =>
      intro read fits
      rw [List.length_cons] at fits
      have later := induction
        (fun other member => storable other (List.mem_cons_of_mem _ member))
        (read + 1) (by omega)
      have decoded := decode_encode_storable sipHasher
        (storable event List.mem_cons_self)
      rw [List.length_cons, Nat.add_right_comm, JournalReader.results,
        recordBytes_cons, List.append_assoc,
        nextEvent_record sipHasher (by omega), decoded]
      simp only [later]
      rw [Nat.add_right_comm read 1]
      rfl

theorem open_torn (events : List SharedAuthEvent) {tail : List UInt8}
    (torn : tail.length < recordSize) :
    JournalReader.open (recordBytes sipHasher events ++ tail) =
      (recordBytes sipHasher events,
        ⟨recordBytes sipHasher events, events.length, 0⟩) := by
  rw [open_records, Nat.mod_eq_of_lt torn, Nat.div_eq_of_lt torn,
    Nat.sub_self, List.take_zero, List.append_nil, Nat.add_zero]

theorem readAll_storable {events : List SharedAuthEvent}
    (storable : ∀ event ∈ events, Storable event) :
    JournalReader.readAll sipHasher
        ⟨recordBytes sipHasher events, events.length, 0⟩ =
      (events.map stored, .ok ()) := by
  have read := readLoop_storable sipHasher storable [] 1 events.length 0
    (Nat.zero_add _).le
  rw [List.append_nil, Nat.zero_add] at read
  rw [JournalReader.readAll, read]
  simp [JournalReader.readLoop, JournalReader.nextEvent]

theorem verifyFile_storable {events : List SharedAuthEvent}
    (storable : ∀ event ∈ events, Storable event) {tail : List UInt8}
    (torn : tail.length < recordSize) :
    verifyFile sipHasher (recordBytes sipHasher events ++ tail) none =
      (recordBytes sipHasher events, .ok ()) := by
  simp only [verifyFile, open_torn sipHasher events torn,
    readAll_storable sipHasher storable]

/-- A file of encoded events and a strict prefix of one further record is read
back event by event and then as ended, however often the reader is asked; only
the prefix is cut off, and the verifier accepts the file in either place. -/
theorem file_round_trip {events : List SharedAuthEvent}
    (storable : ∀ event ∈ events, Storable event)
    (further : SharedAuthEvent) (cut : Fin recordSize) :
    let contents := recordBytes sipHasher events ++
      (encode sipHasher further).bytes.take cut.val
    let opened := JournalReader.open contents
    opened.1 = recordBytes sipHasher events ∧
      opened.1.length = 112 * events.length ∧
      (∀ calls, opened.2.results sipHasher (events.length + calls) =
        events.map (fun event => .ok (some { event with seq := 0 })) ++
          List.replicate calls (.ok none)) ∧
      verifyPending sipHasher ⟨none, some contents⟩ none none =
        (⟨none, some opened.1⟩, .ok ()) ∧
      verifyPending sipHasher ⟨some contents, none⟩ none none =
        (⟨some opened.1, none⟩, .ok ()) := by
  intro contents opened
  have torn : ((encode sipHasher further).bytes.take cut.val).length <
      recordSize :=
    lt_of_le_of_lt (List.length_take_le _ _) cut.isLt
  have openedEq : opened = (recordBytes sipHasher events,
      ⟨recordBytes sipHasher events, events.length, 0⟩) :=
    open_torn sipHasher events torn
  have verified : verifyFile sipHasher contents none =
      (recordBytes sipHasher events, .ok ()) :=
    verifyFile_storable sipHasher storable torn
  rw [openedEq]
  refine ⟨rfl, recordBytes_length sipHasher events, ?_, ?_, ?_⟩
  · intro calls
    have read := results_storable sipHasher storable [] calls events.length 0
      (Nat.zero_add _).le
    rw [List.append_nil, Nat.zero_add, results_exhausted] at read
    exact read
  · simp only [verifyPending, verifyPath, verified]
  · simp only [verifyPending, verifyPath, verified]

end

/-- An event at both ends of the integer range, as the ring would hold it. -/
def extremeGrace : SharedAuthEvent where
  eventId := Vector.replicate 16 255
  username := encodeUsername "alice"
  timestamp := -(2 ^ 63)
  seq := 7
  kind := eventKindGraceConsumed
  generation := 2 ^ 63 - 1
  flags := eventFlagClearLoginAttempts

theorem extremeGrace_storable : Storable extremeGrace where
  username := by
    have role : IsRoleName "alice" := by decide +kernel
    have read := usernameFromBytes_encodeUsername role
    intro unreadable
    rw [extremeGrace, read] at unreadable
    cases unreadable
  kind := by decide
  flags := by decide
  timestamp := by decide
  generation := by decide

/-- The sum of the bytes, for runs that need some hash function. -/
def byteSum : SipHasher13 :=
  fun _ _ bytes => bytes.foldl (fun sum byte => sum + byte.toUInt64) 0

/-- Two records and 111 bytes of a third, whatever the hash function. -/
theorem file_round_trip_extremeGrace :
    {sipHasher : SipHasher13 |
      (JournalReader.open (recordBytes sipHasher [extremeGrace, extremeGrace] ++
        (encode sipHasher extremeGrace).bytes.take 111)).2.results
          sipHasher 3 =
        [.ok (some { extremeGrace with seq := 0 }),
          .ok (some { extremeGrace with seq := 0 }), .ok none]} =
      Set.univ := by
  apply Set.eq_univ_of_forall
  intro sipHasher
  have storable : ∀ event ∈ [extremeGrace, extremeGrace], Storable event := by
    intro event member
    rcases List.mem_cons.mp member with same | later
    · rw [same]
      exact extremeGrace_storable
    · rw [List.mem_singleton.mp later]
      exact extremeGrace_storable
  have whole := file_round_trip sipHasher storable extremeGrace 111
  exact whole.2.2.1 1

end PasswordProfile.AuthJournal
