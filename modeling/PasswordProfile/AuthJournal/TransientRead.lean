import PasswordProfile.AuthJournal.RoundTrip
import PasswordProfile.Foundation.BufferedReader
import PasswordProfile.Foundation.Execution

/-! # Reads that fail and are tried again

`JournalReader` reads through a `BufReader` and counts records, and
`consume_events` calls `next_event` again on the same reader after an I/O
error. The count is of records; where the stream stands is another matter.
-/

namespace PasswordProfile.AuthJournal.TransientRead

open AuthEvent Execution BufferedReader

/-- The capacity of `BufReader::new`. -/
@[irreducible] def bufferCapacity : Nat := 8192

theorem recordSize_le_bufferCapacity : recordSize ≤ bufferCapacity := by
  unfold bufferCapacity
  decide

structure Reader where
  inner : BufReader UInt8
  completeRecords : Nat
  readRecords : Nat
  deriving DecidableEq

namespace Reader

def «open» (contents : List UInt8) : Reader :=
  let (kept, reader) := JournalReader.open contents
  ⟨⟨[], kept⟩, reader.completeRecords, reader.readRecords⟩

/-- The outcomes are those of the reads of the file that this call makes. -/
def nextEvent (sipHasher : SipHasher13) (reader : Reader)
    (outcomes : List ReadOutcome) :
    Reader × Except JournalError (Option SharedAuthEvent) :=
  if reader.readRecords = reader.completeRecords then (reader, .ok none)
  else
    match reader.inner.readExact bufferCapacity recordSize outcomes with
    | (inner, none) => ({ reader with inner }, .error .io)
    | (inner, some bytes) =>
        if sized : bytes.length = recordSize then
          ({ reader with inner, readRecords := reader.readRecords + 1 },
            (decode sipHasher ⟨bytes, sized⟩).map some)
        else ({ reader with inner }, .error .io)

def view (reader : Reader) : JournalReader :=
  ⟨reader.inner.rest, reader.completeRecords, reader.readRecords⟩

/-- A read fails after a part of the current record was copied. -/
def TearsRecord (reader : Reader) (outcomes : List ReadOutcome) : Prop :=
  reader.readRecords ≠ reader.completeRecords ∧
    reader.inner.TearsAt bufferCapacity recordSize outcomes

instance (reader : Reader) (outcomes : List ReadOutcome) :
    Decidable (reader.TearsRecord outcomes) :=
  inferInstanceAs (Decidable (_ ∧ _))

end Reader

/-- The calls of `next_event` on one batch and what they returned. -/
structure Batch where
  reader : Reader
  results : List (Except JournalError (Option SharedAuthEvent))

def start (contents : List UInt8) : Batch := ⟨.open contents, []⟩

def Batch.call (sipHasher : SipHasher13) (batch : Batch)
    (outcomes : List ReadOutcome) : Batch where
  reader := (batch.reader.nextEvent sipHasher outcomes).1
  results := batch.results ++ [(batch.reader.nextEvent sipHasher outcomes).2]

def machine (sipHasher : SipHasher13) : Machine Batch (List ReadOutcome) where
  step batch outcomes := some (batch.call sipHasher outcomes)

def yielded : Except JournalError (Option SharedAuthEvent) →
    Option SharedAuthEvent
  | .ok event => event
  | .error _ => none

def Batch.events (batch : Batch) : List SharedAuthEvent :=
  batch.results.filterMap yielded

/-- The results are those of a replay that nothing derailed. -/
structure Faithful (events : List SharedAuthEvent)
    (results : List (Except JournalError (Option SharedAuthEvent))) :
    Prop where
  inOrder : results.filterMap yielded <+: events
  notCorrupt : ∀ reason, .error (.corrupt reason) ∉ results
  ended : ∀ before after, results = before ++ .ok none :: after →
    before.filterMap yielded = events

/-! ## One call -/

section

variable (sipHasher : SipHasher13)

/-- A call that does not tear a record either fails and leaves the reader as it
was, or is the call of the reader without a buffer. -/
theorem nextEvent_untorn {reader : Reader} {outcomes : List ReadOutcome}
    (untorn : ¬reader.TearsRecord outcomes) :
    (reader.nextEvent sipHasher outcomes = (reader, .error .io)) ∨
      ((reader.nextEvent sipHasher outcomes).1.view,
        (reader.nextEvent sipHasher outcomes).2) =
          reader.view.nextEvent sipHasher := by
  by_cases ended : reader.readRecords = reader.completeRecords
  · right
    have viewEnded : reader.view.readRecords = reader.view.completeRecords :=
      ended
    rw [Reader.nextEvent, if_pos ended, JournalReader.nextEvent,
      if_pos viewEnded]
  · have whole : ¬reader.inner.TearsAt bufferCapacity recordSize outcomes :=
      fun torn => untorn ⟨ended, torn⟩
    cases read :
        reader.inner.readExact bufferCapacity recordSize outcomes with
    | mk inner result =>
        cases result with
        | none =>
            left
            have same := BufReader.readExact_none whole read
            simp only [Reader.nextEvent, if_neg ended, read, same]
        | some bytes =>
            right
            rcases BufReader.readExact_some read with ⟨sized, front⟩
            have ideal := @nextEvent_record sipHasher ⟨bytes, sized⟩
              inner.rest reader.completeRecords reader.readRecords ended
            simp only [Reader.nextEvent, if_neg ended, read, dif_pos sized,
              Reader.view, front, ideal]

theorem start_reader (events : List SharedAuthEvent) :
    (start (recordBytes sipHasher events)).reader =
      ⟨⟨[], recordBytes sipHasher events⟩, events.length, 0⟩ := by
  have opened := open_torn sipHasher events
    (show ([] : List UInt8).length < recordSize by decide)
  rw [List.append_nil] at opened
  simp only [start, Reader.open, opened]

end

theorem filterMap_yielded_failed
    (results : List (Except JournalError (Option SharedAuthEvent)))
    (failure : JournalError) :
    (results ++ [Except.error failure]).filterMap yielded =
      results.filterMap yielded := by
  simp [yielded]

theorem Faithful.concat {events : List SharedAuthEvent}
    {results : List (Except JournalError (Option SharedAuthEvent))}
    {result : Except JournalError (Option SharedAuthEvent)}
    (faithful : Faithful events results)
    (inOrder : (results ++ [result]).filterMap yielded <+: events)
    (notCorrupt : ∀ reason, result ≠ .error (.corrupt reason))
    (ended : result = .ok none → results.filterMap yielded = events) :
    Faithful events (results ++ [result]) where
  inOrder := inOrder
  notCorrupt := by
    intro reason member
    rcases List.mem_append.mp member with earlier | last
    · exact faithful.notCorrupt reason earlier
    · exact notCorrupt reason (List.mem_singleton.mp last).symm
  ended := by
    intro before after split
    rcases List.eq_nil_or_concat after with none | ⟨init, last, some⟩
    · rw [none] at split
      have parts := List.append_inj' split rfl
      rw [← parts.1]
      exact ended (List.singleton_inj.mp parts.2)
    · rw [some, List.concat_eq_append, ← List.cons_append,
        ← List.append_assoc] at split
      have parts := List.append_inj' split rfl
      exact faithful.ended before init parts.1

/-! ## A replay without torn records -/

structure OnTrack (sipHasher : SipHasher13) (events : List SharedAuthEvent)
    (batch : Batch) : Prop where
  position : ∃ done rest, events = done ++ rest ∧
    batch.events = done.map stored ∧
    batch.reader.view =
      ⟨recordBytes sipHasher rest, events.length, done.length⟩
  faithful : Faithful (events.map stored) batch.results

section

variable {sipHasher : SipHasher13} {events : List SharedAuthEvent}
  {batch : Batch} {outcomes : List ReadOutcome}

theorem onTrack_start : OnTrack sipHasher events
    (start (recordBytes sipHasher events)) where
  position := by
    refine ⟨[], events, rfl, rfl, ?_⟩
    rw [start_reader]
    rfl
  faithful := by
    refine ⟨List.nil_prefix, ?_, ?_⟩
    · intro reason member
      cases member
    · intro before after split
      exact absurd split.symm (by simp [start])

theorem nextEvent_position {done rest : List SharedAuthEvent}
    (storable : ∀ event ∈ done ++ rest, Storable event) :
    JournalReader.nextEvent sipHasher
        ⟨recordBytes sipHasher rest, (done ++ rest).length, done.length⟩ =
      (⟨recordBytes sipHasher rest.tail, (done ++ rest).length,
          (done ++ rest.head?.toList).length⟩,
        .ok (rest.head?.map stored)) := by
  cases rest with
  | nil => simp [JournalReader.nextEvent]
  | cons event rest =>
      have decoded := decode_encode_storable sipHasher
        (storable event (by simp))
      rw [recordBytes_cons, nextEvent_record sipHasher (by simp), decoded]
      simp [Except.map]

theorem onTrack_call (storable : ∀ event ∈ events, Storable event)
    (track : OnTrack sipHasher events batch)
    (untorn : ¬batch.reader.TearsRecord outcomes) :
    OnTrack sipHasher events (batch.call sipHasher outcomes) := by
  rcases track.position with ⟨done, rest, split, returned, view⟩
  rw [Batch.call]
  rcases nextEvent_untorn sipHasher untorn with failed | ideal
  · rw [failed]
    have same := filterMap_yielded_failed batch.results .io
    refine ⟨⟨done, rest, split, same.trans returned, view⟩, ?_⟩
    apply track.faithful.concat
    · rw [same]
      exact track.faithful.inOrder
    · intro reason equal
      cases equal
    · intro equal
      cases equal
  · rw [view, split, nextEvent_position (split ▸ storable),
      Prod.mk.injEq] at ideal
    rcases ideal with ⟨viewNext, result⟩
    rw [result]
    have gained : (batch.results ++
        [Except.ok (rest.head?.map stored)]).filterMap yielded =
          (done ++ rest.head?.toList).map stored := by
      rw [List.filterMap_append, show batch.results.filterMap yielded =
        done.map stored from returned]
      cases rest <;> simp [yielded]
    have resplit : events = (done ++ rest.head?.toList) ++ rest.tail := by
      rw [split]
      cases rest <;> simp
    refine ⟨⟨done ++ rest.head?.toList, rest.tail, resplit, gained, ?_⟩, ?_⟩
    · rw [viewNext, ← split]
    · apply track.faithful.concat
      · rw [gained]
        refine ⟨rest.tail.map stored, ?_⟩
        rw [← List.map_append, ← resplit]
      · intro reason equal
        cases equal
      · intro equal
        have finished : rest = [] := by
          cases rest with
          | nil => rfl
          | cons event rest => cases equal
        rw [show batch.results.filterMap yielded = done.map stored from
          returned, split, finished, List.append_nil]

theorem onTrack_delivers (storable : ∀ event ∈ events, Storable event)
    (track : OnTrack sipHasher events batch)
    (delivers : ∀ outcome ∈ outcomes,
      outcome.arrived bufferCapacity 1 ≠ 0) :
    (batch.reader.nextEvent sipHasher outcomes).2 =
      .ok ((events.map stored)[batch.events.length]?) := by
  rcases track.position with ⟨done, rest, split, returned, view⟩
  have coming : (events.map stored)[batch.events.length]? =
      rest.head?.map stored := by
    rw [returned, split, List.map_append, List.getElem?_append_right (by simp)]
    cases rest <;> simp
  have counts := view
  simp only [Reader.view, JournalReader.mk.injEq] at counts
  by_cases ended : batch.reader.readRecords = batch.reader.completeRecords
  · have finished : rest = [] := by
      rw [counts.2.1, counts.2.2, split, List.length_append] at ended
      exact List.length_eq_zero_iff.mp (by omega)
    rw [Reader.nextEvent, if_pos ended, coming, finished]
    rfl
  · have enough : recordSize ≤ batch.reader.inner.rest.length := by
      rw [counts.1, recordBytes_length]
      rw [counts.2.1, counts.2.2, split, List.length_append] at ended
      have some : rest.length ≠ 0 := by omega
      exact Nat.le_mul_of_pos_right _ (by omega)
    rcases BufReader.readExact_delivers recordSize_le_bufferCapacity delivers
      enough with ⟨inner, bytes, read⟩
    have untorn : ¬batch.reader.TearsRecord outcomes := by
      intro torn
      rcases BufReader.readExact_tears torn.2 with ⟨next, failed, _⟩
      rw [read] at failed
      cases failed
    rcases nextEvent_untorn sipHasher untorn with failed | ideal
    · have sized := (BufReader.readExact_some read).1
      simp only [Reader.nextEvent, if_neg ended, read, dif_pos sized,
        Prod.mk.injEq] at failed
      have advanced := congrArg Reader.readRecords failed.1
      simp at advanced
    · rw [view, split, nextEvent_position (split ▸ storable),
        Prod.mk.injEq] at ideal
      rw [ideal.2, coming]

/-! ## After a torn record -/

structure Derailed (events : List SharedAuthEvent) (batch : Batch) :
    Prop where
  short : batch.reader.inner.rest.length +
    recordSize * batch.reader.readRecords < recordSize * events.length
  complete : batch.reader.completeRecords = events.length
  returned : batch.events.length ≤ batch.reader.readRecords
  unended : .ok none ∉ batch.results

theorem derailed_tear (track : OnTrack sipHasher events batch)
    (torn : batch.reader.TearsRecord outcomes) :
    Derailed events (batch.call sipHasher outcomes) := by
  rcases track.position with ⟨done, rest, split, returned, view⟩
  simp only [Reader.view, JournalReader.mk.injEq] at view
  rcases BufReader.readExact_tears torn.2 with ⟨next, failed, lost⟩
  have result : batch.reader.nextEvent sipHasher outcomes =
      ({ batch.reader with inner := next }, .error .io) := by
    simp only [Reader.nextEvent, if_neg torn.1, failed]
  have missing : done.length < events.length := by
    have unfinished := torn.1
    rw [view.2.1, view.2.2] at unfinished
    rw [split, List.length_append] at unfinished ⊢
    omega
  rw [Batch.call, result]
  refine ⟨?_, view.2.1, ?_, ?_⟩
  · rw [view.1, recordBytes_length] at lost
    simp only [view.2.2]
    rw [split, List.length_append, Nat.mul_add]
    omega
  · rw [Batch.events, filterMap_yielded_failed]
    rw [Batch.events] at returned
    simp only [returned, List.length_map, view.2.2]
    exact Nat.le_refl _
  · intro member
    rcases List.mem_append.mp member with earlier | last
    · rcases List.append_of_mem earlier with ⟨before, after, whole⟩
      have all := track.faithful.ended before after whole
      have enough : events.length ≤ batch.events.length := by
        rw [Batch.events, whole, List.filterMap_append, all]
        simp
      rw [returned, List.length_map] at enough
      omega
    · cases List.mem_singleton.mp last

theorem derailed_call (derailed : Derailed events batch)
    (outcomes : List ReadOutcome) :
    Derailed events (batch.call sipHasher outcomes) := by
  have short := derailed.short
  have unfinished :
      batch.reader.readRecords ≠ batch.reader.completeRecords := by
    intro ended
    rw [ended, derailed.complete] at short
    omega
  cases read : batch.reader.inner.readExact bufferCapacity recordSize
      outcomes with
  | mk inner result =>
      cases result with
      | none =>
          have notLonger : inner.rest.length ≤
              batch.reader.inner.rest.length := by
            by_cases torn : batch.reader.inner.TearsAt bufferCapacity
                recordSize outcomes
            · rcases BufReader.readExact_tears torn with ⟨next, failed, lost⟩
              rw [read] at failed
              cases failed
              exact Nat.le_of_lt lost
            · rw [BufReader.readExact_none torn read]
          have result : batch.reader.nextEvent sipHasher outcomes =
              ({ batch.reader with inner }, .error .io) := by
            simp only [Reader.nextEvent, if_neg unfinished, read]
          rw [Batch.call, result]
          refine ⟨?_, derailed.complete, ?_, ?_⟩
          · dsimp only
            omega
          · rw [Batch.events, filterMap_yielded_failed]
            exact derailed.returned
          · intro member
            rcases List.mem_append.mp member with earlier | last
            · exact derailed.unended earlier
            · cases List.mem_singleton.mp last
      | some bytes =>
          rcases BufReader.readExact_some read with ⟨sized, front⟩
          have result : batch.reader.nextEvent sipHasher outcomes =
              ({ batch.reader with
                  inner, readRecords := batch.reader.readRecords + 1 },
                (decode sipHasher ⟨bytes, sized⟩).map some) := by
            simp only [Reader.nextEvent, if_neg unfinished, read,
              dif_pos sized]
          rw [front, List.length_append, sized] at short
          rw [Batch.call, result]
          refine ⟨?_, derailed.complete, ?_, ?_⟩
          · dsimp only
            rw [Nat.mul_succ]
            omega
          · have returned := derailed.returned
            rw [Batch.events] at returned
            simp only [Batch.events, List.filterMap_append,
              List.length_append]
            have one : ([(decode sipHasher ⟨bytes, sized⟩).map
                some].filterMap yielded).length ≤ 1 :=
              List.length_filterMap_le _ _
            omega
          · intro member
            rcases List.mem_append.mp member with earlier | last
            · exact derailed.unended earlier
            · have equal := List.mem_singleton.mp last
              cases decoded : decode sipHasher ⟨bytes, sized⟩ with
              | ok event =>
                  rw [decoded] at equal
                  cases equal
              | error failure =>
                  rw [decoded] at equal
                  cases equal

/-- As long as no read fails inside a record, the calls return the events of
the file in order, none is refused, and only the end of the file is reported as
the end; a call whose reads bring something goes on. After the first record
that is torn the file is never read to its end. -/
theorem replay_faithful (storable : ∀ event ∈ events, Storable event)
    {calls : List (List ReadOutcome)}
    (untorn : (machine sipHasher).EveryStep
      (fun batch outcomes => ¬batch.reader.TearsRecord outcomes)
      (start (recordBytes sipHasher events)) calls)
    (completed : (machine sipHasher).run
      (start (recordBytes sipHasher events)) calls = some batch) :
    Faithful (events.map stored) batch.results ∧
      (∀ outcomes : List ReadOutcome,
        (∀ outcome ∈ outcomes, outcome.arrived bufferCapacity 1 ≠ 0) →
        (batch.reader.nextEvent sipHasher outcomes).2 =
          .ok ((events.map stored)[batch.events.length]?)) ∧
      ∀ outcomes later after, batch.reader.TearsRecord outcomes →
        (machine sipHasher).run (batch.call sipHasher outcomes) later =
          some after →
        after.events.length < events.length ∧ .ok none ∉ after.results := by
  have track : OnTrack sipHasher events batch :=
    Machine.run_invariant_of_everyStep
      (fun track untorn stepped =>
        Option.some.inj stepped ▸ onTrack_call storable track untorn)
      onTrack_start untorn completed
  refine ⟨track.faithful, ?_, ?_⟩
  · intro outcomes delivers
    exact onTrack_delivers storable track delivers
  · intro outcomes later after torn continued
    have derailed : Derailed events after := Machine.run_invariant
      (fun derailed stepped =>
        Option.some.inj stepped ▸ derailed_call derailed _)
      (derailed_tear track torn) continued
    refine ⟨?_, derailed.unended⟩
    have short := derailed.short
    have returned := derailed.returned
    have less : recordSize * after.reader.readRecords <
        recordSize * events.length := by
      omega
    have fewer := Nat.lt_of_mul_lt_mul_left less
    omega

end

/-! ## Sixteen bytes lost -/

/-- The first read brings sixteen bytes and the second fails; the call after
that is left alone. -/
def sixteenThenFailed : List (List ReadOutcome) :=
  [[.delivered 16, .failed], []]

theorem readExact_sixteen {unread : List UInt8} (long : 16 ≤ unread.length) :
    BufReader.readExact bufferCapacity recordSize [.delivered 16, .failed]
        ⟨[], unread⟩ =
      (⟨[], unread.drop 16⟩, none) := by
  have size : recordSize = 112 := rfl
  have capacity := recordSize_le_bufferCapacity
  have arrived : ReadOutcome.arrived bufferCapacity unread.length
      (.delivered 16) = 16 := by
    simp only [ReadOutcome.arrived]
    omega
  have taken : (unread.take 16).length = 16 := by
    rw [List.length_take]
    omega
  rw [BufReader.readExact, List.cons_append,
    BufReader.readLoop_cons_short (Nat.zero_le _)
      (by simp [BufReader.copyBuffered])]
  simp only [arrived]
  rw [if_neg (by decide), List.cons_append,
    BufReader.readLoop_cons_short (Nat.zero_le _)
      (by
        simp only [BufReader.copyBuffered, List.length_append, List.length_nil,
          List.length_take]
        omega)]
  rfl

/-- Whatever the hash function, the retry is refused as corrupt. -/
theorem sixteenThenFailed_corrupt :
    {sipHasher : SipHasher13 | ∀ batch, (machine sipHasher).run
        (start (recordBytes sipHasher [extremeGrace, extremeGrace]))
        sixteenThenFailed = some batch →
      Faithful ([extremeGrace, extremeGrace].map stored)
        batch.results} = ∅ := by
  apply Set.eq_empty_of_forall_notMem
  intro sipHasher always
  generalize contents : recordBytes sipHasher [extremeGrace, extremeGrace] =
    bytes
  have length : bytes.length = 224 := by
    rw [← contents]
    exact recordBytes_length sipHasher _
  have started : (start bytes).reader = ⟨⟨[], bytes⟩, 2, 0⟩ := by
    rw [← contents]
    exact start_reader sipHasher [extremeGrace, extremeGrace]
  have first : (start bytes).call sipHasher [.delivered 16, .failed] =
      ⟨⟨⟨[], bytes.drop 16⟩, 2, 0⟩, [.error .io]⟩ := by
    have result : Reader.nextEvent sipHasher ⟨⟨[], bytes⟩, 2, 0⟩
        [.delivered 16, .failed] =
          (⟨⟨[], bytes.drop 16⟩, 2, 0⟩, .error .io) := by
      rw [Reader.nextEvent, if_neg (fun equal => by cases equal),
        readExact_sixteen (by omega)]
    rw [Batch.call, started, result]
    rfl
  rcases @BufReader.readExact_delivers _ _ _ [] ⟨[], bytes.drop 16⟩
    recordSize_le_bufferCapacity
    (by intro outcome member; cases member)
    (by
      rw [BufReader.rest, List.nil_append, List.length_drop, length]
      decide) with ⟨inner, block, read⟩
  rcases BufReader.readExact_some read with ⟨sized, front⟩
  have shifted : block.take 4 = [255, 255, 255, 255] := by
    have whole : bytes.drop 16 = block ++ inner.rest := front
    have same : block.take 4 = (bytes.drop 16).take 4 := by
      rw [whole, List.take_append_of_le_length (by rw [sized]; decide)]
    rw [same, ← contents]
    rfl
  have refused : decode sipHasher ⟨block, sized⟩ =
      .error (.corrupt "auth journal record has an invalid header") := by
    rw [decode, if_pos (by rw [shifted]; decide)]
  have second : (((start bytes).call sipHasher [.delivered 16, .failed]).call
      sipHasher []).results = [.error .io,
        .error (.corrupt "auth journal record has an invalid header")] := by
    have result : (Reader.nextEvent sipHasher ⟨⟨[], bytes.drop 16⟩, 2, 0⟩
        []).2 = .error (.corrupt
          "auth journal record has an invalid header") := by
      rw [Reader.nextEvent, if_neg (fun equal => by cases equal), read]
      simp only [dif_pos sized, refused]
      rfl
    rw [first, Batch.call, result]
    rfl
  have faithful := always _ rfl
  rw [contents] at faithful
  apply faithful.notCorrupt "auth journal record has an invalid header"
  rw [second]
  simp

def laterGrace : SharedAuthEvent := { extremeGrace with timestamp := 0 }

/-- The first read ends with the first record, the second fails, and the third
brings fifty bytes of the second record before the rest. -/
def failedBetween : List (List ReadOutcome) :=
  [[.delivered 112], [.failed], [.delivered 50]]

theorem failedBetween_faithful :
    ∃ batch, (machine byteSum).run
        (start (recordBytes byteSum [extremeGrace, laterGrace]))
        failedBetween = some batch ∧
      batch.results.map yielded =
        [some (stored extremeGrace), none, some (stored laterGrace)] ∧
      Faithful [stored extremeGrace, stored laterGrace] batch.results ∧
      (batch.reader.nextEvent byteSum []).2 = .ok none := by
  have storable : ∀ event ∈ [extremeGrace, laterGrace], Storable event := by
    intro event member
    rcases List.mem_cons.mp member with same | later
    · rw [same]
      exact extremeGrace_storable
    · rw [List.mem_singleton.mp later]
      exact { extremeGrace_storable with timestamp := by decide }
  have untorn : (machine byteSum).EveryStep
      (fun batch outcomes => ¬batch.reader.TearsRecord outcomes)
      (start (recordBytes byteSum [extremeGrace, laterGrace]))
      failedBetween := by
    decide +kernel
  have replay : ((machine byteSum).run
      (start (recordBytes byteSum [extremeGrace, laterGrace]))
      failedBetween).map (fun batch => batch.results.map yielded) =
        some [some (stored extremeGrace), none, some (stored laterGrace)] := by
    decide +kernel
  rcases Option.map_eq_some_iff.mp replay with ⟨batch, completed, results⟩
  have whole := replay_faithful storable untorn completed
  have next := whole.2.1 [] nofun
  have both : batch.events = [stored extremeGrace, stored laterGrace] := by
    rw [Batch.events, ← Function.id_comp yielded, ← List.filterMap_map, results]
    rfl
  rw [both] at next
  exact ⟨batch, completed, results, whole.1, next⟩

end PasswordProfile.AuthJournal.TransientRead
