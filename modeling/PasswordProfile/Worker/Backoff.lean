import PasswordProfile.Worker.LoopProtocol

/-! # No attempt without a wait

What the protocol says about time: an event that failed is tried again after a
wait that doubles with every failure up to a limit, and an I/O error of the
journal is stamped before and after its wait.
-/

namespace PasswordProfile.Worker

open AuthEvent AuthJournal Interaction

/-! ## The length of a wait -/

theorem eventFailureBackoff_le (failures : Nat) :
    eventFailureBackoff failures ≤ hydrationRetryMax :=
  Nat.min_le_right _ _

theorem le_eventFailureBackoff (failures : Nat) :
    hydrationRetryMin ≤ eventFailureBackoff failures := by
  have positive : 0 < 2 ^ min (failures - 1) 16 := Nat.two_pow_pos _
  have doubled : hydrationRetryMin ≤
      hydrationRetryMin * 2 ^ min (failures - 1) 16 :=
    Nat.le_mul_of_pos_right _ positive
  exact Nat.le_min.mpr ⟨doubled, by decide⟩

/-! ## Attempts -/

def attempted (count : Nat) : WorkerExchange → Nat
  | ⟨.startTransaction .event, _⟩ => countedFailure count
  | ⟨.startTransaction .lockHydration, _⟩ => 0
  | ⟨.commitTransaction .event, .ok ()⟩ => 0
  | _ => count

/-- The transactions of events that were started since one was committed or a
hydration began. -/
def attempts (trace : List WorkerExchange) : Nat :=
  trace.foldl attempted 0

def Control.attempting (control : Control) : Bool :=
  match control.phase with
  | .open .event | .ready .event _ | .failed .event => true
  | _ => false

def WorkerCall.transacts : WorkerCall → Bool
  | abortCurrentTransaction => true
  | stageAck _ => true
  | call => call.site.isSome

/-- The attempts that the monitor knows of, the present one included. -/
def Control.attempts (control : Control) : Nat :=
  if control.attempting then countedFailure control.eventFailures
  else control.eventFailures

section

variable {control : Control}

theorem Control.advance_elsewhere {call : WorkerCall}
    (outside : call.transacts = false) (answer : call.Answer) :
    (control.advance call answer).phase = control.phase ∧
      (control.advance call answer).eventFailures = control.eventFailures := by
  cases call with
  | rotateJournal => rcases answer with error | _ | path <;> exact ⟨rfl, rfl⟩
  | openJournal path => rcases answer with error | _ <;> exact ⟨rfl, rfl⟩
  | nextEvent path =>
      rcases answer with error | _ | event <;> exact ⟨rfl, rfl⟩
  | removeProcessing path => rcases answer with error | _ <;> exact ⟨rfl, rfl⟩
  | waitLatch milliseconds => cases answer <;> exact ⟨rfl, rfl⟩
  | markDurableFailureNow =>
      simp only [Control.advance]
      split <;> exact ⟨rfl, rfl⟩
  | _ => first | exact ⟨rfl, rfl⟩ | cases outside

theorem Control.attempts_congr {other : Control}
    (phase : other.phase = control.phase)
    (failures : other.eventFailures = control.eventFailures) :
    other.attempts = control.attempts := by
  rw [Control.attempts, Control.attempts, Control.attempting,
    Control.attempting, phase, failures]

theorem attempts_elsewhere {call : WorkerCall}
    (outside : call.transacts = false) (answer : call.Answer) :
    (control.advance call answer).attempts =
      attempted control.attempts ⟨call, answer⟩ := by
  rcases Control.advance_elsewhere outside answer with ⟨phase, failures⟩
  have kept : attempted control.attempts ⟨call, answer⟩ = control.attempts := by
    cases call with
    | startTransaction site => cases outside
    | commitTransaction site => cases outside
    | _ => rfl
  rw [kept, Control.attempts_congr phase failures]

theorem Control.calm_of_starts {site : Site}
    (starts : control.Permits (.startTransaction site)) : control.Calm := by
  cases site with
  | event => exact starts.1.toCalm
  | receiptCleanup => exact starts.1.toCalm
  | lockHydration => exact starts
  | expiryHydration => exact starts
  | bypassRefresh => exact starts

theorem Control.attempts_of_phase {phase : Phase}
    (here : control.phase = phase) :
    control.attempts = { control with phase }.attempts := by
  rw [← here]

theorem attempts_advance {call : WorkerCall}
    (permits : control.Permits call) (answer : call.Answer) :
    (control.advance call answer).attempts =
      attempted control.attempts ⟨call, answer⟩ := by
  cases call with
  | startTransaction site =>
      have calm := Control.calm_of_starts permits
      rw [Control.attempts_of_phase calm.phase]
      cases site <;> cases answer <;> rfl
  | commitTransaction site =>
      rcases permits with ⟨loaded, phase⟩
      rw [Control.attempts_of_phase phase]
      cases answer with
      | ok value =>
          rw [Control.advance, phase]
          cases site <;> rfl
      | error caught => cases site <;> rfl
  | abortCurrentTransaction =>
      rcases permits with ⟨site, phase⟩
      rw [Control.attempts_of_phase phase, Control.advance, phase]
      cases site <;> rfl
  | stageAck token => rfl
  | applyEvent eventId username kind flags generation =>
      rw [Control.attempts_of_phase permits.1]
      rcases answer with caught | detail | value <;> rfl
  | hydrateFromDb =>
      rw [Control.attempts_of_phase permits]
      cases answer <;> rfl
  | hydrateExpiryFromDb =>
      rw [Control.attempts_of_phase permits]
      cases answer <;> rfl
  | refreshBypassCache =>
      rw [Control.attempts_of_phase permits]
      cases answer <;> rfl
  | deleteReceipts =>
      rw [Control.attempts_of_phase permits.1]
      cases answer <;> rfl
  | _ =>
      apply attempts_elsewhere
      rfl

theorem attempts_after {trace : List WorkerExchange} {count : Nat}
    (accepts : protocol.Accepts control trace)
    (known : control.attempts = count) :
    Control.attempts (protocol.after control trace) =
      trace.foldl attempted count := by
  induction trace generalizing control count with
  | nil => exact known
  | cons exchange rest induction =>
      rcases exchange with ⟨call, answer⟩
      apply induction accepts.2
      rw [← known]
      exact attempts_advance accepts.1 answer

/-! ## Waits -/

theorem Control.Permits.idle {call : WorkerCall}
    (permits : control.Permits call) (outside : call.transacts = false) :
    control.phase = .none := by
  cases call with
  | rotateJournal => exact permits.1.phase
  | openJournal path => exact permits.1.phase
  | nextEvent path => exact permits.1.phase
  | removeProcessing path => exact permits.1.phase
  | matchingClaim eventId => exact permits.1.phase
  | markDurableFailureNow => exact permits.1
  | waitLatch milliseconds => exact permits.1
  | _ => first | exact permits | cases outside

def Control.Owes (milliseconds : Nat) (control : Control) : Prop :=
  control.owed = some milliseconds ∧ control.phase = .none

theorem Control.Owes.leaves {milliseconds : Nat}
    (owes : control.Owes milliseconds) {call : WorkerCall}
    (permits : control.Permits call) {answer : call.Answer}
    (gone : ¬(control.advance call answer).Owes milliseconds) :
    (⟨call, answer⟩ : WorkerExchange) = ⟨.waitLatch milliseconds, true⟩ := by
  rcases owes with ⟨owed, idle⟩
  cases call with
  | startTransaction site =>
      have calm := Control.calm_of_starts permits
      cases calm.owed.symm.trans owed
  | commitTransaction site =>
      rcases permits with ⟨loaded, phase⟩
      cases idle.symm.trans phase
  | abortCurrentTransaction =>
      rcases permits with ⟨site, phase⟩
      cases idle.symm.trans phase
  | applyEvent eventId username kind flags generation =>
      cases idle.symm.trans permits.1
  | stageAck token => cases idle.symm.trans permits.1
  | hydrateFromDb => cases idle.symm.trans permits
  | hydrateExpiryFromDb => cases idle.symm.trans permits
  | refreshBypassCache => cases idle.symm.trans permits
  | deleteReceipts => cases idle.symm.trans permits.1
  | waitLatch length =>
      cases answer with
      | true =>
          rw [permits.2.1 milliseconds owed]
      | false => exact absurd ⟨owed, idle⟩ gone
  | rotateJournal =>
      rcases answer with error | _ | path <;> exact absurd ⟨owed, idle⟩ gone
  | openJournal path =>
      rcases answer with error | _ <;> exact absurd ⟨owed, idle⟩ gone
  | nextEvent path =>
      rcases answer with error | _ | event <;> exact absurd ⟨owed, idle⟩ gone
  | removeProcessing path =>
      rcases answer with error | _ <;> exact absurd ⟨owed, idle⟩ gone
  | markDurableFailureNow =>
      simp only [Control.advance] at gone
      split at gone <;> exact absurd ⟨owed, idle⟩ gone
  | _ => exact absurd ⟨owed, idle⟩ gone

theorem Control.Owes.waits {milliseconds : Nat} {trace : List WorkerExchange}
    (owes : control.Owes milliseconds)
    (accepts : protocol.Accepts control trace)
    (settled : (protocol.after control trace).owed = none) :
    ⟨.waitLatch milliseconds, true⟩ ∈ trace := by
  have lost : ¬Control.Owes milliseconds (protocol.after control trace) := by
    rintro ⟨owed, _⟩
    cases settled.symm.trans owed
  rcases Monitor.exists_leaving owes lost with
    ⟨earlier, call, answer, later, split, before, gone⟩
  rw [split] at accepts ⊢
  rw [before.leaves accepts.inside.1 gone]
  exact List.mem_append_right _ List.mem_cons_self

def Control.Attempts (failures : Nat) (control : Control) : Prop :=
  control.attempting = true ∧ control.eventFailures = failures

def committedEvent : WorkerExchange → Bool
  | ⟨.commitTransaction .event, .ok ()⟩ => true
  | _ => false

theorem Control.Attempts.leaves {failures : Nat}
    (attempts : control.Attempts failures) {call : WorkerCall}
    (permits : control.Permits call) {answer : call.Answer}
    (gone : ¬(control.advance call answer).Attempts failures) :
    committedEvent ⟨call, answer⟩ = true ∨
      (control.advance call answer).Owes
        (eventFailureBackoff (countedFailure failures)) := by
  rcases attempts with ⟨attempting, counted⟩
  cases call with
  | startTransaction site =>
      rw [Control.attempting, (Control.calm_of_starts permits).phase]
        at attempting
      cases attempting
  | commitTransaction site =>
      rcases permits with ⟨loaded, phase⟩
      rw [Control.attempting, phase] at attempting
      cases site with
      | event =>
          cases answer with
          | ok value => exact .inl rfl
          | error caught => exact absurd ⟨rfl, counted⟩ gone
      | _ => cases attempting
  | abortCurrentTransaction =>
      rcases permits with ⟨site, phase⟩
      rw [Control.attempting, phase] at attempting
      cases site with
      | event =>
          rw [Control.advance, phase, ← counted]
          exact .inr ⟨rfl, rfl⟩
      | _ => cases attempting
  | applyEvent eventId username kind flags generation =>
      rcases answer with caught | detail | value <;>
        exact absurd ⟨rfl, counted⟩ gone
  | stageAck token => exact absurd ⟨attempting, counted⟩ gone
  | hydrateFromDb =>
      rw [Control.attempting, permits] at attempting
      cases attempting
  | hydrateExpiryFromDb =>
      rw [Control.attempting, permits] at attempting
      cases attempting
  | refreshBypassCache =>
      rw [Control.attempting, permits] at attempting
      cases attempting
  | deleteReceipts =>
      rw [Control.attempting, permits.1] at attempting
      cases attempting
  | _ =>
      rw [Control.attempting, permits.idle rfl] at attempting
      cases attempting

theorem Control.Calm.notAttempting (calm : control.Calm) :
    control.attempting = false := by
  rw [Control.attempting, calm.phase]

theorem Control.Attempts.waits {failures : Nat} {trace : List WorkerExchange}
    (attempts : control.Attempts failures)
    (accepts : protocol.Accepts control trace)
    (calm : Control.Calm (protocol.after control trace))
    (uncommitted : ∀ exchange ∈ trace, committedEvent exchange = false) :
    ⟨.waitLatch (eventFailureBackoff (countedFailure failures)), true⟩ ∈
      trace := by
  have lost : ¬Control.Attempts failures (protocol.after control trace) := by
    rintro ⟨attempting, _⟩
    cases calm.notAttempting.symm.trans attempting
  rcases Monitor.exists_leaving attempts lost with
    ⟨earlier, call, answer, later, rfl, before, gone⟩
  rcases before.leaves accepts.inside.1 gone with committed | owes
  · have here := uncommitted ⟨call, answer⟩
      (List.mem_append_right _ List.mem_cons_self)
    cases committed.symm.trans here
  · have settled := calm.owed
    rw [Monitor.after_append] at settled
    exact List.mem_append_right _
      (List.mem_cons_of_mem _ (owes.waits accepts.inside.2 settled))

end

/-! ## Two attempts -/

/-- Between two attempts of which the first does not commit the worker waits,
twice as long after each failure, but no longer than thirty seconds. -/
theorem runWorker_backsOff (environment : Environment WorkerCall.Answer)
    (count : Nat) (before middle after : List WorkerExchange)
    (first second : Except CaughtError Unit)
    (ran : (runWorker environment count).1 =
      before ++ ⟨.startTransaction .event, first⟩ ::
        (middle ++ ⟨.startTransaction .event, second⟩ :: after))
    (uncommitted : ∀ exchange ∈ middle, committedEvent exchange = false) :
    ∃ delay, ⟨.waitLatch delay, true⟩ ∈ middle ∧
      delay = eventFailureBackoff
        (attempts (before ++ [⟨.startTransaction .event, first⟩])) ∧
      hydrationRetryMin ≤ delay ∧ delay ≤ hydrationRetryMax := by
  have accepts : protocol.Accepts Control.start
      (runWorker environment count).1 := (life_obeys environment count []).1
  rw [ran] at accepts
  have started := accepts.inside
  have again := started.2.inside
  let idle : Control := protocol.after Control.start before
  let begun : Control := idle.advance (.startTransaction .event) first
  have attempting : begun.attempting = true := by
    cases first with
    | ok value => rfl
    | error caught => rfl
  have known : countedFailure begun.eventFailures =
      attempts (before ++ [⟨.startTransaction .event, first⟩]) := by
    have counted : begun.attempts = countedFailure begun.eventFailures := by
      rw [Control.attempts, if_pos attempting]
    have earlier : idle.attempts = before.foldl attempted 0 :=
      attempts_after (Monitor.accepts_append.mp accepts).1 rfl
    rw [← counted, attempts, List.foldl_append, ← earlier]
    exact @attempts_advance idle (.startTransaction .event) started.1 first
  have calm : Control.Calm (protocol.after begun middle) :=
    @Control.calm_of_starts _ .event again.1
  have waits := Control.Attempts.waits ⟨attempting, rfl⟩
    (Monitor.accepts_append.mp started.2).1 calm uncommitted
  rw [known] at waits
  exact ⟨_, waits, rfl, le_eventFailureBackoff _, eventFailureBackoff_le _⟩

/-- A failed login that waits in the journal. -/
def failedLogin : SharedAuthEvent := { SharedAuthEvent.empty with
  username := encodeUsername "alice"
  kind := eventKindFailure }

def alwaysLocked : Environment WorkerCall.Answer := fun _ call =>
  match call with
  | .nextEvent _ => .ok (some failedLogin)
  | .applyEvent .. => .ok (.error "canceling statement due to lock timeout")
  | call => batchAnswer (.ok (.ok ⟨0, 0, 0⟩)) true (.ok (.ok ())) call

def startedEvent : WorkerExchange → Bool
  | ⟨.startTransaction .event, .ok ()⟩ => true
  | _ => false

theorem eq_of_startedEvent {exchange : WorkerExchange}
    (started : startedEvent exchange = true) :
    exchange = ⟨.startTransaction .event, .ok ()⟩ := by
  rcases exchange with ⟨call, answer⟩
  cases call with
  | startTransaction site =>
      cases site with
      | event =>
          cases answer with
          | ok value => rfl
          | error caught => cases started
      | _ => cases started
  | _ => cases started

theorem exists_split {exchanges : List WorkerExchange}
    {test : WorkerExchange → Bool} {index : Nat}
    (found : exchanges[index]?.map test = some true) :
    ∃ exchange, test exchange = true ∧
      exchanges = exchanges.take index ++
        exchange :: exchanges.drop (index + 1) := by
  rcases Option.map_eq_some_iff.mp found with ⟨exchange, here, passed⟩
  rcases List.getElem?_eq_some_iff.mp here with ⟨inside, same⟩
  refine ⟨exchange, passed, ?_⟩
  rw [← same, List.getElem_cons_drop, List.take_append_drop]

theorem alwaysLocked_backsOff :
    ∃ before middle after, (runWorker alwaysLocked 4).1 =
        before ++ ⟨.startTransaction .event, .ok ()⟩ ::
          (middle ++ ⟨.startTransaction .event, .ok ()⟩ :: after) ∧
      ∃ delay, ⟨.waitLatch delay, true⟩ ∈ middle ∧
        hydrationRetryMin ≤ delay := by
  rcases @exists_split (runWorker alwaysLocked 4).1 startedEvent 32
    (by decide) with ⟨first, started, ran⟩
  rcases @exists_split ((runWorker alwaysLocked 4).1.drop 33) startedEvent 18
    (by decide) with ⟨second, startedAgain, rest⟩
  rw [eq_of_startedEvent started, rest, eq_of_startedEvent startedAgain] at ran
  rcases runWorker_backsOff alwaysLocked 4 _ _ _ _ _ ran
    (by decide) with ⟨delay, waits, _, least, _⟩
  exact ⟨_, _, _, ran, delay, waits, least⟩

/-! ## I/O errors of the journal -/

def WorkerCall.journal : WorkerCall → Bool
  | rotateJournal | openJournal _ | nextEvent _ | removeProcessing _ => true
  | _ => false

def failedWithIo : WorkerExchange → Bool
  | ⟨.rotateJournal, .error .io⟩ => true
  | ⟨.openJournal _, .error .io⟩ => true
  | ⟨.nextEvent _, .error .io⟩ => true
  | ⟨.removeProcessing _, .error .io⟩ => true
  | _ => false

section

variable {control : Control}

theorem Control.trouble_advance {call : WorkerCall}
    (permits : control.Permits call) {answer : call.Answer}
    (troubled : control.trouble ≠ .none)
    (changed : (control.advance call answer).trouble ≠ control.trouble) :
    (control.trouble = .unmarked ∧ call = .markDurableFailureNow ∧
      (control.advance call answer).trouble = .waiting) ∨
    (control.trouble = .waiting ∧
      (⟨call, answer⟩ : WorkerExchange) =
        ⟨.waitLatch (eventFailureBackoff control.ioFailures), true⟩ ∧
      (control.advance call answer).trouble = .waited) ∨
    (control.trouble = .waited ∧ call = .markDurableFailureNow ∧
      (control.advance call answer).trouble = .none) := by
  cases call with
  | markDurableFailureNow =>
      rcases permits.2 with unmarked | waited
      · refine .inl ⟨unmarked, rfl, ?_⟩
        rw [Control.advance, unmarked]
      · refine .inr (.inr ⟨waited, rfl, ?_⟩)
        rw [Control.advance, waited]
  | waitLatch milliseconds =>
      cases answer with
      | false => exact absurd rfl changed
      | true =>
          by_cases waiting : control.trouble = .waiting
          · refine .inr (.inl ⟨waiting, ?_, ?_⟩)
            · rw [permits.2.2.2 waiting]
            · rw [Control.advance, if_pos waiting]
          · rw [Control.advance, if_neg waiting] at changed
            exact absurd rfl changed
  | rotateJournal => exact absurd permits.1.trouble troubled
  | openJournal path => exact absurd permits.1.trouble troubled
  | nextEvent path => exact absurd permits.1.trouble troubled
  | removeProcessing path => exact absurd permits.1.trouble troubled
  | startTransaction site =>
      exact absurd (Control.calm_of_starts permits).trouble troubled
  | commitTransaction site =>
      rcases permits with ⟨loaded, phase⟩
      cases answer with
      | ok value =>
          rw [Control.advance, phase] at changed
          cases site <;> exact absurd rfl changed
      | error caught => exact absurd rfl changed
  | abortCurrentTransaction =>
      rcases permits with ⟨site, phase⟩
      rw [Control.advance, phase] at changed
      cases site <;> exact absurd rfl changed
  | applyEvent eventId username kind flags generation =>
      rcases answer with caught | detail | value <;> exact absurd rfl changed
  | _ => exact absurd rfl changed

theorem trouble_leaves {trace : List WorkerExchange} {trouble : Trouble}
    (accepts : protocol.Accepts control trace)
    (here : control.trouble = trouble) (troubled : trouble ≠ .none)
    (settled : Control.trouble (protocol.after control trace) = .none) :
    ∃ earlier call answer later, trace = earlier ++ ⟨call, answer⟩ :: later ∧
      Control.trouble (protocol.after control earlier) = trouble ∧
      Control.Permits (protocol.after control earlier) call ∧
      (Control.advance (protocol.after control earlier) call answer).trouble ≠
        Control.trouble (protocol.after control earlier) ∧
      protocol.Accepts
        (Control.advance (protocol.after control earlier) call answer) later ∧
      Control.trouble (protocol.after
        (Control.advance (protocol.after control earlier) call answer)
          later) = .none := by
  rcases @Monitor.exists_leaving _ _ protocol control
      (fun state => state.trouble = trouble) trace here
      (fun still => troubled (still.symm.trans settled)) with
    ⟨earlier, call, answer, later, rfl, before, gone⟩
  rw [Monitor.after_append] at settled
  refine ⟨earlier, call, answer, later, rfl, before, accepts.inside.1, ?_,
    accepts.inside.2, settled⟩
  rw [before]
  exact gone

end

/-- The failure is stamped, waited for and stamped again. -/
def Stamped (trace : List WorkerExchange) : Prop :=
  ∃ first second third fourth delay,
    trace = first ++ ⟨.markDurableFailureNow, ()⟩ ::
      (second ++ ⟨.waitLatch delay, true⟩ ::
        (third ++ ⟨.markDurableFailureNow, ()⟩ :: fourth)) ∧
    hydrationRetryMin ≤ delay ∧ delay ≤ hydrationRetryMax

theorem stamped_of_unmarked {control : Control} {trace : List WorkerExchange}
    (accepts : protocol.Accepts control trace)
    (unmarked : control.trouble = .unmarked)
    (settled : Control.trouble (protocol.after control trace) = .none) :
    Stamped trace := by
  rcases trouble_leaves accepts unmarked nofun settled with
    ⟨first, call, answer, rest, rfl, before, permits, changed, accepts,
      settled⟩
  rcases Control.trouble_advance permits (by rw [before]; nofun) changed with
    ⟨_, rfl, waiting⟩ | ⟨other, _⟩ | ⟨other, _⟩
  · rcases trouble_leaves accepts waiting nofun settled with
      ⟨second, call, reply, rest, rfl, before, permits, changed, accepts,
        settled⟩
    rcases Control.trouble_advance permits (by rw [before]; nofun) changed with
      ⟨other, _⟩ | ⟨_, waits, waited⟩ | ⟨other, _⟩
    · cases before.symm.trans other
    · rcases trouble_leaves accepts waited nofun settled with
        ⟨third, call', reply', rest, rfl, before, permits, changed, _, _⟩
      rcases Control.trouble_advance permits (by rw [before]; nofun) changed
        with ⟨other, _⟩ | ⟨other, _⟩ | ⟨_, rfl, _⟩
      · cases before.symm.trans other
      · cases before.symm.trans other
      · exact ⟨first, second, third, rest, _, by rw [waits],
          le_eventFailureBackoff _, eventFailureBackoff_le _⟩
    · cases before.symm.trans other
  · cases before.symm.trans other
  · cases before.symm.trans other

/-- Between an I/O error of the journal and the next call to it the failure is
stamped, waited for and stamped again. -/
theorem runWorker_stampsIoErrors (environment : Environment WorkerCall.Answer)
    (count : Nat) (before middle after : List WorkerExchange)
    (failed next : WorkerExchange)
    (ran : (runWorker environment count).1 =
      before ++ failed :: (middle ++ next :: after))
    (failedIo : failedWithIo failed = true)
    (journal : next.1.journal = true) :
    Stamped middle := by
  have accepts : protocol.Accepts Control.start
      (runWorker environment count).1 := (life_obeys environment count []).1
  rw [ran] at accepts
  rcases failed with ⟨call, answer⟩
  rcases next with ⟨call', answer'⟩
  have started := accepts.inside
  have again := started.2.inside
  apply stamped_of_unmarked (Monitor.accepts_append.mp started.2).1
  · cases call with
    | rotateJournal =>
        rcases answer with (_ | reason) | answer
        · rfl
        · cases failedIo
        · cases failedIo
    | openJournal path =>
        rcases answer with (_ | reason) | answer
        · rfl
        · cases failedIo
        · cases failedIo
    | nextEvent path =>
        rcases answer with (_ | reason) | answer
        · rfl
        · cases failedIo
        · cases failedIo
    | removeProcessing path =>
        rcases answer with (_ | reason) | answer
        · rfl
        · cases failedIo
        · cases failedIo
    | _ => cases failedIo
  · cases call' with
    | rotateJournal => exact again.1.1.trouble
    | openJournal path => exact again.1.1.trouble
    | nextEvent path => exact again.1.1.trouble
    | removeProcessing path => exact again.1.1.trouble
    | _ => cases journal

def brokenDisk : Environment WorkerCall.Answer := fun _ call =>
  match call with
  | .rotateJournal => .error .io
  | call => batchAnswer (.ok (.ok ⟨0, 0, 0⟩)) true (.ok (.ok ())) call

theorem brokenDisk_stampsIoErrors :
    ∃ before failed middle next after, (runWorker brokenDisk 4).1 =
        before ++ failed :: (middle ++ next :: after) ∧
      failedWithIo failed = true ∧ next.1.journal = true ∧ Stamped middle := by
  rcases @exists_split (runWorker brokenDisk 4).1 failedWithIo 28
    (by decide) with ⟨failed, failedIo, ran⟩
  rcases @exists_split ((runWorker brokenDisk 4).1.drop 29)
    (fun exchange => exchange.1.journal) 14 (by decide) with
    ⟨next, journal, rest⟩
  rw [rest] at ran
  exact ⟨_, failed, _, next, _, ran, failedIo, journal,
    runWorker_stampsIoErrors brokenDisk 4 _ _ _ _ _ ran failedIo journal⟩

end PasswordProfile.Worker
