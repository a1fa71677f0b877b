import PasswordProfile.Foundation.Monitor
import PasswordProfile.Worker.Containment

/-! # The protocol of the worker

What the worker may do next, as far as it can be told from its calls and their
answers: the journal only after a hydration, one transaction at a time, a batch
removed only at its end, and a wait after every failure.
-/

namespace PasswordProfile.Worker

open AuthEvent AuthJournal Interaction

/-- What the last hydration was to load, and what has been loaded by a committed
transaction since it began. -/
structure Round where
  needLock : Bool
  needExpiry : Bool
  lock : Bool
  expiry : Bool
  bypass : Bool
  deriving DecidableEq, Repr

def Round.complete (round : Round) : Bool :=
  requiredCachesReady round.needLock round.needExpiry round.lock round.expiry
    round.bypass

inductive Stage
  | none
  | rotated (path : JournalPath)
  | reading (path : JournalPath)
  | pending (path : JournalPath) (event : SharedAuthEvent)
      (claim : Option ClaimToken)
  | ended (path : JournalPath)
  | removed
  deriving DecidableEq, Repr

inductive Phase
  | none
  | open (site : Site)
  | ready (site : Site) (loaded : Bool)
  | failed (site : Site)
  deriving DecidableEq, Repr

inductive Trouble
  | none
  | unmarked
  | waiting
  | waited
  deriving DecidableEq, Repr

structure Control where
  needLock : Bool
  needExpiry : Bool
  round : Round
  stage : Stage
  phase : Phase
  trouble : Trouble
  eventFailures : Nat
  ioFailures : Nat
  /-- The wait that has to come before the next attempt. -/
  owed : Option Nat
  deriving DecidableEq, Repr

namespace Control

def start : Control where
  needLock := false
  needExpiry := false
  round := ⟨true, true, false, false, false⟩
  stage := .none
  phase := .none
  trouble := .none
  eventFailures := 0
  ioFailures := 0
  owed := none

/-! ## What is permitted -/

structure Calm (control : Control) : Prop where
  phase : control.phase = .none
  trouble : control.trouble = .none
  owed : control.owed = none

structure MayConsume (control : Control) : Prop extends Calm control where
  complete : control.round.complete = true

def Decodes (event : SharedAuthEvent) (eventId : EventId) (username : String)
    (kind : EventKind) (flags : EventFlags) (generation : TimestampTz) : Prop :=
  event.eventId = eventId ∧
    usernameFromBytes event.username.toList = some username ∧
    EventKind.fromRaw event.kind = some kind ∧
    EventFlags.fromRaw event.flags = some flags ∧
    event.generation = generation

/-- A transaction only starts when none is open, and the transactions of events
and receipts only at their place in the journal. -/
def PermitsStart (control : Control) : Site → Prop
  | .event => control.MayConsume ∧
      ∃ path event claim, control.stage = .pending path event claim
  | .receiptCleanup => control.MayConsume ∧ control.stage = .removed
  | _ => control.Calm

def Permits (control : Control) : WorkerCall → Prop
  | .startTransaction site => control.PermitsStart site
  | .hydrateFromDb => control.phase = .open .lockHydration
  | .hydrateExpiryFromDb => control.phase = .open .expiryHydration
  | .refreshBypassCache => control.phase = .open .bypassRefresh
  | .deleteReceipts =>
      control.phase = .open .receiptCleanup ∧ control.stage = .removed
  | .applyEvent eventId username kind flags generation =>
      control.phase = .open .event ∧ ∃ path event claim,
        control.stage = .pending path event claim ∧
          Decodes event eventId username kind flags generation
  | .stageAck token => control.phase = .ready .event true ∧
      ∃ path event, control.stage = .pending path event (some token)
  | .commitTransaction site => ∃ loaded, control.phase = .ready site loaded
  | .abortCurrentTransaction => ∃ site, control.phase = .failed site
  | .rotateJournal => control.MayConsume ∧ control.stage = .none
  | .openJournal path => control.MayConsume ∧ control.stage = .rotated path
  | .nextEvent path => control.MayConsume ∧ control.stage = .reading path
  | .removeProcessing path => control.MayConsume ∧ control.stage = .ended path
  | .matchingClaim eventId => control.MayConsume ∧ ∃ path event claim,
      control.stage = .pending path event claim ∧ event.eventId = eventId
  | .markDurableFailureNow =>
      control.phase = .none ∧
        (control.trouble = .unmarked ∨ control.trouble = .waited)
  | .waitLatch milliseconds => control.phase = .none ∧
      (∀ delay ∈ control.owed, milliseconds = delay) ∧
      control.trouble ≠ .unmarked ∧
      (control.trouble = .waiting →
        milliseconds = eventFailureBackoff control.ioFailures)
  | _ => control.phase = .none

/-! ## What an exchange leads to -/

def rehydrate (control : Control) : Control := { control with
  round := ⟨control.needLock, control.needExpiry, false, false, false⟩
  stage := .none
  eventFailures := 0
  ioFailures := 0 }

def begin (control : Control) : Site → Control
  | .lockHydration => control.rehydrate
  | _ => control

/-- The transaction commits with what its body has loaded. -/
def commit (control : Control) : Site → Bool → Control
  | .lockHydration, loaded => { control with
      phase := .none
      round := { control.round with lock := control.round.lock || loaded } }
  | .expiryHydration, loaded => { control with
      phase := .none
      round := { control.round with expiry := control.round.expiry || loaded } }
  | .bypassRefresh, loaded => { control with
      phase := .none
      round := { control.round with bypass := control.round.bypass || loaded } }
  | .event, _ => { control with
      phase := .none
      stage :=
        match control.stage with
        | .pending path _ _ => .reading path
        | stage => stage
      eventFailures := 0 }
  | .receiptCleanup, _ => { control with phase := .none, stage := .none }

def abort (control : Control) : Site → Control
  | .event => { control with
      phase := .none
      eventFailures := countedFailure control.eventFailures
      owed := some (eventFailureBackoff
        (countedFailure control.eventFailures)) }
  | _ => { control with phase := .none }

def bodyPhase (site : Site) :
    Except CaughtError (Except String Counts) → Phase
  | .ok result => .ready site result.toBool
  | .error _ => .failed site

def troubleAfter : JournalError → Trouble
  | .io => .unmarked
  | .corrupt _ => .none

def advance (control : Control) : (call : WorkerCall) → call.Answer → Control
  | .lockoutEnforcementEnabled, enabled => { control with needLock := enabled }
  | .expiryLoginEnforcementActive, active =>
      { control with needExpiry := active }
  | .startTransaction site, .ok () =>
      { control.begin site with phase := .open site }
  | .startTransaction site, .error _ =>
      { control.begin site with phase := .failed site }
  | .hydrateFromDb, answer =>
      { control with phase := bodyPhase .lockHydration answer }
  | .hydrateExpiryFromDb, answer =>
      { control with phase := bodyPhase .expiryHydration answer }
  | .refreshBypassCache, answer =>
      { control with phase := bodyPhase .bypassRefresh answer }
  | .deleteReceipts, answer =>
      { control with phase := bodyPhase .receiptCleanup answer }
  | .applyEvent .., .ok (.ok ()) => { control with phase := .ready .event true }
  | .applyEvent .., _ => { control with phase := .failed .event }
  | .commitTransaction site, .ok () =>
      match control.phase with
      | .ready _ loaded => control.commit site loaded
      | _ => control
  | .commitTransaction site, .error _ => { control with phase := .failed site }
  | .abortCurrentTransaction, _ =>
      match control.phase with
      | .failed site => control.abort site
      | _ => control
  | .rotateJournal, .ok (some path) => { control with stage := .rotated path }
  | .rotateJournal, .ok none => control
  | .rotateJournal, .error error =>
      { control with trouble := troubleAfter error }
  | .openJournal path, .ok () =>
      { control with stage := .reading path, ioFailures := 0 }
  | .openJournal _, .error error =>
      { control with stage := .none, trouble := troubleAfter error }
  | .nextEvent path, .ok (some event) =>
      { control with stage := .pending path event none, ioFailures := 0 }
  | .nextEvent path, .ok none => { control with stage := .ended path }
  | .nextEvent _, .error error =>
      { control with trouble := troubleAfter error }
  | .removeProcessing _, .ok () =>
      { control with stage := .removed, ioFailures := 0 }
  | .removeProcessing _, .error error =>
      { control with stage := .none, trouble := troubleAfter error }
  | .matchingClaim _, claim => { control with
      stage :=
        match control.stage with
        | .pending path event _ => .pending path event claim
        | stage => stage }
  | .markCorrupt, _ => { control with stage := .none }
  | .markDurableFailureNow, _ =>
      match control.trouble with
      | .unmarked => { control with
          trouble := .waiting
          ioFailures := countedFailure control.ioFailures }
      | .waited => { control with trouble := .none }
      | _ => control
  | .waitLatch _, true => { control with
      owed := none
      trouble := if control.trouble = .waiting then .waited
        else control.trouble }
  | _, _ => control

end Control

abbrev protocol : Monitor WorkerCall.Answer where
  State := Control
  Permits := Control.Permits
  advance := Control.advance

end PasswordProfile.Worker
