import PasswordProfile.AuthEvent.Ring
import PasswordProfile.Expiry.Cache
import PasswordProfile.Foundation.Interaction

/-! # The client authentication hook

PostgreSQL calls the hook once for every connection, after it has decided the
authentication status. Everything that the hook reads from shared memory, and
everything that it does, is a call; other backends and the worker may change
what the next call answers at any time.
-/

namespace PasswordProfile.Login

open AuthEvent Interaction
open Expiry (ExpiryCacheState ExpiryDecision ExpiryEntry GraceEvent
  GraceOutcome GraceResult classify)
open Lockout (CacheState)

/-- What PostgreSQL passes to the hook: the user name as a C string, unless the
port has none, and the authentication status. -/
structure Connection where
  username : Option (List UInt8)
  status : Int
  deriving DecidableEq, Repr

abbrev statusOk : Int := 0

def Connection.authenticated (connection : Connection) : Bool :=
  connection.status == statusOk

inductive PausedReason
  | workerNotRunning
  | queueCorrupt
  | durableRecording
  deriving DecidableEq, Repr

inductive BypassDecision
  | bypassed
  | notBypassed
  | unavailable
  deriving DecidableEq, Repr

inductive Warning
  | userExistence
  | journalFailure
  | queueFull
  | enforcementPaused (reason : PausedReason)
  deriving DecidableEq, Repr

inductive PreviousHook
  | returned
  | raised
  deriving DecidableEq, Repr

inductive Outcome
  | returned
  | previousRaised
  | lockedOut (remainingSeconds : Int)
  | passwordExpired
  deriving DecidableEq, Repr

/-- `MAKE_SQLSTATE`: six bits for each character. -/
def makeSqlstate (code : List Char) : Nat :=
  code.foldr
    (fun char rest => ((char.toNat - '0'.toNat) &&& 0x3F) + rest * 64) 0

def errcodeInvalidPassword : Nat := makeSqlstate ['2', '8', 'P', '0', '1']

abbrev i32Max : Int := 2147483647

inductive Call
  | recoveryInProgress
  | lockoutEnforcement
  | expiryEnforcement
  | passwordExpiryDays
  | bypassLookup (username : String)
  | previousHook
  | workerIsRunning
  | queueState
  | durableDegradedSince
  | lockCacheState
  | expiryCacheState
  | lastSqlstate
  | userExists
  | enqueue (username : EncodedUsername) (kind : UInt8) (flags : EventFlags)
      (generation : TimestampTz)
  | remainingSeconds (username : String)
  | checkLockoutFromDb (username : String)
  | currentTimestamp
  | expiryLookup (username : String) (now : TimestampTz)
  | graceEntry (username : EncodedUsername)
  | decrementGrace (username : EncodedUsername)
  | warn (warning : Warning)
  deriving DecidableEq

abbrev Call.Answer : Call → Type
  | recoveryInProgress => Bool
  | lockoutEnforcement => Bool
  | expiryEnforcement => Bool
  | passwordExpiryDays => Int
  | bypassLookup _ => BypassDecision
  | previousHook => PreviousHook
  | workerIsRunning => Bool
  | queueState => QueueState
  | durableDegradedSince => Option TimestampTz
  | lockCacheState => CacheState
  | expiryCacheState => ExpiryCacheState
  | lastSqlstate => Nat
  | userExists => Int
  | enqueue .. => EnqueueStep
  | remainingSeconds _ => Option Int
  | checkLockoutFromDb _ => Option Int
  | currentTimestamp => TimestampTz
  | expiryLookup .. => ExpiryDecision
  | graceEntry _ => Option ExpiryEntry
  | decrementGrace _ => Unit
  | warn _ => Unit

abbrev Hook (Result : Type) := Program Call Call.Answer Result

def perform (call : Call) : Hook call.Answer := Program.perform call

def enforcementPauseReason : Hook (Option PausedReason) := do
  let running ← perform .workerIsRunning
  if !running then return some .workerNotRunning
  let queue ← perform .queueState
  if queue = .corrupt then return some .queueCorrupt
  let degraded ← perform .durableDegradedSince
  if degraded.isSome then return some .durableRecording
  return none

def expiryLoginEnforcementActive : Hook Bool := do
  let switch ← perform .expiryEnforcement
  if switch then
    let days ← perform .passwordExpiryDays
    return decide (days > 0)
  else return false

def reportDegraded (pauseReason : Option PausedReason) (eventLost : Bool) :
    Hook Unit := do
  match pauseReason with
  | some reason => perform (.warn (.enforcementPaused reason))
  | none =>
      if eventLost then
        let current ← enforcementPauseReason
        perform (.warn (.enforcementPaused
          (current.getD .durableRecording)))
      else return ()

/-- `auth_event::enqueue`. -/
def enqueue (username : String) (kind : UInt8) (flags : EventFlags) :
    Hook EnqueueOutcome := do
  let step ← perform (.enqueue (encodeUsername username) kind flags 0)
  if step.shouldWarn then
    if step.outcome = .unavailable then perform (.warn .journalFailure)
    else perform (.warn .queueFull)
    return step.outcome
  else return step.outcome

/-- `try_consume_grace`, with the reads that it makes under its lock. -/
def tryConsumeGrace (username : String) (now : TimestampTz)
    (flags : EventFlags) : Hook GraceResult := do
  let encoded := encodeUsername username
  let state ← perform .expiryCacheState
  if state ≠ .ready then return ⟨.unavailable, false⟩
  let found ← perform (.graceEntry encoded)
  match found with
  | none => return ⟨.notNeeded, false⟩
  | some entry =>
      match classify entry now with
      | .notExpired => return ⟨.notNeeded, false⟩
      | .expiredNoGrace => return ⟨.noGrace, false⟩
      | .noRow => return ⟨.unavailable, false⟩
      | .cacheUnavailable => return ⟨.unavailable, false⟩
      | .expiredWithGrace =>
          let step ← perform (.enqueue encoded eventKindGraceConsumed flags
            entry.generation)
          if !step.outcome.isDurable then
            return ⟨.unavailable, step.shouldWarn⟩
          perform (.decrementGrace encoded)
          return ⟨.consumed, step.shouldWarn⟩

/-- `lockout_active && healthy && lock_cache::state() == Ready`. -/
def lockoutRuntimeActive (lockoutActive healthy : Bool) : Hook Bool := do
  if lockoutActive && healthy then
    let state ← perform .lockCacheState
    return decide (state = .ready)
  else return false

def expiryRuntimeActive (expiryActive healthy : Bool) : Hook Bool := do
  if expiryActive && healthy then
    let state ← perform .expiryCacheState
    return decide (state = .ready)
  else return false

/-- After a failed native authentication; the result is `event_lost`. -/
def recordFailure (username : String) (lockoutRuntimeActive : Bool) :
    Hook Bool := do
  if lockoutRuntimeActive then
    let sqlstate ← perform .lastSqlstate
    if sqlstate = errcodeInvalidPassword then
      let userExists ← perform .userExists
      if userExists = 1 then
        let outcome ← enqueue username eventKindFailure .none
        return !outcome.isDurable
      else if userExists ≠ 0 then
        perform (.warn .userExistence)
        return false
      else return false
    else return false
  else return false

def lockoutSeconds (username : String) (lockoutRuntimeActive : Bool) :
    Hook (Option Int) := do
  if lockoutRuntimeActive then
    let cached ← perform (.remainingSeconds username)
    match cached with
    | some seconds => return (some seconds).filter (· > 0)
    | none =>
        let stored ← perform (.checkLockoutFromDb username)
        return stored.filter (· > 0)
  else return none

/-- `!healthy || enforcement_pause_reason().is_some()`. -/
def recheckHealth (pauseReason : Option PausedReason) : Hook Bool := do
  if pauseReason.isSome then return true
  else
    let current ← enforcementPauseReason
    return current.isSome

structure Progress where
  eventLost : Bool
  passwordExpired : Bool
  graceConsumed : Bool
  queueWarn : Bool
  deriving DecidableEq, Repr

def checkExpiry (username : String) (lockoutRuntimeActive
    expiryRuntimeActive eventLost : Bool) : Hook Progress := do
  if !eventLost && expiryRuntimeActive then
    let now ← perform .currentTimestamp
    let decision ← perform (.expiryLookup username now)
    match decision with
    | .noRow => return ⟨false, false, false, false⟩
    | .notExpired => return ⟨false, false, false, false⟩
    | .cacheUnavailable => return ⟨false, false, false, false⟩
    | .expiredNoGrace => return ⟨false, true, false, false⟩
    | .expiredWithGrace =>
        let result ← tryConsumeGrace username now
          (.forAdmission lockoutRuntimeActive)
        match result.outcome with
        | .consumed => return ⟨false, false, true, result.queueWarn⟩
        | .notNeeded => return ⟨false, false, false, result.queueWarn⟩
        | .noGrace => return ⟨false, true, false, result.queueWarn⟩
        | .unavailable => return ⟨true, false, false, result.queueWarn⟩
  else return ⟨eventLost, false, false, false⟩

/-- Queue the success event, unless this login is refused or has queued its
grace event; the result is `event_lost`. -/
def recordSuccess (username : String) (lockoutRuntimeActive : Bool)
    (progress : Progress) : Hook Bool := do
  if !progress.eventLost && !progress.passwordExpired &&
      lockoutRuntimeActive && !progress.graceConsumed then
    let outcome ← enqueue username eventKindSuccess
      (.forAdmission lockoutRuntimeActive)
    return !outcome.isDurable
  else return progress.eventLost

def emitQueueWarning (queueWarn eventLost : Bool) : Hook Unit := do
  if queueWarn then
    if eventLost then perform (.warn .journalFailure)
    else perform (.warn .queueFull)
  else return ()

def afterAuthentication (username : String)
    (lockoutRuntimeActive expiryRuntimeActive : Bool)
    (pauseReason : Option PausedReason) : Hook Outcome := do
  match ← lockoutSeconds username lockoutRuntimeActive with
  | some seconds => return .lockedOut (min seconds i32Max)
  | none =>
      let eventLost ← recheckHealth pauseReason
      let progress ← checkExpiry username lockoutRuntimeActive
        expiryRuntimeActive eventLost
      let eventLost ← recordSuccess username lockoutRuntimeActive progress
      emitQueueWarning progress.queueWarn eventLost
      reportDegraded pauseReason eventLost
      if progress.passwordExpired then return .passwordExpired
      else return .returned

def afterPrevious (connection : Connection) (username : Option String)
    (bypass : BypassDecision) (lockoutActive expiryActive : Bool) :
    Hook Outcome := do
  if bypass = .bypassed then return .returned
  match username with
  | none => return .returned
  | some username =>
      let pauseReason ← enforcementPauseReason
      let healthy := pauseReason.isNone
      let lockout ← lockoutRuntimeActive lockoutActive healthy
      let expiry ← expiryRuntimeActive expiryActive healthy
      if !connection.authenticated then
        let eventLost ← recordFailure username lockout
        reportDegraded pauseReason eventLost
        return .returned
      else afterAuthentication username lockout expiry pauseReason

def callPrevClientAuthHook (rest : Hook Outcome) : Hook Outcome := do
  match ← perform .previousHook with
  | .raised => return .previousRaised
  | .returned => rest

/-- `CStr::to_str`. -/
def Connection.usernameStr (connection : Connection) : Option String :=
  connection.username.bind fun bytes => String.fromUTF8? bytes.toByteArray

def clientAuthHook (connection : Connection) : Hook Outcome := do
  let recovering ← perform .recoveryInProgress
  if recovering then callPrevClientAuthHook (return .returned)
  else
    let lockoutActive ← perform .lockoutEnforcement
    let expiryActive ← expiryLoginEnforcementActive
    if !lockoutActive && !expiryActive then
      callPrevClientAuthHook (return .returned)
    else
      let bypass ←
        match connection.usernameStr with
        | some username => perform (.bypassLookup username)
        | none => pure .notBypassed
      callPrevClientAuthHook
        (afterPrevious connection connection.usernameStr bypass lockoutActive
          expiryActive)

end PasswordProfile.Login
