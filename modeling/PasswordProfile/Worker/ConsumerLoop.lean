import PasswordProfile.AuthJournal.Record
import PasswordProfile.Bypass.Cache
import PasswordProfile.Foundation.Process
import PasswordProfile.Worker.DegradedByRetry
import PasswordProfile.Worker.DurableHealth

/-! # The loop of the worker

Everything that the worker does to its surroundings is a call, and a call that
PostgreSQL may answer with an `ERROR` raises it. Each of the source's loops is a
function for one iteration, which gives either the variables of the next one or
the value that the loop returns. Lines for the log that are not warnings are
left out.
-/

namespace PasswordProfile.Worker

open AuthEvent AuthJournal Bypass Expiry Interaction Lockout

/-! ## Calls -/

inductive PgLogLevel
  | error
  | fatal
  | panic
  deriving DecidableEq, Repr

inductive CaughtKind
  | postgresError
  | errorReport
  | rustPanic
  deriving DecidableEq, Repr

structure CaughtError where
  kind : CaughtKind
  level : PgLogLevel
  sqlErrorCode : Nat
  deriving DecidableEq, Repr

inductive Site
  | lockHydration
  | expiryHydration
  | bypassRefresh
  | event
  | receiptCleanup
  deriving DecidableEq, Repr

inductive WorkerCache
  | lock
  | expiry
  | bypass
  deriving DecidableEq, Repr

inductive HydrationFailure
  | reported (error : String)
  | postgresError (sqlErrorCode : Nat)
  deriving DecidableEq, Repr

/-- `rows`, `loaded` and `overflow`. -/
structure CacheCounts where
  rows : Int
  loaded : Int
  overflow : Int
  deriving DecidableEq, Repr

inductive JournalOperation
  | open
  | rotation
  | cleanup
  | read
  deriving DecidableEq, Repr

inductive WorkerWarning
  | capacityExceeded (cache : WorkerCache)
  | hydrationFailed (cache : WorkerCache) (failure : HydrationFailure)
      (retryDelay : Nat)
  | noLongerComplete (cache : WorkerCache)
  | journalFailed (operation : JournalOperation) (failures delay : Nat)
  | journalCorrupt (reason : String)
  | receiptsNotCleaned (error : String)
  | journalNotRemoved (reason : String)
  | eventRolledBack (detail : String)
  | eventAborted (sqlErrorCode : Nat)
  | eventRetried (failures delay : Nat) (degraded : DegradedByRetry)
  | queueSuspended (state : QueueState) (lockout expiry : Bool)
      (lockState : CacheState) (expiryState : ExpiryCacheState)
      (bypassState : BypassCacheState)
  deriving DecidableEq, Repr

abbrev JournalPath := String

inductive WorkerCall
  | attachSignalHandlers
  | connectWorkerToSpi
  | markRunning
  | sigtermReceived
  | sighupReceived
  | processConfigFile
  | lockoutEnforcementEnabled
  | expiryLoginEnforcementActive
  | durableDegradedSince
  | clearDurableDegraded (observed : Int)
  | markDurableFailureNow
  | currentTimestamp
  | instant
  | waitLatch (milliseconds : Nat)
  | lockCacheState
  | expiryCacheState
  | bypassCacheState
  | setLockCacheState (state : CacheState)
  | setExpiryCacheState (state : ExpiryCacheState)
  | setBypassCacheState (state : BypassCacheState)
  | queueState
  | markCorrupt
  | rotateJournal
  | openJournal (path : JournalPath)
  | nextEvent (path : JournalPath)
  | removeProcessing (path : JournalPath)
  | matchingClaim (eventId : EventId)
  | startTransaction (site : Site)
  | hydrateFromDb
  | hydrateExpiryFromDb
  | refreshBypassCache
  | applyEvent (eventId : EventId) (username : String) (kind : EventKind)
      (flags : EventFlags) (generation : TimestampTz)
  | deleteReceipts
  | stageAck (token : ClaimToken)
  | commitTransaction (site : Site)
  | abortCurrentTransaction
  | warn (warning : WorkerWarning)

abbrev WorkerCall.Answer : WorkerCall → Type
  | attachSignalHandlers => Unit
  | connectWorkerToSpi => Unit
  | markRunning => Unit
  | sigtermReceived => Bool
  | sighupReceived => Bool
  | processConfigFile => Unit
  | lockoutEnforcementEnabled => Bool
  | expiryLoginEnforcementActive => Bool
  | durableDegradedSince => Option Int
  | clearDurableDegraded _ => Bool
  | markDurableFailureNow => Unit
  | currentTimestamp => Int
  | instant => Nat
  | waitLatch _ => Bool
  | lockCacheState => CacheState
  | expiryCacheState => ExpiryCacheState
  | bypassCacheState => BypassCacheState
  | setLockCacheState _ => Unit
  | setExpiryCacheState _ => Unit
  | setBypassCacheState _ => Unit
  | queueState => QueueState
  | markCorrupt => Unit
  | rotateJournal => Except JournalError (Option JournalPath)
  | openJournal _ => Except JournalError Unit
  | nextEvent _ => Except JournalError (Option SharedAuthEvent)
  | removeProcessing _ => Except JournalError Unit
  | matchingClaim _ => Option ClaimToken
  | startTransaction _ => Except CaughtError Unit
  | hydrateFromDb => Except CaughtError (Except String HydrationStats)
  | hydrateExpiryFromDb => Except CaughtError (Except String CacheCounts)
  | refreshBypassCache => Except CaughtError (Except String CacheCounts)
  | applyEvent .. => Except CaughtError (Except String Unit)
  | deleteReceipts => Except CaughtError (Except String Unit)
  | stageAck _ => Unit
  | commitTransaction _ => Except CaughtError Unit
  | abortCurrentTransaction => Unit
  | warn _ => Unit

abbrev Consumer (Value : Type) :=
  Fallible WorkerCall.Answer CaughtError Value

def perform (call : WorkerCall) : Consumer call.Answer := Fallible.perform call

def startTransaction (site : Site) : Consumer Unit :=
  ExceptT.mk (Program.perform (WorkerCall.startTransaction site))

def commitTransaction (site : Site) : Consumer Unit :=
  ExceptT.mk (Program.perform (WorkerCall.commitTransaction site))

def hydrateFromDbBody : Consumer (Except String HydrationStats) :=
  ExceptT.mk (Program.perform WorkerCall.hydrateFromDb)

def hydrateExpiryFromDbBody : Consumer (Except String CacheCounts) :=
  ExceptT.mk (Program.perform WorkerCall.hydrateExpiryFromDb)

def refreshBypassCacheBody : Consumer (Except String CacheCounts) :=
  ExceptT.mk (Program.perform WorkerCall.refreshBypassCache)

def applyEventBody (eventId : EventId) (username : String) (kind : EventKind)
    (flags : EventFlags) (generation : TimestampTz) :
    Consumer (Except String Unit) :=
  ExceptT.mk (Program.perform
    (WorkerCall.applyEvent eventId username kind flags generation))

def deleteReceiptsBody : Consumer (Except String Unit) :=
  ExceptT.mk (Program.perform WorkerCall.deleteReceipts)

/-! ## Transactions -/

/-- `BackgroundWorker::transaction`: what is raised goes on, and a body that
returns an error is committed all the same. -/
def backgroundTransaction (site : Site) (body : Consumer Value) :
    Consumer Value := do
  startTransaction site
  let result ← body
  commitTransaction site
  return result

def rollBack (caught : CaughtError) :
    Consumer (Except HydrationFailure Value) := do
  perform .abortCurrentTransaction
  return .error (.postgresError caught.sqlErrorCode)

def runHydrationTransaction :
    Consumer (Except HydrationFailure HydrationStats) :=
  tryCatch
    (do
      let result ← backgroundTransaction .lockHydration hydrateFromDbBody
      return result.mapError .reported)
    fun caught =>
      if caught.kind = .postgresError ∧ caught.level = .error then
        rollBack caught
      else throw caught

/-- The other two catch a `pgrx` report and a Rust panic too. -/
def runCountedTransaction (site : Site)
    (body : Consumer (Except String CacheCounts)) :
    Consumer (Except HydrationFailure CacheCounts) :=
  tryCatch
    (do
      let result ← backgroundTransaction site body
      return result.mapError .reported)
    fun caught =>
      if caught.level ≠ .error then throw caught
      else rollBack caught

def runExpiryHydrationTransaction :
    Consumer (Except HydrationFailure CacheCounts) :=
  runCountedTransaction .expiryHydration hydrateExpiryFromDbBody

def runBypassRefreshTransaction :
    Consumer (Except HydrationFailure CacheCounts) :=
  runCountedTransaction .bypassRefresh refreshBypassCacheBody

inductive EventTxnOutcome
  | committed
  | rolledBack (detail : String)
  | postgresError (sqlErrorCode : Nat)
  deriving DecidableEq, Repr

def stageToken (token : Option ClaimToken) : Consumer Unit :=
  match token with
  | some token => perform (.stageAck token)
  | none => return ()

def runEventTransaction (eventId : EventId) (username : String)
    (kind : EventKind) (flags : EventFlags) (generation : TimestampTz)
    (token : Option ClaimToken) : Consumer EventTxnOutcome :=
  tryCatch
    (do
      startTransaction .event
      match ← applyEventBody eventId username kind flags generation with
      | .ok () =>
          stageToken token
          commitTransaction .event
          return .committed
      | .error detail =>
          perform .abortCurrentTransaction
          return .rolledBack detail)
    fun caught => do
      if caught.level ≠ .error then throw caught
      else
        perform .abortCurrentTransaction
        return .postgresError caught.sqlErrorCode

/-! ## Hydration -/

def hydrationRetryMin : Nat := 500

def hydrationRetryMax : Nat := 30000

def hydrationWarnEvery : Nat := 10

/-- `u32::saturating_add(1)` -/
def countedFailure (failures : Nat) : Nat := min (failures + 1) (2 ^ 32 - 1)

def warnRarely (failures : Nat) (warning : WorkerWarning) : Consumer Unit :=
  if failures = 1 ∨ failures % hydrationWarnEvery = 0 then
    perform (.warn warning)
  else return ()

def hydrateOnce (cache : WorkerCache)
    (transaction : Consumer (Except HydrationFailure Counts))
    (overflow : Counts → Int) (setNotReady : Consumer Unit)
    (failures retryDelay : Nat) : Consumer (Bool × Nat) := do
  match ← transaction with
  | .ok counts =>
      if overflow counts = 0 then return (true, failures)
      else
        let failures := countedFailure failures
        warnRarely failures (.capacityExceeded cache)
        return (true, failures)
  | .error failure =>
      setNotReady
      let failures := countedFailure failures
      warnRarely failures (.hydrationFailed cache failure retryDelay)
      return (false, failures)

def hydrateLockCacheOnce : Nat → Nat → Consumer (Bool × Nat) :=
  hydrateOnce .lock runHydrationTransaction HydrationStats.overflow
    (perform (.setLockCacheState .notReady))

def hydrateExpiryCacheOnce : Nat → Nat → Consumer (Bool × Nat) :=
  hydrateOnce .expiry runExpiryHydrationTransaction CacheCounts.overflow
    (perform (.setExpiryCacheState .notReady))

def refreshBypassCacheOnce : Nat → Nat → Consumer (Bool × Nat) :=
  hydrateOnce .bypass runBypassRefreshTransaction CacheCounts.overflow
    (perform (.setBypassCacheState .notReady))

def reloadOnSighup : Consumer Unit := do
  let hangup ← perform .sighupReceived
  if hangup then perform .processConfigFile
  else return ()

def clearDurableDegradationIfQuiet (observed : Option Int) :
    Consumer Unit := do
  match observed with
  | none => return ()
  | some since =>
      let now ← perform .currentTimestamp
      if saturatingSub now since < durableQuietPeriodUs then return ()
      else
        let _ ← perform (.clearDurableDegraded since)
        return ()

structure HydrationLocals where
  retryDelay : Nat
  failures : Nat
  deriving DecidableEq, Repr

def HydrationLocals.start : HydrationLocals := ⟨hydrationRetryMin, 0⟩

/-- One iteration of `hydrate_caches_with_retry`. -/
def hydrateCachesOnce (locals : HydrationLocals) :
    Consumer (HydrationLocals ⊕ Bool) := do
  let degradedSince ← perform .durableDegradedSince
  let terminated ← perform .sigtermReceived
  if terminated then return .inr false
  else
    reloadOnSighup
    let needLock ← perform .lockoutEnforcementEnabled
    let needExpiry ← perform .expiryLoginEnforcementActive
    let (lockOk, failures) ←
      hydrateLockCacheOnce locals.failures locals.retryDelay
    let (expiryOk, failures) ←
      hydrateExpiryCacheOnce failures locals.retryDelay
    let (bypassOk, failures) ←
      refreshBypassCacheOnce failures locals.retryDelay
    if requiredCachesReady needLock needExpiry lockOk expiryOk bypassOk then
      clearDurableDegradationIfQuiet degradedSince
      return .inr true
    else
      let awake ← perform (.waitLatch locals.retryDelay)
      if awake then
        return .inl ⟨min (locals.retryDelay * 2) hydrationRetryMax, failures⟩
      else return .inr false

/-! ## Consumption -/

inductive ConsumeOutcome
  | shutdown
  | needsRehydration
  | queueUnhealthy (state : QueueState)
  deriving DecidableEq, Repr

structure ConsumeLocals where
  eventFailures : Nat
  degraded : DegradedByRetry
  lastBypassRefresh : Nat
  batch : Option JournalPath
  pendingEvent : Option SharedAuthEvent
  journalIoFailures : Nat
  deriving DecidableEq, Repr

def ConsumeLocals.start (now : Nat) : ConsumeLocals :=
  ⟨0, .none, now, none, none, 0⟩

/-- What an iteration of `consume_events` comes to. -/
abbrev ConsumeStep := ConsumeLocals ⊕ ConsumeOutcome

def eventFailureBackoff (failures : Nat) : Nat :=
  min (hydrationRetryMin * 2 ^ min (failures - 1) 16) hydrationRetryMax

/-- The result is `false` when a shutdown was observed while waiting. -/
def handleJournalIoFailure (failures : Nat) (operation : JournalOperation) :
    Consumer (Bool × Nat) := do
  perform .markDurableFailureNow
  let failures := countedFailure failures
  let delay := eventFailureBackoff failures
  warnRarely failures (.journalFailed operation failures delay)
  let awake ← perform (.waitLatch delay)
  if awake then
    perform .markDurableFailureNow
    return (true, failures)
  else return (false, failures)

/-- The `continue` after a journal failure, unless it is time to leave. -/
def retryJournal (locals : ConsumeLocals) (operation : JournalOperation) :
    Consumer ConsumeStep := do
  let (awake, failures) ←
    handleJournalIoFailure locals.journalIoFailures operation
  if awake then return .inl { locals with journalIoFailures := failures }
  else return .inr .shutdown

def suspendCorrupt : Consumer ConsumeStep := do
  perform .markCorrupt
  return .inr (.queueUnhealthy .corrupt)

def journalCorrupt (reason : String) : Consumer ConsumeStep := do
  perform (.warn (.journalCorrupt reason))
  suspendCorrupt

def bypassState : BypassCacheState → CacheState
  | .notReady => .notReady
  | .ready => .ready
  | .overflow => .overflow
  | .workerFailed => .workerFailed

def readLockState : Consumer CacheState := perform .lockCacheState

def readExpiryState : Consumer CacheState := do
  let state ← perform .expiryCacheState
  return commonState state

def readBypassState : Consumer CacheState := do
  let state ← perform .bypassCacheState
  return bypassState state

/-- A needed cache is neither ready nor full; one that this retry sequence has
degraded itself is read again. -/
def noLongerComplete (needed degraded : Bool) (readState : Consumer CacheState) :
    Consumer Bool := do
  if needed then
    let state ← readState
    if state = .notReady ∨ state = .workerFailed then
      if degraded then
        let again ← readState
        return decide (again ≠ .workerFailed)
      else return true
    else return false
  else return false

def durableFailureOver : Consumer Bool := do
  match ← perform .durableDegradedSince with
  | none => return false
  | some since =>
      let now ← perform .currentTimestamp
      return decide (saturatingSub now since ≥ durableQuietPeriodUs)

def needsRehydration (degraded : DegradedByRetry) (needLock needExpiry : Bool) :
    Consumer Bool := do
  if ← noLongerComplete needLock degraded.lock readLockState then
    perform (.warn (.noLongerComplete .lock))
    return true
  else if ← noLongerComplete needExpiry degraded.expiry readExpiryState then
    perform (.warn (.noLongerComplete .expiry))
    return true
  else if ← noLongerComplete (needLock || needExpiry) false readBypassState then
    perform (.warn (.noLongerComplete .bypass))
    return true
  else durableFailureOver

def bypassRefreshInterval : Nat := 1000

def refreshBypassIfDue (lastBypassRefresh : Nat) (needBypass : Bool) :
    Consumer (Nat × Bool) := do
  let now ← perform .instant
  if now - lastBypassRefresh ≥ bypassRefreshInterval then
    let refreshed ← perform .instant
    match ← runBypassRefreshTransaction with
    | .ok _ => return (refreshed, false)
    | .error failure =>
        perform (.setBypassCacheState .notReady)
        perform (.warn (.hydrationFailed .bypass failure
          bypassRefreshInterval))
        return (refreshed, needBypass)
  else return (lastBypassRefresh, false)

def acquireBatch (locals : ConsumeLocals) :
    Consumer (ConsumeLocals × JournalPath ⊕ ConsumeStep) := do
  match locals.batch with
  | some path => return .inl (locals, path)
  | none =>
      match ← perform .rotateJournal with
      | .ok (some path) =>
          match ← perform (.openJournal path) with
          | .ok () =>
              return .inl ({ locals with
                  batch := some path, journalIoFailures := 0 }, path)
          | .error (.corrupt reason) =>
              let step ← journalCorrupt reason
              return .inr step
          | .error .io =>
              let step ← retryJournal locals .open
              return .inr step
      | .ok none =>
          let awake ← perform (.waitLatch 25)
          if awake then return .inr (.inl locals)
          else return .inr (.inr .shutdown)
      | .error (.corrupt reason) =>
          let step ← journalCorrupt reason
          return .inr step
      | .error .io =>
          let step ← retryJournal locals .rotation
          return .inr step

def cleanReceipts : Consumer Unit := do
  match ← backgroundTransaction .receiptCleanup deleteReceiptsBody with
  | .ok () => return ()
  | .error error => perform (.warn (.receiptsNotCleaned error))

def finishBatch (locals : ConsumeLocals) (path : JournalPath) :
    Consumer ConsumeStep := do
  let locals := { locals with batch := none }
  match ← perform (.removeProcessing path) with
  | .ok () =>
      cleanReceipts
      return .inl { locals with journalIoFailures := 0 }
  | .error .io => retryJournal locals .cleanup
  | .error (.corrupt reason) =>
      perform (.warn (.journalNotRemoved reason))
      let awake ← perform (.waitLatch hydrationRetryMin)
      if awake then return .inl locals
      else return .inr .shutdown

def nextPending (locals : ConsumeLocals) (path : JournalPath) :
    Consumer (ConsumeLocals × SharedAuthEvent ⊕ ConsumeStep) := do
  match locals.pendingEvent with
  | some event => return .inl (locals, event)
  | none =>
      match ← perform (.nextEvent path) with
      | .ok (some event) =>
          return .inl ({ locals with
              pendingEvent := some event, journalIoFailures := 0 }, event)
      | .ok none =>
          let step ← finishBatch locals path
          return .inr step
      | .error (.corrupt reason) =>
          let step ← journalCorrupt reason
          return .inr step
      | .error .io =>
          let step ← retryJournal locals .read
          return .inr step

/-- `DegradedByRetry::mark` for one cache. -/
def markDegraded (affected degraded : Bool) (readState : Consumer CacheState)
    (setFailed : Consumer Unit) : Consumer Bool := do
  if affected && !degraded then
    let state ← readState
    if state = .ready then
      setFailed
      return true
    else return degraded
  else return degraded

def mark (degraded : DegradedByRetry) (affects : AffectedCaches) :
    Consumer DegradedByRetry := do
  let lock ← markDegraded affects.lock degraded.lock readLockState
    (perform (.setLockCacheState .workerFailed))
  let expiry ← markDegraded affects.expiry degraded.expiry readExpiryState
    (perform (.setExpiryCacheState .workerFailed))
  return ⟨lock, expiry⟩

/-- `DegradedByRetry::restore` for one cache: whether it stays incomplete. -/
def restoreDegraded (degraded : Bool) (readState : Consumer CacheState)
    (setReady : Consumer Unit) : Consumer Bool := do
  if degraded then
    match ← readState with
    | .workerFailed =>
        setReady
        return false
    | .ready => return false
    | _ => return true
  else return false

def restore (degraded : DegradedByRetry) : Consumer Bool := do
  let lockIncomplete ← restoreDegraded degraded.lock readLockState
    (perform (.setLockCacheState .ready))
  let expiryIncomplete ← restoreDegraded degraded.expiry readExpiryState
    (perform (.setExpiryCacheState .ready))
  return lockIncomplete || expiryIncomplete

/-- `suspend_and_backoff`, and the shutdown that it may have observed. -/
def suspendAndBackoff (locals : ConsumeLocals) (affects : AffectedCaches) :
    Consumer ConsumeStep := do
  let degraded ← mark locals.degraded affects
  let eventFailures := countedFailure locals.eventFailures
  let delay := eventFailureBackoff eventFailures
  warnRarely eventFailures (.eventRetried eventFailures delay degraded)
  let awake ← perform (.waitLatch delay)
  if awake then return .inl { locals with degraded, eventFailures }
  else return .inr .shutdown

def afterTransaction (locals : ConsumeLocals) (affects : AffectedCaches) :
    EventTxnOutcome → Consumer ConsumeStep
  | .committed => do
      let locals := { locals with pendingEvent := none }
      if locals.eventFailures > 0 then
        let stillIncomplete ← restore locals.degraded
        if stillIncomplete then return .inr .needsRehydration
        else return .inl { locals with degraded := .none, eventFailures := 0 }
      else return .inl locals
  | .rolledBack detail => do
      perform (.warn (.eventRolledBack detail))
      suspendAndBackoff locals affects
  | .postgresError sqlErrorCode => do
      perform (.warn (.eventAborted sqlErrorCode))
      suspendAndBackoff locals affects

def applyPending (locals : ConsumeLocals) (event : SharedAuthEvent) :
    Consumer ConsumeStep := do
  let token ← perform (.matchingClaim event.eventId)
  match usernameFromBytes event.username.toList, EventKind.fromRaw event.kind,
      EventFlags.fromRaw event.flags with
  | some username, some kind, some flags =>
      let outcome ← runEventTransaction event.eventId username kind flags
        event.generation token
      afterTransaction locals (.forEvent kind flags) outcome
  | _, _, _ => suspendCorrupt

/-- One iteration of `consume_events`. -/
def consumeOnce (locals : ConsumeLocals) : Consumer ConsumeStep := do
  let terminated ← perform .sigtermReceived
  if terminated then return .inr .shutdown
  else
    reloadOnSighup
    let queueState ← perform .queueState
    if queueState = .corrupt then return .inr (.queueUnhealthy queueState)
    else
      let needLock ← perform .lockoutEnforcementEnabled
      let needExpiry ← perform .expiryLoginEnforcementActive
      if ← needsRehydration locals.degraded needLock needExpiry then
        return .inr .needsRehydration
      else
        let (lastBypassRefresh, stale) ←
          refreshBypassIfDue locals.lastBypassRefresh (needLock || needExpiry)
        if stale then return .inr .needsRehydration
        else
          match ← acquireBatch { locals with lastBypassRefresh } with
          | .inr step => return step
          | .inl (locals, path) =>
              match ← nextPending locals path with
              | .inr step => return step
              | .inl (locals, event) => applyPending locals event

/-! ## Suspension and the outer loop -/

structure SuspensionLocals where
  reports : Nat
  lastReported : QueueState
  deriving DecidableEq, Repr

def reportSuspended (current : QueueState) : Consumer Unit := do
  let lockState ← perform .lockCacheState
  let expiryState ← perform .expiryCacheState
  let bypassState ← perform .bypassCacheState
  let lockout ← perform .lockoutEnforcementEnabled
  let expiry ← perform .expiryLoginEnforcementActive
  perform (.warn (.queueSuspended current lockout expiry lockState expiryState
    bypassState))

/-- The first observation, any change and then every tenth wakeup; the result
is the state that was reported last. -/
def reportIfDue (lastReported : QueueState) (reports : Nat)
    (current : QueueState) : Consumer QueueState := do
  if reports = 1 ∨ current ≠ lastReported ∨
      reports % hydrationWarnEvery = 0 then
    reportSuspended current
    return current
  else return lastReported

/-- One iteration of `suspend_on_unhealthy_queue`. -/
def suspendOnce (locals : SuspensionLocals) :
    Consumer (SuspensionLocals ⊕ Bool) := do
  let terminated ← perform .sigtermReceived
  if terminated then return .inr false
  else
    reloadOnSighup
    let current ← perform .queueState
    if current ≠ .corrupt then return .inr true
    else
      let reports := countedFailure locals.reports
      let lastReported ← reportIfDue locals.lastReported reports current
      let awake ← perform (.waitLatch 1000)
      if awake then return .inl ⟨reports, lastReported⟩
      else return .inr false

inductive WorkerPosition
  | starting
  | hydrating (locals : HydrationLocals)
  | consuming (locals : ConsumeLocals)
  | suspended (locals : SuspensionLocals)
  deriving DecidableEq, Repr

/-- `auth_event_consumer_impl`, one iteration of an inner loop at a time. -/
def authEventConsumerImpl :
    WorkerPosition → Consumer (WorkerPosition ⊕ Unit)
  | .starting => do
      perform .attachSignalHandlers
      perform .connectWorkerToSpi
      perform .markRunning
      return .inl (.hydrating .start)
  | .hydrating locals => do
      match ← hydrateCachesOnce locals with
      | .inl locals => return .inl (.hydrating locals)
      | .inr true =>
          let now ← perform .instant
          return .inl (.consuming (.start now))
      | .inr false => return .inr ()
  | .consuming locals => do
      match ← consumeOnce locals with
      | .inl locals => return .inl (.consuming locals)
      | .inr .shutdown => return .inr ()
      | .inr .needsRehydration => return .inl (.hydrating .start)
      | .inr (.queueUnhealthy state) => return .inl (.suspended ⟨0, state⟩)
  | .suspended locals => do
      match ← suspendOnce locals with
      | .inl locals => return .inl (.suspended locals)
      | .inr true => return .inl (.hydrating .start)
      | .inr false => return .inr ()

end PasswordProfile.Worker
