import PasswordProfile.Worker.ConsumerLoop

/-! # What ends the worker

Every transaction of the worker but one has a handler that turns a PostgreSQL
`ERROR` into a retry. The cleanup of the receipts has none.
-/

namespace PasswordProfile.Worker

open AuthEvent AuthJournal Interaction Lockout

/-! ## The watch -/

namespace WorkerCall

def site : WorkerCall → Option Site
  | startTransaction site => some site
  | commitTransaction site => some site
  | hydrateFromDb => some .lockHydration
  | hydrateExpiryFromDb => some .expiryHydration
  | refreshBypassCache => some .bypassRefresh
  | applyEvent .. => some .event
  | deleteReceipts => some .receiptCleanup
  | _ => none

def raisedOf (answer : Except CaughtError Value) : Option CaughtError :=
  match answer with
  | .error caught => some caught
  | .ok _ => none

def raised : (call : WorkerCall) → call.Answer → Option CaughtError
  | startTransaction _, answer => raisedOf answer
  | commitTransaction _, answer => raisedOf answer
  | hydrateFromDb, answer => raisedOf answer
  | hydrateExpiryFromDb, answer => raisedOf answer
  | refreshBypassCache, answer => raisedOf answer
  | applyEvent .., answer => raisedOf answer
  | deleteReceipts, answer => raisedOf answer
  | _, _ => none

/-- `sigterm_received()` was true, or `wait_latch()` false. -/
def observesShutdown : (call : WorkerCall) → call.Answer → Bool
  | sigtermReceived, received => received
  | waitLatch _, awake => !awake
  | _, _ => false

end WorkerCall

def CaughtError.IsPostgresError (caught : CaughtError) : Prop :=
  caught.kind = .postgresError ∧ caught.level = .error

instance (caught : CaughtError) : Decidable caught.IsPostgresError :=
  inferInstanceAs (Decidable (_ ∧ _))

abbrev WorkerExchange := Exchange WorkerCall.Answer

def shutdownObserved (exchange : WorkerExchange) : Bool :=
  exchange.1.observesShutdown exchange.2

/-- The cleanup of the receipts raised, when it started, ran or committed. -/
def receiptCleanupRaised (exchange : WorkerExchange) : Bool :=
  exchange.1.site == some .receiptCleanup &&
    (exchange.1.raised exchange.2).isSome

/-- Nothing is raised but a PostgreSQL `ERROR`. -/
def OnlyErrors (exchange : WorkerExchange) : Prop :=
  ∀ caught ∈ exchange.1.raised exchange.2, caught.IsPostgresError

instance (exchange : WorkerExchange) : Decidable (OnlyErrors exchange) :=
  inferInstanceAs (Decidable (∀ caught ∈ exchange.1.raised exchange.2, _))

def consumerWatch : Watch WorkerCall.Answer where
  halting := shutdownObserved
  breaking := receiptCleanupRaised
  Admissible := OnlyErrors

abbrev Quiet (program : Consumer Value) : Prop :=
  consumerWatch.Announces program fun _ => false

abbrev Recovers (program : Consumer Value) : Prop :=
  consumerWatch.Raises program CaughtError.IsPostgresError

/-! ## Calls -/

def WorkerCall.plain : WorkerCall → Bool
  | sigtermReceived => false
  | waitLatch _ => false
  | call => call.site.isNone

theorem WorkerCall.quiet_of_plain {call : WorkerCall}
    (plain : call.plain = true) (answer : call.Answer) :
    shutdownObserved ⟨call, answer⟩ = false ∧
      receiptCleanupRaised ⟨call, answer⟩ = false := by
  cases call <;> first | exact ⟨rfl, rfl⟩ | cases plain

theorem perform_quiet {call : WorkerCall} (plain : call.plain = true) :
    Quiet (perform call) :=
  (Watch.announces_perform fun answer =>
    (call.quiet_of_plain plain answer).2).congr fun answer =>
      (call.quiet_of_plain plain answer).1

theorem perform_recovers {call : WorkerCall} (plain : call.plain = true) :
    Recovers (perform call) :=
  Watch.raises_perform (call.quiet_of_plain plain)

theorem quiet_pure (value : Value) : Quiet (pure value) :=
  Watch.announces_pure rfl

theorem sigtermReceived_announces :
    consumerWatch.Announces (perform .sigtermReceived) fun received =>
      received :=
  Watch.announces_perform fun _ => rfl

theorem waitLatch_announces (milliseconds : Nat) :
    consumerWatch.Announces (perform (.waitLatch milliseconds)) fun awake =>
      !awake :=
  Watch.announces_perform fun _ => rfl

/-! ## Transactions with a handler -/

section Transactions

variable {site : Site}

theorem recovers_call {call : WorkerCall} {Value : Type}
    {outcome : call.Answer → Except CaughtError Value}
    (raised : ∀ answer, call.raised answer = WorkerCall.raisedOf
      (outcome answer))
    (unasked : ∀ answer, shutdownObserved ⟨call, answer⟩ = false)
    (other : call.site ≠ some .receiptCleanup) :
    Recovers (ExceptT.mk (.ask call fun answer => .done (outcome answer))) := by
  apply Watch.raises_mk rfl
  · intro answer
    refine ⟨unasked answer, ?_⟩
    change receiptCleanupRaised ⟨call, answer⟩ = false
    rw [receiptCleanupRaised, beq_false_of_ne other, Bool.false_and]
  · intro answer caught onlyErrors failed
    apply onlyErrors caught
    rw [raised answer, failed]
    rfl

theorem startTransaction_recovers (other : site ≠ .receiptCleanup) :
    Recovers (startTransaction site) :=
  recovers_call (fun _ => rfl) (fun _ => rfl)
    fun same => other (Option.some.inj same)

theorem commitTransaction_recovers (other : site ≠ .receiptCleanup) :
    Recovers (commitTransaction site) :=
  recovers_call (fun _ => rfl) (fun _ => rfl)
    fun same => other (Option.some.inj same)

theorem backgroundTransaction_recovers (other : site ≠ .receiptCleanup)
    {body : Consumer Value} (recovers : Recovers body) :
    Recovers (backgroundTransaction site body) := by
  apply (startTransaction_recovers other).bind
  intro _
  apply recovers.bind
  intro result
  apply (commitTransaction_recovers other).bind
  intro _
  exact Watch.raises_pure result

theorem hydrateFromDbBody_recovers : Recovers hydrateFromDbBody :=
  recovers_call (fun _ => rfl) (fun _ => rfl) (by decide)

theorem hydrateExpiryFromDbBody_recovers : Recovers hydrateExpiryFromDbBody :=
  recovers_call (fun _ => rfl) (fun _ => rfl) (by decide)

theorem refreshBypassCacheBody_recovers : Recovers refreshBypassCacheBody :=
  recovers_call (fun _ => rfl) (fun _ => rfl) (by decide)

theorem applyEventBody_recovers (eventId : EventId) (username : String)
    (kind : EventKind) (flags : EventFlags) (generation : TimestampTz) :
    Recovers (applyEventBody eventId username kind flags generation) :=
  recovers_call (fun _ => rfl) (fun _ => rfl)
    fun same => nomatch Option.some.inj same

theorem quiet_tryCatch {program : Consumer Value}
    {handler : CaughtError → Consumer Value} (recovers : Recovers program)
    (handles : ∀ caught, caught.IsPostgresError → Quiet (handler caught)) :
    Quiet (tryCatch program handler) :=
  recovers.tryCatch handles

theorem rollBack_quiet (caught : CaughtError) :
    Quiet (rollBack caught : Consumer (Except HydrationFailure Value)) :=
  (perform_quiet rfl).bind_quiet fun _ => quiet_pure _

theorem runHydrationTransaction_quiet : Quiet runHydrationTransaction := by
  apply quiet_tryCatch
  · apply (backgroundTransaction_recovers (by decide)
      hydrateFromDbBody_recovers).bind
    intro result
    exact Watch.raises_pure _
  · intro caught isError
    have caughtHere : caught.kind = .postgresError ∧ caught.level = .error :=
      isError
    rw [if_pos caughtHere]
    exact rollBack_quiet caught

theorem runCountedTransaction_quiet (other : site ≠ .receiptCleanup)
    {body : Consumer (Except String CacheCounts)} (recovers : Recovers body) :
    Quiet (runCountedTransaction site body) := by
  apply quiet_tryCatch
  · apply (backgroundTransaction_recovers other recovers).bind
    intro result
    exact Watch.raises_pure _
  · intro caught isError
    rw [if_neg (not_not.mpr isError.2)]
    exact rollBack_quiet caught

theorem runExpiryHydrationTransaction_quiet :
    Quiet runExpiryHydrationTransaction :=
  runCountedTransaction_quiet (by decide) hydrateExpiryFromDbBody_recovers

theorem runBypassRefreshTransaction_quiet :
    Quiet runBypassRefreshTransaction :=
  runCountedTransaction_quiet (by decide) refreshBypassCacheBody_recovers

theorem stageToken_recovers (token : Option ClaimToken) :
    Recovers (stageToken token) := by
  cases token with
  | none => exact Watch.raises_pure ()
  | some token => exact perform_recovers rfl

theorem runEventTransaction_quiet (eventId : EventId) (username : String)
    (kind : EventKind) (flags : EventFlags) (generation : TimestampTz)
    (token : Option ClaimToken) :
    Quiet (runEventTransaction eventId username kind flags generation
      token) := by
  apply quiet_tryCatch
  · apply (startTransaction_recovers (by decide)).bind
    intro _
    apply (applyEventBody_recovers eventId username kind flags generation).bind
    intro result
    cases result with
    | ok done =>
        apply (stageToken_recovers token).bind
        intro _
        apply (commitTransaction_recovers (by decide)).bind
        intro _
        exact Watch.raises_pure _
    | error detail =>
        apply (perform_recovers rfl).bind
        intro _
        exact Watch.raises_pure _
  · intro caught isError
    rw [if_neg (not_not.mpr isError.2)]
    exact (perform_quiet rfl).bind_quiet fun _ => quiet_pure _

end Transactions

/-! ## The transaction without one -/

theorem cleanup_call_quiet {call : WorkerCall} {Value : Type}
    {outcome : call.Answer → Except CaughtError Value}
    (raised : ∀ answer, call.raised answer = WorkerCall.raisedOf
      (outcome answer))
    (unasked : ∀ answer, shutdownObserved ⟨call, answer⟩ = false)
    (cleanup : call.site = some .receiptCleanup) :
    Quiet (ExceptT.mk (.ask call fun answer => .done (outcome answer))) := by
  apply Watch.announces_mk rfl unasked
  intro answer
  change receiptCleanupRaised ⟨call, answer⟩ = _
  rw [receiptCleanupRaised, cleanup, raised answer]
  cases outcome answer with
  | ok value => rfl
  | error caught => rfl

theorem cleanReceipts_quiet : Quiet cleanReceipts := by
  have starts : Quiet (startTransaction .receiptCleanup) :=
    cleanup_call_quiet (fun _ => rfl) (fun _ => rfl) rfl
  have deletes : Quiet deleteReceiptsBody :=
    cleanup_call_quiet (fun _ => rfl) (fun _ => rfl) rfl
  have commits : Quiet (commitTransaction .receiptCleanup) :=
    cleanup_call_quiet (fun _ => rfl) (fun _ => rfl) rfl
  have transaction : Quiet (backgroundTransaction .receiptCleanup
      deleteReceiptsBody) := by
    apply starts.bind_quiet
    intro _
    apply deletes.bind_quiet
    intro result
    apply commits.bind_quiet
    intro _
    exact quiet_pure result
  apply transaction.bind_quiet
  intro result
  cases result with
  | ok done => exact quiet_pure ()
  | error message => exact perform_quiet rfl

/-! ## Hydration -/

theorem warnRarely_quiet (failures : Nat) (warning : WorkerWarning) :
    Quiet (warnRarely failures warning) := by
  rw [warnRarely]
  split
  · exact perform_quiet rfl
  · exact quiet_pure ()

theorem hydrateOnce_quiet {Counts : Type} (cache : WorkerCache)
    {transaction : Consumer (Except HydrationFailure Counts)}
    {setNotReady : Consumer Unit} (contained : Quiet transaction)
    (marks : Quiet setNotReady) (overflow : Counts → Int)
    (failures retryDelay : Nat) :
    Quiet (hydrateOnce cache transaction overflow setNotReady failures
      retryDelay) := by
  apply contained.bind_quiet
  intro result
  cases result with
  | ok counts =>
      dsimp only
      split
      · exact quiet_pure _
      · apply (warnRarely_quiet _ _).bind_quiet
        intro _
        exact quiet_pure _
  | error failure =>
      apply marks.bind_quiet
      intro _
      apply (warnRarely_quiet _ _).bind_quiet
      intro _
      exact quiet_pure _

theorem reloadOnSighup_quiet : Quiet reloadOnSighup := by
  apply (perform_quiet rfl).bind_quiet
  intro hangup
  split
  · exact perform_quiet rfl
  · exact quiet_pure ()

theorem clearDurableDegradationIfQuiet_quiet (observed : Option Int) :
    Quiet (clearDurableDegradationIfQuiet observed) := by
  cases observed with
  | none => exact quiet_pure ()
  | some since =>
      apply (perform_quiet rfl).bind_quiet
      intro now
      split
      · exact quiet_pure ()
      · apply (perform_quiet rfl).bind_quiet
        intro _
        exact quiet_pure ()

/-- A loop that returns `false` has observed a shutdown. -/
def declines : Locals ⊕ Bool → Bool
  | .inl _ => false
  | .inr goesOn => !goesOn

theorem announces_wait {announced : Value → Bool} {milliseconds : Nat}
    {goesOn stops : Value} (silent : announced goesOn = false)
    (announces : announced stops = true) :
    consumerWatch.Announces
      (do
        let awake ← perform (.waitLatch milliseconds)
        if awake then return goesOn else return stops)
      announced := by
  apply (waitLatch_announces milliseconds).bind
  · intro awake woken
    rw [Bool.not_eq_false'] at woken
    rw [if_pos woken]
    exact Watch.announces_pure silent
  · intro awake asked
    rw [Bool.not_eq_true'] at asked
    exact ⟨stops, by rw [asked]; rfl, announces⟩

theorem announces_sigterm {announced : Value → Bool} {stops : Value}
    {rest : Consumer Value} (announces : announced stops = true)
    (continues : consumerWatch.Announces rest announced) :
    consumerWatch.Announces
      (do
        let terminated ← perform .sigtermReceived
        if terminated then return stops else rest)
      announced := by
  apply sigtermReceived_announces.bind
  · intro terminated running
    rw [running]
    exact continues
  · intro terminated asked
    exact ⟨stops, by rw [asked]; rfl, announces⟩

theorem hydrateCachesOnce_announces (locals : HydrationLocals) :
    consumerWatch.Announces (hydrateCachesOnce locals) declines := by
  apply (perform_quiet rfl).bind_quiet
  intro degradedSince
  apply announces_sigterm rfl
  apply reloadOnSighup_quiet.bind_quiet
  intro _
  apply (perform_quiet rfl).bind_quiet
  intro needLock
  apply (perform_quiet rfl).bind_quiet
  intro needExpiry
  apply (hydrateOnce_quiet .lock runHydrationTransaction_quiet
    (perform_quiet rfl) _ _ _).bind_quiet
  intro lock
  apply (hydrateOnce_quiet .expiry runExpiryHydrationTransaction_quiet
    (perform_quiet rfl) _ _ _).bind_quiet
  intro expiry
  apply (hydrateOnce_quiet .bypass runBypassRefreshTransaction_quiet
    (perform_quiet rfl) _ _ _).bind_quiet
  intro bypass
  dsimp only
  split
  · apply (clearDurableDegradationIfQuiet_quiet degradedSince).bind_quiet
    intro _
    exact Watch.announces_pure rfl
  · exact announces_wait rfl rfl

/-! ## Consumption -/

def isShutdown : ConsumeStep → Bool
  | .inr .shutdown => true
  | _ => false

theorem handleJournalIoFailure_announces (failures : Nat)
    (operation : JournalOperation) :
    consumerWatch.Announces (handleJournalIoFailure failures operation)
      fun result => !result.1 := by
  apply (perform_quiet rfl).bind_quiet
  intro _
  apply (warnRarely_quiet _ _).bind_quiet
  intro _
  apply (waitLatch_announces _).bind
  · intro awake woken
    rw [Bool.not_eq_false'] at woken
    rw [if_pos woken]
    apply (perform_quiet rfl).bind_quiet
    intro _
    exact Watch.announces_pure rfl
  · intro awake asked
    rw [Bool.not_eq_true'] at asked
    exact ⟨_, by rw [asked]; rfl, rfl⟩

theorem retryJournal_announces (locals : ConsumeLocals)
    (operation : JournalOperation) :
    consumerWatch.Announces (retryJournal locals operation) isShutdown := by
  apply (handleJournalIoFailure_announces _ operation).bind
  · intro result woken
    rw [Bool.not_eq_false'] at woken
    dsimp only
    rw [if_pos woken]
    exact Watch.announces_pure rfl
  · intro result asked
    rw [Bool.not_eq_true'] at asked
    exact ⟨_, by dsimp only; rw [asked]; rfl, rfl⟩

theorem suspendCorrupt_announces :
    consumerWatch.Announces suspendCorrupt isShutdown := by
  apply (perform_quiet rfl).bind_quiet
  intro _
  exact Watch.announces_pure rfl

theorem journalCorrupt_announces (reason : String) :
    consumerWatch.Announces (journalCorrupt reason) isShutdown := by
  apply (perform_quiet rfl).bind_quiet
  intro _
  exact suspendCorrupt_announces

theorem readLockState_quiet : Quiet readLockState := perform_quiet rfl

theorem readExpiryState_quiet : Quiet readExpiryState :=
  (perform_quiet rfl).bind_quiet fun _ => quiet_pure _

theorem readBypassState_quiet : Quiet readBypassState :=
  (perform_quiet rfl).bind_quiet fun _ => quiet_pure _

theorem noLongerComplete_quiet (needed degraded : Bool)
    {readState : Consumer CacheState} (reads : Quiet readState) :
    Quiet (noLongerComplete needed degraded readState) := by
  rw [noLongerComplete]
  split
  · apply reads.bind_quiet
    intro state
    split
    · split
      · apply reads.bind_quiet
        intro again
        exact quiet_pure _
      · exact quiet_pure true
    · exact quiet_pure false
  · exact quiet_pure false

theorem durableFailureOver_quiet : Quiet durableFailureOver := by
  apply (perform_quiet rfl).bind_quiet
  intro observed
  cases observed with
  | none => exact quiet_pure false
  | some since =>
      apply (perform_quiet rfl).bind_quiet
      intro now
      exact quiet_pure _

theorem needsRehydration_quiet (degraded : DegradedByRetry)
    (needLock needExpiry : Bool) :
    Quiet (needsRehydration degraded needLock needExpiry) := by
  have warns : ∀ cache, Quiet (do
      perform (.warn (.noLongerComplete cache))
      return true) := by
    intro cache
    apply (perform_quiet rfl).bind_quiet
    intro _
    exact quiet_pure true
  apply (noLongerComplete_quiet _ _ readLockState_quiet).bind_quiet
  intro lock
  split
  · exact warns .lock
  apply (noLongerComplete_quiet _ _ readExpiryState_quiet).bind_quiet
  intro expiry
  split
  · exact warns .expiry
  apply (noLongerComplete_quiet _ _ readBypassState_quiet).bind_quiet
  intro bypass
  split
  · exact warns .bypass
  · exact durableFailureOver_quiet

theorem refreshBypassIfDue_quiet (lastBypassRefresh : Nat)
    (needBypass : Bool) :
    Quiet (refreshBypassIfDue lastBypassRefresh needBypass) := by
  apply (perform_quiet rfl).bind_quiet
  intro now
  split
  · apply (perform_quiet rfl).bind_quiet
    intro refreshed
    apply runBypassRefreshTransaction_quiet.bind_quiet
    intro result
    cases result with
    | ok counts => exact quiet_pure _
    | error failure =>
        apply (perform_quiet rfl).bind_quiet
        intro _
        apply (perform_quiet rfl).bind_quiet
        intro _
        exact quiet_pure _
  · exact quiet_pure _

def endsInShutdown : Value ⊕ ConsumeStep → Bool
  | .inl _ => false
  | .inr step => isShutdown step

theorem announces_ending {program : Consumer ConsumeStep}
    (announces : consumerWatch.Announces program isShutdown) :
    consumerWatch.Announces
      (do
        let step ← program
        return (.inr step : Value ⊕ ConsumeStep))
      endsInShutdown := by
  apply announces.bind
  · intro step running
    exact Watch.announces_pure running
  · intro step asked
    exact ⟨.inr step, rfl, asked⟩

theorem acquireBatch_announces (locals : ConsumeLocals) :
    consumerWatch.Announces (acquireBatch locals) endsInShutdown := by
  rw [acquireBatch]
  cases locals.batch with
  | some path => exact Watch.announces_pure rfl
  | none =>
      apply (perform_quiet rfl).bind_quiet
      intro rotated
      match rotated with
      | .ok (some path) =>
          apply (perform_quiet rfl).bind_quiet
          intro opened
          match opened with
          | .ok () => exact Watch.announces_pure rfl
          | .error (.corrupt reason) =>
              exact announces_ending (journalCorrupt_announces reason)
          | .error .io =>
              exact announces_ending (retryJournal_announces locals .open)
      | .ok none => exact announces_wait rfl rfl
      | .error (.corrupt reason) =>
          exact announces_ending (journalCorrupt_announces reason)
      | .error .io =>
          exact announces_ending (retryJournal_announces locals .rotation)

theorem finishBatch_announces (locals : ConsumeLocals) (path : JournalPath) :
    consumerWatch.Announces (finishBatch locals path) isShutdown := by
  apply (perform_quiet rfl).bind_quiet
  intro removed
  match removed with
  | .ok () =>
      apply cleanReceipts_quiet.bind_quiet
      intro _
      exact Watch.announces_pure rfl
  | .error .io => exact retryJournal_announces _ .cleanup
  | .error (.corrupt reason) =>
      apply (perform_quiet rfl).bind_quiet
      intro _
      exact announces_wait rfl rfl

theorem nextPending_announces (locals : ConsumeLocals) (path : JournalPath) :
    consumerWatch.Announces (nextPending locals path) endsInShutdown := by
  rw [nextPending]
  cases locals.pendingEvent with
  | some event => exact Watch.announces_pure rfl
  | none =>
      apply (perform_quiet rfl).bind_quiet
      intro read
      match read with
      | .ok (some event) => exact Watch.announces_pure rfl
      | .ok none =>
          exact announces_ending (finishBatch_announces locals path)
      | .error (.corrupt reason) =>
          exact announces_ending (journalCorrupt_announces reason)
      | .error .io =>
          exact announces_ending (retryJournal_announces locals .read)

theorem markDegraded_quiet (affected degraded : Bool)
    {readState : Consumer CacheState} {setFailed : Consumer Unit}
    (reads : Quiet readState) (marks : Quiet setFailed) :
    Quiet (markDegraded affected degraded readState setFailed) := by
  rw [markDegraded]
  split
  · apply reads.bind_quiet
    intro state
    split
    · apply marks.bind_quiet
      intro _
      exact quiet_pure true
    · exact quiet_pure degraded
  · exact quiet_pure degraded

theorem mark_quiet (degraded : DegradedByRetry) (affects : AffectedCaches) :
    Quiet (mark degraded affects) := by
  apply (markDegraded_quiet _ _ readLockState_quiet
    (perform_quiet rfl)).bind_quiet
  intro lock
  apply (markDegraded_quiet _ _ readExpiryState_quiet
    (perform_quiet rfl)).bind_quiet
  intro expiry
  exact quiet_pure _

theorem restoreDegraded_quiet (degraded : Bool)
    {readState : Consumer CacheState} {setReady : Consumer Unit}
    (reads : Quiet readState) (restores : Quiet setReady) :
    Quiet (restoreDegraded degraded readState setReady) := by
  rw [restoreDegraded]
  split
  · apply reads.bind_quiet
    intro state
    cases state with
    | workerFailed =>
        apply restores.bind_quiet
        intro _
        exact quiet_pure false
    | ready => exact quiet_pure false
    | notReady => exact quiet_pure true
    | overflow => exact quiet_pure true
  · exact quiet_pure false

theorem restore_quiet (degraded : DegradedByRetry) :
    Quiet (restore degraded) := by
  apply (restoreDegraded_quiet _ readLockState_quiet
    (perform_quiet rfl)).bind_quiet
  intro lockIncomplete
  apply (restoreDegraded_quiet _ readExpiryState_quiet
    (perform_quiet rfl)).bind_quiet
  intro expiryIncomplete
  exact quiet_pure _

theorem suspendAndBackoff_announces (locals : ConsumeLocals)
    (affects : AffectedCaches) :
    consumerWatch.Announces (suspendAndBackoff locals affects)
      isShutdown := by
  apply (mark_quiet _ _).bind_quiet
  intro degraded
  apply (warnRarely_quiet _ _).bind_quiet
  intro _
  exact announces_wait rfl rfl

theorem afterTransaction_announces (locals : ConsumeLocals)
    (affects : AffectedCaches) (outcome : EventTxnOutcome) :
    consumerWatch.Announces (afterTransaction locals affects outcome)
      isShutdown := by
  cases outcome with
  | committed =>
      rw [afterTransaction]
      split
      · apply (restore_quiet _).bind_quiet
        intro stillIncomplete
        split
        · exact Watch.announces_pure rfl
        · exact Watch.announces_pure rfl
      · exact Watch.announces_pure rfl
  | rolledBack detail =>
      apply (perform_quiet rfl).bind_quiet
      intro _
      exact suspendAndBackoff_announces locals affects
  | postgresError sqlErrorCode =>
      apply (perform_quiet rfl).bind_quiet
      intro _
      exact suspendAndBackoff_announces locals affects

theorem applyPending_announces (locals : ConsumeLocals)
    (event : SharedAuthEvent) :
    consumerWatch.Announces (applyPending locals event) isShutdown := by
  apply (perform_quiet rfl).bind_quiet
  intro token
  split
  · apply (runEventTransaction_quiet _ _ _ _ _ token).bind_quiet
    intro outcome
    exact afterTransaction_announces locals _ outcome
  · exact suspendCorrupt_announces

theorem announces_rest {Found : Type}
    {program : Consumer (Found ⊕ ConsumeStep)}
    {next : Found ⊕ ConsumeStep → Consumer ConsumeStep}
    (announces : consumerWatch.Announces program endsInShutdown)
    (handsOn : ∀ step, next (.inr step) = pure step)
    (continues : ∀ found,
      consumerWatch.Announces (next (.inl found)) isShutdown) :
    consumerWatch.Announces (program >>= next) isShutdown := by
  apply announces.bind
  · intro result running
    cases result with
    | inl found => exact continues found
    | inr step =>
        rw [handsOn]
        exact Watch.announces_pure running
  · intro result asked
    cases result with
    | inl found => cases asked
    | inr step => exact ⟨step, handsOn step, asked⟩

theorem consumeOnce_announces (locals : ConsumeLocals) :
    consumerWatch.Announces (consumeOnce locals) isShutdown := by
  apply announces_sigterm rfl
  apply reloadOnSighup_quiet.bind_quiet
  intro _
  apply (perform_quiet rfl).bind_quiet
  intro queueState
  split
  · exact Watch.announces_pure rfl
  apply (perform_quiet rfl).bind_quiet
  intro needLock
  apply (perform_quiet rfl).bind_quiet
  intro needExpiry
  apply (needsRehydration_quiet _ _ _).bind_quiet
  intro rehydrates
  split
  · exact Watch.announces_pure rfl
  apply (refreshBypassIfDue_quiet _ _).bind_quiet
  intro refreshed
  dsimp only
  split
  · exact Watch.announces_pure rfl
  apply announces_rest (acquireBatch_announces _) fun _ => rfl
  intro batch
  apply announces_rest (nextPending_announces _ _) fun _ => rfl
  intro pending
  exact applyPending_announces _ _

/-! ## The whole worker -/

theorem reportIfDue_quiet (lastReported : QueueState) (reports : Nat)
    (current : QueueState) :
    Quiet (reportIfDue lastReported reports current) := by
  rw [reportIfDue]
  split
  · have reports : Quiet (reportSuspended current) := by
      apply (perform_quiet rfl).bind_quiet
      intro lockState
      apply (perform_quiet rfl).bind_quiet
      intro expiryState
      apply (perform_quiet rfl).bind_quiet
      intro bypassState
      apply (perform_quiet rfl).bind_quiet
      intro lockout
      apply (perform_quiet rfl).bind_quiet
      intro expiry
      exact perform_quiet rfl
    apply reports.bind_quiet
    intro _
    exact quiet_pure current
  · exact quiet_pure lastReported

theorem suspendOnce_announces (locals : SuspensionLocals) :
    consumerWatch.Announces (suspendOnce locals) declines := by
  apply announces_sigterm rfl
  apply reloadOnSighup_quiet.bind_quiet
  intro _
  apply (perform_quiet rfl).bind_quiet
  intro current
  split
  · exact Watch.announces_pure rfl
  apply (reportIfDue_quiet _ _ _).bind_quiet
  intro lastReported
  exact announces_wait rfl rfl

theorem authEventConsumerImpl_announces (position : WorkerPosition) :
    consumerWatch.Announces (authEventConsumerImpl position)
      Sum.isRight := by
  cases position with
  | starting =>
      apply (perform_quiet rfl).bind_quiet
      intro _
      apply (perform_quiet rfl).bind_quiet
      intro _
      apply (perform_quiet rfl).bind_quiet
      intro _
      exact Watch.announces_pure rfl
  | hydrating locals =>
      apply (hydrateCachesOnce_announces locals).bind
      · intro result running
        match result with
        | .inl locals => exact Watch.announces_pure rfl
        | .inr true =>
            apply (perform_quiet rfl).bind_quiet
            intro now
            exact Watch.announces_pure rfl
        | .inr false => cases running
      · intro result asked
        match result with
        | .inl locals => cases asked
        | .inr true => cases asked
        | .inr false => exact ⟨.inr (), rfl, rfl⟩
  | consuming locals =>
      apply (consumeOnce_announces locals).bind
      · intro result running
        match result with
        | .inl locals => exact Watch.announces_pure rfl
        | .inr .shutdown => cases running
        | .inr .needsRehydration => exact Watch.announces_pure rfl
        | .inr (.queueUnhealthy state) => exact Watch.announces_pure rfl
      · intro result asked
        match result with
        | .inl locals => cases asked
        | .inr .shutdown => exact ⟨.inr (), rfl, rfl⟩
        | .inr .needsRehydration => cases asked
        | .inr (.queueUnhealthy state) => cases asked
  | suspended locals =>
      apply (suspendOnce_announces locals).bind
      · intro result running
        match result with
        | .inl locals => exact Watch.announces_pure rfl
        | .inr true => exact Watch.announces_pure rfl
        | .inr false => cases running
      · intro result asked
        match result with
        | .inl locals => cases asked
        | .inr true => cases asked
        | .inr false => exact ⟨.inr (), rfl, rfl⟩

/-- The worker for some iterations of its loops: what was exchanged, and where
it stands or how it ended. -/
def runWorker (environment : Environment WorkerCall.Answer) (count : Nat) :
    List WorkerExchange × (WorkerPosition ⊕ Except CaughtError Unit) :=
  Fallible.repeats authEventConsumerImpl environment count .starting []

/-- The worker only ends after a shutdown was observed. -/
def EndsOnShutdown (environment : Environment WorkerCall.Answer)
    (count : Nat) : Prop :=
  (runWorker environment count).2.isRight = true →
    (runWorker environment count).1.any shutdownObserved = true

/-- A PostgreSQL `ERROR` ends the worker exactly when it falls on the cleanup
of the receipts. -/
theorem endsOnShutdown_iff (environment : Environment WorkerCall.Answer)
    (count : Nat)
    (onlyErrors : ∀ exchange ∈ (runWorker environment count).1,
      OnlyErrors exchange) :
    EndsOnShutdown environment count ↔
      (runWorker environment count).1.any receiptCleanupRaised = false :=
  (Watch.repeats_follows authEventConsumerImpl_announces environment count
    .starting [] onlyErrors).halts_iff

/-! ## Two runs -/

def queryCanceled : CaughtError := ⟨.postgresError, .error, 67371461⟩

/-- An enabled server with one empty batch to finish: `hydration` is the answer
to the hydration of the lock cache, `awake` that to a wait and `cleanup` that to
the deletion of the receipts. -/
def batchAnswer
    (hydration : Except CaughtError (Except String HydrationStats))
    (awake : Bool) (cleanup : Except CaughtError (Except String Unit)) :
    (call : WorkerCall) → call.Answer
  | .attachSignalHandlers => ()
  | .connectWorkerToSpi => ()
  | .markRunning => ()
  | .sigtermReceived => false
  | .sighupReceived => false
  | .processConfigFile => ()
  | .lockoutEnforcementEnabled => true
  | .expiryLoginEnforcementActive => true
  | .durableDegradedSince => none
  | .clearDurableDegraded _ => true
  | .markDurableFailureNow => ()
  | .currentTimestamp => 1
  | .instant => 0
  | .waitLatch _ => awake
  | .lockCacheState => .ready
  | .expiryCacheState => .ready
  | .bypassCacheState => .ready
  | .setLockCacheState _ => ()
  | .setExpiryCacheState _ => ()
  | .setBypassCacheState _ => ()
  | .queueState => .healthy
  | .markCorrupt => ()
  | .rotateJournal => .ok (some "password_profile_auth_events.processing")
  | .openJournal _ => .ok ()
  | .nextEvent _ => .ok none
  | .removeProcessing _ => .ok ()
  | .matchingClaim _ => none
  | .startTransaction _ => .ok ()
  | .hydrateFromDb => hydration
  | .hydrateExpiryFromDb => .ok (.ok ⟨0, 0, 0⟩)
  | .refreshBypassCache => .ok (.ok ⟨0, 0, 0⟩)
  | .applyEvent .. => .ok (.ok ())
  | .deleteReceipts => cleanup
  | .stageAck _ => ()
  | .commitTransaction _ => .ok ()
  | .abortCurrentTransaction => ()
  | .warn _ => ()

/-- The hydration is cancelled, and the worker is asked to stop while it waits
for the next attempt. -/
def canceledHydration : Environment WorkerCall.Answer :=
  fun _ => batchAnswer (.error queryCanceled) false (.ok (.ok ()))

theorem canceledHydration_endsOnShutdown :
    (runWorker canceledHydration 2).2.isRight = true ∧
      EndsOnShutdown canceledHydration 2 :=
  ⟨by decide,
    (endsOnShutdown_iff canceledHydration 2 (by decide)).mpr
      (by decide)⟩

/-- The same on the deletion of the receipts. -/
def canceledCleanup : Environment WorkerCall.Answer :=
  fun _ => batchAnswer (.ok (.ok ⟨0, 0, 0⟩)) true (.error queryCanceled)

theorem canceledCleanup_not_endsOnShutdown :
    (∀ exchange ∈ (runWorker canceledCleanup 3).1, OnlyErrors exchange) ∧
      ¬EndsOnShutdown canceledCleanup 3 := by
  refine ⟨by decide, fun ends => ?_⟩
  have ended : (runWorker canceledCleanup 3).2.isRight = true := by
    decide
  exact absurd (ends ended) (by decide)

end PasswordProfile.Worker
