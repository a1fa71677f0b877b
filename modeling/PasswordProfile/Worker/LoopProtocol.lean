import PasswordProfile.Worker.Protocol

/-! # The worker obeys its protocol

One lemma for each part of the loop, in the order of the source: what the part
leaves the monitor in, whatever it was answered.
-/

namespace PasswordProfile.Worker

open AuthEvent AuthJournal Interaction Lockout

def Broken (_ : CaughtError) (control : Control) : Prop :=
  ∃ site, control.phase = .failed site

abbrev Obeys (program : Consumer Value) (control : Control)
    (Returns : Value → Control → Prop) : Prop :=
  protocol.Meets program control Returns Broken

/-! ## Parts that leave the protocol alone -/

def WorkerCall.unnoticed : WorkerCall → Bool
  | attachSignalHandlers | connectWorkerToSpi | markRunning => true
  | sigtermReceived | sighupReceived | processConfigFile => true
  | durableDegradedSince | clearDurableDegraded _ => true
  | currentTimestamp | instant => true
  | lockCacheState | expiryCacheState | bypassCacheState => true
  | setLockCacheState _ | setExpiryCacheState _ | setBypassCacheState _ => true
  | queueState | warn _ => true
  | _ => false

abbrev Unnoticed (program : Consumer Value) : Prop :=
  Monitor.Only (fun call : WorkerCall => call.unnoticed = true) program

theorem perform_unnoticed {call : WorkerCall} (here : call.unnoticed = true) :
    Unnoticed (perform call) :=
  Monitor.only_perform here

theorem Unnoticed.obeys {program : Consumer Value} {control : Control}
    (unnoticed : Unnoticed program) (idle : control.phase = .none) :
    Obeys program control fun _ final => final = control := by
  apply Monitor.Only.meets unnoticed
  · intro call here
    cases call <;> first | exact idle | cases here
  · intro call answer here
    cases call <;> first | rfl | cases here

theorem warnRarely_unnoticed (failures : Nat) (warning : WorkerWarning) :
    Unnoticed (warnRarely failures warning) := by
  rw [warnRarely]
  split
  · exact perform_unnoticed rfl
  · exact Monitor.only_pure ()

theorem reloadOnSighup_unnoticed : Unnoticed reloadOnSighup := by
  apply (perform_unnoticed rfl).bind
  intro hangup
  split
  · exact perform_unnoticed rfl
  · exact Monitor.only_pure ()

theorem clearDurableDegradationIfQuiet_unnoticed (observed : Option Int) :
    Unnoticed (clearDurableDegradationIfQuiet observed) := by
  cases observed with
  | none => exact Monitor.only_pure ()
  | some since =>
      apply (perform_unnoticed rfl).bind
      intro now
      split
      · exact Monitor.only_pure ()
      · apply (perform_unnoticed rfl).bind
        intro _
        exact Monitor.only_pure ()

theorem readLockState_unnoticed : Unnoticed readLockState :=
  perform_unnoticed rfl

theorem readExpiryState_unnoticed : Unnoticed readExpiryState :=
  (perform_unnoticed rfl).bind fun _ => Monitor.only_pure _

theorem readBypassState_unnoticed : Unnoticed readBypassState :=
  (perform_unnoticed rfl).bind fun _ => Monitor.only_pure _

theorem noLongerComplete_unnoticed (needed degraded : Bool)
    {readState : Consumer CacheState} (reads : Unnoticed readState) :
    Unnoticed (noLongerComplete needed degraded readState) := by
  rw [noLongerComplete]
  split
  · apply reads.bind
    intro state
    split
    · split
      · apply reads.bind
        intro again
        exact Monitor.only_pure _
      · exact Monitor.only_pure _
    · exact Monitor.only_pure _
  · exact Monitor.only_pure _

theorem durableFailureOver_unnoticed : Unnoticed durableFailureOver := by
  apply (perform_unnoticed rfl).bind
  intro observed
  cases observed with
  | none => exact Monitor.only_pure _
  | some since =>
      apply (perform_unnoticed rfl).bind
      intro now
      exact Monitor.only_pure _

theorem needsRehydration_unnoticed (degraded : DegradedByRetry)
    (needLock needExpiry : Bool) :
    Unnoticed (needsRehydration degraded needLock needExpiry) := by
  have warns (cache : WorkerCache) : Unnoticed do
      perform (.warn (.noLongerComplete cache))
      return true := by
    apply (perform_unnoticed rfl).bind
    intro _
    exact Monitor.only_pure _
  apply (noLongerComplete_unnoticed _ _ readLockState_unnoticed).bind
  intro lock
  split
  · exact warns .lock
  apply (noLongerComplete_unnoticed _ _ readExpiryState_unnoticed).bind
  intro expiry
  split
  · exact warns .expiry
  apply (noLongerComplete_unnoticed _ _ readBypassState_unnoticed).bind
  intro bypass
  split
  · exact warns .bypass
  exact durableFailureOver_unnoticed

theorem markDegraded_unnoticed (affected degraded : Bool)
    {readState : Consumer CacheState} {setFailed : Consumer Unit}
    (reads : Unnoticed readState) (sets : Unnoticed setFailed) :
    Unnoticed (markDegraded affected degraded readState setFailed) := by
  rw [markDegraded]
  split
  · apply reads.bind
    intro state
    split
    · apply sets.bind
      intro _
      exact Monitor.only_pure _
    · exact Monitor.only_pure _
  · exact Monitor.only_pure _

theorem mark_unnoticed (degraded : DegradedByRetry)
    (affects : AffectedCaches) : Unnoticed (mark degraded affects) := by
  apply (markDegraded_unnoticed _ _ readLockState_unnoticed
    (perform_unnoticed rfl)).bind
  intro lock
  apply (markDegraded_unnoticed _ _ readExpiryState_unnoticed
    (perform_unnoticed rfl)).bind
  intro expiry
  exact Monitor.only_pure _

theorem restoreDegraded_unnoticed (degraded : Bool)
    {readState : Consumer CacheState} {setReady : Consumer Unit}
    (reads : Unnoticed readState) (sets : Unnoticed setReady) :
    Unnoticed (restoreDegraded degraded readState setReady) := by
  rw [restoreDegraded]
  split
  · apply reads.bind
    intro state
    cases state with
    | workerFailed =>
        apply sets.bind
        intro _
        exact Monitor.only_pure _
    | ready => exact Monitor.only_pure _
    | notReady => exact Monitor.only_pure _
    | overflow => exact Monitor.only_pure _
  · exact Monitor.only_pure _

theorem restore_unnoticed (degraded : DegradedByRetry) :
    Unnoticed (restore degraded) := by
  apply (restoreDegraded_unnoticed _ readLockState_unnoticed
    (perform_unnoticed rfl)).bind
  intro lock
  apply (restoreDegraded_unnoticed _ readExpiryState_unnoticed
    (perform_unnoticed rfl)).bind
  intro expiry
  exact Monitor.only_pure _

theorem Unnoticed.before {first : Consumer Value}
    {next : Value → Consumer Final} {control : Control}
    {Returns : Final → Control → Prop} (unnoticed : Unnoticed first)
    (idle : control.phase = .none)
    (continues : ∀ value, Obeys (next value) control Returns) :
    Obeys (first >>= next) control Returns := by
  apply (unnoticed.obeys idle).bind
  intro value final same
  rw [same]
  exact continues value

/-! ## Transactions -/

section Transactions

variable {control : Control} {site : Site}

theorem perform_before {call : WorkerCall} {next : call.Answer → Consumer Value}
    {Returns : Value → Control → Prop} {Raises : CaughtError → Control → Prop}
    (permits : control.Permits call)
    (continues : ∀ answer, protocol.Meets (next answer)
      (control.advance call answer) Returns Raises) :
    protocol.Meets (perform call >>= next) control Returns Raises := by
  apply Monitor.Meets.bind
    (Monitor.meets_perform permits fun answer => Eq.refl _)
  rintro answer _ rfl
  exact continues answer

/-- Control inside a transaction that began in `control`. -/
def Control.within (control : Control) (site : Site) (phase : Phase) :
    Control :=
  { control.begin site with phase }

def Fills (control : Control) (site : Site) (body : Consumer Value)
    (loaded : Value → Bool) : Prop :=
  protocol.Meets body (control.within site (.open site))
    (fun value final =>
      final = control.within site (.ready site (loaded value)))
    fun _ final => final = control.within site (.failed site)

theorem startTransaction_meets (starts : control.PermitsStart site) :
    protocol.Meets (startTransaction site) control
      (fun _ final => final = control.within site (.open site))
      fun _ final => final = control.within site (.failed site) := by
  refine ⟨starts, ?_⟩
  intro answer
  cases answer with
  | ok value => rfl
  | error caught => rfl

theorem commitTransaction_meets (loaded : Bool) :
    protocol.Meets (commitTransaction site)
      (control.within site (.ready site loaded))
      (fun _ final => final = (control.begin site).commit site loaded)
      fun _ final => final = control.within site (.failed site) := by
  refine ⟨⟨loaded, rfl⟩, ?_⟩
  intro answer
  cases answer with
  | ok value =>
      cases site with
      | event => rfl
      | lockHydration => rfl
      | expiryHydration => rfl
      | bypassRefresh => rfl
      | receiptCleanup => rfl
  | error caught => rfl

theorem backgroundTransaction_meets {body : Consumer Value}
    {loaded : Value → Bool} (fills : Fills control site body loaded)
    (starts : control.PermitsStart site) :
    protocol.Meets (backgroundTransaction site body) control
      (fun value final =>
        final = (control.begin site).commit site (loaded value))
      fun _ final => final = control.within site (.failed site) := by
  apply (startTransaction_meets starts).bind
  rintro _ _ rfl
  apply Monitor.Meets.bind fills
  rintro value _ rfl
  apply (commitTransaction_meets (loaded value)).bind
  rintro _ _ rfl
  exact Monitor.meets_pure rfl

theorem hydrateFromDbBody_fills :
    Fills control .lockHydration hydrateFromDbBody Except.toBool := by
  refine ⟨rfl, ?_⟩
  intro answer
  cases answer with
  | ok result => rfl
  | error caught => rfl

theorem hydrateExpiryFromDbBody_fills :
    Fills control .expiryHydration hydrateExpiryFromDbBody
      Except.toBool := by
  refine ⟨rfl, ?_⟩
  intro answer
  cases answer with
  | ok result => rfl
  | error caught => rfl

theorem refreshBypassCacheBody_fills :
    Fills control .bypassRefresh refreshBypassCacheBody Except.toBool := by
  refine ⟨rfl, ?_⟩
  intro answer
  cases answer with
  | ok result => rfl
  | error caught => rfl

theorem deleteReceiptsBody_fills (removed : control.stage = .removed) :
    Fills control .receiptCleanup deleteReceiptsBody Except.toBool := by
  refine ⟨⟨rfl, removed⟩, ?_⟩
  intro answer
  cases answer with
  | ok result => rfl
  | error caught => rfl

def Site.hydrates : Site → Bool
  | .lockHydration | .expiryHydration | .bypassRefresh => true
  | .event | .receiptCleanup => false

theorem Control.commit_false (hydrates : site.hydrates = true) :
    control.commit site false = { control with phase := .none } := by
  cases site with
  | lockHydration => simp [Control.commit]
  | expiryHydration => simp [Control.commit]
  | bypassRefresh => simp [Control.commit]
  | event => cases hydrates
  | receiptCleanup => cases hydrates

theorem rollBack_obeys (hydrates : site.hydrates = true)
    (caught : CaughtError) :
    Obeys (rollBack caught : Consumer (Except HydrationFailure Value))
      (control.within site (.failed site)) fun result final =>
        final = (control.begin site).commit site result.toBool := by
  refine perform_before ⟨site, rfl⟩ ?_
  intro _
  apply Monitor.meets_pure
  rw [Except.toBool, Control.commit_false hydrates]
  cases site with
  | event => cases hydrates
  | _ => rfl

theorem reported_meets {body : Consumer (Except String Counts)}
    (fills : Fills control site body Except.toBool)
    (starts : control.PermitsStart site) :
    protocol.Meets (do
        let result ← backgroundTransaction site body
        return result.mapError HydrationFailure.reported) control
      (fun result final =>
        final = (control.begin site).commit site result.toBool)
      fun _ final => final = control.within site (.failed site) := by
  apply (backgroundTransaction_meets fills starts).bind
  rintro result _ rfl
  apply Monitor.meets_pure
  cases result with
  | ok counts => rfl
  | error error => rfl

theorem runHydrationTransaction_obeys (calm : control.Calm) :
    Obeys runHydrationTransaction control fun result final =>
      final = control.rehydrate.commit .lockHydration result.toBool := by
  apply (reported_meets hydrateFromDbBody_fills calm).tryCatch
  rintro caught _ rfl
  split
  · exact rollBack_obeys rfl caught
  · exact Monitor.meets_throw ⟨.lockHydration, rfl⟩

theorem runCountedTransaction_obeys (hydrates : site.hydrates = true)
    {body : Consumer (Except String CacheCounts)}
    (fills : Fills control site body Except.toBool)
    (starts : control.PermitsStart site) :
    Obeys (runCountedTransaction site body) control fun result final =>
      final = (control.begin site).commit site result.toBool := by
  apply (reported_meets fills starts).tryCatch
  rintro caught _ rfl
  split
  · exact Monitor.meets_throw ⟨site, rfl⟩
  · exact rollBack_obeys hydrates caught

theorem runExpiryHydrationTransaction_obeys (calm : control.Calm) :
    Obeys runExpiryHydrationTransaction control fun result final =>
      final = control.commit .expiryHydration result.toBool :=
  runCountedTransaction_obeys rfl hydrateExpiryFromDbBody_fills calm

theorem runBypassRefreshTransaction_obeys (calm : control.Calm) :
    Obeys runBypassRefreshTransaction control fun result final =>
      final = control.commit .bypassRefresh result.toBool :=
  runCountedTransaction_obeys rfl refreshBypassCacheBody_fills calm

/-! ## Events -/

structure AtEvent (control : Control) (path : JournalPath)
    (event : SharedAuthEvent) (token : Option ClaimToken) : Prop
    extends control.MayConsume where
  stage : control.stage = .pending path event token

def Control.afterEvent (control : Control) : EventTxnOutcome → Control
  | .committed => control.commit .event true
  | _ => control.abort .event

theorem applyEventBody_meets {path : JournalPath} {event : SharedAuthEvent}
    {token : Option ClaimToken} (here : AtEvent control path event token)
    {eventId : EventId} {username : String} {kind : EventKind}
    {flags : EventFlags} {generation : TimestampTz}
    (decodes : Control.Decodes event eventId username kind flags generation) :
    protocol.Meets (applyEventBody eventId username kind flags generation)
      (control.within .event (.open .event))
      (fun result final => final = control.within .event
        (if result.toBool then .ready .event true else .failed .event))
      fun _ final => final = control.within .event (.failed .event) := by
  refine ⟨⟨rfl, path, event, token, here.stage, decodes⟩, ?_⟩
  intro answer
  match answer with
  | .ok (.ok ()) => rfl
  | .ok (.error detail) => rfl
  | .error caught => rfl

theorem stageToken_meets {path : JournalPath} {event : SharedAuthEvent}
    {token : Option ClaimToken} {Raises : CaughtError → Control → Prop}
    (here : AtEvent control path event token) :
    protocol.Meets (stageToken token)
      (control.within .event (.ready .event true))
      (fun _ final => final = control.within .event (.ready .event true))
      Raises := by
  cases token with
  | none => exact Monitor.meets_pure rfl
  | some token =>
      exact Monitor.meets_perform ⟨rfl, path, event, here.stage⟩ fun _ => rfl

theorem runEventTransaction_obeys {path : JournalPath}
    {event : SharedAuthEvent} {token : Option ClaimToken}
    (here : AtEvent control path event token) {eventId : EventId}
    {username : String} {kind : EventKind} {flags : EventFlags}
    {generation : TimestampTz}
    (decodes : Control.Decodes event eventId username kind flags generation) :
    Obeys (runEventTransaction eventId username kind flags generation token)
      control fun outcome final => final = control.afterEvent outcome := by
  have starts : control.PermitsStart .event :=
    ⟨here.toMayConsume, path, event, token, here.stage⟩
  apply Monitor.Meets.tryCatch
  · apply (startTransaction_meets starts).bind
    rintro _ _ rfl
    apply (applyEventBody_meets here decodes).bind
    rintro result _ rfl
    cases result with
    | ok value =>
        apply (stageToken_meets here).bind
        rintro _ _ rfl
        apply (commitTransaction_meets true).bind
        rintro _ _ rfl
        exact Monitor.meets_pure rfl
    | error detail =>
        refine perform_before ⟨.event, rfl⟩ ?_
        intro _
        exact Monitor.meets_pure rfl
  · rintro caught _ rfl
    split
    · exact Monitor.meets_throw ⟨.event, rfl⟩
    · refine perform_before ⟨.event, rfl⟩ ?_
      intro _
      exact Monitor.meets_pure rfl

end Transactions

/-! ## What holds between two iterations -/

/-- The variables of `consume_events` and the place in the journal. -/
def Stage.Fits (stage : Stage) (locals : ConsumeLocals) : Prop :=
  match locals.batch, locals.pendingEvent with
  | .none, .none => stage = .none
  | .some path, .none => stage = .reading path
  | .some path, .some event => ∃ claim, stage = .pending path event claim
  | .none, .some _ => False

structure Follows (control : Control) (locals : ConsumeLocals) : Prop
    extends control.MayConsume where
  stage : control.stage.Fits locals
  eventFailures : control.eventFailures = locals.eventFailures
  ioFailures : control.ioFailures = locals.journalIoFailures

/-- What an iteration of `consume_events` leaves behind. -/
def AfterConsume : ConsumeStep → Control → Prop
  | .inl locals, control => Follows control locals
  | .inr .shutdown, control => control.phase = .none
  | .inr _, control => control.Calm

/-- What an iteration of `hydrate_caches_with_retry` leaves behind. -/
def AfterHydration : HydrationLocals ⊕ Bool → Control → Prop
  | .inl _, control => control.Calm
  | .inr true, control => ∀ now, Follows control (.start now)
  | .inr false, control => control.phase = .none

section Iterations

variable {control : Control} {locals : ConsumeLocals}

/-! ## Hydration -/

theorem hydrateOnce_obeys {Counts : Type} (cache : WorkerCache)
    {transaction : Consumer (Except HydrationFailure Counts)}
    (next : Bool → Control) (idle : ∀ loaded, (next loaded).phase = .none)
    (transacts : Obeys transaction control fun result final =>
      final = next result.toBool)
    {setNotReady : Consumer Unit} (marks : Unnoticed setNotReady)
    (overflow : Counts → Int) (failures retryDelay : Nat) :
    Obeys (hydrateOnce cache transaction overflow setNotReady failures
      retryDelay) control fun result final => final = next result.1 := by
  apply Monitor.Meets.bind transacts
  rintro result _ rfl
  cases result with
  | ok counts =>
      dsimp only
      split
      · exact Monitor.meets_pure rfl
      · apply (warnRarely_unnoticed _ _).before (idle true)
        intro _
        exact Monitor.meets_pure rfl
  | error failure =>
      apply marks.before (idle false)
      intro _
      apply (warnRarely_unnoticed _ _).before (idle false)
      intro _
      exact Monitor.meets_pure rfl

theorem Control.Calm.nothingOwed (calm : control.Calm)
    (milliseconds : Nat) : ∀ delay ∈ control.owed, milliseconds = delay := by
  simp [calm.owed]

theorem waitLatch_before {milliseconds : Nat}
    {next : Bool → Consumer Value} {Returns : Value → Control → Prop}
    (calm : control.Calm)
    (continues : ∀ awake, Obeys (next awake) control Returns) :
    Obeys (perform (.waitLatch milliseconds) >>= next) control Returns := by
  refine perform_before ⟨calm.phase, calm.nothingOwed _, ?_, ?_⟩ ?_
  · simp [calm.trouble]
  · simp [calm.trouble]
  intro awake
  have same : control.advance (.waitLatch milliseconds) awake = control := by
    cases awake with
    | false => rfl
    | true =>
        rcases control with ⟨_, _, _, _, _, trouble, _, _, owed⟩
        have untroubled : trouble = .none := calm.trouble
        have unowed : owed = none := calm.owed
        rw [untroubled, unowed]
        rfl
  rw [same]
  exact continues awake

theorem hydrated_follows (calm : control.Calm) {lock expiry bypass : Bool}
    (ready : requiredCachesReady control.needLock control.needExpiry lock
      expiry bypass = true) (now : Nat) :
    Follows (((control.rehydrate.commit .lockHydration lock).commit
        .expiryHydration expiry).commit .bypassRefresh bypass)
      (.start now) where
  phase := rfl
  trouble := calm.trouble
  owed := calm.owed
  complete := by
    simpa [Control.commit, Control.rehydrate, Round.complete] using ready
  stage := rfl
  eventFailures := rfl
  ioFailures := rfl

theorem hydrateCachesOnce_obeys (locals : HydrationLocals)
    (calm : control.Calm) :
    Obeys (hydrateCachesOnce locals) control AfterHydration := by
  apply (perform_unnoticed rfl).before calm.phase
  intro degradedSince
  apply (perform_unnoticed rfl).before calm.phase
  intro terminated
  split
  · exact Monitor.meets_pure calm.phase
  apply reloadOnSighup_unnoticed.before calm.phase
  intro _
  refine perform_before calm.phase ?_
  intro needLock
  refine perform_before calm.phase ?_
  intro needExpiry
  let asked : Control := { control with needLock, needExpiry }
  have calmAsked : asked.Calm := ⟨calm.phase, calm.trouble, calm.owed⟩
  let locked (lock : Bool) := asked.rehydrate.commit .lockHydration lock
  have calmLocked (lock : Bool) : (locked lock).Calm :=
    ⟨rfl, calm.trouble, calm.owed⟩
  apply (hydrateOnce_obeys .lock locked (fun _ => rfl)
    (runHydrationTransaction_obeys calmAsked) (perform_unnoticed rfl)
    _ _ _).bind
  rintro ⟨lockOk, failures⟩ _ rfl
  let expired (expiry : Bool) :=
    (locked lockOk).commit .expiryHydration expiry
  have calmExpired (expiry : Bool) : (expired expiry).Calm :=
    ⟨rfl, calm.trouble, calm.owed⟩
  apply (hydrateOnce_obeys .expiry expired (fun _ => rfl)
    (runExpiryHydrationTransaction_obeys (calmLocked lockOk))
    (perform_unnoticed rfl) _ _ _).bind
  rintro ⟨expiryOk, failures⟩ _ rfl
  apply (hydrateOnce_obeys .bypass
    (fun bypass => (expired expiryOk).commit .bypassRefresh bypass)
    (fun _ => rfl) (runBypassRefreshTransaction_obeys (calmExpired expiryOk))
    (perform_unnoticed rfl) _ _ _).bind
  rintro ⟨bypassOk, failures⟩ _ rfl
  have calmLoaded :
      ((expired expiryOk).commit .bypassRefresh bypassOk).Calm :=
    ⟨rfl, calm.trouble, calm.owed⟩
  dsimp only
  split
  · next ready =>
      apply (clearDurableDegradationIfQuiet_unnoticed _).before
        calmLoaded.phase
      intro _
      exact Monitor.meets_pure (hydrated_follows calmAsked ready)
  · apply waitLatch_before calmLoaded
    intro awake
    split
    · exact Monitor.meets_pure calmLoaded
    · exact Monitor.meets_pure calmLoaded.phase

/-! ## Consumption -/

theorem handleJournalIoFailure_obeys (operation : JournalOperation)
    (calm : control.Calm) :
    Obeys (handleJournalIoFailure control.ioFailures operation)
      { control with trouble := .unmarked } fun result final =>
        final.phase = .none ∧ (result.1 = true →
          final = { control with ioFailures := result.2 }) := by
  refine perform_before ⟨calm.phase, .inl rfl⟩ ?_
  intro _
  let marked : Control := { control with
    trouble := .waiting, ioFailures := countedFailure control.ioFailures }
  have idle : marked.phase = .none := calm.phase
  apply (warnRarely_unnoticed _ _).before idle
  intro _
  refine perform_before
    ⟨calm.phase, calm.nothingOwed _, nofun, fun _ => rfl⟩ ?_
  intro awake
  cases awake with
  | false => exact Monitor.meets_pure ⟨calm.phase, nofun⟩
  | true =>
      refine perform_before ⟨calm.phase, .inr rfl⟩ ?_
      intro _
      refine Monitor.meets_pure ⟨calm.phase, fun _ => ?_⟩
      rcases control with ⟨_, _, _, _, _, trouble, _, _, owed⟩
      cases calm.trouble
      cases calm.owed
      rfl

theorem retryJournal_obeys (follows : Follows control locals)
    (operation : JournalOperation) :
    Obeys (retryJournal locals operation)
      { control with trouble := .unmarked } AfterConsume := by
  rw [retryJournal, ← follows.ioFailures]
  apply (handleJournalIoFailure_obeys operation follows.toCalm).bind
  rintro ⟨awake, failures⟩ final ⟨phase, resumed⟩
  cases awake with
  | false => exact Monitor.meets_pure phase
  | true =>
      rw [resumed rfl]
      exact Monitor.meets_pure ⟨⟨⟨follows.phase, follows.trouble, follows.owed⟩,
        follows.complete⟩, follows.stage, follows.eventFailures, rfl⟩

theorem suspendCorrupt_obeys (calm : control.Calm) :
    Obeys suspendCorrupt control AfterConsume := by
  refine perform_before calm.phase ?_
  intro _
  exact Monitor.meets_pure ⟨calm.phase, calm.trouble, calm.owed⟩

theorem journalCorrupt_obeys (reason : String) (calm : control.Calm) :
    Obeys (journalCorrupt reason) control AfterConsume := by
  apply (perform_unnoticed rfl).before calm.phase
  intro _
  exact suspendCorrupt_obeys calm

theorem Follows.toLastRefresh (follows : Follows control locals)
    (lastBypassRefresh : Nat) :
    Follows control { locals with lastBypassRefresh } :=
  ⟨follows.toMayConsume, follows.stage, follows.eventFailures,
    follows.ioFailures⟩

theorem Follows.refreshed (follows : Follows control locals) (loaded : Bool) :
    Follows (control.commit .bypassRefresh loaded) locals where
  phase := rfl
  trouble := follows.trouble
  owed := follows.owed
  complete := by
    have complete := follows.complete
    revert complete
    simp only [Control.commit, Round.complete, requiredCachesReady]
    cases control.round.bypass <;> simp +contextual
  stage := follows.stage
  eventFailures := follows.eventFailures
  ioFailures := follows.ioFailures

theorem refreshBypassIfDue_obeys (follows : Follows control locals)
    (lastBypassRefresh : Nat) (needBypass : Bool) :
    Obeys (refreshBypassIfDue lastBypassRefresh needBypass) control
      fun _ final => Follows final locals := by
  apply (perform_unnoticed rfl).before follows.phase
  intro now
  split
  · apply (perform_unnoticed rfl).before follows.phase
    intro refreshed
    apply (runBypassRefreshTransaction_obeys follows.toCalm).bind
    rintro result _ rfl
    cases result with
    | ok counts => exact Monitor.meets_pure (follows.refreshed true)
    | error failure =>
        have after := follows.refreshed false
        apply (perform_unnoticed rfl).before after.phase
        intro _
        apply (perform_unnoticed rfl).before after.phase
        intro _
        exact Monitor.meets_pure after
  · exact Monitor.meets_pure follows

/-- What is left of an iteration: the batch or the event to go on with, or what
the iteration comes to. -/
def FoundOr (Found : Value → Control → Prop) :
    Value ⊕ ConsumeStep → Control → Prop
  | .inl value, control => Found value control
  | .inr step, control => AfterConsume step control

theorem obeys_ending {program : Consumer ConsumeStep}
    {Found : Value → Control → Prop}
    (obeys : Obeys program control AfterConsume) :
    Obeys (do
      let step ← program
      return (.inr step : Value ⊕ ConsumeStep)) control (FoundOr Found) := by
  apply Monitor.Meets.bind obeys
  intro step final after
  exact Monitor.meets_pure after

def HasBatch (found : ConsumeLocals × JournalPath) (control : Control) :
    Prop :=
  Follows control found.1 ∧ found.1.batch = some found.2

theorem Follows.noBatch (follows : Follows control locals)
    (batch : locals.batch = none) :
    control.stage = .none ∧ locals.pendingEvent = none := by
  have fits := follows.stage
  rw [Stage.Fits, batch] at fits
  cases pending : locals.pendingEvent with
  | none =>
      rw [pending] at fits
      exact ⟨fits, rfl⟩
  | some event =>
      rw [pending] at fits
      exact fits.elim

theorem Follows.moved (follows : Follows control locals) {stage : Stage}
    (moved : ConsumeLocals) (fits : stage.Fits moved)
    (same : moved.eventFailures = locals.eventFailures) :
    Follows { control with stage, ioFailures := moved.journalIoFailures }
      moved :=
  ⟨⟨⟨follows.phase, follows.trouble, follows.owed⟩, follows.complete⟩, fits,
    follows.eventFailures.trans same.symm, rfl⟩

theorem acquireBatch_obeys (follows : Follows control locals) :
    Obeys (acquireBatch locals) control (FoundOr HasBatch) := by
  rw [acquireBatch]
  cases batch : locals.batch with
  | some path => exact Monitor.meets_pure ⟨follows, batch⟩
  | none =>
      rcases follows.noBatch batch with ⟨stage, nothing⟩
      refine perform_before ⟨follows.toMayConsume, stage⟩ ?_
      intro answer
      rcases answer with (_ | reason) | _ | path
      · exact obeys_ending (retryJournal_obeys follows .rotation)
      · exact obeys_ending (journalCorrupt_obeys reason
          ⟨follows.phase, rfl, follows.owed⟩)
      · apply waitLatch_before follows.toCalm
        intro awake
        split
        · exact Monitor.meets_pure follows
        · exact Monitor.meets_pure follows.phase
      · refine perform_before ⟨⟨⟨follows.phase, follows.trouble,
          follows.owed⟩, follows.complete⟩, rfl⟩ ?_
        intro answer
        rcases answer with (_ | reason) | _
        · have closed : Follows { control with stage := .none } locals := by
            rw [← stage]
            exact follows
          exact obeys_ending (retryJournal_obeys closed .open)
        · exact obeys_ending (journalCorrupt_obeys reason
            ⟨follows.phase, rfl, follows.owed⟩)
        · have fits : (Stage.reading path).Fits { locals with
              batch := some path, journalIoFailures := 0 } := by
            rw [Stage.Fits, nothing]
          exact Monitor.meets_pure ⟨follows.moved _ fits rfl, rfl⟩

theorem cleanReceipts_obeys (consumes : control.MayConsume)
    (removed : control.stage = .removed) :
    Obeys cleanReceipts control fun _ final =>
      final = { control with stage := .none } := by
  have starts : control.PermitsStart .receiptCleanup := ⟨consumes, removed⟩
  have cleaned (loaded : Bool) :
      (control.begin .receiptCleanup).commit .receiptCleanup loaded =
        { control with stage := .none } := by
    rcases control with ⟨_, _, _, _, phase, _, _, _, _⟩
    cases consumes.phase
    rfl
  apply ((backgroundTransaction_meets (deleteReceiptsBody_fills removed)
    starts).mono (fun _ _ => id) fun _ _ same =>
      ⟨.receiptCleanup, by rw [same]; rfl⟩).bind
  rintro result _ rfl
  rw [cleaned]
  cases result with
  | ok value => exact Monitor.meets_pure rfl
  | error error =>
      exact (perform_unnoticed rfl).obeys consumes.phase

theorem finishBatch_obeys (follows : Follows control locals)
    (nothing : locals.pendingEvent = none) (path : JournalPath) :
    Obeys (finishBatch locals path) { control with stage := .ended path }
      AfterConsume := by
  have fits : Stage.none.Fits { locals with batch := none } := by
    rw [Stage.Fits, nothing]
  have closed : Follows { control with stage := .none }
      { locals with batch := none } :=
    ⟨⟨⟨follows.phase, follows.trouble, follows.owed⟩, follows.complete⟩,
      fits, follows.eventFailures, follows.ioFailures⟩
  refine perform_before ⟨⟨⟨follows.phase, follows.trouble,
    follows.owed⟩, follows.complete⟩, rfl⟩ ?_
  intro answer
  match answer with
  | .ok () =>
      have removed : Control.MayConsume { control with
          stage := .removed, ioFailures := 0 } :=
        ⟨⟨follows.phase, follows.trouble, follows.owed⟩, follows.complete⟩
      apply (cleanReceipts_obeys removed rfl).bind
      rintro _ _ rfl
      exact Monitor.meets_pure (follows.moved
        { locals with batch := none, journalIoFailures := 0 } fits rfl)
  | .error .io => exact retryJournal_obeys closed .cleanup
  | .error (.corrupt reason) =>
      have kept : Follows { control with stage := .none, trouble := .none }
          { locals with batch := none } :=
        ⟨⟨⟨follows.phase, rfl, follows.owed⟩, follows.complete⟩, fits,
          follows.eventFailures, follows.ioFailures⟩
      apply (perform_unnoticed rfl).before kept.phase
      intro _
      apply waitLatch_before kept.toCalm
      intro awake
      split
      · exact Monitor.meets_pure kept
      · exact Monitor.meets_pure kept.phase

def HasEvent (found : ConsumeLocals × SharedAuthEvent) (control : Control) :
    Prop :=
  Follows control found.1 ∧ found.1.pendingEvent = some found.2

theorem nextPending_obeys {path : JournalPath}
    (here : HasBatch (locals, path) control) :
    Obeys (nextPending locals path) control (FoundOr HasEvent) := by
  rcases here with ⟨follows, batch⟩
  rw [nextPending]
  cases pending : locals.pendingEvent with
  | some event => exact Monitor.meets_pure ⟨follows, pending⟩
  | none =>
      have stage : control.stage = .reading path := by
        have fits := follows.stage
        rw [Stage.Fits, batch, pending] at fits
        exact fits
      refine perform_before ⟨follows.toMayConsume, stage⟩ ?_
      intro answer
      rcases answer with (_ | reason) | _ | event
      · exact obeys_ending (retryJournal_obeys follows .read)
      · exact obeys_ending (journalCorrupt_obeys reason
          ⟨follows.phase, rfl, follows.owed⟩)
      · exact obeys_ending (finishBatch_obeys follows pending path)
      · have fits : (Stage.pending path event none).Fits { locals with
            pendingEvent := some event, journalIoFailures := 0 } := by
          rw [Stage.Fits, batch]
          exact ⟨none, rfl⟩
        exact Monitor.meets_pure ⟨follows.moved _ fits rfl, rfl⟩

theorem suspendAndBackoff_obeys (follows : Follows control locals)
    (affects : AffectedCaches) :
    Obeys (suspendAndBackoff locals affects) (control.abort .event)
      AfterConsume := by
  have idle : (control.abort .event).phase = .none := rfl
  apply (mark_unnoticed locals.degraded affects).before idle
  intro degraded
  apply (warnRarely_unnoticed _ _).before idle
  intro _
  have counted : (control.abort .event).owed = some (eventFailureBackoff
      (countedFailure locals.eventFailures)) := by
    rw [← follows.eventFailures]
    rfl
  refine perform_before ⟨rfl, ?_, ?_, ?_⟩ ?_
  · simp [counted]
  · simp [Control.abort, follows.trouble]
  · simp [Control.abort, follows.trouble]
  intro awake
  cases awake with
  | false => exact Monitor.meets_pure rfl
  | true =>
      refine Monitor.meets_pure ⟨⟨⟨rfl, ?_, rfl⟩, follows.complete⟩,
        follows.stage, ?_, follows.ioFailures⟩
      · simp [Control.advance, Control.abort, follows.trouble]
      · rw [← follows.eventFailures]
        rfl

theorem Follows.committed (follows : Follows control locals)
    {event : SharedAuthEvent} (pending : locals.pendingEvent = some event)
    (degraded : DegradedByRetry) :
    Follows (control.commit .event true) { locals with
      pendingEvent := none, degraded, eventFailures := 0 } := by
  refine ⟨⟨⟨rfl, follows.trouble, follows.owed⟩, follows.complete⟩, ?_, rfl,
    follows.ioFailures⟩
  have fits := follows.stage
  rw [Stage.Fits, pending] at fits
  cases batch : locals.batch with
  | none =>
      rw [batch] at fits
      exact fits.elim
  | some path =>
      rw [batch] at fits
      rcases fits with ⟨claim, stage⟩
      simp [Stage.Fits, Control.commit, stage]

theorem afterTransaction_obeys (follows : Follows control locals)
    {event : SharedAuthEvent} (pending : locals.pendingEvent = some event)
    (affects : AffectedCaches) (outcome : EventTxnOutcome) :
    Obeys (afterTransaction locals affects outcome)
      (control.afterEvent outcome) AfterConsume := by
  cases outcome with
  | committed =>
      have committed := follows.committed pending
      rw [afterTransaction]
      dsimp only
      split
      · refine (restore_unnoticed locals.degraded).before
          (committed .none).phase ?_
        intro stillIncomplete
        split
        · exact Monitor.meets_pure (committed .none).toCalm
        · exact Monitor.meets_pure (committed .none)
      · next none =>
          have zero : locals.eventFailures = 0 := Nat.eq_zero_of_not_pos none
          have kept := committed locals.degraded
          rw [← zero] at kept
          exact Monitor.meets_pure kept
  | rolledBack detail =>
      apply (perform_unnoticed rfl).before rfl
      intro _
      exact suspendAndBackoff_obeys follows affects
  | postgresError sqlErrorCode =>
      apply (perform_unnoticed rfl).before rfl
      intro _
      exact suspendAndBackoff_obeys follows affects

theorem HasEvent.stage {event : SharedAuthEvent}
    (here : HasEvent (locals, event) control) :
    ∃ path claim, control.stage = .pending path event claim ∧
      ∀ token, (Stage.pending path event token).Fits locals := by
  rcases here with ⟨follows, pending⟩
  have fits := follows.stage
  rw [Stage.Fits, pending] at fits
  cases batch : locals.batch with
  | none =>
      rw [batch] at fits
      exact fits.elim
  | some path =>
      rw [batch] at fits
      rcases fits with ⟨claim, stage⟩
      refine ⟨path, claim, stage, ?_⟩
      intro token
      rw [Stage.Fits, pending, batch]
      exact ⟨token, rfl⟩

theorem applyPending_obeys {event : SharedAuthEvent}
    (here : HasEvent (locals, event) control) :
    Obeys (applyPending locals event) control AfterConsume := by
  rcases here.stage with ⟨path, claim, stage, fits⟩
  rcases here with ⟨follows, pending⟩
  refine perform_before
    ⟨follows.toMayConsume, path, event, claim, stage, rfl⟩ ?_
  intro token
  let claimed : Control :=
    { control with stage := .pending path event token }
  have advanced : control.advance (.matchingClaim event.eventId) token =
      claimed := by
    simp only [Control.advance, stage, claimed]
  have claimedFollows : Follows claimed locals :=
    ⟨⟨⟨follows.phase, follows.trouble, follows.owed⟩, follows.complete⟩,
      fits token, follows.eventFailures, follows.ioFailures⟩
  have atEvent : AtEvent claimed path event token :=
    ⟨claimedFollows.toMayConsume, rfl⟩
  rw [advanced]
  split
  · next username kind flags named kinded flagged =>
      apply (runEventTransaction_obeys atEvent
        ⟨rfl, named, kinded, flagged, rfl⟩).bind
      rintro outcome _ rfl
      exact afterTransaction_obeys claimedFollows pending _ outcome
  · exact suspendCorrupt_obeys claimedFollows.toCalm

theorem obeys_rest {program : Consumer (Value ⊕ ConsumeStep)}
    {next : Value ⊕ ConsumeStep → Consumer ConsumeStep}
    {Found : Value → Control → Prop}
    (obeys : Obeys program control (FoundOr Found))
    (handsOn : ∀ step, next (.inr step) = pure step)
    (continues : ∀ value control, Found value control →
      Obeys (next (.inl value)) control AfterConsume) :
    Obeys (program >>= next) control AfterConsume := by
  apply Monitor.Meets.bind obeys
  intro result final found
  cases result with
  | inl value => exact continues value final found
  | inr step =>
      rw [handsOn]
      exact Monitor.meets_pure found

theorem consumeOnce_obeys (follows : Follows control locals) :
    Obeys (consumeOnce locals) control AfterConsume := by
  apply (perform_unnoticed rfl).before follows.phase
  intro terminated
  split
  · exact Monitor.meets_pure follows.phase
  apply reloadOnSighup_unnoticed.before follows.phase
  intro _
  apply (perform_unnoticed rfl).before follows.phase
  intro queueState
  split
  · exact Monitor.meets_pure follows.toCalm
  refine perform_before follows.phase ?_
  intro needLock
  refine perform_before follows.phase ?_
  intro needExpiry
  have asked : Follows { control with needLock, needExpiry } locals :=
    ⟨⟨⟨follows.phase, follows.trouble, follows.owed⟩, follows.complete⟩,
      follows.stage, follows.eventFailures, follows.ioFailures⟩
  apply (needsRehydration_unnoticed _ _ _).before asked.phase
  intro rehydrates
  split
  · exact Monitor.meets_pure asked.toCalm
  apply (refreshBypassIfDue_obeys asked _ _).bind
  rintro ⟨lastBypassRefresh, stale⟩ final refreshed
  dsimp only
  split
  · exact Monitor.meets_pure refreshed.toCalm
  refine obeys_rest
    (acquireBatch_obeys (refreshed.toLastRefresh lastBypassRefresh))
    (fun _ => rfl) ?_
  rintro ⟨locals, path⟩ control here
  apply obeys_rest (nextPending_obeys here) (fun _ => rfl)
  rintro ⟨locals, event⟩ control here
  exact applyPending_obeys here

/-! ## The whole worker -/

theorem reportSuspended_obeys (current : QueueState) (calm : control.Calm) :
    Obeys (reportSuspended current) control fun _ final => final.Calm := by
  apply (perform_unnoticed rfl).before calm.phase
  intro lockState
  apply (perform_unnoticed rfl).before calm.phase
  intro expiryState
  apply (perform_unnoticed rfl).before calm.phase
  intro bypassState
  refine perform_before calm.phase ?_
  intro lockout
  refine perform_before calm.phase ?_
  intro expiry
  exact Monitor.meets_perform calm.phase fun _ =>
    ⟨calm.phase, calm.trouble, calm.owed⟩

theorem reportIfDue_obeys (lastReported : QueueState) (reports : Nat)
    (current : QueueState) (calm : control.Calm) :
    Obeys (reportIfDue lastReported reports current) control
      fun _ final => final.Calm := by
  rw [reportIfDue]
  split
  · apply (reportSuspended_obeys current calm).bind
    intro _ final still
    exact Monitor.meets_pure still
  · exact Monitor.meets_pure calm

/-- What an iteration of `suspend_on_unhealthy_queue` leaves behind. -/
def AfterSuspension : SuspensionLocals ⊕ Bool → Control → Prop
  | .inr false, control => control.phase = .none
  | _, control => control.Calm

theorem suspendOnce_obeys (locals : SuspensionLocals) (calm : control.Calm) :
    Obeys (suspendOnce locals) control AfterSuspension := by
  apply (perform_unnoticed rfl).before calm.phase
  intro terminated
  split
  · exact Monitor.meets_pure calm.phase
  apply reloadOnSighup_unnoticed.before calm.phase
  intro _
  apply (perform_unnoticed rfl).before calm.phase
  intro current
  split
  · exact Monitor.meets_pure calm
  apply (reportIfDue_obeys _ _ _ calm).bind
  intro lastReported final still
  apply waitLatch_before still
  intro awake
  split
  · exact Monitor.meets_pure still
  · exact Monitor.meets_pure still.phase

def AtPosition : WorkerPosition → Control → Prop
  | .consuming locals, control => Follows control locals
  | _, control => control.Calm

theorem authEventConsumerImpl_obeys {position : WorkerPosition}
    (here : AtPosition position control) :
    Obeys (authEventConsumerImpl position) control
      (Sum.elim AtPosition fun _ control => control.phase = .none) := by
  cases position with
  | starting =>
      apply (perform_unnoticed rfl).before here.phase
      intro _
      apply (perform_unnoticed rfl).before here.phase
      intro _
      apply (perform_unnoticed rfl).before here.phase
      intro _
      exact Monitor.meets_pure here
  | hydrating locals =>
      apply (hydrateCachesOnce_obeys locals here).bind
      intro result final after
      match result with
      | .inl locals => exact Monitor.meets_pure after
      | .inr true =>
          apply (perform_unnoticed rfl).before (after 0).phase
          intro now
          exact Monitor.meets_pure (after now)
      | .inr false => exact Monitor.meets_pure after
  | consuming locals =>
      apply (consumeOnce_obeys here).bind
      intro result final after
      match result with
      | .inl locals => exact Monitor.meets_pure after
      | .inr .shutdown => exact Monitor.meets_pure after
      | .inr .needsRehydration => exact Monitor.meets_pure after
      | .inr (.queueUnhealthy state) => exact Monitor.meets_pure after
  | suspended locals =>
      apply (suspendOnce_obeys locals here).bind
      intro result final after
      match result with
      | .inl locals => exact Monitor.meets_pure after
      | .inr true => exact Monitor.meets_pure after
      | .inr false => exact Monitor.meets_pure after

end Iterations

theorem life_obeys (environment : Environment WorkerCall.Answer) (count : Nat)
    (history : List WorkerExchange) :
    protocol.Accepts Control.start (Fallible.repeats authEventConsumerImpl
        environment count .starting history).1 ∧
      Monitor.Stands AtPosition (fun _ control => control.phase = .none) Broken
        (Fallible.repeats authEventConsumerImpl environment count .starting
          history).2
        (protocol.after Control.start (Fallible.repeats authEventConsumerImpl
          environment count .starting history).1) := by
  apply Monitor.repeats_accepts
  · intro position control here
    exact authEventConsumerImpl_obeys here
  · exact ⟨rfl, rfl, rfl⟩

/-- Whatever it is answered, the worker only makes calls that its protocol
permits, and it only leaves a transaction open that has failed. -/
theorem runWorker_obeysProtocol (environment : Environment WorkerCall.Answer)
    (count : Nat) :
    protocol.Accepts Control.start (runWorker environment count).1 ∧
      ∀ ended, (runWorker environment count).2 = .inr ended →
        Monitor.Ends
          (fun _ control => control.phase = .none)
          (fun _ control => ∃ site, control.phase = .failed site) ended
          (protocol.after Control.start (runWorker environment count).1) := by
  have obeys := life_obeys environment count []
  refine ⟨obeys.1, ?_⟩
  intro ended same
  have stands := obeys.2
  change Monitor.Stands _ _ _ (runWorker environment count).2 _ at stands
  rw [same] at stands
  exact stands

end PasswordProfile.Worker
