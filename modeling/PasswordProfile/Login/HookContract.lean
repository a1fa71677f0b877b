import PasswordProfile.Expiry.Grace
import PasswordProfile.Login.Refusal

/-! # The contract of the client authentication hook

One connection, one run of the hook, and an environment that answers every
read as it likes.
-/

namespace PasswordProfile.Login

open AuthEvent Interaction
open Expiry (ExpiryCache ExpiryDecision ExpiryEntry GraceEvent GraceResult
  classify)
open HookExchange
open SlotTable

structure Refused (connection : Connection) (switch ready : HookExchange)
    (trace : List HookExchange) : Prop where
  authenticated : connection.status = statusOk
  notRecovering : ⟨.recoveryInProgress, false⟩ ∈ trace ∧
    ⟨.recoveryInProgress, true⟩ ∉ trace
  notBypassed : ∀ username, ⟨.bypassLookup username, .bypassed⟩ ∉ trace
  -- an incomplete exemption cache exempts nobody either
  lookedUp : ∃ username decision, connection.usernameStr = some username ∧
    decision ≠ BypassDecision.bypassed ∧
    ⟨.bypassLookup username, decision⟩ ∈ trace
  switchedOn : switch ∈ trace
  healthy : ⟨.workerIsRunning, false⟩ ∉ trace ∧
    ⟨.queueState, QueueState.corrupt⟩ ∉ trace ∧
    ∀ since, ⟨.durableDegradedSince, some since⟩ ∉ trace
  reported : ReportedHealthy trace
  ready : ready ∈ trace
  noOffer : ∀ exchange ∈ trace, exchange.isOffer = false
  noDecrement : ∀ exchange ∈ trace, exchange.isDecrement = false

def Grantless (exchange : HookExchange) : Prop :=
  exchange.isDecrement = false ∧
    exchange.offeredKind ≠ some eventKindSuccess ∧
    exchange.offeredKind ≠ some eventKindGraceConsumed

structure HookContract (connection : Connection) (trace : List HookExchange)
    (outcome : Outcome) : Prop where
  previousOnce : trace.countP isPrevious = 1
  previousFirst : ∀ before exchange after,
    trace = before ++ exchange :: after →
    exchange.isOffer = true ∨ exchange.isDecrement = true →
    ∃ earlier ∈ before, earlier.isPrevious = true
  oneOffer : trace.countP isOffer ≤ 1
  lockedOut : ∀ seconds, outcome = .lockedOut seconds →
    Refused connection ⟨.lockoutEnforcement, true⟩
      ⟨.lockCacheState, Lockout.CacheState.ready⟩ trace
  expired : outcome = .passwordExpired →
    Refused connection ⟨.expiryEnforcement, true⟩
      ⟨.expiryCacheState, Expiry.ExpiryCacheState.ready⟩ trace
  unauthenticated : connection.status ≠ statusOk →
    (∀ exchange ∈ trace, Grantless exchange) ∧
    (outcome = .returned ∧
        ⟨.previousHook, PreviousHook.returned⟩ ∈ trace ∨
      outcome = .previousRaised ∧
        ⟨.previousHook, PreviousHook.raised⟩ ∈ trace)

/-- A hook that is silent up to the previous hook acts only after it. -/
theorem previous_precedes {before after early later : List HookExchange}
    {exchange previous : HookExchange} (silent : Silent early)
    (isPrevious : previous.isPrevious = true)
    (split : early ++ previous :: later = before ++ exchange :: after)
    (acts : exchange.isOffer = true ∨ exchange.isDecrement = true) :
    ∃ earlier ∈ before, earlier.isPrevious = true := by
  have notEarly : exchange ∉ early := by
    intro member
    have quiet := silent exchange member
    rw [quiet.2.1, quiet.2.2] at acts
    simp at acts
  have notPrevious : exchange ≠ previous := by
    intro equal
    subst equal
    rcases exchange with ⟨call, answer⟩
    cases call <;> simp at acts isPrevious
  rcases List.append_eq_append_iff.mp split with
    ⟨rest, beforeEq, laterEq⟩ | ⟨rest, earlyEq, afterEq⟩
  · cases rest with
    | nil => exact absurd (List.cons.inj laterEq).1.symm notPrevious
    | cons first rest =>
        refine ⟨previous, ?_, isPrevious⟩
        rw [beforeEq, (List.cons.inj laterEq).1]
        simp
  · cases rest with
    | nil => exact absurd (List.cons.inj afterEq).1 notPrevious
    | cons first rest =>
        refine absurd ?_ notEarly
        rw [earlyEq, (List.cons.inj afterEq).1]
        simp

structure Cleared (connection : Connection) (switch : HookExchange)
    (early : List HookExchange) : Prop where
  lookedUp : ∃ username decision, connection.usernameStr = some username ∧
    decision ≠ BypassDecision.bypassed ∧
    ⟨.bypassLookup username, decision⟩ ∈ early
  notRecovering : ⟨.recoveryInProgress, false⟩ ∈ early
  switchedOn : switch ∈ early
  unpaused : Unpaused early

theorem Warranted.refused {connection : Connection}
    {username : Option String} {bypass : BypassDecision} {active : Bool}
    {ready switch : HookExchange} {early later : List HookExchange}
    (warranted : Warranted connection username bypass active ready later)
    (silent : Silent early) (cleared : Cleared connection switch early) :
    Refused connection switch ready
      (early ++ ⟨.previousHook, PreviousHook.returned⟩ :: later) := by
  have unpaused : Unpaused
      (early ++ ⟨.previousHook, PreviousHook.returned⟩ :: later) :=
    cleared.unpaused.append (by simpa using warranted.unpaused)
  have quiet : ∀ exchange ∈
      early ++ ⟨.previousHook, PreviousHook.returned⟩ :: later,
      exchange.isOffer = false ∧ exchange.isDecrement = false := by
    intro exchange member
    rcases List.mem_append.mp member with member | member
    · exact (silent exchange member).2
    · rcases List.mem_cons.mp member with equal | member
      · rw [equal]
        exact ⟨rfl, rfl⟩
      · exact (warranted.silent exchange member).2
  have never : ∀ exchange : HookExchange, exchange.isPause = true →
      exchange ∉ early ++ ⟨.previousHook, PreviousHook.returned⟩ :: later := by
    intro exchange pauses member
    rw [unpaused exchange member] at pauses
    cases pauses
  exact {
    authenticated := warranted.authenticated
    notRecovering :=
      ⟨List.mem_append_left _ cleared.notRecovering, never _ rfl⟩
    notBypassed := fun username => never _ (by simp)
    lookedUp := by
      rcases cleared.lookedUp with ⟨username, decision, named, other, member⟩
      exact ⟨username, decision, named, other, List.mem_append_left _ member⟩
    switchedOn := List.mem_append_left _ cleared.switchedOn
    healthy := ⟨never _ rfl, never _ (by simp), fun since => never _ rfl⟩
    reported := warranted.healthy.mono fun _ member =>
      List.mem_append_right _ (List.mem_cons_of_mem _ member)
    ready := List.mem_append_right _ (List.mem_cons_of_mem _ warranted.ready)
    noOffer := fun exchange member => (quiet exchange member).1
    noDecrement := fun exchange member => (quiet exchange member).2 }

theorem OffersOnly.grantless {trace : List HookExchange}
    (offers : OffersOnly eventKindFailure trace) :
    ∀ exchange ∈ trace, Grantless exchange := by
  intro exchange member
  rcases offers.2 exchange member with ⟨_, kept, none | failure⟩
  · rw [Grantless, none]
    exact ⟨kept, nofun, nofun⟩
  · rw [Grantless, failure]
    exact ⟨kept, by decide, by decide⟩

theorem grantless_previous (answer : PreviousHook) :
    Grantless ⟨.previousHook, answer⟩ := ⟨rfl, nofun, nofun⟩

theorem callPrevClientAuthHook_ensures {connection : Connection}
    {username : Option String} {bypass : BypassDecision}
    {lockoutActive expiryActive : Bool} {rest : Hook Outcome}
    (early : List HookExchange)
    (ensures : rest.Ensures
      (AfterPrevious connection username bypass lockoutActive expiryActive))
    (silent : Silent early)
    (lockout : lockoutActive = true → username ≠ none → bypass ≠ .bypassed →
      Cleared connection ⟨.lockoutEnforcement, true⟩ early)
    (expiry : expiryActive = true → username ≠ none → bypass ≠ .bypassed →
      Cleared connection ⟨.expiryEnforcement, true⟩ early) :
    (callPrevClientAuthHook rest).Ensures fun later outcome =>
      HookContract connection (early ++ later) outcome := by
  have earlyGrantless := (silent.offersOnly eventKindFailure).grantless
  rw [callPrevClientAuthHook, ensures_perform_bind]
  intro answer
  cases answer with
  | raised =>
      exact {
        previousOnce := by
          rw [List.countP_append, silent.noPrevious.count]
          rfl
        previousFirst := fun _ _ _ split acts =>
          previous_precedes silent rfl split acts
        oneOffer := by
          rw [List.countP_append, silent.offers]
          exact Nat.zero_le 1
        lockedOut := nofun
        expired := nofun
        unauthenticated := fun _ =>
          ⟨List.forall_mem_append.mpr ⟨earlyGrantless,
            List.forall_mem_singleton.mpr (grantless_previous _)⟩,
          .inr ⟨rfl, List.mem_append_right _ (List.mem_singleton_self _)⟩⟩ }
  | returned =>
      apply ensures.mono
      intro later outcome after
      exact {
        previousOnce := by
          rw [List.countP_append, silent.noPrevious.count,
            List.countP_cons_of_pos rfl, after.noPrevious.count]
        previousFirst := fun _ _ _ split acts =>
          previous_precedes silent rfl split acts
        oneOffer := by
          rw [List.countP_append, silent.offers, Nat.zero_add]
          exact after.oneOffer
        lockedOut := by
          intro seconds refused
          have warranted := after.lockedOut seconds refused
          exact warranted.refused silent
            (lockout warranted.active warranted.named warranted.notBypassed)
        expired := by
          intro refused
          have warranted := after.expired refused
          exact warranted.refused silent
            (expiry warranted.active warranted.named warranted.notBypassed)
        unauthenticated := by
          intro failed
          rcases after.unauthenticated failed with ⟨returns, offers⟩
          exact ⟨List.forall_mem_append.mpr ⟨earlyGrantless,
            List.forall_mem_cons.mpr
              ⟨grantless_previous _, offers.grantless⟩⟩,
            .inl ⟨returns, List.mem_append_right _ List.mem_cons_self⟩⟩ }

theorem clientAuthHook_ensures (connection : Connection) :
    (clientAuthHook connection).Ensures (HookContract connection) := by
  rw [clientAuthHook, ensures_perform_bind]
  intro recovering
  cases recovering with
  | true =>
      exact callPrevClientAuthHook_ensures [⟨.recoveryInProgress, true⟩]
        (afterPrevious_returned connection none .notBypassed false false)
        (by simp) nofun nofun
  | false =>
      simp only [Bool.false_eq_true, if_false]
      rw [ensures_perform_bind]
      intro lockoutActive
      apply expiryLoginEnforcementActive_ensures.bind
      intro switches expiryActive ensured
      rcases ensured with ⟨silent, unpaused, switched⟩
      split
      · exact callPrevClientAuthHook_ensures
          (⟨.recoveryInProgress, false⟩ ::
            ⟨.lockoutEnforcement, lockoutActive⟩ :: switches)
          (afterPrevious_returned connection none .notBypassed false false)
          (by simpa using silent) nofun nofun
      -- the role is looked up before the previous hook, if there is a name
      cases named : connection.usernameStr with
      | none =>
          exact callPrevClientAuthHook_ensures
            (⟨.recoveryInProgress, false⟩ ::
              ⟨.lockoutEnforcement, lockoutActive⟩ :: switches)
            (afterPrevious_ensures ..) (by simpa using silent)
            (fun _ nobody => absurd rfl nobody)
            (fun _ nobody => absurd rfl nobody)
      | some username =>
          rw [ensures_perform_bind]
          intro bypass
          have early := callPrevClientAuthHook_ensures
            (⟨.recoveryInProgress, false⟩ ::
              ⟨.lockoutEnforcement, lockoutActive⟩ ::
              (switches ++ [⟨.bypassLookup username, bypass⟩]))
            (afterPrevious_ensures connection (some username) bypass
              lockoutActive expiryActive)
            (by simpa using silent.append (by simp))
            (fun active _ notBypassed =>
              ⟨⟨username, bypass, named, notBypassed, by simp⟩, by simp,
                by simp [active],
                by simpa using unpaused.append (by simpa using notBypassed)⟩)
            (fun active _ notBypassed =>
              ⟨⟨username, bypass, named, notBypassed, by simp⟩, by simp,
                by simp [switched active],
                by simpa using unpaused.append (by simpa using notBypassed)⟩)
          simpa [List.append_assoc] using early

/-- Whatever the shared state does meanwhile, one run of the hook calls the
previous hook once and first, offers at most one event, refuses only a login
that PostgreSQL accepted and on healthy policy, and leaves nothing behind when
it refuses. -/
theorem clientAuthHook_contract (connection : Connection)
    (environment : Environment Call.Answer) :
    HookContract connection
      ((clientAuthHook connection).run environment []).1
      ((clientAuthHook connection).run environment []).2 :=
  (clientAuthHook_ensures connection).run environment []

def steady (lockedFor : Option Int) (expiry : ExpiryDecision) :
    Environment Call.Answer := fun _ call =>
  match call with
  | .recoveryInProgress => false
  | .lockoutEnforcement => true
  | .expiryEnforcement => true
  | .passwordExpiryDays => 90
  | .bypassLookup _ => .notBypassed
  | .previousHook => .returned
  | .workerIsRunning => true
  | .queueState => .healthy
  | .durableDegradedSince => none
  | .lockCacheState => .ready
  | .expiryCacheState => .ready
  | .lastSqlstate => errcodeInvalidPassword
  | .userExists => 1
  | .enqueue .. => ⟨.enqueued, false⟩
  | .remainingSeconds _ => lockedFor
  | .checkLockoutFromDb _ => none
  | .currentTimestamp => 0
  | .expiryLookup .. => expiry
  | .graceEntry _ => none
  | .decrementGrace _ => ()
  | .warn _ => ()

example : ((clientAuthHook ⟨some [97], statusOk⟩).run
    (steady (some 60) .noRow) []).2 = .lockedOut 60 := by decide

example : ((clientAuthHook ⟨some [97], statusOk⟩).run
    (steady none .expiredNoGrace) []).2 = .passwordExpired := by decide

/-! ## The cache behind the grace calls

While `try_consume_grace` holds its lock nobody else changes the cache, so that
its reads are answered from one cache.
-/

theorem run_perform_bind {Result : Type} {call : Call}
    {next : call.Answer → Hook Result}
    {environment : Environment Call.Answer} {history : List HookExchange}
    {answer : call.Answer} (answered : environment history call = answer) :
    (perform call >>= next).run environment history =
      (⟨call, answer⟩ ::
        ((next answer).run environment (history ++ [⟨call, answer⟩])).1,
        ((next answer).run environment (history ++ [⟨call, answer⟩])).2) := by
  subst answered
  rfl

/-- The environment answers from a locked cache, and the queue with `step`. -/
structure AnswersFrom (cache : ExpiryCache) (step : EnqueueStep)
    (environment : Environment Call.Answer) : Prop where
  state : ∀ history,
    environment history .expiryCacheState = cache.readState
  entry : ∀ history username,
    environment history (.graceEntry username) = cache.held username
  queue : ∀ history username kind flags generation,
    environment history (.enqueue username kind flags generation) = step

@[simp] def offeredGrace : HookExchange → Option GraceEvent
  | ⟨.enqueue username _ flags generation, _⟩ =>
      some ⟨username, flags, generation⟩
  | _ => none

/-- The calls are those of a cache operation: the same result, the same event,
and a decrement exactly when the cache takes one grace login. -/
structure Performs (attempt : ExpiryCache.GraceAttempt)
    (run : List HookExchange × GraceResult) : Prop where
  result : run.2 = attempt.result
  offered : run.1.filterMap offeredGrace = attempt.offered.toList
  decremented :
    run.1.any isDecrement = decide (attempt.result.outcome = .consumed)

theorem tryConsumeGrace_performs {cache : ExpiryCache} {step : EnqueueStep}
    {environment : Environment Call.Answer}
    (answers : AnswersFrom cache step environment) (username : String)
    (now : TimestampTz) (flags : EventFlags) (history : List HookExchange) :
    Performs (cache.tryConsumeGrace username now flags step)
      ((tryConsumeGrace username now flags).run environment history) := by
  rw [tryConsumeGrace, run_perform_bind (answers.state history),
    ExpiryCache.tryConsumeGrace]
  by_cases ready : cache.readState = .ready
  · rw [if_neg (not_not.mpr ready), if_neg (not_not.mpr ready),
      run_perform_bind (answers.entry ..), ExpiryCache.held, contents]
    cases slotOf ExpiryEntry.owner cache.entries (encodeUsername username) with
    | none => exact ⟨rfl, rfl, rfl⟩
    | some slot =>
        dsimp only [Option.map_some]
        cases classify (cache.entries slot) now with
        | expiredWithGrace =>
            dsimp only
            rw [run_perform_bind (answers.queue ..)]
            cases step.outcome.isDurable with
            | false => exact ⟨rfl, rfl, rfl⟩
            | true => exact ⟨rfl, rfl, rfl⟩
        | _ => exact ⟨rfl, rfl, rfl⟩
  · rw [if_pos ready, if_pos ready]
    exact ⟨rfl, rfl, rfl⟩

end PasswordProfile.Login
