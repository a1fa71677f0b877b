import PasswordProfile.Login.ClientAuthHook

/-! # The hook refuses only on healthy policy

What the exchanges of one run of the hook have in common, whatever its
environment answers. Each part of the hook has one lemma, and the hook is put
together from these.
-/

namespace PasswordProfile.Login

open AuthEvent Interaction
open Expiry (GraceOutcome GraceResult)

abbrev HookExchange := Exchange Call.Answer

namespace HookExchange

@[simp] def isPrevious : HookExchange → Bool
  | ⟨.previousHook, _⟩ => true
  | _ => false

@[simp] def offeredKind : HookExchange → Option UInt8
  | ⟨.enqueue _ kind _ _, _⟩ => some kind
  | _ => none

@[simp] def isOffer (exchange : HookExchange) : Bool :=
  exchange.offeredKind.isSome

@[simp] def isDecrement : HookExchange → Bool
  | ⟨.decrementGrace _, _⟩ => true
  | _ => false

@[simp] def isPause : HookExchange → Bool
  | ⟨.recoveryInProgress, recovering⟩ => recovering
  | ⟨.bypassLookup _, decision⟩ => decide (decision = BypassDecision.bypassed)
  | ⟨.workerIsRunning, running⟩ => !running
  | ⟨.queueState, state⟩ => decide (state = QueueState.corrupt)
  | ⟨.durableDegradedSince, since⟩ => since.isSome
  | _ => false

end HookExchange

open HookExchange

def Silent (trace : List HookExchange) : Prop :=
  ∀ exchange ∈ trace, exchange.isPrevious = false ∧
    exchange.isOffer = false ∧ exchange.isDecrement = false

def Unpaused (trace : List HookExchange) : Prop :=
  ∀ exchange ∈ trace, exchange.isPause = false

/-- The hook has asked for the health of the extension, and been told that
nothing is wrong with it. -/
structure ReportedHealthy (trace : List HookExchange) : Prop where
  worker : ⟨.workerIsRunning, true⟩ ∈ trace
  queue : ∃ state, state ≠ QueueState.corrupt ∧ ⟨.queueState, state⟩ ∈ trace
  durable : ⟨.durableDegradedSince, none⟩ ∈ trace

def NoPrevious (trace : List HookExchange) : Prop :=
  ∀ exchange ∈ trace, exchange.isPrevious = false

@[simp] theorem silent_nil : Silent [] := nofun

@[simp] theorem silent_cons {exchange : HookExchange}
    {trace : List HookExchange} :
    Silent (exchange :: trace) ↔ (exchange.isPrevious = false ∧
      exchange.isOffer = false ∧ exchange.isDecrement = false) ∧
        Silent trace :=
  List.forall_mem_cons

@[simp] theorem unpaused_nil : Unpaused [] := nofun

@[simp] theorem unpaused_cons {exchange : HookExchange}
    {trace : List HookExchange} :
    Unpaused (exchange :: trace) ↔
      exchange.isPause = false ∧ Unpaused trace :=
  List.forall_mem_cons

@[simp] theorem noPrevious_nil : NoPrevious [] := nofun

@[simp] theorem noPrevious_cons {exchange : HookExchange}
    {trace : List HookExchange} :
    NoPrevious (exchange :: trace) ↔
      exchange.isPrevious = false ∧ NoPrevious trace :=
  List.forall_mem_cons

theorem NoPrevious.append {first second : List HookExchange}
    (left : NoPrevious first) (right : NoPrevious second) :
    NoPrevious (first ++ second) :=
  List.forall_mem_append.mpr ⟨left, right⟩

theorem countP_of_never {kind : HookExchange → Bool}
    {trace : List HookExchange}
    (never : ∀ exchange ∈ trace, kind exchange = false) :
    trace.countP kind = 0 := by
  apply List.countP_eq_zero.mpr
  intro exchange member
  rw [never exchange member]
  exact Bool.false_ne_true

theorem NoPrevious.count {trace : List HookExchange}
    (noPrevious : NoPrevious trace) : trace.countP isPrevious = 0 :=
  countP_of_never noPrevious

theorem Silent.noPrevious {trace : List HookExchange}
    (silent : Silent trace) : NoPrevious trace :=
  fun exchange member => (silent exchange member).1

theorem Silent.append {first second : List HookExchange}
    (left : Silent first) (right : Silent second) :
    Silent (first ++ second) :=
  List.forall_mem_append.mpr ⟨left, right⟩

theorem Unpaused.append {first second : List HookExchange}
    (left : Unpaused first) (right : Unpaused second) :
    Unpaused (first ++ second) :=
  List.forall_mem_append.mpr ⟨left, right⟩

theorem ReportedHealthy.mono {trace longer : List HookExchange}
    (healthy : ReportedHealthy trace) (subset : trace ⊆ longer) :
    ReportedHealthy longer where
  worker := subset healthy.worker
  queue := by
    rcases healthy.queue with ⟨state, sound, member⟩
    exact ⟨state, sound, subset member⟩
  durable := subset healthy.durable

theorem Silent.offers {trace : List HookExchange} (silent : Silent trace) :
    trace.countP isOffer = 0 :=
  countP_of_never fun exchange member => (silent exchange member).2.1

/-! ## The parts of the hook -/

section Parts

variable {Result : Type} {Post : List HookExchange → Result → Prop}

theorem ensures_perform_bind {call : Call} {next : call.Answer → Hook Result} :
    (perform call >>= next).Ensures Post ↔ ∀ answer,
      (next answer).Ensures fun trace result =>
        Post (⟨call, answer⟩ :: trace) result :=
  Program.ensures_perform_bind

theorem enforcementPauseReason_ensures :
    enforcementPauseReason.Ensures fun trace reason =>
      Silent trace ∧
        (reason = none → Unpaused trace ∧ ReportedHealthy trace) := by
  rw [enforcementPauseReason, ensures_perform_bind]
  intro running
  cases running with
  | false => simp
  | true =>
      simp only [Bool.not_true, Bool.false_eq_true, if_false]
      rw [ensures_perform_bind]
      intro queue
      by_cases corrupt : queue = .corrupt
      · simp [corrupt]
      · rw [if_neg corrupt, ensures_perform_bind]
        intro degraded
        cases degraded with
        | some since => simp
        | none =>
            refine ⟨by simp, fun _ => ⟨by simp [corrupt], by simp, ?_, by simp⟩⟩
            exact ⟨queue, corrupt, by simp⟩

theorem expiryLoginEnforcementActive_ensures :
    expiryLoginEnforcementActive.Ensures fun trace active =>
      Silent trace ∧ Unpaused trace ∧
        (active = true → ⟨.expiryEnforcement, true⟩ ∈ trace) := by
  rw [expiryLoginEnforcementActive, ensures_perform_bind]
  intro switch
  cases switch with
  | false => simp
  | true =>
      simp only [if_true]
      rw [ensures_perform_bind]
      intro days
      simp

theorem reportDegraded_ensures (pauseReason : Option PausedReason)
    (eventLost : Bool) :
    (reportDegraded pauseReason eventLost).Ensures fun trace _ =>
      Silent trace ∧ (eventLost = false → Unpaused trace) := by
  cases pauseReason with
  | some reason =>
      intro _
      exact ⟨by simp, fun _ => by simp⟩
  | none =>
      cases eventLost with
      | false => exact ⟨silent_nil, fun _ => unpaused_nil⟩
      | true =>
          apply enforcementPauseReason_ensures.bind
          intro trace reason ensured answer
          rcases ensured with ⟨silent, _⟩
          exact ⟨silent.append (by simp), nofun⟩

theorem readyCheck_ensures {call : Call} [DecidableEq call.Answer]
    {ready : call.Answer} {on healthy : Bool}
    (silent : ∀ state : call.Answer, Silent [⟨call, state⟩])
    (unpaused : ∀ state : call.Answer, Unpaused [⟨call, state⟩]) :
    (do
      if on && healthy then
        let state ← perform call
        return decide (state = ready)
      else return false : Hook Bool).Ensures fun trace active =>
        Silent trace ∧ Unpaused trace ∧ (active = true →
          on = true ∧ healthy = true ∧ ⟨call, ready⟩ ∈ trace) := by
  split
  · next both =>
      rw [Bool.and_eq_true] at both
      rw [ensures_perform_bind]
      intro state
      refine ⟨silent state, unpaused state, fun active => ?_⟩
      rw [of_decide_eq_true active]
      exact ⟨both.1, both.2, List.mem_singleton_self _⟩
  · simp

theorem lockoutRuntimeActive_ensures (lockoutActive healthy : Bool) :
    (lockoutRuntimeActive lockoutActive healthy).Ensures fun trace active =>
      Silent trace ∧ Unpaused trace ∧ (active = true →
        lockoutActive = true ∧ healthy = true ∧
          ⟨.lockCacheState, Lockout.CacheState.ready⟩ ∈ trace) :=
  readyCheck_ensures (by simp) (by simp)

theorem expiryRuntimeActive_ensures (expiryActive healthy : Bool) :
    (expiryRuntimeActive expiryActive healthy).Ensures fun trace active =>
      Silent trace ∧ Unpaused trace ∧ (active = true →
        expiryActive = true ∧ healthy = true ∧
          ⟨.expiryCacheState, Expiry.ExpiryCacheState.ready⟩ ∈ trace) :=
  readyCheck_ensures (by simp) (by simp)

def OffersOnly (kind : UInt8) (trace : List HookExchange) : Prop :=
  trace.countP isOffer ≤ 1 ∧
    ∀ exchange ∈ trace, exchange.isPrevious = false ∧
      exchange.isDecrement = false ∧
      (exchange.offeredKind = none ∨ exchange.offeredKind = some kind)

theorem Silent.offersOnly {trace : List HookExchange} (silent : Silent trace)
    (kind : UInt8) : OffersOnly kind trace := by
  refine ⟨by rw [silent.offers]; exact Nat.zero_le 1, fun exchange member => ?_⟩
  have quiet := silent exchange member
  refine ⟨quiet.1, quiet.2.2, .inl ?_⟩
  simpa using quiet.2.1

theorem enqueue_ensures (username : String) (kind : UInt8)
    (flags : EventFlags) :
    (enqueue username kind flags).Ensures fun trace _ =>
      OffersOnly kind trace := by
  rw [enqueue, ensures_perform_bind]
  intro step
  split
  · split
    · rw [ensures_perform_bind]
      intro _
      simp [OffersOnly, List.countP_cons]
    · rw [ensures_perform_bind]
      intro _
      simp [OffersOnly, List.countP_cons]
  · simp [OffersOnly]

theorem recordFailure_ensures (username : String) (lockout : Bool) :
    (recordFailure username lockout).Ensures fun trace _ =>
      OffersOnly eventKindFailure trace := by
  rw [recordFailure]
  split
  · rw [ensures_perform_bind]
    intro sqlstate
    split
    · rw [ensures_perform_bind]
      intro userExists
      split
      · apply (enqueue_ensures username eventKindFailure .none).bind
        intro trace outcome offers
        simp only [Program.ensures_pure, List.append_nil]
        refine ⟨by simpa [List.countP_cons] using offers.1, ?_⟩
        simpa using offers.2
      · split
        · rw [ensures_perform_bind]
          intro _
          exact Silent.offersOnly (by simp) _
        · exact Silent.offersOnly (by simp) _
    · exact Silent.offersOnly (by simp) _
  · exact Silent.offersOnly silent_nil _

theorem lockoutSeconds_ensures (username : String) (lockout : Bool) :
    (lockoutSeconds username lockout).Ensures fun trace seconds =>
      Silent trace ∧ Unpaused trace ∧ (seconds ≠ none → lockout = true) := by
  rw [lockoutSeconds]
  split
  · next active =>
      rw [ensures_perform_bind]
      intro cached
      cases cached with
      | some seconds => simp [active]
      | none =>
          simp only
          rw [ensures_perform_bind]
          intro stored
          simp [active]
  · simp

theorem tryConsumeGrace_ensures (username : String) (now : TimestampTz)
    (flags : EventFlags) :
    (tryConsumeGrace username now flags).Ensures fun trace result =>
      trace.countP isOffer ≤ 1 ∧ Unpaused trace ∧
        NoPrevious trace ∧
        (result.outcome ≠ .consumed → result.outcome ≠ .unavailable →
          Silent trace) := by
  rw [tryConsumeGrace, ensures_perform_bind]
  intro state
  split
  · simp
  rw [ensures_perform_bind]
  intro found
  split
  · simp
  split
  · simp
  · simp
  · simp
  · simp
  rw [ensures_perform_bind]
  intro step
  split
  · simp [List.countP_cons]
  · rw [ensures_perform_bind]
    intro _
    simp [List.countP_cons]

/-- An expired password is found without a trace, and an event has only been
offered when the login goes on as a grace login or as an unrecorded one. -/
theorem checkExpiry_ensures (username : String) (lockout expiry lost : Bool) :
    (checkExpiry username lockout expiry lost).Ensures fun trace progress =>
      trace.countP isOffer ≤ 1 ∧ Unpaused trace ∧
        NoPrevious trace ∧
        (progress.eventLost = false → progress.graceConsumed = false →
          Silent trace) ∧
        (progress.passwordExpired = true → lost = false ∧ expiry = true ∧
          progress.eventLost = false ∧ progress.graceConsumed = false) := by
  rw [checkExpiry]
  split
  · next both =>
      simp only [Bool.and_eq_true, Bool.not_eq_true'] at both
      rw [ensures_perform_bind]
      intro now
      rw [ensures_perform_bind]
      intro decision
      split
      · simp
      · simp
      · simp
      · simp [both]
      apply (tryConsumeGrace_ensures username now _).bind
      intro trace result ensured
      rcases ensured with ⟨offers, unpaused, noPrevious, silent⟩
      split
      · simpa [List.countP_cons] using ⟨offers, unpaused, noPrevious⟩
      · next outcome =>
          have quiet := silent (by simp [outcome]) (by simp [outcome])
          simpa [List.countP_cons] using ⟨offers, unpaused, noPrevious, quiet⟩
      · next outcome =>
          have quiet := silent (by simp [outcome]) (by simp [outcome])
          simpa [List.countP_cons, both] using
            ⟨offers, unpaused, noPrevious, quiet⟩
      · simpa [List.countP_cons] using ⟨offers, unpaused, noPrevious⟩
  · simp

theorem recordSuccess_ensures (username : String) (lockout : Bool)
    (progress : Progress) :
    (recordSuccess username lockout progress).Ensures fun trace lost =>
      OffersOnly eventKindSuccess trace ∧
        (progress.eventLost = true ∨ progress.passwordExpired = true ∨
          progress.graceConsumed = true →
            trace = [] ∧ lost = progress.eventLost) := by
  rw [recordSuccess]
  split
  · next admitted =>
      simp only [Bool.and_eq_true, Bool.not_eq_true'] at admitted
      apply (enqueue_ensures username eventKindSuccess _).bind
      intro trace outcome offers
      simp only [Program.ensures_pure, List.append_nil]
      exact ⟨offers, by simp [admitted]⟩
  · exact ⟨silent_nil.offersOnly _, fun _ => ⟨rfl, rfl⟩⟩

theorem emitQueueWarning_ensures (queueWarn lost : Bool) :
    (emitQueueWarning queueWarn lost).Ensures fun trace _ =>
      Silent trace ∧ Unpaused trace := by
  rw [emitQueueWarning]
  split
  · split
    · intro _
      exact ⟨by simp, by simp⟩
    · intro _
      exact ⟨by simp, by simp⟩
  · simp

theorem recheckHealth_ensures (pauseReason : Option PausedReason) :
    (recheckHealth pauseReason).Ensures fun trace lost =>
      Silent trace ∧ (lost = false →
        pauseReason = none ∧ Unpaused trace) := by
  cases pauseReason with
  | some reason => exact ⟨silent_nil, nofun⟩
  | none =>
      apply enforcementPauseReason_ensures.bind
      intro trace current ensured
      rcases ensured with ⟨silent, unpaused⟩
      rw [Program.ensures_pure, List.append_nil]
      refine ⟨silent, fun healthy => ⟨rfl, (unpaused ?_).1⟩⟩
      simpa using healthy

structure AfterAuthentication (lockout expiry : Bool)
    (pauseReason : Option PausedReason) (trace : List HookExchange)
    (outcome : Outcome) : Prop where
  noPrevious : NoPrevious trace
  oneOffer : trace.countP isOffer ≤ 1
  returns : outcome ≠ .previousRaised
  lockedOut : ∀ seconds, outcome = .lockedOut seconds →
    lockout = true ∧ Silent trace ∧ Unpaused trace
  expired : outcome = .passwordExpired → expiry = true ∧ pauseReason = none ∧
    Silent trace ∧ Unpaused trace

theorem afterAuthentication_ensures (username : String)
    (lockout expiry : Bool) (pauseReason : Option PausedReason) :
    (afterAuthentication username lockout expiry pauseReason).Ensures
      (AfterAuthentication lockout expiry pauseReason) := by
  rw [afterAuthentication]
  apply (lockoutSeconds_ensures username lockout).bind
  intro gate seconds ensured
  rcases ensured with ⟨gateSilent, gateUnpaused, needs⟩
  cases seconds with
  | some seconds =>
      simp only [Program.ensures_pure, List.append_nil]
      exact {
        noPrevious := gateSilent.noPrevious
        oneOffer := by rw [gateSilent.offers]; exact Nat.zero_le 1
        returns := by simp
        lockedOut := fun _ _ => ⟨needs (by simp), gateSilent, gateUnpaused⟩
        expired := by simp }
  | none =>
      apply (recheckHealth_ensures pauseReason).bind
      intro health lost ensured
      rcases ensured with ⟨healthSilent, healthy⟩
      apply (checkExpiry_ensures username lockout expiry lost).bind
      intro check progress ensured
      rcases ensured with
        ⟨checkOffers, checkUnpaused, checkPrevious, checkSilent, expires⟩
      apply (recordSuccess_ensures username lockout progress).bind
      intro success lostAfter ensured
      rcases ensured with ⟨successOffers, skipped⟩
      apply (emitQueueWarning_ensures progress.queueWarn lostAfter).bind
      intro queue _ ensured
      rcases ensured with ⟨queueSilent, queueUnpaused⟩
      apply (reportDegraded_ensures pauseReason lostAfter).bind
      intro report _ ensured
      rcases ensured with ⟨reportSilent, reportUnpaused⟩
      have ends : ∀ outcome : Outcome, outcome = .returned ∨
          outcome = .passwordExpired ∧ progress.passwordExpired = true →
          AfterAuthentication lockout expiry pauseReason
            (gate ++ (health ++ (check ++ (success ++ (queue ++
              (report ++ [])))))) outcome := by
        intro outcome ending
        exact {
          noPrevious := gateSilent.noPrevious.append
            (healthSilent.noPrevious.append (checkPrevious.append
              (NoPrevious.append (fun exchange member =>
                (successOffers.2 exchange member).1)
                (queueSilent.noPrevious.append
                  (reportSilent.noPrevious.append noPrevious_nil)))))
          oneOffer := by
            simp only [List.countP_append, gateSilent.offers,
              healthSilent.offers, queueSilent.offers, reportSilent.offers,
              List.countP_nil]
            have first := successOffers.1
            -- the success event is only offered when no grace event was
            by_cases handled : progress.eventLost = true ∨
                progress.passwordExpired = true ∨
                progress.graceConsumed = true
            · rw [(skipped handled).1, List.countP_nil]
              omega
            · simp only [not_or, Bool.not_eq_true] at handled
              rw [(checkSilent handled.1 handled.2.2).offers]
              omega
          returns := by rcases ending with rfl | ⟨rfl, _⟩ <;> simp
          lockedOut := by rcases ending with rfl | ⟨rfl, _⟩ <;> simp
          expired := by
            intro refused
            have expired : progress.passwordExpired = true := by
              rcases ending with rfl | ⟨_, expired⟩
              · cases refused
              · exact expired
            rcases expires expired with
              ⟨notLost, active, notLostAfter, notConsumed⟩
            rcases healthy notLost with ⟨unpausedBefore, healthUnpaused⟩
            rcases skipped (.inr (.inl expired)) with ⟨noSuccess, same⟩
            rw [notLostAfter] at same
            rw [noSuccess]
            exact ⟨active, unpausedBefore,
              gateSilent.append (healthSilent.append
                ((checkSilent notLostAfter notConsumed).append
                  (silent_nil.append (queueSilent.append
                    (reportSilent.append silent_nil))))),
              gateUnpaused.append (healthUnpaused.append
                (checkUnpaused.append (unpaused_nil.append
                  (queueUnpaused.append
                    ((reportUnpaused same).append unpaused_nil)))))⟩ }
      split
      · next expired =>
          exact ends .passwordExpired (.inr ⟨rfl, expired⟩)
      · exact ends .returned (.inl rfl)

structure Warranted (connection : Connection) (username : Option String)
    (bypass : BypassDecision) (active : Bool) (ready : HookExchange)
    (trace : List HookExchange) : Prop where
  authenticated : connection.status = statusOk
  named : username ≠ none
  notBypassed : bypass ≠ .bypassed
  active : active = true
  ready : ready ∈ trace
  silent : Silent trace
  unpaused : Unpaused trace
  healthy : ReportedHealthy trace

structure AfterPrevious (connection : Connection) (username : Option String)
    (bypass : BypassDecision) (lockoutActive expiryActive : Bool)
    (trace : List HookExchange) (outcome : Outcome) : Prop where
  noPrevious : NoPrevious trace
  oneOffer : trace.countP isOffer ≤ 1
  lockedOut : ∀ seconds, outcome = .lockedOut seconds →
    Warranted connection username bypass lockoutActive
      ⟨.lockCacheState, Lockout.CacheState.ready⟩ trace
  expired : outcome = .passwordExpired →
    Warranted connection username bypass expiryActive
      ⟨.expiryCacheState, Expiry.ExpiryCacheState.ready⟩ trace
  unauthenticated : connection.status ≠ statusOk →
    outcome = .returned ∧ OffersOnly eventKindFailure trace

theorem afterPrevious_returned (connection : Connection)
    (username : Option String) (bypass : BypassDecision)
    (lockoutActive expiryActive : Bool) :
    AfterPrevious connection username bypass lockoutActive expiryActive []
      .returned where
  noPrevious := noPrevious_nil
  oneOffer := Nat.zero_le 1
  lockedOut := nofun
  expired := nofun
  unauthenticated := fun _ => ⟨rfl, silent_nil.offersOnly _⟩

theorem OffersOnly.append {kind : UInt8} {first second : List HookExchange}
    (silent : Silent first) (offers : OffersOnly kind second) :
    OffersOnly kind (first ++ second) := by
  constructor
  · rw [List.countP_append, silent.offers, Nat.zero_add]
    exact offers.1
  · exact List.forall_mem_append.mpr
      ⟨(silent.offersOnly kind).2, offers.2⟩

theorem OffersOnly.append_silent {kind : UInt8}
    {first second : List HookExchange} (offers : OffersOnly kind first)
    (silent : Silent second) : OffersOnly kind (first ++ second) := by
  constructor
  · rw [List.countP_append, silent.offers, Nat.add_zero]
    exact offers.1
  · exact List.forall_mem_append.mpr
      ⟨offers.2, (silent.offersOnly kind).2⟩

theorem OffersOnly.noPrevious {kind : UInt8} {trace : List HookExchange}
    (offers : OffersOnly kind trace) : NoPrevious trace :=
  fun exchange member => (offers.2 exchange member).1

theorem afterPrevious_ensures (connection : Connection)
    (username : Option String) (bypass : BypassDecision)
    (lockoutActive expiryActive : Bool) :
    (afterPrevious connection username bypass lockoutActive
      expiryActive).Ensures
      (AfterPrevious connection username bypass lockoutActive
        expiryActive) := by
  unfold afterPrevious
  split
  · exact afterPrevious_returned ..
  next notBypassed =>
  cases username with
  | none => exact afterPrevious_returned ..
  | some username =>
      apply enforcementPauseReason_ensures.bind
      intro health pauseReason ensured
      rcases ensured with ⟨healthSilent, healthUnpaused⟩
      apply (lockoutRuntimeActive_ensures lockoutActive _).bind
      intro lock lockout ensured
      rcases ensured with ⟨lockSilent, lockUnpaused, lockNeeds⟩
      apply (expiryRuntimeActive_ensures expiryActive _).bind
      intro expire expiry ensured
      rcases ensured with ⟨expireSilent, expireUnpaused, expireNeeds⟩
      split
      · next failed =>
          have failed : connection.status ≠ statusOk := by
            simpa [Connection.authenticated] using failed
          apply (recordFailure_ensures username lockout).bind
          intro record lost offers
          apply (reportDegraded_ensures pauseReason lost).bind
          intro report _ ensured
          rcases ensured with ⟨reportSilent, _⟩
          have offersAll : OffersOnly eventKindFailure
              (health ++ (lock ++ (expire ++ (record ++ (report ++ []))))) :=
            .append healthSilent (.append lockSilent (.append expireSilent
              (offers.append_silent (reportSilent.append silent_nil))))
          exact {
            noPrevious := offersAll.noPrevious
            oneOffer := offersAll.1
            lockedOut := nofun
            expired := nofun
            unauthenticated := fun _ => ⟨rfl, offersAll⟩ }
      · next succeeded =>
          have succeeded : connection.status = statusOk := by
            simpa [Connection.authenticated] using succeeded
          apply (afterAuthentication_ensures username lockout expiry
            pauseReason).mono
          intro later outcome after
          have warranted : ∀ {active : Bool} {ready : HookExchange},
              active = true → ready ∈ lock ++ expire → pauseReason = none →
              Silent later → Unpaused later →
              Warranted connection (some username) bypass active ready
                (health ++ (lock ++ (expire ++ later))) := by
            intro active ready switched member healthy silent unpaused
            exact {
              authenticated := succeeded
              named := Option.some_ne_none username
              notBypassed := notBypassed
              active := switched
              ready := by
                rw [← List.append_assoc lock]
                exact List.mem_append_right _ (List.mem_append_left _ member)
              silent := healthSilent.append (lockSilent.append
                (expireSilent.append silent))
              unpaused := (healthUnpaused healthy).1.append
                (lockUnpaused.append (expireUnpaused.append unpaused))
              healthy := (healthUnpaused healthy).2.mono
                (List.subset_append_left _ _) }
          exact {
            noPrevious := healthSilent.noPrevious.append
              (lockSilent.noPrevious.append
                (expireSilent.noPrevious.append after.noPrevious))
            oneOffer := by
              simp only [List.countP_append, healthSilent.offers,
                lockSilent.offers, expireSilent.offers]
              have atMostOne := after.oneOffer
              omega
            lockedOut := by
              intro seconds refused
              rcases after.lockedOut seconds refused with
                ⟨active, silent, unpaused⟩
              rcases lockNeeds active with ⟨switched, healthy, ready⟩
              exact warranted switched (List.mem_append_left _ ready)
                (by simpa using healthy) silent unpaused
            expired := by
              intro refused
              rcases after.expired refused with
                ⟨active, healthy, silent, unpaused⟩
              rcases expireNeeds active with ⟨switched, _, ready⟩
              exact warranted switched (List.mem_append_right _ ready)
                healthy silent unpaused
            unauthenticated := fun failed => absurd succeeded failed }

end Parts

end PasswordProfile.Login
