import Mathlib.Data.Fintype.Basic
import PasswordProfile.AuthEvent.Ring
import PasswordProfile.Foundation.Execution

/-! # Resuming enforcement after a durable failure

One word of shared memory says since when durable recording is untrusted. A
backend writes the clock reading it took before it waited for the journal, and
the worker takes the word both for the instant of the last failure and for a
version number.
-/

namespace PasswordProfile.Worker

open AuthEvent Execution

/-! ## The marker -/

def durableQuietPeriodUs : Int := 5000000

def markDurableFailure (now : Int) : Int :=
  if now = 0 then 1 else now

def durableDegradedSince (durableDegradedUs : Int) : Option Int :=
  if durableDegradedUs = 0 then none else some durableDegradedUs

def clearDurableDegraded (durableDegradedUs observed : Int) : Int × Bool :=
  if durableDegradedUs = observed then (0, true) else (durableDegradedUs, false)

/-- The check of `clear_durable_degradation_if_quiet` before the exchange: the
value to exchange, if it gets that far. -/
def quietSince (observed : Option Int) (now : Int) : Option Int :=
  match observed with
  | none => none
  | some since =>
      if saturatingSub now since < durableQuietPeriodUs then none
      else some since

def requiredCachesReady (needLock needExpiry lockOk expiryOk bypassOk : Bool) :
    Bool :=
  let needBypass := needLock || needExpiry
  (!needLock || lockOk) && (!needExpiry || expiryOk) && (!needBypass || bypassOk)

theorem le_markDurableFailure (now : Int) : now ≤ markDurableFailure now := by
  rw [markDurableFailure]
  split <;> omega

theorem durableDegradedSince_eq_some {durableDegradedUs since : Int} :
    durableDegradedSince durableDegradedUs = some since ↔
      durableDegradedUs = since ∧ since ≠ 0 := by
  rw [durableDegradedSince]
  split
  · simp only [reduceCtorEq, false_iff]
    omega
  · simp only [Option.some.injEq]
    omega

theorem quietSince_eq_some {observed : Option Int} {now since : Int}
    (quiet : quietSince observed now = some since) :
    observed = some since ∧ durableQuietPeriodUs ≤ now - since := by
  cases observed with
  | none => cases quiet
  | some value =>
      simp only [quietSince, Option.ite_none_left_eq_some,
        Option.some.injEq] at quiet
      rcases quiet with ⟨elapsed, rfl⟩
      refine ⟨rfl, ?_⟩
      rw [saturatingSub, durableQuietPeriodUs] at elapsed
      rw [durableQuietPeriodUs]
      omega

/-! ## Backends and the worker -/

inductive Backend
  | idle
  /-- `enqueue_encoded_with_id_silent` has read the clock and waits for
  `AUTH_EVENT_LWLOCK`. -/
  | waiting (now : Int)
  /-- `mark_durable_failure_now` has read the clock. -/
  | marking (now : Int)
  deriving DecidableEq, Repr

/-- Where `hydrate_caches_with_retry` stands. -/
inductive HydrationPhase
  | idle
  | hydrating (observed : Option Int)
  | checking (observed : Option Int)
  | exchanging (since : Int)
  deriving DecidableEq, Repr

def HydrationPhase.observed : HydrationPhase → Option Int
  | idle => none
  | hydrating observed => observed
  | checking observed => observed
  | exchanging since => some since

/-- What happened to the marker, with the instant. -/
inductive MarkerEvent
  | read
  | stored (instant : Int)
  | cleared (instant : Int)
  deriving DecidableEq, Repr

structure HealthWorld (size : Nat) where
  clock : Int
  durableDegradedUs : Int
  backends : Fin size → Backend
  /-- The clock reading of the backend that holds `AUTH_EVENT_LWLOCK`. -/
  appending : Option Int
  worker : HydrationPhase
  /-- The latest event first. -/
  trace : List MarkerEvent

inductive HealthAction (size : Nat)
  | tick (duration : Nat)
  | sample (id : Fin size)
  | lock (id : Fin size)
  | append (succeeds : Bool)
  | sampleNow (id : Fin size)
  | storeNow (id : Fin size)
  | readMarker
  | hydrate (needLock needExpiry lockOk expiryOk bypassOk : Bool)
  | checkQuiet
  | exchange
  deriving DecidableEq, Repr

namespace HealthWorld

variable {size : Nat}

def start (size : Nat) (clock : Int) : HealthWorld size where
  clock := clock
  durableDegradedUs := 0
  backends _ := .idle
  appending := none
  worker := .idle
  trace := []

def store (world : HealthWorld size) (now : Int) : HealthWorld size :=
  { world with
    durableDegradedUs := markDurableFailure now
    trace := .stored world.clock :: world.trace }

def withBackend (world : HealthWorld size) (id : Fin size)
    (backend : Backend) : HealthWorld size :=
  { world with backends := Function.update world.backends id backend }

def readMarker (world : HealthWorld size) : HealthWorld size :=
  { world with
    worker := .hydrating (durableDegradedSince world.durableDegradedUs)
    trace := .read :: world.trace }

def exchange (world : HealthWorld size) (since : Int) : HealthWorld size :=
  match clearDurableDegraded world.durableDegradedUs since with
  | (durableDegradedUs, true) =>
      { world with
        durableDegradedUs := durableDegradedUs
        worker := .idle
        trace := .cleared world.clock :: world.trace }
  | (_, false) => { world with worker := .idle }

end HealthWorld

open HealthWorld in
def healthMachine (size : Nat) :
    Machine (HealthWorld size) (HealthAction size) where
  step world
    | .tick duration => some { world with clock := world.clock + duration }
    | .sample id =>
        match world.backends id with
        | .idle => some (world.withBackend id (.waiting world.clock))
        | _ => none
    | .lock id =>
        match world.backends id, world.appending with
        | .waiting now, none =>
            some { world.withBackend id .idle with appending := some now }
        | _, _ => none
    | .append succeeds =>
        match world.appending with
        | none => none
        | some now =>
            -- the failure is published before the lock is released
            some { if succeeds then world else world.store now with
              appending := none }
    | .sampleNow id =>
        match world.backends id with
        | .idle => some (world.withBackend id (.marking world.clock))
        | _ => none
    | .storeNow id =>
        match world.backends id with
        | .marking now => some ((world.store now).withBackend id .idle)
        | _ => none
    | .readMarker =>
        match world.worker with
        | .idle => some world.readMarker
        | _ => none
    | .hydrate needLock needExpiry lockOk expiryOk bypassOk =>
        match world.worker with
        | .hydrating observed =>
            -- an incomplete attempt waits and reads the marker again
            some { world with
              worker :=
                if requiredCachesReady needLock needExpiry lockOk expiryOk
                  bypassOk then .checking observed
                else .idle }
        | _ => none
    | .checkQuiet =>
        match world.worker with
        | .checking observed =>
            some { world with
              worker :=
                match quietSince observed world.clock with
                | none => .idle
                | some since => .exchanging since }
        | _ => none
    | .exchange =>
        match world.worker with
        | .exchanging since => some (world.exchange since)
        | _ => none

/-! ## Sound clearances -/

/-- A failure was stored after the latest read of the marker. -/
def failedSinceRead : List MarkerEvent → Bool
  | [] => false
  | .read :: _ => false
  | .stored _ :: _ => true
  | .cleared _ :: earlier => failedSinceRead earlier

/-- A marker cleared at `instant`, with what happened before: no failure since
the worker read it and none during the quiet period. -/
structure SoundClearance (earlier : List MarkerEvent) (instant : Int) :
    Prop where
  current : failedSinceRead earlier = false
  quiet : ∀ failure, .stored failure ∈ earlier →
    failure + durableQuietPeriodUs ≤ instant

namespace HealthWorld

variable {size : Nat}

/-- A failure sampled at `now` is stored at most `delay` later, and not with
the value that the worker has read. -/
def StoresPromptly (world : HealthWorld size) (delay : Nat) (now : Int) : Prop :=
  world.clock ≤ now + delay ∧
    world.worker.observed ≠ some (markDurableFailure now)

/-- The worker does not find the marker quiet in the first `delay` after the
quiet period. -/
def ChecksLate (world : HealthWorld size) (delay : Nat) : Prop :=
  ∀ since ∈ quietSince world.worker.observed world.clock,
    since + durableQuietPeriodUs + delay ≤ world.clock

/-- What a step has to observe when failures are stored up to `delay` after
their sample. -/
def Timely (delay : Nat) (world : HealthWorld size) : HealthAction size → Prop
  | .append succeeds => succeeds = false →
      ∀ now ∈ world.appending, world.StoresPromptly delay now
  | .storeNow id =>
      match world.backends id with
      | .marking now => world.StoresPromptly delay now
      | _ => True
  | .checkQuiet => world.ChecksLate delay
  | _ => True

instance (world : HealthWorld size) (delay : Nat) (now : Int) :
    Decidable (world.StoresPromptly delay now) :=
  inferInstanceAs (Decidable (world.clock ≤ now + delay ∧
    world.worker.observed ≠ some (markDurableFailure now)))

instance (world : HealthWorld size) (delay : Nat) :
    Decidable (world.ChecksLate delay) :=
  inferInstanceAs (Decidable
    (∀ since ∈ quietSince world.worker.observed world.clock,
      since + durableQuietPeriodUs + delay ≤ world.clock))

instance (delay : Nat) (world : HealthWorld size)
    (action : HealthAction size) : Decidable (Timely delay world action) :=
  match action with
  | .append succeeds =>
      inferInstanceAs (Decidable (succeeds = false →
        ∀ now ∈ world.appending, world.StoresPromptly delay now))
  | .storeNow id =>
      match marked : world.backends id with
      | .marking now =>
          decidable_of_iff (world.StoresPromptly delay now)
            (by simp [Timely, marked])
      | .idle => .isTrue (by simp [Timely, marked])
      | .waiting _ => .isTrue (by simp [Timely, marked])
  | .checkQuiet => inferInstanceAs (Decidable (world.ChecksLate delay))
  | .tick _ => .isTrue trivial
  | .sample _ => .isTrue trivial
  | .lock _ => .isTrue trivial
  | .sampleNow _ => .isTrue trivial
  | .readMarker => .isTrue trivial
  | .hydrate _ _ _ _ _ => .isTrue trivial
  | .exchange => .isTrue trivial

/-- The marker is at most `delay` older than any failure, and while it holds
the value that the worker has read no failure has come since. -/
structure Guarded (delay : Nat) (world : HealthWorld size) : Prop where
  past : ∀ failure, .stored failure ∈ world.trace → failure ≤ world.clock
  young : world.durableDegradedUs ≠ 0 → ∀ failure,
    .stored failure ∈ world.trace → failure ≤ world.durableDegradedUs + delay
  degraded : world.worker.observed ≠ some 0
  version : world.worker.observed = some world.durableDegradedUs →
    failedSinceRead world.trace = false
  quiet : ∀ since, world.worker = .exchanging since →
    since + durableQuietPeriodUs + delay ≤ world.clock
  sound : ∀ later instant earlier,
    world.trace = later ++ .cleared instant :: earlier →
      SoundClearance earlier instant

variable {delay : Nat} {world : HealthWorld size}

theorem guarded_start (clock : Int) : Guarded delay (start size clock) where
  past _ member := by cases member
  young _ _ member := by cases member
  degraded := by simp [start, HydrationPhase.observed]
  version _ := rfl
  quiet _ same := by cases same
  sound _ _ _ split := by simp [start] at split

theorem Guarded.sound_cons (guarded : Guarded delay world)
    {event : MarkerEvent} (other : ∀ instant, event ≠ .cleared instant) :
    ∀ later instant earlier,
      event :: world.trace = later ++ .cleared instant :: earlier →
        SoundClearance earlier instant := by
  intro later instant earlier split
  cases later with
  | nil => exact absurd (List.cons.inj split).1 (other instant)
  | cons head later =>
      exact guarded.sound later instant earlier (List.cons.inj split).2

theorem Guarded.of_eq (guarded : Guarded delay world)
    {after : HealthWorld size} (clock : after.clock = world.clock)
    (marker : after.durableDegradedUs = world.durableDegradedUs)
    (worker : after.worker = world.worker) (trace : after.trace = world.trace) :
    Guarded delay after := by
  rcases guarded with ⟨past, young, degraded, version, quiet, sound⟩
  constructor <;> simp only [clock, marker, worker, trace] <;> assumption

theorem Guarded.tick (guarded : Guarded delay world) (duration : Nat) :
    Guarded delay { world with clock := world.clock + duration } where
  past failure member := by
    have before := guarded.past failure member
    simp only
    omega
  young := guarded.young
  degraded := guarded.degraded
  version := guarded.version
  quiet since same := by
    have before := guarded.quiet since same
    simp only
    omega
  sound := guarded.sound

theorem Guarded.store (guarded : Guarded delay world) {now : Int}
    (prompt : world.StoresPromptly delay now) :
    Guarded delay (world.store now) where
  past failure member := by
    rcases List.mem_cons.mp member with same | before
    · cases same
      exact le_refl _
    · exact guarded.past failure before
  young _ failure member := by
    have soon := prompt.1
    have marked := le_markDurableFailure now
    have past : failure ≤ world.clock := by
      rcases List.mem_cons.mp member with same | before
      · cases same
        exact le_refl _
      · exact guarded.past failure before
    simp only [HealthWorld.store]
    omega
  degraded := guarded.degraded
  version same := absurd same prompt.2
  quiet := guarded.quiet
  sound := guarded.sound_cons (fun _ same => by cases same)

theorem Guarded.readMarker (guarded : Guarded delay world) :
    Guarded delay world.readMarker where
  past failure member := by
    rcases List.mem_cons.mp member with same | before
    · cases same
    · exact guarded.past failure before
  young nonzero failure member := by
    rcases List.mem_cons.mp member with same | before
    · cases same
    · exact guarded.young nonzero failure before
  degraded same := (durableDegradedSince_eq_some.mp same).2 rfl
  version _ := rfl
  quiet _ same := by cases same
  sound := guarded.sound_cons (fun _ same => by cases same)

theorem Guarded.advance (guarded : Guarded delay world)
    {phase : HydrationPhase}
    (observed : phase.observed = none ∨
      phase.observed = world.worker.observed)
    (quiet : ∀ since, phase = .exchanging since →
      since + durableQuietPeriodUs + delay ≤ world.clock) :
    Guarded delay { world with worker := phase } where
  past := guarded.past
  young := guarded.young
  degraded := by
    rcases observed with gone | same
    · simp [gone]
    · simpa [same] using guarded.degraded
  version current := by
    rcases observed with gone | same
    · simp [gone] at current
    · rw [same] at current
      exact guarded.version current
  quiet := quiet
  sound := guarded.sound

theorem Guarded.soundClearance (guarded : Guarded delay world) {since : Int}
    (exchanging : world.worker = .exchanging since)
    (unchanged : world.durableDegradedUs = since) :
    SoundClearance world.trace world.clock where
  current := by
    apply guarded.version
    rw [exchanging, unchanged]
    rfl
  quiet failure member := by
    have nonzero : world.durableDegradedUs ≠ 0 := by
      intro zero
      apply guarded.degraded
      rw [exchanging, ← zero, unchanged]
      rfl
    have young := guarded.young nonzero failure member
    have elapsed := guarded.quiet since exchanging
    omega

theorem Guarded.exchange (guarded : Guarded delay world) {since : Int}
    (exchanging : world.worker = .exchanging since) :
    Guarded delay (world.exchange since) := by
  by_cases unchanged : world.durableDegradedUs = since
  · have sound := guarded.soundClearance exchanging unchanged
    have stored : ∀ {failure}, .stored failure ∈
        MarkerEvent.cleared world.clock :: world.trace →
          .stored failure ∈ world.trace := by
      intro failure member
      rcases List.mem_cons.mp member with same | before
      · cases same
      · exact before
    simp only [HealthWorld.exchange, clearDurableDegraded, if_pos unchanged]
    refine ⟨fun failure member => guarded.past failure (stored member),
      fun nonzero => absurd rfl nonzero, nofun, nofun, nofun,
      fun later instant earlier split => ?_⟩
    cases later with
    | nil =>
        rcases List.cons.inj split with ⟨same, rfl⟩
        cases same
        exact sound
    | cons head later =>
        exact guarded.sound later instant earlier (List.cons.inj split).2
  · simp only [HealthWorld.exchange, clearDurableDegraded, if_neg unchanged]
    exact guarded.advance (.inl rfl) nofun

theorem Guarded.step {action : HealthAction size} {after : HealthWorld size}
    (guarded : Guarded delay world)
    (timely : Timely delay world action)
    (stepped : (healthMachine size).step world action = some after) :
    Guarded delay after := by
  cases action with
  | tick duration =>
      cases stepped
      exact guarded.tick duration
  | sample id =>
      simp only [healthMachine] at stepped
      split at stepped <;> cases stepped
      exact guarded.of_eq rfl rfl rfl rfl
  | lock id =>
      simp only [healthMachine] at stepped
      split at stepped <;> cases stepped
      exact guarded.of_eq rfl rfl rfl rfl
  | append succeeds =>
      simp only [healthMachine] at stepped
      cases held : world.appending with
      | none => simp [held] at stepped
      | some now =>
          rw [held] at stepped
          cases stepped
          cases succeeds with
          | true => exact guarded.of_eq rfl rfl rfl rfl
          | false =>
              have prompt := timely rfl now held
              exact (guarded.store prompt).of_eq rfl rfl rfl rfl
  | sampleNow id =>
      simp only [healthMachine] at stepped
      split at stepped <;> cases stepped
      exact guarded.of_eq rfl rfl rfl rfl
  | storeNow id =>
      simp only [healthMachine] at stepped
      simp only [Timely] at timely
      split at stepped <;> cases stepped
      rename_i now marking
      rw [marking] at timely
      exact (guarded.store timely).of_eq rfl rfl rfl rfl
  | readMarker =>
      simp only [healthMachine] at stepped
      split at stepped <;> cases stepped
      exact guarded.readMarker
  | hydrate needLock needExpiry lockOk expiryOk bypassOk =>
      simp only [healthMachine] at stepped
      split at stepped <;> cases stepped
      rename_i observed hydrating
      apply guarded.advance
      · rw [hydrating]
        split
        · exact .inr rfl
        · exact .inl rfl
      · intro since same
        split at same <;> cases same
  | checkQuiet =>
      simp only [healthMachine] at stepped
      split at stepped <;> cases stepped
      rename_i observed checking
      simp only [Timely, ChecksLate, checking, HydrationPhase.observed] at timely
      cases checked : quietSince observed world.clock with
      | none => exact guarded.advance (.inl rfl) nofun
      | some since =>
          apply guarded.advance
          · right
            rw [checking]
            exact (quietSince_eq_some checked).1.symm
          · intro value same
            cases same
            exact timely since checked
  | exchange =>
      simp only [healthMachine] at stepped
      split at stepped <;> cases stepped
      rename_i since exchanging
      exact guarded.exchange exchanging

end HealthWorld

open HealthWorld in
/-- Whatever the number of backends and the order of their steps, enforcement
resumes only after a quiet period without failures, when failures are stored
promptly and the worker leaves the same margin. -/
theorem soundClearance_of_timely {size delay : Nat} {clock : Int}
    {actions : List (HealthAction size)} {world : HealthWorld size}
    (timely : (healthMachine size).EveryStep (Timely delay)
      (start size clock) actions)
    (completed : (healthMachine size).run (start size clock) actions =
      some world)
    {later earlier : List MarkerEvent} {instant : Int}
    (cleared : world.trace = later ++ .cleared instant :: earlier) :
    SoundClearance earlier instant := by
  have guarded := Machine.run_invariant_of_everyStep
    (fun guarded timely stepped => Guarded.step guarded timely stepped)
    (guarded_start clock) timely completed
  exact guarded.sound later instant earlier cleared

/-- A failure is stored a second after its sample, and the worker resumes six
seconds later. -/
theorem soundClearance_of_timely_late :
    ∃ world, (healthMachine 1).run (HealthWorld.start 1 0)
        [.sample 0, .tick 1000000, .lock 0, .append false, .tick 6000000,
          .readMarker, .hydrate true true true true true, .checkQuiet,
          .exchange] = some world ∧
      world.trace = [.cleared 7000000, .read, .stored 1000000] ∧
      SoundClearance [.read, .stored 1000000] 7000000 := by
  have summary : ((healthMachine 1).run (HealthWorld.start 1 0)
      [.sample 0, .tick 1000000, .lock 0, .append false, .tick 6000000,
        .readMarker, .hydrate true true true true true, .checkQuiet,
        .exchange]).map (·.trace) =
      some [.cleared 7000000, .read, .stored 1000000] := by decide
  rcases Option.map_eq_some_iff.mp summary with ⟨world, completed, trace⟩
  exact ⟨world, completed, trace,
    @soundClearance_of_timely 1 1000000 0 _ world (by decide) completed
      [] _ _ trace⟩

/-- Two backends read the clock in one microsecond. One stores its failure at
once, the other after six seconds, between the worker's read and its check. -/
theorem unsoundClearance_delayed :
    ∃ world earlier instant, (healthMachine 2).run (HealthWorld.start 2 1000000)
        [.sample 0, .sample 1, .lock 0, .append false, .readMarker,
          .lock 1, .tick 6000000, .append false,
          .hydrate true true true true true, .checkQuiet, .exchange] =
        some world ∧
      world.trace = .cleared instant :: earlier ∧
      failedSinceRead earlier = true ∧
      ∃ failure, .stored failure ∈ earlier ∧
        instant < failure + durableQuietPeriodUs := by
  have summary : ((healthMachine 2).run (HealthWorld.start 2 1000000)
      [.sample 0, .sample 1, .lock 0, .append false, .readMarker,
        .lock 1, .tick 6000000, .append false,
        .hydrate true true true true true, .checkQuiet, .exchange]).map
        (·.trace) =
      some [.cleared 7000000, .stored 7000000, .read, .stored 1000000] := by
    decide
  rcases Option.map_eq_some_iff.mp summary with ⟨world, completed, trace⟩
  exact ⟨world, _, _, completed, trace, rfl, 7000000, by decide, by decide⟩

end PasswordProfile.Worker
