import PasswordProfile.AuthEvent.Event
import PasswordProfile.Expiry.PasswordExpiry
import PasswordProfile.Foundation.Execution
import PasswordProfile.Lockout.Hydration

/-! # Readiness under a retry of the worker

The worker pauses a cache while an event that writes it cannot be applied, and
reads the state in one lock section and writes it in another. A commit that
does not fit in a full cache stores `overflow`, and may do so between the two.
-/

namespace PasswordProfile.Worker

open AuthEvent (EventFlags EventKind)
open Execution Expiry Lockout SlotTable

/-! ## The state of either cache -/

inductive SharedCache
  | lock
  | expiry
  deriving DecidableEq, Repr

structure CacheFlags where
  lock : Bool
  expiry : Bool
  deriving DecidableEq, Repr

namespace CacheFlags

def none : CacheFlags := ⟨false, false⟩

def get (flags : CacheFlags) : SharedCache → Bool
  | .lock => flags.lock
  | .expiry => flags.expiry

def update (flags : CacheFlags) (cache : SharedCache) (value : Bool) :
    CacheFlags :=
  match cache with
  | .lock => { flags with lock := value }
  | .expiry => { flags with expiry := value }

end CacheFlags

abbrev AffectedCaches := CacheFlags

def AffectedCaches.forEvent (kind : EventKind) (flags : EventFlags) :
    AffectedCaches :=
  match kind with
  | .failure => ⟨true, false⟩
  | .success => ⟨true, false⟩
  | .graceConsumed => ⟨flags.clearsLoginAttempts, true⟩

/-- The caches that a retry sequence has moved from `ready` to
`workerFailed`. -/
abbrev DegradedByRetry := CacheFlags

def commonState : ExpiryCacheState → CacheState
  | .notReady => .notReady
  | .ready => .ready
  | .overflow => .overflow
  | .workerFailed => .workerFailed

def expiryState : CacheState → ExpiryCacheState
  | .notReady => .notReady
  | .ready => .ready
  | .overflow => .overflow
  | .workerFailed => .workerFailed

@[simp] theorem commonState_expiryState (state : CacheState) :
    commonState (expiryState state) = state := by
  cases state <;> rfl

/-! ## The worker and the backends -/

/-- Where the worker stands. A `Write` phase has read the state of the cache
and is about to store the new one. -/
inductive RetryPhase
  | hydrating
  | consuming
  | mark (cache : SharedCache) (affects : AffectedCaches)
  | markWrite (cache : SharedCache) (affects : AffectedCaches)
  | restore (cache : SharedCache) (stillIncomplete : Bool)
  | restoreWrite (cache : SharedCache) (stillIncomplete : Bool)
  | exit (cache : SharedCache)
  | exitWrite (cache : SharedCache)
  | stopped
  deriving DecidableEq, Repr

namespace RetryPhase

def afterMark (affects : AffectedCaches) : SharedCache → RetryPhase
  | .lock => mark .expiry affects
  | .expiry => consuming

def afterRestore (stillIncomplete : Bool) : SharedCache → RetryPhase
  | .lock => restore .expiry stillIncomplete
  | .expiry => if stillIncomplete then hydrating else consuming

def afterExit : SharedCache → RetryPhase
  | .lock => exit .expiry
  | .expiry => stopped

/-- `mark` or `restore` has read the state of this cache and not yet written
it. -/
def between (cache : SharedCache) : RetryPhase → Bool
  | markWrite other _ => other == cache
  | restoreWrite other _ => other == cache
  | _ => false

def leaving : RetryPhase → Bool
  | exit _ => true
  | exitWrite _ => true
  | stopped => true
  | _ => false

end RetryPhase

structure RetryWorld where
  lockCache : LockCache
  expiryCache : ExpiryCache
  degraded : DegradedByRetry
  worker : RetryPhase
  /-- A committed entry was refused and no complete entry set has been
  installed since. -/
  refused : CacheFlags

inductive RetryAction
  | set (username : EncodedUsername) (expiresAt now : TimestampTz)
  | clear (username : EncodedUsername)
  | setEntry (username : EncodedUsername)
      (mustChangeBy generation : TimestampTz) (graceRemaining : Int)
  | clearEntry (username : EncodedUsername)
  | hydrateLock (table : Option LoginAttempts) (now appliedAt : TimestampTz)
  | hydrateExpiry (table : Option PasswordExpiry)
  | consume
  | rehydrate
  | eventFailed (kind : EventKind) (flags : EventFlags)
  | eventCommitted
  | leave
  | advance

namespace RetryWorld

/-- The worker starts with a hydration of the freshly allocated caches. -/
def start : RetryWorld where
  lockCache := .init
  expiryCache := .init
  degraded := .none
  worker := .hydrating
  refused := .none

def readState (world : RetryWorld) : SharedCache → CacheState
  | .lock => world.lockCache.readState
  | .expiry => commonState world.expiryCache.readState

def setState (world : RetryWorld) (cache : SharedCache)
    (newState : CacheState) : RetryWorld :=
  match cache with
  | .lock => { world with lockCache := world.lockCache.setState newState }
  | .expiry =>
      { world with
        expiryCache := world.expiryCache.setState (expiryState newState) }

/-- A backend's commit; only a full cache refuses a lockout. -/
def set (world : RetryWorld) (username : EncodedUsername)
    (expiresAt now : TimestampTz) : RetryWorld :=
  let (lockCache, status) := world.lockCache.set username expiresAt now
  { world with
    lockCache
    refused :=
      { world.refused with
        lock := world.refused.lock || status == .overflowed } }

def setEntry (world : RetryWorld) (username : EncodedUsername)
    (mustChangeBy generation : TimestampTz) (graceRemaining : Int) :
    RetryWorld :=
  let (expiryCache, status) := world.expiryCache.setEntry username
    mustChangeBy generation graceRemaining
  { world with
    expiryCache
    refused :=
      { world.refused with
        expiry := world.refused.expiry ||
          !username.isFree && status == .overflowed } }

/-- `hydrate_lock_cache_once` -/
def hydrateLock (world : RetryWorld) (table : Option LoginAttempts)
    (now appliedAt : TimestampTz) : RetryWorld :=
  match hydrateFromDb world.lockCache table now appliedAt with
  | .ok (lockCache, stats) =>
      { world with
        lockCache
        refused :=
          { world.refused with
            lock := world.refused.lock && stats.overflow != 0 } }
  | .error _ => world.setState .lock .notReady

/-- `hydrate_expiry_cache_once` -/
def hydrateExpiry (world : RetryWorld) (table : Option PasswordExpiry) :
    RetryWorld :=
  match hydrateExpiryFromDb world.expiryCache table with
  | .ok (expiryCache, stats) =>
      { world with
        expiryCache
        refused :=
          { world.refused with
            expiry := world.refused.expiry && stats.overflow != 0 } }
  | .error _ => world.setState .expiry .notReady

def withPhase (world : RetryWorld) (phase : RetryPhase) : RetryWorld :=
  { world with worker := phase }

/-- One lock section of `mark`, `restore` or the exit sequence. -/
def advance (world : RetryWorld) : Option RetryWorld :=
  match world.worker with
  | .mark cache affects =>
      if affects.get cache && !world.degraded.get cache &&
          world.readState cache == .ready then
        some (world.withPhase (.markWrite cache affects))
      else some (world.withPhase (.afterMark affects cache))
  | .markWrite cache affects =>
      some { world.setState cache .workerFailed with
        degraded := world.degraded.update cache true
        worker := .afterMark affects cache }
  | .restore cache stillIncomplete =>
      if world.degraded.get cache then
        match world.readState cache with
        | .workerFailed =>
            some (world.withPhase (.restoreWrite cache stillIncomplete))
        | .ready =>
            some { world with
              degraded := world.degraded.update cache false
              worker := .afterRestore stillIncomplete cache }
        | _ =>
            some { world with
              degraded := world.degraded.update cache false
              worker := .afterRestore true cache }
      else some (world.withPhase (.afterRestore stillIncomplete cache))
  | .restoreWrite cache stillIncomplete =>
      some { world.setState cache .ready with
        degraded := world.degraded.update cache false
        worker := .afterRestore stillIncomplete cache }
  | .exit cache =>
      if world.readState cache == .ready then
        some (world.withPhase (.exitWrite cache))
      else some (world.withPhase (.afterExit cache))
  | .exitWrite cache =>
      some ((world.setState cache .workerFailed).withPhase (.afterExit cache))
  | .hydrating => none
  | .consuming => none
  | .stopped => none

end RetryWorld

open RetryWorld in
def retryMachine : Machine RetryWorld RetryAction where
  step world
    | .set username expiresAt now => some (world.set username expiresAt now)
    | .clear username =>
        some { world with lockCache := (world.lockCache.clear username).1 }
    | .setEntry username mustChangeBy generation graceRemaining =>
        some (world.setEntry username mustChangeBy generation graceRemaining)
    | .clearEntry username =>
        some { world with
          expiryCache := (world.expiryCache.clearEntry username).1 }
    | .hydrateLock table now appliedAt =>
        match world.worker with
        | .hydrating => some (world.hydrateLock table now appliedAt)
        | _ => none
    | .hydrateExpiry table =>
        match world.worker with
        | .hydrating => some (world.hydrateExpiry table)
        | _ => none
    | .consume =>
        match world.worker with
        | .hydrating =>
            some { world with degraded := .none, worker := .consuming }
        | _ => none
    | .rehydrate =>
        match world.worker with
        | .consuming => some (world.withPhase .hydrating)
        | _ => none
    | .eventFailed kind flags =>
        match world.worker with
        | .consuming =>
            some (world.withPhase (.mark .lock (.forEvent kind flags)))
        | _ => none
    | .eventCommitted =>
        -- nothing is degraded unless an attempt has failed before
        match world.worker with
        | .consuming => some (world.withPhase (.restore .lock false))
        | _ => none
    | .leave =>
        match world.worker with
        | .hydrating => some (world.withPhase (.exit .lock))
        | .consuming => some (world.withPhase (.exit .lock))
        | _ => none
    | .advance => world.advance

/-! ## Refusals are kept -/

/-- No entry is refused while the worker stands between its read and its write
of the same cache. -/
def Undisturbed (world : RetryWorld) : RetryAction → Prop
  | .set username expiresAt now =>
      world.lockCache.Refuses username expiresAt now →
        world.worker.between .lock = false
  | .setEntry username _ _ _ =>
      world.expiryCache.Refuses username →
        world.worker.between .expiry = false
  | _ => True

namespace RetryPhase

@[simp] theorem between_afterMark (affects : AffectedCaches)
    (cache other : SharedCache) :
    (afterMark affects cache).between other = false := by
  cases cache <;> rfl

@[simp] theorem between_afterRestore (stillIncomplete : Bool)
    (cache other : SharedCache) :
    (afterRestore stillIncomplete cache).between other = false := by
  cases cache <;> cases stillIncomplete <;> rfl

@[simp] theorem between_afterExit (cache other : SharedCache) :
    (afterExit cache).between other = false := by
  cases cache <;> rfl

@[simp] theorem leaving_afterExit (cache : SharedCache) :
    (afterExit cache).leaving = true := by
  cases cache <;> rfl

end RetryPhase

namespace RetryWorld

/-- A refusal is on record: the state is not `ready`, no write of the worker is
under way, and `workerFailed` is final. -/
structure Recorded (world : RetryWorld) (cache : SharedCache) : Prop where
  unready : world.readState cache ≠ .ready
  idle : world.worker.between cache = false
  final : world.readState cache = .workerFailed → world.worker.leaving = true

def KeepsRefusals (world : RetryWorld) : Prop :=
  ∀ cache, world.refused.get cache = true → Recorded world cache

variable {world after : RetryWorld}

theorem readState_setState_self (world : RetryWorld) (cache : SharedCache)
    (newState : CacheState) :
    (world.setState cache newState).readState cache = newState := by
  cases cache with
  | lock => exact CacheState.fromRaw_raw newState
  | expiry =>
      change commonState (.fromRaw (expiryState newState).raw) = newState
      rw [ExpiryCacheState.fromRaw_raw, commonState_expiryState]

theorem readState_setState_other (world : RetryWorld)
    {cache other : SharedCache} (different : other ≠ cache)
    (newState : CacheState) :
    (world.setState cache newState).readState other =
      world.readState other := by
  cases cache <;> cases other <;> first | rfl | exact absurd rfl different

@[simp] theorem refused_setState (world : RetryWorld) (cache : SharedCache)
    (newState : CacheState) :
    (world.setState cache newState).refused = world.refused := by
  cases cache <;> rfl

@[simp] theorem worker_setState (world : RetryWorld) (cache : SharedCache)
    (newState : CacheState) :
    (world.setState cache newState).worker = world.worker := by
  cases cache <;> rfl

theorem Recorded.unwritten {cache : SharedCache}
    (recorded : Recorded world cache)
    (state : after.readState cache = world.readState cache)
    (idle : after.worker.between cache = false)
    (leaves : world.worker.leaving = true → after.worker.leaving = true) :
    Recorded after cache where
  unready := state ▸ recorded.unready
  idle := idle
  final failed := leaves (recorded.final (state ▸ failed))

theorem KeepsRefusals.of_eq (keeps : KeepsRefusals world)
    (state : ∀ cache, after.readState cache = world.readState cache)
    (refused : after.refused = world.refused)
    (worker : after.worker = world.worker) : KeepsRefusals after := by
  intro cache flagged
  have recorded := keeps cache (refused ▸ flagged)
  exact recorded.unwritten (state cache) (worker ▸ recorded.idle)
    (fun left => worker ▸ left)

theorem KeepsRefusals.move (keeps : KeepsRefusals world)
    (state : ∀ cache, after.readState cache = world.readState cache)
    (refused : after.refused = world.refused)
    (idle : ∀ cache, after.worker.between cache = false)
    (leaves : world.worker.leaving = true → after.worker.leaving = true) :
    KeepsRefusals after := by
  intro cache flagged
  exact (keeps cache (refused ▸ flagged)).unwritten (state cache) (idle cache)
    leaves

theorem KeepsRefusals.beginWrite (keeps : KeepsRefusals world)
    (cache : SharedCache) {phase : RetryPhase}
    (clean : ¬Recorded world cache)
    (idle : ∀ other, other ≠ cache → phase.between other = false)
    (stays : world.worker.leaving = true → phase.leaving = true) :
    KeepsRefusals (world.withPhase phase) := by
  intro other flagged
  have recorded := keeps other flagged
  have different : other ≠ cache := by
    intro same
    rw [same] at recorded
    exact clean recorded
  exact recorded.unwritten rfl (idle other different) stays

theorem KeepsRefusals.endWrite (keeps : KeepsRefusals world)
    {cache : SharedCache} (writing : world.worker.between cache = true)
    {newState : CacheState}
    (state : ∀ other,
      after.readState other = (world.setState cache newState).readState other)
    (refused : after.refused = world.refused)
    (idle : ∀ other, after.worker.between other = false)
    (active : world.worker.leaving = false) : KeepsRefusals after := by
  intro other flagged
  have recorded := keeps other (refused ▸ flagged)
  have different : other ≠ cache := by
    intro same
    rw [same] at recorded
    rw [recorded.idle] at writing
    cases writing
  apply recorded.unwritten
  · rw [state, readState_setState_other _ different]
  · exact idle other
  · rw [active]
    exact nofun

theorem KeepsRefusals.exitWrite (keeps : KeepsRefusals world)
    {cache : SharedCache} :
    KeepsRefusals ((world.setState cache .workerFailed).withPhase
      (.afterExit cache)) := by
  intro other flagged
  have recorded := keeps other (by simpa [withPhase] using flagged)
  by_cases same : other = cache
  · subst same
    have failed : ((world.setState other .workerFailed).withPhase
        (.afterExit other)).readState other = .workerFailed :=
      readState_setState_self world other .workerFailed
    exact ⟨by simp [failed], by simp [withPhase],
      fun _ => by simp [withPhase]⟩
  · apply recorded.unwritten
    · exact readState_setState_other world same .workerFailed
    · simp [withPhase]
    · simp [withPhase]

theorem KeepsRefusals.advance (keeps : KeepsRefusals world)
    (advanced : world.advance = some after) : KeepsRefusals after := by
  rw [RetryWorld.advance] at advanced
  cases phase : world.worker with
  | hydrating => simp [phase] at advanced
  | consuming => simp [phase] at advanced
  | stopped => simp [phase] at advanced
  | mark cache affects =>
      simp only [phase] at advanced
      split at advanced <;> cases advanced
      · rename_i read
        simp only [Bool.and_eq_true, beq_iff_eq] at read
        refine keeps.beginWrite cache
          (fun recorded => recorded.unready read.2)
          (fun other different => ?_) (by simp [phase, RetryPhase.leaving])
        simpa [RetryPhase.between] using different.symm
      · refine keeps.move (fun _ => rfl) rfl ?_ ?_ <;>
          simp [withPhase, phase, RetryPhase.leaving]
  | markWrite cache affects =>
      simp only [phase, Option.some.injEq] at advanced
      subst advanced
      exact keeps.endWrite (by simp [phase, RetryPhase.between])
        (fun _ => rfl) (refused_setState ..) (by simp)
        (by simp [phase, RetryPhase.leaving])
  | restore cache stillIncomplete =>
      simp only [phase] at advanced
      split at advanced
      · split at advanced <;> cases advanced
        · rename_i failed
          refine keeps.beginWrite cache (fun recorded => ?_)
            (fun other different => ?_) (by simp [phase, RetryPhase.leaving])
          · have left := recorded.final failed
            simp [phase, RetryPhase.leaving] at left
          · simpa [RetryPhase.between] using different.symm
        · refine keeps.move (fun _ => rfl) rfl ?_ ?_ <;>
            simp [phase, RetryPhase.leaving]
        · refine keeps.move (fun _ => rfl) rfl ?_ ?_ <;>
            simp [phase, RetryPhase.leaving]
      · cases advanced
        refine keeps.move (fun _ => rfl) rfl ?_ ?_ <;>
          simp [withPhase, phase, RetryPhase.leaving]
  | restoreWrite cache stillIncomplete =>
      simp only [phase, Option.some.injEq] at advanced
      subst advanced
      exact keeps.endWrite (by simp [phase, RetryPhase.between])
        (fun _ => rfl) (refused_setState ..) (by simp)
        (by simp [phase, RetryPhase.leaving])
  | exit cache =>
      simp only [phase] at advanced
      split at advanced <;> cases advanced
      · refine keeps.move (fun _ => rfl) rfl ?_ ?_ <;>
          simp [withPhase, RetryPhase.between, RetryPhase.leaving]
      · refine keeps.move (fun _ => rfl) rfl ?_ ?_ <;> simp [withPhase]
  | exitWrite cache =>
      simp only [phase, Option.some.injEq] at advanced
      subst advanced
      exact keeps.exitWrite

theorem Recorded.of_overflow {cache : SharedCache}
    (state : world.readState cache = .overflow)
    (idle : world.worker.between cache = false) : Recorded world cache where
  unready := by simp [state]
  idle := idle
  final failed := by simp [state] at failed

theorem KeepsRefusals.set (keeps : KeepsRefusals world)
    {username : EncodedUsername} {expiresAt now : TimestampTz}
    (undisturbed : Undisturbed world (.set username expiresAt now)) :
    KeepsRefusals (world.set username expiresAt now) := by
  by_cases refuses : world.lockCache.Refuses username expiresAt now
  · have stored := LockCache.set_of_refuses refuses
    intro cache flagged
    cases cache with
    | lock =>
        apply Recorded.of_overflow
        · simp only [RetryWorld.set, stored, readState, LockCache.readState]
          exact CacheState.fromRaw_raw .overflow
        · exact undisturbed refuses
    | expiry =>
        have recorded := keeps .expiry flagged
        exact recorded.unwritten rfl recorded.idle id
  · rcases LockCache.set_of_not_refuses refuses with ⟨applied, state⟩
    apply keeps.of_eq
    · intro cache
      cases cache with
      | lock => exact congrArg CacheState.fromRaw state
      | expiry => rfl
    · simp only [RetryWorld.set, applied,
        show (CacheOpStatus.applied == .overflowed) = false from rfl,
        Bool.or_false]
    · rfl

theorem KeepsRefusals.setEntry (keeps : KeepsRefusals world)
    {username : EncodedUsername} {mustChangeBy generation : TimestampTz}
    {graceRemaining : Int}
    (undisturbed : Undisturbed world
      (.setEntry username mustChangeBy generation graceRemaining)) :
    KeepsRefusals
      (world.setEntry username mustChangeBy generation graceRemaining) := by
  by_cases refuses : world.expiryCache.Refuses username
  · have stored := ExpiryCache.setEntry_of_refuses refuses mustChangeBy
      generation graceRemaining
    intro cache flagged
    cases cache with
    | expiry =>
        apply Recorded.of_overflow
        · simp only [RetryWorld.setEntry, stored, readState,
            ExpiryCache.readState, ExpiryCacheState.fromRaw_raw]
          rfl
        · exact undisturbed refuses
    | lock =>
        have recorded := keeps .lock flagged
        exact recorded.unwritten rfl recorded.idle id
  · rcases ExpiryCache.setEntry_of_not_refuses refuses mustChangeBy generation
      graceRemaining with ⟨free, state⟩
    apply keeps.of_eq
    · intro cache
      cases cache with
      | lock => rfl
      | expiry =>
          exact congrArg (fun raw => commonState (.fromRaw raw)) state
    · have kept : (!username.isFree && (world.expiryCache.setEntry username
          mustChangeBy generation graceRemaining).2 == .overflowed) =
          false := by
        cases used : username.isFree with
        | true => rfl
        | false =>
            simp only [Bool.not_false, Bool.true_and, beq_eq_false_iff_ne]
            intro turnedDown
            rw [free turnedDown] at used
            cases used
      simp [RetryWorld.setEntry, kept]
    · rfl

theorem KeepsRefusals.notReady (keeps : KeepsRefusals world)
    (cache : SharedCache) : KeepsRefusals (world.setState cache .notReady) := by
  intro other flagged
  rw [refused_setState] at flagged
  have recorded := keeps other flagged
  by_cases same : other = cache
  · subst same
    have state := readState_setState_self world other .notReady
    exact ⟨by simp [state], by simpa using recorded.idle,
      fun failed => by simp [state] at failed⟩
  · exact recorded.unwritten (readState_setState_other world same .notReady)
      (by simpa using recorded.idle) (by simp)

theorem KeepsRefusals.hydrateLock (keeps : KeepsRefusals world)
    (table : Option LoginAttempts) (now appliedAt : TimestampTz) :
    KeepsRefusals (world.hydrateLock table now appliedAt) := by
  cases table with
  | none => exact keeps.notReady .lock
  | some table =>
      intro cache flagged
      cases cache with
      | expiry =>
          have recorded := keeps .expiry flagged
          exact recorded.unwritten rfl recorded.idle id
      | lock =>
          rcases (Bool.and_eq_true ..).mp flagged with ⟨before, incomplete⟩
          apply Recorded.of_overflow
          · have state := Snapshot.readState_install (.read table now)
              world.lockCache appliedAt
            rw [Snapshot.newState, if_neg (by simpa using incomplete)] at state
            exact state
          · exact (keeps .lock before).idle

theorem KeepsRefusals.hydrateExpiry (keeps : KeepsRefusals world)
    (table : Option PasswordExpiry) :
    KeepsRefusals (world.hydrateExpiry table) := by
  cases table with
  | none => exact keeps.notReady .expiry
  | some table =>
      intro cache flagged
      cases cache with
      | lock =>
          have recorded := keeps .lock flagged
          exact recorded.unwritten rfl recorded.idle id
      | expiry =>
          rcases (Bool.and_eq_true ..).mp flagged with ⟨before, incomplete⟩
          apply Recorded.of_overflow
          · have state : ((ExpirySnapshot.read table).install
                world.expiryCache).1.readState =
                (ExpirySnapshot.read table).newState :=
              ExpiryCacheState.fromRaw_raw _
            rw [ExpirySnapshot.newState,
              if_neg (by simpa using incomplete)] at state
            exact congrArg commonState state
          · exact (keeps .expiry before).idle

theorem KeepsRefusals.step {action : RetryAction}
    (keeps : KeepsRefusals world) (undisturbed : Undisturbed world action)
    (stepped : retryMachine.step world action = some after) :
    KeepsRefusals after := by
  cases action with
  | set username expiresAt now =>
      cases stepped
      exact keeps.set undisturbed
  | setEntry username mustChangeBy generation graceRemaining =>
      cases stepped
      exact keeps.setEntry undisturbed
  | clear username =>
      cases stepped
      exact keeps.of_eq (fun cache => by cases cache <;> rfl) rfl rfl
  | clearEntry username =>
      cases stepped
      exact keeps.of_eq (fun cache => by cases cache <;> rfl) rfl rfl
  | hydrateLock table now appliedAt =>
      simp only [retryMachine] at stepped
      split at stepped <;> cases stepped
      exact keeps.hydrateLock table now appliedAt
  | hydrateExpiry table =>
      simp only [retryMachine] at stepped
      split at stepped <;> cases stepped
      exact keeps.hydrateExpiry table
  | advance => exact keeps.advance stepped
  | consume =>
      simp only [retryMachine] at stepped
      split at stepped <;> cases stepped
      rename_i phase
      exact keeps.move (fun _ => rfl) rfl (fun _ => rfl)
        (by simp [phase, RetryPhase.leaving])
  | rehydrate =>
      simp only [retryMachine] at stepped
      split at stepped <;> cases stepped
      rename_i phase
      exact keeps.move (fun _ => rfl) rfl (fun _ => rfl)
        (by simp [phase, RetryPhase.leaving])
  | eventFailed kind flags =>
      simp only [retryMachine] at stepped
      split at stepped <;> cases stepped
      rename_i phase
      exact keeps.move (fun _ => rfl) rfl (fun _ => rfl)
        (by simp [phase, RetryPhase.leaving])
  | eventCommitted =>
      simp only [retryMachine] at stepped
      split at stepped <;> cases stepped
      rename_i phase
      exact keeps.move (fun _ => rfl) rfl (fun _ => rfl)
        (by simp [phase, RetryPhase.leaving])
  | leave =>
      simp only [retryMachine] at stepped
      split at stepped <;> cases stepped <;>
        exact keeps.move (fun _ => rfl) rfl (fun _ => rfl) (fun _ => rfl)

theorem keepsRefusals_start : KeepsRefusals start := by
  intro cache flagged
  cases cache <;> cases flagged

end RetryWorld

/-! ## A full cache -/

section Hydrated

variable (table : LoginAttempts) (passwords : PasswordExpiry)
  (now appliedAt : TimestampTz)

def hydratedWorld : RetryWorld where
  lockCache := ((Snapshot.read table now).install .init appliedAt).1
  expiryCache := ((ExpirySnapshot.read passwords).install .init).1
  degraded := .none
  worker := .consuming
  refused := .none

def hydrationActions : List RetryAction :=
  [.hydrateLock (some table) now appliedAt, .hydrateExpiry (some passwords),
    .consume]

theorem lockCache_hydratedWorld :
    (hydratedWorld table passwords now appliedAt).lockCache =
      ((Snapshot.read table now).install .init appliedAt).1 := rfl

theorem readState_hydratedWorld :
    (hydratedWorld table passwords now appliedAt).readState .lock =
      (Snapshot.read table now).newState :=
  Snapshot.readState_install (.read table now) .init appliedAt

theorem run_hydrated (actions : List RetryAction) :
    retryMachine.run .start
        (hydrationActions table passwords now appliedAt ++ actions) =
      retryMachine.run (hydratedWorld table passwords now appliedAt)
        actions := rfl

theorem everyStep_hydrated {actions : List RetryAction}
    (later : retryMachine.EveryStep Undisturbed
      (hydratedWorld table passwords now appliedAt) actions) :
    retryMachine.EveryStep Undisturbed .start
      (hydrationActions table passwords now appliedAt ++ actions) := by
  refine ⟨trivial, fun locked stepped => ?_⟩
  cases stepped
  refine ⟨trivial, fun dated stepped => ?_⟩
  cases stepped
  refine ⟨trivial, fun consuming stepped => ?_⟩
  cases stepped
  exact later

end Hydrated

theorem run_mark_keeps {world : RetryWorld} {username : EncodedUsername}
    {expiresAt now : TimestampTz} (consuming : world.worker = .consuming)
    (refuses : world.lockCache.Refuses username expiresAt now)
    (flags : EventFlags) :
    ∃ after, retryMachine.run world
        [.set username expiresAt now, .eventFailed .failure flags, .advance,
          .advance] = some after ∧ after.refused.get .lock = true := by
  have stored := LockCache.set_of_refuses refuses
  simp [Machine.run, retryMachine, RetryWorld.advance, RetryWorld.withPhase,
    RetryWorld.readState, RetryWorld.set, consuming, stored, CacheFlags.get,
    AffectedCaches.forEvent, RetryPhase.afterMark, LockCache.readState]

theorem everyStep_mark_keeps (world : RetryWorld)
    (consuming : world.worker = .consuming) (username : EncodedUsername)
    (expiresAt now : TimestampTz) (flags : EventFlags) :
    retryMachine.EveryStep Undisturbed world
      [.set username expiresAt now, .eventFailed .failure flags, .advance,
        .advance] := by
  refine ⟨fun _ => ?_, fun _ _ => ⟨trivial, fun _ _ => ⟨trivial, fun _ _ =>
    ⟨trivial, fun _ _ => trivial⟩⟩⟩⟩
  rw [consuming]
  rfl

theorem run_restore_forgets {world : RetryWorld} {username : EncodedUsername}
    {expiresAt now : TimestampTz} (consuming : world.worker = .consuming)
    (undegraded : world.degraded = .none)
    (ready : world.readState .lock = .ready)
    (refuses : world.lockCache.Refuses username expiresAt now)
    (flags : EventFlags) :
    ∃ after, retryMachine.run world
        [.eventFailed .failure flags, .advance, .set username expiresAt now,
          .advance, .advance, .eventCommitted, .advance, .advance, .advance] =
        some after ∧
      after.refused.get .lock = true ∧ after.readState .lock = .ready := by
  rcases world with ⟨lockCache, expiryCache, degraded, worker, refused⟩
  dsimp only at consuming undegraded refuses
  subst consuming
  subst undegraded
  rw [RetryWorld.readState, LockCache.readState] at ready
  have stored := LockCache.set_of_refuses refuses
  simp [Machine.run, retryMachine, RetryWorld.advance, RetryWorld.withPhase,
    RetryWorld.readState, RetryWorld.set, RetryWorld.setState, ready, stored,
    CacheFlags.get, CacheFlags.update, CacheFlags.none,
    AffectedCaches.forEvent, RetryPhase.afterMark, RetryPhase.afterRestore,
    LockCache.readState, LockCache.setState]

def crowdName (index : Nat) : String :=
  String.ofList ([UInt8.ofNat (48 + index / 64),
    UInt8.ofNat (48 + index % 64)].map Char.ofUInt8)

section Crowd

variable {index : Nat} (bound : index < lockCacheSize)
include bound

theorem utf8Bytes_crowdName :
    utf8Bytes (crowdName index) = [UInt8.ofNat (48 + index / 64),
      UInt8.ofNat (48 + index % 64)] := by
  rw [lockCacheSize] at bound
  apply Text.utf8Bytes_ascii
  intro byte member
  simp only [List.mem_cons, List.not_mem_nil, or_false] at member
  rcases member with rfl | rfl
  · rw [UInt8.toNat_ofNat']
    omega
  · rw [UInt8.toNat_ofNat']
    omega

theorem crowdName_isRoleName : IsRoleName (crowdName index) := by
  have bytes := utf8Bytes_crowdName bound
  have printable : ∀ byte ∈ utf8Bytes (crowdName index), 48 ≤ byte.toNat := by
    rw [lockCacheSize] at bound
    intro byte member
    rw [bytes] at member
    simp only [List.mem_cons, List.not_mem_nil, or_false] at member
    rcases member with rfl | rfl
    · rw [UInt8.toNat_ofNat']
      omega
    · rw [UInt8.toNat_ofNat']
      omega
  refine ⟨by simp [bytes], fun byte member zero => ?_, ?_⟩
  · have large := printable byte member
    rw [zero] at large
    cases large
  · rw [bytes]
    exact (by decide : 2 < lockUsernameBytes)

theorem crowdName_injective {other : Nat} (otherBound : other < lockCacheSize)
    (same : crowdName index = crowdName other) : index = other := by
  have bytes := congrArg utf8Bytes same
  rw [utf8Bytes_crowdName bound, utf8Bytes_crowdName otherBound] at bytes
  simp only [List.cons.injEq, and_true] at bytes
  have high := congrArg UInt8.toNat bytes.1
  have low := congrArg UInt8.toNat bytes.2
  simp only [UInt8.toNat_ofNat'] at high low
  rw [lockCacheSize] at bound otherBound
  omega

theorem crowdName_ne_alice : crowdName index ≠ "alice" := by
  intro same
  have bytes := utf8Bytes_crowdName bound
  rw [same] at bytes
  have length := congrArg List.length bytes
  have five : (utf8Bytes "alice").length = 5 := by decide
  rw [five] at length
  cases length

end Crowd

/-- As many locked-out roles as the cache has slots. -/
def crowd : LoginAttempts where
  entries := (List.range lockCacheSize).map fun index =>
    ⟨crowdName index, ⟨3, 0, some 3600000000⟩⟩
  nodupKeys := by
    rw [List.NodupKeys, List.keys, List.map_map]
    apply List.nodup_range.map_on
    intro index member other otherMember same
    exact crowdName_injective (List.mem_range.mp member)
      (List.mem_range.mp otherMember) same

theorem crowd_activeRows :
    crowd.activeRows 0 = (List.range lockCacheSize).map
      fun index => (crowdName index, 3600000000) := by
  rw [LoginAttempts.activeRows, crowd, List.filterMap_map,
    ← List.filterMap_eq_map]
  apply List.filterMap_congr
  intro index _
  rfl

theorem crowd_row {row : String × TimestampTz}
    (member : row ∈ crowd.activeRows 0) :
    IsRoleName row.1 ∧ row.1 ≠ "alice" ∧ row.2 = 3600000000 := by
  rw [crowd_activeRows, List.mem_map] at member
  rcases member with ⟨index, inside, rfl⟩
  have bound := List.mem_range.mp inside
  exact ⟨crowdName_isRoleName bound, crowdName_ne_alice bound, rfl⟩

theorem crowd_complete : (Snapshot.read crowd 0).overflow = 0 := by
  apply (Snapshot.overflow_read_eq_zero_iff crowd 0).mpr
  refine ⟨?_, fun row member => (crowd_row member).1.ne_empty⟩
  rw [crowd_activeRows, List.length_map, List.length_range]

def crowdedWorld : RetryWorld := hydratedWorld crowd ∅ 0 0

theorem crowdedWorld_ready : crowdedWorld.readState .lock = .ready := by
  rw [crowdedWorld, readState_hydratedWorld]
  exact (Snapshot.newState_eq_ready_iff _).mpr crowd_complete

theorem crowdedWorld_refuses :
    crowdedWorld.lockCache.Refuses (encodeUsername "alice") 3600000000 0 := by
  have alice : IsRoleName "alice" := by decide +kernel
  refine ⟨by decide, encodeUsername_not_free alice, fun slot => ?_⟩
  have full : (crowd.activeRows 0).length = lockCacheSize := by
    rw [crowd_activeRows, List.length_map, List.length_range]
  have lasting : ∀ row ∈ crowd.activeRows 0, (0 : TimestampTz) < row.2 := by
    intro row member
    rw [(crowd_row member).2.2]
    decide
  rcases Snapshot.entries_install_of_full
    (fun row member => (crowd_row member).1) full .init lasting slot with
    ⟨row, member, entry⟩
  rcases crowd_row member with ⟨role, different, expiry⟩
  have stored : crowdedWorld.lockCache.entries slot =
      ⟨encodeUsername row.1, 3600000000⟩ := by
    rw [crowdedWorld, lockCache_hydratedWorld, entry, expiry]
  rw [stored, LockEntry.owner_mk (encodeUsername_not_free role)]
  refine ⟨fun same => ?_, ?_⟩
  · exact different (encodeUsername_injective role alice
      (Option.some.inj same))
  · simp [LockCache.reusable, encodeUsername_not_free role]

/-! ## Every interleaving -/

/-- Whatever the order of the steps, a cache that refused a committed entry is
not ready until a hydration has installed a complete entry set, when no entry
is refused between a read and a write of the worker. -/
theorem refused_not_ready {actions : List RetryAction} {world : RetryWorld}
    (undisturbed : retryMachine.EveryStep Undisturbed .start actions)
    (completed : retryMachine.run .start actions = some world)
    {cache : SharedCache} (refused : world.refused.get cache = true) :
    world.readState cache ≠ .ready := by
  have keeps := Machine.run_invariant_of_everyStep
    (fun keeps undisturbed stepped =>
      RetryWorld.KeepsRefusals.step keeps undisturbed stepped)
    RetryWorld.keepsRefusals_start undisturbed completed
  exact (keeps cache refused).unready

/-- A refusal before `mark` is left on record. -/
theorem refused_not_ready_crowd :
    ∃ world, retryMachine.run .start (hydrationActions crowd ∅ 0 0 ++
        [.set (encodeUsername "alice") 3600000000 0,
          .eventFailed .failure .none, .advance, .advance]) = some world ∧
      world.refused.get .lock = true ∧ world.readState .lock ≠ .ready := by
  rcases run_mark_keeps rfl crowdedWorld_refuses .none with
    ⟨world, later, refused⟩
  have completed := (run_hydrated crowd ∅ 0 0 _).trans later
  have undisturbed := everyStep_hydrated crowd ∅ 0 0
    (everyStep_mark_keeps crowdedWorld rfl (encodeUsername "alice") 3600000000
      0 .none)
  exact ⟨world, completed, refused,
    refused_not_ready undisturbed completed refused⟩

/-- The last lockout does not fit, is refused while the worker marks the cache
for another event, and the worker announces the cache ready. -/
theorem ready_after_refusal_crowd :
    ∃ world, retryMachine.run .start (hydrationActions crowd ∅ 0 0 ++
        [.eventFailed .failure .none, .advance,
          .set (encodeUsername "alice") 3600000000 0, .advance, .advance,
          .eventCommitted, .advance, .advance, .advance]) = some world ∧
      world.refused.get .lock = true ∧ world.readState .lock = .ready := by
  rcases run_restore_forgets rfl rfl crowdedWorld_ready crowdedWorld_refuses
    .none with ⟨world, later, both⟩
  exact ⟨world, (run_hydrated crowd ∅ 0 0 _).trans later, both⟩

end PasswordProfile.Worker
