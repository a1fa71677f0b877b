import PasswordProfile.AuthEvent.Enqueue
import PasswordProfile.AuthJournal.File
import PasswordProfile.Bypass.Cache
import PasswordProfile.Expiry.Cache
import PasswordProfile.Foundation.SectionTable

/-! # The lock sections of the shared memory

Every function that takes an `LwLockGuard`, access by access. A slot of a cache
is one cell, as are each counter, the ring and the active journal file, which
appends and rotations reach under the ring's lock. The processing file belongs
to the worker and is handed in and out. Shared memory is set up before any
backend runs.
-/

namespace PasswordProfile.SharedMemory

open AuthEvent AuthJournal Bypass Expiry LockedSections Lockout Login

inductive Lock
  | lockCache
  | authEvent
  | expiryCache
  | bypassCache
  deriving DecidableEq, Repr

inductive Cell
  | lockEntry (slot : Fin lockCacheSize)
  | lockActiveTotal
  | lockLoaded
  | lockOverflow
  | lockState
  | expiryEntry (slot : Fin expiryCacheSize)
  | expiryState
  | expiryRows
  | expiryOverflow
  | bypassEntry (slot : Fin bypassCacheSize)
  | bypassState
  | bypassRows
  | bypassOverflow
  | ring
  | active
  deriving DecidableEq

namespace Cell

abbrev Value : Cell → Type
  | lockEntry _ => LockEntry
  | expiryEntry _ => ExpiryEntry
  | bypassEntry _ => EncodedUsername
  | ring => AuthEventRing
  | active => Option (List UInt8)
  | _ => Int

def guard : Cell → Lock
  | lockEntry _ | lockActiveTotal | lockLoaded | lockOverflow | lockState =>
      .lockCache
  | expiryEntry _ | expiryState | expiryRows | expiryOverflow => .expiryCache
  | bypassEntry _ | bypassState | bypassRows | bypassOverflow => .bypassCache
  | ring | active => .authEvent

end Cell

def Lock.rank : Lock → Nat
  | authEvent => 1
  | _ => 0

abbrev layout : Layout where
  Lock := Lock
  Cell := Cell
  Value := Cell.Value
  guard := Cell.guard
  rank := Lock.rank

instance : DecidableEq layout.Lock := inferInstanceAs (DecidableEq Lock)

instance : DecidableEq layout.Cell := inferInstanceAs (DecidableEq Cell)

def load (cell : Cell) : Section layout cell.Value := @read layout cell

def store (cell : Cell) (value : cell.Value) : Section layout Unit :=
  @write layout cell value

@[simp] theorem alone_store (cell : Cell) (value : cell.Value)
    (memory : Memory layout) :
    alone (store cell value) memory =
      (Function.update memory cell value, ()) := rfl

theorem within_load {holding : Holding layout} {cell : Cell}
    (held : holding.held cell.guard ≠ none) : Within holding (load cell) :=
  @within_read layout _ holding cell held

theorem within_store {holding : Holding layout} {cell : Cell}
    (owned : holding.held cell.guard = some .exclusive)
    (value : cell.Value) : Within holding (store cell value) :=
  @within_write layout _ holding cell owned value

/-! ## The tables of the caches -/

def lockTable : Table layout lockCacheSize LockEntry where
  lock := Lock.lockCache
  read slot := load (.lockEntry slot)
  write slot entry := store (.lockEntry slot) entry
  get memory slot := memory (.lockEntry slot)
  put memory entries
    | .lockEntry slot => entries slot
    | cell => memory cell
  put_get memory := by
    funext cell
    cases cell <;> rfl
  get_put _ _ := rfl
  put_put memory earlier later := by
    funext cell
    cases cell <;> rfl
  alone_read _ _ := rfl
  alone_write slot entry memory := by
    rw [alone_store]
    congr 1
    funext cell
    cases cell with
    | lockEntry other =>
        by_cases same : other = slot
        · subst same
          simp
        · simp [same]
    | _ => rfl
  within_read slot held := within_load held
  within_write slot entry owned := within_store owned entry

def expiryTable : Table layout expiryCacheSize ExpiryEntry where
  lock := Lock.expiryCache
  read slot := load (.expiryEntry slot)
  write slot entry := store (.expiryEntry slot) entry
  get memory slot := memory (.expiryEntry slot)
  put memory entries
    | .expiryEntry slot => entries slot
    | cell => memory cell
  put_get memory := by
    funext cell
    cases cell <;> rfl
  get_put _ _ := rfl
  put_put memory earlier later := by
    funext cell
    cases cell <;> rfl
  alone_read _ _ := rfl
  alone_write slot entry memory := by
    rw [alone_store]
    congr 1
    funext cell
    cases cell with
    | expiryEntry other =>
        by_cases same : other = slot
        · subst same
          simp
        · simp [same]
    | _ => rfl
  within_read slot held := within_load held
  within_write slot entry owned := within_store owned entry

def bypassTable : Table layout bypassCacheSize EncodedUsername where
  lock := Lock.bypassCache
  read slot := load (.bypassEntry slot)
  write slot entry := store (.bypassEntry slot) entry
  get memory slot := memory (.bypassEntry slot)
  put memory entries
    | .bypassEntry slot => entries slot
    | cell => memory cell
  put_get memory := by
    funext cell
    cases cell <;> rfl
  get_put _ _ := rfl
  put_put memory earlier later := by
    funext cell
    cases cell <;> rfl
  alone_read _ _ := rfl
  alone_write slot entry memory := by
    rw [alone_store]
    congr 1
    funext cell
    cases cell with
    | bypassEntry other =>
        by_cases same : other = slot
        · subst same
          simp
        · simp [same]
    | _ => rfl
  within_read slot held := within_load held
  within_write slot entry owned := within_store owned entry

/-! ## The lock cache -/

namespace LockCacheSections

/-- `username[0] != 0 && username == key` -/
def isFor (username : EncodedUsername) (entry : LockEntry) : Bool :=
  !entry.username.isFree && entry.username == username

def state : Section layout CacheState :=
  guarded .lockCache .shared do
    let raw ← load .lockState
    return .fromRaw raw

def setState (newState : CacheState) : Section layout Unit :=
  guarded .lockCache .exclusive (store .lockState newState.raw)

def set (username : EncodedUsername) (expiresAt now : TimestampTz) :
    Section layout CacheOpStatus :=
  if expiresAt ≤ now then return .applied
  else if username.isFree then return .applied
  else
    guarded .lockCache .exclusive do
      match ← lockTable.find (isFor username) with
      | some (slot, entry) =>
          store (.lockEntry slot) { entry with expiresAt }
          return .applied
      | none =>
          match ← lockTable.find (LockCache.reusable now) with
          | some (slot, _) =>
              store (.lockEntry slot) ⟨username, expiresAt⟩
              return .applied
          | none =>
              store .lockState CacheState.overflow.raw
              return .overflowed

def clear (username : EncodedUsername) : Section layout CacheOpStatus :=
  guarded .lockCache .exclusive do
    match ← lockTable.find (isFor username) with
    | some (slot, _) =>
        store (.lockEntry slot) .new
        return .applied
    | none => return .applied

def remainingSeconds (username : String) (now : TimestampTz) :
    Section layout (Option Int) := do
  let encoded := encodeUsername username
  let found ← guarded .lockCache .shared (lockTable.find fun entry =>
    !entry.username.isFree &&
      (entry.username == encoded && decide (entry.expiresAt > now)))
  return found.bind fun (_, entry) =>
    remainingSecondsCeil entry.expiresAt now

def applyHydratedEntries (prepared : List LockEntry)
    (activeTotal overflow : Int) (newState : CacheState)
    (now : TimestampTz) : Section layout Int :=
  guarded .lockCache .exclusive do
    lockTable.blankAll .new
    let loaded ← lockTable.fill (LockCache.installs now) prepared 0
    store .lockActiveTotal activeTotal
    store .lockLoaded (loaded : Int)
    store .lockOverflow overflow
    store .lockState newState.raw
    return loaded

end LockCacheSections

/-! ## The event ring and the active journal file -/

namespace AuthEventSections

def state : Section layout QueueState :=
  guarded .authEvent .shared do
    let ring ← load .ring
    return ring.queueState

def markCorrupt : Section layout Unit :=
  guarded .authEvent .exclusive do
    let ring ← load .ring
    store .ring (ring.degradeTo .corrupt)

/-- What a producer meets outside the lock: its random identifier, its clock
reading, and the step of the append that fails. -/
structure Circumstances where
  eventId : Option EventId
  now : TimestampTz
  fault : Option AppendFault

def offerOf (username : EncodedUsername) (kind : UInt8) (flags : EventFlags)
    (generation now : TimestampTz) (eventId : EventId) :
    AuthEventRing.Offer where
  eventId
  username
  timestamp := now
  kind
  flags := flags.raw
  generation

variable (sipHasher : SipHasher13)

def appended (active : Option (List UInt8)) (offer : AuthEventRing.Offer)
    (fault : Option AppendFault) : Option (List UInt8) × Bool :=
  let (files, result) := append sipHasher ⟨active, none⟩ (offer.event 0) fault
  (files.active, result.isOk)

/-- An event without a unique identity is never admitted. -/
def enqueueEncodedSilent (username : EncodedUsername) (kind : UInt8)
    (flags : EventFlags) (generation : TimestampTz)
    (met : Circumstances) : Section layout EnqueueStep :=
  match met.eventId with
  | none => return ⟨.unavailable, false⟩
  | some eventId =>
      let offer := offerOf username kind flags generation met.now eventId
      guarded .authEvent .exclusive do
        let active ← load .active
        let (written, durable) := appended sipHasher active offer met.fault
        store .active written
        let ring ← load .ring
        let (offered, step) := ring.enqueueEncodedWithId offer durable
        store .ring offered
        return step

def claim : Section layout (Option (ClaimToken × SharedAuthEvent)) :=
  guarded .authEvent .exclusive do
    let ring ← load .ring
    let (claimed, result) := ring.claim
    store .ring claimed
    return result

def rotateJournal (processing : Option (List UInt8)) :
    Section layout (Option (List UInt8)) :=
  guarded .authEvent .exclusive do
    let active ← load .active
    let files := rotate ⟨active, processing⟩
    store .active files.active
    return files.processing

/-- Returns the processing file afterwards and whether the ring was reset. -/
def recoverCorruptRing (processing : Option (List UInt8))
    (processingFault activeFault : Option ReadFault) :
    Section layout (Option (List UInt8) × Except JournalError Bool) :=
  guarded .authEvent .exclusive do
    let ring ← load .ring
    if ring.queueState ≠ .corrupt then return (processing, .ok false)
    else do
      let active ← load .active
      let (files, result) := verifyPending sipHasher ⟨active, processing⟩
        processingFault activeFault
      store .active files.active
      match result with
      | .error failure => return (files.processing, .error failure)
      | .ok () =>
          store .ring .new
          return (files.processing, .ok true)

def ackClaim (token : ClaimToken) : Section layout AckOutcome :=
  guarded .authEvent .exclusive do
    let ring ← load .ring
    let (acked, outcome) := ring.ack token
    store .ring acked
    match outcome with
    | .acknowledged => return outcome
    | _ =>
        store .ring (acked.degradeTo .corrupt)
        return outcome

end AuthEventSections

/-! ## The expiry cache -/

namespace ExpiryCacheSections

open AuthEventSections

/-- `username[0] != 0 && username == key` -/
def isFor (username : EncodedUsername) (entry : ExpiryEntry) : Bool :=
  !entry.username.isFree && entry.username == username

def state : Section layout ExpiryCacheState :=
  guarded .expiryCache .shared do
    let raw ← load .expiryState
    return .fromRaw raw

def setState (newState : ExpiryCacheState) : Section layout Unit :=
  guarded .expiryCache .exclusive (store .expiryState newState.raw)

def lookup (username : String) (now : TimestampTz) :
    Section layout ExpiryDecision :=
  guarded .expiryCache .shared do
    let raw ← load .expiryState
    if ExpiryCacheState.fromRaw raw ≠ .ready then return .cacheUnavailable
    else
      match ← expiryTable.find (isFor (encodeUsername username)) with
      | some (_, entry) => return classify entry now
      | none => return .noRow

/-- The event is queued first, inside the section; the count only drops when
the event is durable. -/
def tryConsumeGrace (sipHasher : SipHasher13) (username : String)
    (now : TimestampTz) (flags : EventFlags) (met : Circumstances) :
    Section layout GraceResult :=
  let encoded := encodeUsername username
  guarded .expiryCache .exclusive do
    let raw ← load .expiryState
    if ExpiryCacheState.fromRaw raw ≠ .ready then
      return ⟨.unavailable, false⟩
    else
      match ← expiryTable.find (isFor encoded) with
      | none => return ⟨.notNeeded, false⟩
      | some (slot, entry) =>
          match classify entry now with
          | .notExpired => return ⟨.notNeeded, false⟩
          | .expiredNoGrace => return ⟨.noGrace, false⟩
          | .noRow => return ⟨.unavailable, false⟩
          | .cacheUnavailable => return ⟨.unavailable, false⟩
          | .expiredWithGrace =>
              let step ← enqueueEncodedSilent sipHasher encoded
                eventKindGraceConsumed flags entry.generation met
              if !step.outcome.isDurable then
                return ⟨.unavailable, step.shouldWarn⟩
              else
                store (.expiryEntry slot)
                  { entry with graceRemaining := entry.graceRemaining - 1 }
                return ⟨.consumed, step.shouldWarn⟩

def setEntry (username : EncodedUsername)
    (mustChangeBy generation : TimestampTz) (graceRemaining : Int) :
    Section layout CacheOpStatus :=
  if username.isFree then return .overflowed
  else
    guarded .expiryCache .exclusive do
      match ← expiryTable.find (isFor username) with
      | some (slot, entry) =>
          store (.expiryEntry slot) { entry with
            mustChangeBy
            generation
            graceRemaining := max graceRemaining 0 }
          return .applied
      | none =>
          match ← expiryTable.find fun entry => entry.username.isFree with
          | some (slot, _) =>
              store (.expiryEntry slot)
                ⟨username, mustChangeBy, generation, max graceRemaining 0⟩
              return .applied
          | none =>
              store .expiryState ExpiryCacheState.overflow.raw
              return .overflowed

def clearEntry (username : EncodedUsername) : Section layout CacheOpStatus :=
  guarded .expiryCache .exclusive do
    match ← expiryTable.find (isFor username) with
    | some (slot, _) =>
        store (.expiryEntry slot) .empty
        return .applied
    | none => return .applied

def applyHydrated (prepared : List ExpiryEntry) (rows overflow : Int)
    (newState : ExpiryCacheState) : Section layout Int :=
  guarded .expiryCache .exclusive do
    expiryTable.blankAll .empty
    let loaded ← expiryTable.fill ExpiryCache.installs prepared 0
    store .expiryRows rows
    store .expiryOverflow overflow
    store .expiryState newState.raw
    return loaded

end ExpiryCacheSections

/-! ## The bypass cache -/

namespace BypassCacheSections

def state : Section layout BypassCacheState :=
  guarded .bypassCache .shared do
    let raw ← load .bypassState
    return .fromRaw raw

def setState (newState : BypassCacheState) : Section layout Unit :=
  guarded .bypassCache .exclusive (store .bypassState newState.raw)

def lookup (username : String) : Section layout BypassDecision :=
  let encoded := encodeUsername username
  if encoded.isFree then return .unavailable
  else
    guarded .bypassCache .shared do
      let raw ← load .bypassState
      if BypassCacheState.fromRaw raw ≠ .ready then return .unavailable
      else
        match ← bypassTable.find fun entry =>
            !entry.isFree && entry == encoded with
        | some _ => return .bypassed
        | none => return .notBypassed

def applyRefreshed (prepared : List EncodedUsername) (rows overflow : Int)
    (newState : BypassCacheState) : Section layout Int :=
  guarded .bypassCache .exclusive do
    bypassTable.blankAll .zero
    let loaded ← bypassTable.fill BypassCache.installs prepared 0
    store .bypassRows rows
    store .bypassOverflow overflow
    store .bypassState newState.raw
    return loaded

end BypassCacheSections

end PasswordProfile.SharedMemory
