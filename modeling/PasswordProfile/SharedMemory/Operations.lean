import PasswordProfile.AuthJournal.Recovery
import PasswordProfile.SharedMemory.Sections

/-! # Shared memory, one operation at a time

What each section does as a whole is the operation on the cache or the ring
that the rest of the development works with.
-/

namespace PasswordProfile.SharedMemory

open AuthEvent AuthJournal Bypass Expiry LockedSections Lockout Login

structure Shared where
  lockCache : LockCache
  expiryCache : ExpiryCache
  bypassCache : BypassCache
  ring : AuthEventRing
  active : Option (List UInt8)

def view (memory : Memory layout) : Shared where
  lockCache :=
    ⟨fun slot => memory (.lockEntry slot), memory .lockActiveTotal,
      memory .lockLoaded, memory .lockOverflow, memory .lockState⟩
  expiryCache :=
    ⟨fun slot => memory (.expiryEntry slot), memory .expiryState,
      memory .expiryRows, memory .expiryOverflow⟩
  bypassCache :=
    ⟨fun slot => memory (.bypassEntry slot), memory .bypassState,
      memory .bypassRows, memory .bypassOverflow⟩
  ring := memory .ring
  active := memory .active

/-! ## Operations -/

open AuthEventSections (Circumstances)

inductive Operation
  | lockState
  | setLockState (newState : CacheState)
  | setLock (username : EncodedUsername) (expiresAt now : TimestampTz)
  | clearLock (username : EncodedUsername)
  | remainingSeconds (username : String) (now : TimestampTz)
  | applyHydratedEntries (prepared : List LockEntry)
      (activeTotal overflow : Int) (newState : CacheState)
      (now : TimestampTz)
  | expiryState
  | setExpiryState (newState : ExpiryCacheState)
  | lookupExpiry (username : String) (now : TimestampTz)
  | tryConsumeGrace (username : String) (now : TimestampTz)
      (flags : EventFlags) (met : Circumstances)
  | setEntry (username : EncodedUsername)
      (mustChangeBy generation : TimestampTz) (graceRemaining : Int)
  | clearEntry (username : EncodedUsername)
  | applyHydrated (prepared : List ExpiryEntry) (rows overflow : Int)
      (newState : ExpiryCacheState)
  | bypassState
  | setBypassState (newState : BypassCacheState)
  | lookupBypass (username : String)
  | applyRefreshed (prepared : List EncodedUsername) (rows overflow : Int)
      (newState : BypassCacheState)
  | queueState
  | markCorrupt
  | enqueueEncodedSilent (username : EncodedUsername) (kind : UInt8)
      (flags : EventFlags) (generation : TimestampTz) (met : Circumstances)
  | claim
  | rotateJournal (processing : Option (List UInt8))
  | recoverCorruptRing (processing : Option (List UInt8))
      (processingFault activeFault : Option ReadFault)
  | ackClaim (token : ClaimToken)

namespace Operation

abbrev Result : Operation → Type
  | lockState => CacheState
  | setLockState _ => Unit
  | setLock _ _ _ => CacheOpStatus
  | clearLock _ => CacheOpStatus
  | remainingSeconds _ _ => Option Int
  | applyHydratedEntries _ _ _ _ _ => Int
  | expiryState => ExpiryCacheState
  | setExpiryState _ => Unit
  | lookupExpiry _ _ => ExpiryDecision
  | tryConsumeGrace _ _ _ _ => GraceResult
  | setEntry _ _ _ _ => CacheOpStatus
  | clearEntry _ => CacheOpStatus
  | applyHydrated _ _ _ _ => Int
  | bypassState => BypassCacheState
  | setBypassState _ => Unit
  | lookupBypass _ => BypassDecision
  | applyRefreshed _ _ _ _ => Int
  | queueState => QueueState
  | markCorrupt => Unit
  | enqueueEncodedSilent _ _ _ _ _ => EnqueueStep
  | claim => Option (ClaimToken × SharedAuthEvent)
  | rotateJournal _ => Option (List UInt8)
  | recoverCorruptRing _ _ _ => Option (List UInt8) × Except JournalError Bool
  | ackClaim _ => AckOutcome

variable (sipHasher : SipHasher13)

def body : (operation : Operation) → Section layout operation.Result
  | lockState => LockCacheSections.state
  | setLockState newState => LockCacheSections.setState newState
  | setLock username expiresAt now =>
      LockCacheSections.set username expiresAt now
  | clearLock username => LockCacheSections.clear username
  | remainingSeconds username now =>
      LockCacheSections.remainingSeconds username now
  | applyHydratedEntries prepared activeTotal overflow newState now =>
      LockCacheSections.applyHydratedEntries prepared activeTotal overflow
        newState now
  | expiryState => ExpiryCacheSections.state
  | setExpiryState newState => ExpiryCacheSections.setState newState
  | lookupExpiry username now => ExpiryCacheSections.lookup username now
  | tryConsumeGrace username now flags met =>
      ExpiryCacheSections.tryConsumeGrace sipHasher username now flags met
  | setEntry username mustChangeBy generation graceRemaining =>
      ExpiryCacheSections.setEntry username mustChangeBy generation
        graceRemaining
  | clearEntry username => ExpiryCacheSections.clearEntry username
  | applyHydrated prepared rows overflow newState =>
      ExpiryCacheSections.applyHydrated prepared rows overflow newState
  | bypassState => BypassCacheSections.state
  | setBypassState newState => BypassCacheSections.setState newState
  | lookupBypass username => BypassCacheSections.lookup username
  | applyRefreshed prepared rows overflow newState =>
      BypassCacheSections.applyRefreshed prepared rows overflow newState
  | queueState => AuthEventSections.state
  | markCorrupt => AuthEventSections.markCorrupt
  | enqueueEncodedSilent username kind flags generation met =>
      AuthEventSections.enqueueEncodedSilent sipHasher username kind flags
        generation met
  | claim => AuthEventSections.claim
  | rotateJournal processing => AuthEventSections.rotateJournal processing
  | recoverCorruptRing processing processingFault activeFault =>
      AuthEventSections.recoverCorruptRing sipHasher processing
        processingFault activeFault
  | ackClaim token => AuthEventSections.ackClaim token

end Operation

/-! ## The operations on the whole memory -/

namespace Shared

variable (sipHasher : SipHasher13) (shared : Shared)

def onLockCache {Result : Type}
    (operation : LockCache → LockCache × Result) : Shared × Result :=
  ({ shared with lockCache := (operation shared.lockCache).1 },
    (operation shared.lockCache).2)

def onExpiryCache {Result : Type}
    (operation : ExpiryCache → ExpiryCache × Result) : Shared × Result :=
  ({ shared with expiryCache := (operation shared.expiryCache).1 },
    (operation shared.expiryCache).2)

def onBypassCache {Result : Type}
    (operation : BypassCache → BypassCache × Result) : Shared × Result :=
  ({ shared with bypassCache := (operation shared.bypassCache).1 },
    (operation shared.bypassCache).2)

def onRing {Result : Type}
    (operation : AuthEventRing → AuthEventRing × Result) : Shared × Result :=
  ({ shared with ring := (operation shared.ring).1 },
    (operation shared.ring).2)

def rotateJournal (processing : Option (List UInt8)) :
    Shared × Option (List UInt8) :=
  let files := rotate ⟨shared.active, processing⟩
  ({ shared with active := files.active }, files.processing)

/-- `enqueue_encoded_silent` on the ring and the active file. -/
def enqueueEncodedSilent (username : EncodedUsername) (kind : UInt8)
    (flags : EventFlags) (generation : TimestampTz) (met : Circumstances) :
    Shared × EnqueueStep :=
  match met.eventId with
  | none => (shared, ⟨.unavailable, false⟩)
  | some eventId =>
      let offer := AuthEventSections.offerOf username kind flags generation
        met.now eventId
      let (active, durable) := AuthEventSections.appended sipHasher
        shared.active offer met.fault
      let (ring, step) := shared.ring.enqueueEncodedWithId offer durable
      ({ shared with ring, active }, step)

/-- Which event is offered does not depend on what becomes of it. -/
def tryConsumeGrace (username : String) (now : TimestampTz)
    (flags : EventFlags) (met : Circumstances) : Shared × GraceResult :=
  let attempt := shared.expiryCache.tryConsumeGrace username now flags
  match (attempt ⟨.unavailable, false⟩).offered with
  | none => (shared, (attempt ⟨.unavailable, false⟩).result)
  | some event =>
      let (queued, step) := shared.enqueueEncodedSilent sipHasher
        event.username eventKindGraceConsumed event.flags event.generation met
      ({ queued with expiryCache := (attempt step).cache },
        (attempt step).result)

def recoverCorruptRing (processing : Option (List UInt8))
    (processingFault activeFault : Option ReadFault) :
    Shared × (Option (List UInt8) × Except JournalError Bool) :=
  match Recovery.recoverCorruptRing sipHasher (some shared.ring)
      ⟨shared.active, processing⟩ processingFault activeFault with
  | (ring, files, result) =>
      ({ shared with ring := ring.getD shared.ring, active := files.active },
        (files.processing, result))

def perform : (operation : Operation) → Shared → Shared × operation.Result
  | .lockState, shared => (shared, shared.lockCache.readState)
  | .setLockState newState, shared =>
      shared.onLockCache fun cache => (cache.setState newState, ())
  | .setLock username expiresAt now, shared =>
      shared.onLockCache fun cache => cache.set username expiresAt now
  | .clearLock username, shared =>
      shared.onLockCache fun cache => cache.clear username
  | .remainingSeconds username now, shared =>
      (shared, shared.lockCache.remainingSeconds username now)
  | .applyHydratedEntries prepared activeTotal overflow newState now,
      shared =>
      shared.onLockCache fun cache => cache.applyHydratedEntries prepared
        activeTotal overflow newState now
  | .expiryState, shared => (shared, shared.expiryCache.readState)
  | .setExpiryState newState, shared =>
      shared.onExpiryCache fun cache => (cache.setState newState, ())
  | .lookupExpiry username now, shared =>
      (shared, shared.expiryCache.lookup username now)
  | .tryConsumeGrace username now flags met, shared =>
      shared.tryConsumeGrace sipHasher username now flags met
  | .setEntry username mustChangeBy generation graceRemaining, shared =>
      shared.onExpiryCache fun cache => cache.setEntry username mustChangeBy
        generation graceRemaining
  | .clearEntry username, shared =>
      shared.onExpiryCache fun cache => cache.clearEntry username
  | .applyHydrated prepared rows overflow newState, shared =>
      shared.onExpiryCache fun cache =>
        cache.applyHydrated prepared rows overflow newState
  | .bypassState, shared => (shared, shared.bypassCache.readState)
  | .setBypassState newState, shared =>
      shared.onBypassCache fun cache => (cache.setState newState, ())
  | .lookupBypass username, shared =>
      (shared, shared.bypassCache.lookup username)
  | .applyRefreshed prepared rows overflow newState, shared =>
      shared.onBypassCache fun cache =>
        cache.applyRefreshed prepared rows overflow newState
  | .queueState, shared => (shared, shared.ring.queueState)
  | .markCorrupt, shared =>
      shared.onRing fun ring => (ring.degradeTo .corrupt, ())
  | .enqueueEncodedSilent username kind flags generation met, shared =>
      shared.enqueueEncodedSilent sipHasher username kind flags generation met
  | .claim, shared => shared.onRing fun ring => ring.claim
  | .rotateJournal processing, shared => shared.rotateJournal processing
  | .recoverCorruptRing processing processingFault activeFault, shared =>
      shared.recoverCorruptRing sipHasher processing processingFault
        activeFault
  | .ackClaim token, shared => shared.onRing fun ring => ring.ackClaim token

end Shared

/-! ## What the sections do alone -/

section Alone

variable (sipHasher : SipHasher13) (memory : Memory layout)

def Agrees {Result : Type} (part : Section layout Result)
    (operation : Shared → Shared × Result) : Prop :=
  operation (view memory) = (view (alone part memory).1, (alone part memory).2)

theorem find?_isFor {Entry : Type} {size : Nat}
    {owner : Entry → Option EncodedUsername}
    {accepts : Entry → Bool} {username : EncodedUsername}
    (isFor : ∀ entry, accepts entry = true ↔ owner entry = some username)
    (entries : Fin size → Entry) :
    (Fin.find? fun slot => accepts (entries slot)) =
      SlotTable.slotOf owner entries username := by
  rw [SlotTable.slotOf]
  congr 1
  funext slot
  rw [Bool.eq_iff_iff, isFor]
  simp

theorem isFor_lockEntry (username : EncodedUsername) (entry : LockEntry) :
    LockCacheSections.isFor username entry = true ↔
      entry.owner = some username := by
  rw [LockCacheSections.isFor, LockEntry.owner]
  cases entry.username.isFree <;> simp

theorem isFor_expiryEntry (username : EncodedUsername)
    (entry : ExpiryEntry) :
    ExpiryCacheSections.isFor username entry = true ↔
      entry.owner = some username := by
  rw [ExpiryCacheSections.isFor, ExpiryEntry.owner]
  cases entry.username.isFree <;> simp

theorem alone_load_expiryState :
    alone (load .expiryState : Section layout Int) memory =
      (memory, (view memory).expiryCache.state) := rfl

theorem alone_load_bypassState :
    alone (load .bypassState : Section layout Int) memory =
      (memory, (view memory).bypassCache.state) := rfl

theorem alone_load_ring :
    alone (load .ring : Section layout AuthEventRing) memory =
      (memory, (view memory).ring) := rfl

theorem alone_load_active :
    alone (load .active : Section layout (Option (List UInt8))) memory =
      (memory, (view memory).active) := rfl

theorem alone_find_lock (accepts : LockEntry → Bool) :
    alone (lockTable.find accepts) memory = (memory,
      (Fin.find? fun slot =>
        accepts ((view memory).lockCache.entries slot)).map
          fun slot => (slot, (view memory).lockCache.entries slot)) :=
  lockTable.alone_find accepts memory

theorem alone_find_expiry (accepts : ExpiryEntry → Bool) :
    alone (expiryTable.find accepts) memory = (memory,
      (Fin.find? fun slot =>
        accepts ((view memory).expiryCache.entries slot)).map
          fun slot => (slot, (view memory).expiryCache.entries slot)) :=
  expiryTable.alone_find accepts memory

theorem alone_find_bypass (accepts : EncodedUsername → Bool) :
    alone (bypassTable.find accepts) memory = (memory,
      (Fin.find? fun slot =>
        accepts ((view memory).bypassCache.entries slot)).map
          fun slot => (slot, (view memory).bypassCache.entries slot)) :=
  bypassTable.alone_find accepts memory

theorem view_lockEntry (slot : Fin lockCacheSize) (entry : LockEntry) :
    view (Function.update memory (.lockEntry slot) entry) =
      { view memory with lockCache := { (view memory).lockCache with
          entries := Function.update (view memory).lockCache.entries slot
            entry } } :=
  congrArg (fun written => view written.1)
    (lockTable.alone_write slot entry memory)

theorem view_expiryEntry (slot : Fin expiryCacheSize) (entry : ExpiryEntry) :
    view (Function.update memory (.expiryEntry slot) entry) =
      { view memory with expiryCache := { (view memory).expiryCache with
          entries := Function.update (view memory).expiryCache.entries slot
            entry } } :=
  congrArg (fun written => view written.1)
    (expiryTable.alone_write slot entry memory)

theorem setLock_agrees (username : EncodedUsername)
    (expiresAt now : TimestampTz) :
    Agrees memory (LockCacheSections.set username expiresAt now) fun shared =>
      shared.onLockCache fun cache => cache.set username expiresAt now := by
  simp only [Agrees, LockCacheSections.set, Shared.onLockCache, LockCache.set]
  by_cases expired : expiresAt ≤ now
  · simp only [if_pos expired]
    rfl
  by_cases free : username.isFree
  · simp only [if_neg expired, if_pos free]
    rfl
  simp only [if_neg expired, if_neg free, alone_guarded, alone_bind,
    alone_find_lock, find?_isFor (isFor_lockEntry username), SlotTable.place]
  cases found : SlotTable.slotOf LockEntry.owner
      (view memory).lockCache.entries username with
  | some slot =>
      have own : ((view memory).lockCache.entries slot).username = username :=
        (LockEntry.owner_eq_some_iff.mp (SlotTable.owner_of_slotOf found)).2
      simp only [Option.map_some, alone_bind, alone_store, alone_pure, own]
      rw [view_lockEntry]
  | none =>
      simp only [Option.map_none, alone_bind, alone_find_lock]
      cases Fin.find? fun slot =>
          LockCache.reusable now ((view memory).lockCache.entries slot) with
      | some slot =>
          simp only [Option.map_some, alone_bind, alone_store, alone_pure]
          rw [view_lockEntry]
      | none => rfl

theorem clearLock_agrees (username : EncodedUsername) :
    Agrees memory (LockCacheSections.clear username) fun shared =>
      shared.onLockCache fun cache => cache.clear username := by
  simp only [Agrees, LockCacheSections.clear, Shared.onLockCache,
    LockCache.clear, alone_guarded, alone_bind,
    alone_find_lock, find?_isFor (isFor_lockEntry username),
    SlotTable.release]
  cases SlotTable.slotOf LockEntry.owner (view memory).lockCache.entries
      username with
  | some slot =>
      simp only [Option.map_some, alone_bind, alone_store, alone_pure]
      rw [view_lockEntry]
  | none => rfl

theorem remainingSeconds_agrees (username : String) (now : TimestampTz) :
    Agrees memory (LockCacheSections.remainingSeconds username now)
      fun shared => (shared, shared.lockCache.remainingSeconds username now) := by
  simp only [Agrees, LockCacheSections.remainingSeconds,
    LockCache.remainingSeconds, LockCache.findActive,
    alone_guarded, alone_bind, alone_find_lock, alone_pure]
  cases Fin.find? fun slot =>
      !((view memory).lockCache.entries slot).username.isFree &&
        (((view memory).lockCache.entries slot).username ==
            encodeUsername username &&
          decide (((view memory).lockCache.entries slot).expiresAt > now)) with
  | some slot => rfl
  | none => rfl

theorem applyHydratedEntries_agrees (prepared : List LockEntry)
    (activeTotal overflow : Int) (newState : CacheState)
    (now : TimestampTz) :
    Agrees memory (LockCacheSections.applyHydratedEntries prepared
      activeTotal overflow newState now) fun shared =>
        shared.onLockCache fun cache => cache.applyHydratedEntries prepared
          activeTotal overflow newState now := by
  simp only [Agrees, LockCacheSections.applyHydratedEntries,
    Shared.onLockCache, LockCache.applyHydratedEntries, alone_guarded, alone_bind,
    lockTable.alone_blankAll, lockTable.alone_fill, lockTable.get_put,
    lockTable.put_put, alone_store, alone_pure]
  rfl

theorem lookupExpiry_agrees (username : String) (now : TimestampTz) :
    Agrees memory (ExpiryCacheSections.lookup username now) fun shared =>
      (shared, shared.expiryCache.lookup username now) := by
  simp only [Agrees, ExpiryCacheSections.lookup, ExpiryCache.lookup,
    ExpiryCache.readState, alone_guarded, alone_bind]
  rw [alone_load_expiryState]
  by_cases ready :
      ExpiryCacheState.fromRaw (view memory).expiryCache.state = .ready
  · simp only [ready, ne_eq, not_true_eq_false, if_false, alone_bind,
      alone_find_expiry, SlotTable.contents,
      find?_isFor (isFor_expiryEntry (encodeUsername username))]
    cases SlotTable.slotOf ExpiryEntry.owner
        (view memory).expiryCache.entries (encodeUsername username) with
    | some slot => rfl
    | none => rfl
  · simp only [ready, ne_eq, not_false_eq_true, if_true, alone_pure]

theorem lookupBypass_agrees (username : String) :
    Agrees memory (BypassCacheSections.lookup username) fun shared =>
      (shared, shared.bypassCache.lookup username) := by
  simp only [Agrees, BypassCacheSections.lookup, BypassCache.lookup,
    BypassCache.readState]
  by_cases free : (encodeUsername username).isFree
  · simp only [if_pos free]
    rfl
  simp only [if_neg free, alone_guarded, alone_bind]
  rw [alone_load_bypassState]
  by_cases ready :
      BypassCacheState.fromRaw (view memory).bypassCache.state = .ready
  · have isFor : ∀ entry : EncodedUsername,
        (!entry.isFree && entry == encodeUsername username) = true ↔
          entryOwner entry = some (encodeUsername username) := by
      intro entry
      rw [entryOwner]
      cases entry.isFree <;> simp
    simp only [ready, ne_eq, not_true_eq_false, if_false, alone_bind,
      alone_find_bypass, find?_isFor isFor]
    cases SlotTable.slotOf entryOwner (view memory).bypassCache.entries
        (encodeUsername username) with
    | some slot => rfl
    | none => rfl
  · simp only [ready, ne_eq, not_false_eq_true, if_true, alone_pure]

theorem setEntry_agrees (username : EncodedUsername)
    (mustChangeBy generation : TimestampTz) (graceRemaining : Int) :
    Agrees memory (ExpiryCacheSections.setEntry username mustChangeBy
      generation graceRemaining) fun shared =>
        shared.onExpiryCache fun cache => cache.setEntry username mustChangeBy
          generation graceRemaining := by
  simp only [Agrees, ExpiryCacheSections.setEntry, Shared.onExpiryCache,
    ExpiryCache.setEntry]
  by_cases free : username.isFree
  · simp only [if_pos free]
    rfl
  simp only [if_neg free, alone_guarded, alone_bind, alone_find_expiry,
    find?_isFor (isFor_expiryEntry username), SlotTable.place]
  cases found : SlotTable.slotOf ExpiryEntry.owner
      (view memory).expiryCache.entries username with
  | some slot =>
      have own :
          ((view memory).expiryCache.entries slot).username = username :=
        (ExpiryEntry.owner_eq_some_iff.mp
          (SlotTable.owner_of_slotOf found)).2
      simp only [Option.map_some, alone_bind, alone_store, alone_pure, own]
      rw [view_expiryEntry]
  | none =>
      simp only [Option.map_none, alone_bind, alone_find_expiry]
      cases Fin.find? fun slot =>
          ((view memory).expiryCache.entries slot).username.isFree with
      | some slot =>
          simp only [Option.map_some, alone_bind, alone_store, alone_pure]
          rw [view_expiryEntry]
      | none => rfl

theorem clearEntry_agrees (username : EncodedUsername) :
    Agrees memory (ExpiryCacheSections.clearEntry username) fun shared =>
      shared.onExpiryCache fun cache => cache.clearEntry username := by
  simp only [Agrees, ExpiryCacheSections.clearEntry, Shared.onExpiryCache,
    ExpiryCache.clearEntry, alone_guarded, alone_bind,
    alone_find_expiry, find?_isFor (isFor_expiryEntry username),
    SlotTable.release]
  cases SlotTable.slotOf ExpiryEntry.owner
      (view memory).expiryCache.entries username with
  | some slot =>
      simp only [Option.map_some, alone_bind, alone_store, alone_pure]
      rw [view_expiryEntry]
  | none => rfl

theorem applyHydrated_agrees (prepared : List ExpiryEntry)
    (rows overflow : Int) (newState : ExpiryCacheState) :
    Agrees memory (ExpiryCacheSections.applyHydrated prepared rows overflow
      newState) fun shared => shared.onExpiryCache fun cache =>
        cache.applyHydrated prepared rows overflow newState := by
  simp only [Agrees, ExpiryCacheSections.applyHydrated,
    Shared.onExpiryCache, ExpiryCache.applyHydrated, alone_guarded, alone_bind,
    expiryTable.alone_blankAll, expiryTable.alone_fill, expiryTable.get_put,
    expiryTable.put_put, alone_store, alone_pure]
  rfl

theorem applyRefreshed_agrees (prepared : List EncodedUsername)
    (rows overflow : Int) (newState : BypassCacheState) :
    Agrees memory (BypassCacheSections.applyRefreshed prepared rows overflow
      newState) fun shared => shared.onBypassCache fun cache =>
        cache.applyRefreshed prepared rows overflow newState := by
  simp only [Agrees, BypassCacheSections.applyRefreshed,
    Shared.onBypassCache, BypassCache.applyRefreshed, alone_guarded, alone_bind,
    bypassTable.alone_blankAll, bypassTable.alone_fill, bypassTable.get_put,
    bypassTable.put_put, alone_store, alone_pure]
  rfl

theorem enqueueEncodedSilent_agrees (username : EncodedUsername)
    (kind : UInt8) (flags : EventFlags) (generation : TimestampTz)
    (met : Circumstances) :
    Agrees memory (AuthEventSections.enqueueEncodedSilent sipHasher username
      kind flags generation met) fun shared => shared.enqueueEncodedSilent
        sipHasher username kind flags generation met := by
  simp only [Agrees, AuthEventSections.enqueueEncodedSilent,
    Shared.enqueueEncodedSilent]
  cases met.eventId with
  | none => rfl
  | some eventId => rfl

theorem recoverCorruptRing_agrees (processing : Option (List UInt8))
    (processingFault activeFault : Option ReadFault) :
    Agrees memory (AuthEventSections.recoverCorruptRing sipHasher processing
      processingFault activeFault) fun shared => shared.recoverCorruptRing
        sipHasher processing processingFault activeFault := by
  simp only [Agrees, AuthEventSections.recoverCorruptRing,
    Shared.recoverCorruptRing, Recovery.recoverCorruptRing,
    alone_guarded, alone_bind]
  rw [alone_load_ring]
  by_cases corrupt : (view memory).ring.queueState = .corrupt
  · simp only [corrupt, ne_eq, not_true_eq_false, if_false, alone_bind]
    rw [alone_load_active]
    rcases verifyPending sipHasher ⟨(view memory).active, processing⟩
        processingFault activeFault with ⟨files, failure | _⟩
    · rfl
    · rfl
  · simp only [corrupt, ne_eq, not_false_eq_true, if_true, alone_pure]
    rfl

theorem ackClaim_agrees (token : ClaimToken) :
    Agrees memory (AuthEventSections.ackClaim token) fun shared =>
      shared.onRing fun ring => ring.ackClaim token := by
  simp only [Agrees, AuthEventSections.ackClaim, Shared.onRing,
    AuthEventRing.ackClaim, alone_guarded, alone_bind]
  rw [alone_load_ring]
  rcases (view memory).ring.ack token with ⟨acked, outcome⟩
  cases outcome with
  | acknowledged => rfl
  | stale => rfl
  | corrupt => rfl

theorem expiryCache_enqueueEncodedSilent (shared : Shared)
    (username : EncodedUsername) (kind : UInt8) (flags : EventFlags)
    (generation : TimestampTz) (met : Circumstances) :
    (shared.enqueueEncodedSilent sipHasher username kind flags generation
      met).1.expiryCache = shared.expiryCache := by
  rw [Shared.enqueueEncodedSilent]
  cases met.eventId with
  | none => rfl
  | some eventId => rfl

theorem tryConsumeGrace_agrees (username : String) (now : TimestampTz)
    (flags : EventFlags) (met : Circumstances) :
    Agrees memory (ExpiryCacheSections.tryConsumeGrace sipHasher username now
      flags met) fun shared =>
        shared.tryConsumeGrace sipHasher username now flags met := by
  simp only [Agrees, ExpiryCacheSections.tryConsumeGrace,
    Shared.tryConsumeGrace, ExpiryCache.tryConsumeGrace,
    ExpiryCache.readState, alone_guarded, alone_bind]
  rw [alone_load_expiryState]
  by_cases ready :
      ExpiryCacheState.fromRaw (view memory).expiryCache.state = .ready
  · simp only [ready, ne_eq, not_true_eq_false, if_false, alone_bind,
      alone_find_expiry,
      find?_isFor (isFor_expiryEntry (encodeUsername username))]
    cases SlotTable.slotOf ExpiryEntry.owner
        (view memory).expiryCache.entries (encodeUsername username) with
    | none => rfl
    | some slot =>
        simp only [Option.map_some]
        cases classify ((view memory).expiryCache.entries slot) now with
        | notExpired => rfl
        | expiredNoGrace => rfl
        | noRow => rfl
        | cacheUnavailable => rfl
        | expiredWithGrace =>
            -- the nested section acts on the ring and the journal alone
            have queued := enqueueEncodedSilent_agrees sipHasher memory
              (encodeUsername username) eventKindGraceConsumed flags
              ((view memory).expiryCache.entries slot).generation met
            have kept := expiryCache_enqueueEncodedSilent sipHasher
              (view memory) (encodeUsername username) eventKindGraceConsumed
              flags ((view memory).expiryCache.entries slot).generation met
            simp only [Agrees] at queued
            rw [queued] at kept
            simp only [EnqueueOutcome.isDurable, Bool.not_false, if_true,
              queued, alone_bind]
            clear queued
            generalize alone (AuthEventSections.enqueueEncodedSilent sipHasher
              (encodeUsername username) eventKindGraceConsumed flags
              ((view memory).expiryCache.entries slot).generation met)
              memory = run at kept ⊢
            rcases run with ⟨after, outcome, shouldWarn⟩
            have same : (view after).expiryCache = (view memory).expiryCache :=
              kept
            rw [← same]
            cases outcome with
            | unavailable => rfl
            | enqueued =>
                simp only [Bool.not_true, Bool.false_eq_true, if_false,
                  alone_bind, alone_store, alone_pure]
                rw [view_expiryEntry]
            | durableOnly =>
                simp only [Bool.not_true, Bool.false_eq_true, if_false,
                  alone_bind, alone_store, alone_pure]
                rw [view_expiryEntry]
  · simp only [ready, ne_eq, not_false_eq_true, if_true, alone_pure]

theorem body_agrees (operation : Operation) :
    Agrees memory (operation.body sipHasher)
      (Shared.perform sipHasher operation) := by
  cases operation with
  | lockState => rfl
  | setLockState newState => rfl
  | setLock username expiresAt now =>
      exact setLock_agrees memory username expiresAt now
  | clearLock username => exact clearLock_agrees memory username
  | remainingSeconds username now =>
      exact remainingSeconds_agrees memory username now
  | applyHydratedEntries prepared activeTotal overflow newState now =>
      exact applyHydratedEntries_agrees memory prepared activeTotal
        overflow newState now
  | expiryState => rfl
  | setExpiryState newState => rfl
  | lookupExpiry username now =>
      exact lookupExpiry_agrees memory username now
  | tryConsumeGrace username now flags met =>
      exact tryConsumeGrace_agrees sipHasher memory username now flags met
  | setEntry username mustChangeBy generation graceRemaining =>
      exact setEntry_agrees memory username mustChangeBy generation
        graceRemaining
  | clearEntry username => exact clearEntry_agrees memory username
  | applyHydrated prepared rows overflow newState =>
      exact applyHydrated_agrees memory prepared rows overflow
        newState
  | bypassState => rfl
  | setBypassState newState => rfl
  | lookupBypass username =>
      exact lookupBypass_agrees memory username
  | applyRefreshed prepared rows overflow newState =>
      exact applyRefreshed_agrees memory prepared rows overflow
        newState
  | queueState => rfl
  | markCorrupt => rfl
  | enqueueEncodedSilent username kind flags generation met =>
      exact enqueueEncodedSilent_agrees sipHasher memory username kind flags
        generation met
  | claim => rfl
  | rotateJournal processing => rfl
  | recoverCorruptRing processing processingFault activeFault =>
      exact recoverCorruptRing_agrees sipHasher memory processing
        processingFault activeFault
  | ackClaim token => exact ackClaim_agrees memory token

end Alone

end PasswordProfile.SharedMemory
