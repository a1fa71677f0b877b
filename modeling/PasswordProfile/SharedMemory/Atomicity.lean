import PasswordProfile.Foundation.SectionProgress
import PasswordProfile.SharedMemory.Operations

/-! # The shared memory under concurrency

The sections keep to the lock order, so every interleaving of them, access by
access, looks like some order of whole operations, and none of them waits for
ever.
-/

namespace PasswordProfile.SharedMemory

open AuthEvent AuthJournal Bypass Execution Expiry Interaction LockedSections
  Lockout Login

open AuthEventSections (Circumstances)

/-! ## The discipline of the sections -/

section Keeps

variable (sipHasher : SipHasher13)

abbrev inside (lock : Lock) (mode : Mode) : Holding layout :=
  Holding.start.after (.acquire lock mode)

theorem held_inside (lock : Lock) (mode : Mode) :
    (inside lock mode).held lock = some mode :=
  (Holding.start : Holding layout).held_acquired lock mode

theorem held_inside_ne (lock : Lock) (mode : Mode) :
    (inside lock mode).held lock ≠ none := by
  rw [held_inside]
  exact Option.some_ne_none mode

theorem lockCache_set_keeps (username : EncodedUsername)
    (expiresAt now : TimestampTz) :
    Keeps (LockCacheSections.set username expiresAt now) .start := by
  have owned := held_inside .lockCache .exclusive
  have held := held_inside_ne .lockCache .exclusive
  rw [LockCacheSections.set]
  split
  · exact keeps_pure _
  · split
    · exact keeps_pure _
    · apply keeps_guarded
      apply (lockTable.within_find _ held).bind
      rintro (_ | ⟨slot, entry⟩)
      · apply (lockTable.within_find _ held).bind
        rintro (_ | ⟨slot, entry⟩)
        · exact (within_store owned _).bind fun _ => within_pure _
        · exact (within_store owned _).bind fun _ => within_pure _
      · exact (within_store owned _).bind fun _ => within_pure _

theorem lockCache_clear_keeps (username : EncodedUsername) :
    Keeps (LockCacheSections.clear username) .start := by
  apply keeps_guarded
  apply (lockTable.within_find _ (held_inside_ne .lockCache _)).bind
  rintro (_ | ⟨slot, entry⟩)
  · exact within_pure _
  · exact (within_store (held_inside .lockCache _) _).bind fun _ =>
      within_pure _

theorem applyHydratedEntries_keeps (prepared : List LockEntry)
    (activeTotal overflow : Int) (newState : CacheState)
    (now : TimestampTz) :
    Keeps (LockCacheSections.applyHydratedEntries prepared activeTotal
      overflow newState now) .start := by
  have owned := held_inside .lockCache .exclusive
  apply keeps_guarded
  apply (lockTable.within_blankAll owned _).bind
  intro _
  apply (lockTable.within_fill _ owned _ _).bind
  intro loaded
  apply (within_store owned _).bind
  intro _
  apply (within_store owned _).bind
  intro _
  apply (within_store owned _).bind
  intro _
  exact (within_store owned _).bind fun _ => within_pure _

theorem expiryCache_lookup_keeps (username : String) (now : TimestampTz) :
    Keeps (ExpiryCacheSections.lookup username now) .start := by
  have held := held_inside_ne .expiryCache .shared
  apply keeps_guarded
  apply (within_load held).bind
  intro raw
  split
  · exact within_pure _
  · apply (expiryTable.within_find _ held).bind
    rintro (_ | ⟨slot, entry⟩)
    · exact within_pure _
    · exact within_pure _

theorem setEntry_keeps (username : EncodedUsername)
    (mustChangeBy generation : TimestampTz) (graceRemaining : Int) :
    Keeps (ExpiryCacheSections.setEntry username mustChangeBy generation
      graceRemaining) .start := by
  have owned := held_inside .expiryCache .exclusive
  have held := held_inside_ne .expiryCache .exclusive
  rw [ExpiryCacheSections.setEntry]
  split
  · exact keeps_pure _
  · apply keeps_guarded
    apply (expiryTable.within_find _ held).bind
    rintro (_ | ⟨slot, entry⟩)
    · apply (expiryTable.within_find _ held).bind
      rintro (_ | ⟨slot, entry⟩)
      · exact (within_store owned _).bind fun _ => within_pure _
      · exact (within_store owned _).bind fun _ => within_pure _
    · exact (within_store owned _).bind fun _ => within_pure _

theorem clearEntry_keeps (username : EncodedUsername) :
    Keeps (ExpiryCacheSections.clearEntry username) .start := by
  apply keeps_guarded
  apply (expiryTable.within_find _ (held_inside_ne .expiryCache _)).bind
  rintro (_ | ⟨slot, entry⟩)
  · exact within_pure _
  · exact (within_store (held_inside .expiryCache _) _).bind fun _ =>
      within_pure _

theorem applyHydrated_keeps (prepared : List ExpiryEntry)
    (rows overflow : Int) (newState : ExpiryCacheState) :
    Keeps (ExpiryCacheSections.applyHydrated prepared rows overflow newState)
      .start := by
  have owned := held_inside .expiryCache .exclusive
  apply keeps_guarded
  apply (expiryTable.within_blankAll owned _).bind
  intro _
  apply (expiryTable.within_fill _ owned _ _).bind
  intro loaded
  apply (within_store owned _).bind
  intro _
  apply (within_store owned _).bind
  intro _
  exact (within_store owned _).bind fun _ => within_pure _

theorem bypassCache_lookup_keeps (username : String) :
    Keeps (BypassCacheSections.lookup username) .start := by
  have held := held_inside_ne .bypassCache .shared
  rw [BypassCacheSections.lookup]
  split
  · exact keeps_pure _
  · apply keeps_guarded
    apply (within_load held).bind
    intro raw
    split
    · exact within_pure _
    · apply (bypassTable.within_find _ held).bind
      rintro (_ | ⟨slot, entry⟩)
      · exact within_pure _
      · exact within_pure _

theorem applyRefreshed_keeps (prepared : List EncodedUsername)
    (rows overflow : Int) (newState : BypassCacheState) :
    Keeps (BypassCacheSections.applyRefreshed prepared rows overflow newState)
      .start := by
  have owned := held_inside .bypassCache .exclusive
  apply keeps_guarded
  apply (bypassTable.within_blankAll owned _).bind
  intro _
  apply (bypassTable.within_fill _ owned _ _).bind
  intro loaded
  apply (within_store owned _).bind
  intro _
  apply (within_store owned _).bind
  intro _
  exact (within_store owned _).bind fun _ => within_pure _

theorem enqueueEncodedSilent_supervised {holding : Holding layout}
    (grows : holding.released = false)
    (below : ∀ lock, holding.held lock ≠ none → lock.rank < 1)
    (username : EncodedUsername) (kind : UInt8) (flags : EventFlags)
    (generation : TimestampTz) (met : Circumstances) :
    (discipline layout).Supervises
      (AuthEventSections.enqueueEncodedSilent sipHasher username kind flags
        generation met) holding fun _ final => final.held = holding.held := by
  rw [AuthEventSections.enqueueEncodedSilent]
  cases met.eventId with
  | none => rfl
  | some eventId =>
      have owned : (holding.after (.acquire Lock.authEvent .exclusive)).held
          Lock.authEvent = some .exclusive := holding.held_acquired _ _
      have held : (holding.after (.acquire Lock.authEvent .exclusive)).held
          Lock.authEvent ≠ none := by
        rw [owned]
        exact Option.some_ne_none _
      apply supervises_guarded grows
      · exact below
      · apply Within.held
        apply (within_load held).bind
        intro active
        apply (within_store owned _).bind
        intro _
        apply (within_load held).bind
        intro ring
        exact (within_store owned _).bind fun _ => within_pure _

theorem tryConsumeGrace_keeps (username : String) (now : TimestampTz)
    (flags : EventFlags) (met : Circumstances) :
    Keeps (ExpiryCacheSections.tryConsumeGrace sipHasher username now flags
      met) .start := by
  have owned := held_inside .expiryCache .exclusive
  have held := held_inside_ne .expiryCache .exclusive
  have below : ∀ lock, (inside .expiryCache .exclusive).held lock ≠ none →
      lock.rank < 1 := by
    intro lock taken
    cases lock with
    | authEvent => exact absurd rfl taken
    | lockCache => exact Nat.one_pos
    | expiryCache => exact Nat.one_pos
    | bypassCache => exact Nat.one_pos
  have supervised : (discipline layout).Supervises
      (ExpiryCacheSections.tryConsumeGrace sipHasher username now flags met)
      Holding.start fun _ final => final.held = Holding.start.held := by
    apply supervises_guarded
    · rfl
    · exact fun _ taken => absurd rfl taken
    apply Monitor.Supervises.bind (within_load held)
    intro raw final same
    rw [same]
    split
    · rfl
    · apply Monitor.Supervises.bind (expiryTable.within_find _ held)
      intro found final same
      rw [same]
      rcases found with _ | ⟨slot, entry⟩
      · rfl
      · simp only
        cases classify entry now with
        | notExpired => rfl
        | expiredNoGrace => rfl
        | noRow => rfl
        | cacheUnavailable => rfl
        | expiredWithGrace =>
            apply Monitor.Supervises.bind
              (enqueueEncodedSilent_supervised sipHasher rfl below _ _ _ _ _)
            intro step final same
            split
            · exact same
            · have still : final.held Lock.expiryCache = some .exclusive :=
                same ▸ owned
              apply Monitor.Supervises.bind (within_store still _)
              intro _ last unchanged
              rw [unchanged]
              exact same
  constructor
  apply supervised.mono
  intro _ final same lock
  rw [same]
  rfl

theorem recoverCorruptRing_keeps (processing : Option (List UInt8))
    (processingFault activeFault : Option ReadFault) :
    Keeps (AuthEventSections.recoverCorruptRing sipHasher processing
      processingFault activeFault) .start := by
  have owned := held_inside .authEvent .exclusive
  have held := held_inside_ne .authEvent .exclusive
  apply keeps_guarded
  apply (within_load held).bind
  intro ring
  split
  · exact within_pure _
  · apply (within_load held).bind
    intro active
    apply (within_store owned _).bind
    intro _
    split
    · exact within_pure _
    · exact (within_store owned _).bind fun _ => within_pure _

theorem ackClaim_keeps (token : ClaimToken) :
    Keeps (AuthEventSections.ackClaim token) .start := by
  have owned := held_inside .authEvent .exclusive
  apply keeps_guarded
  apply (within_load (held_inside_ne .authEvent _)).bind
  intro ring
  apply (within_store owned _).bind
  intro _
  split
  · exact within_pure _
  · exact (within_store owned _).bind fun _ => within_pure _

theorem keeps_load {Result : Type} (cell : Cell)
    (result : cell.Value → Result) :
    Keeps (guarded cell.guard .shared do
      let value ← load cell
      return result value) .start :=
  keeps_guarded ((within_load (held_inside_ne cell.guard .shared)).bind
    fun _ => within_pure _)

theorem keeps_store (cell : Cell) (value : cell.Value) :
    Keeps (guarded cell.guard .exclusive (store cell value)) .start :=
  keeps_guarded (within_store (held_inside cell.guard .exclusive) value)

theorem keeps_update {Result : Type} (cell : Cell)
    (value : cell.Value → cell.Value) (result : cell.Value → Result) :
    Keeps (guarded cell.guard .exclusive do
      let before ← load cell
      store cell (value before)
      return result before) .start :=
  keeps_guarded ((within_load (held_inside_ne cell.guard .exclusive)).bind
    fun _ => (within_store (held_inside cell.guard .exclusive) _).bind
      fun _ => within_pure _)

theorem enqueueEncodedSilent_keeps (username : EncodedUsername)
    (kind : UInt8) (flags : EventFlags) (generation : TimestampTz)
    (met : Circumstances) :
    Keeps (AuthEventSections.enqueueEncodedSilent sipHasher username kind
      flags generation met) .start := by
  have supervised := enqueueEncodedSilent_supervised sipHasher rfl
    (fun lock (taken : (Holding.start : Holding layout).held lock ≠ none) =>
      absurd rfl taken) username kind flags generation met
  constructor
  apply supervised.mono
  intro _ final same lock
  rw [same]
  rfl

theorem body_keeps (operation : Operation) :
    Keeps (operation.body sipHasher) .start := by
  cases operation with
  | lockState => exact keeps_load .lockState _
  | setLockState newState => exact keeps_store .lockState _
  | setLock username expiresAt now =>
      exact lockCache_set_keeps username expiresAt now
  | clearLock username => exact lockCache_clear_keeps username
  | remainingSeconds username now =>
      exact (keeps_guarded (lockTable.within_find _
        (held_inside_ne .lockCache .shared))).map _
  | applyHydratedEntries prepared activeTotal overflow newState now =>
      exact applyHydratedEntries_keeps prepared activeTotal overflow newState
        now
  | expiryState => exact keeps_load .expiryState _
  | setExpiryState newState => exact keeps_store .expiryState _
  | lookupExpiry username now => exact expiryCache_lookup_keeps username now
  | tryConsumeGrace username now flags met =>
      exact tryConsumeGrace_keeps sipHasher username now flags met
  | setEntry username mustChangeBy generation graceRemaining =>
      exact setEntry_keeps username mustChangeBy generation graceRemaining
  | clearEntry username => exact clearEntry_keeps username
  | applyHydrated prepared rows overflow newState =>
      exact applyHydrated_keeps prepared rows overflow newState
  | bypassState => exact keeps_load .bypassState _
  | setBypassState newState => exact keeps_store .bypassState _
  | lookupBypass username => exact bypassCache_lookup_keeps username
  | applyRefreshed prepared rows overflow newState =>
      exact applyRefreshed_keeps prepared rows overflow newState
  | queueState => exact keeps_load .ring _
  | markCorrupt =>
      exact keeps_guarded ((within_load (held_inside_ne .authEvent _)).bind
        fun _ => within_store (held_inside .authEvent _) _)
  | enqueueEncodedSilent username kind flags generation met =>
      exact enqueueEncodedSilent_keeps sipHasher username kind flags
        generation met
  | claim => exact keeps_update .ring _ _
  | rotateJournal processing => exact keeps_update .active _ _
  | recoverCorruptRing processing processingFault activeFault =>
      exact recoverCorruptRing_keeps sipHasher processing processingFault
        activeFault
  | ackClaim token => exact ackClaim_keeps token

end Keeps

/-! ## Every interleaving -/

section Runs

variable (sipHasher : SipHasher13)

def code : Code layout where
  Operation := Operation
  Result := Operation.Result
  body := Operation.body sipHasher
  keeps := body_keeps sipHasher

/-- Whole operations, each in one step between its start and its end. -/
def specification (size : Nat) :
    Machine (Atomic (code sipHasher) size Shared)
      (AtomicAction (code sipHasher) size) :=
  atomicMachine (Shared.perform sipHasher) size

/-- Whatever the processes do, access by access, each operation takes its whole
effect at one moment between its start and its end. -/
theorem sections_atomic {size : Nat} {memory : Memory layout}
    {actions : List (Action (code sipHasher) size)}
    {system : System (code sipHasher) size}
    (completed : (machine (code sipHasher) size).run (.init memory) actions =
      some system) :
    ∃ matching atomic,
      (specification sipHasher size).run (.init (view memory)) matching =
        some atomic ∧
      atomic.history = system.history ∧
      (system.Idle → atomic.state = view system.memory) := by
  have agrees : ∀ (operation : (code sipHasher).Operation)
      (memory : Memory layout), Shared.perform sipHasher operation
        (view memory) =
      (view (alone ((code sipHasher).body operation) memory).1,
        (alone ((code sipHasher).body operation) memory).2) :=
    fun operation memory => body_agrees sipHasher memory operation
  exact run_atomic agrees completed

def fresh : Memory layout
  | .lockEntry _ => LockEntry.new
  | .lockActiveTotal => (0 : Int)
  | .lockLoaded => (0 : Int)
  | .lockOverflow => (0 : Int)
  | .lockState => CacheState.notReady.raw
  | .expiryEntry _ => ExpiryEntry.empty
  | .expiryState => ExpiryCacheState.notReady.raw
  | .expiryRows => (0 : Int)
  | .expiryOverflow => (0 : Int)
  | .bypassEntry _ => EncodedUsername.zero
  | .bypassState => BypassCacheState.notReady.raw
  | .bypassRows => (0 : Int)
  | .bypassOverflow => (0 : Int)
  | .ring => AuthEventRing.new
  | .active => none

/-- The password of alice has expired, and two grace logins are left. -/
def expired : Memory layout
  | .expiryState => ExpiryCacheState.ready.raw
  | .expiryEntry slot =>
      if slot.val = 0 then ⟨encodeUsername "alice", 1, 1, 2⟩ else .empty
  | cell => fresh cell

/-- A grace login of alice, which comes to the ring while a failed login of bob
is inside its section, and waits. -/
def graceBesideFailure : List (Action (code fun _ _ _ => 0) 2) :=
  [.start 0 (Operation.tryConsumeGrace "alice" 5 .none
      ⟨some (Vector.replicate 16 1), 5, none⟩),
    .start 1 (Operation.enqueueEncodedSilent (encodeUsername "bob")
      eventKindFailure .none 0 ⟨some (Vector.replicate 16 2), 5, none⟩),
    .access 1, .access 0, .access 0, .access 0] ++
  List.replicate 5 (.access 1) ++ [.finish 1] ++
  List.replicate 8 (.access 0) ++ [.finish 0]

/-- The grace login may not enter, and the failed login can go on. -/
theorem graceBesideFailure_waits :
    ((machine (code fun _ _ _ => 0) 2).run (.init expired)
      (graceBesideFailure.take 6)).map (fun system =>
        (((machine (code fun _ _ _ => 0) 2).step system (.access 0)).isSome,
          ((machine (code fun _ _ _ => 0) 2).step system (.access 1)).isSome)) =
      some (false, true) := by decide +kernel

theorem graceBesideFailure_atomic :
    ∃ system : System (code fun _ _ _ => 0) 2,
      (machine (code fun _ _ _ => 0) 2).run (.init expired)
        graceBesideFailure = some system ∧
      (view system.memory).ring.accepted = 2 ∧
      ∃ matching atomic,
        (specification (fun _ _ _ => 0) 2).run (.init (view expired))
          matching = some atomic ∧
        atomic.history = system.history ∧
        atomic.state = view system.memory := by
  have summary : ((machine (code fun _ _ _ => 0) 2).run (.init expired)
      graceBesideFailure).map (fun system =>
        ((view system.memory).ring.accepted,
          (system.process 0).isNone, (system.process 1).isNone)) =
      some (2, true, true) := by decide +kernel
  rcases Option.map_eq_some_iff.mp summary with ⟨system, completed, ended⟩
  simp only [Prod.mk.injEq, Option.isNone_iff_eq_none] at ended
  rcases ended with ⟨accepted, first, second⟩
  have idle : system.Idle := Fin.forall_fin_two.mpr ⟨first, second⟩
  rcases sections_atomic _ completed with
    ⟨matching, atomic, matched, history, state⟩
  exact ⟨system, completed, accepted, matching, atomic, matched, history,
    state idle⟩

/-- The sections under way can always be completed, without a new one. -/
theorem sections_complete {size : Nat} {memory : Memory layout}
    {actions : List (Action (code sipHasher) size)}
    {system : System (code sipHasher) size}
    (completed : (machine (code sipHasher) size).run (.init memory) actions =
      some system) :
    ∃ later final,
      (machine (code sipHasher) size).run system later = some final ∧
      final.Idle ∧ ∀ action ∈ later, action.isStart = false :=
  run_completes completed

/-- From where the grace login waits. -/
theorem graceBesideFailure_complete :
    ∃ system : System (code fun _ _ _ => 0) 2,
      (machine (code fun _ _ _ => 0) 2).run (.init expired)
        (graceBesideFailure.take 6) = some system ∧
      (machine (code fun _ _ _ => 0) 2).step system (.access 0) = none ∧
      ∃ later final,
        (machine (code fun _ _ _ => 0) 2).run system later = some final ∧
        final.Idle ∧ ∀ action ∈ later, action.isStart = false := by
  rcases Option.map_eq_some_iff.mp graceBesideFailure_waits with
    ⟨system, completed, waits⟩
  rw [Prod.mk.injEq, Option.isSome_eq_false_iff, Option.isNone_iff_eq_none]
    at waits
  exact ⟨system, completed, waits.1, sections_complete _ completed⟩

end Runs

end PasswordProfile.SharedMemory
