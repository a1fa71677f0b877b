import PasswordProfile.Lockout.Hydration
import PasswordProfile.Foundation.Execution

/-! # A committed lockout is in a ready cache

Transactions of any number of backends run one call each and then commit or
abort, while the worker hydrates the cache. A commit makes the rows visible and
applies the staged decisions in one step, before any lock is released.
-/

namespace PasswordProfile.Lockout

open Execution
open PendingCacheOp (CacheDecision)

structure Session where
  startedAt : TimestampTz
  effect : Option Effect

def Session.locked (session : Session) : List String :=
  (session.effect.map Effect.locked).getD []

structure HydrationTransaction where
  startedAt : TimestampTz
  snapshot : Option Snapshot

structure World where
  table : LoginAttempts
  cache : LockCache
  clock : TimestampTz
  sessions : AList fun _ : Nat => Session
  hydration : Option HydrationTransaction

inductive Action
  | tick (clock : TimestampTz)
  | begin (backend : Nat)
  | execute (backend : Nat) (call : Call)
  | commit (backend : Nat)
  | abort (backend : Nat)
  | hydrationBegin
  | hydrationRead
  | hydrationApply
  | hydrationEnd
  | hydrationFailed
  deriving DecidableEq, Repr

namespace World

/-- Nothing is open and the cache has just been allocated. -/
def start (table : LoginAttempts) (clock : TimestampTz) : World where
  table
  cache := .init
  clock
  sessions := ∅
  hydration := none

def grants (world : World) (names : List String) : Prop :=
  (names = [] ∨ (world.hydration.bind HydrationTransaction.snapshot) = none) ∧
    ∀ entry ∈ world.sessions.entries, ∀ name ∈ names,
      name ∉ entry.2.locked

instance (world : World) (names : List String) :
    Decidable (world.grants names) :=
  inferInstanceAs (Decidable (_ ∧ _))

/-- Whether `LOCK TABLE … IN SHARE MODE` can be had now. -/
def unwritten (world : World) : Prop :=
  ∀ entry ∈ world.sessions.entries, entry.2.locked = []

instance (world : World) : Decidable world.unwritten :=
  inferInstanceAs (Decidable (∀ _ ∈ _, _))

def tick (world : World) (clock : TimestampTz) : Option World :=
  if world.clock ≤ clock then some { world with clock } else none

def begin (world : World) (backend : Nat) : Option World :=
  match world.sessions.lookup backend with
  | some _ => none
  | none => some { world with
      sessions := world.sessions.insert backend ⟨world.clock, none⟩ }

def execute (world : World) (backend : Nat) (call : Call) : Option World :=
  match world.sessions.lookup backend with
  | some ⟨startedAt, none⟩ =>
      if ∀ name ∈ call.names, IsRoleName name then
        match call.perform world.table startedAt world.clock with
        | .error _ =>
            some { world with sessions := world.sessions.erase backend }
        | .ok effect =>
            if world.grants effect.locked then
              some { world with
                sessions :=
                  world.sessions.insert backend ⟨startedAt, some effect⟩ }
            else none
      else none
  | _ => none

def commit (world : World) (backend : Nat) : Option World :=
  match world.sessions.lookup backend with
  | some ⟨_, some effect⟩ =>
      some { world with
        table := effect.publish world.table
        cache :=
          effect.lockDecisions.foldl (LockCache.applyDecision world.clock)
            world.cache
        sessions := world.sessions.erase backend }
  | _ => none

def abort (world : World) (backend : Nat) : Option World :=
  some { world with sessions := world.sessions.erase backend }

def hydrationBegin (world : World) : Option World :=
  match world.hydration with
  | some _ => none
  | none => some { world with hydration := some ⟨world.clock, none⟩ }

def hydrationRead (world : World) : Option World :=
  match world.hydration with
  | some ⟨startedAt, none⟩ =>
      if world.unwritten then
        some { world with
          hydration := some ⟨startedAt,
            some (Snapshot.read world.table startedAt)⟩ }
      else none
  | _ => none

def hydrationApply (world : World) : Option World :=
  match world.hydration with
  | some ⟨_, some snapshot⟩ =>
      some { world with
        cache := (snapshot.install world.cache world.clock).1 }
  | _ => none

def hydrationEnd (world : World) : Option World :=
  some { world with hydration := none }

def hydrationFailed (world : World) : Option World :=
  match world.hydration with
  | some _ => none
  | none => some { world with cache := world.cache.setState .notReady }

def step (world : World) : Action → Option World
  | .tick clock => world.tick clock
  | .begin backend => world.begin backend
  | .execute backend call => world.execute backend call
  | .commit backend => world.commit backend
  | .abort backend => world.abort backend
  | .hydrationBegin => world.hydrationBegin
  | .hydrationRead => world.hydrationRead
  | .hydrationApply => world.hydrationApply
  | .hydrationEnd => world.hydrationEnd
  | .hydrationFailed => world.hydrationFailed

def machine : Machine World Action := ⟨step⟩

end World

/-! ## Applying the decisions of a commit -/

namespace LockCache

variable {cache : LockCache}

theorem WellFormed.applyDecision_result (wellFormed : cache.WellFormed)
    (now : TimestampTz) (username : EncodedUsername)
    (decision : CacheDecision) :
    (cache.applyDecision now (username, decision)).WellFormed ∧
      KeepsOthers username now cache
        (cache.applyDecision now (username, decision)) ∧
      ((cache.applyDecision now (username, decision)).readState = .ready →
        cache.readState = .ready ∧
        ∀ expiresAt, decision = .setLock expiresAt →
          username.isFree = false → now < expiresAt →
          (cache.applyDecision now (username, decision)).held username =
            some expiresAt) := by
  cases decision with
  | setLock expiresAt =>
      have result := wellFormed.set_result username expiresAt now
      refine ⟨result.wellFormed, result.keepsOthers, fun ready => ?_⟩
      have before : cache.readState = .ready := by
        rcases result.state with same | overflow
        · exact same.symm.trans ready
        · have impossible := overflow.symm.trans ready
          cases impossible
      refine ⟨before, fun expiry same used active => ?_⟩
      cases same
      exact result.held used active ready
  | clearLock =>
      have result := wellFormed.clear_result username now
      exact ⟨result.1, result.2, fun ready => ⟨ready, nofun⟩⟩

/-- The decisions of a commit: each of them lands, and no lockout of another
user that is still active is lost. -/
theorem WellFormed.applyDecisions_result (wellFormed : cache.WellFormed)
    (now : TimestampTz) (decisions : List (EncodedUsername × CacheDecision))
    (distinct : (decisions.map Prod.fst).Nodup) :
    (decisions.foldl (applyDecision now) cache).WellFormed ∧
      (∀ other, other ∉ decisions.map Prod.fst → ∀ expiresAt,
        cache.held other = some expiresAt → now < expiresAt →
        (decisions.foldl (applyDecision now) cache).held other =
          some expiresAt) ∧
      ((decisions.foldl (applyDecision now) cache).readState = .ready →
        cache.readState = .ready ∧
        ∀ username expiresAt, (username, .setLock expiresAt) ∈ decisions →
          username.isFree = false → now < expiresAt →
          (decisions.foldl (applyDecision now) cache).held username =
            some expiresAt) := by
  induction decisions generalizing cache with
  | nil =>
      exact ⟨wellFormed, fun _ _ _ found _ => found,
        fun ready => ⟨ready, nofun⟩⟩
  | cons first rest induction =>
      rcases first with ⟨username, decision⟩
      rw [List.map_cons, List.nodup_cons] at distinct
      rcases wellFormed.applyDecision_result now username decision with
        ⟨firstFormed, firstKeeps, firstLands⟩
      rcases induction firstFormed distinct.2 with ⟨formed, keeps, lands⟩
      rw [List.foldl_cons]
      refine ⟨formed, fun other absent expiresAt found active => ?_,
        fun ready => ?_⟩
      · rw [List.map_cons, List.mem_cons, not_or] at absent
        apply keeps other absent.2 expiresAt _ active
        exact firstKeeps other absent.1 expiresAt found active
      · rcases lands ready with ⟨readyBetween, landed⟩
        rcases firstLands readyBetween with ⟨readyBefore, firstLanded⟩
        refine ⟨readyBefore, fun user expiresAt member used active => ?_⟩
        rcases List.mem_cons.mp member with here | later
        · cases here
          -- the rest of the decisions are about other users
          apply keeps username distinct.1 expiresAt _ active
          exact firstLanded expiresAt rfl used active
        · exact landed user expiresAt later used active

end LockCache

/-! ## The invariant -/

def Covers (cache : LockCache) (table : LoginAttempts)
    (clock : TimestampTz) : Prop :=
  ∀ username expiresAt, table.lockoutUntil username = some expiresAt →
    clock < expiresAt → cache.held (encodeUsername username) = some expiresAt

theorem Covers.later {cache : LockCache} {table : LoginAttempts}
    {clock later : TimestampTz} (covers : Covers cache table clock)
    (advances : clock ≤ later) : Covers cache table later :=
  fun username expiresAt locked active =>
    covers username expiresAt locked (lt_of_le_of_lt advances active)

structure Effect.Prepared (effect : Effect) (clock : TimestampTz) : Prop where
  roles : ∀ name ∈ effect.locked, IsRoleName name
  described : ∃ decidedAt, decidedAt ≤ clock ∧ effect.Describes decidedAt

theorem Effect.Prepared.later {effect : Effect} {clock later : TimestampTz}
    (prepared : effect.Prepared clock) (advances : clock ≤ later) :
    effect.Prepared later := by
  rcases prepared.described with ⟨decidedAt, before, describes⟩
  exact ⟨prepared.roles, decidedAt, before.trans advances, describes⟩

theorem Effect.Prepared.covers_commit {effect : Effect} {cache : LockCache}
    {table : LoginAttempts} {clock : TimestampTz}
    (prepared : effect.Prepared clock) (wellFormed : cache.WellFormed)
    (roles : table.RoleNames)
    (covered : cache.readState = .ready → Covers cache table clock) :
    (effect.lockDecisions.foldl (LockCache.applyDecision clock)
        cache).WellFormed ∧
      ((effect.lockDecisions.foldl (LockCache.applyDecision clock)
          cache).readState = .ready →
        Covers (effect.lockDecisions.foldl (LockCache.applyDecision clock)
          cache) (effect.publish table) clock) := by
  rcases prepared.described with ⟨decidedAt, before, describes⟩
  have users : effect.lockDecisions.map Prod.fst =
      effect.locked.map encodeUsername := by
    rw [describes.decisions, List.map_map]
    rfl
  have distinct : (effect.lockDecisions.map Prod.fst).Nodup := by
    rw [users]
    apply describes.distinct.map_on
    intro left leftMember right rightMember same
    exact encodeUsername_injective (prepared.roles left leftMember)
      (prepared.roles right rightMember) same
  rcases wellFormed.applyDecisions_result clock effect.lockDecisions
    distinct with ⟨formed, keeps, lands⟩
  refine ⟨formed, fun ready username expiresAt locked active => ?_⟩
  rcases lands ready with ⟨readyBefore, landed⟩
  rw [LoginAttempts.lockoutUntil, effect.lookup_publish] at locked
  by_cases written : username ∈ effect.locked
  · rw [if_pos written] at locked
    have decided : decisionFromDb effect.table username decidedAt =
        .setLock expiresAt := by
      rw [decisionFromDb, LoginAttempts.lockoutUntil, locked]
      exact decisionFor_active (lt_of_le_of_lt before active)
    apply landed _ expiresAt _ _ active
    · rw [describes.decisions]
      exact List.mem_map.mpr ⟨username, written, by rw [decided]⟩
    · exact encodeUsername_not_free (prepared.roles username written)
  · rw [if_neg written] at locked
    have role : IsRoleName username := by
      rcases Option.bind_eq_some_iff.mp locked with ⟨_, found, _⟩
      exact roles username (by rw [found]; rfl)
    apply keeps _ _ expiresAt _ active
    · rw [users]
      intro member
      rcases List.mem_map.mp member with ⟨other, otherLocked, same⟩
      have equal := encodeUsername_injective
        (prepared.roles other otherLocked) role same
      exact written (equal ▸ otherLocked)
    · exact covered readyBefore username expiresAt locked active

theorem Effect.Prepared.roleNames_publish {effect : Effect}
    {table : LoginAttempts} {clock : TimestampTz}
    (prepared : effect.Prepared clock) (roles : table.RoleNames) :
    LoginAttempts.RoleNames (effect.publish table) := by
  intro username found
  rw [effect.lookup_publish] at found
  by_cases written : username ∈ effect.locked
  · exact prepared.roles username written
  · rw [if_neg written] at found
    exact roles username found

namespace World

structure Sound (world : World) : Prop where
  roles : world.table.RoleNames
  wellFormed : world.cache.WellFormed
  covered : world.cache.readState = .ready →
    Covers world.cache world.table world.clock
  sessions : ∀ backend session,
    world.sessions.lookup backend = some session →
      ∀ effect, session.effect = some effect → effect.Prepared world.clock
  hydrating : ∀ hydration, world.hydration = some hydration →
    hydration.startedAt ≤ world.clock
  snapshot : ∀ startedAt snapshot,
    world.hydration = some ⟨startedAt, some snapshot⟩ →
      snapshot = Snapshot.read world.table startedAt ∧
      ∀ backend session, world.sessions.lookup backend = some session →
        session.locked = []

theorem sound_start {table : LoginAttempts} (roles : table.RoleNames)
    (clock : TimestampTz) : (start table clock).Sound where
  roles := roles
  wellFormed := LockCache.wellFormed_init
  covered := fun ready => by cases ready
  sessions := fun _ _ found => by cases found
  hydrating := fun _ found => by cases found
  snapshot := fun _ _ found => by cases found

/-! ## Every step keeps the invariant -/

namespace Sound

variable {world next : World} {backend : Nat}

theorem tick {clock : TimestampTz} (sound : world.Sound)
    (stepped : world.tick clock = some next) : next.Sound := by
  rw [World.tick] at stepped
  split at stepped
  · next advances =>
      cases stepped
      exact {
        roles := sound.roles
        wellFormed := sound.wellFormed
        covered := fun ready => (sound.covered ready).later advances
        sessions := fun other session found effect returned =>
          (sound.sessions other session found effect returned).later advances
        hydrating := fun hydration found =>
          (sound.hydrating hydration found).trans advances
        snapshot := sound.snapshot }
  · cases stepped

theorem close (sound : world.Sound) (backend : Nat) :
    Sound { world with sessions := world.sessions.erase backend } := by
  have stays : ∀ {other session},
      (world.sessions.erase backend).lookup other = some session →
        world.sessions.lookup other = some session := by
    intro other session found
    by_cases here : other = backend
    · rw [here, AList.lookup_erase] at found
      cases found
    · rwa [AList.lookup_erase_ne here] at found
  exact {
    roles := sound.roles
    wellFormed := sound.wellFormed
    covered := sound.covered
    sessions := fun other session found =>
      sound.sessions other session (stays found)
    hydrating := sound.hydrating
    snapshot := fun startedAt snapshot reading =>
      ⟨(sound.snapshot startedAt snapshot reading).1,
        fun other session found =>
          (sound.snapshot startedAt snapshot reading).2 other session
            (stays found)⟩ }

theorem insert {session : Session} (sound : world.Sound)
    (prepared : ∀ effect, session.effect = some effect →
      effect.Prepared world.clock)
    (granted : session.locked = [] ∨
      world.hydration.bind HydrationTransaction.snapshot = none) :
    Sound { world with
      sessions := world.sessions.insert backend session } where
  roles := sound.roles
  wellFormed := sound.wellFormed
  covered := sound.covered
  sessions := by
    intro other found lookup effect returned
    by_cases here : other = backend
    · rw [here, AList.lookup_insert] at lookup
      cases lookup
      exact prepared effect returned
    · rw [AList.lookup_insert_ne here] at lookup
      exact sound.sessions other found lookup effect returned
  hydrating := sound.hydrating
  snapshot := by
    intro startedAt snapshot reading
    rcases sound.snapshot startedAt snapshot reading with ⟨same, unlocked⟩
    refine ⟨same, fun other found lookup => ?_⟩
    by_cases here : other = backend
    · rw [here, AList.lookup_insert] at lookup
      cases lookup
      rcases granted with none | free
      · exact none
      · have reading : world.hydration = some ⟨startedAt, some snapshot⟩ :=
          reading
        rw [reading] at free
        cases free
    · rw [AList.lookup_insert_ne here] at lookup
      exact unlocked other found lookup

theorem begin (sound : world.Sound)
    (stepped : world.begin backend = some next) : next.Sound := by
  rw [World.begin] at stepped
  split at stepped
  · cases stepped
  · cases stepped
    exact sound.insert (fun _ returned => by cases returned) (.inl rfl)

theorem execute {call : Call} (sound : world.Sound)
    (stepped : world.execute backend call = some next) : next.Sound := by
  rw [World.execute] at stepped
  split at stepped
  · split at stepped
    · next roles =>
        split at stepped
        · cases stepped
          exact sound.close backend
        · next effect performed =>
            split at stepped
            · next granted =>
                cases stepped
                rcases call.perform_describes roles performed with
                  ⟨describes, locked⟩
                have prepared : effect.Prepared world.clock :=
                  ⟨fun name member => roles name (locked member),
                    world.clock, le_refl _, describes⟩
                refine sound.insert (fun _ returned => ?_) granted.1
                cases returned
                exact prepared
            · cases stepped
    · cases stepped
  · cases stepped

theorem commit (sound : world.Sound)
    (stepped : world.commit backend = some next) : next.Sound := by
  rw [World.commit] at stepped
  split at stepped
  · next startedAt effect found =>
      cases stepped
      have prepared := sound.sessions backend _ found effect rfl
      have closed := sound.close backend
      rcases prepared.covers_commit sound.wellFormed sound.roles
        sound.covered with ⟨wellFormed, covers⟩
      exact {
        roles := prepared.roleNames_publish sound.roles
        wellFormed := wellFormed
        covered := covers
        sessions := closed.sessions
        hydrating := closed.hydrating
        snapshot := by
          intro startedAt snapshot reading
          rcases closed.snapshot startedAt snapshot reading with
            ⟨same, unlocked⟩
          -- a writer cannot commit while the table lock is held
          have nothing : effect.locked = [] :=
            (sound.snapshot startedAt snapshot reading).2 backend _ found
          refine ⟨?_, unlocked⟩
          rw [Effect.publish, nothing]
          exact same }
  · cases stepped

theorem hydrationBegin (sound : world.Sound)
    (stepped : world.hydrationBegin = some next) : next.Sound := by
  rw [World.hydrationBegin] at stepped
  split at stepped
  · cases stepped
  · cases stepped
    exact { sound with
      hydrating := fun _ found => by cases found; exact le_refl _
      snapshot := fun _ _ found => by cases found }

theorem hydrationRead (sound : world.Sound)
    (stepped : world.hydrationRead = some next) : next.Sound := by
  rw [World.hydrationRead] at stepped
  split at stepped
  · next startedAt reading =>
      split at stepped
      · next unwritten =>
          cases stepped
          exact { sound with
            hydrating := fun _ found => by
              cases found
              exact sound.hydrating ⟨startedAt, none⟩ reading
            snapshot := fun _ _ found => by
              cases found
              refine ⟨rfl, fun backend session opened => ?_⟩
              exact unwritten ⟨backend, session⟩
                (AList.mem_lookup_iff.mp opened) }
      · cases stepped
  · cases stepped

theorem hydrationApply (sound : world.Sound)
    (stepped : world.hydrationApply = some next) : next.Sound := by
  rw [World.hydrationApply] at stepped
  split at stepped
  · next startedAt snapshot reading =>
      cases stepped
      rcases sound.snapshot startedAt snapshot reading with ⟨rfl, _⟩
      rcases Snapshot.install_spec sound.roles world.cache world.clock with
        ⟨wellFormed, complete⟩
      exact { sound with
        wellFormed := wellFormed
        covered := fun ready =>
          complete ready (sound.hydrating _ reading) }
  · cases stepped

theorem hydrationEnd (sound : world.Sound)
    (stepped : world.hydrationEnd = some next) : next.Sound := by
  cases stepped
  exact { sound with
    hydrating := fun _ found => by cases found
    snapshot := fun _ _ found => by cases found }

theorem hydrationFailed (sound : world.Sound)
    (stepped : world.hydrationFailed = some next) : next.Sound := by
  rw [World.hydrationFailed] at stepped
  split at stepped
  · cases stepped
  · cases stepped
    exact { sound with
      wellFormed := sound.wellFormed
      covered := fun ready => by cases ready }

theorem step {action : Action} (sound : world.Sound)
    (stepped : world.step action = some next) : next.Sound := by
  cases action with
  | tick clock => exact sound.tick stepped
  | begin backend => exact sound.begin stepped
  | execute backend call => exact sound.execute stepped
  | commit backend => exact sound.commit stepped
  | abort backend =>
      cases stepped
      exact sound.close backend
  | hydrationBegin => exact sound.hydrationBegin stepped
  | hydrationRead => exact sound.hydrationRead stepped
  | hydrationApply => exact sound.hydrationApply stepped
  | hydrationEnd => exact sound.hydrationEnd stepped
  | hydrationFailed => exact sound.hydrationFailed stepped

end Sound

theorem sound_run {table : LoginAttempts} (roles : table.RoleNames)
    {clock : TimestampTz} {actions : List Action} {world : World}
    (completed : machine.run (start table clock) actions = some world) :
    world.Sound :=
  Machine.run_invariant
    (fun {state} {_} {_} (sound : Sound state) stepped => sound.step stepped)
    (sound_start roles clock) completed

end World

/-- In every reachable state with a ready cache, the lookup of a user whose
committed lockout is active finds exactly that lockout. -/
theorem run_ready_findsLockout {table : LoginAttempts}
    (roles : table.RoleNames) {clock : TimestampTz} {actions : List Action}
    {world : World}
    (completed : World.machine.run (.start table clock) actions = some world)
    (ready : world.cache.readState = .ready) {username : String}
    {row : LoginAttempt} {expiresAt instant : TimestampTz}
    (committed : world.table.lookup username = some row)
    (locked : row.lockoutUntil = some expiresAt)
    (current : world.clock ≤ instant) (active : instant < expiresAt) :
    world.cache.findActive (encodeUsername username) instant =
      some expiresAt := by
  have sound := World.sound_run roles completed
  have lockoutUntil : world.table.lockoutUntil username = some expiresAt := by
    rw [LoginAttempts.lockoutUntil, committed]
    exact locked
  apply sound.wellFormed.findActive_eq_some_iff.mpr
  exact ⟨sound.covered ready username expiresAt lockoutUntil
    (lt_of_le_of_lt current active), active⟩

/-- Two failures of one role, hydrated in between and committed into a ready
cache while another transaction aborts. -/
def lockedAfterHydration : List Action :=
  [.begin 1, .tick 10,
    .execute 1 (.recordFailedLogin "alice" ⟨false, false, 5, 2⟩), .commit 1,
    .hydrationBegin, .hydrationRead, .tick 20, .hydrationApply,
    .hydrationEnd, .begin 1, .begin 2,
    .execute 2 (.clearLoginAttempts "bob" false), .tick 30,
    .execute 1 (.recordFailedLogin "alice" ⟨false, false, 5, 2⟩), .abort 2,
    .commit 1, .tick 40]

theorem lockedAfterHydration_findsLockout :
    ∃ world, World.machine.run (.start ∅ 0) lockedAfterHydration =
        some world ∧
      world.cache.readState = .ready ∧
      world.cache.findActive (encodeUsername "alice") 50 =
        some 300000020 := by
  have summary : (World.machine.run (.start ∅ 0) lockedAfterHydration).map
      (fun world => (world.cache.readState, world.clock,
        world.table.lookup "alice")) =
      some (.ready, 40, some ⟨2, 20, some 300000020⟩) := by decide +kernel
  rcases Option.map_eq_some_iff.mp summary with ⟨world, completed, read⟩
  simp only [Prod.mk.injEq] at read
  rcases read with ⟨ready, clock, committed⟩
  refine ⟨world, completed, ready, ?_⟩
  exact run_ready_findsLockout (fun _ found => by cases found) completed ready
    committed rfl (by rw [clock]; decide) (by decide)

end PasswordProfile.Lockout
