import PasswordProfile.Administration.Deadlines
import PasswordProfile.Foundation.Execution

/-! # A ready expiry cache knows every deadline

Password changes, renames and removals of any number of backends run one call
in each transaction, while logins take grace, the worker persists it and
hydration replaces the cache. Grace moves on its own; the deadline and the
generation of a role are those of the committed row.
-/

namespace PasswordProfile.Administration

open Execution SlotTable
open AuthEvent (EventFlags EnqueueStep)
open Expiry (ExpiryCache ExpiryEntry ExpiryRow ExpirySnapshot PasswordExpiry
  persistGraceConsumption)
open Lockout (LoginAttempts)
open PasswordChange
open PendingCacheOp (PendingState)

/-- A transaction whose call has returned: the names it has locked, its version
of the table and what it has staged. -/
structure Change where
  locked : List String
  table : PasswordExpiry
  pending : PendingState

/-- The rows of the locked names replace the committed ones. -/
def Change.publish (change : Change) (committed : PasswordExpiry) :
    PasswordExpiry :=
  change.locked.foldl
    (fun table name =>
      match change.table.lookup name with
      | some row => table.insert name row
      | none => table.erase name)
    committed

structure ExpiryWorld where
  table : PasswordExpiry
  cache : ExpiryCache
  sessions : AList fun _ : Nat => Change
  hydration : Option ExpirySnapshot

/-- The other tables and what the call reads besides them are part of the
action. -/
inductive ExpiryAction
  | execute (backend : Nat) (circumstances : Circumstances)
      (attempts : LoginAttempts) (history : PasswordHistory)
      (request : Request)
  | commit (backend : Nat)
  | abort (backend : Nat)
  | login (username : String) (now : TimestampTz) (flags : EventFlags)
      (step : EnqueueStep)
  | persistGrace (username : String) (generation : TimestampTz)
  | hydrationRead
  | hydrationApply
  | hydrationEnd
  | markNotReady
  | markWorkerFailed

namespace ExpiryWorld

def start (table : PasswordExpiry) : ExpiryWorld where
  table
  cache := .init
  sessions := ∅
  hydration := none

def grants (world : ExpiryWorld) (names : List String) : Prop :=
  (names = [] ∨ world.hydration = none) ∧
    ∀ entry ∈ world.sessions.entries, ∀ name ∈ names,
      name ∉ entry.2.locked

instance (world : ExpiryWorld) (names : List String) :
    Decidable (world.grants names) :=
  inferInstanceAs (Decidable (_ ∧ _))

/-- Whether `LOCK TABLE … IN SHARE MODE` can be had now. -/
def unwritten (world : ExpiryWorld) : Prop :=
  ∀ entry ∈ world.sessions.entries, entry.2.locked = []

instance (world : ExpiryWorld) : Decidable world.unwritten :=
  inferInstanceAs (Decidable (∀ _ ∈ _, _))

def execute (world : ExpiryWorld) (backend : Nat)
    (circumstances : Circumstances) (attempts : LoginAttempts)
    (history : PasswordHistory) (request : Request) : Option ExpiryWorld :=
  match world.sessions.lookup backend with
  | some _ => none
  | none =>
      if ∀ name ∈ request.names, IsRoleName name then
        match perform circumstances ⟨attempts, history, world.table⟩
            request with
        | .error _ => some world
        | .ok performed =>
            if world.grants request.rewritten then
              some { world with
                sessions := world.sessions.insert backend
                  ⟨request.rewritten, performed.database.expiry,
                    performed.pending⟩ }
            else none
      else none

def commit (world : ExpiryWorld) (backend : Nat) : Option ExpiryWorld :=
  match world.sessions.lookup backend with
  | none => none
  | some change =>
      some { world with
        table := change.publish world.table
        cache := (expiryDecisions change.pending).foldl
          ExpiryCache.applyDecision world.cache
        sessions := world.sessions.erase backend }

def abort (world : ExpiryWorld) (backend : Nat) : Option ExpiryWorld :=
  some { world with sessions := world.sessions.erase backend }

def login (world : ExpiryWorld) (username : String) (now : TimestampTz)
    (flags : EventFlags) (step : EnqueueStep) : Option ExpiryWorld :=
  some { world with
    cache := (world.cache.tryConsumeGrace username now flags step).cache }

def persistGrace (world : ExpiryWorld) (username : String)
    (generation : TimestampTz) : Option ExpiryWorld :=
  if IsRoleName username ∧ world.grants [username] then
    match persistGraceConsumption world.table username generation with
    | .error _ => some world
    | .ok written => some { world with table := written }
  else none

def hydrationRead (world : ExpiryWorld) : Option ExpiryWorld :=
  match world.hydration with
  | some _ => none
  | none =>
      if world.unwritten then
        some { world with hydration := some (.read world.table) }
      else none

def hydrationApply (world : ExpiryWorld) : Option ExpiryWorld :=
  match world.hydration with
  | none => none
  | some snapshot =>
      some { world with cache := (snapshot.install world.cache).1 }

def hydrationEnd (world : ExpiryWorld) : Option ExpiryWorld :=
  some { world with hydration := none }

def step (world : ExpiryWorld) : ExpiryAction → Option ExpiryWorld
  | .execute backend circumstances attempts history request =>
      world.execute backend circumstances attempts history request
  | .commit backend => world.commit backend
  | .abort backend => world.abort backend
  | .login username now flags answer => world.login username now flags answer
  | .persistGrace username generation =>
      world.persistGrace username generation
  | .hydrationRead => world.hydrationRead
  | .hydrationApply => world.hydrationApply
  | .hydrationEnd => world.hydrationEnd
  | .markNotReady =>
      some { world with cache := world.cache.setState .notReady }
  | .markWorkerFailed =>
      some { world with cache := world.cache.setState .workerFailed }

def machine : Machine ExpiryWorld ExpiryAction := ⟨step⟩

end ExpiryWorld

/-! ## The invariant -/

theorem lookup_publishChange (change : Change) (committed : PasswordExpiry)
    (username : String) :
    (change.publish committed).lookup username =
      if username ∈ change.locked then change.table.lookup username
      else committed.lookup username := by
  rw [Change.publish]
  generalize change.locked = names
  induction names generalizing committed with
  | nil => simp
  | cons name rest induction =>
      rw [List.foldl_cons, induction]
      by_cases later : username ∈ rest
      · simp [later]
      · by_cases here : username = name
        · subst here
          cases found : change.table.lookup username with
          | none => simp [later, AList.lookup_erase]
          | some row => simp [later, AList.lookup_insert]
        · cases found : change.table.lookup name with
          | none => simp [later, here, AList.lookup_erase_ne here]
          | some row => simp [later, here, AList.lookup_insert_ne here]

structure Change.Prepared (change : Change) : Prop where
  roles : ∀ name ∈ change.locked, IsRoleName name
  distinct : change.locked.Nodup
  complete : Complete change.table
  decisions : expiryDecisions change.pending = change.locked.map fun name =>
    (encodeUsername name, expiryDecisionFromDb change.table name)

/-- The deadlines of a cache are those of the table. -/
def Exact (cache : ExpiryCache) (table : PasswordExpiry) : Prop :=
  ∀ username, IsRoleName username →
    cachedDeadline cache (encodeUsername username) =
      committedDeadline table username

theorem committedDeadline_publish {change : Change}
    {committed : PasswordExpiry} {username : String} :
    committedDeadline (change.publish committed) username =
      if username ∈ change.locked then
        committedDeadline change.table username
      else committedDeadline committed username := by
  rw [committedDeadline, lookup_publishChange]
  split <;> rfl

theorem Change.Prepared.commit {change : Change} (prepared : change.Prepared)
    {cache : ExpiryCache} (wellFormed : cache.WellFormed)
    {table : PasswordExpiry}
    (exactBefore : cache.readState = .ready → Exact cache table) :
    ((expiryDecisions change.pending).foldl ExpiryCache.applyDecision
        cache).WellFormed ∧
      (((expiryDecisions change.pending).foldl ExpiryCache.applyDecision
          cache).readState = .ready →
        Exact ((expiryDecisions change.pending).foldl
            ExpiryCache.applyDecision cache)
          (change.publish table)) := by
  rw [prepared.decisions]
  have users : (change.locked.map fun name => (encodeUsername name,
      expiryDecisionFromDb change.table name)).map Prod.fst =
        change.locked.map encodeUsername := by
    rw [List.map_map]
    rfl
  have distinct : ((change.locked.map fun name => (encodeUsername name,
      expiryDecisionFromDb change.table name)).map Prod.fst).Nodup := by
    rw [users]
    apply prepared.distinct.map_on
    intro left leftMember right rightMember same
    exact encodeUsername_injective (prepared.roles left leftMember)
      (prepared.roles right rightMember) same
  have used : ∀ entry ∈ change.locked.map fun name => (encodeUsername name,
      expiryDecisionFromDb change.table name), entry.1.isFree = false := by
    intro entry member
    rcases List.mem_map.mp member with ⟨name, locked, rfl⟩
    exact encodeUsername_not_free (prepared.roles name locked)
  have effective : ∀ entry ∈ change.locked.map fun name =>
      (encodeUsername name, expiryDecisionFromDb change.table name),
      entry.2 ≠ .none := by
    intro entry member
    rcases List.mem_map.mp member with ⟨name, locked, rfl⟩
    exact expiryDecisionFromDb_ne_none change.table name
  have result := applyDecision_foldl distinct used effective wellFormed
  refine ⟨result.1, fun ready username isRole => ?_⟩
  rcases result.2 ready with ⟨readyBefore, others, landed⟩
  rw [committedDeadline_publish]
  by_cases written : username ∈ change.locked
  · rw [if_pos written, landed _ _ (List.mem_map.mpr ⟨username, written, rfl⟩),
      prepared.complete.decided]
  · rw [if_neg written, others]
    · exact exactBefore readyBefore username isRole
    · rw [users]
      intro member
      rcases List.mem_map.mp member with ⟨name, locked, same⟩
      have equal := encodeUsername_injective (prepared.roles name locked)
        isRole same
      exact written (equal ▸ locked)

theorem committedDeadline_persisted {table written : PasswordExpiry}
    {username : String} {generation : TimestampTz}
    (persisted : persistGraceConsumption table username generation =
      .ok written) (other : String) :
    committedDeadline written other = committedDeadline table other := by
  rcases Expiry.persistGraceConsumption_cases persisted with
    same | ⟨row, remaining, found, _, _, _, decremented⟩
  · rw [same]
  · rw [decremented]
    by_cases here : other = username
    · rw [here, committedDeadline, committedDeadline, AList.lookup_insert,
        found]
      rcases row with ⟨_ | lastChanged, _ | mustChangeBy, grace⟩ <;> rfl
    · rw [committedDeadline, committedDeadline, AList.lookup_insert_ne here]

theorem Complete.persisted {table written : PasswordExpiry}
    (complete : Complete table) {username : String}
    {generation : TimestampTz}
    (persisted : persistGraceConsumption table username generation =
      .ok written) : Complete written := by
  rcases Expiry.persistGraceConsumption_cases persisted with
    same | ⟨row, remaining, _, _, _, _, decremented⟩
  · rw [same]
    exact complete
  · rw [decremented]
    exact complete.insert fun _ => rfl

theorem cachedDeadline_tryConsumeGrace {cache : ExpiryCache}
    (wellFormed : cache.WellFormed) (username : String) (now : TimestampTz)
    (flags : EventFlags) (step : EnqueueStep) :
    (cache.tryConsumeGrace username now flags step).cache.WellFormed ∧
      ((cache.tryConsumeGrace username now flags step).cache.readState =
          .ready → cache.readState = .ready) ∧
      ∀ other, cachedDeadline
          (cache.tryConsumeGrace username now flags step).cache other =
        cachedDeadline cache other := by
  rcases wellFormed.tryConsumeGrace_cases username now flags step rfl with
    ⟨_, entry, consumes⟩ | declines
  · refine ⟨consumes.wellFormed, fun _ => consumes.ready, fun other => ?_⟩
    rw [cachedDeadline, consumes.after other]
    by_cases own : other = encodeUsername username
    · rw [if_pos own, cachedDeadline, own, consumes.held]
      rfl
    · rw [if_neg own]
      rfl
  · rw [declines.unchanged]
    exact ⟨wellFormed, fun ready => ready, fun _ => rfl⟩

theorem exact_install {table : PasswordExpiry} (roles : table.RoleNames)
    (cache : ExpiryCache)
    (ready : ((ExpirySnapshot.read table).install cache).1.readState =
      .ready) :
    Exact ((ExpirySnapshot.read table).install cache).1 table := by
  rw [ExpirySnapshot.readState_install,
    ExpirySnapshot.newState_eq_ready_iff] at ready
  intro username isRole
  rw [cachedDeadline, committedDeadline]
  cases held : ((ExpirySnapshot.read table).install cache).1.held
      (encodeUsername username) with
  | some entry =>
      rcases (ExpirySnapshot.install_spec roles cache).2 username isRole entry
        held with ⟨dated, found, rfl⟩
      rcases Option.bind_eq_some_iff.mp found with ⟨row, stored, dates⟩
      rw [stored, Option.bind_some, rowDeadline, dates]
      rfl
  | none =>
      cases found : (table.lookup username).bind ExpiryRow.dated with
      | none =>
          cases stored : table.lookup username with
          | none => rfl
          | some row =>
              rw [stored, Option.bind_some] at found
              rw [Option.bind_some, rowDeadline, found]
              rfl
      | some dated =>
          have present := (ExpirySnapshot.held_install roles.datedRoles ready
            cache).mpr ⟨username, dated, rfl, found, rfl⟩
          rw [held] at present
          cases present

namespace ExpiryWorld

structure Sound (world : ExpiryWorld) : Prop where
  roles : world.table.RoleNames
  complete : Complete world.table
  wellFormed : world.cache.WellFormed
  exact : world.cache.readState = .ready → Exact world.cache world.table
  sessions : ∀ backend change,
    world.sessions.lookup backend = some change → change.Prepared
  snapshot : ∀ snapshot, world.hydration = some snapshot →
    snapshot = .read world.table ∧
      ∀ backend change, world.sessions.lookup backend = some change →
        change.locked = []

theorem sound_start {table : PasswordExpiry} (roles : table.RoleNames)
    (complete : Complete table) : (start table).Sound where
  roles := roles
  complete := complete
  wellFormed := ExpiryCache.wellFormed_init
  exact := fun ready => by cases ready
  sessions := fun _ _ found => by cases found
  snapshot := fun _ found => by cases found

namespace Sound

variable {world next : ExpiryWorld} {backend : Nat}

theorem close (sound : world.Sound) (backend : Nat) :
    Sound { world with sessions := world.sessions.erase backend } := by
  have stays : ∀ {other change},
      (world.sessions.erase backend).lookup other = some change →
        world.sessions.lookup other = some change := by
    intro other change found
    by_cases here : other = backend
    · rw [here, AList.lookup_erase] at found
      cases found
    · rwa [AList.lookup_erase_ne here] at found
  exact { sound with
    sessions := fun other change found =>
      sound.sessions other change (stays found)
    snapshot := fun snapshot reading =>
      ⟨(sound.snapshot snapshot reading).1, fun other change found =>
        (sound.snapshot snapshot reading).2 other change (stays found)⟩ }

theorem execute {circumstances : Circumstances} {attempts : LoginAttempts}
    {history : PasswordHistory} {request : Request} (sound : world.Sound)
    (stepped : world.execute backend circumstances attempts history request =
      some next) : next.Sound := by
  rw [ExpiryWorld.execute] at stepped
  split at stepped
  · cases stepped
  split at stepped
  · next roles =>
      split at stepped
      · cases stepped
        exact sound
      · next performed succeeded =>
          split at stepped
          · next granted =>
              cases stepped
              have describes := perform_describesExpiry roles succeeded
              exact { sound with
                sessions := by
                  intro other change found
                  by_cases here : other = backend
                  · rw [here, AList.lookup_insert] at found
                    cases found
                    exact ⟨fun name member =>
                        roles name (request.rewritten_subset member),
                      describes.distinct, describes.complete sound.complete,
                      describes.decisions⟩
                  · rw [AList.lookup_insert_ne here] at found
                    exact sound.sessions other change found
                snapshot := by
                  intro snapshot reading
                  rcases sound.snapshot snapshot reading with ⟨same, unlocked⟩
                  refine ⟨same, fun other change found => ?_⟩
                  by_cases here : other = backend
                  · rw [here, AList.lookup_insert] at found
                    cases found
                    rcases granted.1 with nothing | free
                    · exact nothing
                    · rw [show world.hydration = some snapshot from reading]
                        at free
                      cases free
                  · rw [AList.lookup_insert_ne here] at found
                    exact unlocked other change found }
          · cases stepped
  · cases stepped

theorem commit (sound : world.Sound)
    (stepped : world.commit backend = some next) : next.Sound := by
  rw [ExpiryWorld.commit] at stepped
  split at stepped
  · cases stepped
  next change found =>
  cases stepped
  have prepared := sound.sessions backend change found
  have closed := sound.close backend
  rcases prepared.commit sound.wellFormed sound.exact with
    ⟨wellFormed, exactAfter⟩
  exact {
    roles := by
      intro username present
      rw [lookup_publishChange] at present
      by_cases written : username ∈ change.locked
      · exact prepared.roles username written
      · rw [if_neg written] at present
        exact sound.roles username present
    complete := by
      intro username row stored
      rw [lookup_publishChange] at stored
      split at stored
      · exact prepared.complete username row stored
      · exact sound.complete username row stored
    wellFormed := wellFormed
    exact := exactAfter
    sessions := closed.sessions
    snapshot := by
      intro snapshot reading
      rcases closed.snapshot snapshot reading with ⟨same, unlocked⟩
      -- a writer cannot commit while the table lock is held
      have nothing : change.locked = [] :=
        (sound.snapshot snapshot reading).2 backend change found
      refine ⟨?_, unlocked⟩
      rw [Change.publish, nothing]
      exact same }

theorem login {username : String} {now : TimestampTz} {flags : EventFlags}
    {answer : EnqueueStep} (sound : world.Sound)
    (stepped : world.login username now flags answer = some next) :
    next.Sound := by
  cases stepped
  rcases cachedDeadline_tryConsumeGrace sound.wellFormed username now flags
    answer with ⟨wellFormed, readyBefore, same⟩
  exact { sound with
    wellFormed := wellFormed
    exact := by
      intro ready role isRole
      rw [same]
      exact sound.exact (readyBefore ready) role isRole }

theorem persistGrace {username : String} {generation : TimestampTz}
    (sound : world.Sound)
    (stepped : world.persistGrace username generation = some next) :
    next.Sound := by
  rw [ExpiryWorld.persistGrace] at stepped
  split at stepped
  · next allowed =>
      split at stepped
      · cases stepped
        exact sound
      · next written persisted =>
          cases stepped
          exact { sound with
            roles := Expiry.persistGraceConsumption_roleNames sound.roles
              allowed.1 persisted
            complete := sound.complete.persisted persisted
            exact := by
              intro ready role isRole
              rw [committedDeadline_persisted persisted]
              exact sound.exact ready role isRole
            snapshot := by
              intro snapshot reading
              rcases allowed.2.1 with impossible | free
              · cases impossible
              · rw [show world.hydration = some snapshot from reading] at free
                cases free }
  · cases stepped

theorem hydrationRead (sound : world.Sound)
    (stepped : world.hydrationRead = some next) : next.Sound := by
  rw [ExpiryWorld.hydrationRead] at stepped
  split at stepped
  · cases stepped
  split at stepped
  · next unwritten =>
      cases stepped
      exact { sound with
        snapshot := by
          intro snapshot reading
          cases reading
          refine ⟨rfl, fun backend change found => ?_⟩
          exact unwritten ⟨backend, change⟩ (AList.mem_lookup_iff.mp found) }
  · cases stepped

theorem hydrationApply (sound : world.Sound)
    (stepped : world.hydrationApply = some next) : next.Sound := by
  rw [ExpiryWorld.hydrationApply] at stepped
  split at stepped
  · cases stepped
  next snapshot reading =>
  cases stepped
  rcases sound.snapshot snapshot reading with ⟨rfl, _⟩
  exact { sound with
    wellFormed := (ExpirySnapshot.install_spec sound.roles world.cache).1
    exact := exact_install sound.roles world.cache }

theorem step {action : ExpiryAction} (sound : world.Sound)
    (stepped : world.step action = some next) : next.Sound := by
  cases action with
  | execute backend circumstances attempts history request =>
      exact sound.execute stepped
  | commit backend => exact sound.commit stepped
  | abort backend =>
      cases stepped
      exact sound.close backend
  | login username now flags answer => exact sound.login stepped
  | persistGrace username generation => exact sound.persistGrace stepped
  | hydrationRead => exact sound.hydrationRead stepped
  | hydrationApply => exact sound.hydrationApply stepped
  | hydrationEnd =>
      cases stepped
      exact { sound with snapshot := fun _ found => by cases found }
  | markNotReady =>
      cases stepped
      exact { sound with
        wellFormed := sound.wellFormed
        exact := fun ready => by cases ready }
  | markWorkerFailed =>
      cases stepped
      exact { sound with
        wellFormed := sound.wellFormed
        exact := fun ready => by cases ready }

end Sound

end ExpiryWorld

/-! ## What the login is told -/

inductive Verdict
  | unknown
  | noDeadline
  | current
  | expired
  deriving DecidableEq, Repr

def cachedVerdict : Expiry.ExpiryDecision → Verdict
  | .cacheUnavailable => .unknown
  | .noRow => .noDeadline
  | .notExpired => .current
  | .expiredWithGrace => .expired
  | .expiredNoGrace => .expired

def committedVerdict (table : PasswordExpiry) (username : String)
    (now : TimestampTz) : Verdict :=
  match committedDeadline table username with
  | none => .noDeadline
  | some deadline => if deadline.mustChangeBy > now then .current else .expired

/-- In every reachable state with a ready cache, the cached deadline and
generation of every role are those of its committed row, and the lookup gives
the verdict of that row. -/
theorem run_ready_deadlinesExact {table : PasswordExpiry}
    (roles : table.RoleNames) (complete : Complete table)
    {actions : List ExpiryAction} {world : ExpiryWorld}
    (completed : ExpiryWorld.machine.run (.start table) actions = some world)
    (ready : world.cache.readState = .ready) {username : String}
    (isRole : IsRoleName username) (now : TimestampTz) :
    cachedDeadline world.cache (encodeUsername username) =
        committedDeadline world.table username ∧
      cachedVerdict (world.cache.lookup username now) =
        committedVerdict world.table username now := by
  have sound : world.Sound := Machine.run_invariant
    (fun {state} {_} {_} (sound : ExpiryWorld.Sound state) stepped =>
      sound.step stepped)
    (ExpiryWorld.sound_start roles complete) completed
  have same := sound.exact ready username isRole
  refine ⟨same, ?_⟩
  rw [committedVerdict, ← same, ExpiryCache.lookup, if_neg (by simp [ready]),
    cachedDeadline, ExpiryCache.held]
  cases contents ExpiryEntry.owner world.cache.entries
      (encodeUsername username) with
  | none => rfl
  | some entry =>
      change cachedVerdict (Expiry.classify entry now) =
        if entry.mustChangeBy > now then .current else .expired
      rw [Expiry.classify]
      by_cases current : entry.mustChangeBy > now
      · rw [if_pos current, if_pos current]
        rfl
      · rw [if_neg current, if_neg current]
        split <;> rfl

def ninetyDays : Circumstances where
  currentUser := "postgres"
  isSuperuser := true
  roles := []
  roles_named := fun _ member => by cases member
  policy := ⟨false, false, 5, 3⟩
  digests := ⟨fun _ _ _ => .ok "", fun _ _ => none, fun text => text⟩
  calendar := .utc
  settings := ⟨0, 0, 90, 3, 10⟩
  draw := ⟨[], 1, 5, 6⟩
  decidedAt := 7

def aliceText : SqlText where
  value := "alice"
  nulFree := by decide +kernel

/-- A password change commits into a hydrated cache after another one of the
same role was rolled back. -/
def changedAfterHydration : List ExpiryAction :=
  [.hydrationRead, .hydrationApply, .hydrationEnd,
    .execute 1 ninetyDays ∅ [] (.recordPasswordChange aliceText aliceText),
    .abort 1,
    .execute 2 ninetyDays ∅ [] (.recordPasswordChange aliceText aliceText),
    .commit 2]

theorem changedAfterHydration_exact :
    ∃ world, ExpiryWorld.machine.run (.start ∅) changedAfterHydration =
        some world ∧ world.cache.readState = .ready ∧
      committedDeadline world.table "alice" = some ⟨7776000000006, 6⟩ ∧
      cachedDeadline world.cache (encodeUsername "alice") =
        some ⟨7776000000006, 6⟩ ∧
      cachedVerdict (world.cache.lookup "alice" 8) = .current := by
  have summary : (ExpiryWorld.machine.run (.start ∅)
      changedAfterHydration).map (fun world => (world.cache.readState,
        committedDeadline world.table "alice")) =
      some (.ready, some ⟨7776000000006, 6⟩) := by decide +kernel
  rcases Option.map_eq_some_iff.mp summary with ⟨world, completed, read⟩
  simp only [Prod.mk.injEq] at read
  rcases read with ⟨ready, committed⟩
  have isRole : IsRoleName "alice" := by decide +kernel
  rcases run_ready_deadlinesExact (fun _ found => by cases found)
    (fun _ _ found => by cases found) completed ready isRole 8 with
    ⟨cached, verdict⟩
  refine ⟨world, completed, ready, committed, cached.trans committed, ?_⟩
  rw [verdict, committedVerdict, committed]
  decide

end PasswordProfile.Administration
