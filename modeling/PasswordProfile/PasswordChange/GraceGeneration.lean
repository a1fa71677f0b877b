import PasswordProfile.Expiry.GraceLedger
import PasswordProfile.PasswordChange.RecordPasswordChange

/-! # Which password a grace login is charged to

A grace event names its password by the generation that was cached at login,
and may stay in the journal while the password is changed any number of times.
The cache may be told of a change late, again, or by a hydration.
-/

namespace PasswordProfile.PasswordChange.GraceGeneration

open AuthEvent Execution Expiry

structure Queued where
  event : GraceEvent
  change : Nat
  deriving DecidableEq

/-- A grace login taken from the row: the change it was consumed against and
the change that wrote the row. -/
structure Charge where
  consumed : Nat
  writer : Option Nat
  deriving DecidableEq, Repr

/-- The state of one user. A change is the index of its generation among all
that were assigned. -/
structure World where
  table : PasswordExpiry
  cache : ExpiryCache
  journal : List Queued
  assigned : List TimestampTz
  /-- The change that wrote the row. -/
  writer : Option Nat
  /-- The change whose entry was cached last. -/
  cachedFrom : Nat
  charges : List Charge

/-- The database without a row of the user, and a cache without its entry. -/
def start (table : PasswordExpiry) (cache : ExpiryCache) : World where
  table
  cache
  journal := []
  assigned := []
  writer := none
  cachedFrom := 0
  charges := []

inductive Action
  | passwordChange (settings : Settings) (clock : TimestampTz)
  | removeRoleState
  /-- An entry of some earlier change reaches the cache. -/
  | publish (change : Nat) (mustChangeBy : TimestampTz) (graceRemaining : Int)
  | unpublish
  | consumeGrace (now : TimestampTz) (flags : EventFlags) (step : EnqueueStep)
      (leavesRecord : Bool)
  /-- The worker applies an event of the journal. -/
  | persist (index : Nat)

namespace World

variable (username : String)

def passwordChange (calendar : Calendar) (world : World) (settings : Settings)
    (clock : TimestampTz) : Option World :=
  match recordExpiry calendar settings world.table .new username clock with
  | .error _ => none
  | .ok (table, _) =>
      if settings.passwordExpiryDays > 0 then
        some { world with
          table
          assigned :=
            world.assigned ++ [generation world.table username clock]
          writer := some world.assigned.length }
      else some { world with table, writer := none }

def publish (world : World) (change : Nat) (mustChangeBy : TimestampTz)
    (graceRemaining : Int) : Option World :=
  match world.assigned[change]? with
  | none => none
  | some generation =>
      some { world with
        cache := (world.cache.setEntry (encodeUsername username) mustChangeBy
          generation graceRemaining).1
        cachedFrom := change }

def consumeGrace (world : World) (now : TimestampTz) (flags : EventFlags)
    (step : EnqueueStep) (leavesRecord : Bool) : World :=
  let attempt := world.cache.tryConsumeGrace username now flags step
  { world with
    cache := attempt.cache
    journal :=
      if step.outcome.isDurable || leavesRecord then
        world.journal ++
          attempt.offered.toList.map fun event => ⟨event, world.cachedFrom⟩
      else world.journal }

def persist (world : World) (index : Nat) : Option World :=
  match world.journal[index]? with
  | none => none
  | some queued =>
      match usernameFromBytes queued.event.username.toList with
      | none => none
      | some name =>
          match persistGraceConsumption world.table name
              queued.event.generation with
          | .error _ => some world
          | .ok table =>
              some { world with
                table
                journal := world.journal.eraseIdx index
                charges :=
                  if table.lookup username = world.table.lookup username then
                    world.charges
                  else
                    world.charges ++ [⟨queued.change, world.writer⟩] }

def step (calendar : Calendar) (world : World) : Action → Option World
  | .passwordChange settings clock =>
      world.passwordChange username calendar settings clock
  | .removeRoleState =>
      some { world with table := world.table.erase username, writer := none }
  | .publish change mustChangeBy graceRemaining =>
      world.publish username change mustChangeBy graceRemaining
  | .unpublish =>
      some { world with
        cache := (world.cache.clearEntry (encodeUsername username)).1 }
  | .consumeGrace now flags step leavesRecord =>
      some (world.consumeGrace username now flags step leavesRecord)
  | .persist index => world.persist username index

def machine (calendar : Calendar) : Machine World Action :=
  ⟨step username calendar⟩

/-- No generation was assigned twice, the row has the last one, and every
grace login was taken from the password it was consumed against. -/
structure KeepsGenerations (world : World) : Prop where
  fresh : world.assigned.Nodup
  current : ∀ row, world.table.lookup username = some row →
    row.lastChanged = world.assigned.getLast?
  charged : ∀ charge ∈ world.charges,
    charge.writer = some charge.consumed

/-- A change that finds no row reads a clock that is ahead of every generation
of the user. -/
def ClockAhead (world : World) : Action → Prop
  | .passwordChange settings clock =>
      0 < settings.passwordExpiryDays →
        world.table.lookup username = none →
          ∀ generation ∈ world.assigned, generation < clock
  | _ => True

instance (world : World) (action : Action) :
    Decidable (world.ClockAhead username action) :=
  match action with
  | .passwordChange _ _ => inferInstanceAs (Decidable (_ → _))
  | .removeRoleState => .isTrue trivial
  | .publish .. => .isTrue trivial
  | .unpublish => .isTrue trivial
  | .consumeGrace .. => .isTrue trivial
  | .persist _ => .isTrue trivial

/-! ## Generations only grow -/

structure Ordered (world : World) : Prop where
  wellFormed : world.cache.WellFormed
  increasing : world.assigned.Pairwise (· < ·)
  row : ∀ row, world.table.lookup username = some row →
    ∃ change, world.writer = some change ∧
      change + 1 = world.assigned.length ∧
      row.lastChanged = world.assigned[change]?
  cached : ∀ entry,
    world.cache.held (encodeUsername username) = some entry →
      world.assigned[world.cachedFrom]? = some entry.generation
  journal : ∀ queued ∈ world.journal,
    world.assigned[queued.change]? = some queued.event.generation
  charged : ∀ charge ∈ world.charges,
    charge.writer = some charge.consumed

section Steps

variable {username} {calendar : Calendar} {world next : World}

theorem Ordered.keepsGenerations (ordered : world.Ordered username) :
    world.KeepsGenerations username where
  fresh := ordered.increasing.imp ne_of_lt
  current := by
    intro row found
    rcases ordered.row row found with ⟨change, _, last, changed⟩
    rw [changed, List.getLast?_eq_getElem?, ← last, Nat.add_sub_cancel]
  charged := ordered.charged

theorem Ordered.lt_generation (ordered : world.Ordered username)
    {clock : TimestampTz}
    (ahead : world.table.lookup username = none →
      ∀ generation ∈ world.assigned, generation < clock) :
    ∀ earlier ∈ world.assigned,
      earlier < generation world.table username clock := by
  intro earlier member
  cases found : world.table.lookup username with
  | none =>
      rw [generation_eq_clock found]
      exact ahead found earlier member
  | some row =>
      rcases ordered.row row found with ⟨change, _, last, changed⟩
      have bound : change < world.assigned.length := by omega
      rw [List.getElem?_eq_getElem bound] at changed
      have grows := @PasswordChange.lt_generation world.table username clock
        row _ found changed
      rcases List.mem_iff_getElem.mp member with ⟨index, inside, rfl⟩
      rcases Nat.lt_or_ge index change with before | after
      · exact lt_trans (List.pairwise_iff_getElem.mp ordered.increasing index
          change inside bound before) grows
      · have same : index = change := by omega
        subst same
        exact grows

/-- Everything a password change can do. -/
theorem passwordChange_cases {settings : Settings} {clock : TimestampTz}
    (changed : world.passwordChange username calendar settings clock =
      some next) :
    (0 < settings.passwordExpiryDays ∧
      next = { world with
        table := world.table.insert username (expiryRow calendar settings
          (generation world.table username clock))
        assigned := world.assigned ++ [generation world.table username clock]
        writer := some world.assigned.length }) ∨
    (¬0 < settings.passwordExpiryDays ∧
      next = { world with
        table := world.table.erase username
        writer := none }) := by
  rw [World.passwordChange] at changed
  split at changed
  · cases changed
  next table pending recorded =>
  rcases recordExpiry_cases recorded with
    ⟨enabled, rfl, _⟩ | ⟨disabled, rfl, _⟩
  · rw [if_pos enabled] at changed
    exact .inl ⟨enabled, (Option.some.inj changed).symm⟩
  · rw [if_neg disabled] at changed
    exact .inr ⟨disabled, (Option.some.inj changed).symm⟩

theorem Ordered.passwordChange (ordered : world.Ordered username)
    {settings : Settings} {clock : TimestampTz}
    (ahead : world.ClockAhead username (.passwordChange settings clock))
    (changed : world.passwordChange username calendar settings clock =
      some next) : next.Ordered username := by
  rcases passwordChange_cases changed with ⟨enabled, rfl⟩ | ⟨_, rfl⟩
  · have kept : ∀ {change : Nat} {generation : TimestampTz},
        world.assigned[change]? = some generation →
          (world.assigned ++ [PasswordChange.generation world.table username
            clock])[change]? = some generation := by
      intro change generation found
      rw [List.getElem?_append_left (List.getElem?_eq_some_iff.mp found).1]
      exact found
    exact {
      wellFormed := ordered.wellFormed
      increasing := by
        rw [List.pairwise_append]
        refine ⟨ordered.increasing, List.pairwise_singleton _ _, ?_⟩
        intro earlier member last isLast
        rw [List.mem_singleton.mp isLast]
        exact ordered.lt_generation (ahead enabled) earlier member
      row := by
        intro row found
        rw [AList.lookup_insert] at found
        cases found
        exact ⟨_, rfl, by simp, by simp [expiryRow]⟩
      cached := fun entry held => kept (ordered.cached entry held)
      journal := fun queued member => kept (ordered.journal queued member)
      charged := ordered.charged }
  · exact { ordered with
      row := by
        intro row found
        rw [AList.lookup_erase] at found
        cases found }

theorem Ordered.recache (ordered : world.Ordered username)
    {cache : ExpiryCache} {change : Nat} (wellFormed : cache.WellFormed)
    (cached : ∀ entry, cache.held (encodeUsername username) = some entry →
      world.assigned[change]? = some entry.generation) :
    World.Ordered username { world with cache, cachedFrom := change } :=
  { ordered with wellFormed, cached }

theorem Ordered.publish (ordered : world.Ordered username) {change : Nat}
    {mustChangeBy : TimestampTz} {graceRemaining : Int}
    (published : world.publish username change mustChangeBy graceRemaining =
      some next) : next.Ordered username := by
  rw [World.publish] at published
  split at published
  · cases published
  next generation assigned =>
  cases published
  rcases ordered.wellFormed.setEntry_cases (encodeUsername username)
      mustChangeBy generation graceRemaining with
    ⟨_, concerns⟩ | ⟨_, entries, missing, _⟩
  · apply ordered.recache concerns.wellFormed
    intro entry held
    rw [concerns.here] at held
    rw [← Option.some.inj held]
    exact assigned
  · -- A refused entry leaves the cache without one for the user.
    apply ordered.recache
    · rw [ExpiryCache.WellFormed, entries]
      exact ordered.wellFormed
    · intro entry held
      rw [ExpiryCache.held, entries] at held
      rw [ExpiryCache.held, held] at missing
      cases missing

theorem Ordered.unpublish (ordered : world.Ordered username) :
    World.Ordered username { world with
      cache := (world.cache.clearEntry (encodeUsername username)).1 } := by
  have concerns :=
    ordered.wellFormed.clearEntry_concerns (encodeUsername username)
  apply ordered.recache concerns.wellFormed
  intro entry held
  rw [concerns.here] at held
  cases held

theorem Ordered.offered (ordered : world.Ordered username)
    {now : TimestampTz} {flags : EventFlags} {step : EnqueueStep}
    {event : GraceEvent}
    (offered : (world.cache.tryConsumeGrace username now flags step).offered =
      some event) :
    world.assigned[world.cachedFrom]? = some event.generation := by
  rcases ordered.wellFormed.tryConsumeGrace_cases username now flags step rfl
    with ⟨_, entry, consumes⟩ | declines
  · rw [consumes.offered] at offered
    rw [← Option.some.inj offered]
    exact ordered.cached entry consumes.held
  · rcases declines.offered with nothing | ⟨_, entry, held, event⟩
    · rw [nothing] at offered
      cases offered
    · rw [event] at offered
      rw [← Option.some.inj offered]
      exact ordered.cached entry held

theorem Ordered.attempted (ordered : world.Ordered username)
    (now : TimestampTz) (flags : EventFlags) (step : EnqueueStep) :
    World.Ordered username { world with
      cache :=
        (world.cache.tryConsumeGrace username now flags step).cache } := by
  rcases ordered.wellFormed.tryConsumeGrace_cases username now flags step rfl
    with ⟨_, entry, consumes⟩ | declines
  · apply ordered.recache consumes.wellFormed
    intro after held
    rw [consumes.after, if_pos rfl] at held
    rw [← Option.some.inj held]
    exact ordered.cached entry consumes.held
  · rw [declines.unchanged]
    exact ordered

theorem Ordered.consumeGrace (ordered : world.Ordered username)
    (now : TimestampTz) (flags : EventFlags) (step : EnqueueStep)
    (leavesRecord : Bool) :
    (world.consumeGrace username now flags step leavesRecord).Ordered
      username := by
  have journal : ∀ queued ∈
      (world.consumeGrace username now flags step leavesRecord).journal,
      world.assigned[queued.change]? = some queued.event.generation := by
    intro queued member
    rw [World.consumeGrace] at member
    dsimp only at member
    split at member
    · rcases List.mem_append.mp member with earlier | offered
      · exact ordered.journal queued earlier
      · rcases List.mem_map.mp offered with ⟨event, isOffered, rfl⟩
        exact ordered.offered (Option.mem_toList.mp isOffered)
    · exact ordered.journal queued member
  exact { ordered.attempted now flags step with journal }

theorem Ordered.writer_eq (ordered : world.Ordered username) {row : ExpiryRow}
    (found : world.table.lookup username = some row) {queued : Queued}
    (member : queued ∈ world.journal)
    (generated : row.lastChanged = some queued.event.generation) :
    world.writer = some queued.change := by
  rcases ordered.row row found with ⟨change, isWriter, last, changed⟩
  have distinct : world.assigned.Nodup := ordered.keepsGenerations.fresh
  have same : world.assigned[change]? = world.assigned[queued.change]? := by
    rw [← changed, generated, ordered.journal queued member]
  have bound : change < world.assigned.length := by omega
  rw [isWriter, (List.getElem?_inj bound distinct).mp same]

theorem Ordered.persist (ordered : world.Ordered username) {index : Nat}
    (persisted : world.persist username index = some next) :
    next.Ordered username := by
  rw [World.persist] at persisted
  split at persisted
  · cases persisted
  next queued isQueued =>
  split at persisted
  · cases persisted
  next name decoded =>
  split at persisted
  · cases persisted
    exact ordered
  next table applied =>
  cases persisted
  have member := List.mem_of_getElem? isQueued
  have journal : ∀ other ∈ world.journal.eraseIdx index,
      world.assigned[other.change]? = some other.event.generation :=
    fun other kept => ordered.journal other (List.mem_of_mem_eraseIdx kept)
  by_cases same : table.lookup username = world.table.lookup username
  · rw [if_pos same]
    exact { ordered with
      journal
      row := fun row found => ordered.row row (same ▸ found) }
  · -- Only an event for this very name can have changed the row.
    have isUser : name = username := by
      by_contra different
      exact same (persistGraceConsumption_frame applied (Ne.symm different))
    subst isUser
    rcases persistGraceConsumption_cases applied with
      rfl | ⟨row, remaining, found, generated, _, _, rfl⟩
    · exact absurd rfl same
    rw [if_neg same]
    exact { ordered with
      journal
      row := by
        intro after lookup
        rw [AList.lookup_insert] at lookup
        cases lookup
        exact ordered.row row found
      charged := by
        intro charge charged
        rcases List.mem_append.mp charged with earlier | last
        · exact ordered.charged charge earlier
        · rw [List.mem_singleton.mp last]
          exact ordered.writer_eq found member generated }

theorem Ordered.step {action : Action} (ordered : world.Ordered username)
    (ahead : world.ClockAhead username action)
    (stepped : (machine username calendar).step world action = some next) :
    next.Ordered username := by
  cases action with
  | passwordChange settings clock =>
      exact ordered.passwordChange ahead stepped
  | removeRoleState =>
      cases stepped
      exact { ordered with
        row := by
          intro row found
          rw [AList.lookup_erase] at found
          cases found }
  | publish change mustChangeBy graceRemaining =>
      exact ordered.publish stepped
  | unpublish =>
      cases stepped
      exact ordered.unpublish
  | consumeGrace now flags step leavesRecord =>
      cases stepped
      exact ordered.consumeGrace now flags step leavesRecord
  | persist index => exact ordered.persist stepped

end Steps

theorem ordered_start {username : String} {table : PasswordExpiry}
    {cache : ExpiryCache} (absent : table.lookup username = none)
    (wellFormed : cache.WellFormed)
    (uncached : cache.held (encodeUsername username) = none) :
    (start table cache).Ordered username where
  wellFormed := wellFormed
  increasing := .nil
  row := by
    intro row found
    rw [start, absent] at found
    cases found
  cached := by
    intro entry held
    rw [start, uncached] at held
    cases held
  journal := fun _ member => by cases member
  charged := fun _ member => by cases member

end World

open World

/-- As long as every change that finds no row reads a clock ahead of all the
user's generations, no grace event is ever charged to another password. -/
theorem run_keepsGenerations {username : String} {calendar : Calendar}
    {table : PasswordExpiry} {cache : ExpiryCache} {actions : List Action}
    {world : World} (absent : table.lookup username = none)
    (wellFormed : cache.WellFormed)
    (uncached : cache.held (encodeUsername username) = none)
    (ahead : (machine username calendar).EveryStep (ClockAhead username)
      (start table cache) actions)
    (completed : (machine username calendar).run (start table cache) actions =
      some world) : world.KeepsGenerations username :=
  (Machine.run_invariant_of_everyStep Ordered.step
    (ordered_start absent wellFormed uncached) ahead completed).keepsGenerations

/-- A change that is behind lets a later reading of the clock assign one of the
old generations again. -/
theorem repeats_of_behind {username : String} {calendar : Calendar}
    {world final : World} {settings : Settings} {clock earlier : TimestampTz}
    (enabled : 0 < settings.passwordExpiryDays)
    (absent : world.table.lookup username = none)
    (member : earlier ∈ world.assigned) (behind : clock ≤ earlier)
    (completed : (machine username calendar).run world
      [.passwordChange settings clock, .passwordChange settings earlier] =
        some final) : ¬final.KeepsGenerations username := by
  rcases Machine.run_cons_eq_some.mp completed with ⟨middle, first, later⟩
  rcases Machine.run_cons_eq_some.mp later with ⟨_, second, ended⟩
  cases ended
  rcases passwordChange_cases first with ⟨_, rfl⟩ | ⟨disabled, _⟩
  swap
  · exact absurd enabled disabled
  rcases passwordChange_cases second with ⟨_, rfl⟩ | ⟨disabled, _⟩
  swap
  · exact absurd enabled disabled
  intro keeps
  have distinct := List.nodup_append.mp keeps.fresh
  rw [generation_eq_clock absent] at distinct
  rcases eq_or_lt_of_le behind with same | before
  · have once := List.nodup_append.mp distinct.1
    exact once.2.2 earlier member clock (List.mem_singleton_self _) same.symm
  · have again : generation (world.table.insert username
        (expiryRow calendar settings clock)) username earlier = earlier := by
      rw [generation, AList.lookup_insert, Option.bind_some, expiryRow]
      exact max_eq_left before
    rw [again] at distinct
    exact distinct.2.2 earlier (List.mem_append_left _ member) earlier
      (List.mem_singleton_self _) rfl

/-- Expiry after a day, with one grace login. -/
def oneDay : Settings where
  passwordHistoryCount := 5
  passwordReuseDays := 90
  passwordExpiryDays := 1
  passwordGraceLogins := 1
  bcryptCost := 10

def unlimited : Settings := { oneDay with passwordExpiryDays := 0 }

def readyCache : ExpiryCache := ExpiryCache.init.setState .ready

/-- A grace login is journaled, the row is deleted by a change without expiry,
and the clock reads `clock` at the next change with expiry. -/
def acrossDeletion (clock : TimestampTz) : List Action :=
  [.passwordChange oneDay 5,
    .publish 0 (Calendar.utc.plusDays 5 1) 1,
    .consumeGrace (Calendar.utc.plusDays 5 1) .none ⟨.enqueued, false⟩ false,
    .passwordChange unlimited 100000000000, .unpublish,
    .passwordChange oneDay clock, .persist 0]

/-- With the clock back at its first reading, the old event takes the grace
login of the new password. -/
theorem acrossDeletion_charges_later :
    ∃ world, (machine "alice" .utc).run (start ∅ readyCache)
        (acrossDeletion 5) = some world ∧
      world.assigned = [5, 5] ∧
      world.charges = [⟨0, some 1⟩] ∧
      (world.table.lookup "alice").map ExpiryRow.graceLoginsRemaining =
        some (some 0) ∧
      ¬world.KeepsGenerations "alice" := by
  have summary : ((machine "alice" .utc).run (start ∅ readyCache)
      (acrossDeletion 5)).map (fun world =>
        (world.assigned, world.charges, (world.table.lookup "alice").map
          ExpiryRow.graceLoginsRemaining)) =
      some ([5, 5], [⟨0, some 1⟩], some (some 0)) := by decide +kernel
  rcases Option.map_eq_some_iff.mp summary with ⟨world, completed, read⟩
  simp only [Prod.mk.injEq] at read
  rcases read with ⟨assigned, charges, grace⟩
  refine ⟨world, completed, assigned, charges, grace, fun keeps => ?_⟩
  have distinct := keeps.fresh
  rw [assigned] at distinct
  exact absurd distinct (by decide)

/-- The same steps with the clock ahead: the event is dropped. -/
theorem acrossDeletion_keepsGenerations :
    ∃ world, (machine "alice" .utc).run (start ∅ readyCache)
        (acrossDeletion 200000000000) = some world ∧
      world.assigned = [5, 200000000000] ∧ world.charges = [] ∧
      world.KeepsGenerations "alice" := by
  have summary : ((machine "alice" .utc).run (start ∅ readyCache)
      (acrossDeletion 200000000000)).map (fun world =>
        (world.assigned, world.charges)) =
      some ([5, 200000000000], []) := by decide +kernel
  rcases Option.map_eq_some_iff.mp summary with ⟨world, completed, read⟩
  simp only [Prod.mk.injEq] at read
  refine ⟨world, completed, read.1, read.2, ?_⟩
  have ahead : (machine "alice" .utc).EveryStep (ClockAhead "alice")
      (start ∅ readyCache) (acrossDeletion 200000000000) := by
    decide +kernel
  have wellFormed : readyCache.WellFormed := ExpiryCache.wellFormed_init
  have uncached : readyCache.held (encodeUsername "alice") = none :=
    ExpiryCache.held_init _
  exact run_keepsGenerations (AList.lookup_empty _) wellFormed uncached ahead
    completed

end PasswordProfile.PasswordChange.GraceGeneration
