import PasswordProfile.Expiry.PasswordExpiry
import PasswordProfile.Foundation.Execution

/-! # Conservation of grace logins

The remaining allowance of a password is spread over the row, the cached entry
and the journaled events that the worker has not applied yet. Logins move a
grace login from the cache to the journal and the worker moves it from the
journal to the row; hydration copies the row into the cache.
-/

namespace PasswordProfile.Expiry

open AuthEvent Execution

/-- A complete record in the journal. `admitted` only records whether the
append was reported as a success, so that the login was admitted. -/
structure JournaledGrace where
  event : GraceEvent
  admitted : Bool
  deriving DecidableEq

def JournaledGrace.isFor (username : EncodedUsername)
    (generation : TimestampTz) (record : JournaledGrace) : Bool :=
  record.event.username == username && record.event.generation == generation

/-- `consumed` and `contradicted` only record what has happened: the logins
that obtained `Consumed`, and the records for which the worker found that the
row has none left. -/
structure World where
  table : PasswordExpiry
  cache : ExpiryCache
  journal : List JournaledGrace
  hydration : Option ExpirySnapshot
  consumed : List (EncodedUsername × TimestampTz)
  contradicted : List JournaledGrace

/-- The enqueue answers `step`; an append that fails after its write leaves the
record behind. -/
inductive Action
  | login (username : String) (now : TimestampTz) (flags : EventFlags)
      (step : EnqueueStep) (leavesRecord : Bool)
  | applyEvent (commits : Bool)
  | hydrationRead
  | hydrationInstall
  | hydrationFailed
  | workerRestart
  | postmasterRestart

namespace World

def start (table : PasswordExpiry) (cache : ExpiryCache) : World where
  table
  cache
  journal := []
  hydration := none
  consumed := []
  contradicted := []

def journaled (attempt : ExpiryCache.GraceAttempt) (step : EnqueueStep)
    (leavesRecord : Bool) : List JournaledGrace :=
  match attempt.offered with
  | none => []
  | some event =>
      if step.outcome.isDurable then [⟨event, true⟩]
      else if leavesRecord then [⟨event, false⟩]
      else []

/-- The log entry of an attempt that obtained `Consumed`. -/
def logged (attempt : ExpiryCache.GraceAttempt) :
    List (EncodedUsername × TimestampTz) :=
  if attempt.result.outcome = .consumed then
    attempt.offered.toList.map fun event => (event.username, event.generation)
  else []

def login (world : World) (username : String) (now : TimestampTz)
    (flags : EventFlags) (step : EnqueueStep) (leavesRecord : Bool) :
    Option World :=
  if IsRoleName username then
    let attempt := world.cache.tryConsumeGrace username now flags step
    some { world with
      cache := attempt.cache
      journal := world.journal ++ journaled attempt step leavesRecord
      consumed := world.consumed ++ logged attempt }
  else none

def applyEvent (world : World) (commits : Bool) : Option World :=
  match world.hydration, world.journal with
  | none, first :: rest =>
      match usernameFromBytes first.event.username.toList with
      | none => none
      | some username =>
          match persistGraceConsumption world.table username
              first.event.generation with
          | .ok written =>
              if commits then
                some { world with table := written, journal := rest }
              else some world
          | .error message =>
              if message = noneLeftError then
                some { world with
                  contradicted := world.contradicted ++ [first] }
              else some world
  | _, _ => none

def hydrationRead (world : World) : Option World :=
  match world.hydration with
  | some _ => none
  | none => some { world with hydration := some (.read world.table) }

def hydrationInstall (world : World) : Option World :=
  match world.hydration with
  | none => none
  | some snapshot =>
      some { world with
        cache := (snapshot.install world.cache).1
        hydration := none }

def hydrationFailed (world : World) : Option World :=
  some { world with
    cache := world.cache.setState .notReady
    hydration := none }

def workerRestart (world : World) : Option World :=
  some { world with hydration := none }

def postmasterRestart (world : World) : Option World :=
  some { world with cache := .init, hydration := none }

def step (world : World) : Action → Option World
  | .login username now flags answer leavesRecord =>
      world.login username now flags answer leavesRecord
  | .applyEvent commits => world.applyEvent commits
  | .hydrationRead => world.hydrationRead
  | .hydrationInstall => world.hydrationInstall
  | .hydrationFailed => world.hydrationFailed
  | .workerRestart => world.workerRestart
  | .postmasterRestart => world.postmasterRestart

def machine : Machine World Action := ⟨step⟩

def unapplied (world : World) (username : String) (generation : TimestampTz) :
    Nat :=
  world.journal.countP (·.isFor (encodeUsername username) generation)

def consumptions (world : World) (username : String)
    (generation : TimestampTz) : Nat :=
  world.consumed.count (encodeUsername username, generation)

/-- No more grace logins than the allowance, and no admitted one that the row
contradicts. -/
def Conserves (world : World) (username : String) (generation : TimestampTz)
    (allowance : Int) : Prop :=
  world.consumptions username generation ≤ allowance ∧
    ∀ record ∈ world.contradicted,
      record.isFor (encodeUsername username) generation = true →
        record.admitted = false

/-- The row of a password that has just been changed, before anybody has used
its allowance. -/
structure Written (world : World) (username : String)
    (generation : TimestampTz) (allowance : Int) : Prop where
  role : IsRoleName username
  roles : world.table.RoleNames
  row : ∃ row, world.table.lookup username = some row ∧
    row.lastChanged = some generation ∧
    row.graceLoginsRemaining = some allowance
  nonnegative : 0 ≤ allowance
  wellFormed : world.cache.WellFormed
  cached : ∀ entry, world.cache.held (encodeUsername username) = some entry →
    entry.generation = generation → entry.graceRemaining ≤ allowance
  named : ∀ record ∈ world.journal, ∃ name, IsRoleName name ∧
    record.event.username = encodeUsername name
  unapplied : world.unapplied username generation = 0
  unconsumed : world.consumptions username generation = 0
  uncontradicted : world.contradicted = []
  idle : world.hydration = none

/-- The row is only installed when all its events have been applied, and no
append that is reported as a failure leaves a record of the user behind. -/
def Settled (username : String) (generation : TimestampTz) (world : World) :
    Action → Prop
  | .login name _ _ answer leavesRecord =>
      name = username → answer.outcome.isDurable = true ∨ leavesRecord = false
  | .hydrationInstall => world.unapplied username generation = 0
  | _ => True

instance (username : String) (generation : TimestampTz) (world : World)
    (action : Action) : Decidable (Settled username generation world action) :=
  match action with
  | .login name _ _ answer leavesRecord =>
      inferInstanceAs (Decidable (name = username →
        answer.outcome.isDurable = true ∨ leavesRecord = false))
  | .hydrationInstall =>
      inferInstanceAs (Decidable (world.unapplied username generation = 0))
  | .applyEvent _ => .isTrue trivial
  | .hydrationRead => .isTrue trivial
  | .hydrationFailed => .isTrue trivial
  | .workerRestart => .isTrue trivial
  | .postmasterRestart => .isTrue trivial

/-! ## The balance -/

structure Balanced (world : World) (username : String)
    (generation : TimestampTz) (allowance : Int) (row : ExpiryRow)
    (remaining : Int) : Prop where
  roles : world.table.RoleNames
  wellFormed : world.cache.WellFormed
  named : ∀ record ∈ world.journal, ∃ name, IsRoleName name ∧
    record.event.username = encodeUsername name
  snapshot : ∀ snapshot, world.hydration = some snapshot →
    snapshot = .read world.table
  found : world.table.lookup username = some row
  generated : row.lastChanged = some generation
  grace : row.graceLoginsRemaining = some remaining
  covered : (world.unapplied username generation : Int) ≤ remaining
  spent : world.consumptions username generation + remaining =
    allowance + world.unapplied username generation
  cached : ∀ entry, world.cache.held (encodeUsername username) = some entry →
    entry.generation = generation →
      entry.graceRemaining + world.unapplied username generation ≤ remaining
  uncontradicted : ∀ record ∈ world.contradicted,
    record.isFor (encodeUsername username) generation = false

def Balance (username : String) (generation : TimestampTz) (allowance : Int)
    (world : World) : Prop :=
  ∃ row remaining, world.Balanced username generation allowance row remaining

theorem Written.balance {world : World} {username : String}
    {generation : TimestampTz} {allowance : Int}
    (written : world.Written username generation allowance) :
    world.Balance username generation allowance := by
  rcases written.row with ⟨row, found, generated, grace⟩
  refine ⟨row, allowance, {
    roles := written.roles
    wellFormed := written.wellFormed
    named := written.named
    snapshot := ?_
    found := found
    generated := generated
    grace := grace
    covered := ?_
    spent := ?_
    cached := ?_
    uncontradicted := ?_ }⟩
  · intro snapshot reading
    rw [written.idle] at reading
    cases reading
  · rw [written.unapplied]
    exact written.nonnegative
  · rw [written.unapplied, written.unconsumed]
    simp
  · intro entry held generation
    rw [written.unapplied]
    simpa using written.cached entry held generation
  · rw [written.uncontradicted]
    exact fun _ member => by cases member

/-! ## Every settled step keeps the balance -/

section Steps

variable {world next : World} {username : String} {generation : TimestampTz}
  {allowance : Int} {row : ExpiryRow} {remaining : Int}

theorem Balanced.elsewhere
    (balanced : world.Balanced username generation allowance row remaining)
    {cache : ExpiryCache} {added : List JournaledGrace}
    {log : List (EncodedUsername × TimestampTz)}
    (wellFormed : cache.WellFormed)
    (named : ∀ record ∈ added, ∃ name, IsRoleName name ∧
      record.event.username = encodeUsername name)
    (foreign : ∀ record ∈ added,
      record.isFor (encodeUsername username) generation = false)
    (unlogged : (encodeUsername username, generation) ∉ log)
    (cached : ∀ entry, cache.held (encodeUsername username) = some entry →
      entry.generation = generation →
        world.cache.held (encodeUsername username) = some entry) :
    Balanced { world with
        cache
        journal := world.journal ++ added
        consumed := world.consumed ++ log }
      username generation allowance row remaining := by
  have waiting : (world.journal ++ added).countP
      (·.isFor (encodeUsername username) generation) =
        world.unapplied username generation := by
    have none : added.countP (·.isFor (encodeUsername username) generation) =
        0 := by
      apply List.countP_eq_zero.mpr
      intro record member
      simp [foreign record member]
    rw [List.countP_append, none]
    rfl
  have taken : (world.consumed ++ log).count
      (encodeUsername username, generation) =
        world.consumptions username generation := by
    rw [List.count_append, List.count_eq_zero.mpr unlogged]
    rfl
  exact { balanced with
    wellFormed := wellFormed
    named := fun record member =>
      (List.mem_append.mp member).elim (balanced.named record) (named record)
    covered := by
      rw [unapplied, waiting]
      exact balanced.covered
    spent := by
      rw [unapplied, waiting, consumptions, taken]
      exact balanced.spent
    cached := by
      intro entry held generated
      rw [unapplied, waiting]
      exact balanced.cached entry (cached entry held generated) generated }

theorem Balanced.consume
    (balanced : world.Balanced username generation allowance row remaining)
    (role : IsRoleName username) {entry : ExpiryEntry} {flags : EventFlags}
    {attempt : ExpiryCache.GraceAttempt}
    (consumes : attempt.Consumes world.cache (encodeUsername username) flags
      entry) (generated : entry.generation = generation) :
    Balanced { world with
        cache := attempt.cache
        journal := world.journal ++
          [⟨⟨encodeUsername username, flags, generation⟩, true⟩]
        consumed := world.consumed ++ [(encodeUsername username, generation)] }
      username generation allowance row remaining := by
  have waiting : List.countP
      (JournaledGrace.isFor (encodeUsername username) generation)
      (world.journal ++
        [⟨⟨encodeUsername username, flags, generation⟩, true⟩]) =
      world.unapplied username generation + 1 := by
    rw [List.countP_append, List.countP_cons_of_pos
      (by simp [JournaledGrace.isFor]), List.countP_nil]
    rfl
  have taken : (world.consumed ++
      [(encodeUsername username, generation)]).count
        (encodeUsername username, generation) =
      world.consumptions username generation + 1 := by
    rw [List.count_append]
    simp [consumptions]
  have before := balanced.cached entry consumes.held generated
  have grace := consumes.grace
  have spent := balanced.spent
  exact { balanced with
    wellFormed := consumes.wellFormed
    named := by
      intro record member
      rcases List.mem_append.mp member with earlier | here
      · exact balanced.named record earlier
      · rw [List.mem_singleton.mp here]
        exact ⟨username, role, rfl⟩
    covered := by
      rw [unapplied, waiting]
      omega
    spent := by
      rw [unapplied, waiting, consumptions, taken]
      omega
    cached := by
      intro left held _
      rw [consumes.after, if_pos rfl, Option.some.injEq] at held
      subst held
      rw [unapplied, waiting]
      simp only
      omega }

theorem Balance.login
    (balance : world.Balance username generation allowance)
    (role : IsRoleName username) {name : String} {now : TimestampTz}
    {flags : EventFlags} {answer : EnqueueStep} {leavesRecord : Bool}
    (settled : Settled username generation world
      (.login name now flags answer leavesRecord))
    (stepped : world.login name now flags answer leavesRecord = some next) :
    next.Balance username generation allowance := by
  rcases balance with ⟨row, remaining, balanced⟩
  rw [World.login] at stepped
  split at stepped
  · next nameRole =>
      cases stepped
      refine ⟨row, remaining, ?_⟩
      rcases balanced.wellFormed.tryConsumeGrace_cases name now flags answer
        rfl with ⟨durable, entry, consumes⟩ | declines
      · simp only [journaled, logged, consumes.offered, consumes.outcome,
          durable, if_true, Option.toList_some, List.map_cons, List.map_nil]
        by_cases hit : name = username ∧ entry.generation = generation
        · rcases hit with ⟨rfl, rfl⟩
          exact balanced.consume role consumes rfl
        · have apart : ¬(encodeUsername name = encodeUsername username ∧
              entry.generation = generation) := fun both =>
            hit ⟨encodeUsername_injective nameRole role both.1, both.2⟩
          apply balanced.elsewhere consumes.wellFormed
          · intro record member
            rw [List.mem_singleton.mp member]
            exact ⟨name, nameRole, rfl⟩
          · intro record member
            rw [List.mem_singleton.mp member]
            simpa [JournaledGrace.isFor] using apart
          · rw [List.mem_singleton, Prod.mk.injEq]
            exact fun both => apart ⟨both.1.symm, both.2.symm⟩
          · intro left held generated
            rw [consumes.after] at held
            split at held
            · next same =>
                cases held
                exact absurd ⟨same.symm, generated⟩ apart
            · exact held
      · have unlogged : logged (world.cache.tryConsumeGrace name now flags
            answer) = [] := if_neg declines.outcome
        rw [unlogged]
        apply balanced.elsewhere
        · rw [declines.unchanged]
          exact balanced.wellFormed
        · intro record member
          rcases declines.offered with none | ⟨_, entry, _, offered⟩
          · simp [journaled, none] at member
          · have record : record.event.username = encodeUsername name := by
              simp only [journaled, offered] at member
              split at member
              · rw [List.mem_singleton.mp member]
              split at member
              · rw [List.mem_singleton.mp member]
              · cases member
            exact ⟨name, nameRole, record⟩
        · intro record member
          rcases declines.offered with none | ⟨notDurable, entry, _, offered⟩
          · simp [journaled, none] at member
          · simp only [journaled, offered, notDurable, Bool.false_eq_true,
              if_false] at member
            split at member
            · next leaves =>
                -- such an append is excluded for the tracked user
                have other : name ≠ username := by
                  intro same
                  rcases settled same with durable | clean
                  · rw [notDurable] at durable
                    cases durable
                  · rw [leaves] at clean
                    cases clean
                have apart : encodeUsername name ≠ encodeUsername username :=
                  fun same =>
                    other (encodeUsername_injective nameRole role same)
                rw [List.mem_singleton.mp member]
                simp [JournaledGrace.isFor, apart]
            · cases member
        · exact List.not_mem_nil
        · intro entry held _
          rwa [declines.unchanged] at held
  · cases stepped

theorem Balanced.commitFirst
    (balanced : world.Balanced username generation allowance row remaining)
    {first : JournaledGrace} {rest : List JournaledGrace}
    (idle : world.hydration = none) (journal : world.journal = first :: rest)
    {table : PasswordExpiry} {written : ExpiryRow} {left : Int}
    (roles : table.RoleNames) (found : table.lookup username = some written)
    (generated : written.lastChanged = some generation)
    (grace : written.graceLoginsRemaining = some left)
    (taken : left + ((if first.isFor (encodeUsername username) generation = true
      then 1 else 0 : Nat) : Int) = remaining) :
    Balanced { world with table, journal := rest } username generation
      allowance written left := by
  have waiting : world.unapplied username generation =
      rest.countP (·.isFor (encodeUsername username) generation) +
        if first.isFor (encodeUsername username) generation = true
          then 1 else 0 := by
    rw [unapplied, journal, List.countP_cons]
  have after : unapplied { world with table, journal := rest } username
      generation = rest.countP
        (·.isFor (encodeUsername username) generation) := rfl
  have covered := balanced.covered
  have spent := balanced.spent
  rw [waiting] at covered spent
  exact {
    roles := roles
    wellFormed := balanced.wellFormed
    named := fun record member =>
      balanced.named record (by rw [journal]; exact .tail _ member)
    snapshot := by
      intro snapshot reading
      rw [idle] at reading
      cases reading
    found := found
    generated := generated
    grace := grace
    covered := by
      rw [after]
      omega
    spent := by
      rw [after]
      simp only [consumptions] at spent ⊢
      omega
    cached := by
      intro entry held same
      have before := balanced.cached entry held same
      rw [waiting] at before
      rw [after]
      omega
    uncontradicted := balanced.uncontradicted }

/-- The worker transaction of a record of the tracked password: the row has at
least one left, because this record still waits. -/
theorem Balanced.persist_own
    (balanced : world.Balanced username generation allowance row remaining)
    {first : JournaledGrace} {rest : List JournaledGrace}
    (journal : world.journal = first :: rest)
    (hit : first.isFor (encodeUsername username) generation = true) :
    persistGraceConsumption world.table username generation =
      .ok (world.table.insert username
        { row with graceLoginsRemaining := some (remaining - 1) }) := by
  apply persistGraceConsumption_decrements balanced.found balanced.generated
    balanced.grace
  have covered := balanced.covered
  rw [unapplied, journal, List.countP_cons_of_pos hit] at covered
  omega

theorem Balanced.persist_foreign
    (balanced : world.Balanced username generation allowance row remaining)
    {first : JournaledGrace} {name : String} {written : PasswordExpiry}
    (encoded : first.event.username = encodeUsername name)
    (foreign : first.isFor (encodeUsername username) generation ≠ true)
    (persisted : persistGraceConsumption world.table name
      first.event.generation = .ok written) :
    written.lookup username = some row := by
  by_cases same : name = username
  · subst same
    have stale : row.lastChanged ≠ some first.event.generation := by
      rw [balanced.generated]
      intro equal
      apply foreign
      simp [JournaledGrace.isFor, encoded, Option.some.inj equal]
    rw [persistGraceConsumption_stale balanced.found stale] at persisted
    cases persisted
    exact balanced.found
  · rw [persistGraceConsumption_frame persisted
      (fun equal => same equal.symm)]
    exact balanced.found

theorem Balance.applyEvent
    (balance : world.Balance username generation allowance)
    (role : IsRoleName username) {commits : Bool}
    (stepped : world.applyEvent commits = some next) :
    next.Balance username generation allowance := by
  rcases balance with ⟨row, remaining, balanced⟩
  rw [World.applyEvent] at stepped
  split at stepped
  · next first rest idle journal =>
      rcases balanced.named first (by simp [journal]) with
        ⟨name, nameRole, encoded⟩
      rw [encoded, usernameFromBytes_encodeUsername nameRole] at stepped
      dsimp only at stepped
      by_cases hit : first.isFor (encodeUsername username) generation = true
      · have same := hit
        simp only [JournaledGrace.isFor, Bool.and_eq_true, beq_iff_eq] at same
        have tracked : name = username := by
          rw [encoded] at same
          exact encodeUsername_injective nameRole role same.1
        have persisted := balanced.persist_own journal hit
        rw [tracked, same.2, persisted] at stepped
        dsimp only at stepped
        split at stepped
        · cases stepped
          exact ⟨_, remaining - 1, balanced.commitFirst idle journal
            (persistGraceConsumption_roleNames balanced.roles role persisted)
            (AList.lookup_insert _) balanced.generated rfl
            (by rw [if_pos hit]; omega)⟩
        · cases stepped
          exact ⟨row, remaining, balanced⟩
      · split at stepped
        · next written persisted =>
            split at stepped
            · cases stepped
              exact ⟨row, remaining, balanced.commitFirst idle journal
                (persistGraceConsumption_roleNames balanced.roles nameRole
                  persisted)
                (balanced.persist_foreign encoded hit persisted)
                balanced.generated balanced.grace
                (by rw [if_neg hit]; omega)⟩
            · cases stepped
              exact ⟨row, remaining, balanced⟩
        · split at stepped
          · cases stepped
            refine ⟨row, remaining, { balanced with
              uncontradicted := fun record member => ?_ }⟩
            rcases List.mem_append.mp member with earlier | here
            · exact balanced.uncontradicted record earlier
            · rw [List.mem_singleton.mp here]
              exact Bool.eq_false_of_not_eq_true hit
          · cases stepped
            exact ⟨row, remaining, balanced⟩
  · cases stepped

theorem Balance.forget
    (balance : world.Balance username generation allowance)
    {cache : ExpiryCache} (wellFormed : cache.WellFormed)
    (cached : ∀ entry, cache.held (encodeUsername username) = some entry →
      world.cache.held (encodeUsername username) = some entry) :
    Balance username generation allowance
      { world with cache, hydration := none } := by
  rcases balance with ⟨row, remaining, balanced⟩
  exact ⟨row, remaining, { balanced with
    wellFormed := wellFormed
    snapshot := fun _ reading => by cases reading
    cached := fun entry held => balanced.cached entry (cached entry held) }⟩

theorem Balance.hydrationRead
    (balance : world.Balance username generation allowance)
    (stepped : world.hydrationRead = some next) :
    next.Balance username generation allowance := by
  rw [World.hydrationRead] at stepped
  split at stepped
  · cases stepped
  · cases stepped
    rcases balance with ⟨row, remaining, balanced⟩
    exact ⟨row, remaining, { balanced with
      snapshot := fun _ reading => by
        cases reading
        rfl }⟩

theorem Balance.hydrationInstall
    (balance : world.Balance username generation allowance)
    (role : IsRoleName username)
    (settled : world.unapplied username generation = 0)
    (stepped : world.hydrationInstall = some next) :
    next.Balance username generation allowance := by
  rw [World.hydrationInstall] at stepped
  split at stepped
  · cases stepped
  · next snapshot reading =>
      cases stepped
      rcases balance with ⟨row, remaining, balanced⟩
      rw [balanced.snapshot snapshot reading]
      rcases ExpirySnapshot.install_spec balanced.roles world.cache with
        ⟨wellFormed, installed⟩
      refine ⟨row, remaining, { balanced with
        wellFormed := wellFormed
        snapshot := fun _ reading => by cases reading
        cached := fun entry held _ => ?_ }⟩
      rcases installed username role entry held with ⟨dated, found, rfl⟩
      rw [balanced.found, Option.bind_some, ExpiryRow.dated] at found
      split at found
      · cases found
        have covered := balanced.covered
        rw [settled] at covered
        change max (row.graceLoginsRemaining.getD 0) 0 +
          (world.unapplied username generation : Int) ≤ remaining
        rw [balanced.grace, settled, Option.getD_some]
        omega
      · cases found

theorem Balance.step (balance : world.Balance username generation allowance)
    (role : IsRoleName username) {action : Action}
    (settled : Settled username generation world action)
    (stepped : world.step action = some next) :
    next.Balance username generation allowance := by
  have formed : world.cache.WellFormed := by
    rcases balance with ⟨_, _, balanced⟩
    exact balanced.wellFormed
  cases action with
  | login name now flags answer leavesRecord =>
      exact balance.login role settled stepped
  | applyEvent commits => exact balance.applyEvent role stepped
  | hydrationRead => exact balance.hydrationRead stepped
  | hydrationInstall => exact balance.hydrationInstall role settled stepped
  | hydrationFailed =>
      cases stepped
      have failed : (world.cache.setState .notReady).WellFormed := formed
      exact balance.forget failed (fun _ held => held)
  | workerRestart =>
      cases stepped
      exact balance.forget formed (fun _ held => held)
  | postmasterRestart =>
      cases stepped
      apply balance.forget ExpiryCache.wellFormed_init
      intro entry held
      rw [ExpiryCache.held_init] at held
      cases held

end Steps

theorem Balance.conserves {world : World} {username : String}
    {generation : TimestampTz} {allowance : Int}
    (balance : world.Balance username generation allowance) :
    world.Conserves username generation allowance := by
  rcases balance with ⟨row, remaining, balanced⟩
  have covered := balanced.covered
  have spent := balanced.spent
  refine ⟨by omega, fun record member own => ?_⟩
  rw [balanced.uncontradicted record member] at own
  cases own

end World

/-- Grace logins are conserved in every run that only installs the row when its
events have been applied and in which no failed append leaves its record. -/
theorem run_conservesGrace {initial world : World} {username : String}
    {generation : TimestampTz} {allowance : Int}
    (written : initial.Written username generation allowance)
    {actions : List Action}
    (settled : World.machine.EveryStep (World.Settled username generation)
      initial actions)
    (completed : World.machine.run initial actions = some world) :
    world.Conserves username generation allowance := by
  have balance : world.Balance username generation allowance :=
    Machine.run_invariant_of_everyStep
      (fun {state} {_} {_}
          (balance : World.Balance username generation allowance state) met
          stepped =>
        balance.step written.role met stepped)
      written.balance settled completed
  exact balance.conserves

/-- One role whose password has expired, with one grace login. -/
def aliceExpiry : PasswordExpiry :=
  AList.insert "alice" ⟨some 5, some 5, some 1⟩ ∅

theorem aliceExpiry_written :
    (World.start aliceExpiry .init).Written "alice" 5 1 where
  role := by decide +kernel
  roles := by
    intro name present
    by_cases here : name = "alice"
    · subst here
      decide +kernel
    · simp only [World.start, aliceExpiry, AList.lookup_insert_ne here] at present
      cases present
  row := ⟨_, rfl, rfl, rfl⟩
  nonnegative := by decide
  wellFormed := ExpiryCache.wellFormed_init
  cached := by
    intro entry held
    rw [World.start, ExpiryCache.held_init] at held
    cases held
  named := fun _ member => by cases member
  unapplied := rfl
  unconsumed := rfl
  uncontradicted := rfl
  idle := rfl

/-- The server restarts between a grace login and its persistence. -/
def restartBeforeApply : List Action :=
  [.hydrationRead, .hydrationInstall,
    .login "alice" 10 .none ⟨.enqueued, false⟩ false, .postmasterRestart,
    .hydrationRead, .hydrationInstall,
    .login "alice" 11 .none ⟨.enqueued, false⟩ false, .applyEvent true,
    .applyEvent true]

/-- The allowance of one is used twice, and the worker then refuses the second
admitted event. -/
theorem restartBeforeApply_overadmits :
    (World.start aliceExpiry .init).Written "alice" 5 1 ∧
      ∃ world, World.machine.run (.start aliceExpiry .init)
          restartBeforeApply = some world ∧
        world.consumptions "alice" 5 = 2 ∧
        (∃ record ∈ world.contradicted,
          record.isFor (encodeUsername "alice") 5 = true ∧
            record.admitted = true) ∧
        ¬world.Conserves "alice" 5 1 := by
  refine ⟨aliceExpiry_written, ?_⟩
  have summary : (World.machine.run (.start aliceExpiry .init)
      restartBeforeApply).map (fun world =>
        (world.consumptions "alice" 5, world.contradicted.any fun record =>
          record.isFor (encodeUsername "alice") 5 && record.admitted)) =
      some (2, true) := by decide +kernel
  rcases Option.map_eq_some_iff.mp summary with ⟨world, completed, read⟩
  simp only [Prod.mk.injEq, List.any_eq_true, Bool.and_eq_true] at read
  refine ⟨world, completed, read.1, read.2, fun conserves => ?_⟩
  have bounded := conserves.1
  rw [read.1] at bounded
  omega

/-- The same restart after the event has been applied. -/
def applyBeforeRestart : List Action :=
  [.hydrationRead, .hydrationInstall,
    .login "alice" 10 .none ⟨.durableOnly, false⟩ true, .applyEvent false,
    .applyEvent true, .postmasterRestart, .hydrationRead, .hydrationInstall,
    .login "alice" 11 .none ⟨.enqueued, false⟩ false]

theorem applyBeforeRestart_conserves :
    ∃ world, World.machine.run (.start aliceExpiry .init)
        applyBeforeRestart = some world ∧
      world.consumptions "alice" 5 = 1 ∧ world.Conserves "alice" 5 1 := by
  have summary : (World.machine.run (.start aliceExpiry .init)
      applyBeforeRestart).map (fun world => world.consumptions "alice" 5) =
      some 1 := by decide +kernel
  rcases Option.map_eq_some_iff.mp summary with ⟨world, completed, once⟩
  exact ⟨world, completed, once, run_conservesGrace aliceExpiry_written
    (by decide +kernel) completed⟩

end PasswordProfile.Expiry
