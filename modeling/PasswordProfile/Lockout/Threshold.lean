import PasswordProfile.Foundation.Execution
import PasswordProfile.Lockout.LoginAttempts

/-! # When a failure locks

A failure recomputes `lockout_until` from the stored count and the settings in
force. The branch that inserts the first row of a user never locks, and the
branch that updates a row never looks at the lockout it replaces.
-/

namespace PasswordProfile.Lockout

open Execution
open PendingCacheOp (CacheDecision ExpiryDecision PendingState)

/-! ## What one failure writes -/

theorem stageInner_new (username : String) (decision : Option CacheDecision)
    (expiry : ExpiryDecision) :
    ∃ pending, stageInner .new username decision expiry = .ok pending := by
  rw [stageInner]
  rcases PendingState.stageEntry_cases PendingState.holds_new
      (encodeUsername username) decision expiry topSubTransactionId with
    ⟨before, _, _, none, _⟩ | ⟨_, ⟨_, accepted, _⟩ | ⟨full, _⟩⟩
  · simp at none
  · split
    · exact ⟨_, rfl⟩
    · next refused =>
        rw [refused] at accepted
        cases accepted
  · exact absurd full (by decide)

def LoginAttempt.resetExpired (row : LoginAttempt) (now : TimestampTz) :
    LoginAttempt :=
  if row.lockoutUntil.any (· ≤ now) then
    { row with failCount := 0, lockoutUntil := none }
  else row

/-- The row after the conflicting `INSERT` has updated it. -/
def LoginAttempt.countFailure (row : LoginAttempt)
    (maxFails lockoutMinutes : Int) (now : TimestampTz) : LoginAttempt where
  failCount := row.failCount + 1
  lastFail := now
  lockoutUntil :=
    if row.failCount + 1 ≥ maxFails then
      some (now + lockoutMinutes * 60 * microsPerSec)
    else none

theorem LoginAttempts.lookup_resetExpired (table : LoginAttempts)
    (username : String) (now : TimestampTz) :
    (table.resetExpired username now).lookup username =
      (table.lookup username).map (·.resetExpired now) := by
  rw [resetExpired]
  cases found : table.lookup username with
  | none => exact found
  | some row =>
      by_cases expired : row.lockoutUntil.any (· ≤ now)
      · simp [expired, LoginAttempt.resetExpired]
      · simp [expired, LoginAttempt.resetExpired, found]

theorem LoginAttempts.lookup_countFailure (table : LoginAttempts)
    (username : String) (maxFails lockoutMinutes : Int) (now : TimestampTz) :
    (table.countFailure username maxFails lockoutMinutes now).lookup username =
      some (match table.lookup username with
        | none => ⟨1, now, none⟩
        | some row => row.countFailure maxFails lockoutMinutes now) := by
  rw [countFailure]
  cases found : table.lookup username with
  | none => exact AList.lookup_insert _
  | some row => exact AList.lookup_insert _

def FailurePolicy.skips (policy : FailurePolicy) : Bool :=
  policy.isSuper || policy.bypass

def failedRow (policy : FailurePolicy) (now : TimestampTz) :
    Option LoginAttempt → LoginAttempt
  | none => ⟨1, now, none⟩
  | some row =>
      (row.resetExpired now).countFailure policy.failedLoginMax
        policy.lockoutMinutes now

theorem recordFailedLogin_tracked (policy : FailurePolicy)
    (tracked : policy.skips = false) (table : LoginAttempts)
    (username : String) (now decidedAt : TimestampTz) :
    ∃ effect message,
      recordFailedLogin table username policy now decidedAt =
        .ok (effect, message) ∧
      effect.locked = [username] ∧
      effect.table.lookup username =
        some (failedRow policy now (table.lookup username)) ∧
      effect.lockDecisions = [(encodeUsername username,
        decisionFor (failedRow policy now
          (table.lookup username)).lockoutUntil decidedAt)] := by
  simp only [FailurePolicy.skips, Bool.or_eq_false_iff] at tracked
  obtain ⟨written, same⟩ : ∃ written,
      written = (table.resetExpired username now).countFailure username
        policy.failedLoginMax policy.lockoutMinutes now := ⟨_, rfl⟩
  have row : written.lookup username =
      some (failedRow policy now (table.lookup username)) := by
    rw [same, LoginAttempts.lookup_countFailure,
      LoginAttempts.lookup_resetExpired]
    cases table.lookup username <;> rfl
  rcases stageInner_new username
    (some (decisionFromDb written username decidedAt)) .none with
    ⟨pending, staged⟩
  have described := describes_single staged rfl
  refine ⟨⟨[username], written, pending⟩, "Failed login recorded", ?_, rfl,
    row, ?_⟩
  · simp [recordFailedLogin, tracked.1, tracked.2, ← same, staged, Except.map]
  · rw [described.decisions, List.map_singleton, decisionFromDb,
      LoginAttempts.lockoutUntil, row]
    rfl

theorem recordFailedLogin_skipped {policy : FailurePolicy}
    (skipped : policy.skips = true) (table : LoginAttempts)
    (username : String) (now decidedAt : TimestampTz) :
    ∃ message, recordFailedLogin table username policy now decidedAt =
      .ok (.nothing table, message) := by
  rw [recordFailedLogin]
  cases isSuper : policy.isSuper with
  | true => exact ⟨_, rfl⟩
  | false =>
      have bypass : policy.bypass = true := by
        simpa [FailurePolicy.skips, isSuper] using skipped
      rw [bypass]
      exact ⟨_, rfl⟩

/-! ## A failure during a lockout -/

/-- The committed row still has a lockout, no earlier than before, and the
cache is told about it as long as it lies in the future. -/
def KeepsLockout (table : LoginAttempts) (username : String)
    (policy : FailurePolicy) (before decidedAt : TimestampTz)
    (effect : Effect) : Prop :=
  ∃ after, (effect.publish table).lockoutUntil username = some after ∧
    before ≤ after ∧
    (decidedAt < after → effect.lockDecisions =
      if policy.skips then [] else [(encodeUsername username, .setLock after)])

/-- A failure keeps an active lockout exactly when it renews it: the stored
count must still reach the threshold in force, and the duration in force must
not end earlier. -/
theorem recordFailedLogin_keepsLockout_iff {table : LoginAttempts}
    {username : String} {row : LoginAttempt} {before now : TimestampTz}
    (found : table.lookup username = some row)
    (locked : row.lockoutUntil = some before) (active : now < before)
    (policy : FailurePolicy) (decidedAt : TimestampTz) :
    (∃ effect message,
        recordFailedLogin table username policy now decidedAt =
          .ok (effect, message) ∧
        KeepsLockout table username policy before decidedAt effect) ↔
      policy.skips = true ∨
        policy.failedLoginMax ≤ row.failCount + 1 ∧
          before ≤ now + policy.lockoutMinutes * 60 * microsPerSec := by
  cases skips : policy.skips with
  | true =>
      rcases recordFailedLogin_skipped skips table username now decidedAt with
        ⟨message, succeeded⟩
      refine iff_of_true ⟨_, message, succeeded, before, ?_, le_refl _, ?_⟩
        (.inl rfl)
      · change table.lockoutUntil username = some before
        rw [LoginAttempts.lockoutUntil, found]
        exact locked
      · intro _
        rw [skips, if_pos rfl]
        exact (describes_nothing table decidedAt).decisions
  | false =>
      rcases recordFailedLogin_tracked policy skips table username now decidedAt with
        ⟨effect, message, succeeded, own, written, decisions⟩
      have notExpired : row.lockoutUntil.any (· ≤ now) = false := by
        simpa [locked] using active
      have newRow : failedRow policy now (table.lookup username) =
          row.countFailure policy.failedLoginMax policy.lockoutMinutes now := by
        rw [found, failedRow, LoginAttempt.resetExpired, notExpired]
        rfl
      have published : (effect.publish table).lockoutUntil username =
          (row.countFailure policy.failedLoginMax policy.lockoutMinutes
            now).lockoutUntil := by
        rw [LoginAttempts.lockoutUntil, Effect.lookup_publish, own,
          if_pos (List.mem_singleton.mpr rfl), written, newRow]
        rfl
      rw [newRow] at decisions
      simp only [Bool.false_eq_true, false_or]
      constructor
      · intro given
        rcases given with ⟨other, text, alsoSucceeded, after, kept, late, _⟩
        rw [succeeded] at alsoSucceeded
        cases alsoSucceeded
        rw [published, LoginAttempt.countFailure] at kept
        by_cases reached : row.failCount + 1 ≥ policy.failedLoginMax
        · rw [if_pos reached, Option.some.injEq] at kept
          exact ⟨reached, kept ▸ late⟩
        · rw [if_neg reached] at kept
          cases kept
      · intro given
        rcases given with ⟨reached, late⟩
        have renewed : (row.countFailure policy.failedLoginMax
            policy.lockoutMinutes now).lockoutUntil =
              some (now + policy.lockoutMinutes * 60 * microsPerSec) :=
          if_pos reached
        rw [renewed] at published decisions
        refine ⟨effect, message, succeeded, _, published, late, ?_⟩
        intro future
        rw [decisions, decisionFor_active future, skips]
        rfl

theorem recordFailedLogin_keepsLockout_renewed :
    ∃ effect message,
      recordFailedLogin (AList.singleton "alice" ⟨3, 0, some 60000000⟩)
          "alice" ⟨false, false, 1, 3⟩ 1 2 = .ok (effect, message) ∧
        KeepsLockout (AList.singleton "alice" ⟨3, 0, some 60000000⟩) "alice"
          ⟨false, false, 1, 3⟩ 60000000 2 effect :=
  (@recordFailedLogin_keepsLockout_iff
    (AList.singleton "alice" ⟨3, 0, some 60000000⟩) "alice"
    ⟨3, 0, some 60000000⟩ 60000000 1 (by decide) rfl (by decide)
    ⟨false, false, 1, 3⟩ 2).mpr (by decide)

/-- A failure after the threshold was raised takes the lockout away. -/
theorem recordFailedLogin_forgets_lockout :
    LoginAttempts.lockoutUntil
        (AList.singleton "alice" ⟨3, 0, some 60000000⟩) "alice" =
      some 60000000 ∧
    ∃ effect message,
      recordFailedLogin (AList.singleton "alice" ⟨3, 0, some 60000000⟩)
          "alice" ⟨false, false, 1, 10⟩ 1 2 = .ok (effect, message) ∧
        (effect.publish (AList.singleton "alice"
          ⟨3, 0, some 60000000⟩)).lockoutUntil "alice" = none ∧
        effect.lockDecisions = [(encodeUsername "alice", .clearLock)] := by
  rcases recordFailedLogin_tracked ⟨false, false, 1, 10⟩ rfl
      (AList.singleton "alice" ⟨3, 0, some 60000000⟩) "alice" 1 2 with
    ⟨effect, message, succeeded, own, written, decisions⟩
  refine ⟨by decide, effect, message, succeeded, ?_, ?_⟩
  · rw [LoginAttempts.lockoutUntil, Effect.lookup_publish, own,
      if_pos (List.mem_singleton.mpr rfl), written]
    decide
  · rw [decisions]
    decide

/-! ## The streak of failures -/

inductive Attempt
  | failure (now decidedAt : TimestampTz)
  | clear (now decidedAt : TimestampTz)
  deriving DecidableEq, Repr

structure Tracker where
  table : LoginAttempts
  streak : Nat

namespace Tracker

def afterFailure (tracker : Tracker) (username : String)
    (now : TimestampTz) : Nat :=
  if (tracker.table.lockoutUntil username).any (· ≤ now) then 1
  else tracker.streak + 1

def afterClear (tracker : Tracker) (username : String)
    (written : LoginAttempts) : Nat :=
  if (tracker.table.lookup username).isSome ∧
      written.lookup username = none then 0
  else tracker.streak

end Tracker

/-- The transactions of a user who is neither superuser nor exempt. -/
def tracking (username : String) (failedLoginMax lockoutMinutes : Int) :
    Machine Tracker Attempt where
  step tracker
    | .failure now decidedAt =>
        match recordFailedLogin tracker.table username
            ⟨false, false, lockoutMinutes, failedLoginMax⟩ now decidedAt with
        | .error _ => none
        | .ok (effect, _) =>
            some ⟨effect.publish tracker.table,
              tracker.afterFailure username now⟩
    | .clear now decidedAt =>
        match clearLoginAttemptsInternal tracker.table username false now
            decidedAt with
        | .error _ => none
        | .ok effect =>
            some ⟨effect.publish tracker.table,
              tracker.afterClear username (effect.publish tracker.table)⟩

/-- The row a failure at `now` shall leave. -/
def Tracker.LocksAtThreshold (username : String)
    (failedLoginMax lockoutMinutes : Int) (now : TimestampTz)
    (tracker : Tracker) : Prop :=
  tracker.table.lookup username = some
    { failCount := tracker.streak
      lastFail := now
      lockoutUntil :=
        if failedLoginMax ≤ tracker.streak then
          some (now + lockoutMinutes * 60 * microsPerSec)
        else none }

section Tracking

variable {username : String} {failedLoginMax lockoutMinutes : Int}

theorem tracking_failure (tracker : Tracker) (now decidedAt : TimestampTz) :
    ∃ next, (tracking username failedLoginMax lockoutMinutes).step tracker
        (.failure now decidedAt) = some next ∧
      next.streak = tracker.afterFailure username now ∧
      next.table.lookup username =
        some (failedRow ⟨false, false, lockoutMinutes, failedLoginMax⟩ now
          (tracker.table.lookup username)) := by
  rcases recordFailedLogin_tracked
      ⟨false, false, lockoutMinutes, failedLoginMax⟩ rfl tracker.table
      username now decidedAt with
    ⟨effect, message, succeeded, own, written, _⟩
  refine ⟨⟨effect.publish tracker.table, tracker.afterFailure username now⟩,
    ?_, rfl, ?_⟩
  · simp only [tracking, succeeded]
  · rw [Effect.lookup_publish, own, if_pos (List.mem_singleton.mpr rfl),
      written]

theorem lookup_automaticClear (table : LoginAttempts) (username : String)
    (now : TimestampTz) :
    (automaticClear table username now).1.lookup username =
      (table.lookup username).filter (·.lockoutUntil.any (· > now)) := by
  rw [automaticClear]
  cases found : table.lookup username with
  | none => exact found
  | some row =>
      rcases row with ⟨failCount, lastFail, _ | expiresAt⟩
      · simp [Option.filter_some]
      · by_cases ended : expiresAt ≤ now
        · simp [Option.filter_some, ended]
        · simp [Option.filter_some, ended, lt_of_not_ge ended,
            found]

theorem clearLoginAttemptsInternal_automatic (table : LoginAttempts)
    (username : String) (now decidedAt : TimestampTz) :
    ∃ effect,
      clearLoginAttemptsInternal table username false now decidedAt =
        .ok effect ∧
      effect.locked = [username] ∧
      effect.table = (automaticClear table username now).1 := by
  rcases stageInner_new username (some (decisionFor
    ((automaticClear table username now).1.lockoutUntil username)
    decidedAt)) .none with ⟨pending, staged⟩
  refine ⟨⟨[username], (automaticClear table username now).1, pending⟩, ?_,
    rfl, rfl⟩
  simp [clearLoginAttemptsInternal, survivingLockout_automaticClear, staged,
    Except.map]

theorem tracking_clear (tracker : Tracker) (now decidedAt : TimestampTz) :
    ∃ next, (tracking username failedLoginMax lockoutMinutes).step tracker
        (.clear now decidedAt) = some next ∧
      next.streak = tracker.afterClear username next.table ∧
      next.table.lookup username =
        (tracker.table.lookup username).filter
          (·.lockoutUntil.any (· > now)) := by
  rcases clearLoginAttemptsInternal_automatic tracker.table username now
    decidedAt with ⟨effect, succeeded, own, written⟩
  refine ⟨⟨effect.publish tracker.table,
    tracker.afterClear username (effect.publish tracker.table)⟩, ?_, rfl, ?_⟩
  · simp only [tracking, succeeded]
  · rw [Effect.lookup_publish, own, if_pos (List.mem_singleton.mpr rfl),
      written, lookup_automaticClear]

def Tracker.Counted (username : String) (tracker : Tracker) : Prop :=
  ((tracker.table.lookup username).map LoginAttempt.failCount).getD 0 =
    tracker.streak

theorem tracking_failure_locks {tracker next : Tracker}
    {now decidedAt : TimestampTz} (counted : tracker.Counted username)
    (severalFailures : 2 ≤ failedLoginMax)
    (stepped : (tracking username failedLoginMax lockoutMinutes).step tracker
      (.failure now decidedAt) = some next) :
    next.LocksAtThreshold username failedLoginMax lockoutMinutes now := by
  rcases @tracking_failure username failedLoginMax lockoutMinutes tracker now
    decidedAt with ⟨other, alsoStepped, streak, row⟩
  rw [stepped, Option.some.injEq] at alsoStepped
  subst alsoStepped
  rw [Tracker.LocksAtThreshold, row, streak, Tracker.afterFailure,
    LoginAttempts.lockoutUntil]
  rw [Tracker.Counted] at counted
  cases found : tracker.table.lookup username with
  | none =>
      have noStreak : tracker.streak = 0 := by
        simpa [found, eq_comm] using counted
      have below : ¬failedLoginMax ≤ 1 := by omega
      simp [failedRow, noStreak, below]
  | some before =>
      have count : before.failCount = tracker.streak := by
        simpa [found] using counted
      by_cases ended : before.lockoutUntil.any (· ≤ now)
      · simp [failedRow, LoginAttempt.resetExpired,
          LoginAttempt.countFailure, ended]
      · simp [failedRow, LoginAttempt.resetExpired,
          LoginAttempt.countFailure, ended, count]

theorem Tracker.LocksAtThreshold.counted {tracker : Tracker}
    {now : TimestampTz}
    (locks : tracker.LocksAtThreshold username failedLoginMax lockoutMinutes
      now) : tracker.Counted username := by
  rw [Counted, show tracker.table.lookup username = _ from locks]
  rfl

theorem tracking_counted (severalFailures : 2 ≤ failedLoginMax)
    {tracker next : Tracker} {attempt : Attempt}
    (counted : tracker.Counted username)
    (stepped : (tracking username failedLoginMax lockoutMinutes).step tracker
      attempt = some next) : next.Counted username := by
  cases attempt with
  | failure now decidedAt =>
      exact (tracking_failure_locks counted severalFailures stepped).counted
  | clear now decidedAt =>
      rcases @tracking_clear username failedLoginMax lockoutMinutes tracker now
        decidedAt with ⟨other, alsoStepped, streak, row⟩
      rw [stepped, Option.some.injEq] at alsoStepped
      subst alsoStepped
      rw [Tracker.Counted] at counted ⊢
      rw [streak, Tracker.afterClear, row]
      cases found : tracker.table.lookup username with
      | none => simpa [found] using counted
      | some before =>
          by_cases active : before.lockoutUntil.any (· > now)
          · rw [Option.filter_some, if_pos active]
            simpa [found] using counted
          · rw [Option.filter_some, if_neg active]
            simp

theorem tracking_total (tracker : Tracker) (attempt : Attempt) :
    ∃ next, (tracking username failedLoginMax lockoutMinutes).step tracker
      attempt = some next := by
  cases attempt with
  | failure now decidedAt =>
      rcases tracking_failure tracker now decidedAt with ⟨next, stepped, _⟩
      exact ⟨next, stepped⟩
  | clear now decidedAt =>
      rcases tracking_clear tracker now decidedAt with ⟨next, stepped, _⟩
      exact ⟨next, stepped⟩

theorem tracking_first_failure (lockoutMinutes : Int) {attempts : List Attempt}
    {now decidedAt : TimestampTz}
    (failed : .failure now decidedAt ∈ attempts) {tracker : Tracker}
    (missing : tracker.table.lookup username = none)
    (noStreak : tracker.streak = 0) :
    ∃ earlier now decidedAt world,
      earlier ++ [.failure now decidedAt] <+: attempts ∧
        (tracking username failedLoginMax lockoutMinutes).run tracker
          (earlier ++ [.failure now decidedAt]) = some world ∧
        world.table.lookup username = some ⟨1, now, none⟩ ∧
        world.streak = 1 := by
  induction attempts generalizing tracker with
  | nil => cases failed
  | cons attempt rest induction =>
      cases attempt with
      | failure now decidedAt =>
          rcases @tracking_failure username failedLoginMax lockoutMinutes
            tracker now decidedAt with ⟨next, stepped, streak, row⟩
          refine ⟨[], now, decidedAt, next, ⟨rest, rfl⟩,
            Machine.run_cons_eq_some.mpr ⟨next, stepped, rfl⟩, ?_, ?_⟩
          · rw [row, missing]
            rfl
          · rw [streak, Tracker.afterFailure, LoginAttempts.lockoutUntil,
              missing, noStreak]
            rfl
      | clear clearedAt clearDecidedAt =>
          rcases @tracking_clear username failedLoginMax lockoutMinutes
            tracker clearedAt clearDecidedAt with ⟨next, stepped, streak, row⟩
          have later := (List.mem_cons.mp failed).resolve_left (by simp)
          rcases @induction later next (by rw [row, missing]; rfl)
              (by rw [streak, Tracker.afterClear, missing, noStreak]; rfl) with
            ⟨earlier, failedAt, failDecidedAt, world, ⟨suffix, split⟩,
              completed, rest⟩
          refine ⟨.clear clearedAt clearDecidedAt :: earlier, failedAt,
            failDecidedAt, world, ⟨suffix, ?_⟩,
            Machine.run_cons_eq_some.mpr ⟨next, stepped, completed⟩, rest⟩
          rw [← split]
          rfl

/-- Starting without a row, every failure of every sequence finds the count and
the lockout of its streak, unless a single failure shall lock. -/
theorem tracking_locksAtThreshold_iff (username : String)
    (failedLoginMax lockoutMinutes : Int) {table : LoginAttempts}
    (missing : table.lookup username = none) (attempts : List Attempt) :
    (∀ earlier now decidedAt,
        earlier ++ [.failure now decidedAt] <+: attempts →
        ∃ world,
          (tracking username failedLoginMax lockoutMinutes).run ⟨table, 0⟩
            (earlier ++ [.failure now decidedAt]) = some world ∧
          world.LocksAtThreshold username failedLoginMax lockoutMinutes now) ↔
      2 ≤ failedLoginMax ∨
        ∀ now decidedAt, .failure now decidedAt ∉ attempts := by
  constructor
  · intro locks
    by_contra neither
    rw [not_or, not_le] at neither
    rcases neither with ⟨oneIsEnough, failed⟩
    push Not at failed
    rcases failed with ⟨now, decidedAt, failed⟩
    rcases @tracking_first_failure username failedLoginMax lockoutMinutes
        attempts now decidedAt failed ⟨table, 0⟩ missing rfl with
      ⟨earlier, failedAt, failDecidedAt, world, before, completed, row, streak⟩
    rcases locks earlier failedAt failDecidedAt before with
      ⟨other, alsoCompleted, threshold⟩
    rw [completed, Option.some.injEq] at alsoCompleted
    subst alsoCompleted
    have reached : failedLoginMax ≤ 1 := by omega
    rw [Tracker.LocksAtThreshold, row, streak] at threshold
    simp [reached] at threshold
  · intro condition earlier now decidedAt before
    have several : 2 ≤ failedLoginMax := by
      rcases condition with several | noFailure
      · exact several
      · exact absurd (before.subset (List.mem_append_right _
          (List.mem_singleton.mpr rfl))) (noFailure now decidedAt)
    rcases Machine.run_total tracking_total (⟨table, 0⟩ : Tracker)
      (earlier ++ [.failure now decidedAt]) with ⟨world, completed⟩
    rcases Machine.run_concat_eq_some.mp completed with
      ⟨middle, reached, stepped⟩
    have start : Tracker.Counted username ⟨table, 0⟩ := by
      rw [Tracker.Counted, missing]
      rfl
    have counted := Machine.run_invariant
      (fun counted stepped => tracking_counted several counted stepped)
      start reached
    exact ⟨world, completed,
      tracking_failure_locks counted several stepped⟩

/-- Two failures of `alice` when two lock. -/
theorem tracking_locksAtThreshold_alice :
    ∃ world, (tracking "alice" 2 1).run ⟨∅, 0⟩
        [.failure 0 1, .failure 2 3] = some world ∧
      world.LocksAtThreshold "alice" 2 1 2 :=
  (tracking_locksAtThreshold_iff "alice" 2 1 rfl
    [.failure 0 1, .failure 2 3]).mpr (.inl (le_refl 2)) [.failure 0 1] 2 3
    (List.prefix_rfl)

/-- The first failure does not lock when one shall. -/
theorem tracking_misses_threshold_one :
    ∃ world, (tracking "alice" 1 1).run ⟨∅, 0⟩ [.failure 0 1] = some world ∧
      world.streak = 1 ∧ world.table.lockoutUntil "alice" = none := by
  rcases @tracking_failure "alice" 1 1 ⟨∅, 0⟩ 0 1 with
    ⟨world, stepped, streak, row⟩
  refine ⟨world, Machine.run_cons_eq_some.mpr ⟨world, stepped, rfl⟩,
    streak, ?_⟩
  rw [LoginAttempts.lockoutUntil, row]
  rfl

end Tracking

end PasswordProfile.Lockout
