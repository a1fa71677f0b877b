import PasswordProfile.Lockout.Cache
import PasswordProfile.PendingCacheOp.Commit
import Mathlib.Data.List.AList

/-! # The functions that write `login_attempts`

Each function reads the committed table under the advisory locks that it takes,
leaves its own version of the table and stages what the caches shall be told.
`now` is the start of the transaction, `decidedAt` a later clock reading.
-/

namespace PasswordProfile.Lockout

open PendingCacheOp (CacheDecision ExpiryDecision PendingState)

structure LoginAttempt where
  failCount : Int
  lastFail : TimestampTz
  lockoutUntil : Option TimestampTz
  deriving DecidableEq, Repr

/-- The table; `username` is its primary key. -/
abbrev LoginAttempts := AList fun _ : String => LoginAttempt

namespace LoginAttempts

def lockoutUntil (table : LoginAttempts) (username : String) :
    Option TimestampTz :=
  (table.lookup username).bind LoginAttempt.lockoutUntil

/-- `SET fail_count = 0, lockout_until = NULL` where the lockout is over. -/
def resetExpired (table : LoginAttempts) (username : String)
    (now : TimestampTz) : LoginAttempts :=
  match table.lookup username with
  | none => table
  | some row =>
      if row.lockoutUntil.any (· ≤ now) then
        table.insert username { row with failCount := 0, lockoutUntil := none }
      else table

/-- `INSERT … ON CONFLICT (username) DO UPDATE` of a failure. -/
def countFailure (table : LoginAttempts) (username : String)
    (maxFails lockoutMinutes : Int) (now : TimestampTz) : LoginAttempts :=
  match table.lookup username with
  | none => table.insert username ⟨1, now, none⟩
  | some row =>
      table.insert username
        { failCount := row.failCount + 1
          lastFail := now
          lockoutUntil :=
            if row.failCount + 1 ≥ maxFails then
              some (now + lockoutMinutes * 60 * microsPerSec)
            else none }

end LoginAttempts

def decisionFromDb (table : LoginAttempts) (username : String)
    (decidedAt : TimestampTz) : CacheDecision :=
  decisionFor (table.lockoutUntil username) decidedAt

/-- What a function of this module has done to the database and staged, and the
names whose advisory lock it holds until the transaction ends. -/
structure Effect where
  locked : List String
  table : LoginAttempts
  pending : PendingState

def Effect.nothing (table : LoginAttempts) : Effect := ⟨[], table, .new⟩

abbrev topSubTransactionId : PendingCacheOp.SubTransactionId := 1

def stageInner (pending : PendingState) (username : String)
    (decision : Option CacheDecision) (expiry : ExpiryDecision) :
    Except String PendingState :=
  match pending.stageEntry (encodeUsername username) decision expiry
      topSubTransactionId with
  | (staged, true) => .ok staged
  | (_, false) => .error <|
      "password_profile: more than 16 pending lock cache operations in one " ++
      "transaction; aborting the transaction rather than dropping a lockout " ++
      "update"

/-- What `record_failed_login` reads from `pg_user` and the settings. -/
structure FailurePolicy where
  isSuper : Bool
  bypass : Bool
  lockoutMinutes : Int
  failedLoginMax : Int
  deriving DecidableEq, Repr

def recordFailedLogin (table : LoginAttempts) (username : String)
    (policy : FailurePolicy) (now decidedAt : TimestampTz) :
    Except String (Effect × String) :=
  if policy.isSuper then .ok (.nothing table, "Superuser bypassed")
  else if policy.bypass then
    .ok (.nothing table, "Bypassed failed login tracking")
  else
    let written := (table.resetExpired username now).countFailure username
      policy.failedLoginMax policy.lockoutMinutes now
    (stageInner .new username
        (some (decisionFromDb written username decidedAt)) .none).map
      fun pending => (⟨[username], written, pending⟩, "Failed login recorded")

structure ClearOutcome where
  deleted : Nat
  active : Nat
  activeUntil : Option TimestampTz
  deriving DecidableEq, Repr

def ClearOutcome.survivingLockout :
    ClearOutcome → Except String (Option TimestampTz)
  | ⟨0, 0, none⟩ => .ok none
  | ⟨1, 0, none⟩ => .ok none
  | ⟨0, 1, some expiresAt⟩ => .ok (some expiresAt)
  | ⟨deleted, active, _⟩ =>
      .error <|
        "password_profile: inconsistent login_attempts state for one " ++
        s!"username (deleted={deleted}, active={active}); refusing to " ++
        "update the lock cache"

def automaticClear (table : LoginAttempts) (username : String)
    (now : TimestampTz) : LoginAttempts × ClearOutcome :=
  match table.lookup username with
  | none => (table, ⟨0, 0, none⟩)
  | some row =>
      if row.lockoutUntil.all (· ≤ now) then
        (table.erase username, ⟨1, 0, none⟩)
      else if row.lockoutUntil.any (· > now) then
        (table, ⟨0, 1, row.lockoutUntil⟩)
      else (table, ⟨0, 0, none⟩)

def clearLoginAttemptsInternal (table : LoginAttempts) (username : String)
    (force : Bool) (now decidedAt : TimestampTz) : Except String Effect :=
  if force then
    let deleted := if (table.lookup username).isSome then 1 else 0
    if deleted > 1 then
      .error <|
        s!"password_profile: forced clear affected {deleted} login_attempts " ++
        "rows for one username; refusing to update the lock cache"
    else
      (stageInner .new username (some .clearLock) .none).map
        fun pending => ⟨[username], table.erase username, pending⟩
  else
    let (written, outcome) := automaticClear table username now
    match outcome.survivingLockout with
    | .error message => .error message
    | .ok activeUntil =>
        (stageInner .new username (some (decisionFor activeUntil decidedAt))
            .none).map
          fun pending => ⟨[username], written, pending⟩

/-- What `remove_role_state` reads besides the table. -/
structure RemoveReads where
  isSuperuser : Bool
  roleExists : Bool
  deriving DecidableEq, Repr

def removeRoleState (table : LoginAttempts) (username : String)
    (reads : RemoveReads) : Except String (Effect × String) :=
  if !reads.isSuperuser then
    .error "permission denied: superuser is required to remove role state"
  else if username.isEmpty then .error "role name must not be empty"
  else if reads.roleExists then
    .error <|
      "drop the PostgreSQL role first and call remove_role_state in the same " ++
      "transaction"
  else
    (stageInner .new username (some .clearLock) .clear).map
      fun pending =>
        (⟨[username], table.erase username, pending⟩, "Role state removed")

/-- What `rename_role_state` reads besides the table. -/
structure RenameReads where
  isSuperuser : Bool
  oldRoleExists : Bool
  newRoleExists : Bool
  /-- Rows of the new name in `password_history` or `password_expiry`. -/
  targetHasOtherState : Bool
  /-- The staged half for the expiry cache. -/
  newExpiry : ExpiryDecision
  deriving DecidableEq, Repr

/-- `SET username = $2 WHERE username = $1`. -/
def LoginAttempts.rename (table : LoginAttempts) (oldUsername newUsername :
    String) : LoginAttempts :=
  match table.lookup oldUsername with
  | none => table
  | some row => (table.erase oldUsername).insert newUsername row

def renameRoleState (table : LoginAttempts) (oldUsername newUsername : String)
    (reads : RenameReads) (decidedAt : TimestampTz) :
    Except String (Effect × String) :=
  if !reads.isSuperuser then
    .error "permission denied: superuser is required to move role state"
  else if oldUsername.isEmpty || newUsername.isEmpty then
    .error "role names must not be empty"
  else if oldUsername = newUsername then
    .ok (.nothing table, "Role state unchanged")
  else if reads.oldRoleExists || !reads.newRoleExists then
    .error <|
      "rename the PostgreSQL role first and call rename_role_state in the " ++
      "same transaction"
  else if (table.lookup newUsername).isSome || reads.targetHasOtherState then
    .error <|
      "target role name already has password_profile state; remove it first"
  else
    let written := table.rename oldUsername newUsername
    let newLock := decisionFromDb written newUsername decidedAt
    match stageInner .new oldUsername (some .clearLock) .clear with
    | .error message => .error message
    | .ok first =>
        (stageInner first newUsername (some newLock) reads.newExpiry).map
          fun pending => (⟨[oldUsername, newUsername], written, pending⟩,
            "Role state renamed")

/-! ## One call of a transaction -/

inductive Call
  | recordFailedLogin (username : String) (policy : FailurePolicy)
  | clearLoginAttempts (username : String) (force : Bool)
  | removeRoleState (username : String) (reads : RemoveReads)
  | renameRoleState (oldUsername newUsername : String) (reads : RenameReads)
  deriving DecidableEq, Repr

namespace Call

def names : Call → List String
  | recordFailedLogin username _ => [username]
  | clearLoginAttempts username _ => [username]
  | removeRoleState username _ => [username]
  | renameRoleState oldUsername newUsername _ => [oldUsername, newUsername]

/-- Run the function; an error rolls the transaction back. -/
def perform (call : Call) (table : LoginAttempts)
    (now decidedAt : TimestampTz) : Except String Effect :=
  match call with
  | recordFailedLogin username policy =>
      (Lockout.recordFailedLogin table username policy now decidedAt).map
        Prod.fst
  | clearLoginAttempts username force =>
      clearLoginAttemptsInternal table username force now decidedAt
  | removeRoleState username reads =>
      (Lockout.removeRoleState table username reads).map Prod.fst
  | renameRoleState oldUsername newUsername reads =>
      (Lockout.renameRoleState table oldUsername newUsername reads
        decidedAt).map Prod.fst

end Call

namespace Effect

def lockDecisions (effect : Effect) : List (EncodedUsername × CacheDecision) :=
  (PendingCacheOp.applyAll effect.pending).filterMap fun
    | .lock username decision => some (username, decision)
    | .expiry _ _ => none

/-- The rows of the locked names replace the committed ones. -/
def publish (effect : Effect) (committed : LoginAttempts) : LoginAttempts :=
  effect.locked.foldl
    (fun table name =>
      match effect.table.lookup name with
      | some row => table.insert name row
      | none => table.erase name)
    committed

/-- Exactly the locked names are written, and the staged decisions describe
their rows at the time of the decision. -/
structure Describes (effect : Effect) (decidedAt : TimestampTz) : Prop where
  distinct : effect.locked.Nodup
  decisions : effect.lockDecisions = effect.locked.map fun name =>
    (encodeUsername name, decisionFromDb effect.table name decidedAt)

end Effect

theorem lookup_foldl_publish (written : LoginAttempts) (names : List String)
    (committed : LoginAttempts) (username : String) :
    (names.foldl
        (fun table name =>
          match written.lookup name with
          | some row => table.insert name row
          | none => table.erase name)
        committed).lookup username =
      if username ∈ names then written.lookup username
      else committed.lookup username := by
  induction names generalizing committed with
  | nil => simp
  | cons name rest induction =>
      rw [List.foldl_cons, induction]
      by_cases later : username ∈ rest
      · simp [later]
      · by_cases here : username = name
        · subst here
          cases found : written.lookup username with
          | none => simp [later, AList.lookup_erase]
          | some row => simp [later, AList.lookup_insert]
        · cases found : written.lookup name with
          | none => simp [later, here, AList.lookup_erase_ne here]
          | some row => simp [later, here, AList.lookup_insert_ne here]

theorem Effect.lookup_publish (effect : Effect) (committed : LoginAttempts)
    (username : String) :
    (effect.publish committed).lookup username =
      if username ∈ effect.locked then effect.table.lookup username
      else committed.lookup username :=
  lookup_foldl_publish effect.table effect.locked committed username

/-! ## Every function describes what it writes -/

theorem stageInner_eq_ok {pending staged : PendingState} {username : String}
    {decision : Option CacheDecision} {expiry : ExpiryDecision}
    (succeeded : stageInner pending username decision expiry = .ok staged) :
    pending.stageEntry (encodeUsername username) decision expiry
      topSubTransactionId = (staged, true) := by
  rw [stageInner] at succeeded
  split at succeeded
  · next result same =>
      rw [same]
      cases succeeded
      rfl
  · cases succeeded

theorem stageInner_holds {pending staged : PendingState}
    {items : List PendingCacheOp.PendingEntry}
    (holds : pending.Holds items) {username : String}
    (fresh : ∀ entry ∈ items, entry.username ≠ encodeUsername username)
    {decision : Option CacheDecision} {expiry : ExpiryDecision}
    (succeeded : stageInner pending username decision expiry = .ok staged) :
    staged.Holds (items ++
      [⟨encodeUsername username, decision, expiry, topSubTransactionId⟩]) := by
  have accepted := stageInner_eq_ok succeeded
  rcases PendingState.stageEntry_cases holds (encodeUsername username) decision
      expiry topSubTransactionId with
    ⟨_, old, _, split, matched, _⟩ | ⟨_, ⟨_, _, appended⟩ | ⟨_, full⟩⟩
  · have member : old ∈ items := by simp [split]
    simp only [PendingCacheOp.PendingEntry.isFor, Bool.and_eq_true,
      beq_iff_eq] at matched
    exact absurd matched.2 (fresh old member)
  · rwa [accepted] at appended
  · rw [accepted] at full
    cases full

theorem stageInner_succeeds {pending : PendingState}
    {items : List PendingCacheOp.PendingEntry} (holds : pending.Holds items)
    (room : items.length < PendingCacheOp.maxPendingOps) (username : String)
    (decision : Option CacheDecision) (expiry : ExpiryDecision) :
    ∃ staged, stageInner pending username decision expiry = .ok staged := by
  have accepted : (pending.stageEntry (encodeUsername username) decision
      expiry topSubTransactionId).2 = true := by
    rcases PendingState.stageEntry_cases holds (encodeUsername username)
        decision expiry topSubTransactionId with
      ⟨_, _, _, _, _, accepted, _⟩ | ⟨_, ⟨_, accepted, _⟩ | ⟨full, _⟩⟩
    · exact accepted
    · exact accepted
    · exact absurd full (Nat.ne_of_lt room)
  rw [stageInner]
  split
  · next staged result => exact ⟨staged, rfl⟩
  · next result =>
      rw [result] at accepted
      cases accepted

theorem lockDecisions_of_holds {effect : Effect}
    {items : List PendingCacheOp.PendingEntry}
    (holds : effect.pending.Holds items) :
    effect.lockDecisions = items.filterMap fun entry =>
      entry.decision.map fun decision => (entry.username, decision) := by
  rw [Effect.lockDecisions, PendingCacheOp.applyAll_of_holds holds]
  clear holds
  induction items with
  | nil => rfl
  | cons entry rest induction =>
      rw [List.flatMap_cons, List.filterMap_append, induction,
        List.filterMap_cons]
      rcases entry with ⟨username, decision, expiry, subid⟩
      cases decision <;> cases expiry <;>
        simp [PendingCacheOp.PendingEntry.lockCalls,
          PendingCacheOp.PendingEntry.expiryCalls]

theorem describes_single {username : String} {written : LoginAttempts}
    {pending : PendingState} {decision : CacheDecision}
    {expiry : ExpiryDecision} {decidedAt : TimestampTz}
    (staged : stageInner .new username (some decision) expiry = .ok pending)
    (decided : decision = decisionFromDb written username decidedAt) :
    Effect.Describes ⟨[username], written, pending⟩ decidedAt := by
  have holds := stageInner_holds PendingState.holds_new (by simp) staged
  refine ⟨List.nodup_singleton username, ?_⟩
  rw [lockDecisions_of_holds holds]
  simp [decided]

theorem describes_nothing (table : LoginAttempts) (decidedAt : TimestampTz) :
    (Effect.nothing table).Describes decidedAt := by
  have holds : (Effect.nothing table).pending.Holds [] :=
    PendingState.holds_new
  exact ⟨List.nodup_nil, lockDecisions_of_holds holds⟩

theorem map_eq_ok {result : Except ε α} {transform : α → β} {value : β}
    (mapped : result.map transform = .ok value) :
    ∃ inner, result = .ok inner ∧ transform inner = value := by
  cases result with
  | error _ => cases mapped
  | ok inner => exact ⟨inner, rfl, Except.ok.inj mapped⟩

theorem recordFailedLogin_describes {table : LoginAttempts}
    {username message : String} {policy : FailurePolicy}
    {now decidedAt : TimestampTz} {effect : Effect}
    (succeeded : recordFailedLogin table username policy now decidedAt =
      .ok (effect, message)) :
    effect.Describes decidedAt ∧ effect.locked ⊆ [username] := by
  rw [recordFailedLogin] at succeeded
  split at succeeded
  · cases succeeded
    exact ⟨describes_nothing table decidedAt, List.nil_subset _⟩
  split at succeeded
  · cases succeeded
    exact ⟨describes_nothing table decidedAt, List.nil_subset _⟩
  · rcases map_eq_ok succeeded with ⟨pending, staged, same⟩
    cases same
    exact ⟨describes_single staged rfl, List.Subset.refl _⟩

theorem lockoutUntil_erase (table : LoginAttempts) (username : String) :
    LoginAttempts.lockoutUntil (table.erase username) username = none := by
  rw [LoginAttempts.lockoutUntil, AList.lookup_erase]
  rfl

/-- The counts are always those of at most one row, and the surviving lockout
is the one in the table afterwards. -/
theorem survivingLockout_automaticClear (table : LoginAttempts)
    (username : String) (now : TimestampTz) :
    (automaticClear table username now).2.survivingLockout =
      .ok ((automaticClear table username now).1.lockoutUntil username) := by
  rw [automaticClear]
  cases found : table.lookup username with
  | none =>
      have missing : table.lockoutUntil username = none := by
        rw [LoginAttempts.lockoutUntil, found]
        rfl
      simp only [missing]
      rfl
  | some row =>
      by_cases inactive : row.lockoutUntil.all (· ≤ now)
      · simp only [inactive, if_true, lockoutUntil_erase]
        rfl
      · rcases row with ⟨failCount, lastFail, _ | expiresAt⟩
        · simp at inactive
        · have held : table.lockoutUntil username = some expiresAt := by
            rw [LoginAttempts.lockoutUntil, found]
            rfl
          have active : now < expiresAt := by simpa using inactive
          simp only [inactive, Option.any_some, active, decide_true, if_true,
            Bool.false_eq_true, if_false, held]
          rfl

theorem clearLoginAttemptsInternal_describes {table : LoginAttempts}
    {username : String} {force : Bool} {now decidedAt : TimestampTz}
    {effect : Effect}
    (succeeded : clearLoginAttemptsInternal table username force now
      decidedAt = .ok effect) :
    effect.Describes decidedAt ∧ effect.locked ⊆ [username] := by
  rw [clearLoginAttemptsInternal] at succeeded
  cases force with
  | true =>
      -- the primary key admits one row at most
      have few : ¬(if (table.lookup username).isSome = true then 1 else 0) >
          1 := by
        split <;> omega
      simp only [if_true, few, if_false] at succeeded
      rcases map_eq_ok succeeded with ⟨pending, staged, rfl⟩
      refine ⟨describes_single staged ?_, List.Subset.refl _⟩
      rw [decisionFromDb, lockoutUntil_erase]
      rfl
  | false =>
      simp only [Bool.false_eq_true, if_false,
        survivingLockout_automaticClear] at succeeded
      rcases map_eq_ok succeeded with ⟨pending, staged, rfl⟩
      exact ⟨describes_single staged rfl, List.Subset.refl _⟩

theorem removeRoleState_describes {table : LoginAttempts}
    {username message : String} {reads : RemoveReads} {effect : Effect}
    (succeeded : removeRoleState table username reads = .ok (effect, message))
    (decidedAt : TimestampTz) :
    effect.Describes decidedAt ∧ effect.locked ⊆ [username] := by
  rw [removeRoleState] at succeeded
  split at succeeded
  · cases succeeded
  split at succeeded
  · cases succeeded
  split at succeeded
  · cases succeeded
  · rcases map_eq_ok succeeded with ⟨pending, staged, same⟩
    cases same
    refine ⟨describes_single staged ?_, List.Subset.refl _⟩
    rw [decisionFromDb, lockoutUntil_erase]
    rfl

theorem lockoutUntil_rename_old {table : LoginAttempts}
    {oldUsername newUsername : String} (different : oldUsername ≠ newUsername) :
    (table.rename oldUsername newUsername).lockoutUntil oldUsername = none := by
  rw [LoginAttempts.rename, LoginAttempts.lockoutUntil]
  cases found : table.lookup oldUsername with
  | none => rw [found, Option.bind_none]
  | some row =>
      rw [AList.lookup_insert_ne different, AList.lookup_erase,
        Option.bind_none]

theorem renameRoleState_describes {table : LoginAttempts}
    {oldUsername newUsername message : String} {reads : RenameReads}
    {decidedAt : TimestampTz} {effect : Effect}
    (oldRole : IsRoleName oldUsername) (newRole : IsRoleName newUsername)
    (succeeded : renameRoleState table oldUsername newUsername reads
      decidedAt = .ok (effect, message)) :
    effect.Describes decidedAt ∧
      effect.locked ⊆ [oldUsername, newUsername] := by
  rw [renameRoleState] at succeeded
  split at succeeded
  · cases succeeded
  split at succeeded
  · cases succeeded
  split at succeeded
  · cases succeeded
    exact ⟨describes_nothing table decidedAt, List.nil_subset _⟩
  next different =>
  split at succeeded
  · cases succeeded
  split at succeeded
  · cases succeeded
  split at succeeded
  · cases succeeded
  next first stagedOld =>
  rcases map_eq_ok succeeded with ⟨pending, stagedNew, same⟩
  cases same
  have holdsOld := stageInner_holds PendingState.holds_new (by simp) stagedOld
  have apart : encodeUsername oldUsername ≠ encodeUsername newUsername :=
    fun equal => different (encodeUsername_injective oldRole newRole equal)
  have holds := stageInner_holds holdsOld (by simpa using apart) stagedNew
  refine ⟨⟨by simpa using different, ?_⟩, List.Subset.refl _⟩
  rw [lockDecisions_of_holds holds]
  simp [decisionFromDb, lockoutUntil_rename_old different, decisionFor]

theorem Call.perform_describes {call : Call} {table : LoginAttempts}
    {now decidedAt : TimestampTz} {effect : Effect}
    (roles : ∀ name ∈ call.names, IsRoleName name)
    (performed : call.perform table now decidedAt = .ok effect) :
    effect.Describes decidedAt ∧ effect.locked ⊆ call.names := by
  cases call with
  | recordFailedLogin username policy =>
      rcases map_eq_ok performed with ⟨⟨_, message⟩, succeeded, rfl⟩
      exact recordFailedLogin_describes succeeded
  | clearLoginAttempts username force =>
      exact clearLoginAttemptsInternal_describes performed
  | removeRoleState username reads =>
      rcases map_eq_ok performed with ⟨⟨_, message⟩, succeeded, rfl⟩
      exact removeRoleState_describes succeeded decidedAt
  | renameRoleState oldUsername newUsername reads =>
      rcases map_eq_ok performed with ⟨⟨_, message⟩, succeeded, rfl⟩
      exact renameRoleState_describes (roles oldUsername (by simp [names]))
        (roles newUsername (by simp [names])) succeeded

end PasswordProfile.Lockout
