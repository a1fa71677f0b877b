import PasswordProfile.PasswordChange.RecordPasswordChange

/-! # The functions that take a role name as text

Five SQL functions pass a text on to the tables, which are keyed by the text
itself, and to the staged cache operations, which are keyed by its encoding.
-/

namespace PasswordProfile.Administration

open Expiry (PasswordExpiry)
open Lockout PasswordChange
open PendingCacheOp (ExpiryDecision PendingState)

/-- A value of PostgreSQL's type `text`: of any length, without a zero byte. -/
structure SqlText where
  value : String
  nulFree : ∀ byte ∈ utf8Bytes value, byte ≠ 0

structure Database where
  attempts : LoginAttempts
  history : PasswordHistory
  expiry : PasswordExpiry

structure Circumstances where
  currentUser : String
  isSuperuser : Bool
  roles : List String
  roles_named : ∀ role ∈ roles, IsRoleName role
  policy : FailurePolicy
  digests : Digests
  calendar : Calendar
  settings : Settings
  draw : Draw
  decidedAt : TimestampTz

/-- `EXISTS (SELECT 1 FROM pg_roles WHERE rolname = $1)`. -/
def Circumstances.roleExists (circumstances : Circumstances) (name : String) :
    Bool :=
  circumstances.roles.contains name

inductive Request
  | recordFailedLogin (username : SqlText)
  | clearLoginAttempts (username : SqlText)
  | removeRoleState (username : SqlText)
  | renameRoleState (oldUsername newUsername : SqlText)
  | recordPasswordChange (username newPassword : SqlText)

def Request.names : Request → List String
  | recordFailedLogin username => [username.value]
  | clearLoginAttempts username => [username.value]
  | removeRoleState username => [username.value]
  | renameRoleState oldUsername newUsername =>
      [oldUsername.value, newUsername.value]
  | recordPasswordChange username _ => [username.value]

/-- The names whose cache entries a call may stage. A rename does nothing when
both names are the same, and fails when the new one is of no role. -/
def Request.touched : Request → List String
  | recordFailedLogin username => [username.value]
  | clearLoginAttempts username => [username.value]
  | removeRoleState username => [username.value]
  | renameRoleState oldUsername newUsername =>
      if oldUsername.value = newUsername.value ∨
          ¬IsRoleName newUsername.value then []
      else [oldUsername.value, newUsername.value]
  | recordPasswordChange username _ => [username.value]

structure Performed where
  database : Database
  pending : PendingState
  message : String

/-! ## The functions -/

def recordFailedLogin (circumstances : Circumstances) (database : Database)
    (username : String) : Except String Performed :=
  (Lockout.recordFailedLogin database.attempts username circumstances.policy
      circumstances.draw.now circumstances.decidedAt).map
    fun (effect, message) =>
      ⟨{ database with attempts := effect.table }, effect.pending, message⟩

def clearLoginAttempts (circumstances : Circumstances) (database : Database)
    (username : String) : Except String Performed :=
  if !circumstances.isSuperuser && circumstances.currentUser != username then
    .error <|
      "Permission denied: Only superuser or user '" ++ username ++
      "' can clear their login attempts"
  else
    (clearLoginAttemptsInternal database.attempts username true
        circumstances.draw.now circumstances.decidedAt).map
      fun effect => ⟨{ database with attempts := effect.table },
        effect.pending, "Login attempts cleared"⟩

/-- `DELETE … WHERE username = $1` on each of the tables. -/
def removeRoleState (circumstances : Circumstances) (database : Database)
    (username : String) : Except String Performed :=
  (Lockout.removeRoleState database.attempts username
      ⟨circumstances.isSuperuser, circumstances.roleExists username⟩).map
    fun (effect, message) =>
      ⟨{ attempts := effect.table
         history := database.history.filter fun row => row.username ≠ username
         expiry := database.expiry.erase username },
        effect.pending, message⟩

/-- `UPDATE password_history SET username = $2 WHERE username = $1`. -/
def renameHistory (history : PasswordHistory)
    (oldUsername newUsername : String) : PasswordHistory :=
  history.map fun row =>
    if row.username = oldUsername then { row with username := newUsername }
    else row

/-- `UPDATE password_expiry SET username = $2 WHERE username = $1`. -/
def renameExpiry (table : PasswordExpiry) (oldUsername newUsername : String) :
    PasswordExpiry :=
  match table.lookup oldUsername with
  | none => table
  | some row => (table.erase oldUsername).insert newUsername row

def expiryDecisionFromDb (table : PasswordExpiry) (username : String) :
    ExpiryDecision :=
  match table.lookup username with
  | some ⟨some lastChanged, some mustChangeBy, some graceRemaining⟩ =>
      .set mustChangeBy lastChanged graceRemaining
  | _ => .clear

/-- The other tables of the new name, besides `login_attempts`. -/
def Database.hasOtherState (database : Database) (username : String) : Bool :=
  !(database.history.of username).isEmpty ||
    (database.expiry.lookup username).isSome

def renameRoleState (circumstances : Circumstances) (database : Database)
    (oldUsername newUsername : String) : Except String Performed :=
  let expiry := renameExpiry database.expiry oldUsername newUsername
  (Lockout.renameRoleState database.attempts oldUsername newUsername
      { isSuperuser := circumstances.isSuperuser
        oldRoleExists := circumstances.roleExists oldUsername
        newRoleExists := circumstances.roleExists newUsername
        targetHasOtherState := database.hasOtherState newUsername
        newExpiry := expiryDecisionFromDb expiry newUsername }
      circumstances.decidedAt).map
    fun (effect, message) =>
      if oldUsername = newUsername then ⟨database, effect.pending, message⟩
      else
        ⟨{ attempts := effect.table
           history :=
             renameHistory database.history oldUsername newUsername
           expiry },
          effect.pending, message⟩

def recordPasswordChange (circumstances : Circumstances) (database : Database)
    (username newPassword : String) : Except String Performed :=
  (PasswordChange.recordPasswordChange circumstances.digests
      circumstances.calendar circumstances.settings
      ⟨database.history, database.expiry, .new⟩ username newPassword
      circumstances.draw).map
    fun (written, message) =>
      ⟨{ database with
          history := written.history
          expiry := written.expiry },
        written.pending, message⟩

def perform (circumstances : Circumstances) (database : Database) :
    Request → Except String Performed
  | .recordFailedLogin username =>
      recordFailedLogin circumstances database username.value
  | .clearLoginAttempts username =>
      clearLoginAttempts circumstances database username.value
  | .removeRoleState username =>
      removeRoleState circumstances database username.value
  | .renameRoleState oldUsername newUsername =>
      renameRoleState circumstances database oldUsername.value
        newUsername.value
  | .recordPasswordChange username newPassword =>
      recordPasswordChange circumstances database username.value
        newPassword.value

/-! ## What a call stages -/

def Stages (pending : PendingState) (names : List String) : Prop :=
  ∃ items, pending.Holds items ∧
    ∀ entry ∈ items, ∃ name ∈ names, entry.username = encodeUsername name

theorem stages_new (names : List String) : Stages .new names :=
  ⟨[], PendingState.holds_new, nofun⟩

theorem Stages.stageInner {pending staged : PendingState}
    {names : List String} (stages : Stages pending names) {username : String}
    (member : username ∈ names)
    {decision : Option PendingCacheOp.CacheDecision} {expiry : ExpiryDecision}
    (succeeded : stageInner pending username decision expiry = .ok staged) :
    Stages staged names := by
  rcases stages with ⟨items, holds, named⟩
  have result := stageInner_eq_ok succeeded
  rcases PendingState.stageEntry_cases holds (encodeUsername username) decision
      expiry topSubTransactionId with
    ⟨before, old, after, rfl, _, _, replaced⟩ |
      ⟨_, ⟨_, _, appended⟩ | ⟨_, full⟩⟩
  · rw [result] at replaced
    refine ⟨_, replaced, fun entry isEntry => ?_⟩
    rcases List.mem_append.mp isEntry with earlier | rest
    · exact named entry (List.mem_append_left _ earlier)
    · rcases List.mem_cons.mp rest with rfl | later
      · exact named old (List.mem_append_right _ List.mem_cons_self)
      · exact named entry
          (List.mem_append_right _ (List.mem_cons_of_mem _ later))
  · rw [result] at appended
    refine ⟨_, appended, fun entry isEntry => ?_⟩
    rcases List.mem_append.mp isEntry with earlier | last
    · exact named entry earlier
    · exact ⟨username, member, by rw [List.mem_singleton.mp last]⟩
  · rw [result] at full
    cases full

/-! ## What a call leaves alone -/

section Others

variable {username other : String} (different : other ≠ username)
include different

theorem lookup_resetExpired_other (table : LoginAttempts)
    (now : TimestampTz) :
    (table.resetExpired username now).lookup other = table.lookup other := by
  rw [LoginAttempts.resetExpired]
  split
  · rfl
  split
  · exact AList.lookup_insert_ne different
  · rfl

theorem lookup_countFailure_other (table : LoginAttempts)
    (maxFails lockoutMinutes : Int) (now : TimestampTz) :
    (table.countFailure username maxFails lockoutMinutes now).lookup other =
      table.lookup other := by
  rw [LoginAttempts.countFailure]
  split
  · exact AList.lookup_insert_ne different
  · exact AList.lookup_insert_ne different

theorem of_remove_other (history : PasswordHistory) :
    PasswordHistory.of (history.filter fun row => row.username ≠ username)
      other = history.of other := by
  rw [PasswordHistory.of, PasswordHistory.of, List.filter_filter]
  apply List.filter_congr
  intro row _
  by_cases own : row.username = other
  · simp [own, different]
  · simp [own]

theorem of_append_other (history : PasswordHistory) {row : HistoryRow}
    (own : row.username = username) :
    PasswordHistory.of (history ++ [row]) other = history.of other := by
  have elsewhere : row.username ≠ other := own ▸ different.symm
  rw [PasswordHistory.of, PasswordHistory.of, List.filter_append]
  simp [elsewhere]

end Others

section Renamed

variable {oldUsername newUsername other : String}
  (notOld : other ≠ oldUsername) (notNew : other ≠ newUsername)
include notOld notNew

theorem lookup_rename_other (table : LoginAttempts) :
    (table.rename oldUsername newUsername).lookup other =
      table.lookup other := by
  rw [LoginAttempts.rename]
  split
  · rfl
  · rw [AList.lookup_insert_ne notNew, AList.lookup_erase_ne notOld]

theorem lookup_renameExpiry_other (table : PasswordExpiry) :
    (renameExpiry table oldUsername newUsername).lookup other =
      table.lookup other := by
  rw [renameExpiry]
  split
  · rfl
  · rw [AList.lookup_insert_ne notNew, AList.lookup_erase_ne notOld]

theorem of_renameHistory_other (history : PasswordHistory) :
    (renameHistory history oldUsername newUsername).of other =
      history.of other := by
  induction history with
  | nil => rfl
  | cons row rest induction =>
      rw [PasswordHistory.of, renameHistory] at induction ⊢
      rw [List.map_cons, List.filter_cons, induction, PasswordHistory.of,
        PasswordHistory.of, List.filter_cons]
      by_cases own : row.username = oldUsername
      · have notOther : row.username ≠ other := own ▸ notOld.symm
        simp [own, notNew.symm, notOld.symm]
      · simp [own]

end Renamed

/-- A call stages operations for the touched names, and the rows of every other
name are as before. -/
structure Performed.Confined (performed : Performed) (database : Database)
    (names touched : List String) : Prop where
  stages : Stages performed.pending touched
  attempts : ∀ role, role ∉ names →
    performed.database.attempts.lookup role = database.attempts.lookup role
  history : ∀ role, role ∉ names →
    performed.database.history.of role = database.history.of role
  expiry : ∀ role, role ∉ names →
    performed.database.expiry.lookup role = database.expiry.lookup role

section Confinement

variable {circumstances : Circumstances} {database : Database}
  {performed : Performed} {username : String}

theorem confined_nothing (message : String) (names touched : List String) :
    (Performed.mk database .new message).Confined database names touched where
  stages := stages_new touched
  attempts := fun _ _ => rfl
  history := fun _ _ => rfl
  expiry := fun _ _ => rfl

theorem recordFailedLogin_confined
    (succeeded : recordFailedLogin circumstances database username =
      .ok performed) :
    performed.Confined database [username] [username] := by
  rcases map_eq_ok succeeded with ⟨⟨effect, message⟩, recorded, rfl⟩
  rw [Lockout.recordFailedLogin] at recorded
  split at recorded
  · cases recorded
    exact confined_nothing _ _ _
  split at recorded
  · cases recorded
    exact confined_nothing _ _ _
  · rcases map_eq_ok recorded with ⟨pending, staged, same⟩
    cases same
    exact {
      stages := (stages_new _).stageInner (List.mem_singleton_self _) staged
      attempts := fun role others => by
        have different := List.ne_of_not_mem_cons others
        exact (lookup_countFailure_other different _ _ _ _).trans
          (lookup_resetExpired_other different _ _)
      history := fun _ _ => rfl
      expiry := fun _ _ => rfl }

theorem clearLoginAttempts_confined
    (succeeded : clearLoginAttempts circumstances database username =
      .ok performed) :
    performed.Confined database [username] [username] := by
  rw [clearLoginAttempts] at succeeded
  split at succeeded
  · cases succeeded
  rcases map_eq_ok succeeded with ⟨effect, cleared, rfl⟩
  have single : ¬(if (database.attempts.lookup username).isSome then 1
      else 0) > 1 := by
    split <;> decide
  rw [clearLoginAttemptsInternal, if_pos rfl, if_neg single] at cleared
  rcases map_eq_ok cleared with ⟨pending, staged, rfl⟩
  exact {
    stages := (stages_new _).stageInner (List.mem_singleton_self _) staged
    attempts := fun role others =>
      AList.lookup_erase_ne (List.ne_of_not_mem_cons others)
    history := fun _ _ => rfl
    expiry := fun _ _ => rfl }

theorem removeRoleState_confined
    (succeeded : removeRoleState circumstances database username =
      .ok performed) :
    performed.Confined database [username] [username] := by
  rcases map_eq_ok succeeded with ⟨⟨effect, message⟩, removed, rfl⟩
  rw [Lockout.removeRoleState] at removed
  split at removed
  · cases removed
  split at removed
  · cases removed
  split at removed
  · cases removed
  · rcases map_eq_ok removed with ⟨pending, staged, same⟩
    cases same
    exact {
      stages := (stages_new _).stageInner (List.mem_singleton_self _) staged
      attempts := fun role others =>
        AList.lookup_erase_ne (List.ne_of_not_mem_cons others)
      history := fun role others =>
        of_remove_other (List.ne_of_not_mem_cons others) _
      expiry := fun role others =>
        AList.lookup_erase_ne (List.ne_of_not_mem_cons others) }

theorem recordPasswordChange_confined {newPassword : String}
    (succeeded : recordPasswordChange circumstances database username
      newPassword = .ok performed) :
    performed.Confined database [username] [username] := by
  rcases map_eq_ok succeeded with ⟨⟨written, message⟩, recorded, rfl⟩
  rcases map_eq_ok recorded with ⟨⟨after, inserted⟩, changed, same⟩
  cases same
  rcases recordPasswordChangeInternal_eq_ok.mp changed with
    ⟨historyChanged, expiryChanged⟩
  have history : ∀ role, role ∉ [username] →
      written.history.of role = database.history.of role := by
    intro role others
    rcases recordHistory_cases historyChanged with
      ⟨same, _⟩ | ⟨pwdHash, _, _, same, _⟩
    · rw [same]
    · rw [same]
      exact of_append_other (List.ne_of_not_mem_cons others) _ rfl
  rcases recordExpiry_cases expiryChanged with
    ⟨_, inserts, staged⟩ | ⟨_, erases, staged⟩
  · exact {
      stages := (stages_new _).stageInner (List.mem_singleton_self _) staged
      attempts := fun _ _ => rfl
      history
      expiry := fun role others => by
        change written.expiry.lookup role = _
        rw [inserts]
        exact AList.lookup_insert_ne (List.ne_of_not_mem_cons others) }
  · exact {
      stages := (stages_new _).stageInner (List.mem_singleton_self _) staged
      attempts := fun _ _ => rfl
      history
      expiry := fun role others => by
        change written.expiry.lookup role = _
        rw [erases]
        exact AList.lookup_erase_ne (List.ne_of_not_mem_cons others) }

theorem renameRoleState_confined {oldUsername newUsername : SqlText}
    (succeeded : renameRoleState circumstances database oldUsername.value
      newUsername.value = .ok performed) :
    performed.Confined database [oldUsername.value, newUsername.value]
      (Request.renameRoleState oldUsername newUsername).touched := by
  rcases map_eq_ok succeeded with ⟨⟨effect, message⟩, renamed, rfl⟩
  rw [Lockout.renameRoleState] at renamed
  split at renamed
  · cases renamed
  split at renamed
  · cases renamed
  split at renamed
  · next same =>
      cases renamed
      dsimp only
      rw [if_pos same]
      exact confined_nothing _ _ _
  next different =>
  split at renamed
  · cases renamed
  next roles =>
  split at renamed
  · cases renamed
  split at renamed
  · cases renamed
  next first stagedOld =>
  rcases map_eq_ok renamed with ⟨pending, stagedNew, isEffect⟩
  cases isEffect
  dsimp only
  rw [if_neg different]
  have newRole : IsRoleName newUsername.value := by
    apply circumstances.roles_named
    simp only [Circumstances.roleExists, Bool.or_eq_true, Bool.not_eq_true',
      not_or, Bool.not_eq_false, List.contains_iff_mem] at roles
    exact roles.2
  have touched : (Request.renameRoleState oldUsername newUsername).touched =
      [oldUsername.value, newUsername.value] := by
    rw [Request.touched, if_neg]
    exact not_or.mpr ⟨different, not_not.mpr newRole⟩
  rw [touched]
  have notOld : ∀ role, role ∉ [oldUsername.value, newUsername.value] →
      role ≠ oldUsername.value := fun _ => List.ne_of_not_mem_cons
  have notNew : ∀ role, role ∉ [oldUsername.value, newUsername.value] →
      role ≠ newUsername.value := fun _ others =>
    List.ne_of_not_mem_cons (List.not_mem_of_not_mem_cons others)
  exact {
    stages := by
      have firstStages := (stages_new [oldUsername.value,
        newUsername.value]).stageInner List.mem_cons_self stagedOld
      exact firstStages.stageInner
        (List.mem_cons_of_mem _ (List.mem_singleton_self _)) stagedNew
    attempts := fun role others =>
      lookup_rename_other (notOld role others) (notNew role others) _
    history := fun role others =>
      of_renameHistory_other (notOld role others) (notNew role others) _
    expiry := fun role others =>
      lookup_renameExpiry_other (notOld role others) (notNew role others) _ }

theorem perform_confined {request : Request}
    (succeeded : perform circumstances database request = .ok performed) :
    performed.Confined database request.names request.touched := by
  cases request with
  | recordFailedLogin username => exact recordFailedLogin_confined succeeded
  | clearLoginAttempts username => exact clearLoginAttempts_confined succeeded
  | removeRoleState username => exact removeRoleState_confined succeeded
  | renameRoleState oldUsername newUsername =>
      exact renameRoleState_confined succeeded
  | recordPasswordChange username newPassword =>
      exact recordPasswordChange_confined succeeded

end Confinement

end PasswordProfile.Administration
