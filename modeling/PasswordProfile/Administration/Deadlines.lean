import PasswordProfile.Administration.RoleState

/-! # Deadlines

When a password must be changed and which generation it is, in a row of
`password_expiry`, in an entry of the expiry cache and in a staged operation.
Every call stages, for the rows it rewrites, the deadline it has written, and a
commit brings each of them into the cache.
-/

namespace PasswordProfile.Administration

open SlotTable
open Expiry (ExpiryCache ExpiryEntry ExpiryRow PasswordExpiry)
open Lockout (map_eq_ok stageInner stageInner_holds)
open PasswordChange
open PendingCacheOp (ExpiryDecision PendingEntry PendingState)

structure Deadline where
  mustChangeBy : TimestampTz
  generation : TimestampTz
  deriving DecidableEq, Repr

def rowDeadline (row : ExpiryRow) : Option Deadline :=
  row.dated.map fun dated => ⟨dated.mustChangeBy, dated.lastChanged⟩

def committedDeadline (table : PasswordExpiry) (username : String) :
    Option Deadline :=
  (table.lookup username).bind rowDeadline

def entryDeadline (entry : ExpiryEntry) : Deadline :=
  ⟨entry.mustChangeBy, entry.generation⟩

def cachedDeadline (cache : ExpiryCache) (username : EncodedUsername) :
    Option Deadline :=
  (cache.held username).map entryDeadline

def decidedDeadline : ExpiryDecision → Option Deadline
  | .none => none
  | .set mustChangeBy generation _ => some ⟨mustChangeBy, generation⟩
  | .clear => none

/-- A row with a deadline has a grace allowance. -/
def Complete (table : PasswordExpiry) : Prop :=
  ∀ username row, table.lookup username = some row →
    (rowDeadline row).isSome → row.graceLoginsRemaining.isSome

theorem Complete.decided {table : PasswordExpiry} (complete : Complete table)
    (username : String) :
    decidedDeadline (expiryDecisionFromDb table username) =
      committedDeadline table username := by
  rw [expiryDecisionFromDb, committedDeadline]
  cases found : table.lookup username with
  | none => rfl
  | some row =>
      have whole := complete username row found
      rcases row with ⟨_ | lastChanged, _ | mustChangeBy, _ | grace⟩
      · rfl
      · rfl
      · rfl
      · rfl
      · rfl
      · rfl
      · have impossible := whole rfl
        cases impossible
      · rfl

/-! ## What a call stages about the deadlines -/

def expiryDecisions (pending : PendingState) :
    List (EncodedUsername × ExpiryDecision) :=
  (PendingCacheOp.applyAll pending).filterMap fun
    | .lock _ _ => none
    | .expiry username decision => some (username, decision)

/-- The names whose row of `password_expiry` a call may write. -/
def Request.rewritten : Request → List String
  | recordFailedLogin _ => []
  | clearLoginAttempts _ => []
  | removeRoleState username => [username.value]
  | renameRoleState oldUsername newUsername =>
      if oldUsername.value = newUsername.value then []
      else [oldUsername.value, newUsername.value]
  | recordPasswordChange username _ => [username.value]

theorem expiryDecisions_of_holds {pending : PendingState}
    {items : List PendingEntry} (holds : pending.Holds items) :
    expiryDecisions pending = items.filterMap fun entry =>
      entry.expiry.effective.map fun decision =>
        (entry.username, decision) := by
  rw [expiryDecisions, PendingCacheOp.applyAll_of_holds holds]
  clear holds
  induction items with
  | nil => rfl
  | cons entry rest induction =>
      rw [List.flatMap_cons, List.filterMap_append, induction,
        List.filterMap_cons]
      rcases entry with ⟨username, decision, expiry, subid⟩
      cases decision <;> cases expiry <;>
        simp [PendingEntry.lockCalls, PendingEntry.expiryCalls,
          ExpiryDecision.effective]

theorem expiryDecisions_single {username : String}
    {decision : Option PendingCacheOp.CacheDecision}
    {expiry : ExpiryDecision} {pending : PendingState}
    (staged : stageInner .new username decision expiry = .ok pending) :
    expiryDecisions pending = expiry.effective.toList.map
      fun decided => (encodeUsername username, decided) := by
  have holds := stageInner_holds PendingState.holds_new (by simp) staged
  rw [expiryDecisions_of_holds holds, List.nil_append]
  cases carried : expiry.effective with
  | none => simp [carried]
  | some decided => simp [carried]

theorem effective_expiryDecisionFromDb (table : PasswordExpiry)
    (username : String) :
    (expiryDecisionFromDb table username).effective =
      some (expiryDecisionFromDb table username) := by
  rw [expiryDecisionFromDb]
  split <;> rfl

theorem expiryDecisionFromDb_ne_none (table : PasswordExpiry)
    (username : String) : expiryDecisionFromDb table username ≠ .none := by
  intro same
  have effective := effective_expiryDecisionFromDb table username
  rw [same] at effective
  cases effective

theorem expiryDecisionFromDb_erase (table : PasswordExpiry)
    (username : String) :
    expiryDecisionFromDb (table.erase username) username = .clear := by
  rw [expiryDecisionFromDb, AList.lookup_erase]

theorem expiryDecisionFromDb_renamed {oldUsername newUsername : String}
    (different : oldUsername ≠ newUsername) (table : PasswordExpiry) :
    expiryDecisionFromDb (renameExpiry table oldUsername newUsername)
      oldUsername = .clear := by
  rw [renameExpiry]
  cases found : table.lookup oldUsername with
  | none => rw [expiryDecisionFromDb, found]
  | some row =>
      rw [expiryDecisionFromDb, AList.lookup_insert_ne different,
        AList.lookup_erase]

/-- Every call stages, for the names it rewrites and for no other, what its
version of the table says about them. -/
structure Performed.Describes (performed : Performed) (before : PasswordExpiry)
    (names : List String) : Prop where
  distinct : names.Nodup
  decisions : expiryDecisions performed.pending = names.map fun name =>
    (encodeUsername name,
      expiryDecisionFromDb performed.database.expiry name)
  complete : Complete before → Complete performed.database.expiry

section Describing

variable {circumstances : Circumstances} {database : Database}
  {performed : Performed} {username : String}

theorem recordFailedLogin_describesExpiry
    (succeeded : recordFailedLogin circumstances database username =
      .ok performed) : performed.Describes database.expiry [] := by
  rcases map_eq_ok succeeded with ⟨⟨effect, message⟩, recorded, rfl⟩
  refine ⟨List.nodup_nil, ?_, fun complete => complete⟩
  rw [Lockout.recordFailedLogin] at recorded
  split at recorded
  · cases recorded
    exact expiryDecisions_of_holds PendingState.holds_new
  split at recorded
  · cases recorded
    exact expiryDecisions_of_holds PendingState.holds_new
  · rcases map_eq_ok recorded with ⟨pending, staged, same⟩
    cases same
    exact expiryDecisions_single staged

theorem clearLoginAttempts_describesExpiry
    (succeeded : clearLoginAttempts circumstances database username =
      .ok performed) : performed.Describes database.expiry [] := by
  rw [clearLoginAttempts] at succeeded
  split at succeeded
  · cases succeeded
  rcases map_eq_ok succeeded with ⟨effect, cleared, rfl⟩
  refine ⟨List.nodup_nil, ?_, fun complete => complete⟩
  rw [Lockout.clearLoginAttemptsInternal] at cleared
  have few : ¬(if (database.attempts.lookup username).isSome = true then 1
      else 0) > 1 := by
    split <;> omega
  simp only [if_true, few, if_false] at cleared
  rcases map_eq_ok cleared with ⟨pending, staged, rfl⟩
  exact expiryDecisions_single staged

theorem Complete.erase {table : PasswordExpiry} (complete : Complete table)
    (username : String) : Complete (table.erase username) := by
  intro other row found
  by_cases same : other = username
  · rw [same, AList.lookup_erase] at found
    cases found
  · rw [AList.lookup_erase_ne same] at found
    exact complete other row found

theorem Complete.insert {table : PasswordExpiry} (complete : Complete table)
    {username : String} {row : ExpiryRow}
    (whole : (rowDeadline row).isSome → row.graceLoginsRemaining.isSome) :
    Complete (table.insert username row) := by
  intro other written found
  by_cases same : other = username
  · rw [same, AList.lookup_insert] at found
    cases found
    exact whole
  · rw [AList.lookup_insert_ne same] at found
    exact complete other written found

theorem removeRoleState_describesExpiry
    (succeeded : removeRoleState circumstances database username =
      .ok performed) : performed.Describes database.expiry [username] := by
  rcases map_eq_ok succeeded with ⟨⟨effect, message⟩, removed, rfl⟩
  rw [Lockout.removeRoleState] at removed
  split at removed
  · cases removed
  split at removed
  · cases removed
  split at removed
  · cases removed
  · rcases map_eq_ok removed with ⟨pending, staged, same⟩
    cases same
    refine ⟨List.nodup_singleton username, ?_, fun complete =>
      complete.erase username⟩
    rw [List.map_singleton, expiryDecisionFromDb_erase]
    exact expiryDecisions_single staged

theorem recordPasswordChange_describesExpiry {newPassword : String}
    (succeeded : recordPasswordChange circumstances database username
      newPassword = .ok performed) :
    performed.Describes database.expiry [username] := by
  rcases map_eq_ok succeeded with ⟨⟨written, message⟩, recorded, rfl⟩
  rcases map_eq_ok recorded with ⟨⟨after, inserted⟩, changed, same⟩
  cases same
  rcases recordPasswordChangeInternal_eq_ok.mp changed with
    ⟨_, expiryChanged⟩
  refine ⟨List.nodup_singleton username, ?_, fun complete => ?_⟩
  · change expiryDecisions written.pending = [(encodeUsername username,
      expiryDecisionFromDb written.expiry username)]
    rcases recordExpiry_cases expiryChanged with
      ⟨_, inserts, staged⟩ | ⟨_, erases, staged⟩
    · rw [inserts, expiryDecisionFromDb, AList.lookup_insert]
      exact expiryDecisions_single staged
    · rw [erases, expiryDecisionFromDb_erase]
      exact expiryDecisions_single staged
  · change Complete written.expiry
    rcases recordExpiry_cases expiryChanged with
      ⟨_, inserts, _⟩ | ⟨_, erases, _⟩
    · rw [inserts]
      exact complete.insert fun _ => rfl
    · rw [erases]
      exact complete.erase username

theorem Complete.rename {table : PasswordExpiry} (complete : Complete table)
    (oldUsername newUsername : String) :
    Complete (renameExpiry table oldUsername newUsername) := by
  rw [renameExpiry]
  cases found : table.lookup oldUsername with
  | none => exact complete
  | some row =>
      exact (complete.erase oldUsername).insert
        (complete oldUsername row found)

theorem renameRoleState_describesExpiry {oldUsername newUsername : String}
    (oldRole : IsRoleName oldUsername) (newRole : IsRoleName newUsername)
    (succeeded : renameRoleState circumstances database oldUsername
      newUsername = .ok performed) :
    performed.Describes database.expiry
      (if oldUsername = newUsername then []
        else [oldUsername, newUsername]) := by
  rcases map_eq_ok succeeded with ⟨⟨effect, message⟩, renamed, rfl⟩
  rw [Lockout.renameRoleState] at renamed
  split at renamed
  · cases renamed
  split at renamed
  · cases renamed
  split at renamed
  · next same =>
      cases renamed
      dsimp only
      rw [if_pos same, if_pos same]
      exact ⟨List.nodup_nil,
        expiryDecisions_of_holds PendingState.holds_new,
        fun complete => complete⟩
  next different =>
  split at renamed
  · cases renamed
  split at renamed
  · cases renamed
  split at renamed
  · cases renamed
  next first stagedOld =>
  rcases map_eq_ok renamed with ⟨pending, stagedNew, isEffect⟩
  cases isEffect
  dsimp only
  rw [if_neg different, if_neg different]
  have apart : encodeUsername oldUsername ≠ encodeUsername newUsername :=
    fun same => different (encodeUsername_injective oldRole newRole same)
  have firstHolds := stageInner_holds PendingState.holds_new (by simp)
    stagedOld
  have holds := stageInner_holds firstHolds (by simpa using apart) stagedNew
  refine ⟨by simpa using different, ?_, fun complete =>
    complete.rename oldUsername newUsername⟩
  have cleared : ExpiryDecision.clear.effective = some .clear := rfl
  rw [expiryDecisions_of_holds holds]
  simp [cleared, expiryDecisionFromDb_renamed different,
    effective_expiryDecisionFromDb]

theorem perform_describesExpiry {request : Request}
    (roles : ∀ name ∈ request.names, IsRoleName name)
    (succeeded : perform circumstances database request = .ok performed) :
    performed.Describes database.expiry request.rewritten := by
  cases request with
  | recordFailedLogin username =>
      exact recordFailedLogin_describesExpiry succeeded
  | clearLoginAttempts username =>
      exact clearLoginAttempts_describesExpiry succeeded
  | removeRoleState username =>
      exact removeRoleState_describesExpiry succeeded
  | renameRoleState oldUsername newUsername =>
      exact renameRoleState_describesExpiry
        (roles _ List.mem_cons_self)
        (roles _ (List.mem_cons_of_mem _ List.mem_cons_self)) succeeded
  | recordPasswordChange username newPassword =>
      exact recordPasswordChange_describesExpiry succeeded

theorem Request.rewritten_subset (request : Request) :
    request.rewritten ⊆ request.names := by
  cases request with
  | recordFailedLogin username => exact List.nil_subset _
  | clearLoginAttempts username => exact List.nil_subset _
  | removeRoleState username => exact List.Subset.refl _
  | renameRoleState oldUsername newUsername =>
      rw [Request.rewritten]
      split
      · exact List.nil_subset _
      · exact List.Subset.refl _
  | recordPasswordChange username newPassword => exact List.Subset.refl _

end Describing

/-! ## Applying the decisions of a commit -/

section Applying

variable {cache : ExpiryCache} {username : EncodedUsername}

theorem held_clearEntry_self (wellFormed : cache.WellFormed) :
    (cache.clearEntry username).1.held username = none :=
  (@release_spec _ _ _ _ _ cache.entries username .empty wellFormed
    ExpiryEntry.owner_empty).2.1

theorem wellFormed_setEntry (wellFormed : cache.WellFormed)
    (mustChangeBy generation : TimestampTz) (graceRemaining : Int) :
    (cache.setEntry username mustChangeBy generation
      graceRemaining).1.WellFormed := by
  rw [ExpiryCache.setEntry]
  split
  · exact wellFormed
  next used =>
  split
  · next entries placed =>
      apply (place_spec wellFormed _ placed).1
      exact ExpiryEntry.owner_eq_some_iff.mpr
        ⟨Bool.eq_false_of_not_eq_true used, rfl⟩
  · exact wellFormed

theorem cachedDeadline_setEntry (wellFormed : cache.WellFormed)
    (used : username.isFree = false) (mustChangeBy generation : TimestampTz)
    (graceRemaining : Int)
    (ready : (cache.setEntry username mustChangeBy generation
      graceRemaining).1.readState = .ready) :
    cachedDeadline (cache.setEntry username mustChangeBy generation
        graceRemaining).1 username = some ⟨mustChangeBy, generation⟩ ∧
      cache.readState = .ready := by
  rw [ExpiryCache.setEntry, if_neg (by simp [used])] at ready ⊢
  cases placed : place ExpiryEntry.owner (fun entry => entry.username.isFree)
      cache.entries username
      ⟨username, mustChangeBy, generation, max graceRemaining 0⟩ with
  | none =>
      rw [placed] at ready
      cases ready
  | some entries =>
      rw [placed] at ready
      have owned : (ExpiryEntry.mk username mustChangeBy generation
          (max graceRemaining 0)).owner = some username :=
        ExpiryEntry.owner_eq_some_iff.mpr ⟨used, rfl⟩
      have here := (place_spec wellFormed owned placed).2.1
      refine ⟨?_, ready⟩
      rw [cachedDeadline]
      change (contents ExpiryEntry.owner entries username).map
        entryDeadline = _
      rw [here]
      rfl

theorem applyDecision_result (wellFormed : cache.WellFormed)
    (used : username.isFree = false) {decision : ExpiryDecision}
    (effective : decision ≠ .none) :
    (cache.applyDecision (username, decision)).WellFormed ∧
      (∀ other, other ≠ username →
        cachedDeadline (cache.applyDecision (username, decision)) other =
          cachedDeadline cache other) ∧
      ((cache.applyDecision (username, decision)).readState = .ready →
        cache.readState = .ready ∧
          cachedDeadline (cache.applyDecision (username, decision)) username =
            decidedDeadline decision) := by
  cases decision with
  | none => exact absurd rfl effective
  | set mustChangeBy generation graceRemaining =>
      refine ⟨wellFormed_setEntry wellFormed _ _ _, fun other different => ?_,
        fun ready => ?_⟩
      · exact congrArg (Option.map entryDeadline)
          (cache.held_setEntry_other different _ _ _)
      · have landed := cachedDeadline_setEntry wellFormed used mustChangeBy
          generation graceRemaining ready
        exact ⟨landed.2, landed.1⟩
  | clear =>
      have released := @release_spec _ _ _ _ _ cache.entries username .empty
        wellFormed ExpiryEntry.owner_empty
      refine ⟨released.1, fun other different => ?_, fun ready => ?_⟩
      · exact congrArg (Option.map entryDeadline)
          (cache.held_clearEntry_other different)
      · exact ⟨ready, congrArg (Option.map entryDeadline)
          (held_clearEntry_self wellFormed)⟩

theorem applyDecision_foldl
    {decisions : List (EncodedUsername × ExpiryDecision)}
    (distinct : (decisions.map Prod.fst).Nodup)
    (used : ∀ entry ∈ decisions, entry.1.isFree = false)
    (effective : ∀ entry ∈ decisions, entry.2 ≠ .none)
    (wellFormed : cache.WellFormed) :
    (decisions.foldl ExpiryCache.applyDecision cache).WellFormed ∧
      ((decisions.foldl ExpiryCache.applyDecision cache).readState = .ready →
        cache.readState = .ready ∧
        (∀ other, other ∉ decisions.map Prod.fst →
          cachedDeadline (decisions.foldl ExpiryCache.applyDecision cache)
            other = cachedDeadline cache other) ∧
        ∀ username decision, (username, decision) ∈ decisions →
          cachedDeadline (decisions.foldl ExpiryCache.applyDecision cache)
            username = decidedDeadline decision) := by
  induction decisions generalizing cache with
  | nil =>
      refine ⟨wellFormed, fun ready => ⟨ready, fun _ _ => rfl, ?_⟩⟩
      intro _ _ member
      cases member
  | cons first rest induction =>
      rcases first with ⟨username, decision⟩
      rw [List.map_cons, List.nodup_cons] at distinct
      rcases applyDecision_result wellFormed (used _ List.mem_cons_self)
        (effective _ List.mem_cons_self) with ⟨formed, keeps, lands⟩
      rcases induction distinct.2
        (fun entry member => used entry (List.mem_cons_of_mem _ member))
        (fun entry member => effective entry (List.mem_cons_of_mem _ member))
        formed with ⟨wellFormedAfter, restLands⟩
      rw [List.foldl_cons]
      refine ⟨wellFormedAfter, fun ready => ?_⟩
      rcases restLands ready with ⟨readyBetween, others, landed⟩
      rcases lands readyBetween with ⟨readyBefore, firstLanded⟩
      refine ⟨readyBefore, fun other absent => ?_, fun user decided member => ?_⟩
      · rw [List.map_cons, List.mem_cons, not_or] at absent
        rw [others other absent.2, keeps other absent.1]
      · rcases List.mem_cons.mp member with here | later
        · rw [Prod.mk.injEq] at here
          rcases here with ⟨rfl, rfl⟩
          -- the rest of the decisions are about other users
          rw [others user distinct.1]
          exact firstLanded
        · exact landed user decided later

end Applying

end PasswordProfile.Administration
