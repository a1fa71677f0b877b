import PasswordProfile.Administration.RoleState
import PasswordProfile.Expiry.GraceLedger

/-! # Which roles a call can affect

The rows are separate for different texts. The cache entries are separate as
long as no touched name is cut down by the encoding to the name of another
role.
-/

namespace PasswordProfile.Administration

open Expiry (ExpiryCache)
open Lockout PasswordChange
open PendingCacheOp (CacheCall applyAll)

structure Caches where
  lock : LockCache
  expiry : ExpiryCache

def target : CacheCall → EncodedUsername
  | .lock username _ => username
  | .expiry username _ => username

namespace Caches

/-- One call that `apply_all` makes, at the clock reading `now`. -/
def apply (caches : Caches) (now : TimestampTz) : CacheCall → Caches
  | .lock username decision =>
      { caches with lock := caches.lock.applyDecision now (username, decision) }
  | .expiry username decision =>
      { caches with expiry := caches.expiry.applyDecision (username, decision) }

/-- The call is refused for lack of capacity. -/
def Refuses (caches : Caches) (now : TimestampTz) : CacheCall → Prop
  | .lock username (.setLock expiresAt) =>
      caches.lock.Refuses username expiresAt now
  | .expiry username (.set ..) => caches.expiry.Refuses username
  | _ => False

/-- The calls of a commit, each with its clock reading. -/
def commit (caches : Caches) : List (CacheCall × TimestampTz) → Caches
  | [] => caches
  | (call, now) :: rest => (caches.apply now call).commit rest

def Fits (caches : Caches) : List (CacheCall × TimestampTz) → Prop
  | [] => True
  | (call, now) :: rest =>
      ¬caches.Refuses now call ∧ (caches.apply now call).Fits rest

end Caches

/-- The rows of the role, and what the caches answer about it at `time`. -/
structure Unaffected (role : String) (time : TimestampTz)
    (before after : Database × Caches) : Prop where
  attempts : after.1.attempts.lookup role = before.1.attempts.lookup role
  history : after.1.history.of role = before.1.history.of role
  expiry : after.1.expiry.lookup role = before.1.expiry.lookup role
  lockLookup : after.2.lock.remainingSeconds role time =
    before.2.lock.remainingSeconds role time
  expiryLookup : after.2.expiry.lookup role time =
    before.2.expiry.lookup role time

/-- Once a call has committed without a refusal, no other role is affected. -/
def TouchesOnlyNamed (request : Request) : Prop :=
  ∀ circumstances database performed caches calls,
    perform circumstances database request = .ok performed →
    calls.map Prod.fst = applyAll performed.pending → caches.Fits calls →
      ∀ role, IsRoleName role → role ∉ request.names →
        ∀ time, (∀ call ∈ calls, call.2 ≤ time) →
          Unaffected role time (database, caches)
            (performed.database, caches.commit calls)

/-- No touched name is cut down to a role name that was not passed. -/
def Request.KeepsNames (request : Request) : Prop :=
  ∀ name ∈ request.touched, ∀ cut ∈ cutUsername name, cut ∈ request.names

/-! ## Other keys -/

theorem Caches.apply_other {caches : Caches} {now time : TimestampTz}
    {call : CacheCall} {key : EncodedUsername} (different : key ≠ target call)
    (later : now ≤ time) (fits : ¬caches.Refuses now call) :
    (caches.apply now call).lock.findActive key time =
        caches.lock.findActive key time ∧
      (caches.apply now call).expiry.held key = caches.expiry.held key ∧
      (caches.apply now call).expiry.state = caches.expiry.state := by
  cases call with
  | lock username decision =>
      cases decision with
      | setLock expiresAt =>
          exact ⟨caches.lock.findActive_set_other different later, rfl, rfl⟩
      | clearLock =>
          exact ⟨caches.lock.findActive_clear_other different time, rfl, rfl⟩
  | expiry username decision =>
      cases decision with
      | none => exact ⟨rfl, rfl, rfl⟩
      | set mustChangeBy generation graceRemaining =>
          exact ⟨rfl, caches.expiry.held_setEntry_other different mustChangeBy
              generation graceRemaining,
            (ExpiryCache.setEntry_of_not_refuses fits mustChangeBy generation
              graceRemaining).2⟩
      | clear =>
          exact ⟨rfl, caches.expiry.held_clearEntry_other different, rfl⟩

theorem Caches.commit_other {time : TimestampTz} {key : EncodedUsername} :
    ∀ {calls : List (CacheCall × TimestampTz)} {caches : Caches},
      (∀ call ∈ calls, key ≠ target call.1 ∧ call.2 ≤ time) →
      caches.Fits calls →
      (caches.commit calls).lock.findActive key time =
          caches.lock.findActive key time ∧
        (caches.commit calls).expiry.held key = caches.expiry.held key ∧
        (caches.commit calls).expiry.state = caches.expiry.state
  | [], _, _, _ => ⟨rfl, rfl, rfl⟩
  | (call, now) :: rest, caches, others, fits => by
      rcases others (call, now) List.mem_cons_self with ⟨different, later⟩
      rcases Caches.apply_other different later fits.1 with
        ⟨lock, held, state⟩
      rcases Caches.commit_other (fun call member =>
        others call (List.mem_cons_of_mem _ member)) fits.2 with
        ⟨lockRest, heldRest, stateRest⟩
      exact ⟨lockRest.trans lock, heldRest.trans held, stateRest.trans state⟩

theorem expiry_lookup_congr {before after : ExpiryCache} {role : String}
    (held : after.held (encodeUsername role) =
      before.held (encodeUsername role))
    (state : after.state = before.state) (time : TimestampTz) :
    after.lookup role time = before.lookup role time := by
  rw [ExpiryCache.held, ExpiryCache.held] at held
  rw [ExpiryCache.lookup, ExpiryCache.lookup, ExpiryCache.readState,
    ExpiryCache.readState, state, held]

/-! ## Names that are kept -/

theorem Request.nulFree {request : Request} {name : String}
    (member : name ∈ request.names) :
    ∀ byte ∈ utf8Bytes name, byte ≠ 0 := by
  cases request with
  | renameRoleState oldUsername newUsername =>
      rcases List.mem_cons.mp member with rfl | last
      · exact oldUsername.nulFree
      · rw [List.mem_singleton.mp last]
        exact newUsername.nulFree
  | recordFailedLogin username =>
      rw [List.mem_singleton.mp member]
      exact username.nulFree
  | clearLoginAttempts username =>
      rw [List.mem_singleton.mp member]
      exact username.nulFree
  | removeRoleState username =>
      rw [List.mem_singleton.mp member]
      exact username.nulFree
  | recordPasswordChange username newPassword =>
      rw [List.mem_singleton.mp member]
      exact username.nulFree

theorem Request.touched_subset (request : Request) :
    request.touched ⊆ request.names := by
  cases request with
  | renameRoleState oldUsername newUsername =>
      rw [touched]
      split
      · exact List.nil_subset _
      · exact List.Subset.refl _
  | recordFailedLogin username => exact List.Subset.refl _
  | clearLoginAttempts username => exact List.Subset.refl _
  | removeRoleState username => exact List.Subset.refl _
  | recordPasswordChange username newPassword => exact List.Subset.refl _

theorem Request.KeepsNames.encode_ne {request : Request}
    (keeps : request.KeepsNames) {role name : String}
    (isRole : IsRoleName role) (others : role ∉ request.names)
    (member : name ∈ request.touched) :
    encodeUsername role ≠ encodeUsername name := by
  have passed := request.touched_subset member
  intro equal
  rcases (encodeUsername_eq_iff_cut isRole (nulFree passed)).mp equal with
    rfl | isCut
  · exact others passed
  · exact others (keeps name member role isCut)

theorem target_of_mem_calls {entry : PendingCacheOp.PendingEntry}
    {call : CacheCall} (called : call ∈ entry.lockCalls ++ entry.expiryCalls) :
    target call = entry.username := by
  rcases List.mem_append.mp called with onLock | onExpiry
  · rw [PendingCacheOp.PendingEntry.lockCalls] at onLock
    split at onLock
    · cases onLock
    · rw [List.mem_singleton.mp onLock]
      rfl
  · rw [PendingCacheOp.PendingEntry.expiryCalls] at onExpiry
    split at onExpiry
    · cases onExpiry
    · rw [List.mem_singleton.mp onExpiry]
      rfl
    · rw [List.mem_singleton.mp onExpiry]
      rfl

theorem Stages.target_mem {pending : PendingCacheOp.PendingState}
    {names : List String} (stages : Stages pending names) {call : CacheCall}
    (member : call ∈ applyAll pending) :
    ∃ name ∈ names, target call = encodeUsername name := by
  rcases stages with ⟨items, holds, named⟩
  rw [PendingCacheOp.applyAll_of_holds holds, List.mem_flatMap] at member
  rcases member with ⟨entry, isEntry, called⟩
  rcases named entry isEntry with ⟨name, isName, encoded⟩
  exact ⟨name, isName, (target_of_mem_calls called).trans encoded⟩

theorem Request.KeepsNames.touchesOnlyNamed {request : Request}
    (keeps : request.KeepsNames) : TouchesOnlyNamed request := by
  intro circumstances database performed caches calls succeeded applied fits
    role isRole others time later
  have confined := perform_confined succeeded
  have apart : ∀ call ∈ calls,
      encodeUsername role ≠ target call.1 ∧ call.2 ≤ time := by
    intro call member
    have called : call.1 ∈ applyAll performed.pending :=
      applied ▸ List.mem_map_of_mem member
    rcases confined.stages.target_mem called with ⟨name, touched, isTarget⟩
    rw [isTarget]
    exact ⟨keeps.encode_ne isRole others touched, later call member⟩
  rcases Caches.commit_other apart fits with ⟨lock, held, state⟩
  exact {
    attempts := confined.attempts role others
    history := confined.history role others
    expiry := confined.expiry role others
    lockLookup := by
      rw [LockCache.remainingSeconds, LockCache.remainingSeconds]
      exact congrArg (Option.bind · _) lock
    expiryLookup := expiry_lookup_congr held state time }

/-! ## Names that are cut -/

def Removes : CacheCall → Prop
  | .lock _ .clearLock => True
  | .expiry _ .clear => True
  | _ => False

theorem Caches.fits_of_removes :
    ∀ {calls : List (CacheCall × TimestampTz)} (caches : Caches),
      (∀ call ∈ calls, Removes call.1) → caches.Fits calls
  | [], _, _ => trivial
  | (call, now) :: rest, caches, removes => by
      refine ⟨?_, Caches.fits_of_removes _ fun other member =>
        removes other (List.mem_cons_of_mem _ member)⟩
      have removing := removes (call, now) List.mem_cons_self
      cases call with
      | lock username decision =>
          cases decision with
          | setLock expiresAt => exact absurd removing id
          | clearLock => exact id
      | expiry username decision =>
          cases decision with
          | none => exact id
          | set mustChangeBy generation graceRemaining =>
              exact absurd removing id
          | clear => exact id

theorem findActive_clear_self {cache : LockCache}
    (wellFormed : cache.WellFormed) (key : EncodedUsername)
    (time : TimestampTz) :
    (cache.clear key).1.WellFormed ∧
      (cache.clear key).1.findActive key time = none := by
  have cleared := (wellFormed.clear_result key time).1
  refine ⟨cleared, ?_⟩
  rw [Option.eq_none_iff_forall_ne_some]
  intro expiresAt found
  have held := (cleared.findActive_eq_some_iff.mp found).1
  rw [wellFormed.held_clear_self] at held
  cases held

theorem findActive_commit_removes {key : EncodedUsername}
    {time : TimestampTz} :
    ∀ {calls : List (CacheCall × TimestampTz)} {lock : LockCache}
      {expiry : ExpiryCache}, lock.WellFormed →
      lock.findActive key time = none →
      (∀ call ∈ calls, Removes call.1) →
      (Caches.commit ⟨lock, expiry⟩ calls).lock.findActive key time = none
  | [], _, _, _, missing, _ => missing
  | (call, now) :: rest, lock, expiry, wellFormed, missing, removes => by
      have removing := removes (call, now) List.mem_cons_self
      have later := fun other member =>
        removes other (List.mem_cons_of_mem _ member)
      rw [Caches.commit]
      cases call with
      | lock username decision =>
          cases decision with
          | setLock expiresAt => exact absurd removing id
          | clearLock =>
              rcases findActive_clear_self wellFormed username time with
                ⟨cleared, gone⟩
              refine findActive_commit_removes cleared ?_ later
              by_cases same : key = username
              · rw [same]
                exact gone
              · exact (lock.findActive_clear_other same time).trans missing
      | expiry username decision =>
          cases decision with
          | none => exact absurd removing id
          | set mustChangeBy generation graceRemaining =>
              exact absurd removing id
          | clear => exact findActive_commit_removes wellFormed missing later

theorem remainingSeconds_commit_unlock {cache : LockCache}
    {expiry : ExpiryCache} (wellFormed : cache.WellFormed)
    {role name : String} (same : encodeUsername role = encodeUsername name)
    {rest : List (CacheCall × TimestampTz)}
    (removes : ∀ call ∈ rest, Removes call.1) :
    (Caches.commit ⟨cache, expiry⟩
      ((.lock (encodeUsername name) .clearLock, 0) ::
        rest)).lock.remainingSeconds role 0 = none := by
  rcases findActive_clear_self wellFormed (encodeUsername name) 0 with
    ⟨cleared, gone⟩
  have missing := @findActive_commit_removes _ _ _ _ expiry cleared gone
    removes
  rw [Caches.commit, LockCache.remainingSeconds, same]
  exact congrArg (Option.bind · _) missing

/-- A cache with one lockout, of the role. -/
def lockedCache (role : String) : LockCache :=
  ((LockCache.init.setState .ready).set (encodeUsername role) 1 0).1

theorem lockedCache_spec {role : String} (isRole : IsRoleName role) :
    (lockedCache role).WellFormed ∧
      (lockedCache role).remainingSeconds role 0 = some 1 := by
  have wellFormed : (LockCache.init.setState .ready).WellFormed :=
    LockCache.wellFormed_init
  have result := wellFormed.set_result (encodeUsername role) 1 0
  have positive : 0 < lockCacheSize := by
    rw [lockCacheSize]
    decide
  have fits : ¬(LockCache.init.setState .ready).Refuses
      (encodeUsername role) 1 0 := by
    intro refuses
    have full := (refuses.2.2 ⟨0, positive⟩).2
    exact Bool.noConfusion full
  have ready : ((LockCache.init.setState .ready).set (encodeUsername role) 1
      0).1.readState = .ready := by
    rw [LockCache.readState, (LockCache.set_of_not_refuses fits).2]
    rfl
  have held := result.held (encodeUsername_not_free isRole) (by decide) ready
  have found := result.wellFormed.findActive_eq_some_iff.mpr
    ⟨held, (by decide : (0 : TimestampTz) < 1)⟩
  refine ⟨result.wellFormed, ?_⟩
  rw [LockCache.remainingSeconds, lockedCache, found]
  rfl

theorem exists_cached {role : String} (isRole : IsRoleName role) :
    ∃ cache : ExpiryCache, cache.WellFormed ∧
      cache.lookup role 0 = .notExpired := by
  have wellFormed : (ExpiryCache.init.setState .ready).WellFormed :=
    ExpiryCache.wellFormed_init
  have fits := ExpiryCache.init_not_refuses (encodeUsername role)
  rcases ExpiryCache.setEntry_of_not_refuses fits 1 0 0 with ⟨refused, state⟩
  rcases wellFormed.setEntry_cases (encodeUsername role) 1 0 0 with
    ⟨_, concerns⟩ | ⟨overflowed, _⟩
  · refine ⟨_, concerns.wellFormed, ?_⟩
    have held := concerns.here
    rw [ExpiryCache.held] at held
    rw [ExpiryCache.lookup, ExpiryCache.readState, state, held]
    rfl
  · have free := refused overflowed
    rw [encodeUsername_not_free isRole] at free
    cases free

section Cut

variable {request : Request} {circumstances : Circumstances}
  {database : Database} {performed : Performed} {name cut : String}
  (succeeded : perform circumstances database request = .ok performed)
  (nulFree : ∀ byte ∈ utf8Bytes name, byte ≠ 0)
  (isCut : cutUsername name = some cut) (others : cut ∉ request.names)
include succeeded nulFree isCut others

theorem not_touchesOnlyNamed_of_unlocks {rest : List CacheCall}
    (called : applyAll performed.pending =
      .lock (encodeUsername name) .clearLock :: rest)
    (removes : ∀ call ∈ rest, Removes call) : ¬TouchesOnlyNamed request := by
  intro only
  have isRole := isRoleName_of_cutUsername nulFree isCut
  have same := (encodeUsername_eq_iff_cut isRole nulFree).mpr (.inr isCut)
  rcases lockedCache_spec isRole with ⟨wellFormed, locked⟩
  generalize lockedCache cut = cache at wellFormed locked
  have later : ∀ call ∈ rest.map fun call => (call, (0 : TimestampTz)),
      Removes call.1 := by
    intro call member
    rcases List.mem_map.mp member with ⟨original, isRest, rfl⟩
    exact removes original isRest
  have unaffected := only circumstances database performed
    ⟨cache, .init⟩
    ((.lock (encodeUsername name) .clearLock, 0) ::
      rest.map fun call => (call, 0))
    succeeded (by rw [called]; simp [Function.comp_def])
    ⟨id, Caches.fits_of_removes _ later⟩ cut isRole others 0
    (by simp [List.mem_map])
  have kept := unaffected.lockLookup.trans locked
  have missing := @remainingSeconds_commit_unlock cache .init wellFormed cut
    name same _ later
  exact Option.some_ne_none 1 (kept.symm.trans missing)

theorem not_touchesOnlyNamed_of_forgets
    (called : applyAll performed.pending =
      [.expiry (encodeUsername name) .clear]) :
    ¬TouchesOnlyNamed request := by
  intro only
  have isRole := isRoleName_of_cutUsername nulFree isCut
  have same := (encodeUsername_eq_iff_cut isRole nulFree).mpr (.inr isCut)
  rcases exists_cached isRole with ⟨cache, wellFormed, cached⟩
  have unaffected := only circumstances database performed
    ⟨.init, cache⟩
    [(.expiry (encodeUsername name) .clear, 0)] succeeded
    (by rw [called]; rfl) ⟨id, trivial⟩ cut isRole others 0 (by simp)
  have kept := unaffected.expiryLookup.trans cached
  have gone := (wellFormed.clearEntry_concerns (encodeUsername name)).here
  rw [ExpiryCache.held] at gone
  have forgotten : (cache.clearEntry (encodeUsername name)).1.lookup cut 0 ≠
      .notExpired := by
    rw [ExpiryCache.lookup, same, gone]
    split
    · intro other
      cases other
    · intro other
      cases other
  exact forgotten kept

end Cut

/-! ## Calls on an empty database -/

def emptyDatabase : Database := ⟨∅, [], ∅⟩

/-- A superuser's session, with history and expiry disabled. -/
def superuserAmong (roles : List String)
    (named : ∀ role ∈ roles, IsRoleName role) : Circumstances where
  currentUser := "postgres"
  isSuperuser := true
  roles
  roles_named := named
  policy := ⟨false, false, 5, 3⟩
  digests := ⟨fun _ _ _ => .error "", fun _ _ => none, id⟩
  calendar := .utc
  settings := ⟨0, 0, 0, 0, 10⟩
  draw := ⟨[], 1, 0, 0⟩
  decidedAt := 0

section Empty

variable {roles : List String} {named : ∀ role ∈ roles, IsRoleName role}

theorem stageInner_first (username : String)
    (decision : Option PendingCacheOp.CacheDecision)
    (expiry : PendingCacheOp.ExpiryDecision) :
    ∃ pending, stageInner .new username decision expiry = .ok pending ∧
      pending.Holds [⟨encodeUsername username, decision, expiry,
        topSubTransactionId⟩] := by
  have holds := PendingCacheOp.PendingState.holds_new
  rcases stageInner_succeeds holds (by decide) username decision expiry with
    ⟨pending, staged⟩
  exact ⟨pending, staged, stageInner_holds holds nofun staged⟩

theorem recordFailedLogin_unlocks (username : SqlText) :
    ∃ performed, perform (superuserAmong roles named) emptyDatabase
        (.recordFailedLogin username) = .ok performed ∧
      applyAll performed.pending =
        [.lock (encodeUsername username.value) .clearLock] := by
  rcases stageInner_first username.value (some .clearLock) .none with
    ⟨pending, staged, holds⟩
  have decided : decisionFromDb (LoginAttempts.countFailure
      (LoginAttempts.resetExpired ∅ username.value 0) username.value 3 5 0)
      username.value 0 = .clearLock := by
    rw [decisionFromDb, LoginAttempts.lockoutUntil,
      LoginAttempts.resetExpired, AList.lookup_empty]
    dsimp only
    rw [LoginAttempts.countFailure, AList.lookup_empty]
    dsimp only
    rw [AList.lookup_insert]
    rfl
  refine ⟨⟨{ emptyDatabase with
      attempts := LoginAttempts.countFailure
        (LoginAttempts.resetExpired ∅ username.value 0) username.value 3 5 0 },
    pending, "Failed login recorded"⟩, ?_, ?_⟩
  · simp only [perform, recordFailedLogin, Lockout.recordFailedLogin,
      superuserAmong, emptyDatabase, Bool.false_eq_true, if_false, decided,
      staged]
    rfl
  · exact PendingCacheOp.applyAll_of_holds holds

theorem clearLoginAttempts_unlocks (username : SqlText) :
    ∃ performed, perform (superuserAmong roles named) emptyDatabase
        (.clearLoginAttempts username) = .ok performed ∧
      applyAll performed.pending =
        [.lock (encodeUsername username.value) .clearLock] := by
  rcases stageInner_first username.value (some .clearLock) .none with
    ⟨pending, staged, holds⟩
  refine ⟨⟨{ emptyDatabase with attempts := AList.erase username.value ∅ },
    pending, "Login attempts cleared"⟩, ?_, ?_⟩
  · rw [perform, clearLoginAttempts, clearLoginAttemptsInternal, staged]
    rfl
  · exact PendingCacheOp.applyAll_of_holds holds

theorem removeRoleState_unlocks {username : SqlText}
    (nonempty : username.value ≠ "") (dropped : username.value ∉ roles) :
    ∃ performed, perform (superuserAmong roles named) emptyDatabase
        (.removeRoleState username) = .ok performed ∧
      applyAll performed.pending =
        [.lock (encodeUsername username.value) .clearLock,
          .expiry (encodeUsername username.value) .clear] := by
  rcases stageInner_first username.value (some .clearLock) .clear with
    ⟨pending, staged, holds⟩
  have gone : roles.contains username.value = false := by
    simpa using dropped
  refine ⟨⟨⟨AList.erase username.value ∅, [], AList.erase username.value ∅⟩,
    pending, "Role state removed"⟩, ?_, ?_⟩
  · simp only [perform, removeRoleState, Lockout.removeRoleState,
      superuserAmong, Circumstances.roleExists, emptyDatabase, Bool.not_true,
      Bool.false_eq_true, if_false, String.isEmpty_iff, nonempty, gone,
      staged]
    rfl
  · exact PendingCacheOp.applyAll_of_holds holds

theorem recordPasswordChange_forgets (username newPassword : SqlText) :
    ∃ performed, perform (superuserAmong roles named) emptyDatabase
        (.recordPasswordChange username newPassword) = .ok performed ∧
      applyAll performed.pending =
        [.expiry (encodeUsername username.value) .clear] := by
  rcases stageInner_first username.value none .clear with
    ⟨pending, staged, holds⟩
  have changed : recordPasswordChangeInternal
      (superuserAmong roles named).digests .utc ⟨0, 0, 0, 0, 10⟩
      ⟨[], ∅, .new⟩ username.value newPassword.value ⟨[], 1, 0, 0⟩ =
        .ok (⟨[], AList.erase username.value ∅, pending⟩, false) := by
    apply recordPasswordChangeInternal_eq_ok.mpr
    refine ⟨rfl, ?_⟩
    rw [recordExpiry, if_neg (by decide), staged]
    rfl
  refine ⟨⟨⟨∅, [], AList.erase username.value ∅⟩, pending,
    "Password already recorded; expiry metadata refreshed"⟩, ?_, ?_⟩
  · rw [perform, recordPasswordChange, PasswordChange.recordPasswordChange]
    exact congrArg (Except.map _) (congrArg (Except.map _) changed)
  · exact PendingCacheOp.applyAll_of_holds holds

theorem renameRoleState_unlocks {oldUsername newUsername : SqlText}
    (oldNonempty : oldUsername.value ≠ "")
    (newNonempty : newUsername.value ≠ "")
    (different : oldUsername.value ≠ newUsername.value)
    (apart : encodeUsername oldUsername.value ≠
      encodeUsername newUsername.value)
    (renamed : oldUsername.value ∉ roles)
    (present : newUsername.value ∈ roles) :
    ∃ performed, perform (superuserAmong roles named) emptyDatabase
        (.renameRoleState oldUsername newUsername) = .ok performed ∧
      applyAll performed.pending =
        [.lock (encodeUsername oldUsername.value) .clearLock,
          .expiry (encodeUsername oldUsername.value) .clear,
          .lock (encodeUsername newUsername.value) .clearLock,
          .expiry (encodeUsername newUsername.value) .clear] := by
  rcases stageInner_first oldUsername.value (some .clearLock) .clear with
    ⟨first, stagedOld, holdsOld⟩
  have room : [(⟨encodeUsername oldUsername.value, some .clearLock, .clear,
      topSubTransactionId⟩ : PendingCacheOp.PendingEntry)].length <
        PendingCacheOp.maxPendingOps := by
    rw [List.length_singleton]
    decide
  rcases stageInner_succeeds holdsOld room newUsername.value
    (some .clearLock) .clear with ⟨second, stagedNew⟩
  have holds := stageInner_holds holdsOld (by simpa using apart) stagedNew
  have oldNamed : oldUsername.value.isEmpty = false :=
    Bool.eq_false_of_not_eq_true fun empty =>
      oldNonempty (String.isEmpty_iff.mp empty)
  have newNamed : newUsername.value.isEmpty = false :=
    Bool.eq_false_of_not_eq_true fun empty =>
      newNonempty (String.isEmpty_iff.mp empty)
  have oldGone : roles.contains oldUsername.value = false := by
    simpa using renamed
  have newThere : roles.contains newUsername.value = true := by
    simpa using present
  have lock : decisionFromDb (LoginAttempts.rename ∅ oldUsername.value
      newUsername.value) newUsername.value 0 = .clearLock := rfl
  have expiry : expiryDecisionFromDb (renameExpiry ∅ oldUsername.value
      newUsername.value) newUsername.value = .clear := rfl
  refine ⟨⟨⟨LoginAttempts.rename ∅ oldUsername.value newUsername.value,
      renameHistory [] oldUsername.value newUsername.value,
      renameExpiry ∅ oldUsername.value newUsername.value⟩, second,
    "Role state renamed"⟩, ?_, ?_⟩
  · simp only [perform, renameRoleState, Lockout.renameRoleState,
      superuserAmong, Circumstances.roleExists, emptyDatabase, Bool.not_true,
      Bool.false_eq_true, if_false, oldNamed, newNamed, Bool.or_self,
      different, oldGone, newThere, lock, expiry, stagedOld, stagedNew]
    rfl
  · exact PendingCacheOp.applyAll_of_holds holds

end Empty

/-- A call affects no other role, in whatever state it is made, exactly when no
touched name is cut down to the name of such a role. -/
theorem touchesOnlyNamed_iff (request : Request) :
    TouchesOnlyNamed request ↔ request.KeepsNames := by
  refine ⟨?_, Request.KeepsNames.touchesOnlyNamed⟩
  intro only name touched cut isCut
  by_contra others
  have nulFree := Request.nulFree (request.touched_subset touched)
  have nonempty : name ≠ "" := by
    rintro rfl
    have whole : cutUsername "" = none := by decide
    rw [whole] at isCut
    cases isCut
  have nobody : ∀ role ∈ ([] : List String), IsRoleName role := nofun
  cases request with
  | recordFailedLogin username =>
      cases List.mem_singleton.mp touched
      rcases @recordFailedLogin_unlocks [] nobody username with
        ⟨_, succeeded, called⟩
      exact not_touchesOnlyNamed_of_unlocks succeeded nulFree isCut others
        called nofun only
  | clearLoginAttempts username =>
      cases List.mem_singleton.mp touched
      rcases @clearLoginAttempts_unlocks [] nobody username with
        ⟨_, succeeded, called⟩
      exact not_touchesOnlyNamed_of_unlocks succeeded nulFree isCut others
        called nofun only
  | removeRoleState username =>
      cases List.mem_singleton.mp touched
      rcases @removeRoleState_unlocks [] nobody username nonempty nofun with
        ⟨_, succeeded, called⟩
      exact not_touchesOnlyNamed_of_unlocks succeeded nulFree isCut others
        called (by simp [Removes]) only
  | renameRoleState oldUsername newUsername =>
      rw [Request.touched] at touched
      split at touched
      · cases touched
      next effective =>
      rw [not_or, not_not] at effective
      rcases effective with ⟨different, newRole⟩
      have cutRole := isRoleName_of_cutUsername nulFree isCut
      have cutSame := (encodeUsername_eq_iff_cut cutRole nulFree).mpr
        (.inr isCut)
      have cutApart : cut ≠ newUsername.value := fun same =>
        others (same ▸ List.mem_cons_of_mem _ (List.mem_singleton_self _))
      have isOld : name = oldUsername.value := by
        rcases List.mem_cons.mp touched with isOld | isNew
        · exact isOld
        · -- A role name is not cut at all.
          rw [List.mem_singleton.mp isNew] at cutSame
          exact absurd (encodeUsername_injective cutRole newRole cutSame)
            cutApart
      subst isOld
      have apart : encodeUsername oldUsername.value ≠
          encodeUsername newUsername.value := fun equal =>
        cutApart (encodeUsername_injective cutRole newRole
          (cutSame.trans equal))
      rcases @renameRoleState_unlocks [newUsername.value]
          (fun role member => List.mem_singleton.mp member ▸ newRole)
          oldUsername newUsername nonempty newRole.ne_empty different apart
          (by simpa using different) (List.mem_singleton_self _) with
        ⟨_, succeeded, called⟩
      exact not_touchesOnlyNamed_of_unlocks succeeded nulFree isCut others
        called (by simp [Removes]) only
  | recordPasswordChange username newPassword =>
      cases List.mem_singleton.mp touched
      rcases @recordPasswordChange_forgets [] nobody username newPassword with
        ⟨_, succeeded, called⟩
      exact not_touchesOnlyNamed_of_forgets succeeded nulFree isCut others
        called only

/-- A text of 64 bytes, and the role whose name is its first 63. -/
def longText : SqlText :=
  ⟨String.ofList (List.replicate 63 'a' ++ ['b']), by decide +kernel⟩

def shorterRole : String := String.ofList (List.replicate 63 'a')

/-- Clearing the attempts of the longer text unlocks the role. -/
theorem longText_unlocks_role :
    IsRoleName shorterRole ∧
      shorterRole ∉ (Request.clearLoginAttempts longText).names ∧
      (lockedCache shorterRole).remainingSeconds shorterRole 0 = some 1 ∧
      (∃ performed, perform (superuserAmong [] nofun) emptyDatabase
          (.clearLoginAttempts longText) = .ok performed ∧
        (Caches.commit ⟨lockedCache shorterRole, .init⟩
          ((applyAll performed.pending).map fun call =>
            (call, 0))).lock.remainingSeconds shorterRole 0 = none) ∧
      ¬TouchesOnlyNamed (.clearLoginAttempts longText) := by
  have isCut : cutUsername longText.value = some shorterRole := by
    decide
  have others : shorterRole ∉ (Request.clearLoginAttempts longText).names := by
    decide
  have isRole := isRoleName_of_cutUsername longText.nulFree isCut
  have same := (encodeUsername_eq_iff_cut isRole longText.nulFree).mpr
    (.inr isCut)
  rcases lockedCache_spec isRole with ⟨wellFormed, locked⟩
  rcases @clearLoginAttempts_unlocks [] nofun longText with
    ⟨performed, succeeded, called⟩
  refine ⟨isRole, others, locked, ⟨performed, succeeded, ?_⟩, ?_⟩
  · rw [called]
    exact remainingSeconds_commit_unlock wellFormed same nofun
  · exact not_touchesOnlyNamed_of_unlocks succeeded longText.nulFree isCut
      others called nofun

end PasswordProfile.Administration
