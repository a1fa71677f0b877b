import PasswordProfile.Lockout.Hydration
import PasswordProfile.Expiry.PasswordExpiry
import PasswordProfile.Bypass.Cache

/-! # When a hydration ends ready

A ready cache answers for every role as its table does: the count that decides
readiness and the rows that are installed cannot disagree. A table row without
a name is counted and never prepared, so it alone makes a hydration overflow.
-/

namespace PasswordProfile.Worker

open Bypass Expiry Lockout

/-! ## Agreement with the tables -/

/-- The lock cache answers for every user as the table does, from the moment
it was installed, and nothing else is left in it. -/
structure LockCacheAgrees (cache : LockCache) (table : LoginAttempts)
    (appliedAt : TimestampTz) : Prop where
  lookup : ∀ username, IsUsername username → username ≠ "" →
    ∀ now, appliedAt ≤ now → ∀ expiresAt,
      cache.findActive (encodeUsername username) now = some expiresAt ↔
        table.lockoutUntil username = some expiresAt ∧ now < expiresAt
  selected : ∀ slot encoded, (cache.entries slot).owner = some encoded →
    ∃ username, encoded = encodeUsername username ∧
      table.lockoutUntil username = some (cache.entries slot).expiresAt

structure ExpiryCacheAgrees (cache : ExpiryCache) (table : PasswordExpiry) :
    Prop where
  lookup : ∀ username, IsUsername username → username ≠ "" → ∀ entry,
    cache.held (encodeUsername username) = some entry ↔
      ∃ row, table.lookup username = some row ∧ row.Describes username entry
  selected : ∀ slot encoded, (cache.entries slot).owner = some encoded →
    ∃ username row, encoded = encodeUsername username ∧
      table.lookup username = some row ∧
      row.Describes username (cache.entries slot)

structure BypassCacheAgrees (cache : BypassCache) (exempt : List String) :
    Prop where
  lookup : ∀ username, IsUsername username → username ≠ "" →
    (cache.lookup username = .bypassed ↔ username ∈ exempt)
  selected : ∀ slot encoded, entryOwner (cache.entries slot) = some encoded →
    ∃ username ∈ exempt, encoded = encodeUsername username

section Lock

variable {table : LoginAttempts} {cache : LockCache}
  {now appliedAt : TimestampTz}

theorem activeRoles_of_ready
    (names : ∀ username, (table.lookup username).isSome → IsUsername username)
    (complete : (Snapshot.read table now).overflow = 0) :
    table.ActiveRoles now := by
  intro row member
  have nonempty :=
    ((Snapshot.overflow_read_eq_zero_iff table now).mp complete).2 row member
  have locked := (LoginAttempts.mem_activeRows.mp member).1
  rcases Option.bind_eq_some_iff.mp locked with ⟨_, found, _⟩
  exact (names row.1 (by rw [found]; rfl)).isRoleName nonempty

theorem lockCacheAgrees_of_ready
    (names : ∀ username, (table.lookup username).isSome → IsUsername username)
    (later : now ≤ appliedAt)
    (ready : ((Snapshot.read table now).install cache appliedAt).1.readState =
      .ready) :
    LockCacheAgrees ((Snapshot.read table now).install cache appliedAt).1
      table appliedAt := by
  rw [Snapshot.readState_install, Snapshot.newState_eq_ready_iff] at ready
  have roles := activeRoles_of_ready names ready
  have wellFormed := Snapshot.wellFormed_install roles cache appliedAt
  have held := @Snapshot.held_install table now roles ready cache appliedAt
    later
  refine ⟨fun username valid nonempty instant since expiresAt => ?_,
    fun slot encoded owned => ?_⟩
  · rw [wellFormed.findActive_eq_some_iff, held]
    constructor
    · intro given
      rcases given with ⟨⟨name, encodes, locked, active⟩, current⟩
      have nameRole := roles (name, expiresAt)
        (LoginAttempts.mem_activeRows.mpr
          ⟨locked, lt_of_le_of_lt later active⟩)
      have same := encodeUsername_injective (valid.isRoleName nonempty)
        nameRole encodes
      rw [same]
      exact ⟨locked, current⟩
    · intro given
      rcases given with ⟨locked, current⟩
      exact ⟨⟨username, rfl, locked, lt_of_le_of_lt since current⟩, current⟩
  · have stored : ((Snapshot.read table now).install cache appliedAt).1.held
        encoded = some (((Snapshot.read table now).install cache
          appliedAt).1.entries slot).expiresAt := by
      rw [LockCache.held, Option.map_eq_some_iff]
      exact ⟨_, (SlotTable.Unshared.contents_eq_some_iff wellFormed).mpr
        ⟨slot, rfl, owned⟩, rfl⟩
    rcases held.mp stored with ⟨username, encodes, locked, _⟩
    exact ⟨username, encodes, locked⟩

end Lock

section ExpiryCache

variable {table : PasswordExpiry} {cache : ExpiryCache}

theorem datedRoles_of_ready
    (names : ∀ username, (table.lookup username).isSome → IsUsername username)
    (complete : (ExpirySnapshot.read table).overflow = 0) :
    table.DatedRoles := by
  intro row member
  have nonempty :=
    ((ExpirySnapshot.overflow_read_eq_zero_iff table).mp complete).2 row member
  have found := PasswordExpiry.mem_datedRows.mp member
  rcases Option.bind_eq_some_iff.mp found with ⟨_, found, _⟩
  exact (names row.1 (by rw [found]; rfl)).isRoleName nonempty

theorem expiryCacheAgrees_of_ready
    (names : ∀ username, (table.lookup username).isSome → IsUsername username)
    (ready : ((ExpirySnapshot.read table).install cache).1.readState =
      .ready) :
    ExpiryCacheAgrees ((ExpirySnapshot.read table).install cache).1 table := by
  rw [ExpirySnapshot.readState_install,
    ExpirySnapshot.newState_eq_ready_iff] at ready
  have roles := datedRoles_of_ready names ready
  have wellFormed := ExpirySnapshot.wellFormed_install roles cache
  have held := @ExpirySnapshot.held_install table roles ready cache
  have fromRow : ∀ {encoded entry},
      ((ExpirySnapshot.read table).install cache).1.held encoded =
        some entry → ∃ username row, encoded = encodeUsername username ∧
          IsRoleName username ∧ table.lookup username = some row ∧
          row.Describes username entry := by
    intro encoded entry stored
    rcases held.mp stored with ⟨username, dated, encodes, found, prepares⟩
    have role := roles (username, dated)
      (PasswordExpiry.mem_datedRows.mpr found)
    rcases Option.bind_eq_some_iff.mp found with ⟨row, present, dates⟩
    exact ⟨username, row, encodes, role, present,
      ExpiryRow.describes_iff.mpr ⟨dated, dates, prepares⟩⟩
  refine ⟨fun username valid nonempty entry => ?_,
    fun slot encoded owned => ?_⟩
  · constructor
    · intro stored
      rcases fromRow stored with ⟨name, row, encodes, nameRole, rest⟩
      have same := encodeUsername_injective (valid.isRoleName nonempty)
        nameRole encodes
      subst same
      exact ⟨row, rest⟩
    · intro given
      rcases given with ⟨row, present, describes⟩
      rcases ExpiryRow.describes_iff.mp describes with ⟨dated, dates, prepares⟩
      apply held.mpr
      exact ⟨username, dated, rfl,
        Option.bind_eq_some_iff.mpr ⟨row, present, dates⟩, prepares⟩
  · rcases fromRow ((SlotTable.Unshared.contents_eq_some_iff wellFormed).mpr
        ⟨slot, rfl, owned⟩) with ⟨username, row, encodes, _, rest⟩
    exact ⟨username, row, encodes, rest⟩

end ExpiryCache

section BypassCache

variable {exempt : List String} {cache : BypassCache}

theorem bypassCacheAgrees_of_ready
    (names : ∀ username ∈ exempt, IsUsername username)
    (distinct : exempt.Nodup)
    (ready : ((BypassSnapshot.read exempt).install cache).1.readState =
      .ready) :
    BypassCacheAgrees ((BypassSnapshot.read exempt).install cache).1
      exempt := by
  have complete := ready
  rw [BypassSnapshot.readState_install,
    BypassSnapshot.newState_eq_ready_iff] at complete
  have nonempty :=
    ((BypassSnapshot.overflow_read_eq_zero_iff exempt).mp complete).2
  have roles : ∀ username ∈ exempt, IsRoleName username :=
    fun username member =>
      (names username member).isRoleName (nonempty username member)
  have holds := @BypassSnapshot.holds_install exempt roles distinct complete
    cache
  refine ⟨fun username valid named => ?_, fun slot encoded owned => ?_⟩
  · have role := valid.isRoleName named
    rw [BypassCache.lookup_eq_bypassed_iff ready role, holds]
    constructor
    · intro given
      rcases given with ⟨name, member, encodes⟩
      have same := encodeUsername_injective role (roles name member) encodes
      rwa [same]
    · intro member
      exact ⟨username, member, rfl⟩
  · exact holds.mp ⟨slot, owned⟩

end BypassCache

/-- Whatever the caches held before, a hydration that ends ready has made them
agree with the tables. -/
theorem hydration_ready_exact (attempts : LoginAttempts)
    (expiry : PasswordExpiry) (exempt : List String)
    (attemptNames : ∀ username,
      (attempts.lookup username).isSome → IsUsername username)
    (expiryNames : ∀ username,
      (expiry.lookup username).isSome → IsUsername username)
    (exemptNames : ∀ username ∈ exempt, IsUsername username)
    (exemptDistinct : exempt.Nodup) :
    (∀ (cache after : LockCache) (stats : HydrationStats)
        (now appliedAt : TimestampTz), now ≤ appliedAt →
      hydrateFromDb cache (some attempts) now appliedAt = .ok (after, stats) →
      after.readState = .ready → LockCacheAgrees after attempts appliedAt) ∧
    (∀ (cache after : ExpiryCache) (stats : ExpiryHydrationStats),
      hydrateExpiryFromDb cache (some expiry) = .ok (after, stats) →
      after.readState = .ready → ExpiryCacheAgrees after expiry) ∧
    (∀ cache : BypassCache,
      (refreshBypassCache cache exempt).1.readState = .ready →
      BypassCacheAgrees (refreshBypassCache cache exempt).1 exempt) := by
  refine ⟨fun cache after stats now appliedAt later hydrated ready => ?_,
    fun cache after stats hydrated ready => ?_, fun cache ready => ?_⟩
  · cases hydrated
    exact @lockCacheAgrees_of_ready attempts cache now appliedAt attemptNames
      later ready
  · cases hydrated
    exact @expiryCacheAgrees_of_ready expiry cache expiryNames ready
  · exact @bypassCacheAgrees_of_ready exempt cache exemptNames exemptDistinct
      ready

/-- A lockout that has ended, and one that has not. -/
def twoAttempts : LoginAttempts :=
  (AList.singleton "carol" ⟨5, 0, some 0⟩).insert "alice" ⟨3, 0, some 100⟩

/-- A password without a deadline, and one that has expired. -/
def twoDeadlines : PasswordExpiry :=
  (AList.singleton "carol" ⟨some 1, none, none⟩).insert "bob"
    ⟨some 1, some 2, none⟩

theorem hydration_ready_exact_twoRows :
    ∃ lockCache stats expiryCache expiryStats,
      hydrateFromDb .init (some twoAttempts) 0 1 = .ok (lockCache, stats) ∧
        lockCache.findActive (encodeUsername "alice") 50 = some 100 ∧
        lockCache.findActive (encodeUsername "carol") 50 = none ∧
        hydrateExpiryFromDb .init (some twoDeadlines) =
          .ok (expiryCache, expiryStats) ∧
        expiryCache.held (encodeUsername "bob") =
          some ⟨encodeUsername "bob", 2, 1, 0⟩ ∧
        expiryCache.held (encodeUsername "carol") = none ∧
        (refreshBypassCache .init ["admin"]).1.lookup "admin" = .bypassed := by
  have attemptNames : ∀ username ∈ twoAttempts.keys, IsUsername username := by
    decide +kernel
  have expiryNames : ∀ username ∈ twoDeadlines.keys, IsUsername username := by
    decide +kernel
  have exact := hydration_ready_exact twoAttempts twoDeadlines ["admin"]
    (fun username present =>
      attemptNames username (AList.lookup_isSome.mp present))
    (fun username present =>
      expiryNames username (AList.lookup_isSome.mp present))
    (by decide +kernel) (by decide)
  have lock := exact.1 .init _ _ 0 1 (by decide) rfl (by decide +kernel)
  have expiry := exact.2.1 .init _ _ rfl (by decide +kernel)
  have bypass := exact.2.2 .init (by decide +kernel)
  have alice := lock.lookup "alice" (attemptNames _ (by decide))
    (by decide) 50 (by decide) 100
  have bob := expiry.lookup "bob" (expiryNames _ (by decide))
    (by decide) ⟨encodeUsername "bob", 2, 1, 0⟩
  have carol : IsUsername "carol" := attemptNames _ (by decide)
  refine ⟨_, _, _, _, rfl, alice.mpr (by decide), ?_, rfl,
    bob.mpr ⟨⟨some 1, some 2, none⟩, by decide, rfl, rfl, rfl, rfl⟩, ?_,
    (bypass.lookup "admin" (by decide +kernel) (by decide)).mpr
      List.mem_cons_self⟩
  · apply Option.eq_none_iff_forall_ne_some.mpr
    intro expiresAt active
    have given := (lock.lookup "carol" carol (by decide) 50 (by decide)
      expiresAt).mp active
    have ended : twoAttempts.lockoutUntil "carol" = some 0 := by decide
    rw [ended] at given
    cases given.1
    exact absurd given.2 (by decide)
  · apply Option.eq_none_iff_forall_ne_some.mpr
    intro entry held
    rcases (expiry.lookup "carol" carol (by decide) entry).mp held with
      ⟨row, present, describes⟩
    have undated : twoDeadlines.lookup "carol" = some ⟨some 1, none, none⟩ := by
      decide
    rw [undated] at present
    cases present
    cases describes.1

/-! ## When a hydration overflows -/

theorem hydrateFromDb_complete_iff {table : LoginAttempts} {cache : LockCache}
    {now appliedAt : TimestampTz} :
    (∃ after stats,
        hydrateFromDb cache (some table) now appliedAt = .ok (after, stats) ∧
          stats.overflow = 0 ∧ after.readState = .ready) ↔
      (Snapshot.read table now).overflow = 0 := by
  have ready := Snapshot.newState_eq_ready_iff (Snapshot.read table now)
  have stored := Snapshot.readState_install (Snapshot.read table now) cache
    appliedAt
  constructor
  · intro given
    rcases given with ⟨after, stats, hydrated, complete, _⟩
    cases hydrated
    exact complete
  · intro complete
    exact ⟨_, _, rfl, complete, stored.trans (ready.mpr complete)⟩

theorem hydrateExpiryFromDb_complete_iff {table : PasswordExpiry}
    {cache : ExpiryCache} :
    (∃ after stats,
        hydrateExpiryFromDb cache (some table) = .ok (after, stats) ∧
          stats.overflow = 0 ∧ after.readState = .ready) ↔
      (ExpirySnapshot.read table).overflow = 0 := by
  have ready := ExpirySnapshot.newState_eq_ready_iff (ExpirySnapshot.read table)
  have stored := ExpirySnapshot.readState_install (ExpirySnapshot.read table)
    cache
  constructor
  · intro given
    rcases given with ⟨after, stats, hydrated, complete, _⟩
    cases hydrated
    exact complete
  · intro complete
    exact ⟨_, _, rfl, complete, stored.trans (ready.mpr complete)⟩

theorem activeRows_named_iff (table : LoginAttempts) (now : TimestampTz) :
    (∀ row ∈ table.activeRows now, row.1 ≠ "") ↔
      ∀ expiresAt, table.lockoutUntil "" = some expiresAt →
        expiresAt ≤ now := by
  constructor
  · intro named expiresAt locked
    by_contra active
    have member := LoginAttempts.mem_activeRows.mpr
      ⟨locked, lt_of_not_ge active⟩
    exact named _ member rfl
  · intro inactive row member nameless
    rcases row with ⟨username, expiresAt⟩
    change username = "" at nameless
    subst nameless
    rcases LoginAttempts.mem_activeRows.mp member with ⟨locked, active⟩
    exact absurd (inactive expiresAt locked) (not_le.mpr active)

theorem datedRows_named_iff (table : PasswordExpiry) :
    (∀ row ∈ table.datedRows, row.1 ≠ "") ↔
      (table.lookup "").bind ExpiryRow.dated = none := by
  constructor
  · intro named
    by_contra some
    rcases Option.ne_none_iff_exists'.mp some with ⟨dated, found⟩
    exact named _ (PasswordExpiry.mem_datedRows.mpr found) rfl
  · intro undated row member nameless
    rcases row with ⟨username, dated⟩
    change username = "" at nameless
    subst nameless
    have found := PasswordExpiry.mem_datedRows.mp member
    rw [undated] at found
    cases found

/-- Within the capacity, only a row without a name makes a hydration
overflow. -/
theorem hydration_fits_iff_named (attempts : LoginAttempts)
    (expiry : PasswordExpiry) :
    (∀ (cache : LockCache) (now appliedAt : TimestampTz),
      (attempts.activeRows now).length ≤ lockCacheSize →
      ((∃ after stats,
          hydrateFromDb cache (some attempts) now appliedAt =
              .ok (after, stats) ∧
            stats.overflow = 0 ∧ after.readState = .ready) ↔
        ∀ expiresAt, attempts.lockoutUntil "" = some expiresAt →
          expiresAt ≤ now)) ∧
    (∀ cache : ExpiryCache, expiry.datedRows.length ≤ expiryCacheSize →
      ((∃ after stats,
          hydrateExpiryFromDb cache (some expiry) = .ok (after, stats) ∧
            stats.overflow = 0 ∧ after.readState = .ready) ↔
        (expiry.lookup "").bind ExpiryRow.dated = none)) := by
  refine ⟨fun cache now appliedAt fits => ?_, fun cache fits => ?_⟩
  · rw [hydrateFromDb_complete_iff, Snapshot.overflow_read_eq_zero_iff,
      activeRows_named_iff]
    exact and_iff_right fits
  · rw [hydrateExpiryFromDb_complete_iff,
      ExpirySnapshot.overflow_read_eq_zero_iff, datedRows_named_iff]
    exact and_iff_right fits

theorem hydration_fits_iff_named_twoRows :
    (∃ after stats,
      hydrateFromDb .init (some twoAttempts) 0 1 = .ok (after, stats) ∧
        stats.overflow = 0 ∧ after.readState = .ready) ∧
    ∃ after stats,
      hydrateExpiryFromDb .init (some twoDeadlines) = .ok (after, stats) ∧
        stats.overflow = 0 ∧ after.readState = .ready := by
  have named := hydration_fits_iff_named twoAttempts twoDeadlines
  refine ⟨(named.1 .init 0 1 (by decide +kernel)).mpr ?_,
    (named.2 .init (by decide +kernel)).mpr (by decide)⟩
  intro expiresAt locked
  have missing : twoAttempts.lockoutUntil "" = none := by decide
  rw [missing] at locked
  cases locked

/-- The lockout that two failures recorded for the empty name leave, when two
are enough. -/
def namelessLockout : LoginAttempts :=
  (LoginAttempts.countFailure ∅ "" 2 1 0).countFailure "" 2 1 0

theorem hydration_overflows_nameless :
    (namelessLockout.activeRows 1).length ≤ lockCacheSize ∧
      ∃ after stats,
        hydrateFromDb .init (some namelessLockout) 1 2 = .ok (after, stats) ∧
          stats.overflow = 1 ∧ after.readState = .overflow :=
  ⟨by decide +kernel, _, _, rfl, by decide +kernel, by decide +kernel⟩

end PasswordProfile.Worker
