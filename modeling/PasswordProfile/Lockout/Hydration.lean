import PasswordProfile.Lockout.LoginAttempts
import PasswordProfile.Foundation.Selection

/-! # Hydration of the lock cache

The active lockouts are read under the table lock, furthest expiry first and
never more than fit, and then replace the whole cache. Only a hydration that
left nothing out ends `ready`.
-/

namespace PasswordProfile.Lockout

open Selection

/-- The rows with `lockout_until > now()`. -/
def LoginAttempts.activeRows (table : LoginAttempts) (now : TimestampTz) :
    List (String × TimestampTz) :=
  table.entries.filterMap fun row =>
    (row.2.lockoutUntil.filter (· > now)).map (row.1, ·)

/-- `ORDER BY lockout_until DESC, username ASC`. -/
def hydrationOrder (left right : String × TimestampTz) : Prop :=
  right.2 < left.2 ∨ left.2 = right.2 ∧ left.1 ≤ right.1

instance : DecidableRel hydrationOrder := fun left right =>
  inferInstanceAs
    (Decidable (right.2 < left.2 ∨ left.2 = right.2 ∧ left.1 ≤ right.1))

structure Snapshot where
  activeTotal : Int
  prepared : List LockEntry
  deriving DecidableEq, Repr

namespace Snapshot

/-- Stage 1 of `hydrate_from_db`, with `now` the start of its transaction. -/
def read (table : LoginAttempts) (now : TimestampTz) : Snapshot where
  activeTotal := (table.activeRows now).length
  prepared :=
    (select hydrationOrder lockCacheSize (table.activeRows now)).filterMap
      fun row =>
        if row.1.isEmpty then none else some ⟨encodeUsername row.1, row.2⟩

def overflow (snapshot : Snapshot) : Int :=
  max (snapshot.activeTotal - snapshot.prepared.length) 0

def newState (snapshot : Snapshot) : CacheState :=
  if snapshot.overflow = 0 then .ready else .overflow

/-- Stage 2 of `hydrate_from_db`. -/
def install (snapshot : Snapshot) (cache : LockCache) (now : TimestampTz) :
    LockCache × Int :=
  cache.applyHydratedEntries snapshot.prepared snapshot.activeTotal
    snapshot.overflow snapshot.newState now

end Snapshot

structure HydrationStats where
  activeTotal : Int
  loaded : Int
  overflow : Int
  deriving DecidableEq, Repr

/-- Both stages; there is no table before the extension is installed. -/
def hydrateFromDb (cache : LockCache) (table : Option LoginAttempts)
    (now appliedAt : TimestampTz) :
    Except String (LockCache × HydrationStats) :=
  match table with
  | none =>
      .error <|
        "lock cache hydration skipped: password_profile.login_attempts not " ++
        "available"
  | some table =>
      let snapshot := Snapshot.read table now
      let (installed, loaded) := snapshot.install cache appliedAt
      .ok (installed, ⟨snapshot.activeTotal, loaded, snapshot.overflow⟩)

/-! ## What a hydration installs -/

theorem LoginAttempts.mem_activeRows {table : LoginAttempts}
    {now expiresAt : TimestampTz} {username : String} :
    (username, expiresAt) ∈ table.activeRows now ↔
      table.lockoutUntil username = some expiresAt ∧ now < expiresAt := by
  rw [activeRows, List.mem_filterMap, lockoutUntil, Option.bind_eq_some_iff]
  constructor
  · intro given
    rcases given with ⟨⟨name, row⟩, member, kept⟩
    rcases Option.map_eq_some_iff.mp kept with ⟨expiry, filtered, same⟩
    cases same
    rcases Option.filter_eq_some_iff.mp filtered with ⟨held, active⟩
    exact ⟨⟨row, AList.mem_lookup_iff.mpr member, held⟩, by simpa using active⟩
  · intro given
    rcases given with ⟨⟨row, found, held⟩, active⟩
    refine ⟨⟨username, row⟩, AList.mem_lookup_iff.mp found, ?_⟩
    simp [held, active]

theorem LoginAttempts.activeRows_distinct (table : LoginAttempts)
    (now : TimestampTz) : ((table.activeRows now).map Prod.fst).Nodup := by
  apply filterMap_map_nodup table.nodupKeys
  intro row kept found
  rcases Option.map_eq_some_iff.mp found with ⟨_, _, rfl⟩
  rfl

def LoginAttempts.RoleNames (table : LoginAttempts) : Prop :=
  ∀ username, (table.lookup username).isSome → IsRoleName username

def LoginAttempts.ActiveRoles (table : LoginAttempts) (now : TimestampTz) :
    Prop :=
  ∀ row ∈ table.activeRows now, IsRoleName row.1

theorem LoginAttempts.RoleNames.activeRoles {table : LoginAttempts}
    (roles : table.RoleNames) (now : TimestampTz) : table.ActiveRoles now := by
  intro row member
  have held := (LoginAttempts.mem_activeRows.mp member).1
  rcases Option.bind_eq_some_iff.mp held with ⟨_, found, _⟩
  exact roles row.1 (by rw [found]; rfl)

namespace Snapshot

variable {table : LoginAttempts} {now : TimestampTz}

theorem newState_eq_ready_iff (snapshot : Snapshot) :
    snapshot.newState = .ready ↔ snapshot.overflow = 0 := by
  rw [newState]
  split <;> simp_all

theorem overflow_read_eq_zero_iff (table : LoginAttempts) (now : TimestampTz) :
    (read table now).overflow = 0 ↔
      (table.activeRows now).length ≤ lockCacheSize ∧
        ∀ row ∈ table.activeRows now, row.1 ≠ "" :=
  excess_eq_zero_iff

section Prepared

variable (roles : table.ActiveRoles now)
include roles

theorem read_prepared :
    (read table now).prepared =
      (select hydrationOrder lockCacheSize (table.activeRows now)).map
        fun row => ⟨encodeUsername row.1, row.2⟩ :=
  prepared_eq_map fun row member => (roles row member).ne_empty

theorem read_distinct :
    ((read table now).prepared.map LockEntry.username).Nodup := by
  rw [read_prepared roles, List.map_map]
  exact nodup_map_encodeUsername
    (select_map_nodup (table.activeRows_distinct now))
    (fun row member => roles row (mem_of_mem_select member))

theorem read_fits : (read table now).prepared.length ≤ lockCacheSize := by
  rw [read_prepared roles, List.length_map, select_length]
  exact Nat.min_le_left ..

theorem mem_read_prepared (complete : (read table now).overflow = 0)
    {entry : LockEntry} :
    entry ∈ (read table now).prepared ↔
      ∃ username, entry.username = encodeUsername username ∧
        table.lockoutUntil username = some entry.expiresAt ∧
        now < entry.expiresAt := by
  have fits := ((overflow_read_eq_zero_iff table now).mp complete).1
  rw [read_prepared roles, List.mem_map]
  constructor
  · intro given
    rcases given with ⟨⟨username, expiresAt⟩, selected, rfl⟩
    exact ⟨username, rfl,
      LoginAttempts.mem_activeRows.mp (mem_of_mem_select selected)⟩
  · intro given
    rcases given with ⟨username, same, held⟩
    refine ⟨(username, entry.expiresAt),
      mem_select fits (LoginAttempts.mem_activeRows.mpr held), ?_⟩
    rw [← same]

theorem wellFormed_install (cache : LockCache) (appliedAt : TimestampTz) :
    ((read table now).install cache appliedAt).1.WellFormed :=
  (LockCache.applyHydratedEntries_spec cache _ _ _ appliedAt
    (read_distinct roles) (read_fits roles)).1

theorem held_install (complete : (read table now).overflow = 0)
    (cache : LockCache) {appliedAt : TimestampTz} (later : now ≤ appliedAt)
    {encoded : EncodedUsername} {expiresAt : TimestampTz} :
    ((read table now).install cache appliedAt).1.held encoded =
        some expiresAt ↔
      ∃ username, encoded = encodeUsername username ∧
        table.lockoutUntil username = some expiresAt ∧
        appliedAt < expiresAt := by
  have spec := (LockCache.applyHydratedEntries_spec cache
    (read table now).activeTotal (read table now).overflow
    (read table now).newState appliedAt (read_distinct roles)
    (read_fits roles)).2 encoded expiresAt
  apply spec.trans
  rw [mem_read_prepared roles complete]
  constructor
  · intro given
    rcases given with ⟨⟨username, same, locked, _⟩, _, active⟩
    exact ⟨username, same, locked, active⟩
  · intro given
    rcases given with ⟨username, rfl, locked, active⟩
    have activeBefore := lt_of_le_of_lt later active
    have role := roles (username, expiresAt)
      (LoginAttempts.mem_activeRows.mpr ⟨locked, activeBefore⟩)
    exact ⟨⟨username, rfl, locked, activeBefore⟩,
      encodeUsername_not_free role, active⟩

theorem entries_install_of_full
    (full : (table.activeRows now).length = lockCacheSize) (cache : LockCache)
    {appliedAt : TimestampTz}
    (lasting : ∀ row ∈ table.activeRows now, appliedAt < row.2)
    (slot : Fin lockCacheSize) :
    ∃ row ∈ table.activeRows now,
      ((read table now).install cache appliedAt).1.entries slot =
        ⟨encodeUsername row.1, row.2⟩ := by
  have accepted : (read table now).prepared.filter
      (LockCache.installs appliedAt) = (read table now).prepared := by
    apply List.filter_eq_self.mpr
    intro entry member
    rw [read_prepared roles, List.mem_map] at member
    rcases member with ⟨row, selected, rfl⟩
    have active := lasting row (mem_of_mem_select selected)
    have used := encodeUsername_not_free (roles row (mem_of_mem_select selected))
    simp [LockCache.installs, used, decisionFor_active active]
  have count : (read table now).prepared.length = lockCacheSize := by
    rw [read_prepared roles, List.length_map, select_length, full,
      Nat.min_self]
  have bound : slot.val < (read table now).prepared.length := by
    rw [count]
    exact slot.isLt
  have filled : ((read table now).install cache appliedAt).1.entries slot =
      (read table now).prepared[slot.val] := by
    have cells := @SlotTable.fillFrom_cells _ _ (LockCache.installs appliedAt)
      (read table now).prepared 0 (fun _ => LockEntry.new) slot
    rw [if_neg (Nat.not_lt_zero _), Nat.sub_zero, accepted,
      List.getElem?_eq_getElem bound] at cells
    exact cells
  have member := List.getElem_mem bound
  rw [← filled, read_prepared roles, List.mem_map] at member
  rcases member with ⟨row, selected, same⟩
  exact ⟨row, mem_of_mem_select selected, same.symm⟩

end Prepared

theorem readState_install (snapshot : Snapshot) (cache : LockCache)
    (appliedAt : TimestampTz) :
    (snapshot.install cache appliedAt).1.readState = snapshot.newState :=
  CacheState.fromRaw_raw snapshot.newState

/-- The cache after the installation: well formed, and when it is ready it
holds every lockout that was read and is still active. -/
theorem install_spec (roles : table.RoleNames) (cache : LockCache)
    (appliedAt : TimestampTz) :
    ((read table now).install cache appliedAt).1.WellFormed ∧
      (((read table now).install cache appliedAt).1.readState = .ready →
        now ≤ appliedAt → ∀ username expiresAt,
          table.lockoutUntil username = some expiresAt →
          appliedAt < expiresAt →
          ((read table now).install cache appliedAt).1.held
            (encodeUsername username) = some expiresAt) := by
  have activeRoles := roles.activeRoles now
  refine ⟨wellFormed_install activeRoles cache appliedAt,
    fun ready later username expiresAt locked active => ?_⟩
  rw [readState_install, newState_eq_ready_iff] at ready
  exact (held_install activeRoles ready cache later).mpr
    ⟨username, rfl, locked, active⟩

end Snapshot

end PasswordProfile.Lockout
