import PasswordProfile.Expiry.Cache
import PasswordProfile.Foundation.Selection

/-! # The table `password_expiry`

How the worker persists a consumed grace login, and how the cache is hydrated
from the table. The grace allowance of a row belongs to the password whose
change wrote `last_changed`.
-/

namespace PasswordProfile.Expiry

open Selection

structure ExpiryRow where
  lastChanged : Option TimestampTz
  mustChangeBy : Option TimestampTz
  graceLoginsRemaining : Option Int
  deriving DecidableEq, Repr

/-- The table; `username` is its primary key. -/
abbrev PasswordExpiry := AList fun _ : String => ExpiryRow

def PasswordExpiry.RoleNames (table : PasswordExpiry) : Prop :=
  ∀ username, (table.lookup username).isSome → IsRoleName username

/-! ## Persisting a grace login -/

/-- `CASE WHEN last_changed IS DISTINCT FROM $2 THEN -1 ELSE … END`. -/
def PasswordExpiry.currentGrace (table : PasswordExpiry) (username : String)
    (generation : TimestampTz) : Option Int :=
  match table.lookup username with
  | none => none
  | some row =>
      if row.lastChanged ≠ some generation then some (-1)
      else row.graceLoginsRemaining

/-- The guarded `UPDATE`, with the number of rows that it changed. -/
def PasswordExpiry.decrementGrace (table : PasswordExpiry) (username : String)
    (generation : TimestampTz) : PasswordExpiry × Nat :=
  match table.lookup username with
  | none => (table, 0)
  | some row =>
      if row.lastChanged = some generation ∧
          row.graceLoginsRemaining.any (0 < ·) then
        (table.insert username { row with
            graceLoginsRemaining := row.graceLoginsRemaining.map (· - 1) },
          1)
      else (table, 0)

def noneLeftError : String :=
  "password_profile: grace login was admitted but the authoritative row has " ++
  "none left; refusing to acknowledge the event"

def persistGraceConsumption (table : PasswordExpiry) (username : String)
    (generation : TimestampTz) : Except String PasswordExpiry :=
  match table.currentGrace username generation with
  | none => .ok table
  | some remaining =>
      if remaining = -1 then .ok table
      else if remaining > 0 then
        let (written, updated) := table.decrementGrace username generation
        if updated = 1 then .ok written
        else
          .error <|
            s!"password_profile: grace decrement affected {updated} rows for " ++
            "one username; refusing to acknowledge the event"
      else .error noneLeftError

section Persisting

variable {table written : PasswordExpiry} {username : String}
  {generation : TimestampTz} {row : ExpiryRow}

theorem persistGraceConsumption_stale (found : table.lookup username = some row)
    (stale : row.lastChanged ≠ some generation) :
    persistGraceConsumption table username generation = .ok table := by
  have current : table.currentGrace username generation = some (-1) := by
    rw [PasswordExpiry.currentGrace, found]
    exact if_pos stale
  rw [persistGraceConsumption, current]
  rfl

theorem persistGraceConsumption_decrements
    (found : table.lookup username = some row)
    (generated : row.lastChanged = some generation) {remaining : Int}
    (grace : row.graceLoginsRemaining = some remaining)
    (positive : 0 < remaining) :
    persistGraceConsumption table username generation =
      .ok (table.insert username
        { row with graceLoginsRemaining := some (remaining - 1) }) := by
  have current : table.currentGrace username generation = some remaining := by
    rw [PasswordExpiry.currentGrace, found]
    simp [generated, grace]
  have decremented : table.decrementGrace username generation =
      (table.insert username
        { row with graceLoginsRemaining := some (remaining - 1) }, 1) := by
    rw [PasswordExpiry.decrementGrace, found]
    simp [generated, grace, positive]
  rw [persistGraceConsumption, current]
  have notStale : remaining ≠ -1 := by omega
  simp [notStale, positive, decremented]

/-- An event is dropped, or it takes one grace login from the row whose
generation it names. -/
theorem persistGraceConsumption_cases
    (persisted : persistGraceConsumption table username generation =
      .ok written) :
    written = table ∨
      ∃ row remaining, table.lookup username = some row ∧
        row.lastChanged = some generation ∧
        row.graceLoginsRemaining = some remaining ∧ 0 < remaining ∧
        written = table.insert username
          { row with graceLoginsRemaining := some (remaining - 1) } := by
  cases found : table.lookup username with
  | none =>
      rw [persistGraceConsumption, PasswordExpiry.currentGrace, found]
        at persisted
      cases persisted
      exact .inl rfl
  | some row =>
      by_cases generated : row.lastChanged = some generation
      · have current : table.currentGrace username generation =
            row.graceLoginsRemaining := by
          rw [PasswordExpiry.currentGrace, found]
          simp [generated]
        cases grace : row.graceLoginsRemaining with
        | none =>
            rw [persistGraceConsumption, current, grace] at persisted
            cases persisted
            exact .inl rfl
        | some remaining =>
            by_cases positive : 0 < remaining
            · rw [persistGraceConsumption_decrements found generated grace
                positive] at persisted
              cases persisted
              exact .inr ⟨row, remaining, rfl, generated, grace, positive, rfl⟩
            · rw [persistGraceConsumption, current, grace] at persisted
              simp only [gt_iff_lt, positive, if_false] at persisted
              split at persisted
              · cases persisted
                exact .inl rfl
              · cases persisted
      · rw [persistGraceConsumption_stale found generated] at persisted
        cases persisted
        exact .inl rfl

theorem persistGraceConsumption_frame
    (persisted : persistGraceConsumption table username generation =
      .ok written) {other : String} (different : other ≠ username) :
    written.lookup other = table.lookup other := by
  rcases persistGraceConsumption_cases persisted with
    same | ⟨row, remaining, _, _, _, _, decremented⟩
  · rw [same]
  · rw [decremented]
    exact AList.lookup_insert_ne different

theorem persistGraceConsumption_roleNames (roles : table.RoleNames)
    (role : IsRoleName username)
    (persisted : persistGraceConsumption table username generation =
      .ok written) : written.RoleNames := by
  intro other present
  by_cases here : other = username
  · exact here ▸ role
  · rw [persistGraceConsumption_frame persisted here] at present
    exact roles other present

end Persisting

/-! ## Hydration -/

structure DatedRow where
  mustChangeBy : TimestampTz
  lastChanged : TimestampTz
  graceLoginsRemaining : Option Int
  deriving DecidableEq, Repr

def ExpiryRow.dated (row : ExpiryRow) : Option DatedRow :=
  match row.mustChangeBy, row.lastChanged with
  | some mustChangeBy, some lastChanged =>
      some ⟨mustChangeBy, lastChanged, row.graceLoginsRemaining⟩
  | _, _ => none

def PasswordExpiry.datedRows (table : PasswordExpiry) :
    List (String × DatedRow) :=
  table.entries.filterMap fun row => row.2.dated.map (row.1, ·)

/-- `ORDER BY must_change_by ASC, username ASC`. -/
def expiryOrder (left right : String × DatedRow) : Prop :=
  left.2.mustChangeBy < right.2.mustChangeBy ∨
    left.2.mustChangeBy = right.2.mustChangeBy ∧ left.1 ≤ right.1

instance : DecidableRel expiryOrder := fun left right =>
  inferInstanceAs (Decidable (left.2.mustChangeBy < right.2.mustChangeBy ∨
    left.2.mustChangeBy = right.2.mustChangeBy ∧ left.1 ≤ right.1))

def DatedRow.prepare (username : String) (row : DatedRow) : ExpiryEntry :=
  preparedEntry username row.mustChangeBy row.lastChanged
    (row.graceLoginsRemaining.getD 0)

def ExpiryRow.Describes (row : ExpiryRow) (username : String)
    (entry : ExpiryEntry) : Prop :=
  row.mustChangeBy = some entry.mustChangeBy ∧
    row.lastChanged = some entry.generation ∧
    entry.graceRemaining = max (row.graceLoginsRemaining.getD 0) 0 ∧
    entry.username = encodeUsername username

theorem ExpiryRow.dated_eq_some_iff {row : ExpiryRow} {dated : DatedRow} :
    row.dated = some dated ↔
      row.mustChangeBy = some dated.mustChangeBy ∧
        row.lastChanged = some dated.lastChanged ∧
        dated.graceLoginsRemaining = row.graceLoginsRemaining := by
  rcases row with ⟨_ | lastChanged, _ | mustChangeBy, grace⟩ <;>
    rcases dated with ⟨otherBy, otherChanged, otherGrace⟩ <;>
    simp [dated, eq_comm]

theorem ExpiryRow.describes_iff {row : ExpiryRow} {username : String}
    {entry : ExpiryEntry} :
    row.Describes username entry ↔
      ∃ dated, row.dated = some dated ∧ entry = dated.prepare username := by
  simp only [dated_eq_some_iff]
  constructor
  · intro given
    rcases given with ⟨mustChange, changed, grace, name⟩
    refine ⟨⟨entry.mustChangeBy, entry.generation, row.graceLoginsRemaining⟩,
      ⟨mustChange, changed, rfl⟩, ?_⟩
    rcases entry with ⟨encoded, mustChangeBy, generation, remaining⟩
    dsimp only at grace name
    subst grace
    subst name
    rfl
  · intro given
    rcases given with ⟨dated, ⟨mustChange, changed, grace⟩, rfl⟩
    exact ⟨mustChange, changed, by rw [← grace]; rfl, rfl⟩

structure ExpirySnapshot where
  rows : Int
  prepared : List ExpiryEntry
  deriving DecidableEq, Repr

namespace ExpirySnapshot

/-- The part of `hydrate_expiry_from_db` that holds the table lock. -/
def read (table : PasswordExpiry) : ExpirySnapshot where
  rows := table.datedRows.length
  prepared :=
    (select expiryOrder expiryCacheSize table.datedRows).filterMap fun row =>
      if row.1.isEmpty then none else some (row.2.prepare row.1)

def overflow (snapshot : ExpirySnapshot) : Int :=
  max (snapshot.rows - snapshot.prepared.length) 0

def newState (snapshot : ExpirySnapshot) : ExpiryCacheState :=
  if snapshot.overflow = 0 then .ready else .overflow

def install (snapshot : ExpirySnapshot) (cache : ExpiryCache) :
    ExpiryCache × Int :=
  cache.applyHydrated snapshot.prepared snapshot.rows snapshot.overflow
    snapshot.newState

end ExpirySnapshot

/-- What `hydrate_expiry_from_db` returns. -/
structure ExpiryHydrationStats where
  rows : Int
  loaded : Int
  overflow : Int
  deriving DecidableEq, Repr

/-- Both stages; there is no table before the extension is installed. -/
def hydrateExpiryFromDb (cache : ExpiryCache) (table : Option PasswordExpiry) :
    Except String (ExpiryCache × ExpiryHydrationStats) :=
  match table with
  | none =>
      .error <|
        "expiry cache hydration skipped: password_profile.password_expiry " ++
        "not available"
  | some table =>
      let snapshot := ExpirySnapshot.read table
      let (installed, loaded) := snapshot.install cache
      .ok (installed, ⟨snapshot.rows, loaded, snapshot.overflow⟩)

theorem PasswordExpiry.mem_datedRows {table : PasswordExpiry}
    {username : String} {dated : DatedRow} :
    (username, dated) ∈ table.datedRows ↔
      (table.lookup username).bind ExpiryRow.dated = some dated := by
  rw [datedRows, List.mem_filterMap, Option.bind_eq_some_iff]
  constructor
  · intro given
    rcases given with ⟨⟨name, row⟩, member, kept⟩
    rcases Option.map_eq_some_iff.mp kept with ⟨_, found, same⟩
    cases same
    exact ⟨row, AList.mem_lookup_iff.mpr member, found⟩
  · intro given
    rcases given with ⟨row, found, dates⟩
    exact ⟨⟨username, row⟩, AList.mem_lookup_iff.mp found, by simp [dates]⟩

theorem PasswordExpiry.datedRows_distinct (table : PasswordExpiry) :
    (table.datedRows.map Prod.fst).Nodup := by
  apply filterMap_map_nodup table.nodupKeys
  intro row kept found
  rcases Option.map_eq_some_iff.mp found with ⟨_, _, rfl⟩
  rfl

def PasswordExpiry.DatedRoles (table : PasswordExpiry) : Prop :=
  ∀ row ∈ table.datedRows, IsRoleName row.1

theorem PasswordExpiry.RoleNames.datedRoles {table : PasswordExpiry}
    (roles : table.RoleNames) : table.DatedRoles := by
  intro row member
  have found := PasswordExpiry.mem_datedRows.mp member
  rcases Option.bind_eq_some_iff.mp found with ⟨_, found, _⟩
  exact roles row.1 (by rw [found]; rfl)

namespace ExpirySnapshot

variable {table : PasswordExpiry}

theorem newState_eq_ready_iff (snapshot : ExpirySnapshot) :
    snapshot.newState = .ready ↔ snapshot.overflow = 0 := by
  rw [newState]
  split <;> simp_all

theorem overflow_read_eq_zero_iff (table : PasswordExpiry) :
    (read table).overflow = 0 ↔
      table.datedRows.length ≤ expiryCacheSize ∧
        ∀ row ∈ table.datedRows, row.1 ≠ "" :=
  excess_eq_zero_iff

section Prepared

variable (roles : table.DatedRoles)
include roles

theorem read_prepared :
    (read table).prepared =
      (select expiryOrder expiryCacheSize table.datedRows).map
        fun row => row.2.prepare row.1 :=
  prepared_eq_map fun row member => (roles row member).ne_empty

theorem read_distinct :
    ((read table).prepared.map ExpiryEntry.username).Nodup := by
  rw [read_prepared roles, List.map_map]
  exact nodup_map_encodeUsername (select_map_nodup table.datedRows_distinct)
    (fun row member => roles row (mem_of_mem_select member))

theorem read_fits : (read table).prepared.length ≤ expiryCacheSize := by
  rw [read_prepared roles, List.length_map, select_length]
  exact Nat.min_le_left ..

theorem wellFormed_install (cache : ExpiryCache) :
    ((read table).install cache).1.WellFormed :=
  (cache.applyHydrated_spec _ _ _ (read_distinct roles) (read_fits roles)).1

theorem held_install_iff (cache : ExpiryCache) {encoded : EncodedUsername}
    {entry : ExpiryEntry} :
    ((read table).install cache).1.held encoded = some entry ↔
      ∃ row ∈ select expiryOrder expiryCacheSize table.datedRows,
        encoded = encodeUsername row.1 ∧ entry = row.2.prepare row.1 := by
  have spec := (cache.applyHydrated_spec (read table).rows
    (read table).overflow (read table).newState (read_distinct roles)
    (read_fits roles)).2 encoded entry
  apply spec.trans
  rw [read_prepared roles, List.mem_map]
  constructor
  · intro given
    rcases given with ⟨⟨row, selected, rfl⟩, owned⟩
    have same := (ExpiryEntry.owner_eq_some_iff.mp owned).2
    exact ⟨row, selected, same.symm, rfl⟩
  · intro given
    rcases given with ⟨row, selected, rfl, rfl⟩
    have used := encodeUsername_not_free
      (roles row (mem_of_mem_select selected))
    exact ⟨⟨row, selected, rfl⟩,
      ExpiryEntry.owner_eq_some_iff.mpr ⟨used, rfl⟩⟩

theorem held_install (complete : (read table).overflow = 0)
    (cache : ExpiryCache) {encoded : EncodedUsername} {entry : ExpiryEntry} :
    ((read table).install cache).1.held encoded = some entry ↔
      ∃ username dated, encoded = encodeUsername username ∧
        (table.lookup username).bind ExpiryRow.dated = some dated ∧
        entry = dated.prepare username := by
  have fits := ((overflow_read_eq_zero_iff table).mp complete).1
  rw [held_install_iff roles]
  constructor
  · intro given
    rcases given with ⟨⟨username, dated⟩, selected, encodes, prepares⟩
    exact ⟨username, dated, encodes,
      PasswordExpiry.mem_datedRows.mp (mem_of_mem_select selected), prepares⟩
  · intro given
    rcases given with ⟨username, dated, encodes, found, prepares⟩
    exact ⟨(username, dated),
      mem_select fits (PasswordExpiry.mem_datedRows.mpr found), encodes,
      prepares⟩

end Prepared

theorem readState_install (snapshot : ExpirySnapshot) (cache : ExpiryCache) :
    (snapshot.install cache).1.readState = snapshot.newState :=
  ExpiryCacheState.fromRaw_raw snapshot.newState

/-- An installed entry is the prepared row of its user. -/
theorem install_spec (roles : table.RoleNames) (cache : ExpiryCache) :
    ((read table).install cache).1.WellFormed ∧
      ∀ username, IsRoleName username → ∀ entry,
        ((read table).install cache).1.held (encodeUsername username) =
            some entry →
          ∃ dated,
            (table.lookup username).bind ExpiryRow.dated = some dated ∧
            entry = dated.prepare username := by
  have datedRoles := roles.datedRoles
  refine ⟨wellFormed_install datedRoles cache,
    fun username role entry held => ?_⟩
  rcases (held_install_iff datedRoles cache).mp held with
    ⟨⟨name, dated⟩, selected, encodes, rfl⟩
  have read := mem_of_mem_select selected
  have same := encodeUsername_injective role (datedRoles _ read) encodes
  change username = name at same
  subst same
  exact ⟨dated, PasswordExpiry.mem_datedRows.mp read, rfl⟩

end ExpirySnapshot

end PasswordProfile.Expiry
