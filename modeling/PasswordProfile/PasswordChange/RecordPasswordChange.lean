import PasswordProfile.Expiry.PasswordExpiry
import PasswordProfile.Lockout.LoginAttempts
import PasswordProfile.PasswordChange.HashLike

/-! # Recording a password change

The only function that writes `password_history` and `password_expiry`. It runs
in the caller's transaction: `now` is the start of that transaction, `clock` a
reading of the clock during the statement.
-/

namespace PasswordProfile.PasswordChange

open Expiry Lockout Selection
open PendingCacheOp (ExpiryDecision PendingState)

/-! ## Stored hashes -/

/-- What the crates `bcrypt` and `md5` compute; the salt is drawn at random. -/
structure Digests where
  hash : (password : String) → (cost : Nat) → (salt : List UInt8) →
    Except String String
  /-- The answer is absent for a text that is no bcrypt hash. -/
  verify : (password stored : String) → Option Bool
  /-- The digest in hexadecimal. -/
  md5 : String → String

def storedHashMatches (digests : Digests) (password stored : String) : Bool :=
  if (digests.verify password stored).getD false then true
  else if (utf8Bytes stored).length = 32 &&
      stored.toList.all isAsciiHexdigit then
    stored == digests.md5 password
  else false

def Digests.MadeFrom (digests : Digests) (stored password : String) : Prop :=
  ∃ cost salt, digests.hash password cost salt = .ok stored

/-- A stored hash matches the password it was made from and no other. -/
def Digests.Exact (digests : Digests) : Prop :=
  ∀ {stored password}, digests.MadeFrom stored password →
    ∀ candidate, storedHashMatches digests candidate stored = true ↔
      candidate = password

/-! ## The table `password_history` -/

structure HistoryRow where
  id : Nat
  username : String
  passwordHash : String
  changedAt : TimestampTz
  deriving DecidableEq, Repr

/-- The rows in the order in which they were inserted. -/
abbrev PasswordHistory := List HistoryRow

def PasswordHistory.of (history : PasswordHistory) (username : String) :
    List HistoryRow :=
  history.filter fun row => row.username = username

/-- `ORDER BY changed_at DESC`. -/
def newestFirst (left right : HistoryRow) : Prop :=
  right.changedAt ≤ left.changedAt

/-- `ORDER BY changed_at DESC, id DESC`. -/
def latestFirst (left right : HistoryRow) : Prop :=
  right.changedAt < left.changedAt ∨
    right.changedAt = left.changedAt ∧ right.id ≤ left.id

instance : DecidableRel newestFirst := fun left right =>
  inferInstanceAs (Decidable (right.changedAt ≤ left.changedAt))

instance : DecidableRel latestFirst := fun left right =>
  inferInstanceAs (Decidable (right.changedAt < left.changedAt ∨
    right.changedAt = left.changedAt ∧ right.id ≤ left.id))

def PasswordHistory.latest (history : PasswordHistory) (username : String) :
    Option String :=
  (select latestFirst 1 (history.of username)).head?.map
    HistoryRow.passwordHash

/-- Every row of the user is newer than the rows before it. -/
def PasswordHistory.Chronological (history : PasswordHistory)
    (username : String) : Prop :=
  (history.of username).Pairwise fun earlier later =>
    earlier.changedAt < later.changedAt

structure Settings where
  passwordHistoryCount : Int
  passwordReuseDays : Int
  passwordExpiryDays : Int
  passwordGraceLogins : Int
  bcryptCost : Int
  deriving DecidableEq, Repr

def Settings.passwordHistoryRecordingEnabled (settings : Settings) : Bool :=
  settings.passwordHistoryCount > 0 || settings.passwordReuseDays > 0

theorem recordingEnabled_of_count {settings : Settings}
    (counted : 0 < settings.passwordHistoryCount) :
    settings.passwordHistoryRecordingEnabled = true := by
  simp [Settings.passwordHistoryRecordingEnabled, counted]

theorem recordingEnabled_of_reuseDays {settings : Settings}
    (limited : 0 < settings.passwordReuseDays) :
    settings.passwordHistoryRecordingEnabled = true := by
  simp [Settings.passwordHistoryRecordingEnabled, limited]

/-- `BCRYPT_COST.get().clamp(4, 31)`. -/
def Settings.cost (settings : Settings) : Nat :=
  (min (max settings.bcryptCost 4) 31).toNat

def alreadyRecorded (digests : Digests) (history : PasswordHistory)
    (username password : String) : Bool :=
  (history.latest username).any (storedHashMatches digests password)

/-- The first half; the result tells whether a row was inserted. The sequence
of the table gives the `id`. -/
def recordHistory (digests : Digests) (settings : Settings)
    (history : PasswordHistory) (username password : String)
    (salt : List UInt8) (id : Nat) (now : TimestampTz) :
    Except String (PasswordHistory × Bool) :=
  if settings.passwordHistoryRecordingEnabled then
    if alreadyRecorded digests history username password then
      .ok (history, false)
    else
      match digests.hash password settings.cost salt with
      | .error message => .error ("Failed to hash password: " ++ message)
      | .ok pwdHash =>
          .ok (history ++ [⟨id, username, pwdHash, now⟩], true)
  else .ok (history, false)

/-! ## The table `password_expiry` -/

/-- A timestamp moved by whole days, in the time zone of the session. -/
structure Calendar where
  plusDays : TimestampTz → Int → TimestampTz
  minusDays : TimestampTz → Int → TimestampTz

/-- Days of 24 hours, as in a time zone without clock changes. -/
def Calendar.utc : Calendar where
  plusDays time days := time + days * (24 * 60 * 60 * microsPerSec)
  minusDays time days := time - days * (24 * 60 * 60 * microsPerSec)

/-- `GREATEST(clock_timestamp(), COALESCE(last_changed, '-infinity') + 1 µs)`.
-/
def generation (table : PasswordExpiry) (username : String)
    (clock : TimestampTz) : TimestampTz :=
  match (table.lookup username).bind ExpiryRow.lastChanged with
  | some lastChanged => max clock (lastChanged + 1)
  | none => clock

def expiryRow (calendar : Calendar) (settings : Settings)
    (generation : TimestampTz) : ExpiryRow where
  lastChanged := some generation
  mustChangeBy :=
    some (calendar.plusDays generation settings.passwordExpiryDays)
  graceLoginsRemaining := some settings.passwordGraceLogins

def recordExpiry (calendar : Calendar) (settings : Settings)
    (table : PasswordExpiry) (pending : PendingState) (username : String)
    (clock : TimestampTz) : Except String (PasswordExpiry × PendingState) :=
  if settings.passwordExpiryDays > 0 then
    let lastChanged := generation table username clock
    let mustChangeBy :=
      calendar.plusDays lastChanged settings.passwordExpiryDays
    (stageInner pending username none
        (.set mustChangeBy lastChanged settings.passwordGraceLogins)).map
      fun staged => (table.insert username
        (expiryRow calendar settings lastChanged), staged)
  else
    (stageInner pending username none .clear).map
      fun staged => (table.erase username, staged)

/-! ## Both halves -/

/-- The tables and the staged cache operations that a change leaves. -/
structure Written where
  history : PasswordHistory
  expiry : PasswordExpiry
  pending : PendingState

structure Draw where
  salt : List UInt8
  id : Nat
  now : TimestampTz
  clock : TimestampTz
  deriving DecidableEq, Repr

def recordPasswordChangeInternal (digests : Digests) (calendar : Calendar)
    (settings : Settings) (before : Written) (username password : String)
    (draw : Draw) : Except String (Written × Bool) := do
  let (history, inserted) ← recordHistory digests settings before.history
    username password draw.salt draw.id draw.now
  let (expiry, pending) ← recordExpiry calendar settings before.expiry
    before.pending username draw.clock
  return (⟨history, expiry, pending⟩, inserted)

def recordPasswordChange (digests : Digests) (calendar : Calendar)
    (settings : Settings) (before : Written) (username newPassword : String)
    (draw : Draw) : Except String (Written × String) :=
  (recordPasswordChangeInternal digests calendar settings before username
      newPassword draw).map
    fun (after, inserted) => (after,
      if inserted then "Password change recorded"
      else "Password already recorded; expiry metadata refreshed")

/-! ## The order of the rows -/

instance : Std.Total newestFirst where
  total left right := le_total right.changedAt left.changedAt

instance : IsTrans HistoryRow newestFirst where
  trans _ _ _ first second := le_trans second first

instance : Std.Total latestFirst where
  total left right := by
    rw [latestFirst, latestFirst]
    rcases lt_trichotomy left.changedAt right.changedAt with
      older | same | newer
    · exact .inr (.inl older)
    · rcases le_total right.id left.id with smaller | larger
      · exact .inl (.inr ⟨same.symm, smaller⟩)
      · exact .inr (.inr ⟨same, larger⟩)
    · exact .inl (.inl newer)

instance : IsTrans HistoryRow latestFirst where
  trans first second third newer older := by
    rcases newer with newer | ⟨same, larger⟩
    · rcases older with older | ⟨tied, _⟩
      · exact .inl (lt_trans older newer)
      · exact .inl (tied ▸ newer)
    · rcases older with older | ⟨tied, later⟩
      · exact .inl (same ▸ older)
      · exact .inr ⟨tied.trans same, le_trans later larger⟩

section Order

variable {history : PasswordHistory} {username : String}

@[simp] theorem of_append_own (history : PasswordHistory) (row : HistoryRow) :
    PasswordHistory.of (history ++ [row]) row.username =
      history.of row.username ++ [row] := by
  rw [PasswordHistory.of, PasswordHistory.of, List.filter_append]
  simp

theorem PasswordHistory.Chronological.append
    (chronological : history.Chronological username) {row : HistoryRow}
    (own : row.username = username)
    (later : ∀ earlier ∈ history.of username,
      earlier.changedAt < row.changedAt) :
    PasswordHistory.Chronological (history ++ [row]) username := by
  subst own
  rw [Chronological, of_append_own, List.pairwise_append]
  refine ⟨chronological, List.pairwise_singleton _ _, ?_⟩
  intro earlier member last isLast
  rw [List.mem_singleton.mp isLast]
  exact later earlier member

theorem PasswordHistory.Chronological.reverse
    (chronological : history.Chronological username) :
    (history.of username).reverse.Pairwise fun newer older =>
      older.changedAt < newer.changedAt :=
  List.pairwise_reverse.mpr chronological

theorem PasswordHistory.Chronological.getLast?
    (chronological : history.Chronological username) {row : HistoryRow}
    (own : row ∈ history.of username) :
    ∃ newest, (history.of username).getLast? = some newest ∧
      row.changedAt ≤ newest.changedAt := by
  rw [← List.head?_reverse]
  have ordered := chronological.reverse
  cases rows : (history.of username).reverse with
  | nil =>
      rw [← List.mem_reverse, rows] at own
      cases own
  | cons newest rest =>
      rw [← List.mem_reverse, rows] at own
      rw [rows] at ordered
      refine ⟨newest, rfl, ?_⟩
      rcases List.mem_cons.mp own with rfl | older
      · exact le_refl _
      · exact le_of_lt (List.rel_of_pairwise_cons ordered older)

theorem PasswordHistory.Chronological.select_latest
    (chronological : history.Chronological username) :
    select latestFirst 1 (history.of username) =
      (history.of username).reverse.take 1 := by
  have sorted : (history.of username).reverse.Pairwise fun newer older =>
      latestFirst newer older ∧ ¬latestFirst older newer := by
    refine chronological.reverse.imp fun {newer older} before =>
      ⟨.inl before, ?_⟩
    intro back
    rcases back with after | ⟨tied, _⟩
    · exact lt_asymm before after
    · exact before.ne' tied
  exact select_eq_take (List.reverse_perm _).symm sorted

theorem PasswordHistory.Chronological.latest
    (chronological : history.Chronological username) :
    history.latest username =
      (history.of username).reverse.head?.map HistoryRow.passwordHash := by
  rw [PasswordHistory.latest, chronological.select_latest]
  cases (history.of username).reverse <;> rfl

end Order

/-! ## What each half can do -/

section Recording

variable {digests : Digests} {calendar : Calendar} {settings : Settings}
  {history newHistory : PasswordHistory} {table newTable : PasswordExpiry}
  {pending newPending : PendingState} {username password : String}
  {salt : List UInt8} {id : Nat} {now clock : TimestampTz} {inserted : Bool}

/-- A change either leaves the history alone or appends one row, whose hash was
made from the password. -/
theorem recordHistory_cases
    (recorded : recordHistory digests settings history username password salt
      id now = .ok (newHistory, inserted)) :
    (newHistory = history ∧ inserted = false ∧
      (settings.passwordHistoryRecordingEnabled = true →
        alreadyRecorded digests history username password = true)) ∨
    ∃ pwdHash, digests.MadeFrom pwdHash password ∧
      alreadyRecorded digests history username password = false ∧
      newHistory = history ++ [⟨id, username, pwdHash, now⟩] ∧
      inserted = true := by
  rw [recordHistory] at recorded
  split at recorded
  · split at recorded
    · next already =>
        cases recorded
        exact .inl ⟨rfl, rfl, fun _ => already⟩
    · next fresh =>
        split at recorded
        · cases recorded
        · next pwdHash hashed =>
            cases recorded
            exact .inr ⟨pwdHash, ⟨_, _, hashed⟩, by simpa using fresh, rfl,
              rfl⟩
  · next disabled =>
      cases recorded
      exact .inl ⟨rfl, rfl, fun enabled => absurd enabled disabled⟩

theorem recordExpiry_cases
    (recorded : recordExpiry calendar settings table pending username clock =
      .ok (newTable, newPending)) :
    (0 < settings.passwordExpiryDays ∧
      newTable = table.insert username
        (expiryRow calendar settings (generation table username clock)) ∧
      stageInner pending username none
        (.set (calendar.plusDays (generation table username clock)
            settings.passwordExpiryDays)
          (generation table username clock) settings.passwordGraceLogins) =
        .ok newPending) ∨
    (¬0 < settings.passwordExpiryDays ∧ newTable = table.erase username ∧
      stageInner pending username none .clear = .ok newPending) := by
  rw [recordExpiry] at recorded
  split at recorded
  · next enabled =>
      rcases map_eq_ok recorded with ⟨staged, succeeded, same⟩
      cases same
      exact .inl ⟨enabled, rfl, succeeded⟩
  · next disabled =>
      rcases map_eq_ok recorded with ⟨staged, succeeded, same⟩
      cases same
      exact .inr ⟨disabled, rfl, succeeded⟩

theorem recordPasswordChangeInternal_eq_ok {before after : Written}
    {draw : Draw} :
    recordPasswordChangeInternal digests calendar settings before username
        password draw = .ok (after, inserted) ↔
      recordHistory digests settings before.history username password
          draw.salt draw.id draw.now = .ok (after.history, inserted) ∧
        recordExpiry calendar settings before.expiry before.pending username
          draw.clock = .ok (after.expiry, after.pending) := by
  rw [recordPasswordChangeInternal]
  cases recordHistory digests settings before.history username password
      draw.salt draw.id draw.now with
  | error message => simp [bind, Except.bind]
  | ok first =>
      cases recordExpiry calendar settings before.expiry before.pending
          username draw.clock with
      | error message => simp [bind, Except.bind]
      | ok second =>
          rcases after with ⟨history, expiry, pending⟩
          rcases first with ⟨_, _⟩
          rcases second with ⟨_, _⟩
          simp only [bind, Except.bind, pure, Except.pure, Except.ok.injEq,
            Prod.mk.injEq, Written.mk.injEq]
          tauto

theorem lt_generation {row : ExpiryRow} {lastChanged : TimestampTz}
    (found : table.lookup username = some row)
    (changed : row.lastChanged = some lastChanged) :
    lastChanged < generation table username clock := by
  rw [generation, found, Option.bind_some, changed]
  exact lt_of_lt_of_le (Int.lt_succ lastChanged) (le_max_right _ _)

theorem generation_eq_clock (absent : table.lookup username = none) :
    generation table username clock = clock := by
  rw [generation, absent]
  rfl

end Recording

end PasswordProfile.PasswordChange
