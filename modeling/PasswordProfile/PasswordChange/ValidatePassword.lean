import Mathlib.Data.List.Infix
import PasswordProfile.Bypass.Exemption
import PasswordProfile.PasswordChange.Enforcement
import PasswordProfile.PasswordChange.RecordPasswordChange

/-! # Validating a password

The checks of `validate_password` after the exemption, in the order of the
source. The two history checks read the rows that the recorder wrote, the first
one in an order that leaves ties to the database.
-/

namespace PasswordProfile.PasswordChange

open Bypass (Role bypassEnabled)
open Selection Text

/-- The Unicode tables behind the checks of single characters. -/
structure CharacterTables extends CaseTables where
  isUppercase : Char → Bool
  isLowercase : Char → Bool
  isAlphanumeric : Char → Bool

structure PasswordPolicy where
  minLength : Int
  requireUppercase : Bool
  requireLowercase : Bool
  requireDigit : Bool
  requireSpecial : Bool
  preventUsername : Bool
  deriving DecidableEq, Repr

structure ValidationReads where
  policy : Except String PasswordPolicy
  blacklisted : Except String Bool
  /-- The answer of `custom_password_check`, when the function exists. -/
  customCheck : Except String (Option String)

/-- The order in which the database comes upon the rows: a sort may leave ties
in any order. -/
structure ScanOrder where
  arrange : List HistoryRow → List HistoryRow
  perm : ∀ rows, (arrange rows).Perm rows

def ScanOrder.oldestFirst : ScanOrder := ⟨id, fun _ => .refl _⟩

/-- An `i32` cast to `usize`. -/
def asUsize (value : Int) : Nat := (value % 2 ^ 64).toNat

def hashLikeCheck (tables : CharacterTables) (password : String) :
    Except String Unit :=
  if isHashLike tables.toCaseTables password = some false then .ok ()
  else
    .error <|
      "Security violation: Password looks like a precomputed hash. Plain " ++
      "text passwords cannot be in hash format (bcrypt, MD5, SCRAM, etc.)"

def contentChecks (tables : CharacterTables) (policy : PasswordPolicy)
    (username password : String) : Except String Unit :=
  let chars := password.toList
  if (utf8Bytes password).length < asUsize policy.minLength then
    .error "Password too short"
  else if policy.requireUppercase && !chars.any tables.isUppercase then
    .error "Password must contain at least one uppercase letter"
  else if policy.requireLowercase && !chars.any tables.isLowercase then
    .error "Password must contain at least one lowercase letter"
  else if policy.requireDigit &&
      !chars.any (fun char => '0' ≤ char && char ≤ '9') then
    .error "Password must contain at least one digit"
  else if policy.requireSpecial &&
      !chars.any (fun char => !tables.isAlphanumeric char) then
    .error "Password must contain at least one special character"
  else if policy.preventUsername && !username.toList.isEmpty &&
      decide (tables.toLowercase username.toList <:+:
        tables.toLowercase chars) then
    .error "Password cannot contain username"
  else .ok ()

def blacklistCheck (blacklisted : Bool) : Except String Unit :=
  if blacklisted then .error "Password is in blacklist (too common)"
  else .ok ()

/-- `ORDER BY changed_at DESC LIMIT $2`. -/
def PasswordHistory.recent (history : PasswordHistory) (scan : ScanOrder)
    (username : String) (limit : Nat) : List String :=
  (select newestFirst limit (scan.arrange (history.of username))).map
    HistoryRow.passwordHash

def historyCheck (digests : Digests) (settings : Settings)
    (history : PasswordHistory) (scan : ScanOrder)
    (username password : String) : Except String Unit :=
  let historyCount := settings.passwordHistoryCount
  if historyCount > 0 then
    if (history.recent scan username historyCount.toNat).any
        (storedHashMatches digests password) then
      .error <|
        s!"Password was used recently. Cannot reuse last {historyCount} " ++
        "passwords."
    else .ok ()
  else .ok ()

/-- `changed_at > now() - ($2 || ' days')::interval`. -/
def PasswordHistory.within (history : PasswordHistory) (calendar : Calendar)
    (username : String) (days : Int) (now : TimestampTz) : List String :=
  ((history.of username).filter fun row =>
    calendar.minusDays now days < row.changedAt).map HistoryRow.passwordHash

def reuseCheck (digests : Digests) (calendar : Calendar) (settings : Settings)
    (history : PasswordHistory) (username password : String)
    (now : TimestampTz) : Except String Unit :=
  let reuseDays := settings.passwordReuseDays
  if reuseDays > 0 then
    if (history.within calendar username reuseDays now).any
        (storedHashMatches digests password) then
      .error s!"Password was used within last {reuseDays} days"
    else .ok ()
  else .ok ()

def customCheck : Option String → Except String Unit
  | none => .ok ()
  | some message =>
      if !message.isEmpty && message != "OK" then .error message else .ok ()

/-- What validation depends on besides the history and the password. -/
structure Validator where
  tables : CharacterTables
  digests : Digests
  calendar : Calendar
  settings : Settings

def Validator.checks (validator : Validator) (reads : ValidationReads)
    (history : PasswordHistory) (scan : ScanOrder)
    (username password : String) (now : TimestampTz) :
    Except String Unit := do
  hashLikeCheck validator.tables password
  let policy ← reads.policy
  contentChecks validator.tables policy username password
  blacklistCheck (← reads.blacklisted)
  historyCheck validator.digests validator.settings history scan username
    password
  reuseCheck validator.digests validator.calendar validator.settings history
    username password now
  customCheck (← reads.customCheck)

def Validator.validatePassword (validator : Validator) (catalog : List Role)
    (reads : ValidationReads) (history : PasswordHistory) (scan : ScanOrder)
    (username password : String) (now : TimestampTz) :
    Except String ValidationOutcome :=
  Bypass.validatePassword catalog username
    (validator.checks reads history scan username password now)

theorem PasswordHistory.Chronological.recent {history : PasswordHistory}
    {username : String} (chronological : history.Chronological username)
    (scan : ScanOrder) (limit : Nat) :
    history.recent scan username limit =
      ((history.of username).reverse.take limit).map
        HistoryRow.passwordHash := by
  have sorted : (history.of username).reverse.Pairwise fun newer older =>
      newestFirst newer older ∧ ¬newestFirst older newer :=
    chronological.reverse.imp fun before =>
      ⟨le_of_lt before, not_le_of_gt before⟩
  have scanned := (scan.perm (history.of username)).trans
    (List.reverse_perm _).symm
  rw [PasswordHistory.recent, select_eq_take scanned sorted]

/-! ## What an accepted password has passed -/

section Accepted

variable {validator : Validator} {catalog : List Role}
  {reads : ValidationReads} {history : PasswordHistory} {scan : ScanOrder}
  {username password : String} {now : TimestampTz}

theorem bind_eq_ok {first : Except String α} {rest : α → Except String β}
    {result : β} (succeeded : (first >>= rest) = .ok result) :
    ∃ value, first = .ok value ∧ rest value = .ok result := by
  cases first with
  | error message => cases succeeded
  | ok value => exact ⟨value, rfl, succeeded⟩

theorem Validator.checks_eq_ok
    (passed : validator.checks reads history scan username password now =
      .ok ()) :
    historyCheck validator.digests validator.settings history scan username
        password = .ok () ∧
      reuseCheck validator.digests validator.calendar validator.settings
        history username password now = .ok () := by
  rw [checks] at passed
  rcases bind_eq_ok passed with ⟨_, _, passed⟩
  rcases bind_eq_ok passed with ⟨policy, _, passed⟩
  rcases bind_eq_ok passed with ⟨_, _, passed⟩
  rcases bind_eq_ok passed with ⟨_, _, passed⟩
  rcases bind_eq_ok passed with ⟨_, _, passed⟩
  rcases bind_eq_ok passed with ⟨⟨⟩, recent, passed⟩
  rcases bind_eq_ok passed with ⟨⟨⟩, reused, _⟩
  exact ⟨recent, reused⟩

theorem Validator.validatePassword_accepted
    (accepted : validator.validatePassword catalog reads history scan username
      password now = .ok .accepted) :
    historyCheck validator.digests validator.settings history scan username
        password = .ok () ∧
      reuseCheck validator.digests validator.calendar validator.settings
        history username password now = .ok () := by
  rw [validatePassword, Bypass.validatePassword] at accepted
  split at accepted
  · cases accepted
  · rcases Lockout.map_eq_ok accepted with ⟨⟨⟩, passed, _⟩
    exact checks_eq_ok passed

theorem Validator.validatePassword_refused
    (enforced : bypassEnabled catalog username = false)
    (refused : historyCheck validator.digests validator.settings history scan
      username password ≠ .ok ()) :
    ∃ message, validator.validatePassword catalog reads history scan username
      password now = .error message := by
  rw [validatePassword, Bypass.validatePassword, enforced]
  cases verdict : validator.checks reads history scan username password now with
  | error message => exact ⟨message, rfl⟩
  | ok passed => exact absurd (checks_eq_ok verdict).1 refused

theorem historyCheck_eq_ok {digests : Digests} {settings : Settings}
    (passed : historyCheck digests settings history scan username password =
      .ok ()) (counted : 0 < settings.passwordHistoryCount) :
    ∀ stored ∈ history.recent scan username
        settings.passwordHistoryCount.toNat,
      storedHashMatches digests password stored = false := by
  rw [historyCheck, if_pos counted] at passed
  split at passed
  · cases passed
  · next unused => simpa using unused

theorem reuseCheck_eq_ok {digests : Digests} {calendar : Calendar}
    {settings : Settings}
    (passed : reuseCheck digests calendar settings history username password
      now = .ok ()) (limited : 0 < settings.passwordReuseDays) :
    ∀ stored ∈ history.within calendar username settings.passwordReuseDays now,
      storedHashMatches digests password stored = false := by
  rw [reuseCheck, if_pos limited] at passed
  split at passed
  · cases passed
  · next unused => simpa using unused

end Accepted

/-! ## A validator that runs -/

/-- Hashes that show the password behind the mark of a bcrypt hash. -/
def Digests.marked : Digests where
  hash password _ _ := .ok ("$2b$" ++ password)
  verify password stored := some (stored == "$2b$" ++ password)
  md5 := id

theorem Digests.exact_marked : Digests.marked.Exact := by
  intro stored password made candidate
  rcases made with ⟨_, _, hashed⟩
  cases hashed
  have notHex : ("$2b$" ++ password).toList.all isAsciiHexdigit = false := by
    rw [String.toList_append]
    rfl
  rw [storedHashMatches, notHex, Bool.and_false]
  by_cases same : candidate = password
  · subst same
    have verified : (marked.verify candidate ("$2b$" ++ candidate)).getD false =
        true := beq_self_eq_true _
    rw [if_pos verified]
    exact ⟨fun _ => rfl, fun _ => rfl⟩
  · have other : "$2b$" ++ password ≠ "$2b$" ++ candidate :=
      fun equal => same ((String.append_right_inj _).mp equal).symm
    have unverified : (marked.verify candidate ("$2b$" ++ password)).getD
        false = false := beq_eq_false_iff_ne.mpr other
    rw [if_neg (by rw [unverified]; exact Bool.false_ne_true)]
    exact ⟨nofun, fun equal => absurd equal same⟩

def CharacterTables.ascii : CharacterTables :=
  { asciiTables with
    isUppercase := Char.isUpper
    isLowercase := Char.isLower
    isAlphanumeric := Char.isAlphanum }

def Validator.ascii (settings : Settings) : Validator where
  tables := .ascii
  digests := .marked
  calendar := .utc
  settings

/-- No policy besides the history, no blacklist and no custom check. -/
def ValidationReads.open : ValidationReads where
  policy := .ok ⟨0, false, false, false, false, false⟩
  blacklisted := .ok false
  customCheck := .ok none

end PasswordProfile.PasswordChange
