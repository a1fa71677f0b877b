import PasswordProfile.Lockout.LoginAttempts

/-! # The access check of the SQL interface

`check_user_access` consults the cache and then the table. The remaining time
of a row is rounded to whole seconds by the query, and up by the cache.
-/

namespace PasswordProfile.Lockout

/-- `lockout_until > now()`; an error of the query counts as not locked. -/
def isUserLocked (table : LoginAttempts) (username : String)
    (now : TimestampTz) : Bool :=
  (table.lockoutUntil username).any (· > now)

/-- How a call ends: with a text, with an error of its own, or with an `ERROR`
that PostgreSQL raises in the query. -/
inductive AccessOutcome
  | ok (report : String)
  | err (message : String)
  | raised
  deriving DecidableEq, Repr

def int4Max : Int := 2 ^ 31 - 1

/-- `EXTRACT(EPOCH FROM …)::int` of a positive interval: a numeric is rounded
half away from zero. The cast raises an `ERROR` out of range, for
`'infinity'` too. -/
def secondsLeft (micros : Int) : Option Int :=
  let rounded := (micros + microsPerSec / 2) / microsPerSec
  if rounded ≤ int4Max then some rounded else none

def lockedMessage (seconds : Int) : String :=
  s!"Account locked! Please wait {seconds / 60} minute(s) and " ++
  s!"{seconds % 60} second(s). Too many failed login attempts."

def checkTableAccess (table : LoginAttempts) (username : String)
    (now : TimestampTz) : AccessOutcome :=
  match (table.lockoutUntil username).filter (· > now) with
  | none => .ok "Access granted"
  | some lockoutUntil =>
      match secondsLeft (lockoutUntil - now) with
      | none => .raised
      | some seconds =>
          if seconds > 0 then .err (lockedMessage seconds)
          else .ok "Access granted"

def checkUserAccess (table : LoginAttempts) (cache : LockCache)
    (username : String) (now : TimestampTz) : AccessOutcome :=
  match cache.remainingSeconds username now with
  | some seconds =>
      if seconds > 0 then .err (lockedMessage seconds)
      else checkTableAccess table username now
  | none => checkTableAccess table username now

def AccessOutcome.ReportsLocked (outcome : AccessOutcome) : Prop :=
  ∃ seconds, 0 < seconds ∧ outcome = .err (lockedMessage seconds)

/-- A user that `is_user_locked` calls locked is told so. -/
def NeverGrantsLocked (table : LoginAttempts) (cache : LockCache)
    (username : String) (now : TimestampTz) : Prop :=
  isUserLocked table username now = true →
    (checkUserAccess table cache username now).ReportsLocked

/-! ## The two ways to the locked error -/

section Access

variable {table : LoginAttempts} {cache : LockCache} {username : String}
  {now lockoutUntil : TimestampTz}

theorem not_reportsLocked_ok (report : String) :
    ¬(AccessOutcome.ok report).ReportsLocked := by
  rintro ⟨_, _, same⟩
  cases same

theorem not_reportsLocked_raised : ¬AccessOutcome.raised.ReportsLocked := by
  rintro ⟨_, _, same⟩
  cases same

theorem lt_of_findActive {encoded : EncodedUsername}
    {expiresAt : TimestampTz}
    (found : cache.findActive encoded now = some expiresAt) :
    now < expiresAt := by
  rw [LockCache.findActive] at found
  rcases Option.map_eq_some_iff.mp found with ⟨slot, selected, rfl⟩
  have active := Fin.eq_true_of_find?_eq_some selected
  simp only [Bool.and_eq_true, decide_eq_true_eq] at active
  exact active.2.2

theorem remainingSecondsCeil_active {expiresAt : TimestampTz}
    (active : now < expiresAt) :
    ∃ seconds, remainingSecondsCeil expiresAt now = some seconds ∧
      0 < seconds := by
  refine ⟨_, if_neg (not_le.mpr active), ?_⟩
  exact lt_of_lt_of_le (by decide) (le_max_right _ 1)

theorem reportsLocked_of_cached {expiresAt : TimestampTz}
    (found : cache.findActive (encodeUsername username) now =
      some expiresAt) :
    (checkUserAccess table cache username now).ReportsLocked := by
  rcases remainingSecondsCeil_active (lt_of_findActive found) with
    ⟨seconds, remaining, positive⟩
  refine ⟨seconds, positive, ?_⟩
  rw [checkUserAccess, LockCache.remainingSeconds, found, Option.bind_some,
    remaining]
  exact if_pos positive

/-- The query finds a lockout that has half a second to go, and not too many
seconds to count them. -/
theorem reportsLocked_checkTableAccess
    (row : table.lockoutUntil username = some lockoutUntil)
    (active : now < lockoutUntil) :
    (checkTableAccess table username now).ReportsLocked ↔
      microsPerSec / 2 ≤ lockoutUntil - now ∧
        lockoutUntil - now < int4Max * microsPerSec + microsPerSec / 2 := by
  have selected : (table.lockoutUntil username).filter (· > now) =
      some lockoutUntil := by
    rw [row]
    exact Option.filter_some_pos (decide_eq_true active)
  rw [checkTableAccess, selected]
  simp only [secondsLeft]
  have bounds : ∀ micros : Int, 0 < micros →
      ((micros + microsPerSec / 2) / microsPerSec ≤ int4Max ↔
        micros < int4Max * microsPerSec + microsPerSec / 2) ∧
      (0 < (micros + microsPerSec / 2) / microsPerSec ↔
        microsPerSec / 2 ≤ micros) := by
    intro micros _
    simp only [microsPerSec, int4Max]
    omega
  have bound := bounds (lockoutUntil - now) (sub_pos.mpr active)
  by_cases fits : (lockoutUntil - now + microsPerSec / 2) / microsPerSec ≤
      int4Max
  · rw [if_pos fits]
    by_cases counted :
        0 < (lockoutUntil - now + microsPerSec / 2) / microsPerSec
    · dsimp only
      rw [if_pos counted]
      exact iff_of_true ⟨_, counted, rfl⟩
        ⟨bound.2.mp counted, bound.1.mp fits⟩
    · dsimp only
      rw [if_neg counted]
      exact iff_of_false (not_reportsLocked_ok _)
        fun both => counted (bound.2.mpr both.1)
  · rw [if_neg fits]
    exact iff_of_false not_reportsLocked_raised
      fun both => fits (bound.1.mpr both.2)

theorem checkUserAccess_of_uncached
    (missing : cache.findActive (encodeUsername username) now = none) :
    checkUserAccess table cache username now =
      checkTableAccess table username now := by
  rw [checkUserAccess, LockCache.remainingSeconds, missing, Option.bind_none]

end Access

/-- A locked user is told so exactly when the cache has an active entry, or the
time left is at least half a second and counts as an `int`. -/
theorem neverGrantsLocked_iff (table : LoginAttempts) (cache : LockCache)
    (username : String) (now : TimestampTz) :
    NeverGrantsLocked table cache username now ↔
      ∀ lockoutUntil, table.lockoutUntil username = some lockoutUntil →
        now < lockoutUntil →
          (cache.findActive (encodeUsername username) now).isSome ∨
            microsPerSec / 2 ≤ lockoutUntil - now ∧
              lockoutUntil - now <
                int4Max * microsPerSec + microsPerSec / 2 := by
  have locked_iff : ∀ lockoutUntil,
      table.lockoutUntil username = some lockoutUntil →
        (isUserLocked table username now = true ↔ now < lockoutUntil) := by
    intro lockoutUntil row
    rw [isUserLocked, row, Option.any_some, decide_eq_true_iff, gt_iff_lt]
  cases found : cache.findActive (encodeUsername username) now with
  | some expiresAt =>
      exact iff_of_true (fun _ => reportsLocked_of_cached found)
        fun _ _ _ => .inl rfl
  | none =>
      rw [NeverGrantsLocked, checkUserAccess_of_uncached found]
      constructor
      · intro reports lockoutUntil row active
        right
        exact (reportsLocked_checkTableAccess row active).mp
          (reports ((locked_iff lockoutUntil row).mpr active))
      · intro enough locked
        cases row : table.lockoutUntil username with
        | none =>
            rw [isUserLocked, row] at locked
            cases locked
        | some lockoutUntil =>
            have active := (locked_iff lockoutUntil row).mp locked
            rcases enough lockoutUntil row active with cached | bounds
            · cases cached
            · exact (reportsLocked_checkTableAccess row active).mpr bounds

/-- With less than half a second to go and nothing cached, a locked user is
granted access. -/
theorem neverGrantsLocked_lastMoment :
    ¬NeverGrantsLocked (AList.insert "alice" ⟨3, 0, some 1000000⟩ ∅) .init
      "alice" 600000 := by
  intro never
  have told := never (by decide)
  have granted : checkUserAccess (AList.insert "alice"
      ⟨3, 0, some 1000000⟩ ∅) .init "alice" 600000 = .ok "Access granted" := by
    decide +kernel
  rw [granted] at told
  exact not_reportsLocked_ok _ told

end PasswordProfile.Lockout
