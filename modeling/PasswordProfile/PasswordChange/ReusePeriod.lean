import PasswordProfile.Foundation.Execution
import PasswordProfile.PasswordChange.ValidatePassword

/-! # The reuse period

A sequence of password changes of one user, each in its own transaction. The
hook first validates a password and then records it; a change that fails leaves
nothing behind. That two moments are less than a number of days apart is judged
as the database does it, in the time zone of the session.
-/

namespace PasswordProfile.PasswordChange.ReusePeriod

open Bypass Execution Expiry Lockout Selection

structure AcceptedChange where
  password : String
  time : TimestampTz
  deriving DecidableEq, Repr

structure World where
  history : PasswordHistory
  expiry : PasswordExpiry
  /-- The changes that were accepted, newest first. -/
  accepted : List AcceptedChange
  /-- The start of the last transaction. -/
  last : Option TimestampTz

/-- Any history may be there; the first change is later than its last row. -/
def start (username : String) (history : PasswordHistory)
    (expiry : PasswordExpiry) : World where
  history
  expiry
  accepted := []
  last := (history.of username).getLast?.map HistoryRow.changedAt

/-- An attempt to change the password, with everything the database answers. -/
structure Attempt where
  password : String
  catalog : List Role
  reads : ValidationReads
  scan : ScanOrder
  draw : Draw

namespace World

variable (validator : Validator) (username : String)

def validate (world : World) (attempt : Attempt) :
    Except String ValidationOutcome :=
  validator.validatePassword attempt.catalog attempt.reads world.history
    attempt.scan username attempt.password attempt.draw.now

def record (world : World) (attempt : Attempt) :
    Except String (Written × Bool) :=
  recordPasswordChangeInternal validator.digests validator.calendar
    validator.settings ⟨world.history, world.expiry, .new⟩ username
    attempt.password attempt.draw

def change (world : World) (attempt : Attempt) : World :=
  match world.validate validator username attempt with
  | .ok .accepted =>
      match world.record validator username attempt with
      | .ok (written, _) =>
          { history := written.history
            expiry := written.expiry
            accepted :=
              ⟨attempt.password, attempt.draw.now⟩ :: world.accepted
            last := some attempt.draw.now }
      | .error _ => { world with last := some attempt.draw.now }
  | _ => { world with last := some attempt.draw.now }

def machine : Machine World Attempt where
  step world attempt :=
    if world.last.all (· < attempt.draw.now) then
      some (world.change validator username attempt)
    else none

/-- Changes to the same password are at least the reuse period apart. -/
def HonoursReusePeriod (world : World) : Prop :=
  world.accepted.Pairwise fun later earlier =>
    later.password = earlier.password →
      ¬validator.calendar.minusDays later.time
        validator.settings.passwordReuseDays < earlier.time

def Renews (world : World) (attempt : Attempt) : Prop :=
  ∃ row ∈ select latestFirst 1 (world.history.of username),
    storedHashMatches validator.digests attempt.password row.passwordHash =
        true ∧
      row.changedAt ≤ validator.calendar.minusDays attempt.draw.now
        validator.settings.passwordReuseDays

/-- Old passwords are counted too, or nobody renews the current one. -/
def CountsOrChanges (world : World) (attempt : Attempt) : Prop :=
  0 < validator.settings.passwordHistoryCount ∨
    ¬world.Renews validator username attempt

instance (world : World) (attempt : Attempt) :
    Decidable (world.CountsOrChanges validator username attempt) :=
  inferInstanceAs (Decidable (_ ∨ ¬∃ row ∈ _, _ ∧ _))

/-! ## Every accepted change has its row -/

/-- The rows are in order, and each accepted change left one. -/
structure Sound (world : World) : Prop where
  chronological : world.history.Chronological username
  stamped : ∀ row ∈ world.history.of username,
    world.last.any (row.changedAt ≤ ·) = true
  accounted : ∀ change ∈ world.accepted,
    ∃ row ∈ world.history.of username, row.changedAt = change.time ∧
      validator.digests.MadeFrom row.passwordHash change.password
  honours : world.HonoursReusePeriod validator

section Steps

variable {validator username} {world : World} {attempt : Attempt}

theorem Sound.not_alreadyRecorded (sound : world.Sound validator username)
    (limited : 0 < validator.settings.passwordReuseDays)
    (changes : world.CountsOrChanges validator username attempt)
    (accepted : world.validate validator username attempt = .ok .accepted) :
    alreadyRecorded validator.digests world.history username
      attempt.password = false := by
  rcases Validator.validatePassword_accepted accepted with ⟨recent, reused⟩
  rw [alreadyRecorded, sound.chronological.latest]
  cases rows : (world.history.of username).reverse with
  | nil => rfl
  | cons row rest =>
      change storedHashMatches validator.digests attempt.password
        row.passwordHash = false
      rcases changes with counted | kept
      · apply historyCheck_eq_ok recent counted
        rw [sound.chronological.recent, rows]
        have room : validator.settings.passwordHistoryCount.toNat ≠ 0 := by
          omega
        rcases Nat.exists_eq_succ_of_ne_zero room with ⟨limit, positive⟩
        rw [positive]
        exact List.mem_cons_self
      · -- A match would have to be out of the period, and so a renewal.
        by_contra matched
        apply kept
        refine ⟨row, ?_, by simpa using matched, ?_⟩
        · rw [sound.chronological.select_latest, rows]
          exact List.mem_cons_self
        · by_contra within
          apply matched
          apply reuseCheck_eq_ok reused limited
          have own : row ∈ world.history.of username := by
            rw [← List.mem_reverse, rows]
            exact List.mem_cons_self
          exact List.mem_map_of_mem (List.mem_filter.mpr
            ⟨own, by simpa using within⟩)

theorem Sound.apart (sound : world.Sound validator username)
    (faithful : validator.digests.Exact)
    (limited : 0 < validator.settings.passwordReuseDays)
    (accepted : world.validate validator username attempt = .ok .accepted) :
    ∀ earlier ∈ world.accepted, attempt.password = earlier.password →
      ¬validator.calendar.minusDays attempt.draw.now
        validator.settings.passwordReuseDays < earlier.time := by
  intro earlier member same within
  rcases Validator.validatePassword_accepted accepted with ⟨_, reused⟩
  rcases sound.accounted earlier member with ⟨row, own, stamp, made⟩
  have unused := reuseCheck_eq_ok reused limited row.passwordHash
    (List.mem_map_of_mem (List.mem_filter.mpr
      ⟨own, by simpa [stamp] using within⟩))
  rw [(faithful made attempt.password).mpr same] at unused
  cases unused

theorem Sound.before (sound : world.Sound validator username)
    (ordered : world.last.all (· < attempt.draw.now) = true) :
    ∀ row ∈ world.history.of username, row.changedAt < attempt.draw.now := by
  intro row own
  have stamped := sound.stamped row own
  cases last : world.last with
  | none =>
      rw [last] at stamped
      cases stamped
  | some time =>
      rw [last] at stamped ordered
      exact lt_of_le_of_lt (of_decide_eq_true stamped)
        (of_decide_eq_true ordered)

theorem Sound.refuse (sound : world.Sound validator username)
    (ordered : world.last.all (· < attempt.draw.now) = true) :
    Sound validator username { world with
      last := some attempt.draw.now } where
  chronological := sound.chronological
  stamped := fun row own =>
    decide_eq_true (le_of_lt (sound.before ordered row own))
  accounted := sound.accounted
  honours := sound.honours

theorem Sound.accept (sound : world.Sound validator username)
    (ordered : world.last.all (· < attempt.draw.now) = true) {id : Nat}
    {pwdHash : String} {expiry : PasswordExpiry}
    (made : validator.digests.MadeFrom pwdHash attempt.password)
    (apart : ∀ earlier ∈ world.accepted,
      attempt.password = earlier.password →
        ¬validator.calendar.minusDays attempt.draw.now
          validator.settings.passwordReuseDays < earlier.time) :
    Sound validator username
      { history :=
          world.history ++ [⟨id, username, pwdHash, attempt.draw.now⟩]
        expiry
        accepted := ⟨attempt.password, attempt.draw.now⟩ :: world.accepted
        last := some attempt.draw.now } := by
  have rows := of_append_own world.history
    ⟨id, username, pwdHash, attempt.draw.now⟩
  dsimp only at rows
  have before := sound.before ordered
  exact {
    chronological := sound.chronological.append rfl before
    stamped := by
      intro row own
      rw [rows] at own
      rcases List.mem_append.mp own with older | newest
      · exact decide_eq_true (le_of_lt (before row older))
      · rw [List.mem_singleton.mp newest]
        exact decide_eq_true (le_refl attempt.draw.now)
    accounted := by
      intro change member
      rw [rows]
      rcases List.mem_cons.mp member with rfl | older
      · exact ⟨_, List.mem_append_right _ (List.mem_singleton_self _), rfl,
          made⟩
      · rcases sound.accounted change older with ⟨row, own, stamp, isMade⟩
        exact ⟨row, List.mem_append_left _ own, stamp, isMade⟩
    honours := List.pairwise_cons.mpr ⟨apart, sound.honours⟩ }

theorem Sound.step (faithful : validator.digests.Exact)
    (limited : 0 < validator.settings.passwordReuseDays) {next : World}
    (sound : world.Sound validator username)
    (changes : world.CountsOrChanges validator username attempt)
    (stepped : (machine validator username).step world attempt = some next) :
    next.Sound validator username := by
  rw [machine] at stepped
  dsimp only at stepped
  split at stepped
  swap
  · cases stepped
  next ordered =>
  cases stepped
  rw [World.change]
  split
  swap
  · exact sound.refuse ordered
  next accepted =>
  have fresh := sound.not_alreadyRecorded limited changes accepted
  split
  · next written inserted recorded =>
      rcases written with ⟨history, expiry, pending⟩
      have recorded := (recordPasswordChangeInternal_eq_ok.mp recorded).1
      rcases recordHistory_cases recorded with
        ⟨_, _, already⟩ | ⟨pwdHash, made, _, rfl, _⟩
      · rw [already (recordingEnabled_of_reuseDays limited)] at fresh
        cases fresh
      · exact sound.accept ordered made
          (sound.apart faithful limited accepted)
  · exact sound.refuse ordered

end Steps

theorem sound_start (validator : Validator) {username : String}
    {history : PasswordHistory} (expiry : PasswordExpiry)
    (chronological : history.Chronological username) :
    (start username history expiry).Sound validator username where
  chronological := chronological
  stamped := by
    intro row own
    rcases chronological.getLast? own with ⟨newest, isLast, notLater⟩
    rw [start, isLast]
    exact decide_eq_true notLater
  accounted := fun _ member => by cases member
  honours := .nil

end World

open World

/-- With old passwords counted, or without renewals, no two accepted changes to
one password are less than the reuse period apart. -/
theorem run_honoursReusePeriod {validator : Validator} {username : String}
    {history : PasswordHistory} {expiry : PasswordExpiry}
    {attempts : List Attempt} {world : World}
    (faithful : validator.digests.Exact)
    (limited : 1 ≤ validator.settings.passwordReuseDays)
    (chronological : history.Chronological username)
    (changes : (machine validator username).EveryStep
      (CountsOrChanges validator username) (start username history expiry)
      attempts)
    (completed : (machine validator username).run
      (start username history expiry) attempts = some world) :
    world.HonoursReusePeriod validator :=
  (Machine.run_invariant_of_everyStep (Sound.step faithful limited)
    (sound_start validator expiry chronological) changes completed).honours

/-- A reuse period of one day and no count of old passwords. -/
def periodOnly : Settings where
  passwordHistoryCount := 0
  passwordReuseDays := 1
  passwordExpiryDays := 90
  passwordGraceLogins := 3
  bcryptCost := 10

def attemptAt (password : String) (id : Nat) (time : TimestampTz) :
    Attempt where
  password
  catalog := []
  reads := .open
  scan := .oldestFirst
  draw := ⟨[], id, time, time⟩

def oneDay : Int := 24 * 60 * 60 * microsPerSec

/-- The password is renewed after a day, and again at once. -/
def renewals : List Attempt :=
  [attemptAt "Secret-1" 1 0, attemptAt "Secret-1" 2 oneDay,
    attemptAt "Secret-1" 3 (oneDay + 1)]

/-- The renewal left no row, so nothing stops the change after it. -/
theorem renewals_reuse :
    ∃ world, (machine (.ascii periodOnly) "alice").run (start "alice" [] ∅) renewals =
        some world ∧
      world.accepted = [⟨"Secret-1", oneDay + 1⟩, ⟨"Secret-1", oneDay⟩,
        ⟨"Secret-1", 0⟩] ∧
      world.history.length = 1 ∧
      ¬world.HonoursReusePeriod (.ascii periodOnly) := by
  have summary : ((machine (.ascii periodOnly) "alice").run (start "alice" [] ∅)
      renewals).map (fun world => (world.accepted, world.history.length)) =
      some ([⟨"Secret-1", oneDay + 1⟩, ⟨"Secret-1", oneDay⟩,
        ⟨"Secret-1", 0⟩], 1) := by decide
  rcases Option.map_eq_some_iff.mp summary with ⟨world, completed, read⟩
  simp only [Prod.mk.injEq] at read
  refine ⟨world, completed, read.1, read.2, fun honours => ?_⟩
  rw [HonoursReusePeriod, read.1] at honours
  exact List.rel_of_pairwise_cons honours List.mem_cons_self rfl
    (by decide)

/-- Another password in between: the third attempt is refused, the fourth is
accepted and leaves a row. -/
def alternation : List Attempt :=
  [attemptAt "Secret-1" 1 0, attemptAt "Other-2" 2 10,
    attemptAt "Secret-1" 3 20, attemptAt "Secret-1" 4 oneDay]

theorem alternation_honoursReusePeriod :
    ∃ world, (machine (.ascii periodOnly) "alice").run (start "alice" [] ∅)
        alternation = some world ∧
      world.accepted = [⟨"Secret-1", oneDay⟩, ⟨"Other-2", 10⟩,
        ⟨"Secret-1", 0⟩] ∧
      world.history.length = 3 ∧
      world.HonoursReusePeriod (.ascii periodOnly) := by
  have summary : ((machine (.ascii periodOnly) "alice").run (start "alice" [] ∅)
      alternation).map (fun world => (world.accepted, world.history.length)) =
      some ([⟨"Secret-1", oneDay⟩, ⟨"Other-2", 10⟩, ⟨"Secret-1", 0⟩], 3) := by
    decide
  rcases Option.map_eq_some_iff.mp summary with ⟨world, completed, read⟩
  simp only [Prod.mk.injEq] at read
  have changes : (machine (.ascii periodOnly) "alice").EveryStep
      (CountsOrChanges (.ascii periodOnly) "alice") (start "alice" [] ∅)
      alternation := by decide
  refine ⟨world, completed, read.1, read.2, ?_⟩
  have chronological : PasswordHistory.Chronological [] "alice" := .nil
  exact run_honoursReusePeriod Digests.exact_marked (by decide) chronological
    changes completed

end PasswordProfile.PasswordChange.ReusePeriod
