import PasswordProfile.Foundation.Execution
import PasswordProfile.PasswordChange.ValidatePassword

/-! # The last passwords of a user

Transactions begin, record passwords and end in any order. The first recording
of a transaction takes the advisory lock of the user, which is held until the
transaction ends, so at most one transaction has rows that the others do not
see.
-/

namespace PasswordProfile.PasswordChange.LastPasswords

open Bypass Execution

/-- The table as some transaction sees it, with the passwords that were
recorded for the user, newest first. -/
structure Version where
  history : PasswordHistory
  recorded : List String

abbrev Transaction := Nat

structure World where
  committed : Version
  /-- The start of every open transaction. -/
  started : Transaction → Option TimestampTz
  /-- The holder of the lock and what it sees. -/
  writer : Option (Transaction × Version)
  /-- The last value that the sequence of the table has given. -/
  sequence : Nat

/-- Rows may be there before the first transaction begins. -/
def start (history : PasswordHistory) : World where
  committed := ⟨history, []⟩
  started := fun _ => none
  writer := none
  sequence := 0

inductive Action
  | begin (transaction : Transaction) (now : TimestampTz)
  | recordPassword (transaction : Transaction) (password : String)
      (salt : List UInt8) (id : Nat)
  | commit (transaction : Transaction)
  | rollback (transaction : Transaction)
  deriving DecidableEq, Repr

namespace World

/-- A transaction sees its own rows and the committed ones. -/
def view (world : World) (transaction : Transaction) : Version :=
  match world.writer with
  | none => world.committed
  | some (holder, version) =>
      if holder = transaction then version else world.committed

def mayWrite (world : World) (transaction : Transaction) : Bool :=
  world.writer.all fun (holder, _) => holder = transaction

variable (digests : Digests) (settings : Settings) (username : String)

def recordPassword (world : World) (transaction : Transaction)
    (password : String) (salt : List UInt8) (id : Nat) : Option World :=
  match world.started transaction with
  | none => none
  | some now =>
      if world.mayWrite transaction && world.sequence < id then
        match recordHistory digests settings (world.view transaction).history
            username password salt id now with
        | .error _ => none
        | .ok (history, inserted) =>
            some { world with
              writer := some (transaction,
                ⟨history, password :: (world.view transaction).recorded⟩)
              sequence := if inserted then id else world.sequence }
      else none

/-- The end of a transaction, which leaves `committed` behind. -/
def finish (world : World) (transaction : Transaction) (committed : Version) :
    Option World :=
  match world.started transaction with
  | none => none
  | some _ =>
      some { world with
        committed
        started := Function.update world.started transaction none
        writer := world.writer.filter fun (holder, _) => holder ≠ transaction }

def step (world : World) : Action → Option World
  | .begin transaction now =>
      match world.started transaction with
      | some _ => none
      | none =>
          some { world with
            started := Function.update world.started transaction (some now) }
  | .recordPassword transaction password salt id =>
      world.recordPassword digests settings username transaction password salt
        id
  | .commit transaction =>
      world.finish transaction (world.view transaction)
  | .rollback transaction => world.finish transaction world.committed

def machine : Machine World Action := ⟨step digests settings username⟩

/-- A row that is inserted is stamped later than every row of the user. -/
def StartsLater (world : World) : Action → Prop
  | .recordPassword transaction password _ _ =>
      alreadyRecorded digests (world.view transaction).history username
          password = false →
        ∀ now ∈ world.started transaction,
          ∀ row ∈ (world.view transaction).history.of username,
            row.changedAt < now
  | _ => True

instance (world : World) (action : Action) :
    Decidable (world.StartsLater digests username action) :=
  match action with
  | .recordPassword .. => inferInstanceAs (Decidable (_ → _))
  | .begin .. => .isTrue trivial
  | .commit _ => .isTrue trivial
  | .rollback _ => .isTrue trivial

end World

/-- Whoever asks, none of the last passwords is accepted for a role that is
not exempt, and recording the last one again inserts nothing. -/
structure EnforcesHistory (validator : Validator) (username : String)
    (world : World) : Prop where
  rejected : ∀ transaction, ∀ password ∈
      (world.view transaction).recorded.take
        validator.settings.passwordHistoryCount.toNat,
    ∀ catalog reads scan now, bypassEnabled catalog username = false →
      ∃ message, validator.validatePassword catalog reads
        (world.view transaction).history scan username password now =
          .error message
  repeated : ∀ transaction password,
    (world.view transaction).recorded.head? = some password →
      ∀ salt id now, recordHistory validator.digests validator.settings
        (world.view transaction).history username password salt id now =
          .ok ((world.view transaction).history, false)

/-! ## The rows account for what was recorded -/

/-- Rows and recorded passwords, newest first: a recording has added a row, or
it has found the password in the newest one. Rows may have been there before. -/
inductive Accounts (digests : Digests) : List HistoryRow → List String → Prop
  | before (rows : List HistoryRow) : Accounts digests rows []
  | inserted {row : HistoryRow} {rows : List HistoryRow}
      {recorded : List String} {password : String}
      (earlier : Accounts digests rows recorded)
      (holds : storedHashMatches digests password row.passwordHash = true) :
      Accounts digests (row :: rows) (password :: recorded)
  | repeated {row : HistoryRow} {rows : List HistoryRow}
      {recorded : List String} {password : String}
      (earlier : Accounts digests (row :: rows) recorded)
      (holds : storedHashMatches digests password row.passwordHash = true) :
      Accounts digests (row :: rows) (password :: recorded)

section Accounting

variable {digests : Digests} {rows : List HistoryRow} {recorded : List String}

theorem matched_take_succ {row : HistoryRow} {newest : String}
    (holds : storedHashMatches digests newest row.passwordHash = true)
    {limit : Nat} (older : ∀ password ∈ recorded.take limit,
      ∃ found ∈ (row :: rows).take (limit + 1),
        storedHashMatches digests password found.passwordHash = true) :
    ∀ password ∈ (newest :: recorded).take (limit + 1),
      ∃ found ∈ (row :: rows).take (limit + 1),
        storedHashMatches digests password found.passwordHash = true := by
  intro password member
  rcases List.mem_cons.mp member with rfl | recordedBefore
  · exact ⟨row, List.mem_cons_self, holds⟩
  · exact older password recordedBefore

theorem Accounts.take (accounts : Accounts digests rows recorded)
    (limit : Nat) : ∀ password ∈ recorded.take limit,
      ∃ row ∈ rows.take limit,
        storedHashMatches digests password row.passwordHash = true := by
  induction accounts generalizing limit with
  | before rows => simp
  | @inserted row rows recorded newest earlier holds induction =>
      cases limit with
      | zero => simp
      | succ limit =>
          apply matched_take_succ holds
          intro password older
          rcases induction limit password older with ⟨found, kept, isHeld⟩
          exact ⟨found, List.mem_cons_of_mem _ kept, isHeld⟩
  | @repeated row rows recorded newest earlier holds induction =>
      cases limit with
      | zero => simp
      | succ limit =>
          apply matched_take_succ holds
          intro password older
          rcases induction limit password older with ⟨found, kept, isHeld⟩
          exact ⟨found, List.take_subset_take_left _ (Nat.le_succ limit) kept,
            isHeld⟩

theorem Accounts.head (accounts : Accounts digests rows recorded)
    {password : String} (last : recorded.head? = some password) :
    ∃ row rest, rows = row :: rest ∧
      storedHashMatches digests password row.passwordHash = true := by
  cases accounts with
  | before => cases last
  | inserted earlier holds =>
      cases last
      exact ⟨_, _, rfl, holds⟩
  | repeated earlier holds =>
      cases last
      exact ⟨_, _, rfl, holds⟩

end Accounting

/-- A version in which the rows are in order and account for the passwords. -/
structure Version.Sound (digests : Digests) (username : String)
    (version : Version) : Prop where
  chronological : version.history.Chronological username
  accounts : Accounts digests (version.history.of username).reverse
    version.recorded

section Soundness

variable {validator : Validator} {username : String} {version : Version}

theorem Version.Sound.alreadyRecorded
    (sound : version.Sound validator.digests username) (password : String) :
    alreadyRecorded validator.digests version.history username password =
      (version.history.of username).reverse.head?.any fun row =>
        storedHashMatches validator.digests password row.passwordHash := by
  rw [PasswordChange.alreadyRecorded, sound.chronological.latest,
    Option.any_map]

theorem Version.Sound.rejected
    (sound : version.Sound validator.digests username)
    (counted : 0 < validator.settings.passwordHistoryCount)
    {password : String}
    (last : password ∈ version.recorded.take
      validator.settings.passwordHistoryCount.toNat)
    {catalog : List Role} {reads : ValidationReads} {scan : ScanOrder}
    {now : TimestampTz} (enforced : bypassEnabled catalog username = false) :
    ∃ message, validator.validatePassword catalog reads version.history scan
      username password now = .error message := by
  apply Validator.validatePassword_refused enforced
  intro passed
  rcases sound.accounts.take _ password last with ⟨row, newest, holds⟩
  have unused := historyCheck_eq_ok passed counted row.passwordHash (by
    rw [sound.chronological.recent]
    exact List.mem_map_of_mem newest)
  rw [holds] at unused
  cases unused

theorem Version.Sound.repeated
    (sound : version.Sound validator.digests username)
    (counted : 0 < validator.settings.passwordHistoryCount)
    {password : String} (last : version.recorded.head? = some password)
    (salt : List UInt8) (id : Nat) (now : TimestampTz) :
    recordHistory validator.digests validator.settings version.history username
      password salt id now = .ok (version.history, false) := by
  rcases sound.accounts.head last with ⟨row, rest, rows, holds⟩
  have already : PasswordChange.alreadyRecorded validator.digests
      version.history username password = true := by
    rw [sound.alreadyRecorded, rows]
    exact holds
  rw [recordHistory, if_pos (recordingEnabled_of_count counted),
    if_pos already]

theorem Version.Sound.record
    (sound : version.Sound validator.digests username)
    (faithful : validator.digests.Exact)
    (counted : 0 < validator.settings.passwordHistoryCount)
    {password : String} {salt : List UInt8} {id : Nat} {now : TimestampTz}
    {history : PasswordHistory} {inserted : Bool}
    (later : PasswordChange.alreadyRecorded validator.digests version.history
        username password = false →
      ∀ row ∈ version.history.of username, row.changedAt < now)
    (recorded : recordHistory validator.digests validator.settings
      version.history username password salt id now =
        .ok (history, inserted)) :
    Version.Sound validator.digests username
      ⟨history, password :: version.recorded⟩ := by
  rcases recordHistory_cases recorded with
    ⟨rfl, _, already⟩ | ⟨pwdHash, made, fresh, rfl, _⟩
  · refine ⟨sound.chronological, ?_⟩
    have found := already (recordingEnabled_of_count counted)
    rw [sound.alreadyRecorded] at found
    have accounts := sound.accounts
    cases rows : (version.history.of username).reverse with
    | nil =>
        rw [rows] at found
        cases found
    | cons row rest =>
        rw [rows] at found accounts
        exact .repeated accounts found
  · refine ⟨sound.chronological.append rfl (later fresh), ?_⟩
    change Accounts validator.digests
      (PasswordHistory.of (version.history ++
        [HistoryRow.mk id username pwdHash now]) username).reverse _
    rw [of_append_own version.history ⟨id, username, pwdHash, now⟩,
      List.reverse_append]
    exact .inserted sound.accounts ((faithful made password).mpr rfl)

end Soundness

namespace World

structure Sound (digests : Digests) (username : String) (world : World) :
    Prop where
  committed : world.committed.Sound digests username
  written : ∀ writer ∈ world.writer, writer.2.Sound digests username

section Steps

variable {validator : Validator} {username : String} {world next : World}

theorem Sound.view {digests : Digests} (sound : world.Sound digests username)
    (transaction : Transaction) :
    (world.view transaction).Sound digests username := by
  rw [World.view]
  split
  · exact sound.committed
  next holder version isWriter =>
  split
  · exact sound.written (holder, version) isWriter
  · exact sound.committed

theorem Sound.finish {digests : Digests} (sound : world.Sound digests username)
    {transaction : Transaction} {committed : Version}
    (published : committed.Sound digests username)
    (finished : world.finish transaction committed = some next) :
    next.Sound digests username := by
  rw [World.finish] at finished
  split at finished
  · cases finished
  · cases finished
    refine ⟨published, fun writer kept => ?_⟩
    exact sound.written writer (Option.filter_eq_some_iff.mp kept).1

theorem Sound.recordPassword
    (sound : world.Sound validator.digests username)
    (faithful : validator.digests.Exact)
    (counted : 0 < validator.settings.passwordHistoryCount)
    {transaction : Transaction} {password : String} {salt : List UInt8}
    {id : Nat}
    (later : world.StartsLater validator.digests username
      (.recordPassword transaction password salt id))
    (stepped : world.recordPassword validator.digests validator.settings
      username transaction password salt id = some next) :
    next.Sound validator.digests username := by
  rw [World.recordPassword] at stepped
  split at stepped
  · cases stepped
  next now isStarted =>
  split at stepped
  · split at stepped
    · cases stepped
    next history inserted recorded =>
    cases stepped
    refine ⟨sound.committed, fun writer isWriter => ?_⟩
    cases isWriter
    exact (sound.view transaction).record faithful counted
      (fun fresh => later fresh now isStarted) recorded
  · cases stepped

theorem Sound.step (faithful : validator.digests.Exact)
    (counted : 0 < validator.settings.passwordHistoryCount) {action : Action}
    (sound : world.Sound validator.digests username)
    (later : world.StartsLater validator.digests username action)
    (stepped : (machine validator.digests validator.settings username).step
      world action = some next) :
    next.Sound validator.digests username := by
  cases action with
  | begin transaction now =>
      change (match world.started transaction with
        | some _ => none
        | none => some _) = some next at stepped
      split at stepped
      · cases stepped
      · cases stepped
        exact ⟨sound.committed, sound.written⟩
  | recordPassword transaction password salt id =>
      exact sound.recordPassword faithful counted later stepped
  | commit transaction => exact sound.finish (sound.view transaction) stepped
  | rollback transaction => exact sound.finish sound.committed stepped

theorem Sound.enforcesHistory (sound : world.Sound validator.digests username)
    (counted : 0 < validator.settings.passwordHistoryCount) :
    EnforcesHistory validator username world where
  rejected := fun transaction _ last _ _ _ _ enforced =>
    (sound.view transaction).rejected counted last enforced
  repeated := fun transaction _ last salt id now =>
    (sound.view transaction).repeated counted last salt id now

end Steps

theorem sound_start (digests : Digests) {username : String}
    {history : PasswordHistory}
    (chronological : history.Chronological username) :
    (start history).Sound digests username where
  committed := ⟨chronological, .before _⟩
  written := fun _ isWriter => by cases isWriter

end World

open World

/-- In every run in which each row is stamped later than the rows before it,
the last passwords are rejected in every state. -/
theorem run_enforcesHistory {validator : Validator} {username : String}
    {history : PasswordHistory} {actions : List Action} {world : World}
    (faithful : validator.digests.Exact)
    (counted : 1 ≤ validator.settings.passwordHistoryCount)
    (chronological : history.Chronological username)
    (later : (machine validator.digests validator.settings username).EveryStep
      (StartsLater validator.digests username) (start history) actions)
    (completed : (machine validator.digests validator.settings username).run
      (start history) actions = some world) :
    EnforcesHistory validator username world := by
  have sound := Machine.run_invariant_of_everyStep
    (Sound.step faithful counted)
    (sound_start validator.digests chronological) later completed
  exact sound.enforcesHistory counted

def lastOnly : Settings where
  passwordHistoryCount := 1
  passwordReuseDays := 0
  passwordExpiryDays := 90
  passwordGraceLogins := 3
  bcryptCost := 10

def overlapping : List Action :=
  [.begin 1 10, .begin 2 20, .recordPassword 2 "Second-2" [] 1, .commit 2,
    .recordPassword 1 "First-1" [] 2, .commit 1]

/-- The password that was recorded last is accepted again, and recording it
again inserts a second row. -/
theorem overlapping_accepts_last :
    ∃ world, (machine .marked lastOnly "alice").run (start []) overlapping =
        some world ∧
      (world.view 3).recorded = ["First-1", "Second-2"] ∧
      ((Validator.ascii lastOnly).validatePassword [] .open
        (world.view 3).history .oldestFirst "alice" "First-1" 30).toOption =
          some .accepted ∧
      ((recordHistory .marked lastOnly (world.view 3).history "alice"
        "First-1" [] 3 30).toOption.map Prod.snd) = some true ∧
      ¬EnforcesHistory (.ascii lastOnly) "alice" world := by
  have summary : ((machine .marked lastOnly "alice").run (start [])
      overlapping).map (fun world => ((world.view 3).recorded,
        ((Validator.ascii lastOnly).validatePassword [] .open
          (world.view 3).history .oldestFirst "alice" "First-1" 30).toOption,
        (recordHistory .marked lastOnly (world.view 3).history "alice"
          "First-1" [] 3 30).toOption.map Prod.snd)) =
      some (["First-1", "Second-2"], some .accepted, some true) := by
    decide
  rcases Option.map_eq_some_iff.mp summary with ⟨world, completed, read⟩
  simp only [Prod.mk.injEq] at read
  rcases read with ⟨recorded, accepted, inserted⟩
  refine ⟨world, completed, recorded, accepted, inserted, fun enforces => ?_⟩
  have last : "First-1" ∈ (world.view 3).recorded.take 1 := by
    rw [recorded]
    decide
  rcases enforces.rejected 3 "First-1" last [] .open .oldestFirst 30 rfl with
    ⟨message, rejected⟩
  rw [rejected] at accepted
  cases accepted

/-- One transaction after the other, the second of which records twice. -/
def oneAfterTheOther : List Action :=
  [.begin 1 10, .recordPassword 1 "First-1" [] 1, .commit 1, .begin 2 20,
    .recordPassword 2 "Second-2" [] 2, .recordPassword 2 "Second-2" [] 3,
    .commit 2]

theorem oneAfterTheOther_enforcesHistory :
    ∃ world, (machine .marked lastOnly "alice").run (start [])
        oneAfterTheOther = some world ∧
      (world.view 3).recorded = ["Second-2", "Second-2", "First-1"] ∧
      (world.view 3).history.length = 2 ∧
      EnforcesHistory (.ascii lastOnly) "alice" world := by
  have summary : ((machine .marked lastOnly "alice").run (start [])
      oneAfterTheOther).map (fun world => ((world.view 3).recorded,
        (world.view 3).history.length)) =
      some (["Second-2", "Second-2", "First-1"], 2) := by decide
  rcases Option.map_eq_some_iff.mp summary with ⟨world, completed, read⟩
  simp only [Prod.mk.injEq] at read
  have later : (machine .marked lastOnly "alice").EveryStep
      (StartsLater .marked "alice") (start []) oneAfterTheOther := by
    decide
  refine ⟨world, completed, read.1, read.2, ?_⟩
  exact @run_enforcesHistory (.ascii lastOnly) "alice" [] _ _
    Digests.exact_marked (by decide) .nil later completed

end PasswordProfile.PasswordChange.LastPasswords
