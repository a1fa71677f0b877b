import PasswordProfile.Administration.Separation

/-! # The readers of an expiry row

Three functions come to a verdict on a row of `password_expiry`: hydration
through the entry that it installs, a rename through the operation that it
stages, and `check_password_expiry` in its report.
-/

namespace PasswordProfile.Administration

open Expiry
open PendingCacheOp (CacheCall)

def noGraceReport : String := "Password expired! No grace logins remaining."

/-- Each column is a scalar subquery: a missing row reads as `NULL` too. -/
def checkPasswordExpiry (passwordExpiryDays : Int) (table : PasswordExpiry)
    (username : String) (now : TimestampTz) : Except String String :=
  if passwordExpiryDays = 0 then .ok "Password expiry disabled"
  else
    let row := table.lookup username
    let overdue := (row.bind ExpiryRow.mustChangeBy).map (decide <| · < now)
    match overdue, row.bind ExpiryRow.graceLoginsRemaining with
    | none, _ => .ok "No password expiry record"
    | some false, _ => .ok "Password valid"
    | some true, some grace =>
        if grace > 0 then
          .error s!"Password expired! {grace} grace login(s) remaining."
        else .error noGraceReport
    | some true, none => .error noGraceReport

def reportedVerdict : Except String String → Option ExpiryDecision
  | .ok report =>
      if report = "No password expiry record" then some .noRow
      else if report = "Password valid" then some .notExpired
      else none
  | .error report =>
      if report = noGraceReport then some .expiredNoGrace
      else some .expiredWithGrace

/-- The three verdicts on the row of a user, when the table is hydrated into
one cache and the operation of a rename is applied to others. -/
structure ReadersAgree (passwordExpiryDays : Int) (table : PasswordExpiry)
    (username : String) (now : TimestampTz) (hydrated : ExpiryCache)
    (renamed : Caches) (committedAt : TimestampTz) : Prop where
  hydration : reportedVerdict
      (checkPasswordExpiry passwordExpiryDays table username now) =
    some (((ExpirySnapshot.read table).install hydrated).1.lookup username now)
  rename : reportedVerdict
      (checkPasswordExpiry passwordExpiryDays table username now) =
    some ((renamed.apply committedAt (.expiry (encodeUsername username)
      (expiryDecisionFromDb table username))).expiry.lookup username now)

/-! ## The verdict of each reader -/

section Verdicts

variable {table : PasswordExpiry} {username : String} {row : ExpiryRow}

/-- The comparison of `check_password_expiry`, which lets the deadline itself
pass. -/
def pastDeadline (mustChangeBy : TimestampTz) (grace : Option Int)
    (now : TimestampTz) : ExpiryDecision :=
  if mustChangeBy < now then
    if grace.any (0 < ·) then .expiredWithGrace else .expiredNoGrace
  else .notExpired

theorem pastDeadline_ne_noRow (mustChangeBy : TimestampTz)
    (grace : Option Int) (now : TimestampTz) :
    pastDeadline mustChangeBy grace now ≠ .noRow := by
  rw [pastDeadline]
  split_ifs <;> nofun

theorem pastDeadline_eq_classify_iff (username : EncodedUsername)
    (mustChangeBy generation : TimestampTz) (grace : Int)
    (now : TimestampTz) :
    pastDeadline mustChangeBy (some grace) now =
        classify ⟨username, mustChangeBy, generation, max grace 0⟩ now ↔
      mustChangeBy ≠ now := by
  rw [pastDeadline, classify, Option.any_some]
  by_cases left : 0 < grace <;>
    rcases lt_trichotomy mustChangeBy now with before | rfl | after <;>
    simp_all [not_lt_of_gt, ne_of_lt, ne_of_gt]

theorem graceReport_ne (grace : Int) :
    s!"Password expired! {grace} grace login(s) remaining." ≠
      noGraceReport := by
  intro same
  have ends := congrArg (fun text => text.toList.reverse.take 12) same
  simp only [String.toList_append, List.reverse_append] at ends
  rw [List.take_append_of_le_length (by decide)] at ends
  exact absurd ends (by decide)

theorem reportedVerdict_check (found : table.lookup username = some row)
    {passwordExpiryDays : Int} (enabled : passwordExpiryDays ≠ 0)
    (now : TimestampTz) :
    reportedVerdict
        (checkPasswordExpiry passwordExpiryDays table username now) =
      some (match row.mustChangeBy with
        | none => .noRow
        | some mustChangeBy =>
            pastDeadline mustChangeBy row.graceLoginsRemaining now) := by
  rw [checkPasswordExpiry, if_neg enabled, found]
  rcases row with ⟨lastChanged, mustChangeBy, grace⟩
  cases mustChangeBy with
  | none => rfl
  | some mustChangeBy =>
      by_cases overdue : mustChangeBy < now
      · cases grace with
        | none => simp [overdue, reportedVerdict, pastDeadline]
        | some grace =>
            by_cases left : 0 < grace
            · simp only [Option.bind_some, Option.map_some, overdue,
                decide_true, gt_iff_lt, left, if_true, Option.any_some,
                reportedVerdict, graceReport_ne, if_false, pastDeadline]
            · simp [overdue, left, reportedVerdict, pastDeadline]
      · simp [overdue, reportedVerdict, pastDeadline]

theorem lookup_of_missing {cache : ExpiryCache}
    (ready : cache.readState = .ready)
    (missing : cache.held (encodeUsername username) = none)
    (now : TimestampTz) : cache.lookup username now = .noRow := by
  rw [ExpiryCache.held] at missing
  rw [ExpiryCache.lookup, if_neg (not_not.mpr ready), missing]

theorem lookup_of_held {cache : ExpiryCache} (ready : cache.readState = .ready)
    {entry : ExpiryEntry}
    (held : cache.held (encodeUsername username) = some entry)
    (now : TimestampTz) : cache.lookup username now = classify entry now := by
  rw [ExpiryCache.held] at held
  rw [ExpiryCache.lookup, if_neg (not_not.mpr ready), held]

theorem lookup_install (roles : table.RoleNames)
    (complete : (ExpirySnapshot.read table).overflow = 0)
    (isRole : IsRoleName username) (found : table.lookup username = some row)
    (cache : ExpiryCache) (now : TimestampTz) :
    ((ExpirySnapshot.read table).install cache).1.lookup username now =
      match row.dated with
      | none => .noRow
      | some dated => classify (dated.prepare username) now := by
  have ready : ((ExpirySnapshot.read table).install cache).1.readState =
      .ready := by
    rw [ExpirySnapshot.readState_install]
    exact (ExpirySnapshot.newState_eq_ready_iff _).mpr complete
  cases dates : row.dated with
  | none =>
      apply lookup_of_missing ready
      cases held : ((ExpirySnapshot.read table).install cache).1.held
          (encodeUsername username) with
      | none => rfl
      | some entry =>
          rcases (ExpirySnapshot.install_spec roles cache).2 username isRole
            entry held with ⟨dated, isDated, _⟩
          rw [found, Option.bind_some, dates] at isDated
          cases isDated
  | some dated =>
      have held := (ExpirySnapshot.held_install roles.datedRoles complete
        cache).mpr ⟨username, dated, rfl, by rw [found]; exact dates, rfl⟩
      exact lookup_of_held ready held now

theorem lookup_apply_clear {caches : Caches}
    (wellFormed : caches.expiry.WellFormed)
    (ready : caches.expiry.readState = .ready)
    (committedAt now : TimestampTz) :
    (caches.apply committedAt (.expiry (encodeUsername username)
      .clear)).expiry.lookup username now = .noRow := by
  have gone :=
    (wellFormed.clearEntry_concerns (encodeUsername username)).here
  have unchanged : (caches.expiry.clearEntry
      (encodeUsername username)).1.readState = .ready := ready
  exact lookup_of_missing unchanged gone now

theorem expiry_apply_set (caches : Caches) (username : EncodedUsername)
    (mustChangeBy lastChanged : TimestampTz) (grace : Int)
    (committedAt : TimestampTz) :
    (caches.apply committedAt (.expiry username
      (.set mustChangeBy lastChanged grace))).expiry =
      (caches.expiry.setEntry username mustChangeBy lastChanged grace).1 := by
  rw [Caches.apply]
  dsimp only
  rw [ExpiryCache.applyDecision]

theorem lookup_apply_set {caches : Caches}
    (wellFormed : caches.expiry.WellFormed)
    (ready : caches.expiry.readState = .ready)
    (fits : ¬caches.expiry.Refuses (encodeUsername username))
    (isRole : IsRoleName username) (mustChangeBy lastChanged : TimestampTz)
    (grace : Int) (committedAt now : TimestampTz) :
    (caches.apply committedAt (.expiry (encodeUsername username)
      (.set mustChangeBy lastChanged grace))).expiry.lookup username now =
      classify ⟨encodeUsername username, mustChangeBy, lastChanged,
        max grace 0⟩ now := by
  have used := encodeUsername_not_free isRole
  rw [expiry_apply_set]
  have spec := ExpiryCache.setEntry_of_not_refuses fits mustChangeBy
    lastChanged grace
  have cases := wellFormed.setEntry_cases (encodeUsername username)
    mustChangeBy lastChanged grace
  have answers := fun (after : ExpiryCache) entry ready held =>
    @lookup_of_held username after ready entry held now
  generalize caches.expiry.setEntry (encodeUsername username) mustChangeBy
    lastChanged grace = written at spec cases ⊢
  rcases cases with ⟨_, concerns⟩ | ⟨refused, _⟩
  · apply answers
    · exact (congrArg ExpiryCacheState.fromRaw spec.2).trans ready
    · exact concerns.here
  · have free := spec.1 refused
    rw [used] at free
    cases free

theorem lookup_apply_decision {caches : Caches}
    (wellFormed : caches.expiry.WellFormed)
    (ready : caches.expiry.readState = .ready)
    (fits : ¬caches.expiry.Refuses (encodeUsername username))
    (isRole : IsRoleName username) (found : table.lookup username = some row)
    (committedAt now : TimestampTz) :
    (caches.apply committedAt (.expiry (encodeUsername username)
      (expiryDecisionFromDb table username))).expiry.lookup username now =
      match row.dated, row.graceLoginsRemaining with
      | some dated, some _ => classify (dated.prepare username) now
      | _, _ => .noRow := by
  have cleared := @lookup_apply_clear username caches wellFormed ready
    committedAt now
  rw [expiryDecisionFromDb, found]
  rcases row with ⟨_ | lastChanged, _ | mustChangeBy, _ | grace⟩
  case some.some.some =>
    exact lookup_apply_set wellFormed ready fits isRole mustChangeBy
      lastChanged grace committedAt now
  all_goals exact cleared

end Verdicts

/-- The readers agree exactly on rows without a deadline, and on complete rows
at every other instant than the deadline. -/
theorem readersAgree_iff {table : PasswordExpiry} {username : String}
    {row : ExpiryRow} {hydrated : ExpiryCache} {renamed : Caches}
    {passwordExpiryDays : Int} (enabled : passwordExpiryDays ≠ 0)
    (isRole : IsRoleName username) (found : table.lookup username = some row)
    (roles : table.RoleNames)
    (complete : (ExpirySnapshot.read table).overflow = 0)
    (wellFormed : renamed.expiry.WellFormed)
    (ready : renamed.expiry.readState = .ready)
    (fits : ¬renamed.expiry.Refuses (encodeUsername username))
    (committedAt now : TimestampTz) :
    ReadersAgree passwordExpiryDays table username now hydrated renamed
        committedAt ↔
      row.mustChangeBy = none ∨
        row.lastChanged.isSome ∧ row.graceLoginsRemaining.isSome ∧
          row.mustChangeBy ≠ some now := by
  have reported := reportedVerdict_check found enabled now
  have installed := lookup_install roles complete isRole found hydrated now
  have staged := lookup_apply_decision wellFormed ready fits isRole found
    committedAt now
  have verdicts : ReadersAgree passwordExpiryDays table username now hydrated
      renamed committedAt ↔ _ ∧ _ :=
    ⟨fun agree => ⟨agree.hydration, agree.rename⟩,
      fun both => ⟨both.1, both.2⟩⟩
  rw [verdicts, reported, installed, staged]
  rcases row with ⟨_ | lastChanged, _ | mustChangeBy, _ | grace⟩
  case some.some.some =>
    have compared := pastDeadline_eq_classify_iff (encodeUsername username)
      mustChangeBy lastChanged grace now
    have decided : some (pastDeadline mustChangeBy (some grace) now) =
        some (classify ⟨encodeUsername username, mustChangeBy, lastChanged,
          max grace 0⟩ now) ↔ mustChangeBy ≠ now :=
      ⟨fun same => compared.mp (Option.some.inj same),
        fun apart => congrArg some (compared.mpr apart)⟩
    exact (and_self_iff.trans decided).trans (by simp)
  case none.none.none | none.none.some | some.none.none | some.none.some =>
    exact iff_of_true ⟨rfl, rfl⟩ (.inl rfl)
  all_goals
    apply iff_of_false
    · intro agree
      exact pastDeadline_ne_noRow _ _ _ (Option.some.inj agree.2)
    · simp

def aliceDeadline : PasswordExpiry :=
  AList.insert "alice" ⟨some 5, some 7, some 1⟩ ∅

theorem aliceDeadline_roles : aliceDeadline.RoleNames := by
  intro name present
  by_cases here : name = "alice"
  · subst here
    decide +kernel
  · rw [aliceDeadline, AList.lookup_insert_ne here] at present
    cases present

theorem aliceDeadline_readersAgree :
    ReadersAgree 90 aliceDeadline "alice" 6 .init
      ⟨.init, ExpiryCache.init.setState .ready⟩ 6 := by
  exact (readersAgree_iff (by decide) (by decide +kernel)
    (AList.lookup_insert _) aliceDeadline_roles (by decide +kernel)
    ExpiryCache.wellFormed_init rfl (ExpiryCache.init_not_refuses _) 6 6).mpr
      (.inr ⟨rfl, rfl, by decide⟩)

/-- At the deadline itself the report still calls the password valid, while the
cache has it expired. -/
theorem aliceDeadline_readersDiffer :
    checkPasswordExpiry 90 aliceDeadline "alice" 7 = .ok "Password valid" ∧
      ((ExpirySnapshot.read aliceDeadline).install .init).1.lookup "alice" 7 =
        .expiredWithGrace ∧
      ¬ReadersAgree 90 aliceDeadline "alice" 7 .init
        ⟨.init, ExpiryCache.init.setState .ready⟩ 7 := by
  have reported : checkPasswordExpiry 90 aliceDeadline "alice" 7 =
      .ok "Password valid" := by decide
  have cached := lookup_install aliceDeadline_roles (by decide +kernel)
    (by decide +kernel) (AList.lookup_insert _) .init 7
  refine ⟨reported, cached, fun agree => ?_⟩
  have same := agree.hydration
  rw [reported, cached] at same
  exact absurd same (by decide)

end PasswordProfile.Administration
